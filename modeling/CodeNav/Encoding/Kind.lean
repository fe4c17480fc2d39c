/-
Module: CodeNav.Encoding.Kind
Purpose: The encodings in which a dump is stored, and their files.
Main exports:
  Encoding, Encoding.path, Encoding.splitFileName?, EncodingFlags
-/

namespace CodeNav

/-- The encodings of a stored dump: as it was uploaded, as tables of vertices and edges, or as
tables of finished documents. -/
inductive Encoding where
  | json
  | graph
  | blob
deriving Repr, DecidableEq, Inhabited

namespace Encoding

/-- The encodings in the order in which they are tried. -/
def all : List Encoding :=
  [.json, .graph, .blob]

/-- The name of an encoding. -/
def name : Encoding → String
  | .json => "json"
  | .graph => "graph"
  | .blob => "blob"

/-- The ending of the file of an encoding. -/
def extension : Encoding → String
  | .json => ".lsif"
  | .graph => ".graph.db"
  | .blob => ".blob.db"

/-- The encoding with a name. -/
def ofName? (name : String) : Option Encoding :=
  all.find? (·.name == name)

/-- The file of an encoding for a base path. -/
def path (kind : Encoding) (base : String) : String :=
  base ++ kind.extension

/-- What precedes an ending, unless that is nothing. -/
def stem? (name ending : String) : Option String :=
  let stem := (name.toList.take (name.length - ending.length))
  if stem.isEmpty || stem ++ ending.toList != name.toList then none else some (String.ofList stem)

/-- The encoding and the base name that a file name is made of. -/
def splitFileName? (name : String) : Option (Encoding × String) :=
  all.findSome? fun kind => (stem? name kind.extension).map fun base => (kind, base)

end Encoding

/-- Which encodings are in use. -/
structure EncodingFlags where
  json : Bool
  graph : Bool
  blob : Bool
deriving Repr, DecidableEq

namespace EncodingFlags

/-- Whether an encoding is in use. -/
def allows (flags : EncodingFlags) : Encoding → Bool
  | .json => flags.json
  | .graph => flags.graph
  | .blob => flags.blob

/-- The encodings in use, in the order in which they are tried. -/
def enabled (flags : EncodingFlags) : List Encoding :=
  Encoding.all.filter flags.allows

end EncodingFlags

end CodeNav
