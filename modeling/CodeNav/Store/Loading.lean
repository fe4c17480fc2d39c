/-
Module: CodeNav.Store.Loading
Purpose: Stored dumps found and opened, and their sizes on disk.
Main exports:
  Loaded, Encoding.load, Loaded.first, Files.hasData, Files.dumpFiles, Files.dumpWeight
-/
import CodeNav.Store.Files

namespace CodeNav

/-- A dump opened from the file of an encoding. -/
structure Loaded where
  kind : Encoding
  path : String
  /-- The serial number of the file. -/
  serial : Nat
  source : Source

/-- The octets of a dump that is stored as it was uploaded. Tables are no text: their first page
holds an octet that stands in none directly behind its header, which is 102 octets long. -/
def Content.asText : Content → Except Failure (List UInt8)
  | .octets text => .ok text
  | .tables _ | .index => .error (.malformedText ⟨102, some 1⟩)

/-- The tables that a file holds. -/
def Content.asTables : Content → Except Failure Tables
  | .tables t => .ok t
  | .octets [] | .index => .error (.noTable "meta")
  | .octets (_ :: _) => .error .notTables

namespace Encoding

/-- Opens the content of a file as a dump in an encoding. -/
def openContent (kind : Encoding) (path : String) (content : Content) : Except Failure Source :=
  match kind with
  | .json => do
    let octets ← content.asText
    Source.ofOctets octets
  | kind => do
    let tables ← content.asTables
    Source.ofTables kind path tables

/-- The refusal of a file as it is reported for an encoding: tables are opened by name. -/
def openFailure (kind : Encoding) (path : String) (fault : SystemFault) : Failure :=
  match kind with
  | .json => .fileSystem fault
  | _ => .cannotOpen path

/-- Opens the file at a path as a dump in an encoding. -/
def load (kind : Encoding) (path : String) : FilesM Loaded := fun files =>
  let serial := (files.file? path).elim 0 (·.serial)
  match files.read path with
  | (.error fault, files) => (.error (kind.openFailure path fault), files)
  | (.ok content, files) =>
    match kind.openContent path content with
    | .ok source => (.ok ⟨kind, path, serial, source⟩, files)
    | .error failure => (.error failure, files)

end Encoding

namespace Loaded

/-- Opens the first of some encodings that has a file and can be loaded. -/
def firstOf (base : String) : List Encoding → FilesM Loaded
  | [] => throw (.noData base)
  | kind :: others => do
    let path := kind.path base
    if (← getThe Files).contains path then
      try kind.load path catch _ => firstOf base others
    else firstOf base others

/-- Opens the first enabled encoding that has a file and can be loaded. -/
def first (flags : EncodingFlags) (base : String) : FilesM Loaded :=
  firstOf base flags.enabled

end Loaded

namespace Files

/-- Whether any enabled encoding has a file. -/
def hasData (files : Files) (flags : EncodingFlags) (base : String) : Bool :=
  flags.enabled.any fun kind => files.contains (kind.path base)

/-- The files of every encoding, enabled or not, with their sizes. -/
def dumpFiles (files : Files) (base : String) (sizes : Sizes := .paged) :
    List (Encoding × String × Nat) :=
  Encoding.all.filterMap fun kind =>
    (files.find? (kind.path base)).map fun entry => (kind, kind.path base, entry.size sizes)

/-- The size of the files of every encoding, which stands for the memory that they take. -/
def dumpWeight (files : Files) (base : String) (sizes : Sizes := .paged) : Nat :=
  total ((files.dumpFiles base sizes).map fun (_, _, size) => size)

end Files

end CodeNav
