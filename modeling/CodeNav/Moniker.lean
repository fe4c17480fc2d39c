/-
Module: CodeNav.Moniker
Purpose: Names of symbols across repositories, and the packages that they belong to.
Main exports:
  MonikerKind, Moniker, Moniker.rank, Moniker.sort, Package
-/
import CodeNav.VertexId

namespace CodeNav

open Json (Cause Decoder Fault Mismatch Node Shape Value)

/-- Whether a symbol is taken from a package, private to its dump, or offered to others. -/
inductive MonikerKind where
  | imported
  | internal
  | exported
deriving Repr, DecidableEq, Hashable, Inhabited

namespace MonikerKind

/-- The kinds in order of preference. -/
def all : List MonikerKind :=
  [.imported, .internal, .exported]

/-- The kind as it is written. -/
def name : MonikerKind → String
  | .imported => "import"
  | .internal => "local"
  | .exported => "export"

/-- The rank of a kind when monikers are tried in turn. -/
def preference : MonikerKind → Nat
  | .imported => 0
  | .internal => 1
  | .exported => 2

/-- The kind with a name. -/
def ofName? (name : String) : Option MonikerKind :=
  all.find? (·.name == name)

/-- The kind with a name, or the complaint that there is none. -/
def named (name : String) : Except Mismatch MonikerKind :=
  match ofName? name with
  | some kind => .ok kind
  | none => .error (.of (.unknownVariant name (all.map (·.name))))

/-- The content of a kind written as an object has to be null. -/
def checkUnit : Node → Except Mismatch Unit
  | .null => .ok ()
  | node => Decoder.refuse "unit" node

/-- The end of a kind written as an object, which holds a single member. -/
def checkSingle (others : Bool) (stop : Option Fault) : Except Mismatch Unit :=
  match others, stop with
  | false, none => .ok ()
  | false, some f =>
    .error (.of (if f.full == .endInObject then .endInObject else .expectedValue))
  | true, _ => .error (.of .expectedValue)

/-- The cause why an object without a readable member is no kind. -/
def emptyCause : Option Fault → Cause
  | none => .expectedValue
  | some f =>
    match f.full with
    | .endInObject => .endInValue
    | .keyMustBeString => .expectedValue
    | cause => cause

/-- The cause why an unreadable part is no kind: only a text or an object is looked into. -/
def faultCause (f : Fault) : Cause :=
  match f.full with
  | .expectedIdent | .invalidNumber => .expectedValue
  | cause => cause

/-- Reads a kind, written as its name or as an object that maps the name to null. -/
def decoder : Decoder MonikerKind
  | _, .string s => do named (← Json.atTop s)
  | r, .record members stop => do
    let _ ← r.enter
    match members with
    | [] => throw (.of (emptyCause stop))
    | (name, content) :: others => do
      let kind ← named (← Json.atTop name)
      checkUnit content
      checkSingle (!others.isEmpty) stop
      return kind
  | _, .fault f => .error (.of (faultCause f))
  | _, _ => .error (.of .expectedValue)

end MonikerKind

/-- A name that identifies a symbol across repositories. -/
structure Moniker where
  scheme : String
  identifier : String
  kind : MonikerKind
  package : Option VertexId
deriving Repr, DecidableEq, Inhabited

namespace Moniker

/-- The members of a moniker; one without a kind is private to its dump. -/
def shape : Shape Moniker where
  name := "struct MonikerData"
  start := ⟨"", "", .internal, none⟩
  fields :=
    [.needed "scheme" Decoder.string fun m scheme => { m with scheme },
     .needed "identifier" Decoder.string fun m identifier => { m with identifier },
     .defaulted "kind" MonikerKind.decoder fun m kind => { m with kind },
     .defaulted "packageInformation" (Decoder.option VertexId.decoder)
       fun m package => { m with package }]

/-- Reads a moniker. -/
def decoder : Decoder Moniker :=
  Decoder.shape shape

/-- The moniker as an object; an absent package is left out. -/
def toValue (m : Moniker) : Value :=
  .record ([("scheme", .string m.scheme), ("identifier", .string m.identifier),
      ("kind", .string m.kind.name)]
    ++ (m.package.map fun id => ("packageInformation", id.toValue)).toList)

/-- The schemes that are tried after all others, in this order. -/
def lateSchemes : List String :=
  ["npm", "tsc"]

/-- The rank of a scheme: schemes that are not listed come first. -/
def schemeRank (scheme : String) : Nat :=
  (lateSchemes.idxOf? scheme).elim 0 (· + 1)

/-- The rank of a moniker: its kind, then its scheme. -/
def rank (m : Moniker) : Nat × Nat :=
  (m.kind.preference, schemeRank m.scheme)

/-- Whether a moniker may stand before another. -/
def notAfter (a b : Moniker) : Bool :=
  a.rank.1 < b.rank.1 || (a.rank.1 == b.rank.1 && a.rank.2 ≤ b.rank.2)

/-- Monikers by rank; those of one rank keep their order. -/
def sort (monikers : List Moniker) : List Moniker :=
  monikers.mergeSort notAfter

end Moniker

/-- A published package. -/
structure Package where
  name : String
  version : String
deriving Repr, DecidableEq, Inhabited

namespace Package

/-- The members of a package; one without a version has the empty version. -/
def shape : Shape Package where
  name := "struct PackageInformationData"
  start := ⟨"", ""⟩
  fields :=
    [.needed "name" Decoder.string fun p name => { p with name },
     .defaulted "version" Decoder.string fun p version => { p with version }]

/-- Reads a package. -/
def decoder : Decoder Package :=
  Decoder.shape shape

/-- The package as an object. -/
def toValue (p : Package) : Value :=
  .record [("name", .string p.name), ("version", .string p.version)]

end Package

end CodeNav
