/-
Module: CodeNav.Json.Decoder
Purpose: Trees read as values of declared shapes, with the first mismatch in text order.
Main exports:
  Json.Mismatch, Json.Reading, Json.Decoder, Json.Field, Json.Shape, Json.Decoder.shape
-/
import CodeNav.Json.Reader
import CodeNav.Json.Printer
import CodeNav.Text.Quoted

namespace CodeNav.Json

/-- A step from a value to a part of it. -/
inductive Segment where
  | key (name : String)
  | index (n : Nat)
  /-- A member whose key could not be read. -/
  | unreadable
deriving Repr, DecidableEq

/-- A refusal and the place of the refused part. -/
structure Mismatch where
  path : List Segment
  cause : Cause
deriving Repr, DecidableEq

namespace Mismatch

/-- A refusal at the top. -/
def of (cause : Cause) : Mismatch :=
  ⟨[], cause⟩

/-- A refusal seen from the value around it. -/
def below (segment : Segment) (m : Mismatch) : Mismatch :=
  { m with path := segment :: m.path }

/-- The text of a path: keys are joined by points, indices stand in brackets. -/
def renderPath : Bool → List Segment → String
  | _, [] => ""
  | _, .index n :: rest =>
    "[" ++ toString n ++ "]" ++ renderPath false rest
  | first, .key name :: rest =>
    (if first then "" else ".") ++ name ++ renderPath false rest
  | first, .unreadable :: rest =>
    (if first then "" else ".") ++ "?" ++ renderPath false rest

/-- The wording of a refusal with its place. A place known only as unreadable is left out. -/
def message (m : Mismatch) : String :=
  match m.path with
  | [] | [.unreadable] => m.cause.message
  | path => renderPath true path ++ ": " ++ m.cause.message

end Mismatch

/-- How a tree is read: the levels of nesting left before the limit, and whether the tree is that
of a complete value, whose sequences have a known length. -/
structure Reading where
  depth : Nat
  complete : Bool
deriving Repr, DecidableEq

namespace Reading

/-- The reading of a text. -/
def text : Reading :=
  ⟨nestingLimit, false⟩

/-- The reading of a complete value. -/
def value : Reading :=
  ⟨nestingLimit, true⟩

/-- The reading inside an array or object. -/
def enter (r : Reading) : Except Mismatch Reading :=
  match r.depth with
  | 0 | 1 => .error (.of .recursionLimit)
  | depth + 1 => .ok { r with depth }

end Reading

/-- A way to read trees as values of a type. -/
abbrev Decoder (α : Type) := Reading → Node → Except Mismatch α

/-- Turns a cause into a refusal at the top. -/
def atTop {α : Type} (result : Except Cause α) : Except Mismatch α :=
  result.mapError .of

/-- A number as it stands in a message. -/
def Number.describe : Number → String
  | .integer n => "integer " ++ Cause.quoted (toString n)
  | .real x => "floating point " ++ Cause.quoted (numberFormat.render x)

/-- A scalar or the kind of a composite as it stands in a message; a fault inside it wins. -/
def Node.describe : Node → Except Cause String
  | .null => .ok "null"
  | .bool b => .ok ("boolean " ++ Cause.quoted (toString b))
  | .number n => n.map Number.describe
  | .string s => s.map fun s => "string " ++ Text.quoted s
  | .list _ _ => .ok "sequence"
  | .record _ _ => .ok "map"
  | .fault f => .error f.full

namespace Decoder

/-- Refuses a tree because of its kind. -/
def refuse {α : Type} (expected : String) (node : Node) : Except Mismatch α := do
  let found ← atTop node.describe
  throw (.of (.invalidType found expected))

/-- Any value. -/
def any : Decoder Value := fun r node =>
  atTop (Value.ofNode r.depth node)

/-- Checks that a tree writes a value, without keeping it. -/
def sound (r : Reading) (node : Node) : Except Mismatch Unit := do
  let _ ← any r node

/-- A text. -/
def string : Decoder String
  | _, .string s => atTop s
  | _, node => refuse "a string" node

/-- A natural number below `limit`, named `type` in messages. -/
def natural (limit : Nat) (type : String) : Decoder Nat
  | _, .number n => do
    match ← atTop n with
    | .integer n =>
      if 0 ≤ n && n < limit then return n.toNat
      else throw (.of (.invalidValue (Number.describe (.integer n)) type))
    | .real x => throw (.of (.invalidType (Number.describe (.real x)) type))
  | _, node => refuse type node

/-- A number of 32 bits. -/
def u32 : Decoder UInt32 := fun r node =>
  (natural (capacity 32) "u32" r node).map UInt32.ofNat

/-- An index. -/
def index : Decoder UInt64 := fun r node =>
  (natural (capacity 64) "usize" r node).map UInt64.ofNat

/-- Null for an absent value. -/
def option {α : Type} (item : Decoder α) : Decoder (Option α)
  | _, .null => .ok none
  | r, node => (item r node).map some

/-- Reads items in order, from the given index on. -/
def items {α : Type} (item : Decoder α) (r : Reading) :
    Nat → List Node → Except Mismatch (List α)
  | _, [] => .ok []
  | n, node :: rest => do
    let value ← (item r node).mapError (·.below (.index n))
    let values ← items item r (n + 1) rest
    return value :: values

/-- A sequence. -/
def list {α : Type} (item : Decoder α) : Decoder (List α)
  | r, .list nodes stop => do
    let inner ← r.enter
    let values ← items item inner 0 nodes
    atTop (closed stop)
    return values
  | _, node => refuse "a sequence" node

/-- Reads a key. -/
def key (key : Except Cause String) : Except Mismatch String :=
  key.mapError fun cause => ⟨[.unreadable], cause⟩

/-- The end of a record, where a further key would stand. -/
def lastKey (stop : Option Fault) : Except Mismatch Unit :=
  (closed stop).mapError fun cause => ⟨[.unreadable], cause⟩

/-- Reads members in order as bindings of their keys. -/
def bindings {α : Type} (item : Decoder α) (r : Reading) :
    List (Except Cause String × Node) → Except Mismatch (List (String × α))
  | [] => .ok []
  | (name, node) :: rest => do
    let name ← key name
    let value ← (item r node).mapError (·.below (.key name))
    let values ← bindings item r rest
    return (name, value) :: values

/-- A map, as its bindings in order. -/
def map {α : Type} (item : Decoder α) : Decoder (List (String × α))
  | r, .record members stop => do
    let inner ← r.enter
    let values ← bindings item inner members
    lastKey stop
    return values
  | _, node => refuse "a map" node

end Decoder

/-- A member of a structure: its name, whether it has to be there, and how it is taken over. -/
structure Field (σ : Type) where
  name : String
  required : Bool
  take : Reading → Node → σ → Except Mismatch σ

/-- A required member read by a decoder and stored by `set`. -/
def Field.needed {σ α : Type} (name : String) (item : Decoder α) (set : σ → α → σ) : Field σ :=
  ⟨name, true, fun r node s => (item r node).map (set s)⟩

/-- A member that may be missing. -/
def Field.defaulted {σ α : Type} (name : String) (item : Decoder α) (set : σ → α → σ) : Field σ :=
  ⟨name, false, fun r node s => (item r node).map (set s)⟩

/-- A structure: its name in messages, its members in the order of declaration, and the structure
before any member is taken over. -/
structure Shape (σ : Type) where
  name : String
  fields : List (Field σ)
  start : σ

namespace Shape

variable {σ : Type}

/-- The required members that were not seen. -/
def missing (shape : Shape σ) (seen : List String) : List String :=
  (shape.fields.filter fun f => f.required && !seen.contains f.name).map (·.name)

/-- Ends a structure: every required member has been seen. -/
def checkMissing (shape : Shape σ) (seen : List String) : Except Mismatch Unit :=
  match shape.missing seen with
  | [] => .ok ()
  | name :: _ => .error (.of (.missingField name))

/-- Takes members over in the order of the text; unknown ones are skipped. -/
def takeMembers (shape : Shape σ) (r : Reading) (seen : List String) (s : σ) :
    List (Except Cause String × Node) → Except Mismatch (List String × σ)
  | [] => .ok (seen, s)
  | (name, node) :: rest => do
    let name ← Decoder.key name
    match shape.fields.find? (·.name == name) with
    | none =>
      (atTop node.skim).mapError (·.below (.key name))
      takeMembers shape r seen s rest
    | some field =>
      if seen.contains name then throw (.of (.duplicateField name))
      let s ← (field.take r node s).mapError (·.below (.key name))
      takeMembers shape r (name :: seen) s rest

/-- The fault at the end of a structure written as a sequence whose members have all been read. -/
def overrun : Option Fault → Option Cause
  | none => none
  | some f =>
    if f.full == .trailingComma || f.full == .endInList then some f.full
    else some .trailingCharacters

/-- What a sequence of the wrong length was expected to be. -/
def expectation (shape : Shape σ) : String :=
  shape.name ++ " with " ++ toString shape.fields.length ++ " elements"

/-- Takes items over as the members in the order of declaration. -/
def takeItems (shape : Shape σ) (r : Reading) (total : Nat) (stop : Option Fault) :
    Nat → List (Field σ) → List Node → σ → Except Mismatch σ
  | _, [], [], s =>
    match overrun stop with
    | some cause => .error (.of cause)
    | none => .ok s
  | _, [], _ :: _, _ =>
    if r.complete then .error (.of (.invalidLength total "fewer elements in array"))
    else .error (.of .trailingCharacters)
  | n, field :: fields, [], s => do
    atTop (closed stop)
    if field.required then throw (.of (.invalidLength n shape.expectation))
    takeItems shape r total stop (n + 1) fields [] s
  | n, field :: fields, node :: nodes, s => do
    let s ← (field.take r node s).mapError (·.below (.index n))
    takeItems shape r total stop (n + 1) fields nodes s

end Shape

/-- A structure written as an object. -/
def Decoder.record {σ : Type} (shape : Shape σ) : Decoder σ
  | r, .record members stop => do
    let inner ← r.enter
    let (seen, s) ← shape.takeMembers inner [] shape.start members
    Decoder.lastKey stop
    shape.checkMissing seen
    return s
  | _, node => Decoder.refuse shape.name node

/-- A structure, written as an object or as the sequence of its members. -/
def Decoder.shape {σ : Type} (shape : Shape σ) : Decoder σ
  | r, .list nodes stop => do
    let inner ← r.enter
    shape.takeItems inner nodes.length stop 0 shape.fields nodes shape.start
  | r, node => Decoder.record shape r node

/-- Reads a whole text by a decoder. -/
def Decoder.parse {α : Type} (decoder : Decoder α) (octets : List UInt8) : Except Mismatch α := do
  let text := read octets
  let value ← decoder .text text.root
  atTop text.finish
  return value

/-- Reads a complete value by a decoder. -/
def Decoder.ofValue {α : Type} (decoder : Decoder α) (value : Value) : Except Mismatch α :=
  decoder .value (.ofValue value)

end CodeNav.Json
