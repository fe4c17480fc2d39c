/-
Module: CodeNav.Json.Node
Purpose: JSON texts as trees that keep the order of members and every fault in place.
Main exports:
  Json.Node, Json.Node.ofValue, Json.Node.skim, Json.Value.ofNode
-/
import CodeNav.Json.Cause
import CodeNav.Json.Value

namespace CodeNav.Json

/-!
A text is read once, into a tree that records what was found and where reading stopped.  Whoever
interprets the tree meets its parts in the order of the text, so the first cause reported is the
first one in the text, whether a part is taken over or only skipped.  Skipping is laxer: it
neither checks that a number is in range nor that a string holds proper characters.
-/

/-- What a JSON text holds. A tree that stops early holds its fault in the last place reached. -/
inductive Node where
  | null
  | bool (b : Bool)
  | number (n : Except Cause Number)
  | string (s : Except Cause String)
  /-- The items read, and the fault in place of a further item or the end. -/
  | list (items : List Node) (stop : Option Fault)
  /-- The members read, and the fault in place of a further key or the end. -/
  | record (members : List (Except Cause String × Node)) (stop : Option Fault)
  | fault (f : Fault)
deriving Inhabited

namespace Node

mutual

/-- The tree of a value: every part is sound. -/
def ofValue : Value → Node
  | .null => .null
  | .bool b => .bool b
  | .number n => .number (.ok n)
  | .string s => .string (.ok s)
  | .array items => .list (ofItems items) none
  | .object fields => .record (ofFields fields) none

/-- The trees of the items of an array. -/
def ofItems : List Value → List Node
  | [] => []
  | item :: rest => ofValue item :: ofItems rest

/-- The trees of the members of an object. -/
def ofFields : List (String × Value) → List (Except Cause String × Node)
  | [] => []
  | (key, value) :: rest => (.ok key, ofValue value) :: ofFields rest

end

/-- The fault met by skipping a part that stops early, if any. -/
def stopped (stop : Option Fault) : Except Cause Unit :=
  match stop with
  | some f => .error f.skim
  | none => .ok ()

mutual

/-- Skips a tree: only a fault that stops the reading counts. -/
def skim : Node → Except Cause Unit
  | .fault f => .error f.skim
  | .list items stop => do
    skimItems items
    stopped stop
  | .record members stop => do
    skimMembers members
    stopped stop
  | _ => .ok ()

/-- Skips the items of a list. -/
def skimItems : List Node → Except Cause Unit
  | [] => .ok ()
  | item :: rest => do
    skim item
    skimItems rest

/-- Skips the members of a record. -/
def skimMembers : List (Except Cause String × Node) → Except Cause Unit
  | [] => .ok ()
  | (_, item) :: rest => do
    skim item
    skimMembers rest

end

end Node

/-- How many arrays and objects may be open at once, counting the one that is refused. -/
def nestingLimit : Nat := 128

/-- The end of a part, taken over in full. -/
def closed (stop : Option Fault) : Except Cause Unit :=
  match stop with
  | some f => .error f.full
  | none => .ok ()

namespace Value

mutual

/-- The value of a tree, with `depth` further levels of nesting before the limit is hit. -/
def ofNode (depth : Nat) : Node → Except Cause Value
  | .null => .ok .null
  | .bool b => .ok (.bool b)
  | .number n => n.map .number
  | .string s => s.map .string
  | .list items stop =>
    match depth with
    | 0 | 1 => .error .recursionLimit
    | depth + 1 => do
      let values ← ofItems depth items
      closed stop
      return .array values
  | .record members stop =>
    match depth with
    | 0 | 1 => .error .recursionLimit
    | depth + 1 => do
      let fields ← ofMembers depth [] members
      closed stop
      return .object fields
  | .fault f => .error f.full

/-- The values of the items of a list. -/
def ofItems (depth : Nat) : List Node → Except Cause (List Value)
  | [] => .ok []
  | item :: rest => do
    let value ← ofNode depth item
    let values ← ofItems depth rest
    return value :: values

/-- The bindings of the members of a record, added to those before them. -/
def ofMembers (depth : Nat) (fields : Fields) :
    List (Except Cause String × Node) → Except Cause Fields
  | [] => .ok fields
  | (key, item) :: rest => do
    let key ← key
    let value ← ofNode depth item
    ofMembers depth (Fields.insert fields key value) rest

end

end Value

end CodeNav.Json
