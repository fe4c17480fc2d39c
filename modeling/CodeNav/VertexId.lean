/-
Module: CodeNav.VertexId
Purpose: Identifiers of the vertices of a dump, and tables keyed by them.
Main exports:
  VertexId, VertexId.decoder, Table
-/
import CodeNav.Json.Decoder
import Std.Data.ExtTreeMap

namespace CodeNav

/-- The identifier of a vertex. A dump may write it as a number or as a text; both are kept as
texts, so `7` and `"7"` name one vertex. -/
structure VertexId where
  text : String
deriving Repr, DecidableEq, Hashable, Inhabited

namespace VertexId

/-- Identifiers are ordered as texts, by code points. -/
instance : Ord VertexId where
  compare a b := compare a.text b.text

/-- Identifiers compare as their texts do. -/
theorem compare_eq (a b : VertexId) : compare a b = compare a.text b.text :=
  rfl

instance : Std.TransOrd VertexId where
  eq_swap {a b} := by
    simp only [compare_eq]
    exact Std.OrientedOrd.eq_swap
  isLE_trans {a b c} hab hbc := by
    simp only [compare_eq] at *
    exact Std.TransOrd.isLE_trans hab hbc

instance : Std.LawfulEqOrd VertexId where
  compare_self {a} := by
    exact Std.ReflOrd.compare_self
  eq_of_compare {a b} h := by
    cases a
    cases b
    congr
    exact Std.LawfulEqOrd.eq_of_compare h

/-- The identifier that a value writes, if it is a number of 64 bits or a text. -/
def ofValue? : Json.Value → Option VertexId
  | .string s => some ⟨s⟩
  | .number (.integer n) => if 0 ≤ n then some ⟨toString n⟩ else none
  | _ => none

/-- Reads an identifier. -/
def decoder : Json.Decoder VertexId := fun r node => do
  let value ← Json.Decoder.any r node
  match ofValue? value with
  | some id => return id
  | none => throw (.of (.noVariant "RawId"))

/-- The identifier as a value. -/
def toValue (id : VertexId) : Json.Value :=
  .string id.text

end VertexId

/-- A finite map keyed by vertex identifiers, listed in their order. -/
abbrev Table (α : Type) := Std.ExtTreeMap VertexId α

namespace Table

variable {α : Type}

/-- Reads a map from identifiers; of two entries for one identifier the later counts. -/
def decoder (item : Json.Decoder α) : Json.Decoder (Table α) := fun r node => do
  let bindings ← Json.Decoder.map item r node
  return bindings.foldl (fun table (key, value) => table.insert ⟨key⟩ value) ∅

/-- The map as an object. -/
def toValue (item : α → Json.Value) (table : Table α) : Json.Value :=
  .record (table.toList.map fun (id, value) => (id.text, item value))

end Table

end CodeNav
