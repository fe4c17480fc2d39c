/-
Module: CodeNav.Proofs.Settings.Overrides
Purpose: What a value laid over a tree of settings changes, and what it leaves.
Main exports:
  Tree.lookup_filter_ne, Tree.IsPlain, Tree.putAt_pair, Tree.Overridden, Tree.overridden_putAt,
  Tree.Overridden.putAt
-/
import CodeNav.Settings.Tree

namespace CodeNav.Tree

/-! ### Fields -/

/-- What is bound to other keys is found alike without the bindings of a key. -/
theorem lookup_filter_ne {α : Type} (fields : List (String × α)) {key other : String}
    (differ : other ≠ key) : (fields.filter (·.1 != key)).lookup other = fields.lookup other := by
  induction fields with
  | nil => rfl
  | cons field rest ih =>
      obtain ⟨name, value⟩ := field
      by_cases same : name = key
      · subst same
        have passed : (other == name) = false := by simpa using differ
        simpa [List.lookup_cons, passed] using ih
      · simp [same, List.lookup_cons, ih]

theorem lookup_bind_self (fields : List (String × Tree)) (key : String) (value : Tree) :
    (bind fields key value).lookup key = some value := by
  simp [bind]

theorem lookup_bind_of_ne (fields : List (String × Tree)) {key other : String} (value : Tree)
    (differ : other ≠ key) : (bind fields key value).lookup other = fields.lookup other := by
  have passed : (other == key) = false := by simpa using differ
  unfold bind
  rw [List.lookup_cons, passed]
  exact lookup_filter_ne fields differ

/-- The fields of the table under a key; there are none where no table stands. -/
def fieldsAt (root : Tree) (key : String) : List (String × Tree) :=
  ((root.fields.lookup key).getD (.table [])).fields

/-! ### Values that are no tables -/

/-- A value that takes the place of what was there, since it is no table. -/
def IsPlain : Tree → Prop
  | .table _ => False
  | _ => True

theorem put_of_isPlain (root : Tree) (key : String) {value : Tree} (plain : value.IsPlain) :
    root.put key value = .table (bind root.fields key value) := by
  cases value with
  | table fields => exact plain.elim
  | _ =>
      unfold put
      rfl

theorem putAt_pair (root : Tree) (part key : String) {value : Tree} (plain : value.IsPlain) :
    root.putAt [part, key] value =
      .table (bind root.fields part (.table (bind (root.fieldsAt part) key value))) := by
  let below := (root.fields.lookup part).getD (.table [])
  change Tree.table (bind root.fields part (below.put key value)) = _
  rw [put_of_isPlain below key plain]
  rfl

theorem fieldsAt_bind_self (fields inner : List (String × Tree)) (part : String) :
    (Tree.table (bind fields part (.table inner))).fieldsAt part = inner := by
  unfold fieldsAt
  rw [Tree.fields, lookup_bind_self]
  rfl

theorem fieldsAt_bind_of_ne (root : Tree) {part other : String} (value : Tree)
    (differ : other ≠ part) :
    (Tree.table (bind root.fields part value)).fieldsAt other = root.fieldsAt other := by
  unfold fieldsAt
  rw [Tree.fields, lookup_bind_of_ne _ _ differ]

/-- One tree is another with a value laid over it at a key of a part; what else the part holds
stays, as far as it stands in a table. -/
structure Overridden (part key : String) (value : Tree) (before after : Tree) : Prop where
  apart : ∀ other, other ≠ part → after.fields.lookup other = before.fields.lookup other
  inside : ∃ fields, after.fields.lookup part = some (.table fields) ∧
    fields.lookup key = some value ∧
    ∀ other, other ≠ key → fields.lookup other = (before.fieldsAt part).lookup other

section

variable {part key : String} {value before after : Tree}

theorem overridden_putAt (plain : value.IsPlain) :
    Overridden part key value before (before.putAt [part, key] value) := by
  rw [putAt_pair before part key plain]
  constructor
  · intro other differ
    exact lookup_bind_of_ne _ _ differ
  · exact ⟨_, lookup_bind_self _ _ _, lookup_bind_self _ _ _,
      fun other differ => lookup_bind_of_ne _ _ differ⟩

/-- A value laid over both trees elsewhere leaves the one an override of the other. -/
theorem Overridden.putAt (overridden : Overridden part key value before after)
    {otherPart otherKey : String} {other : Tree} (plain : other.IsPlain)
    (elsewhere : (otherPart, otherKey) ≠ (part, key)) :
    Overridden part key value (before.putAt [otherPart, otherKey] other)
      (after.putAt [otherPart, otherKey] other) := by
  obtain ⟨apart, fields, here, held, rest⟩ := overridden
  rw [putAt_pair before _ _ plain, putAt_pair after _ _ plain]
  by_cases same : otherPart = part
  · subst same
    have differ : key ≠ otherKey := fun again => elsewhere (by rw [again])
    have fieldsAfter : after.fieldsAt otherPart = fields := by
      unfold fieldsAt
      rw [here]
      rfl
    constructor
    · intro name away
      exact (lookup_bind_of_ne _ _ away).trans
        ((apart name away).trans (lookup_bind_of_ne _ _ away).symm)
    · refine ⟨_, lookup_bind_self _ _ _, ?_, fun name away => ?_⟩
      · rw [fieldsAfter, lookup_bind_of_ne _ _ differ]
        exact held
      · rw [fieldsAt_bind_self, fieldsAfter]
        by_cases again : name = otherKey
        · rw [again, lookup_bind_self, lookup_bind_self]
        · rw [lookup_bind_of_ne _ _ again, lookup_bind_of_ne _ _ again]
          exact rest name away
  · have fieldsAfter : after.fieldsAt otherPart = before.fieldsAt otherPart := by
      unfold fieldsAt
      rw [apart otherPart same]
    constructor
    · intro name away
      by_cases again : name = otherPart
      · rw [again, fieldsAfter]
        exact (lookup_bind_self _ _ _).trans (lookup_bind_self _ _ _).symm
      · exact (lookup_bind_of_ne _ _ again).trans
          ((apart name away).trans (lookup_bind_of_ne _ _ again).symm)
    · refine ⟨fields, (lookup_bind_of_ne _ _ (Ne.symm same)).trans here, held, fun name away => ?_⟩
      rw [fieldsAt_bind_of_ne before _ (Ne.symm same)]
      exact rest name away

end

end CodeNav.Tree
