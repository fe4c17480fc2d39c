/-
Module: CodeNav.Proofs.Keyed
Purpose: Lists whose members have keys, and the maps that are folded from them.
Main exports:
  Keyed.filter_eq_singleton, Keyed.filter_flatMap, Keyed.getElem?_foldl_insert
-/
import Mathlib.Data.List.Basic
import Std.Data.ExtTreeMap.Lemmas

namespace CodeNav.Keyed

variable {α κ : Type} [DecidableEq κ] {key : α → κ}

/-- Where keys are distinct, one member has a given key. -/
theorem filter_eq_singleton {l : List α} (nodup : (l.map key).Nodup) {x : α} (member : x ∈ l) :
    l.filter (key · = key x) = [x] := by
  induction l with
  | nil => cases member
  | cons y rest ih =>
      rw [List.map_cons, List.nodup_cons] at nodup
      obtain ⟨fresh, nodup⟩ := nodup
      rcases List.mem_cons.mp member with rfl | member
      · have others : rest.filter (key · = key x) = [] := by
          apply List.filter_eq_nil_iff.mpr
          intro y listed same
          apply fresh
          rw [← of_decide_eq_true same]
          exact List.mem_map_of_mem listed
        simp [others]
      · have differ : key y ≠ key x := by
          intro same
          apply fresh
          rw [same]
          exact List.mem_map_of_mem member
        simpa [differ] using ih nodup member

/-- Of blocks under distinct keys, those with a given key are one block. -/
theorem filter_flatMap {ids : List κ} (nodup : ids.Nodup) {block : κ → List α}
    (own : ∀ i ∈ ids, ∀ x ∈ block i, key x = i) (id : κ) :
    (ids.flatMap block).filter (key · = id) = if id ∈ ids then block id else [] := by
  induction ids with
  | nil => rfl
  | cons i rest ih =>
      obtain ⟨fresh, nodup⟩ := List.nodup_cons.mp nodup
      have rest := ih nodup fun j member => own j (List.mem_cons_of_mem i member)
      have head := own i List.mem_cons_self
      rw [List.flatMap_cons, List.filter_append, rest]
      by_cases same : i = id
      · subst same
        have kept : (block i).filter (key · = i) = block i :=
          List.filter_eq_self.mpr fun x listed => decide_eq_true (head x listed)
        simp [kept, fresh]
      · have dropped : (block i).filter (key · = id) = [] := by
          apply List.filter_eq_nil_iff.mpr
          intro x listed keyed
          exact same ((head x listed).symm.trans (of_decide_eq_true keyed))
        have differ : ¬ id = i := fun h => same h.symm
        simp [dropped, differ]

variable {β : Type} [Ord κ] [Std.TransOrd κ] [Std.LawfulEqOrd κ]

/-- Of the members with one key, the last counts. -/
theorem getElem?_foldl_insert (key : α → κ) (l : List α) (value : α → β)
    (table : Std.ExtTreeMap κ β) (k : κ) :
    (l.foldl (fun table x => table.insert (key x) (value x)) table)[k]? =
      ((l.filter (key · = k)).getLast?.map value).or table[k]? := by
  induction l generalizing table with
  | nil => simp
  | cons x rest ih =>
      rw [List.foldl_cons, ih, List.filter_cons]
      by_cases same : key x = k
      · subst same
        cases last : (rest.filter (key · = key x)).getLast? with
        | none => simp [List.getLast?_cons, last]
        | some y => simp [List.getLast?_cons, last]
      · simp [Std.ExtTreeMap.getElem?_insert, same]

/-- Where keys are distinct, every member counts. -/
theorem getElem?_foldl_insert_of_mem {l : List α} (nodup : (l.map key).Nodup) {x : α}
    (member : x ∈ l) (value : α → β) (table : Std.ExtTreeMap κ β) :
    (l.foldl (fun table x => table.insert (key x) (value x)) table)[key x]? =
      some (value x) := by
  rw [getElem?_foldl_insert, filter_eq_singleton nodup member]
  rfl

end CodeNav.Keyed
