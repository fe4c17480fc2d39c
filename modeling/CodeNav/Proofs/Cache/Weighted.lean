/-
Module: CodeNav.Proofs.Cache.Weighted
Purpose: Which entries stand in a cache behind each operation, and which were pushed out.
Main exports:
  WeightedCache.Distinct, WeightedCache.insert_eq, WeightedCache.inserted
-/
import CodeNav.Cache.Weighted
import Mathlib.Data.List.Nodup

namespace CodeNav.WeightedCache

variable {κ α : Type} [DecidableEq κ]

/-- No two entries have one key. -/
def Distinct (cache : WeightedCache κ α) : Prop :=
  (cache.entries.map (·.key)).Nodup

omit [DecidableEq κ] in
theorem distinct_empty (maxWeight : Nat) :
    (empty maxWeight : WeightedCache κ α).Distinct :=
  List.nodup_nil

/-! ### Look-ups -/

theorem find?_eq_none {cache : WeightedCache κ α} {key : κ} :
    cache.find? key = none ↔ ∀ entry ∈ cache.entries, entry.key ≠ key := by
  simp [find?]

theorem mem_of_find? {cache : WeightedCache κ α} {key : κ} {entry : Weighted κ α}
    (found : cache.find? key = some entry) : entry ∈ cache.entries ∧ entry.key = key := by
  constructor
  · exact List.mem_of_find?_eq_some found
  · simpa using List.find?_some found

theorem find?_eq_some_of_mem {cache : WeightedCache κ α} (distinct : cache.Distinct)
    {entry : Weighted κ α} (member : entry ∈ cache.entries) :
    cache.find? entry.key = some entry := by
  unfold Distinct at distinct
  unfold find?
  generalize cache.entries = entries at distinct member
  induction entries with
  | nil => cases member
  | cons first rest ih =>
      rw [List.map_cons, List.nodup_cons] at distinct
      rcases List.mem_cons.mp member with rfl | member
      · simp
      · have differ : first.key ≠ entry.key := by
          intro same
          apply distinct.1
          rw [same]
          exact List.mem_map_of_mem member
        simpa [differ] using ih distinct.2 member

/-- Entries under other keys are all but those under the key. -/
theorem mem_others {cache : WeightedCache κ α} {key : κ} {entry : Weighted κ α} :
    entry ∈ cache.others key ↔ entry ∈ cache.entries ∧ entry.key ≠ key := by
  simp [others]

theorem nodup_others {cache : WeightedCache κ α} (distinct : cache.Distinct) (key : κ) :
    ((cache.others key).map (·.key)).Nodup :=
  distinct.sublist (List.filter_sublist.map _)

/-- Looking a key up brings no new entry. -/
theorem mem_of_mem_get {cache : WeightedCache κ α} {key : κ} {entry : Weighted κ α}
    (member : entry ∈ (cache.get key).2.entries) : entry ∈ cache.entries := by
  unfold get at member
  cases found : cache.find? key with
  | none =>
      rw [found] at member
      exact member
  | some front =>
      rw [found] at member
      rcases List.mem_cons.mp member with rfl | listed
      · exact (mem_of_find? found).1
      · exact (mem_others.mp listed).1

/-- Looking a key up moves an entry to the front. -/
theorem mem_get {cache : WeightedCache κ α} (distinct : cache.Distinct) (key : κ)
    {entry : Weighted κ α} :
    entry ∈ (cache.get key).2.entries ↔ entry ∈ cache.entries := by
  refine ⟨mem_of_mem_get, fun listed => ?_⟩
  unfold get
  cases found : cache.find? key with
  | none => exact listed
  | some front =>
      by_cases sameKey : entry.key = key
      · have one := find?_eq_some_of_mem distinct listed
        rw [sameKey, found] at one
        cases one
        exact List.mem_cons_self
      · exact List.mem_cons_of_mem _ (mem_others.mpr ⟨listed, sameKey⟩)

theorem distinct_get {cache : WeightedCache κ α} (distinct : cache.Distinct) (key : κ) :
    (cache.get key).2.Distinct := by
  unfold get
  cases found : cache.find? key with
  | none => exact distinct
  | some front =>
      unfold Distinct
      rw [List.map_cons, List.nodup_cons]
      refine ⟨?_, nodup_others distinct key⟩
      intro listed
      obtain ⟨entry, member, same⟩ := List.mem_map.mp listed
      exact (mem_others.mp member).2 (same.trans (mem_of_find? found).2)

/-- Looking a key up does not change what is found under it. -/
theorem find?_get (cache : WeightedCache κ α) (key : κ) :
    (cache.get key).2.find? key = cache.find? key := by
  unfold get
  cases found : cache.find? key with
  | none => exact found
  | some entry =>
      unfold find?
      simp [(mem_of_find? found).2]

theorem get_fst (cache : WeightedCache κ α) (key : κ) :
    (cache.get key).1 = cache.peek? key := by
  unfold get peek?
  cases cache.find? key <;> rfl

/-! ### Removals -/

theorem mem_remove {cache : WeightedCache κ α} {key : κ} {entry : Weighted κ α} :
    entry ∈ (cache.remove key).2.entries ↔ entry ∈ cache.entries ∧ entry.key ≠ key := by
  unfold remove
  cases found : cache.find? key with
  | none =>
      constructor
      · intro member
        exact ⟨member, find?_eq_none.mp found entry member⟩
      · exact And.left
  | some old => exact mem_others

/-- What an insertion replaces is the entry under its key. -/
theorem mem_replaced {cache : WeightedCache κ α} {key : κ} {old : κ × α}
    (replaced : old ∈ ((cache.remove key).1.map fun value => (key, value)).toList) :
    ∃ entry ∈ cache.entries, entry.key = key ∧ (entry.key, entry.value) = old := by
  rw [Option.mem_toList] at replaced
  obtain ⟨value, taken, rfl⟩ := Option.map_eq_some_iff.mp replaced
  unfold remove at taken
  cases found : cache.find? key with
  | none =>
      rw [found] at taken
      cases taken
  | some entry =>
      rw [found] at taken
      cases taken
      obtain ⟨member, same⟩ := mem_of_find? found
      exact ⟨entry, member, same, by rw [same]⟩

theorem distinct_remove {cache : WeightedCache κ α} (distinct : cache.Distinct) (key : κ) :
    (cache.remove key).2.Distinct := by
  unfold remove
  cases cache.find? key with
  | none => exact distinct
  | some old => exact nodup_others distinct key

omit [DecidableEq κ] in
theorem mem_removeWhere {cache : WeightedCache κ α} {condition : κ → Bool}
    {entry : Weighted κ α} :
    entry ∈ (cache.removeWhere condition).2.entries ↔
      entry ∈ cache.entries ∧ condition entry.key = false := by
  simp [removeWhere]

/-! ### Insertions -/

omit [DecidableEq κ] in
/-- Dropping splits the entries, and the last of them stays. -/
theorem shrink_split (maxWeight total : Nat) (entries : List (Weighted κ α)) :
    entries = (shrink maxWeight total entries).1 ++ (shrink maxWeight total entries).2.1 ∧
      (shrink maxWeight total entries).2.1.getLast? = entries.getLast? := by
  induction entries generalizing total with
  | nil => exact ⟨rfl, rfl⟩
  | cons oldest others ih =>
      cases others with
      | nil => exact ⟨rfl, rfl⟩
      | cons next others =>
          unfold shrink
          split
          · obtain ⟨split, last⟩ := ih (total - oldest.weight)
            constructor
            · rw [List.cons_append, ← split]
            · rw [List.getLast?_cons_cons]
              exact last
          · exact ⟨rfl, rfl⟩

/-- An insertion puts the entry in front of those under other keys and drops some at the end. -/
theorem insert_eq (cache : WeightedCache κ α) (key : κ) (value : α) (weight : Nat) :
    ∃ (kept dropped : List (Weighted κ α)) (total : Nat),
      (cache.remove key).2.entries = kept ++ dropped.reverse ∧
      cache.insert key value weight =
        (((cache.remove key).1.map fun old => (key, old)).toList ++
            dropped.map fun entry => (entry.key, entry.value),
          { (cache.remove key).2 with
            entries := ⟨key, value, weight⟩ :: kept
            totalWeight := total
            evictions := (cache.remove key).2.evictions + dropped.length }) := by
  let entry : Weighted κ α := ⟨key, value, weight⟩
  let removed := (cache.remove key).2
  obtain ⟨split, last⟩ := shrink_split removed.maxWeight (addWeight removed.totalWeight weight)
    (entry :: removed.entries).reverse
  generalize shrunk : shrink removed.maxWeight (addWeight removed.totalWeight weight)
    (entry :: removed.entries).reverse = outcome at split last
  obtain ⟨dropped, kept, total⟩ := outcome
  have front : kept.reverse.head? = some entry := by
    rw [List.head?_reverse, last]
    simp
  obtain ⟨others, listed⟩ := List.head?_eq_some_iff.mp front
  have all : entry :: removed.entries = kept.reverse ++ dropped.reverse := by
    rw [← List.reverse_append, ← split, List.reverse_reverse]
  rw [listed, List.cons_append, List.cons.injEq] at all
  refine ⟨others, dropped, total, all.2, ?_⟩
  unfold insert
  simp only [removed, entry] at shrunk
  simp only [shrunk]
  rw [listed]

/-- What an insertion leaves is the new entry, and entries under other keys. -/
theorem mem_insert {cache : WeightedCache κ α} {key : κ} {value : α} {weight : Nat}
    {entry : Weighted κ α} (listed : entry ∈ (cache.insert key value weight).2.entries) :
    entry = ⟨key, value, weight⟩ ∨ entry ∈ cache.entries ∧ entry.key ≠ key := by
  obtain ⟨kept, dropped, total, split, result⟩ := cache.insert_eq key value weight
  rw [result] at listed
  rcases List.mem_cons.mp listed with same | old
  · exact .inl same
  · rw [← mem_remove, split]
    exact .inr (List.mem_append_left _ old)

/-- The entry inserted last is found. -/
theorem find?_insert (cache : WeightedCache κ α) (key : κ) (value : α) (weight : Nat) :
    (cache.insert key value weight).2.find? key = some ⟨key, value, weight⟩ := by
  obtain ⟨kept, dropped, total, _, result⟩ := cache.insert_eq key value weight
  rw [result]
  unfold find?
  simp

/-- What an insertion leaves: the new entry stays, and every other one stays or is pushed out. -/
structure Inserted (cache : WeightedCache κ α) (entry : Weighted κ α)
    (pushedOut : List (κ × α)) (after : WeightedCache κ α) : Prop where
  stays : entry ∈ after.entries
  mem : ∀ other ∈ after.entries, other = entry ∨ other ∈ cache.entries ∧ other.key ≠ entry.key
  kept : ∀ other ∈ cache.entries, other.key ≠ entry.key → other ∈ after.entries ∨
    (other.key, other.value) ∈ pushedOut
  pushed : ∀ old ∈ pushedOut, ∃ other ∈ cache.entries, (other.key, other.value) = old ∧
    (other.key = entry.key ∨ other ∉ after.entries)
  distinct : after.Distinct

theorem inserted {cache : WeightedCache κ α} (distinct : cache.Distinct) (key : κ) (value : α)
    (weight : Nat) :
    Inserted cache ⟨key, value, weight⟩ (cache.insert key value weight).1
      (cache.insert key value weight).2 := by
  let entry : Weighted κ α := ⟨key, value, weight⟩
  obtain ⟨kept, dropped, total, split, result⟩ := cache.insert_eq key value weight
  have mem (other : Weighted κ α) :
      other ∈ kept ∨ other ∈ dropped ↔ other ∈ cache.entries ∧ other.key ≠ key := by
    rw [← mem_remove, split, List.mem_append, List.mem_reverse]
  have apart : (kept.map (·.key) ++ (dropped.reverse).map (·.key)).Nodup := by
    rw [← List.map_append, ← split]
    exact distinct_remove distinct key
  have separate (other : Weighted κ α) (out : other ∈ dropped) : other ∉ kept := by
    intro stays
    exact (List.nodup_append.mp apart).2.2 other.key (List.mem_map_of_mem stays) other.key
      (List.mem_map_of_mem (List.mem_reverse.mpr out)) rfl
  refine ⟨?_, fun other listed => mem_insert listed, ?_, ?_, ?_⟩ <;> rw [result]
  · exact List.mem_cons_self
  · intro other member differs
    rcases (mem other).mpr ⟨member, differs⟩ with stays | out
    · exact .inl (List.mem_cons_of_mem entry stays)
    · exact .inr (List.mem_append_right _ (List.mem_map.mpr ⟨other, out, rfl⟩))
  · intro old out
    rcases List.mem_append.mp out with replaced | out
    · obtain ⟨other, member, same, shown⟩ := mem_replaced replaced
      exact ⟨other, member, shown, .inl same⟩
    · obtain ⟨other, listed, rfl⟩ := List.mem_map.mp out
      obtain ⟨member, differs⟩ := (mem other).mp (.inr listed)
      refine ⟨other, member, rfl, .inr ?_⟩
      intro stays
      rcases List.mem_cons.mp stays with rfl | stays
      · exact differs rfl
      · exact separate other listed stays
  · change ((entry :: kept).map (·.key)).Nodup
    rw [List.map_cons, List.nodup_cons]
    refine ⟨?_, (List.nodup_append.mp apart).1⟩
    intro listed
    obtain ⟨other, member, same⟩ := List.mem_map.mp listed
    exact ((mem other).mp (.inl member)).2 same

end CodeNav.WeightedCache
