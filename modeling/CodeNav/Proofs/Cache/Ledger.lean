/-
Module: CodeNav.Proofs.Cache.Ledger
Purpose: What a log of arrivals and departures says about the loads that stand in a cache.
Main exports:
  Resident.slots, Resident.Event, Resident.changes, Resident.Standing, Resident.Ledger,
  Resident.Shift, Resident.Ledger.shift
-/
import CodeNav.Cache.Resident
import CodeNav.Proofs.Cache.Weighted

namespace CodeNav.Resident

variable {α : Type}

/-! ### Events -/

/-- The loads that stand in the cache, each with its key. -/
def slots (cache : Resident α) : List (String × Nat) :=
  cache.entries.entries.map fun entry => (entry.key, entry.value)

/-- A load has come to its end. -/
def Ended (cache : Resident α) (load : Nat) (outcome : Except Failure α) : Prop :=
  cache.loads[load]? = some ⟨0, outcome⟩

/-- Why a load leaves the cache. -/
inductive Departure where
  | pushedOut
  | removed
  /-- A caller has received the failure of a load and cleans up. -/
  | cleanedUp (failed : Nat)
deriving DecidableEq

/-- What happens to the loads of a cache. -/
inductive Event (α : Type) where
  /-- A load is started under a key. -/
  | entered (key : String) (load : Nat)
  | left (key : String) (load : Nat) (why : Departure)
  /-- A caller takes hold of a load. -/
  | joined (call : Call α) (load : Nat)
  /-- The value of a load is disposed of. -/
  | disposed (load : Nat)
  /-- A load that has left the cache turns out to have no value. -/
  | passedOver (load : Nat)

namespace Event

/-- The load that is started. -/
def entered? : Event α → Option Nat
  | entered _ load => some load
  | _ => none

/-- The load that leaves the cache. -/
def left? : Event α → Option Nat
  | left _ load _ => some load
  | _ => none

/-- The load that leaves the cache although no failure is cleaned up. -/
def discarded? : Event α → Option Nat
  | left _ load .pushedOut => some load
  | left _ load .removed => some load
  | _ => none

/-- The load whose value is disposed of. -/
def disposed? : Event α → Option Nat
  | disposed load => some load
  | _ => none

/-- The load that is passed over. -/
def passedOver? : Event α → Option Nat
  | passedOver load => some load
  | _ => none

/-- The caller that takes hold of a load, and the load. -/
def joined? : Event α → Option (Call α × Nat)
  | joined call load => some (call, load)
  | _ => none

end Event

/-- The loads that have come and gone between two states of a cache, the latest event first. -/
def changes (why : Departure) (before after : Resident α) : List (Event α) :=
  ((before.slots.filter (· ∉ after.slots)).map fun slot => .left slot.1 slot.2 why)
    ++ (after.slots.filter (· ∉ before.slots)).map fun slot => .entered slot.1 slot.2

section

variable {why other : Departure} {before after : Resident α} {key : String} {load : Nat}

theorem entered_mem_changes :
    .entered key load ∈ changes why before after ↔
      (key, load) ∈ after.slots ∧ (key, load) ∉ before.slots := by
  simp [changes]

theorem left_mem_changes :
    .left key load other ∈ changes why before after ↔
      ((key, load) ∈ before.slots ∧ (key, load) ∉ after.slots) ∧ why = other := by
  simp [changes]

/-- What a function makes of the changes if it passes over the loads that leave, or over those that
are started, or takes the number of each. -/
theorem filterMap_changes {β : Type} {f : Event α → Option β} (entry exit : Nat → Option β)
    (ofEntered : ∀ key load, f (.entered key load) = entry load)
    (ofLeft : ∀ key load, f (.left key load why) = exit load) :
    (changes why before after).filterMap f =
      ((before.slots.filter (· ∉ after.slots)).map Prod.snd).filterMap exit
        ++ ((after.slots.filter (· ∉ before.slots)).map Prod.snd).filterMap entry := by
  simp only [changes, List.filterMap_append, List.filterMap_map]
  congr 1
  · exact List.filterMap_congr fun slot _ => ofLeft slot.1 slot.2
  · exact List.filterMap_congr fun slot _ => ofEntered slot.1 slot.2

/-- A function that passes over arrivals and departures finds nothing in the changes. -/
theorem filterMap_changes_eq_nil {β : Type} {f : Event α → Option β}
    (ofEntered : ∀ key load, f (.entered key load) = none)
    (ofLeft : ∀ key load, f (.left key load why) = none) :
    (changes why before after).filterMap f = [] := by
  rw [filterMap_changes (fun _ => none) (fun _ => none) ofEntered ofLeft]
  simp

theorem entered?_changes :
    (changes why before after).filterMap Event.entered? =
      (after.slots.filter (· ∉ before.slots)).map Prod.snd := by
  rw [filterMap_changes some (fun _ => none) (fun _ _ => rfl) fun _ _ => rfl]
  simp

theorem left?_changes :
    (changes why before after).filterMap Event.left? =
      (before.slots.filter (· ∉ after.slots)).map Prod.snd := by
  rw [filterMap_changes (fun _ => none) some (fun _ _ => rfl) fun _ _ => rfl]
  simp

theorem discarded?_changes (discards : ∀ key load, (Event.left (α := α) key load why).discarded? =
      some load) :
    (changes why before after).filterMap Event.discarded? =
      (before.slots.filter (· ∉ after.slots)).map Prod.snd := by
  rw [filterMap_changes (fun _ => none) some (fun _ _ => rfl) discards]
  simp

/-- Where nothing has changed, nothing is told. -/
theorem changes_eq_nil (same : ∀ slot, slot ∈ after.slots ↔ slot ∈ before.slots) :
    changes why before after = [] := by
  simp [changes, same]

end

/-- A load has been started under a key and has not left. -/
def Standing (log : List (Event α)) (key : String) (load : Nat) : Prop :=
  .entered key load ∈ log ∧ ∀ why, .left key load why ∉ log

/-! ### A log beside a cache -/

/-- Members of a list that are told apart by what a function makes of them. -/
theorem eq_of_nodup_filterMap {β γ : Type} {f : β → Option γ} {l : List β}
    (nodup : (l.filterMap f).Nodup) {a b : β} {x : γ} (first : a ∈ l) (second : b ∈ l)
    (firstIs : f a = some x) (secondIs : f b = some x) : a = b := by
  induction l with
  | nil => cases first
  | cons c rest ih =>
      cases made : f c with
      | none =>
          rw [List.filterMap_cons_none made] at nodup
          rcases List.mem_cons.mp first with rfl | first
          · rw [made] at firstIs
            cases firstIs
          · rcases List.mem_cons.mp second with rfl | second
            · rw [made] at secondIs
              cases secondIs
            · exact ih nodup first second
      | some y =>
          rw [List.filterMap_cons_some made, List.nodup_cons] at nodup
          have apart (d : β) (later : d ∈ rest) : f d ≠ some y :=
            fun same => nodup.1 (List.mem_filterMap.mpr ⟨d, later, same⟩)
          rcases List.mem_cons.mp first with rfl | firstLater
          · rcases List.mem_cons.mp second with rfl | secondLater
            · rfl
            · exact absurd (secondIs.trans (firstIs.symm.trans made)) (apart b secondLater)
          · rcases List.mem_cons.mp second with rfl | secondLater
            · exact absurd (firstIs.trans (secondIs.symm.trans made)) (apart a firstLater)
            · exact ih nodup.2 firstLater secondLater

/-- A log that accounts for the loads of a cache: they are started in turn, each under one key,
each leaves at most once, and those stand in the cache that have been started and have not left. -/
structure Ledger (cache : Resident α) (log : List (Event α)) : Prop where
  distinct : cache.entries.Distinct
  started : log.filterMap Event.entered? = (List.range cache.loads.size).reverse
  standing : ∀ key load, (key, load) ∈ cache.slots ↔ Standing log key load
  behind : ∀ key load why, .left key load why ∈ log → .entered key load ∈ log
  leftOnce : (log.filterMap Event.left?).Nodup

/-- A change of a cache: at most one load is started, with the next number, some leave, and what
has come to its end stays as it is. -/
structure Shift (before after : Resident α) (departed : List Nat) : Prop where
  distinct : after.entries.Distinct
  arrivals : after.slots.filter (· ∉ before.slots) = [] ∧
      after.loads.size = before.loads.size ∨
    ∃ key, after.slots.filter (· ∉ before.slots) = [(key, before.loads.size)] ∧
      after.loads.size = before.loads.size + 1
  departures : ((before.slots.filter (· ∉ after.slots)).map Prod.snd).Perm departed
  ended : ∀ load outcome, before.Ended load outcome → after.Ended load outcome

theorem nodup_slots {cache : Resident α} (distinct : cache.entries.Distinct) :
    cache.slots.Nodup := by
  refine List.Nodup.of_map Prod.fst ?_
  unfold slots
  rw [List.map_map]
  exact distinct

/-- A load that a change starts has the next number. -/
theorem Shift.eq_size {before after : Resident α} {departed : List Nat}
    (shift : Shift before after departed) {key : String} {load : Nat}
    (stands : (key, load) ∈ after.slots) (absent : (key, load) ∉ before.slots) :
    load = before.loads.size := by
  have arrived : (key, load) ∈ after.slots.filter (· ∉ before.slots) := by simp [stands, absent]
  rcases shift.arrivals with ⟨none, _⟩ | ⟨name, one, _⟩
  · rw [none] at arrived
    cases arrived
  · rw [one, List.mem_singleton] at arrived
    exact (Prod.mk.inj arrived).2

namespace Ledger

variable {cache after : Resident α} {log : List (Event α)} {departed : List Nat}
  {key other : String} {load : Nat}

theorem empty (maxWeight : Nat) : Ledger (empty maxWeight : Resident α) [] where
  distinct := WeightedCache.distinct_empty maxWeight
  started := rfl
  standing _ _ := by simp [Standing, slots, Resident.empty, WeightedCache.empty]
  behind _ _ _ member := by cases member
  leftOnce := List.nodup_nil

theorem numbered (ledger : Ledger cache log) (came : .entered key load ∈ log) :
    load < cache.loads.size := by
  have listed : load ∈ log.filterMap Event.entered? := List.mem_filterMap.mpr ⟨_, came, rfl⟩
  rw [ledger.started, List.mem_reverse, List.mem_range] at listed
  exact listed

theorem enteredOnce (ledger : Ledger cache log) : (log.filterMap Event.entered?).Nodup := by
  rw [ledger.started]
  exact List.nodup_reverse.mpr List.nodup_range

/-- A load is started under one key. -/
theorem key_eq (ledger : Ledger cache log) (first : .entered key load ∈ log)
    (second : .entered other load ∈ log) : key = other := by
  have same := eq_of_nodup_filterMap ledger.enteredOnce first second rfl rfl
  cases same
  rfl

/-- A load stands under one key. -/
theorem nodup_loads (ledger : Ledger cache log) : (cache.slots.map Prod.snd).Nodup := by
  apply (nodup_slots ledger.distinct).map_on
  rintro ⟨key, load⟩ first ⟨other, _⟩ second (rfl : load = _)
  rw [ledger.key_eq ((ledger.standing _ _).mp first).1 ((ledger.standing _ _).mp second).1]

/-- A load that has left stands under no key. -/
theorem absent_of_left (ledger : Ledger cache log) {why : Departure}
    (gone : .left key load why ∈ log) (other : String) : (other, load) ∉ cache.slots := by
  intro stands
  obtain ⟨came, stayed⟩ := (ledger.standing other load).mp stands
  rw [ledger.key_eq (ledger.behind _ _ _ gone) came] at gone
  exact stayed why gone

/-- What happens to no load's place is only added to the log. -/
theorem cons (ledger : Ledger cache log) {event : Event α} (noEntry : event.entered? = none)
    (noExit : event.left? = none) : Ledger cache (event :: log) := by
  have entered (key : String) (load : Nat) :
      .entered key load ∈ event :: log ↔ .entered key load ∈ log := by
    refine ⟨fun member => ?_, List.mem_cons_of_mem event⟩
    rcases List.mem_cons.mp member with rfl | member
    · cases noEntry
    · exact member
  have left (key : String) (load : Nat) (why : Departure) :
      .left key load why ∈ event :: log ↔ .left key load why ∈ log := by
    refine ⟨fun member => ?_, List.mem_cons_of_mem event⟩
    rcases List.mem_cons.mp member with rfl | member
    · cases noExit
    · exact member
  refine ⟨ledger.distinct, ?_, ?_, ?_, ?_⟩
  · rw [List.filterMap_cons_none noEntry]
    exact ledger.started
  · simpa only [Standing, entered, left] using ledger.standing
  · simpa only [entered, left] using ledger.behind
  · rw [List.filterMap_cons_none noExit]
    exact ledger.leftOnce

/-- A load that a change starts is a new one. -/
theorem fresh_of_shift (ledger : Ledger cache log) (shift : Shift cache after departed)
    (stands : (key, load) ∈ after.slots) (absent : (key, load) ∉ cache.slots) :
    .entered other load ∉ log := by
  intro came
  rw [shift.eq_size stands absent] at came
  exact Nat.lt_irrefl _ (ledger.numbered came)

/-- A log goes on accounting for a cache if its changes are added. -/
theorem shift (ledger : Ledger cache log) (shift : Shift cache after departed) (why : Departure) :
    Ledger after (changes why cache after ++ log) := by
  have entered (key : String) (load : Nat) :
      .entered key load ∈ changes why cache after ++ log ↔
        (key, load) ∈ after.slots ∧ (key, load) ∉ cache.slots ∨ .entered key load ∈ log := by
    rw [List.mem_append, entered_mem_changes]
  have left (key : String) (load : Nat) (reason : Departure) :
      .left key load reason ∈ changes why cache after ++ log ↔
        ((key, load) ∈ cache.slots ∧ (key, load) ∉ after.slots) ∧ why = reason ∨
          .left key load reason ∈ log := by
    rw [List.mem_append, left_mem_changes]
  refine ⟨shift.distinct, ?_, ?_, ?_, ?_⟩
  · rw [List.filterMap_append, entered?_changes, ledger.started]
    rcases shift.arrivals with ⟨none, size⟩ | ⟨key, one, size⟩
    · rw [none, size]
      rfl
    · rw [one, size, List.range_succ, List.reverse_concat]
      rfl
  · intro key load
    constructor
    · intro stands
      refine ⟨(entered key load).mpr ?_, ?_⟩
      · by_cases before : (key, load) ∈ cache.slots
        · exact .inr ((ledger.standing key load).mp before).1
        · exact .inl ⟨stands, before⟩
      · intro reason gone
        rcases (left key load reason).mp gone with ⟨⟨_, absent⟩, _⟩ | gone
        · exact absent stands
        · by_cases before : (key, load) ∈ cache.slots
          · exact ((ledger.standing key load).mp before).2 reason gone
          · exact ledger.fresh_of_shift shift stands before (ledger.behind _ _ _ gone)
    · rintro ⟨came, stayed⟩
      rcases (entered key load).mp came with ⟨stands, _⟩ | came
      · exact stands
      · have before : (key, load) ∈ cache.slots :=
          (ledger.standing key load).mpr
            ⟨came, fun reason gone => stayed reason ((left _ _ _).mpr (.inr gone))⟩
        by_contra absent
        exact stayed why ((left _ _ _).mpr (.inl ⟨⟨before, absent⟩, rfl⟩))
  · intro key load reason gone
    rw [entered]
    rcases (left key load reason).mp gone with ⟨⟨before, _⟩, _⟩ | gone
    · exact .inr ((ledger.standing key load).mp before).1
    · exact .inr (ledger.behind _ _ _ gone)
  · rw [List.filterMap_append, left?_changes, List.nodup_append]
    refine ⟨ledger.nodup_loads.sublist (List.filter_sublist.map _), ledger.leftOnce, ?_⟩
    rintro load leaves _ again rfl
    obtain ⟨⟨key, _⟩, slot, rfl⟩ := List.mem_map.mp leaves
    obtain ⟨event, member, known⟩ := List.mem_filterMap.mp again
    cases event with
    | left other load reason =>
        cases known
        exact ledger.absent_of_left member key (List.mem_filter.mp slot).1
    | _ => cases known

end Ledger

/-! ### The operations as changes -/

theorem mem_slots {cache : Resident α} {key : String} {load : Nat}
    (distinct : cache.entries.Distinct) :
    (key, load) ∈ cache.slots ↔ cache.entries.peek? key = some load := by
  constructor
  · intro stands
    obtain ⟨entry, member, same⟩ := List.mem_map.mp stands
    cases same
    rw [WeightedCache.peek?, WeightedCache.find?_eq_some_of_mem distinct member]
    rfl
  · intro found
    obtain ⟨entry, there, rfl⟩ := Option.map_eq_some_iff.mp found
    obtain ⟨member, rfl⟩ := WeightedCache.mem_of_find? there
    exact List.mem_map_of_mem member

/-- The same loads stand in two caches, and what has come to its end stays as it is. -/
structure Same (before after : Resident α) : Prop where
  distinct : after.entries.Distinct
  entries : ∀ entry, entry ∈ after.entries.entries ↔ entry ∈ before.entries.entries
  size : after.loads.size = before.loads.size
  ended : ∀ load outcome, before.Ended load outcome → after.Ended load outcome

theorem Same.mem_slots {before after : Resident α} (same : Same before after)
    (slot : String × Nat) : slot ∈ after.slots ↔ slot ∈ before.slots := by
  simp only [slots, List.mem_map, same.entries]

theorem Same.shift {before after : Resident α} (same : Same before after) :
    Shift before after [] := by
  refine ⟨same.distinct, .inl ⟨?_, same.size⟩, ?_, same.ended⟩
  · simp [same.mem_slots]
  · simp [same.mem_slots]

/-- A change that moves no load needs no entry in the log. -/
theorem Ledger.same {before after : Resident α} {log : List (Event α)}
    (ledger : Ledger before log) (same : Same before after) : Ledger after log := by
  have moved := ledger.shift same.shift .removed
  rw [changes_eq_nil same.mem_slots] at moved
  exact moved

/-- Looking a key up changes the order of the entries at most. -/
theorem same_lookup {cache : Resident α} (distinct : cache.entries.Distinct) (key : String) :
    Same cache (cache.lookup key).2 :=
  ⟨WeightedCache.distinct_get distinct key, fun _ => WeightedCache.mem_get distinct key, rfl,
    fun _ _ => id⟩

/-- A load that goes on stands where it stood. -/
theorem same_progress {cache : Resident α} (distinct : cache.entries.Distinct) {load turns : Nat}
    {outcome : Except Failure α} (running : cache.loads[load]? = some ⟨turns + 1, outcome⟩) :
    Same cache { cache with loads := cache.loads.setIfInBounds load ⟨turns, outcome⟩ } := by
  refine ⟨distinct, fun _ => .rfl, Array.size_setIfInBounds, ?_⟩
  intro other last finished
  have differ : load ≠ other := by
    rintro rfl
    rw [Ended, running] at finished
    cases finished
  rw [Ended, Array.getElem?_setIfInBounds_ne differ]
  exact finished

/-- Taking a key out takes out the load under it. -/
theorem shift_removed {cache : Resident α} (distinct : cache.entries.Distinct) {key : String}
    {load : Nat} (found : cache.entries.peek? key = some load) :
    Shift cache { cache with entries := (cache.entries.remove key).2 } [load] := by
  let after : Resident α := { cache with entries := (cache.entries.remove key).2 }
  have slots (slot : String × Nat) : slot ∈ after.slots ↔ slot ∈ cache.slots ∧ slot.1 ≠ key := by
    simp only [Resident.slots, List.mem_map, after, WeightedCache.mem_remove]
    constructor
    · rintro ⟨entry, ⟨member, differs⟩, rfl⟩
      exact ⟨⟨entry, member, rfl⟩, differs⟩
    · rintro ⟨⟨entry, member, rfl⟩, differs⟩
      exact ⟨entry, ⟨member, differs⟩, rfl⟩
  refine ⟨WeightedCache.distinct_remove distinct key, .inl ⟨?_, rfl⟩, ?_, fun _ _ => id⟩
  · rw [List.filter_eq_nil_iff]
    intro slot stands absent
    exact of_decide_eq_true absent ((slots slot).mp stands).1
  · have one : (cache.slots.filter (· ∉ after.slots)).Perm [(key, load)] := by
      rw [List.perm_ext_iff_of_nodup ((nodup_slots distinct).filter _) (List.nodup_singleton _)]
      rintro ⟨name, number⟩
      rw [List.mem_filter, decide_eq_true_eq, slots, List.mem_singleton]
      constructor
      · rintro ⟨stands, leaves⟩
        have same : name = key := by
          by_contra differs
          exact leaves ⟨stands, differs⟩
        subst same
        rw [mem_slots distinct, found] at stands
        cases stands
        rfl
      · rintro ⟨⟩
        exact ⟨(mem_slots distinct).mpr found, fun stays => stays.2 rfl⟩
    exact one.map Prod.snd

theorem remove_eq {cache : Resident α} (key : String) :
    (cache.remove key).2.2 = { cache with entries := (cache.entries.remove key).2 } := by
  unfold Resident.remove WeightedCache.remove
  cases cache.entries.find? key <;> rfl

/-- A failure is cleaned up: its load does not stand any more, and every other one does. -/
theorem shift_dropFailed {cache : Resident α} (distinct : cache.entries.Distinct) (key : String)
    (load : Nat) :
    ∃ departed, Shift cache (cache.dropFailed key load) departed ∧
      (∀ slot ∈ cache.slots, slot ∉ (cache.dropFailed key load).slots → slot = (key, load)) ∧
      (key, load) ∉ (cache.dropFailed key load).slots := by
  unfold dropFailed
  split
  next found =>
    have shift := shift_removed distinct found
    refine ⟨_, shift, ?_, ?_⟩
    · rintro ⟨name, number⟩ stands leaves
      by_cases same : name = key
      · subst same
        rw [mem_slots distinct, found] at stands
        cases stands
        rfl
      · obtain ⟨entry, member, shown⟩ := List.mem_map.mp stands
        cases shown
        exact absurd (List.mem_map_of_mem (WeightedCache.mem_remove.mpr ⟨member, same⟩)) leaves
    · intro stays
      obtain ⟨entry, member, shown⟩ := List.mem_map.mp stays
      cases shown
      exact (WeightedCache.mem_remove.mp member).2 rfl
  next other =>
    refine ⟨[], Same.shift ⟨distinct, fun _ => .rfl, rfl, fun _ _ => id⟩, ?_, ?_⟩
    · exact fun slot stands leaves => absurd stands leaves
    · rwa [mem_slots distinct]

/-- A load that is started pushes others out. -/
theorem shift_inserted {cache : Resident α} (distinct : cache.entries.Distinct) {key : String}
    (absent : cache.entries.peek? key = none) (weight : Nat) (load : Load α) :
    Shift cache
      ⟨(cache.entries.insert key cache.loads.size weight).2, cache.loads.push load⟩
      ((cache.entries.insert key cache.loads.size weight).1.map (·.2)) := by
  obtain ⟨kept, dropped, total, split, result⟩ :=
    cache.entries.insert_eq key cache.loads.size weight
  have missing : cache.entries.find? key = none := Option.map_eq_none_iff.mp absent
  have unchanged : cache.entries.remove key = (none, cache.entries) := by
    simp only [WeightedCache.remove, missing]
  rw [unchanged] at split result
  let shown (entry : Weighted String Nat) : String × Nat := (entry.key, entry.value)
  have before : cache.slots = kept.map shown ++ dropped.reverse.map shown := by
    rw [slots, split, List.map_append]
  have apart : (kept.map shown ++ dropped.reverse.map shown).Nodup :=
    before ▸ nodup_slots distinct
  have other {slot : String × Nat} (stands : slot ∈ cache.slots) : slot.1 ≠ key := by
    obtain ⟨entry, member, rfl⟩ := List.mem_map.mp stands
    exact WeightedCache.find?_eq_none.mp missing entry member
  have distinct' := (WeightedCache.inserted distinct key cache.loads.size weight).distinct
  rw [result] at distinct' ⊢
  refine ⟨distinct', .inr ⟨key, ?_, Array.size_push load⟩, ?_, ?_⟩
  · have new : (key, cache.loads.size) ∉ cache.slots := fun stands => other stands rfl
    change List.filter _ ((key, cache.loads.size) :: kept.map shown) = _
    rw [List.filter_cons_of_pos (by simpa using new), List.filter_eq_nil_iff.mpr]
    intro slot stays
    simp [before, stays]
  · change ((List.filter (· ∉ (key, cache.loads.size) :: kept.map shown) cache.slots).map
      Prod.snd).Perm _
    rw [before, List.filter_append, List.filter_eq_nil_iff.mpr, List.filter_eq_self.mpr,
      List.nil_append, List.map_reverse, List.map_reverse]
    · simp [shown, List.reverse_perm]
    · intro slot leaves
      have stood : slot ∈ cache.slots := before ▸ List.mem_append_right _ leaves
      refine decide_eq_true fun stays => ?_
      rcases List.mem_cons.mp stays with rfl | stays
      · exact other stood rfl
      · exact (List.nodup_append.mp apart).2.2 slot stays slot leaves rfl
    · intro slot stays
      simp [stays]
  · intro number outcome finished
    obtain ⟨inside, _⟩ := Array.getElem?_eq_some_iff.mp finished
    rw [Ended, Array.getElem?_push_lt inside, ← finished, Array.getElem?_eq_getElem inside]

/-- Registering a load leaves one under the key, started before or now. -/
theorem shift_register {cache : Resident α} (distinct : cache.entries.Distinct) (key : String)
    (weight : Nat) (load : Load α) :
    Shift cache (cache.register key weight load).2.2 (cache.register key weight load).2.1 ∧
      (key, (cache.register key weight load).1) ∈ (cache.register key weight load).2.2.slots := by
  unfold register
  split
  next running found =>
    refine ⟨Same.shift ⟨distinct, fun _ => .rfl, rfl, fun _ _ => id⟩, ?_⟩
    exact (mem_slots distinct).mpr found
  next absent =>
    have stays := (WeightedCache.inserted distinct key cache.loads.size weight).stays
    exact ⟨shift_inserted distinct absent weight load, List.mem_map_of_mem stays⟩

end CodeNav.Resident
