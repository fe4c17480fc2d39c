/-
Module: CodeNav.Proofs.Cache.Traffic
Purpose: What holds of a cache whichever way its callers take turns.
Main exports:
  Traffic, Traffic.Task, Traffic.Step, Resident.Chronicle, Traffic.Sound, Traffic.turned_poll,
  Traffic.Safe, Traffic.safe_interleavings
-/
import CodeNav.Proofs.Cache.Ledger
import Mathlib.Logic.Relation

namespace CodeNav

open Resident

variable {α : Type}

namespace Traffic

/-! ### Steps -/

/-- Where a task stands that works on a cache. -/
inductive Task (α : Type) where
  /-- A caller has not looked its key up. -/
  | arrived (call : Call α)
  /-- A caller has not found its key; the weight is being found. -/
  | weighing (call : Call α)
  | settling (call : Call α) (load : Nat)
  /-- A caller's load has failed, and the caller has not cleaned up. -/
  | failed (call : Call α) (load : Nat) (failure : Failure)
  | answered (call : Call α) (load : Nat) (result : Except Failure α)
  /-- A key is about to be taken out. -/
  | removing (key : String)
  /-- The value of a load that has left is to be disposed of. -/
  | disposing (load : Nat)
  | completed

namespace Task

/-- Nothing is left to be done. -/
def Finished : Task α → Prop
  | answered _ _ _ => True
  | completed => True
  | _ => False

/-- The caller that has taken hold of a load, and the load. -/
def held? : Task α → Option (Call α × Nat)
  | settling call load => some (call, load)
  | failed call load _ => some (call, load)
  | answered call load _ => some (call, load)
  | _ => none

/-- The load whose value is to be disposed of. -/
def pending? : Task α → Option Nat
  | disposing load => some load
  | _ => none

end Task

theorem Task.held?_disposing (loads : List Nat) :
    (loads.map (disposing (α := α))).filterMap held? = [] := by
  rw [List.filterMap_map, List.filterMap_eq_nil_iff]
  exact fun _ _ => rfl

theorem Task.pending?_disposing (loads : List Nat) :
    (loads.map (disposing (α := α))).filterMap pending? = loads := by
  rw [List.filterMap_map]
  exact List.filterMap_some

/-- What is asked of a cache. -/
inductive Request (α : Type) where
  | obtain (call : Call α)
  | remove (key : String)

/-- The task that a request begins. -/
def Request.task : Request α → Task α
  | .obtain call => .arrived call
  | .remove key => .removing key

end Traffic

/-- A cache, the tasks that work on it, and what has happened, the latest event first. -/
structure Traffic (α : Type) where
  cache : Resident α
  tasks : List (Traffic.Task α)
  log : List (Event α)

namespace Traffic

/-- An empty cache and what will be asked of it. -/
def start (maxWeight : Nat) (requests : List (Request α)) : Traffic α :=
  ⟨.empty maxWeight, requests.map Request.task, []⟩

/-- What may happen next: a task does what it does while it has the cache to itself, or a load goes
on. The log tells which loads have come and gone by the cache before and after. -/
inductive Step : Traffic α → Traffic α → Prop where
  | hit {cache found log before after call load}
      (looked : cache.lookup call.key = (some load, found)) :
      Step ⟨cache, before ++ .arrived call :: after, log⟩
        ⟨found, before ++ .settling call load :: after,
          .joined call load :: log⟩
  | miss {cache found log before after call}
      (looked : cache.lookup call.key = (none, found)) :
      Step ⟨cache, before ++ .arrived call :: after, log⟩
        ⟨found, before ++ .weighing call :: after, log⟩
  | register {cache found log before after call load pushedOut}
      (registered : cache.register call.key call.weight call.load = (load, pushedOut, found)) :
      Step ⟨cache, before ++ .weighing call :: after, log⟩
        ⟨found, before ++ .settling call load :: after ++ pushedOut.map .disposing,
          .joined call load :: (changes .pushedOut cache found ++ log)⟩
  | progress {cache log tasks load turns outcome}
      (running : cache.loads[load]? = some ⟨turns + 1, outcome⟩) :
      Step ⟨cache, tasks, log⟩
        ⟨{ cache with loads := cache.loads.setIfInBounds load ⟨turns, outcome⟩ }, tasks, log⟩
  | success {cache log before after call load value} (ended : cache.Ended load (.ok value)) :
      Step ⟨cache, before ++ .settling call load :: after, log⟩
        ⟨cache, before ++ .answered call load (.ok value) :: after, log⟩
  | failure {cache log before after call load failure}
      (ended : cache.Ended load (.error failure)) :
      Step ⟨cache, before ++ .settling call load :: after, log⟩
        ⟨cache, before ++ .failed call load failure :: after, log⟩
  | cleanUp {cache log before after call load failure} :
      Step ⟨cache, before ++ .failed call load failure :: after, log⟩
        ⟨cache.dropFailed call.key load,
          before ++ .answered call load (.error (.shared failure)) :: after,
          changes (.cleanedUp load) cache (cache.dropFailed call.key load) ++ log⟩
  | remove {cache log before after key load} (found : cache.entries.peek? key = some load) :
      Step ⟨cache, before ++ .removing key :: after, log⟩
        ⟨(cache.remove key).2.2, before ++ .disposing load :: after,
          changes .removed cache (cache.remove key).2.2 ++ log⟩
  | removeNothing {cache log before after key} (missing : cache.entries.peek? key = none) :
      Step ⟨cache, before ++ .removing key :: after, log⟩
        ⟨(cache.remove key).2.2, before ++ .completed :: after, log⟩
  | dispose {cache log before after load value} (ended : cache.Ended load (.ok value)) :
      Step ⟨cache, before ++ .disposing load :: after, log⟩
        ⟨cache, before ++ .completed :: after, .disposed load :: log⟩
  | passOver {cache log before after load failure} (ended : cache.Ended load (.error failure)) :
      Step ⟨cache, before ++ .disposing load :: after, log⟩
        ⟨cache, before ++ .completed :: after, .passedOver load :: log⟩

/-- Some steps after another. -/
abbrev Steps : Traffic α → Traffic α → Prop :=
  Relation.ReflTransGen Step

end Traffic

/-! ### What a log tells -/

namespace Resident

/-- A caller takes hold of the load that stands under its key at the time. -/
def Shares (log : List (Event α)) : Prop :=
  ∀ newer older call load, log = newer ++ .joined call load :: older →
    ∀ other, Standing older call.key other ↔ other = load

theorem Shares.cons {event : Event α} {log : List (Event α)} (shares : Shares log)
    (joins : ∀ call load, event = .joined call load →
      ∀ other, Standing log call.key other ↔ other = load) : Shares (event :: log) := by
  intro newer older call load split
  cases newer with
  | nil =>
      obtain ⟨rfl, rfl⟩ := List.cons.inj split
      exact joins call load rfl
  | cons first newer =>
      obtain ⟨rfl, rest⟩ := List.cons.inj split
      exact shares newer older call load rest

theorem Shares.append {events log : List (Event α)} (shares : Shares log)
    (noJoin : ∀ event ∈ events, event.joined? = none) : Shares (events ++ log) := by
  induction events with
  | nil => exact shares
  | cons event rest ih =>
      refine (ih fun event member => noJoin event (List.mem_cons_of_mem _ member)).cons ?_
      rintro call load rfl
      cases noJoin _ List.mem_cons_self

/-- What a log tells of the ends of the loads is so. -/
structure Chronicle (cache : Resident α) (log : List (Event α)) : Prop where
  shares : Shares log
  joined : ∀ call load, .joined call load ∈ log → .entered call.key load ∈ log
  disposed : ∀ load, .disposed load ∈ log → ∃ value, cache.Ended load (.ok value)
  passedOver : ∀ load, .passedOver load ∈ log → ∃ failure, cache.Ended load (.error failure)
  cleanedUp : ∀ key load failed, .left key load (.cleanedUp failed) ∈ log →
    load = failed ∧ ∃ failure, cache.Ended failed (.error failure)

namespace Chronicle

variable {cache after : Resident α} {log : List (Event α)} {departed : List Nat}

theorem later (chronicle : Chronicle cache log)
    (ended : ∀ load outcome, cache.Ended load outcome → after.Ended load outcome) :
    Chronicle after log where
  shares := chronicle.shares
  joined := chronicle.joined
  disposed load told := (chronicle.disposed load told).imp fun _ => ended _ _
  passedOver load told := (chronicle.passedOver load told).imp fun _ => ended _ _
  cleanedUp key load failed told :=
    (chronicle.cleanedUp key load failed told).imp_right (.imp fun _ => ended _ _)

theorem shift (chronicle : Chronicle cache log) (shift : Shift cache after departed)
    {why : Departure}
    (cleans : ∀ failed, why = .cleanedUp failed →
      (∀ key load, (key, load) ∈ cache.slots → (key, load) ∉ after.slots → load = failed) ∧
        ∃ failure, cache.Ended failed (.error failure)) :
    Chronicle after (changes why cache after ++ log) := by
  have moved (event : Event α) (member : event ∈ changes why cache after) :
      (∃ key load, event = .entered key load) ∨
        ∃ key load, event = .left key load why ∧
          (key, load) ∈ cache.slots ∧ (key, load) ∉ after.slots := by
    rcases List.mem_append.mp member with leaves | arrives
    · obtain ⟨slot, listed, rfl⟩ := List.mem_map.mp leaves
      exact .inr ⟨_, _, rfl, by simpa using listed⟩
    · obtain ⟨slot, listed, rfl⟩ := List.mem_map.mp arrives
      exact .inl ⟨_, _, rfl⟩
  have kept := chronicle.later shift.ended
  refine ⟨chronicle.shares.append ?_, ?_, ?_, ?_, ?_⟩
  · intro event member
    rcases moved event member with ⟨key, load, rfl⟩ | ⟨key, load, rfl, _⟩ <;> rfl
  · intro call load told
    rcases List.mem_append.mp told with member | told
    · rcases moved _ member with ⟨_, _, ⟨⟩⟩ | ⟨_, _, ⟨⟩, _⟩
    · exact List.mem_append_right _ (kept.joined call load told)
  · intro load told
    rcases List.mem_append.mp told with member | told
    · rcases moved _ member with ⟨_, _, ⟨⟩⟩ | ⟨_, _, ⟨⟩, _⟩
    · exact kept.disposed load told
  · intro load told
    rcases List.mem_append.mp told with member | told
    · rcases moved _ member with ⟨_, _, ⟨⟩⟩ | ⟨_, _, ⟨⟩, _⟩
    · exact kept.passedOver load told
  · intro key load failed told
    rcases List.mem_append.mp told with member | told
    · obtain ⟨⟨stood, absent⟩, rfl⟩ := left_mem_changes.mp member
      obtain ⟨own, failure, ended⟩ := cleans failed rfl
      exact ⟨own key load stood absent, failure, shift.ended _ _ ended⟩
    · exact kept.cleanedUp key load failed told

theorem cons (chronicle : Chronicle cache log) {event : Event α} (stays : event.left? = none)
    (joins : ∀ call load, event = .joined call load →
      ∀ other, Standing log call.key other ↔ other = load)
    (disposes : ∀ load, event = .disposed load → ∃ value, cache.Ended load (.ok value))
    (passes : ∀ load, event = .passedOver load → ∃ failure, cache.Ended load (.error failure)) :
    Chronicle cache (event :: log) := by
  refine ⟨chronicle.shares.cons joins, ?_, ?_, ?_, ?_⟩
  · intro call load told
    rcases List.mem_cons.mp told with rfl | told
    · exact List.mem_cons_of_mem _ ((joins call load rfl load).mpr rfl).1
    · exact List.mem_cons_of_mem _ (chronicle.joined call load told)
  · intro load told
    rcases List.mem_cons.mp told with rfl | told
    · exact disposes load rfl
    · exact chronicle.disposed load told
  · intro load told
    rcases List.mem_cons.mp told with rfl | told
    · exact passes load rfl
    · exact chronicle.passedOver load told
  · intro key load failed told
    rcases List.mem_cons.mp told with rfl | told
    · cases stays
    · exact chronicle.cleanedUp key load failed told

/-- A caller takes hold of the load that stands under its key. -/
theorem join (chronicle : Chronicle cache log) (ledger : Ledger cache log) {call : Call α}
    {load : Nat} (stands : (call.key, load) ∈ cache.slots) :
    Chronicle cache (.joined call load :: log) := by
  refine chronicle.cons rfl ?_ nofun nofun
  rintro _ _ ⟨⟩ other
  rw [← ledger.standing, mem_slots ledger.distinct, (mem_slots ledger.distinct).mp stands,
    Option.some.injEq]
  exact eq_comm

end Chronicle

end Resident

/-! ### What the steps keep -/

namespace Traffic

/-- What a task has seen of its load is so. -/
def Task.Sound (cache : Resident α) : Task α → Prop
  | .failed _ load failure => cache.Ended load (.error failure)
  | .answered call load result =>
    ∃ outcome, cache.Ended load outcome ∧ result = outcome.mapError .shared ∧
      ∀ failure, outcome = .error failure → (call.key, load) ∉ cache.slots
  | _ => True

theorem Task.Sound.shift {cache after : Resident α} {departed : List Nat} {task : Task α}
    (sound : task.Sound cache) (shift : Shift cache after departed) : task.Sound after := by
  cases task with
  | failed call load failure => exact shift.ended _ _ sound
  | answered call load result =>
      obtain ⟨outcome, ended, same, gone⟩ := sound
      refine ⟨outcome, shift.ended _ _ ended, same, fun failure failed stands => ?_⟩
      have new := shift.eq_size stands (gone failure failed)
      obtain ⟨inside, _⟩ := Array.getElem?_eq_some_iff.mp ended
      exact Nat.lt_irrefl _ (new ▸ inside)
  | _ => trivial

/-- The log accounts for the cache and for the tasks: each load that a caller has taken hold of is
in its task, and each that is discarded is still to be disposed of, has been, or has no value. -/
structure Sound (state : Traffic α) : Prop where
  ledger : Ledger state.cache state.log
  chronicle : Chronicle state.cache state.log
  tasks : ∀ task ∈ state.tasks, task.Sound state.cache
  held : (state.log.filterMap Event.joined?).Perm (state.tasks.filterMap Task.held?)
  accounts : (state.log.filterMap Event.discarded?).Perm
    (state.tasks.filterMap Task.pending? ++
      (state.log.filterMap Event.disposed? ++ state.log.filterMap Event.passedOver?))

theorem sound_start (maxWeight : Nat) (requests : List (Request α)) :
    Sound (start maxWeight requests) := by
  have nothing {β : Type} {f : Task α → Option β} (skips : ∀ request, f (Request.task request) =
      none) : (requests.map Request.task).filterMap f = [] := by
    rw [List.filterMap_map, List.filterMap_eq_nil_iff]
    exact fun request _ => skips request
  refine ⟨.empty maxWeight, ⟨?_, nofun, nofun, nofun, nofun⟩, ?_, ?_, ?_⟩
  · intro newer older call load split
    cases newer <;> cases split
  · intro task member
    obtain ⟨request, _, rfl⟩ := List.mem_map.mp member
    cases request <;> trivial
  · change List.Perm [] ((requests.map Request.task).filterMap Task.held?)
    rw [nothing fun request => by cases request <;> rfl]
  · change List.Perm [] ((requests.map Request.task).filterMap Task.pending? ++ [])
    rw [nothing fun request => by cases request <;> rfl]
    exact .nil

section

variable {cache after : Resident α} {departed : List Nat} {before rest tasks : List (Task α)}
  {old new : Task α} {log : List (Event α)} {β : Type} {f : Task α → Option β}

/-- What a function makes of tasks, one of them in front. -/
theorem filterMap_perm (f : Task α → Option β) (before rest : List (Task α)) (task : Task α) :
    ((before ++ task :: rest).filterMap f).Perm ((f task).toList ++ (before ++ rest).filterMap f) := by
  refine (List.perm_middle.filterMap f).trans ?_
  cases made : f task with
  | none => rw [List.filterMap_cons_none made]; rfl
  | some made => rw [List.filterMap_cons_some made]; rfl

/-- A task gives way to another of which a function makes the same. -/
theorem filterMap_replaced (same : f new = f old) :
    (before ++ new :: rest).filterMap f = (before ++ old :: rest).filterMap f := by
  rw [List.filterMap_append, List.filterMap_append, List.filterMap_cons, List.filterMap_cons, same]

theorem sound_replaced (sound : ∀ task ∈ before ++ old :: rest, task.Sound cache)
    (keeps : ∀ task : Task α, task.Sound cache → task.Sound after) (replaced : new.Sound after) :
    ∀ task ∈ before ++ new :: rest, task.Sound after := by
  intro task member
  rcases List.mem_append.mp member with early | late
  · exact keeps task (sound task (List.mem_append_left _ early))
  · rcases List.mem_cons.mp late with rfl | late
    · exact replaced
    · exact keeps task (sound task (List.mem_append_right _ (List.mem_cons_of_mem _ late)))

/-- Where no load moves, a task may go on. -/
theorem Sound.replace (sound : Sound ⟨cache, before ++ old :: rest, log⟩) (same : Same cache after)
    (replaced : new.Sound after) (held : new.held? = old.held?)
    (pending : new.pending? = old.pending?) : Sound ⟨after, before ++ new :: rest, log⟩ where
  ledger := sound.ledger.same same
  chronicle := sound.chronicle.later same.ended
  tasks := sound_replaced sound.tasks (fun _ known => known.shift same.shift) replaced
  held := by
    rw [filterMap_replaced held]
    exact sound.held
  accounts := by
    rw [filterMap_replaced pending]
    exact sound.accounts

theorem Sound.progress (sound : Sound ⟨cache, tasks, log⟩) (same : Same cache after) :
    Sound ⟨after, tasks, log⟩ where
  ledger := sound.ledger.same same
  chronicle := sound.chronicle.later same.ended
  tasks task member := (sound.tasks task member).shift same.shift
  held := sound.held
  accounts := sound.accounts

/-- A caller takes hold of the load that stands under its key. -/
theorem Sound.join (sound : Sound ⟨cache, before ++ old :: rest, log⟩) {call : Call α} {load : Nat}
    (stands : (call.key, load) ∈ cache.slots) (held : old.held? = none)
    (pending : old.pending? = none) :
    Sound ⟨cache, before ++ .settling call load :: rest, .joined call load :: log⟩ where
  ledger := sound.ledger.cons rfl rfl
  chronicle := sound.chronicle.join sound.ledger stands
  tasks := sound_replaced sound.tasks (fun _ known => known) trivial
  held := by
    have fewer := sound.held.trans (filterMap_perm _ before rest old)
    rw [held] at fewer
    have more := filterMap_perm Task.held? before rest (.settling call load)
    exact (fewer.cons (call, load)).trans more.symm
  accounts := by
    have kept : (Task.settling call load).pending? = old.pending? := pending.symm
    exact sound.accounts.trans (.of_eq (congrArg (· ++ _) (filterMap_replaced kept.symm)))

/-- Loads leave the cache, and tasks dispose of their values. -/
theorem Sound.discard (sound : Sound ⟨cache, tasks, log⟩) (shift : Shift cache after departed)
    (why : Departure)
    (discards : ∀ key load, (Event.left (α := α) key load why).discarded? = some load)
    (disposing : List (Task α)) (known : ∀ task ∈ disposing, task ∈ tasks ∨ task.Sound after)
    (held : (tasks.filterMap Task.held?).Perm (disposing.filterMap Task.held?))
    (pending : (departed ++ tasks.filterMap Task.pending?).Perm
      (disposing.filterMap Task.pending?)) :
    Sound ⟨after, disposing, changes why cache after ++ log⟩ where
  ledger := sound.ledger.shift shift why
  chronicle := sound.chronicle.shift shift fun failed cleans => by
    have none := discards "" failed
    rw [cleans] at none
    cases none
  tasks task member := by
    rcases known task member with listed | sound'
    · exact (sound.tasks task listed).shift shift
    · exact sound'
  held := by
    rw [List.filterMap_append, filterMap_changes_eq_nil (fun _ _ => rfl) fun _ _ => rfl]
    exact sound.held.trans held
  accounts := by
    rw [List.filterMap_append, List.filterMap_append, List.filterMap_append,
      discarded?_changes discards,
      filterMap_changes_eq_nil (f := Event.disposed?) (fun _ _ => rfl) fun _ _ => rfl,
      filterMap_changes_eq_nil (f := Event.passedOver?) (fun _ _ => rfl) fun _ _ => rfl]
    refine (shift.departures.append sound.accounts).trans ?_
    rw [← List.append_assoc]
    exact pending.append_right _

/-- A caller whose load has failed cleans up. -/
theorem Sound.cleanUp {call : Call α} {load : Nat} {failure : Failure}
    (sound : Sound ⟨cache, before ++ .failed call load failure :: rest, log⟩) :
    Sound ⟨cache.dropFailed call.key load,
      before ++ .answered call load (.error (.shared failure)) :: rest,
      changes (.cleanedUp load) cache (cache.dropFailed call.key load) ++ log⟩ := by
  have ended : cache.Ended load (.error failure) :=
    sound.tasks (.failed call load failure) (List.mem_append_right _ List.mem_cons_self)
  obtain ⟨departed, shift, own, gone⟩ := shift_dropFailed sound.ledger.distinct call.key load
  refine ⟨sound.ledger.shift shift _, sound.chronicle.shift shift ?_, ?_, ?_, ?_⟩
  · rintro _ ⟨⟩
    exact ⟨fun key other stood absent => congrArg Prod.snd (own _ stood absent), failure, ended⟩
  · refine sound_replaced sound.tasks (fun _ known => known.shift shift) ?_
    exact ⟨.error failure, shift.ended _ _ ended, rfl, fun _ _ => gone⟩
  · rw [List.filterMap_append, filterMap_changes_eq_nil (fun _ _ => rfl) fun _ _ => rfl]
    exact sound.held.trans (.of_eq (filterMap_replaced rfl))
  · simp only [List.filterMap_append (l := changes _ _ _)]
    rw [filterMap_changes_eq_nil (f := Event.discarded?) (fun _ _ => rfl) fun _ _ => rfl,
      filterMap_changes_eq_nil (f := Event.disposed?) (fun _ _ => rfl) fun _ _ => rfl,
      filterMap_changes_eq_nil (f := Event.passedOver?) (fun _ _ => rfl) fun _ _ => rfl]
    exact sound.accounts.trans (.of_eq (congrArg (· ++ _) (filterMap_replaced rfl)))

/-- The value of a load that has left is disposed of. -/
theorem Sound.dispose {load : Nat} {value : α}
    (sound : Sound ⟨cache, before ++ .disposing load :: rest, log⟩)
    (ended : cache.Ended load (.ok value)) :
    Sound ⟨cache, before ++ .completed :: rest, .disposed load :: log⟩ where
  ledger := sound.ledger.cons rfl rfl
  chronicle := sound.chronicle.cons rfl nofun (by rintro _ ⟨⟩; exact ⟨value, ended⟩) nofun
  tasks := sound_replaced sound.tasks (fun _ known => known) trivial
  held := sound.held.trans (.of_eq (filterMap_replaced rfl))
  accounts := by
    have less := filterMap_perm Task.pending? before rest (.disposing load)
    have none := filterMap_perm Task.pending? before rest .completed
    refine sound.accounts.trans ((less.append_right _).trans ?_)
    exact List.perm_middle.symm.trans (none.symm.append_right _)

/-- A load that has left has no value to be disposed of. -/
theorem Sound.passOver {load : Nat} {failure : Failure}
    (sound : Sound ⟨cache, before ++ .disposing load :: rest, log⟩)
    (ended : cache.Ended load (.error failure)) :
    Sound ⟨cache, before ++ .completed :: rest, .passedOver load :: log⟩ where
  ledger := sound.ledger.cons rfl rfl
  chronicle := sound.chronicle.cons rfl nofun nofun (by rintro _ ⟨⟩; exact ⟨failure, ended⟩)
  tasks := sound_replaced sound.tasks (fun _ known => known) trivial
  held := sound.held.trans (.of_eq (filterMap_replaced rfl))
  accounts := by
    have less := filterMap_perm Task.pending? before rest (.disposing load)
    have none := filterMap_perm Task.pending? before rest .completed
    refine sound.accounts.trans ((less.append_right _).trans ?_)
    refine List.Perm.trans ?_ (none.symm.append_right _)
    exact List.perm_middle.symm.trans (List.perm_middle.symm.append_left _)

end

theorem Sound.step {state next : Traffic α} (sound : Sound state) (step : Step state next) :
    Sound next := by
  have distinct := sound.ledger.distinct
  cases step with
  | @hit cache found log before after call load looked =>
      obtain rfl : (cache.lookup call.key).2 = found := by rw [looked]
      have same := same_lookup distinct call.key
      have stands : (call.key, load) ∈ (cache.lookup call.key).2.slots := by
        rw [same.mem_slots, mem_slots distinct, ← WeightedCache.get_fst]
        exact congrArg Prod.fst looked
      exact (sound.progress same).join stands rfl rfl
  | @miss cache found log before after call looked =>
      obtain rfl : (cache.lookup call.key).2 = found := by rw [looked]
      exact sound.replace (same_lookup distinct call.key) trivial rfl rfl
  | @register cache found log before after call load pushedOut registered =>
      obtain ⟨shift, stands⟩ := shift_register distinct call.key call.weight call.load
      rw [registered] at shift stands
      have discarded := sound.discard shift .pushedOut (fun _ _ => rfl)
        (before ++ .weighing call :: after ++ pushedOut.map .disposing) ?_ ?_ ?_
      · rw [List.append_assoc, List.cons_append] at discarded ⊢
        exact discarded.join stands rfl rfl
      · intro task member
        rcases List.mem_append.mp member with listed | added
        · exact .inl listed
        · obtain ⟨gone, _, rfl⟩ := List.mem_map.mp added
          exact .inr trivial
      · rw [List.filterMap_append (l := before ++ _ :: _), Task.held?_disposing, List.append_nil]
      · rw [List.filterMap_append (l := before ++ _ :: _), Task.pending?_disposing]
        exact List.perm_append_comm
  | progress running => exact sound.progress (same_progress distinct running)
  | success ended =>
      exact sound.replace ⟨distinct, fun _ => .rfl, rfl, fun _ _ => id⟩
        ⟨_, ended, rfl, nofun⟩ rfl rfl
  | failure ended =>
      exact sound.replace ⟨distinct, fun _ => .rfl, rfl, fun _ _ => id⟩ ended rfl rfl
  | cleanUp => exact sound.cleanUp
  | @remove cache log before after key load found =>
      rw [remove_eq]
      refine sound.discard (shift_removed distinct found) .removed (fun _ _ => rfl) _ ?_
        (.of_eq (filterMap_replaced rfl)) ?_
      · intro task member
        rcases List.mem_append.mp member with early | late
        · exact .inl (List.mem_append_left _ early)
        · rcases List.mem_cons.mp late with rfl | late
          · exact .inr trivial
          · exact .inl (List.mem_append_right _ (List.mem_cons_of_mem _ late))
      · have less := filterMap_perm Task.pending? before after (.removing key)
        have more := filterMap_perm Task.pending? before after (.disposing load)
        exact (less.cons load).trans more.symm
  | @removeNothing cache log before after key missing =>
      have unchanged : (cache.entries.remove key).2 = cache.entries := by
        unfold WeightedCache.remove
        rw [Option.map_eq_none_iff.mp missing]
      rw [remove_eq, unchanged]
      exact sound.replace ⟨distinct, fun _ => .rfl, rfl, fun _ _ => id⟩ trivial rfl rfl
  | dispose ended => exact sound.dispose ended
  | passOver ended => exact sound.passOver ended

theorem sound_of_steps {state next : Traffic α} (sound : Sound state) (steps : Steps state next) :
    Sound next := by
  induction steps with
  | refl => exact sound
  | tail _ step ih => exact ih.step step

/-! ### Turns of a caller -/

/-- What a caller's progress says of its task. -/
inductive Shows (call : Call α) : Task α → Call.Progress α → Prop where
  | waiting : Shows call (.arrived call) .waiting
  | weighing (turns : Nat) : Shows call (.weighing call) (.weighing turns)
  | settling (load : Nat) : Shows call (.settling call load) (.settling load)
  | done (load : Nat) (result : Except Failure α) :
      Shows call (.answered call load result) (.done result)

/-- A task has come to some progress, the cache has changed, and tasks dispose of what was pushed
out. -/
def Turned (state : Traffic α) (before rest : List (Task α)) (call : Call α)
    (turn : Call.Progress α × List Nat × Resident α) : Prop :=
  ∃ task log, Shows call task turn.1 ∧
    Steps state ⟨turn.2.2, before ++ task :: rest ++ turn.2.1.map .disposing, log⟩

section

variable {cache : Resident α} {before rest : List (Task α)} {call : Call α} {log : List (Event α)}

/-- A caller that waits for a load makes steps. -/
theorem turned_pollLoad {state : Traffic α} (pushedOut : List Nat) {load : Nat}
    (steps : Steps state
      ⟨cache, before ++ .settling call load :: rest ++ pushedOut.map .disposing, log⟩) :
    Turned state before rest call
      ((cache.pollLoad call.key load).1, pushedOut, (cache.pollLoad call.key load).2) := by
  rw [List.append_assoc, List.cons_append] at steps
  unfold Turned
  simp only [List.append_assoc, List.cons_append]
  unfold pollLoad
  split
  next => exact ⟨_, log, .settling load, steps⟩
  next running found =>
    obtain ⟨turns, outcome⟩ := running
    cases turns with
    | succ turns => exact ⟨_, log, .settling load, steps.tail (.progress found)⟩
    | zero =>
        cases outcome with
        | ok value => exact ⟨_, log, .done load _, steps.tail (.success found)⟩
        | error failure =>
            exact ⟨_, _, .done load _, (steps.tail (.failure found)).tail .cleanUp⟩

/-- A caller whose weight is being found makes steps. -/
theorem turned_pollWeight {state : Traffic α} {turns : Nat}
    (steps : Steps state ⟨cache, before ++ .weighing call :: rest, log⟩) :
    Turned state before rest call (cache.pollWeight call turns) := by
  cases turns with
  | succ turns =>
      refine ⟨_, log, .weighing turns, ?_⟩
      simpa [pollWeight] using steps
  | zero =>
      unfold pollWeight
      generalize registered : cache.register call.key call.weight call.load = outcome
      obtain ⟨load, pushedOut, found⟩ := outcome
      exact turned_pollLoad pushedOut (steps.tail (.register registered))

/-- A caller's turn is a row of steps. -/
theorem turned_poll {task : Task α} {progress : Call.Progress α} (shown : Shows call task progress) :
    Turned ⟨cache, before ++ task :: rest, log⟩ before rest call (cache.poll call progress) := by
  cases shown with
  | waiting =>
      unfold poll
      generalize looked : cache.lookup call.key = outcome
      obtain ⟨found, after⟩ := outcome
      cases found with
      | some load =>
          have hit : Steps ⟨cache, before ++ .arrived call :: rest, log⟩
              ⟨after, before ++ .settling call load :: rest ++ [], .joined call load :: log⟩ := by
            rw [List.append_nil]
            exact .single (.hit looked)
          exact turned_pollLoad [] hit
      | none => exact turned_pollWeight (.single (.miss looked))
  | weighing turns => exact turned_pollWeight .refl
  | settling load =>
      have stays : Steps ⟨cache, before ++ .settling call load :: rest, log⟩
          ⟨cache, before ++ .settling call load :: rest ++ [], log⟩ := by
        rw [List.append_nil]
      exact turned_pollLoad [] stays
  | done load result =>
      refine ⟨_, log, .done load result, ?_⟩
      simpa [poll] using Relation.ReflTransGen.refl

end

/-! ### Safety -/

/-- A state that a cache may be in while requests are served. -/
structure Safe (state : Traffic α) : Prop where
  oneLoad : (state.cache.slots.map Prod.fst).Nodup
  /-- Each load is started once, under one key. -/
  startedOnce : state.log.filterMap Event.entered? = (List.range state.cache.loads.size).reverse
  standing : ∀ key load, (key, load) ∈ state.cache.slots ↔ Standing state.log key load
  shared : Shares state.log
  held : (state.log.filterMap Event.joined?).Perm (state.tasks.filterMap Task.held?)
  /-- Callers get what the load that they hold comes to. -/
  answered : ∀ call load result, .answered call load result ∈ state.tasks →
    ∃ outcome, state.cache.Ended load outcome ∧ result = outcome.mapError .shared
  disposed : ∀ load, .disposed load ∈ state.log →
    (∃ value, state.cache.Ended load (.ok value)) ∧ ∀ key, (key, load) ∉ state.cache.slots
  disposedOnce : (state.log.filterMap Event.disposed?).Nodup
  /-- In the end those values have been disposed of that were pushed out or removed. -/
  disposedInTheEnd : (∀ task ∈ state.tasks, task.Finished) → ∀ load, .disposed load ∈ state.log ↔
    (∃ key why, .left key load why ∈ state.log ∧ (why = .pushedOut ∨ why = .removed)) ∧
      ∃ value, state.cache.Ended load (.ok value)
  /-- Cleaning up after a failure takes out the failed load. -/
  cleanedUp : ∀ key load failed, .left key load (.cleanedUp failed) ∈ state.log →
    load = failed ∧ ∃ failure, state.cache.Ended failed (.error failure)
  failedGone : ∀ call load failure, .answered call load (.error failure) ∈ state.tasks →
    ∀ key, (key, load) ∉ state.cache.slots

theorem mem_discarded {log : List (Event α)} {load : Nat} :
    load ∈ log.filterMap Event.discarded? ↔
      ∃ key why, .left key load why ∈ log ∧ (why = .pushedOut ∨ why = .removed) := by
  rw [List.mem_filterMap]
  constructor
  · rintro ⟨event, member, known⟩
    cases event with
    | left key load why =>
        cases why with
        | cleanedUp failed => cases known
        | pushedOut => cases known; exact ⟨key, _, member, .inl rfl⟩
        | removed => cases known; exact ⟨key, _, member, .inr rfl⟩
    | _ => cases known
  · rintro ⟨key, _, member, rfl | rfl⟩ <;> exact ⟨_, member, rfl⟩

/-- A log tells of an event if the function that finds nothing else finds it. -/
theorem mem_filterMap_iff {β : Type} {find : Event α → Option β} {log : List (Event α)} {found : β}
    {event : Event α} (only : ∀ other, find other = some found ↔ other = event) :
    found ∈ log.filterMap find ↔ event ∈ log := by
  rw [List.mem_filterMap]
  constructor
  · rintro ⟨other, member, known⟩
    rwa [← (only other).mp known]
  · exact fun member => ⟨event, member, (only event).mpr rfl⟩

theorem mem_disposed {log : List (Event α)} {load : Nat} :
    load ∈ log.filterMap Event.disposed? ↔ .disposed load ∈ log :=
  mem_filterMap_iff fun other => by cases other <;> simp [Event.disposed?]

theorem mem_passedOver {log : List (Event α)} {load : Nat} :
    load ∈ log.filterMap Event.passedOver? ↔ .passedOver load ∈ log :=
  mem_filterMap_iff fun other => by cases other <;> simp [Event.passedOver?]

theorem mem_joined {log : List (Event α)} {call : Call α} {load : Nat} :
    (call, load) ∈ log.filterMap Event.joined? ↔ .joined call load ∈ log :=
  mem_filterMap_iff fun other => by cases other <;> simp [Event.joined?]

/-- The load that a caller holds has been started under the caller's key. -/
theorem Sound.entered_of_held {state : Traffic α} (sound : Sound state) {task : Task α}
    {call : Call α} {load : Nat} (member : task ∈ state.tasks) (held : task.held? = (call, load)) :
    .entered call.key load ∈ state.log := by
  apply sound.chronicle.joined
  rw [← mem_joined, sound.held.mem_iff]
  exact List.mem_filterMap.mpr ⟨task, member, held⟩

/-- A load is discarded at most once. -/
theorem nodup_discarded {cache : Resident α} {log : List (Event α)} (ledger : Ledger cache log) :
    (log.filterMap Event.discarded?).Nodup := by
  have fewer : log.filterMap Event.discarded? =
      (log.filter (·.discarded?.isSome)).filterMap Event.left? := by
    rw [List.filterMap_filter]
    refine List.filterMap_congr fun event _ => ?_
    cases event with
    | left key load why => cases why <;> rfl
    | _ => rfl
  rw [fewer]
  exact ledger.leftOnce.sublist (List.filter_sublist.filterMap _)

theorem Sound.safe {state : Traffic α} (sound : Sound state) : Safe state := by
  have accounts := sound.accounts
  have balance := accounts.nodup_iff.mp (nodup_discarded sound.ledger)
  have disposed (load : Nat) (told : .disposed load ∈ state.log) :
      ∃ key why, .left key load why ∈ state.log ∧ (why = .pushedOut ∨ why = .removed) := by
    rw [← mem_discarded, accounts.mem_iff, List.mem_append, List.mem_append, mem_disposed]
    exact .inr (.inl told)
  refine ⟨?_, sound.ledger.started, sound.ledger.standing, sound.chronicle.shares, sound.held, ?_,
    ?_, ?_, ?_, sound.chronicle.cleanedUp, ?_⟩
  · have distinct := sound.ledger.distinct
    unfold slots
    rw [List.map_map]
    exact distinct
  · intro call load result member
    obtain ⟨outcome, ended, same, _⟩ := sound.tasks _ member
    exact ⟨outcome, ended, same⟩
  · intro load told
    obtain ⟨key, why, gone, _⟩ := disposed load told
    exact ⟨sound.chronicle.disposed load told, sound.ledger.absent_of_left gone⟩
  · exact (List.nodup_append.mp (List.nodup_append.mp balance).2.1).1
  · intro finished load
    refine ⟨fun told => ⟨disposed load told, sound.chronicle.disposed load told⟩, ?_⟩
    rintro ⟨left, value, ended⟩
    rw [← mem_discarded, accounts.mem_iff, List.mem_append, List.mem_append, mem_disposed,
      mem_passedOver] at left
    rcases left with pending | told | told
    · obtain ⟨task, member, known⟩ := List.mem_filterMap.mp pending
      have done := finished task member
      cases task with
      | disposing load => cases done
      | _ => cases known
    · exact told
    · obtain ⟨failure, failed⟩ := sound.chronicle.passedOver load told
      rw [Ended, ended] at failed
      cases failed
  · intro call load failure member key stands
    obtain ⟨outcome, ended, same, gone⟩ := sound.tasks _ member
    have came := sound.entered_of_held member rfl
    rw [sound.ledger.key_eq ((sound.ledger.standing key load).mp stands).1 came] at stands
    cases outcome with
    | ok value => cases same
    | error cause => exact gone cause rfl stands

/-- A load that has been started goes on, or has come to its end. -/
theorem ended_or_continues {state : Traffic α} {load : Nat} (started : load < state.cache.loads.size) :
    (∃ next, Step state next) ∨ ∃ outcome, state.cache.Ended load outcome := by
  have found := Array.getElem?_eq_getElem started
  generalize state.cache.loads[load] = running at found
  obtain ⟨turns, outcome⟩ := running
  cases turns with
  | zero => exact .inr ⟨outcome, found⟩
  | succ turns => exact .inl ⟨_, .progress found⟩

/-- While a task has something left to do, something can happen. -/
theorem Sound.continues {state : Traffic α} (sound : Sound state) {task : Task α}
    (member : task ∈ state.tasks) (unfinished : ¬ task.Finished) : ∃ next, Step state next := by
  have started {key : String} {load : Nat} (came : .entered key load ∈ state.log) :=
    ended_or_continues (sound.ledger.numbered came)
  obtain ⟨cache, tasks, log⟩ := state
  obtain ⟨before, rest, rfl⟩ := List.append_of_mem member
  cases task with
  | arrived call =>
      generalize looked : cache.lookup call.key = outcome
      obtain ⟨found, after⟩ := outcome
      cases found with
      | some load => exact ⟨_, .hit looked⟩
      | none => exact ⟨_, .miss looked⟩
  | weighing call => exact ⟨_, .register rfl⟩
  | settling call load =>
      rcases started (sound.entered_of_held member rfl) with next | ⟨outcome, ended⟩
      · exact next
      · cases outcome with
        | ok value => exact ⟨_, .success ended⟩
        | error failure => exact ⟨_, .failure ended⟩
  | failed call load failure => exact ⟨_, .cleanUp⟩
  | removing key =>
      cases found : cache.entries.peek? key with
      | none => exact ⟨_, .removeNothing found⟩
      | some load => exact ⟨_, .remove found⟩
  | disposing load =>
      have discarded : load ∈ log.filterMap Event.discarded? :=
        sound.accounts.mem_iff.mpr
          (List.mem_append_left _ (List.mem_filterMap.mpr ⟨_, member, rfl⟩))
      obtain ⟨key, why, gone, _⟩ := mem_discarded.mp discarded
      rcases started (sound.ledger.behind _ _ _ gone) with next | ⟨outcome, ended⟩
      · exact next
      · cases outcome with
        | ok value => exact ⟨_, .dispose ended⟩
        | error failure => exact ⟨_, .passOver ended⟩
  | answered call load result => exact absurd trivial unfinished
  | completed => exact absurd trivial unfinished

/-- Whichever way requests take turns, the cache stays safe, something can happen until every
request has been served, and a caller's turn leads to a state of this kind. -/
theorem safe_interleavings (maxWeight : Nat) (requests : List (Request α)) {state : Traffic α}
    (reached : Steps (start maxWeight requests) state) :
    Safe state ∧
      (∀ task ∈ state.tasks, ¬ task.Finished → ∃ next, Step state next) ∧
      ∀ before task rest call progress, state.tasks = before ++ task :: rest →
        Shows call task progress →
        Turned (start maxWeight requests) before rest call (state.cache.poll call progress) := by
  have sound := sound_of_steps (sound_start maxWeight requests) reached
  refine ⟨sound.safe, fun task member => sound.continues member, ?_⟩
  rintro before task rest call progress split shown
  obtain ⟨cache, tasks, log⟩ := state
  obtain rfl : tasks = before ++ task :: rest := split
  have turn : Turned ⟨cache, before ++ task :: rest, log⟩ before rest call
      (cache.poll call progress) := turned_poll shown
  obtain ⟨task, log, shown, steps⟩ := turn
  exact ⟨task, log, shown, reached.trans steps⟩

/-- A call whose load gives a value. -/
def loading : Call Nat := ⟨"a", 1, 0, ⟨0, .ok 7⟩⟩

/-- A call whose load gives up a turn and fails. -/
def failing : Call Nat := ⟨"b", 1, 0, ⟨1, .error .noElements⟩⟩

/-- A load that fails in the end has pushed out another one, whose value is disposed of. -/
theorem safe_interleavings_pushed_out :
    ∃ state, Steps (start 1 [.obtain loading, .obtain failing]) state ∧
      state.log =
        [.disposed 0, .left "b" 1 (.cleanedUp 1), .joined failing 1, .left "a" 0 .pushedOut,
          .entered "b" 1, .joined loading 0, .entered "a" 0] ∧
      Safe state := by
  let served : Task Nat := .answered loading 0 (.ok 7)
  let refused : Task Nat := .answered failing 1 (.error (.shared .noElements))
  have run : ∃ state, Steps (start 1 [.obtain loading, .obtain failing]) state ∧
      state.log =
        [.disposed 0, .left "b" 1 (.cleanedUp 1), .joined failing 1, .left "a" 0 .pushedOut,
          .entered "b" 1, .joined loading 0, .entered "a" 0] := by
    refine ⟨?state, ?steps, ?log⟩
    case steps =>
      refine .head (@Step.miss _ _ _ _ [] _ loading rfl) ?_
      refine .head (@Step.miss _ _ _ _ [.weighing loading] _ failing rfl) ?_
      refine .head (@Step.register _ _ _ _ [] _ loading _ _ rfl) ?_
      refine .head (@Step.success _ _ _ [] _ loading 0 7 rfl) ?_
      refine .head (@Step.register _ _ _ _ [served] _ failing _ _ rfl) ?_
      refine .head (@Step.progress _ _ _ _ 1 0 (.error .noElements) rfl) ?_
      refine .head (@Step.failure _ _ _ [served] _ failing 1 .noElements rfl) ?_
      refine .head (@Step.cleanUp _ _ _ [served] _ failing 1 .noElements) ?_
      refine .head (@Step.dispose _ _ _ [served, refused] _ 0 7 rfl) ?_
      exact .refl
    case log => rfl
  obtain ⟨state, reached, log⟩ := run
  exact ⟨state, reached, log, (safe_interleavings _ _ reached).1⟩

end Traffic

end CodeNav
