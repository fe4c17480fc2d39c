/-
Module: CodeNav.Proofs.Service.Enforcement
Purpose: What look-ups leave in memory of the files that an enforcement of the quota deletes while
  they take turns with it.
Main exports:
  Enforcement, Enforcement.play, Enforcement.Tracks.passes, Enforcement.Tracks.freeOf
-/
import CodeNav.Proofs.Service.Backing
import CodeNav.Proofs.Service.Sweep

namespace CodeNav

open Stateful
open Http (Request Response)
open Quota (Sweep)

/-! ### Taking turns -/

/-- Look-ups that take turns with an enforcement of the quota. -/
structure Enforcement where
  lookUps : Interleaving
  /-- What each look-up has in its hands. -/
  hands : Nat → Hand
  /-- The loads that look-ups have started, and for which targets. -/
  asked : List (Nat × Target)
  sweep : Sweep
  /-- The files that were still in use when they were about to be deleted. -/
  inUse : List String

/-- Whose turn it is. Besides look-ups and disposals, a load that is under way may read its files
only now, and the enforcement takes a step. -/
inductive Enforcement.Turn where
  | lookUp (turn : Interleaving.Turn)
  | load (position : Nat)
  | sweep
deriving Repr, DecidableEq

namespace Steps

variable {α : Type}

/-- Whether nothing is left to do. -/
def isDone : Steps α → Bool
  | done _ => true
  | step .. => false

/-- What a call has in its hands behind one step. -/
def handed (patience : Nat) : Steps α → Service → Hand → Hand
  | done _, _, hand => hand
  | step operation _, s, hand =>
    (operation.run patience s).1.elim hand fun result => operation.hands result hand

/-- The load that a step starts, with the target that it is for. -/
def asks : Steps α → Service → List (Nat × Target)
  | done _, _ => []
  | step operation _, s => operation.asks s

end Steps

namespace Enforcement

/-- The service that all work on. -/
def service (state : Enforcement) : Service :=
  state.lookUps.service

/-- Some look-up that is not done was told of a load that has read a file. -/
def holds (state : Enforcement) (file : String) : Bool :=
  state.lookUps.calls.zipIdx.any fun (call, number) => !call.isDone &&
    (state.hands number).loads.any fun (_, load) => state.service.hasRead file load

/-- Something in memory was read from a file, or some look-up holds it. -/
def uses (state : Enforcement) (file : String) : Bool :=
  state.service.databases.entries.entries.any (fun e => state.service.hasRead file e.value) ||
  state.service.documents.entries.any (fun entry => Service.isFrom file entry.key) ||
  state.holds file

/-- The files found to be in use by the time the enforcement takes its next step. -/
def found (state : Enforcement) : List String :=
  match state.sweep.stage with
  | .invalidated file => if state.uses file.path then file.path :: state.inUse else state.inUse
  | _ => state.inUse

/-- What a turn leads to. -/
def turn (state : Enforcement) : Turn → Enforcement
  | .lookUp (.call number patience) =>
    match state.lookUps.calls[number]? with
    | none => state
    | some call =>
      { state with
        lookUps := state.lookUps.turn (.call number patience)
        hands := Function.update state.hands number
          (call.handed patience state.service (state.hands number))
        asked := call.asks state.service ++ state.asked }
  | .lookUp (.disposal position) =>
    { state with lookUps := state.lookUps.turn (.disposal position) }
  | .load position =>
    match state.asked[position]? with
    | none => state
    | some (number, target) =>
      { state with
        lookUps := { state.lookUps with service := state.service.reload number target } }
  | .sweep =>
    { state with
      lookUps := { state.lookUps with service := (state.sweep.step state.service).2 }
      sweep := (state.sweep.step state.service).1
      inUse := state.found }

/-- What turns lead to, one after the other. -/
def play (state : Enforcement) (turns : List Turn) : Enforcement :=
  turns.foldl turn state

/-- Requests have arrived at a service, and an enforcement begins. -/
def start [Gzip.Compressor] (service : Service) (requests : List (Binary64 × Request))
    (most : Nat) : Enforcement where
  lookUps := .start service requests
  hands := fun _ => .empty
  asked := []
  sweep := .start most
  inUse := []

/-- A file was deleted, and was not in use then. -/
def Gone (state : Enforcement) (file : String) : Prop :=
  file ∈ state.sweep.deleted ∧ file ∉ state.inUse

end Enforcement

/-- Nothing that a service keeps in memory was read from a file. -/
def Service.FreeOf (s : Service) (file : String) : Prop :=
  (∀ e ∈ s.databases.entries.entries, s.hasRead file e.value = false) ∧
    ∀ entry ∈ s.documents.entries, ¬ DecodedFrom s.root file entry.key

/-! ### Single steps -/

namespace Steps

open Service

variable {α : Type} {s : Service} {asked : List (Nat × Target)} {gone : String → Prop} {hand : Hand}

/-- A call keeps to what it has in its hands, and that can stand. -/
structure Held (s : Service) (asked : List (Nat × Target)) (gone : String → Prop)
    (call : Steps α) (hand : Hand) : Prop where
  within : call.Within (fun _ => True) hand
  holds : s.Holds asked gone hand

/-- A step of a call reads nothing that is gone into memory, and leaves the call with what can
stand. -/
theorem advance_held (clear : s.Clear asked gone) {call : Steps α}
    (held : call.isDone = false → Held s asked gone call hand) (patience : Nat) :
    Passes s asked gone (call.advance patience s).2.2 (call.asks s ++ asked) ∧
      ((call.advance patience s).1.isDone = false →
        Held (call.advance patience s).2.2 (call.asks s ++ asked) gone
          (call.advance patience s).1 (call.handed patience s hand)) := by
  cases call with
  | done outcome =>
      refine ⟨clear.refl, fun undone => ?_⟩
      cases undone
  | step operation next =>
      obtain ⟨⟨within, rest⟩, holds⟩ := held rfl
      have passes := Operation.run_passes clear holds within patience
      rw [advance_snd]
      refine ⟨passes, fun _ => ?_⟩
      change Held _ _ gone _
        ((operation.run patience s).1.elim hand fun result => operation.hands result hand)
      cases run : operation.run patience s with
      | mk outcome after =>
          obtain ⟨pushedOut, t⟩ := after
          rw [run] at passes
          cases outcome with
          | none =>
              rw [advance_none run]
              dsimp only [Option.elim_none]
              exact ⟨⟨within, rest⟩, holds.passes passes⟩
          | some result =>
              have stands := Operation.run_holds clear holds within (congrArg Prod.fst run)
              rw [run] at stands
              rw [advance_some run]
              dsimp only [Option.elim_some]
              exact ⟨rest result, stands⟩

end Steps

namespace Quota.Sweep

open Service

variable {sweep : Sweep} {s : Service} {asked : List (Nat × Target)} {gone : String → Prop}

theorem evict_passes (clear : s.Clear asked gone) (file : StoredFile) :
    Passes s asked gone (sweep.evict file s).2 asked := by
  have fewer : ∀ e ∈ (s.databases.entries.remove file.key).2.entries,
      e ∈ s.databases.entries.entries :=
    fun e listed => (WeightedCache.mem_remove.mp listed).1
  unfold evict
  generalize s.databases.entries.remove file.key = removed at fewer
  obtain ⟨found, entries⟩ := removed
  cases found with
  | none => exact clear.refl
  | some load => exact clear.withEntries fewer

/-- A step of an enforcement reads nothing into memory. -/
theorem step_passes (clear : s.Clear asked gone) : Passes s asked gone (sweep.step s).2 asked := by
  have stepped := sweep.step_stepped s
  generalize sweep.step s = after at stepped
  cases stepped with
  | chosen _ _ _ => exact evict_passes clear _
  | waits _ => exact clear.dispose _
  | closed _ => exact clear.dispose _
  | forgets _ => exact clear.invalidate _
  | deletes _ => exact clear.erase _
  | listed _ => exact clear.refl
  | finished _ => exact clear.refl
  | keeps _ => exact clear.refl
  | rests _ => exact clear.refl

/-- A file that was deleted was deleted before, or is deleted in this very step. -/
theorem step_deleted {path : String} (deleted : path ∈ (sweep.step s).1.deleted) :
    path ∈ sweep.deleted ∨ ∃ file, sweep.stage = .invalidated file ∧ path = file.path ∧
      (sweep.step s).2 = { s with files := s.files.erase path } := by
  have stepped := sweep.step_stepped s
  generalize sweep.step s = after at stepped deleted ⊢
  cases stepped with
  | listed _ => cases deleted
  | chosen _ _ _ =>
      rw [(evict_frame _ _ s).2.1] at deleted
      exact .inl deleted
  | deletes invalidated =>
      rcases List.mem_append.mp deleted with before | now
      · exact .inl before
      · obtain rfl := List.mem_singleton.mp now
        exact .inr ⟨_, invalidated, rfl, rfl⟩
  | finished _ => exact .inl deleted
  | waits _ => exact .inl deleted
  | closed _ => exact .inl deleted
  | forgets _ => exact .inl deleted
  | keeps _ => exact .inl deleted
  | rests _ => exact .inl deleted

end Quota.Sweep

namespace Enforcement

open Service (Passes)

variable {state : Enforcement} {number patience position : Nat} {call : Steps Response}
  {file : String}

theorem turn_call (stands : state.lookUps.calls[number]? = some call) :
    state.turn (.lookUp (.call number patience)) =
      { state with
        lookUps := state.lookUps.turn (.call number patience)
        hands := Function.update state.hands number
          (call.handed patience state.service (state.hands number))
        asked := call.asks state.service ++ state.asked } := by
  simp only [turn, stands]

theorem turn_call_absent (absent : state.lookUps.calls[number]? = none) :
    state.turn (.lookUp (.call number patience)) = state := by
  simp only [turn, absent]

theorem turn_load {load : Nat} {target : Target}
    (started : state.asked[position]? = some (load, target)) :
    state.turn (.load position) =
      { state with
        lookUps := { state.lookUps with service := state.service.reload load target } } := by
  simp only [turn, started]

theorem turn_load_absent (absent : state.asked[position]? = none) :
    state.turn (.load position) = state := by
  simp only [turn, absent]

/-! ### Files in use -/

/-- What is not in use has been read neither by what is in memory nor by a look-up under way. -/
theorem unread (unused : state.uses file = false) :
    (∀ e ∈ state.service.databases.entries.entries, state.service.hasRead file e.value = false) ∧
      (∀ entry ∈ state.service.documents.entries, Service.isFrom file entry.key = false) ∧
      ∀ number call, state.lookUps.calls[number]? = some call → call.isDone = false →
        ∀ target load, (target, load) ∈ (state.hands number).loads →
          state.service.hasRead file load = false := by
  unfold uses holds at unused
  simp only [Bool.or_eq_false_iff, List.any_eq_false, Bool.not_eq_true] at unused
  obtain ⟨⟨entries, documents⟩, hands⟩ := unused
  refine ⟨entries, documents, fun number call stands undone target load told => ?_⟩
  have none := hands (call, number) (List.mk_mem_zipIdx_iff_getElem?.mpr stands)
  dsimp only at none
  rw [undone, Bool.not_false, Bool.true_and, List.any_eq_false] at none
  simpa using none (target, load) told

theorem mem_found_iff : file ∈ state.found ↔ file ∈ state.inUse ∨
    ∃ stored, state.sweep.stage = .invalidated stored ∧ file = stored.path ∧
      state.uses stored.path = true := by
  unfold found
  split
  · rename_i stored stage
    split
    · rename_i used
      rw [List.mem_cons, or_comm]
      refine or_congr_right ⟨fun same => ⟨stored, stage, same, used⟩, ?_⟩
      rintro ⟨other, there, rfl, _⟩
      cases stage.symm.trans there
      rfl
    · rename_i unused
      refine ⟨.inl, ?_⟩
      rintro (used | ⟨other, there, _, used⟩)
      · exact used
      · cases stage.symm.trans there
        exact absurd used unused
  · rename_i others
    refine ⟨.inl, ?_⟩
    rintro (used | ⟨stored, stage, _⟩)
    · exact used
    · exact absurd stage (others stored)

/-- What is gone was gone before, or has just been deleted while it was not in use. -/
theorem gone_sweep (isGone : (state.turn .sweep).Gone file) : state.Gone file ∨
    state.uses file = false ∧ (state.sweep.step state.service).2 =
      { state.service with files := state.service.files.erase file } := by
  obtain ⟨deleted, free⟩ := isGone
  rcases Quota.Sweep.step_deleted deleted with before | ⟨stored, stage, rfl, erased⟩
  · exact .inl ⟨before, fun used => free (mem_found_iff.mpr (.inl used))⟩
  · refine .inr ⟨?_, erased⟩
    cases used : state.uses stored.path with
    | false => rfl
    | true => exact absurd (mem_found_iff.mpr (.inr ⟨stored, stage, rfl, used⟩)) free

/-! ### All turns -/

/-- Nothing in memory was read from a file that was deleted and not in use then, and no look-up that
is not done can bring it back. -/
structure Tracks (state : Enforcement) : Prop where
  clear : state.service.Clear state.asked state.Gone
  held : ∀ number call, state.lookUps.calls[number]? = some call → call.isDone = false →
    Steps.Held state.service state.asked state.Gone call (state.hands number)

namespace Tracks

/-- What changes neither the calls nor what is deleted keeps track if it goes on as loads do. -/
theorem passing (tracks : Tracks state) {service : Service}
    (passes : Passes state.service state.asked state.Gone service state.asked) :
    Tracks { state with lookUps := { state.lookUps with service } } where
  clear := passes.clear
  held number call stands undone :=
    let held := tracks.held number call stands undone
    ⟨held.within, held.holds.passes passes⟩

theorem called (tracks : Tracks state) (number patience : Nat) :
    Tracks (state.turn (.lookUp (.call number patience))) := by
  cases stands : state.lookUps.calls[number]? with
  | none => rwa [turn_call_absent stands]
  | some call =>
      obtain ⟨passes, held⟩ := Steps.advance_held tracks.clear
        (tracks.held number call stands) patience
      rw [turn_call stands, Interleaving.turn_call stands]
      refine ⟨passes.clear, fun other there standsToo undone => ?_⟩
      dsimp only at standsToo undone ⊢
      by_cases same : number = other
      · subst same
        have bound : number < state.lookUps.calls.length := (List.getElem?_eq_some_iff.mp stands).1
        rw [List.getElem?_set_self bound] at standsToo
        cases standsToo
        rw [Function.update_self]
        exact held undone
      · rw [List.getElem?_set_ne same] at standsToo
        rw [Function.update_of_ne (Ne.symm same)]
        obtain ⟨within, holds⟩ := tracks.held other there standsToo undone
        exact ⟨within, holds.passes passes⟩

theorem disposed (tracks : Tracks state) (position : Nat) :
    Tracks (state.turn (.lookUp (.disposal position))) := by
  change Tracks { state with lookUps := state.lookUps.turn (.disposal position) }
  cases stands : state.lookUps.pushedOut[position]? with
  | none => rwa [Interleaving.turn_disposal_absent stands]
  | some load =>
      rw [Interleaving.turn_disposal stands]
      have after := tracks.passing (tracks.clear.dispose load)
      exact ⟨after.clear, after.held⟩

theorem reloaded (tracks : Tracks state) (position : Nat) :
    Tracks (state.turn (.load position)) := by
  cases listed : state.asked[position]? with
  | none => rwa [turn_load_absent listed]
  | some started =>
      rw [turn_load listed]
      exact tracks.passing (Service.reload_passes tracks.clear (List.mem_of_getElem? listed))

theorem swept (tracks : Tracks state) : Tracks (state.turn .sweep) := by
  have passes : Passes state.service state.asked state.Gone (state.sweep.step state.service).2
      state.asked := Quota.Sweep.step_passes tracks.clear
  refine ⟨passes.clear.change fun file isGone => (gone_sweep isGone).imp_right ?_,
    fun number call stands undone => ?_⟩
  · rintro ⟨unused, erased⟩
    obtain ⟨entries, documents, _⟩ := unread unused
    rw [erased]
    refine ⟨?_, entries, documents⟩
    rw [Files.find?_erase, if_pos rfl]
  · obtain ⟨within, holds⟩ := tracks.held number call stands undone
    refine ⟨within, (holds.passes passes).change fun file isGone =>
      (gone_sweep isGone).imp_right ?_⟩
    rintro ⟨unused, erased⟩
    obtain ⟨_, _, hands⟩ := unread unused
    rw [erased]
    exact hands number call stands undone

theorem turn (tracks : Tracks state) (turn : Turn) : Tracks (state.turn turn) := by
  cases turn with
  | lookUp turn =>
      cases turn with
      | call number patience => exact tracks.called number patience
      | disposal position => exact tracks.disposed position
  | load position => exact tracks.reloaded position
  | sweep => exact tracks.swept

theorem play (tracks : Tracks state) (turns : List Turn) : Tracks (state.play turns) := by
  induction turns generalizing state with
  | nil => exact tracks
  | cons turn rest ih => exact ih (tracks.turn turn)

/-- Whoever has a turn, loads go on. -/
theorem passes (tracks : Tracks state) (turn : Turn) :
    Passes state.service state.asked state.Gone (state.turn turn).service
      (state.turn turn).asked := by
  cases turn with
  | lookUp turn =>
      cases turn with
      | call number patience =>
          cases stands : state.lookUps.calls[number]? with
          | none =>
              rw [turn_call_absent stands]
              exact tracks.clear.refl
          | some call =>
              rw [turn_call stands, Interleaving.turn_call stands]
              exact (Steps.advance_held tracks.clear (tracks.held number call stands) patience).1
      | disposal position =>
          change Passes _ _ _ (state.lookUps.turn (.disposal position)).service _
          cases stands : state.lookUps.pushedOut[position]? with
          | none =>
              rw [Interleaving.turn_disposal_absent stands]
              exact tracks.clear.refl
          | some load =>
              rw [Interleaving.turn_disposal stands]
              exact tracks.clear.dispose load
  | load position =>
      cases listed : state.asked[position]? with
      | none =>
          rw [turn_load_absent listed]
          exact tracks.clear.refl
      | some started =>
          rw [turn_load listed]
          exact Service.reload_passes tracks.clear (List.mem_of_getElem? listed)
  | sweep => exact Quota.Sweep.step_passes tracks.clear

/-- What is gone has left nothing in memory. -/
theorem freeOf (tracks : Tracks state) {file : String} (isGone : state.Gone file) :
    state.service.FreeOf file := by
  refine ⟨fun e listed => ?_, fun entry listed => tracks.clear.documents entry listed file isGone⟩
  obtain ⟨_, load, found, fine⟩ := tracks.clear.entries e listed
  unfold Service.hasRead
  rw [found]
  obtain ⟨turns, outcome⟩ := load
  cases outcome with
  | error failure => rfl
  | ok database =>
      dsimp only
      refine beq_eq_false_iff_ne.mpr ?_
      rintro rfl
      exact (fine database rfl).2 isGone

end Tracks

/-- At first nothing was deleted, and no call has anything. -/
theorem tracks_start [Gzip.Compressor] {s : Service} (filed : s.Filed)
    (requests : List (Binary64 × Request)) (most : Nat) : Tracks (start s requests most) where
  clear := by
    refine ⟨fun file isGone => ?_, fun e listed => ?_, fun entry listed file isGone => ?_,
      fun number target listed => ?_⟩
    · cases isGone.1
    · obtain ⟨load, found, fine⟩ := filed e listed
      exact ⟨fun target told => (by cases told), load, found, fun database ok =>
        ⟨fine database ok, fun isGone => (by cases isGone.1)⟩⟩
    · cases isGone.1
    · cases listed
  held number call stands undone := by
    obtain ⟨⟨elapsed, request⟩, _, rfl⟩ := Option.map_eq_some_iff.mp
      ((List.getElem?_map ..).symm.trans stands)
    refine ⟨Steps.within_call s elapsed request, ?_, ?_⟩
    · intro target number listed
      cases listed
    · intro target database listed
      cases listed

/-! ### Getting done -/

theorem play_sweeps (state : Enforcement) (count : Nat) :
    (state.play (List.replicate count .sweep)).sweep =
      (Quota.Sweep.steps count state.sweep state.service).1 := by
  induction count generalizing state with
  | zero => rfl
  | succ count ih => exact ih (state.turn .sweep)

end Enforcement

end CodeNav
