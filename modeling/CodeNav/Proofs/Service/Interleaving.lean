/-
Module: CodeNav.Proofs.Service.Interleaving
Purpose: Look-ups that take turns on one service, and when they disturb each other.
Main exports:
  Interleaving, Interleaving.play, Interleaving.undisturbed_alone
-/
import CodeNav.Proofs.Service.LaterQueries
import CodeNav.Proofs.Service.Steady

namespace CodeNav

open Stateful
open Http (Request Response)

/-! ### Taking turns -/

/-- Calls that take turns on a service. -/
structure Interleaving where
  service : Service
  calls : List (Steps Response)
  /-- The loads that were pushed out of the cache and are still to be disposed of. -/
  pushedOut : List Nat
  /-- The calls that have read from a database behind its disposal. -/
  disturbed : List Nat

/-- Whose turn it is. A call takes one step; if that starts a load, the load is going to give up
some turns. A disposal waits for the load, and closes what was opened. -/
inductive Interleaving.Turn where
  | call (number patience : Nat)
  | disposal (position : Nat)
deriving Repr, DecidableEq

namespace Steps

variable {α : Type}

/-- One step: how the call goes on, and which loads are pushed out. A call that waits stays where
it is. -/
def advance (patience : Nat) : Steps α → Service → Steps α × List Nat × Service
  | done outcome, s => (done outcome, [], s)
  | step operation next, s =>
    match operation.run patience s with
    | (some result, pushedOut, s) => (next result, pushedOut, s)
    | (none, pushedOut, s) => (step operation next, pushedOut, s)

/-- Whether the next step reads from a closed database. -/
def meetsClosed : Steps α → Service → Bool
  | done _, _ => false
  | step operation _, s => operation.meetsClosed s

end Steps

/-- A step of the disposal of a load. It is over once the load is finished. -/
def Service.dispose (load : Nat) (s : Service) : Bool × Service :=
  match s.databases.loads[load]? with
  | some ⟨turns + 1, outcome⟩ =>
    (false, { s with databases :=
      { s.databases with loads := s.databases.loads.setIfInBounds load ⟨turns, outcome⟩ } })
  | _ => (true, Operation.closing [load] s)

namespace Interleaving

/-- What a turn leads to. -/
def turn (state : Interleaving) : Turn → Interleaving
  | .call number patience =>
    match state.calls[number]? with
    | none => state
    | some call =>
      let (after, pushedOut, service) := call.advance patience state.service
      { service
        calls := state.calls.set number after
        pushedOut := state.pushedOut ++ pushedOut
        disturbed :=
          if call.meetsClosed state.service then number :: state.disturbed else state.disturbed }
  | .disposal position =>
    match state.pushedOut[position]? with
    | none => state
    | some load =>
      let (closed, service) := state.service.dispose load
      { state with
        service
        pushedOut := if closed then state.pushedOut.eraseIdx position else state.pushedOut }

/-- What turns lead to, one after the other. -/
def play (state : Interleaving) (turns : List Turn) : Interleaving :=
  turns.foldl turn state

/-- Requests that have arrived at a service. -/
def start [Gzip.Compressor] (service : Service) (requests : List (Binary64 × Request)) :
    Interleaving where
  service := service
  calls := requests.map fun (elapsed, request) => Steps.call elapsed request
  pushedOut := []
  disturbed := []

/-- What a call has come to, if it is done. -/
def outcome? (state : Interleaving) (number : Nat) : Option (Except Failure Response) :=
  match state.calls[number]? with
  | some (.done outcome) => some outcome
  | _ => none

end Interleaving

/-! ### Waiting -/

namespace Operation

open Service

/-- The turns that the load gives up which an operation waits for. -/
def waits {β : Type} : Operation β → Service → Nat
  | .settle _ number, s => (s.databases.loads[number]?).elim 0 (·.turns)
  | _, _ => 0

theorem waits_settle (target : Target) (number : Nat) (s : Service) :
    (settle target number).waits s = (s.databases.loads[number]?).elim 0 (·.turns) :=
  rfl

variable {u s : Service} {β : Type} {operation : Operation β}

/-- What does not wait comes to something. -/
theorem run_of_waits_zero [Gzip.Compressor] (sane : operation.Sane u s)
    (idle : operation.waits s = 0) (patience : Nat) : ∃ result pushedOut after,
      operation.run patience s = (some result, pushedOut, after) := by
  cases operation with
  | settle target number =>
      obtain ⟨_, load, _, found, _⟩ := sane
      rw [waits_settle, found] at idle
      change ∃ result pushedOut after, ((settleLoad target number s).1, [],
        (settleLoad target number s).2) = (some result, pushedOut, after)
      have settled := settleLoad_settled target number s
      generalize settleLoad target number s = result at settled
      cases settled with
      | unknown absent => cases absent.symm.trans found
      | busy running =>
          cases running.symm.trans found
          cases idle
      | opened _ => exact ⟨_, _, _, rfl⟩
      | failed _ _ _ => exact ⟨_, _, _, rfl⟩
  | _ => exact ⟨_, _, _, rfl⟩

/-- What waits has to wait less and less. -/
theorem run_of_waits_succ {turns : Nat} (busy : operation.waits s = turns + 1) (patience : Nat) :
    ∃ after, operation.run patience s = (none, [], after) ∧ operation.waits after = turns := by
  cases operation with
  | settle target number =>
      rw [waits_settle] at busy
      change ∃ after, ((settleLoad target number s).1, [], (settleLoad target number s).2) =
        (none, [], after) ∧ (settle target number).waits after = turns
      have settled := settleLoad_settled target number s
      generalize settleLoad target number s = result at settled
      cases settled with
      | unknown absent =>
          rw [absent] at busy
          cases busy
      | busy found =>
          rw [found] at busy
          cases busy
          refine ⟨_, rfl, ?_⟩
          rw [waits_settle]
          simp [Array.getElem?_setIfInBounds_self_of_lt (Registered.lt_size found)]
      | opened found =>
          rw [found] at busy
          cases busy
      | failed found _ _ =>
          rw [found] at busy
          cases busy
  | _ => cases busy

theorem meetsClosed_of_waits {turns : Nat} (busy : operation.waits s = turns + 1) :
    operation.meetsClosed s = false := by
  cases operation with
  | settle target number => rfl
  | _ => cases busy

theorem insertLoad_evictions {patience weight : Nat} {target : Target}
    (never : (insertLoad patience target weight s).2.2.databases.entries.evictions = 0) :
    s.databases.entries.evictions = 0 ∧ (insertLoad patience target weight s).2.1 = [] ∧
      (insertLoad patience target weight s).2.2.closed = s.closed := by
  have inserted := insertLoad_inserted patience target weight s
  generalize insertLoad patience target weight s = result at inserted never
  cases inserted with
  | known found => exact ⟨never, rfl, rfl⟩
  | new absent =>
      have kept : s.databases.entries.remove target.key = (none, s.databases.entries) := by
        unfold WeightedCache.remove
        rw [absent]
      obtain ⟨_, dropped, total, _, inserted⟩ :=
        s.databases.entries.insert_eq target.key s.databases.loads.size weight
      rw [kept] at inserted
      dsimp only at never ⊢
      rw [inserted] at never ⊢
      obtain ⟨before, none⟩ := Nat.add_eq_zero_iff.mp never
      obtain rfl := List.length_eq_zero_iff.mp none
      exact ⟨before, rfl, rfl⟩

/-- As long as nothing is evicted, no loads are pushed out. Only disposals close databases. -/
theorem run_evictions (patience : Nat)
    (never : (operation.run patience s).2.2.databases.entries.evictions = 0) :
    s.databases.entries.evictions = 0 ∧ (operation.run patience s).2.1 = [] ∧
      (operation.run patience s).2.2.closed = s.closed := by
  cases operation with
  | hasData target => exact ⟨never, rfl, rfl⟩
  | lookUp target =>
      have same : (s.databases.entries.get target.key).2.evictions =
          s.databases.entries.evictions := by
        unfold WeightedCache.get
        split <;> rfl
      exact ⟨same.symm.trans never, rfl, rfl⟩
  | weigh target => exact ⟨never, rfl, rfl⟩
  | insert target weight => exact insertLoad_evictions never
  | settle target number =>
      change (settleLoad target number s).2.databases.entries.evictions = 0 at never
      change _ ∧ [] = [] ∧ (settleLoad target number s).2.closed = s.closed
      have settled := settleLoad_settled target number s
      generalize settleLoad target number s = result at settled never
      cases settled with
      | unknown _ => exact ⟨never, rfl, rfl⟩
      | busy _ => exact ⟨never, rfl, rfl⟩
      | opened _ => exact ⟨never, rfl, rfl⟩
      | failed _ _ evictions => exact ⟨evictions.symm.trans never, rfl, rfl⟩
  | cached key => exact ⟨never, rfl, rfl⟩
  | read database =>
      have same : (source database s).2.databases = s.databases ∧
          (source database s).2.closed = s.closed :=
        keeps_source (P := fun t => t.databases = s.databases ∧ t.closed = s.closed)
          (fun _ _ holds _ => holds) database s ⟨rfl, rfl⟩
      change (source database s).2.databases.entries.evictions = 0 at never
      rw [same.1] at never
      exact ⟨never, rfl, same.2⟩
  | keep key document => exact ⟨never, rfl, rfl⟩
  | packages =>
      have same : (ServiceM.packageIndex s).2 = s :=
        keeps_packageIndex (P := (· = s)) s rfl
      change (ServiceM.packageIndex s).2.databases.entries.evictions = 0 at never
      change _ ∧ [] = [] ∧ (ServiceM.packageIndex s).2.closed = s.closed
      rw [same] at never ⊢
      exact ⟨never, rfl, rfl⟩
  | count change => exact ⟨never, rfl, rfl⟩

end Operation

/-! ### Single turns -/

namespace Steps

open Service

variable {u s t : Service} {response : Response} {call : Steps Response} {disturbed : Bool}

/-- A call comes to a response unless it is disturbed. -/
def Expects [Gzip.Compressor] (u : Service) (response : Response) :
    Steps Response → Bool → Service → Prop :=
  Leads u fun disturbed outcome _ => disturbed = false → outcome = .ok response

theorem Expects.later [Gzip.Compressor] (expects : Expects u response call disturbed s)
    (later : u.Later s t) : Expects u response call disturbed t :=
  Leads.later expects later fun _ _ => id

theorem advance_some {α β : Type} {operation : Operation β} {next : β → Steps α} {patience : Nat}
    {result : β} {pushedOut : List Nat} (run : operation.run patience s = (some result, pushedOut, t)) :
    (step operation next).advance patience s = (next result, pushedOut, t) := by
  change (match operation.run patience s with
    | (some result, pushedOut, s) => (next result, pushedOut, s)
    | (none, pushedOut, s) => (step operation next, pushedOut, s)) = _
  rw [run]

theorem advance_none {α β : Type} {operation : Operation β} {next : β → Steps α} {patience : Nat}
    {pushedOut : List Nat} (run : operation.run patience s = (none, pushedOut, t)) :
    (step operation next).advance patience s = (step operation next, pushedOut, t) := by
  change (match operation.run patience s with
    | (some result, pushedOut, s) => (next result, pushedOut, s)
    | (none, pushedOut, s) => (step operation next, pushedOut, s)) = _
  rw [run]

/-- A step changes the service as its operation does. -/
theorem advance_snd {α β : Type} (operation : Operation β) (next : β → Steps α) (patience : Nat)
    (s : Service) :
    ((step operation next).advance patience s).2 = (operation.run patience s).2 := by
  cases run : operation.run patience s with
  | mk result rest =>
      obtain ⟨pushedOut, after⟩ := rest
      cases result with
      | none => rw [advance_none run]
      | some result => rw [advance_some run]

theorem advance_later [Gzip.Compressor] (expects : Expects u response call disturbed s)
    (steady : u.Steady s) (patience : Nat) : u.Later s (call.advance patience s).2.2 := by
  cases call with
  | done outcome => exact steady.later_refl
  | step operation next =>
      rw [advance_snd]
      exact Operation.run_later steady expects.1 patience

/-- A step of a call leaves it on its way. -/
theorem advance_expects [Gzip.Compressor] (expects : Expects u response call disturbed s)
    (steady : u.Steady s) (patience : Nat) :
    Expects u response (call.advance patience s).1 (disturbed || call.meetsClosed s)
      (call.advance patience s).2.2 := by
  cases call with
  | done outcome =>
      rw [show (done outcome).meetsClosed s = false from rfl, Bool.or_false]
      exact expects
  | step operation next =>
      cases waits : operation.waits s with
      | zero =>
          obtain ⟨result, pushedOut, after, run⟩ :=
            Operation.run_of_waits_zero expects.1 waits patience
          rw [advance_some run]
          exact expects.2 s steady.later_refl patience result pushedOut after run
      | succ turns =>
          obtain ⟨after, run, _⟩ := Operation.run_of_waits_succ waits patience
          have unmet : (step operation next).meetsClosed s = false :=
            Operation.meetsClosed_of_waits waits
          have later := advance_later expects steady patience
          rw [advance_none run] at later ⊢
          rw [unmet, Bool.or_false]
          exact expects.later later

theorem advance_evictions (call : Steps Response) (patience : Nat)
    (never : (call.advance patience s).2.2.databases.entries.evictions = 0) :
    s.databases.entries.evictions = 0 ∧ (call.advance patience s).2.1 = [] ∧
      (call.advance patience s).2.2.closed = s.closed := by
  cases call with
  | done outcome => exact ⟨never, rfl, rfl⟩
  | step operation next =>
      rw [advance_snd] at never ⊢
      exact Operation.run_evictions patience never

end Steps

theorem Service.dispose_later [Gzip.Compressor] {u s : Service} (steady : u.Steady s) (load : Nat) :
    u.Later s (s.dispose load).2 := by
  unfold dispose
  split
  · exact Operation.movesOn steady ‹_›
  · exact ⟨{ steady with }, fun _ _ => id⟩

theorem Service.dispose_evictions (s : Service) (load : Nat) :
    (s.dispose load).2.databases.entries = s.databases.entries := by
  unfold dispose
  split <;> rfl

namespace Interleaving

open Service (Steady)

section

variable {state : Interleaving} {number position patience load : Nat} {call : Steps Response}

theorem turn_call (stands : state.calls[number]? = some call) :
    state.turn (.call number patience) =
      { service := (call.advance patience state.service).2.2
        calls := state.calls.set number (call.advance patience state.service).1
        pushedOut := state.pushedOut ++ (call.advance patience state.service).2.1
        disturbed :=
          if call.meetsClosed state.service then number :: state.disturbed
          else state.disturbed } := by
  simp only [turn, stands]

theorem turn_disposal (stands : state.pushedOut[position]? = some load) :
    state.turn (.disposal position) =
      { state with
        service := (state.service.dispose load).2
        pushedOut :=
          if (state.service.dispose load).1 then state.pushedOut.eraseIdx position
          else state.pushedOut } := by
  simp only [turn, stands]

theorem turn_disposal_absent (absent : state.pushedOut[position]? = none) :
    state.turn (.disposal position) = state := by
  simp only [turn, absent]

/-- A turn goes on with a call or disposes of what was pushed out, or there is nothing to do. -/
theorem turn_cases (state : Interleaving) (turn : Turn) :
    state.turn turn = state ∨
      (∃ position load, turn = .disposal position ∧ state.pushedOut[position]? = some load) ∨
      ∃ number patience call, turn = .call number patience ∧ state.calls[number]? = some call := by
  cases turn with
  | disposal position =>
      cases stands : state.pushedOut[position]? with
      | none => exact .inl (turn_disposal_absent stands)
      | some load => exact .inr (.inl ⟨position, load, rfl, stands⟩)
  | call number patience =>
      cases stands : state.calls[number]? with
      | none => exact .inl (by simp only [Interleaving.turn, stands])
      | some call => exact .inr (.inr ⟨number, patience, call, rfl, stands⟩)

end

/-! ### All turns -/

section

variable {state : Interleaving}

theorem length_calls (state : Interleaving) (turns : List Turn) :
    (state.play turns).calls.length = state.calls.length := by
  induction turns generalizing state with
  | nil => rfl
  | cons turn rest ih =>
      refine (ih (state.turn turn)).trans ?_
      rcases turn_cases state turn with
        still | ⟨position, load, rfl, stands⟩ | ⟨number, patience, call, rfl, stands⟩
      · rw [still]
      · rw [turn_disposal stands]
      · rw [turn_call stands]
        exact List.length_set

/-- As long as nothing is evicted, nothing is closed, and no call is disturbed. -/
def Calm (state : Interleaving) : Prop :=
  state.service.databases.entries.evictions = 0 →
    state.pushedOut = [] ∧ state.service.closed = [] ∧ state.disturbed = []

theorem Calm.turn (calm : Calm state) (turn : Turn) : Calm (state.turn turn) := by
  rcases turn_cases state turn with
    still | ⟨position, load, rfl, stands⟩ | ⟨number, patience, call, rfl, stands⟩
  · rwa [still]
  · rw [turn_disposal stands]
    intro never
    change (state.service.dispose load).2.databases.entries.evictions = 0 at never
    rw [Service.dispose_evictions] at never
    rw [(calm never).1] at stands
    cases stands
  · rw [turn_call stands]
    intro never
    obtain ⟨before, none, same⟩ := Steps.advance_evictions call patience never
    obtain ⟨queue, closed, undisturbed⟩ := calm before
    have unmet : call.meetsClosed state.service = false := by
      cases call with
      | done outcome => rfl
      | step operation next =>
          change operation.meetsClosed state.service = false
          cases operation with
          | read database =>
              change state.service.closed.contains database.handle = false
              rw [closed]
              rfl
          | _ => rfl
    dsimp only
    refine ⟨?_, same.trans closed, ?_⟩
    · rw [queue, none, List.append_nil]
    · rw [unmet]
      exact undisturbed

theorem Calm.play (calm : Calm state) (turns : List Turn) : Calm (state.play turns) := by
  induction turns generalizing state with
  | nil => exact calm
  | cons turn rest ih => exact ih (calm.turn turn)

end

variable [Gzip.Compressor]

/-- Every call is on its way to its response, unless it is disturbed. -/
structure Tracks (u : Service) (responses : List Response) (state : Interleaving) : Prop where
  steady : u.Steady state.service
  expects : ∀ number call, state.calls[number]? = some call →
    ∃ response, responses[number]? = some response ∧
      Steps.Expects u response call (decide (number ∈ state.disturbed)) state.service

variable {u : Service} {responses : List Response} {state : Interleaving}

theorem Tracks.turn (tracks : Tracks u responses state) (turn : Turn) :
    Tracks u responses (state.turn turn) := by
  rcases turn_cases state turn with
    still | ⟨position, load, rfl, stands⟩ | ⟨number, patience, call, rfl, stands⟩
  · rwa [still]
  · rw [turn_disposal stands]
    have later := Service.dispose_later tracks.steady load
    refine ⟨later.steady, fun number call stands => ?_⟩
    obtain ⟨response, due, expects⟩ := tracks.expects number call stands
    exact ⟨response, due, expects.later later⟩
  · rw [turn_call stands]
    obtain ⟨response, due, expects⟩ := tracks.expects number call stands
    have later := Steps.advance_later expects tracks.steady patience
    have goes := Steps.advance_expects expects tracks.steady patience
    refine ⟨later.steady, fun other there standsToo => ?_⟩
    dsimp only at standsToo ⊢
    by_cases same : number = other
    · subst same
      have bound : number < state.calls.length := (List.getElem?_eq_some_iff.mp stands).1
      rw [List.getElem?_set_self bound] at standsToo
      cases standsToo
      refine ⟨response, due, ?_⟩
      cases meets : call.meetsClosed state.service with
      | false =>
          rw [meets, Bool.or_false] at goes
          exact goes
      | true =>
          rw [meets, Bool.or_true] at goes
          simpa using goes
    · rw [List.getElem?_set_ne same] at standsToo
      obtain ⟨response, due, expects⟩ := tracks.expects other there standsToo
      refine ⟨response, due, ?_⟩
      have unaffected : decide (other ∈ if call.meetsClosed state.service then
          number :: state.disturbed else state.disturbed) =
          decide (other ∈ state.disturbed) := by
        split
        · simp [Ne.symm same]
        · rfl
      rw [unaffected]
      exact expects.later later

theorem Tracks.play (tracks : Tracks u responses state) (turns : List Turn) :
    Tracks u responses (state.play turns) := by
  induction turns generalizing state with
  | nil => exact tracks
  | cons turn rest ih => exact ih (tracks.turn turn)

/-- A call gets done if it gets enough turns. -/
theorem Tracks.finishes (tracks : Tracks u responses state) {number : Nat}
    {call : Steps Response} (stands : state.calls[number]? = some call) :
    ∃ turns outcome,
      (state.play (List.replicate turns (.call number 0))).outcome? number = some outcome := by
  induction call generalizing state with
  | done outcome =>
      refine ⟨0, outcome, ?_⟩
      change state.outcome? number = _
      unfold outcome?
      rw [stands]
  | step operation next ih =>
      generalize left : operation.waits state.service = waits
      induction waits generalizing state with
      | zero =>
          obtain ⟨_, _, expects⟩ := tracks.expects number _ stands
          obtain ⟨result, pushedOut, after, run⟩ := Operation.run_of_waits_zero expects.1 left 0
          have goes : (state.turn (.call number 0)).calls[number]? = some (next result) := by
            rw [turn_call stands, Steps.advance_some run]
            exact List.getElem?_set_self (List.getElem?_eq_some_iff.mp stands).1
          obtain ⟨turns, outcome, done⟩ := ih result (tracks.turn (.call number 0)) goes
          exact ⟨turns + 1, outcome, done⟩
      | succ waits shorter =>
          obtain ⟨after, run, less⟩ := Operation.run_of_waits_succ left 0
          have goes : (state.turn (.call number 0)).calls[number]? =
              some (.step operation next) := by
            rw [turn_call stands, Steps.advance_none run]
            exact List.getElem?_set_self (List.getElem?_eq_some_iff.mp stands).1
          have rest : operation.waits (state.turn (.call number 0)).service = waits := by
            rw [turn_call stands, Steps.advance_none run]
            exact less
          obtain ⟨turns, outcome, done⟩ := shorter (tracks.turn (.call number 0)) goes rest
          exact ⟨turns + 1, outcome, done⟩

/-! ### From the start -/

section

variable (root : String) (flags : EncodingFlags) (limits : Limits) (files : Files)
  (index : IndexState) (converter : Converter) (sizes : Sizes)
  {requests : List (Binary64 × Request)}

theorem tracks_start (lookups : ∀ call ∈ requests, call.2.method = "POST" ∧
      Service.IsLookup call.2) :
    let s := Service.start root flags limits files index converter sizes
    Tracks s (requests.map fun call => (Service.respond call.1 call.2 s).1) (start s requests) := by
  intro s
  have reflects : s.Reflects s :=
    Service.UpToDate.reflects (.atStart root flags limits files index converter sizes)
  refine ⟨Service.steady_start root flags limits files index converter sizes, ?_⟩
  intro number call stands
  obtain ⟨⟨elapsed, request⟩, asked, rfl⟩ := Option.map_eq_some_iff.mp
    ((List.getElem?_map ..).symm.trans stands)
  obtain ⟨post, lookup⟩ := lookups _ (List.mem_of_getElem? asked)
  refine ⟨(Service.respond elapsed request s).1, by rw [List.getElem?_map, asked]; rfl, ?_⟩
  exact ((Steps.interleaved s).call reflects post lookup elapsed s trivial _).mono
    fun _ _ _ _ holds => holds.1

/-- Whatever look-ups take turns on a service, and whatever the order of their steps, each gets the
response that it gets when it is alone, unless it reads from a database that was evicted and
closed while it was being used. As long as nothing is evicted, no look-up does. -/
theorem undisturbed_alone (lookups : ∀ call ∈ requests, call.2.method = "POST" ∧
      Service.IsLookup call.2) (turns : List Turn) :
    let s := Service.start root flags limits files index converter sizes
    let state := (start s requests).play turns
    (∀ number elapsed request, requests[number]? = some (elapsed, request) →
      (∀ outcome, state.outcome? number = some outcome → number ∉ state.disturbed →
        outcome = .ok (Service.respond elapsed request s).1) ∧
      ∃ more outcome, (state.play (List.replicate more (.call number 0))).outcome? number =
        some outcome) ∧
    (state.service.databases.entries.evictions = 0 → state.disturbed = []) := by
  intro s state
  have tracks := (tracks_start root flags limits files index converter sizes lookups).play turns
  have calm : Calm (start s requests) := fun _ => ⟨rfl, rfl, rfl⟩
  refine ⟨fun number elapsed request asked => ⟨fun outcome done undisturbed => ?_, ?_⟩,
    fun never => (calm.play turns never).2.2⟩
  · unfold outcome? at done
    cases stands : state.calls[number]? with
    | none =>
        rw [stands] at done
        cases done
    | some call =>
        rw [stands] at done
        obtain ⟨response, due, expects⟩ := tracks.expects number call stands
        rw [List.getElem?_map, asked] at due
        cases due
        cases call with
        | done result =>
            cases done
            exact expects (by simpa using undisturbed)
        | step operation next => cases done
  · have bound : number < state.calls.length := by
      rw [length_calls, start, List.length_map]
      exact (List.getElem?_eq_some_iff.mp asked).1
    exact tracks.finishes (List.getElem?_eq_getElem bound)

end

end Interleaving

/-! ### No room for two -/

open scoped Gzip

namespace Service

/-- A tree in which tables with one document are stored for two commits. -/
def pageTree : Files :=
  let other : Target := ⟨"r", "1111111111111111111111111111111111111111"⟩
  (documentTree.write (dumpFile "dumps" other .blob) (.tables documentTables)).2

/-- A service that keeps only one of them open. -/
def pageService : Service :=
  .start "dumps" ⟨false, false, true⟩ ⟨1000, 1000, 0, 1000⟩ pageTree (.available .empty)
    Converter.builtin

/-- An inquiry whether the document is stored for a commit. -/
def pageInquiry (commit : String) : Request :=
  { smallUpload with
    path := "/exists"
    query := "repository=r&commit=" ++ commit ++ "&file=p"
    body := ⟨[], none⟩ }

/-- An inquiry for each commit. -/
def pageInquiries : List (Binary64 × Request) :=
  [(.ofNat 0, pageInquiry "0000000000000000000000000000000000000000"),
    (.ofNat 0, pageInquiry "1111111111111111111111111111111111111111")]

theorem pageInquiries_lookups : ∀ call ∈ pageInquiries, call.2.method = "POST" ∧
    IsLookup call.2 := by
  intro call listed
  simp only [pageInquiries, List.mem_cons, List.not_mem_nil, or_false] at listed
  rcases listed with rfl | rfl <;> exact ⟨rfl, .presence, rfl, rfl⟩

end Service

namespace Interleaving

open Service (pageService pageTree pageInquiry pageInquiries pageInquiries_lookups)

/-- One after the other, neither is disturbed. -/
theorem undisturbed_alone_pages :
    let turns := List.replicate 6 (Turn.call 0 0) ++ List.replicate 6 (.call 1 0) ++ [.disposal 0]
    let state := (start pageService pageInquiries).play turns
    state.disturbed = [] ∧ state.outcome? 1 = some (.ok (.json .ok (.bool true))) ∧
      (Service.respond (.ofNat 0) (pageInquiry "1111111111111111111111111111111111111111")
        pageService).1 = .json .ok (.bool true) := by
  intro turns state
  have ⟨calm, done⟩ : state.disturbed = [] ∧
      state.outcome? 1 = some (.ok (.json .ok (.bool true))) := by
    decide +kernel
  have alone := (undisturbed_alone "dumps" ⟨false, false, true⟩ ⟨1000, 1000, 0, 1000⟩ pageTree
    (.available .empty) Converter.builtin .paged pageInquiries_lookups turns).1 1 _ _ rfl
  have same := alone.1 _ done fun listed => List.not_mem_nil (calm ▸ listed)
  exact ⟨calm, done, (Except.ok.inj same).symm⟩

/-- A look-up may find the database closed that it has just opened, since another one has pushed it
out. -/
theorem look_ups_may_disturb :
    ¬ ∀ (root : String) (flags : EncodingFlags) (limits : Limits) (files : Files)
      (index : IndexState) (converter : Converter) (sizes : Sizes)
      (requests : List (Binary64 × Request)) (turns : List Turn) (number : Nat)
      (elapsed : Binary64) (request : Request) (outcome : Except Failure Response),
      (∀ call ∈ requests, call.2.method = "POST" ∧ Service.IsLookup call.2) →
      requests[number]? = some (elapsed, request) →
      ((start (.start root flags limits files index converter sizes) requests).play
        turns).outcome? number = some outcome →
      outcome = .ok (Service.respond elapsed request
        (.start root flags limits files index converter sizes)).1 := by
  intro claim
  have closed : ((start pageService pageInquiries).play
      (List.replicate 5 (.call 0 0) ++ List.replicate 4 (.call 1 0) ++
        [.disposal 0, .call 0 0])).outcome? 0 =
      some (.ok (Rejection.failure .tablesClosed).response) := by
    decide +kernel
  have alone : (Service.respond (.ofNat 0)
      (pageInquiry "0000000000000000000000000000000000000000") pageService).1 =
      .json .ok (.bool true) := by
    decide +kernel
  have same := claim "dumps" ⟨false, false, true⟩ ⟨1000, 1000, 0, 1000⟩ pageTree
    (.available .empty) Converter.builtin .paged pageInquiries _ 0 _ _ _ pageInquiries_lookups rfl
    closed
  have refused := (Except.ok.inj same).trans alone
  revert refused
  decide +kernel

end Interleaving

end CodeNav
