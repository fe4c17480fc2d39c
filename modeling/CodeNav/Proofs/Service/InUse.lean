/-
Module: CodeNav.Proofs.Service.InUse
Purpose: A file is in use when an enforcement of the quota deletes it only if some look-up held it
  at its eviction or has had a turn since.
Main exports:
  Enforcement.Evicts, Enforcement.Deletes, Enforcement.servesAny, Enforcement.inUse_split,
  Enforcement.nothing_left
-/
import CodeNav.Proofs.Service.Enforcement
import CodeNav.Proofs.Service.Trimming
import Mathlib.Data.List.Induction

namespace CodeNav

open Http (Request)
open Quota (StoredFile Sweep)

/-! ### Files on their way out -/

namespace Quota.Sweep

/-- The file whose database has left the cache and that is to be deleted next. -/
def Stage.pending? : Stage → Option StoredFile
  | .closing file _ | .evicted file | .invalidated file => some file
  | .begun | .choosing | .returned => none

/-- The next step chooses a file and takes the database of its target out of the cache. -/
def Evicts (sweep : Sweep) (file : StoredFile) : Prop :=
  sweep.stage = .choosing ∧ sweep.left.head? = some file ∧ sweep.most < sweep.total

variable {sweep : Sweep} {s : Service} {file : StoredFile}

/-- What is on its way out was so before, or is evicted in this very step. -/
theorem step_pending (pending : (sweep.step s).1.stage.pending? = some file) :
    sweep.stage.pending? = some file ∨
      sweep.Evicts file ∧ ∃ left, sweep.step s = evict { sweep with left } file s := by
  have stepped := sweep.step_stepped s
  generalize sweep.step s = after at stepped pending ⊢
  cases stepped with
  | listed _ => cases pending
  | finished _ => cases pending
  | @chosen other left choosing next many =>
      obtain rfl : other = file := by
        unfold evict at pending
        generalize s.databases.entries.remove other.key = removed at pending
        obtain ⟨found, entries⟩ := removed
        cases found <;> exact Option.some.inj pending
      refine .inr ⟨⟨choosing, ?_, many⟩, left, rfl⟩
      rw [next]
      rfl
  | waits _ => exact .inl pending
  | closed closing =>
      rw [closing]
      exact .inl pending
  | forgets evicted =>
      rw [evicted]
      exact .inl pending
  | deletes _ => cases pending
  | keeps _ => cases pending
  | rests returned =>
      rw [returned] at pending
      cases pending

/-- The files that are left to look at stand under the keys of their targets. -/
def Named (sweep : Sweep) (root : String) : Prop :=
  ∀ file ∈ sweep.left, ∃ kind : Encoding, file.path = kind.path (Files.join root file.key)

theorem step_named (named : sweep.Named s.root) : (sweep.step s).1.Named s.root := by
  have stepped := sweep.step_stepped s
  generalize sweep.step s = after at stepped ⊢
  cases stepped with
  | listed _ =>
      intro file listed
      have stored := mem_storedFiles_iff.mp ((byAccess_perm _).mem_iff.mp listed)
      obtain ⟨kind, path⟩ := stored.named
      exact ⟨kind, path.trans (Service.path_join kind s.root file.key).symm⟩
  | chosen _ next _ =>
      intro file listed
      rw [(evict_frame _ _ s).1] at listed
      exact named file (next ▸ List.mem_cons_of_mem _ listed)
  | finished _ => exact named
  | waits _ => exact named
  | closed _ => exact named
  | forgets _ => exact named
  | deletes _ => exact named
  | keeps _ => exact named
  | rests _ => exact named

end Quota.Sweep

namespace Service

variable {s : Service} {asked : List (Nat × Target)} {gone : String → Prop}

/-- The disposal of a load changes neither the caches nor what loads have read. -/
theorem dispose_frame (s : Service) (load : Nat) :
    (s.dispose load).2.databases.entries = s.databases.entries ∧
      (s.dispose load).2.documents = s.documents ∧
      ∀ file number, (s.dispose load).2.hasRead file number = s.hasRead file number := by
  unfold dispose
  split
  · rename_i turns outcome found
    refine ⟨rfl, rfl, fun file number => ?_⟩
    unfold hasRead
    by_cases same : load = number
    · subst same
      rw [Array.getElem?_setIfInBounds_self_of_lt (Registered.lt_size found), found]
      cases outcome <;> rfl
    · rw [Array.getElem?_setIfInBounds_ne same]
  · exact ⟨rfl, rfl, fun _ _ => rfl⟩

/-- Behind the eviction of a file's target no load in the cache has read the file. -/
theorem Clear.unread_of_evict (clear : s.Clear asked gone) (sweep : Sweep) {file : StoredFile}
    {kind : Encoding} (named : file.path = kind.path (Files.join s.root file.key)) :
    ∀ e ∈ (sweep.evict file s).2.databases.entries.entries,
      (sweep.evict file s).2.hasRead file.path e.value = false := by
  have left : (sweep.evict file s).2.databases.entries.entries =
      (s.databases.entries.remove file.key).2.entries := by
    unfold Quota.Sweep.evict
    cases known : s.databases.entries.find? file.key with
    | none =>
        simp only [WeightedCache.remove, known]
    | some e =>
        simp only [WeightedCache.remove, known]
  intro e listed
  rw [left] at listed
  obtain ⟨stays, differ⟩ := WeightedCache.mem_remove.mp listed
  obtain ⟨_, load, found, fine⟩ := clear.entries e stays
  unfold hasRead
  rw [(Quota.Sweep.evict_frame _ _ s).2.2.1, found]
  obtain ⟨turns, outcome⟩ := load
  cases outcome with
  | error failure => rfl
  | ok database =>
      refine beq_eq_false_iff_ne.mpr fun same => differ ?_
      obtain ⟨⟨other, path⟩, _⟩ := fine database rfl
      exact path_join_inj (path.symm.trans (same.trans named))

end Service

/-! ### Turns of look-ups -/

namespace Enforcement

/-- A turn does something for a look-up: a call that is not done has its step, or a load that is
under way reads. -/
def serves (state : Enforcement) : Turn → Bool
  | .lookUp (.call number _) => state.lookUps.calls[number]?.any fun call => !call.isDone
  | .load position => state.asked[position]?.any fun (number, _) =>
    state.service.databases.loads[number]?.any fun load => load.turns != 0
  | .lookUp (.disposal _) | .sweep => false

/-- Some turn in a row does something for a look-up. -/
def servesAny (state : Enforcement) : List Turn → Bool
  | [] => false
  | turn :: rest => state.serves turn || (state.turn turn).servesAny rest

/-- The next step of the enforcement takes the database of a file's target out of the cache. -/
def Evicts (state : Enforcement) (file : StoredFile) : Prop :=
  state.sweep.Evicts file

/-- The next step of the enforcement deletes a file. -/
def Deletes (state : Enforcement) (file : StoredFile) : Prop :=
  state.sweep.stage = .invalidated file

variable {state earlier : Enforcement} {turn : Turn} {turns : List Turn} {file : StoredFile}

theorem play_append (state : Enforcement) (turns others : List Turn) :
    state.play (turns ++ others) = (state.play turns).play others :=
  List.foldl_append

theorem servesAny_append (state : Enforcement) (turns : List Turn) (turn : Turn) :
    state.servesAny (turns ++ [turn]) =
      (state.servesAny turns || (state.play turns).serves turn) := by
  induction turns generalizing state with
  | nil => exact Bool.or_false _
  | cons first rest ih =>
      change (_ || (state.turn first).servesAny (rest ++ [turn])) = _
      rw [ih, ← Bool.or_assoc]
      rfl

/-- Other turns change nothing but by disposals and by the enforcement. -/
theorem turn_of_serves (quiet : state.serves turn = false) : state.turn turn = state ∨
    (∃ position, turn = .lookUp (.disposal position)) ∨ turn = .sweep := by
  cases turn with
  | lookUp turn =>
      cases turn with
      | disposal position => exact .inr (.inl ⟨position, rfl⟩)
      | call number patience =>
          cases stands : state.lookUps.calls[number]? with
          | none => exact .inl (turn_call_absent stands)
          | some call =>
              dsimp only [serves] at quiet
              rw [stands] at quiet
              cases call with
              | step operation next => cases quiet
              | done outcome =>
                  have same : state.lookUps.calls.set number (.done outcome) =
                      state.lookUps.calls := by
                    obtain ⟨bound, found⟩ := List.getElem?_eq_some_iff.mp stands
                    rw [← found, List.set_getElem_self bound]
                  refine .inl ?_
                  rw [turn_call stands, Interleaving.turn_call stands]
                  simp [Steps.advance, Steps.handed, Steps.asks, Steps.meetsClosed, same]
  | load position =>
      cases listed : state.asked[position]? with
      | none => exact .inl (turn_load_absent listed)
      | some started =>
          obtain ⟨number, target⟩ := started
          have idle : Service.reload number target state.service = state.service := by
            dsimp only [serves] at quiet
            rw [listed] at quiet
            unfold Service.reload
            split
            · rename_i turns outcome found
              simp [found] at quiet
            · rfl
          refine .inl ?_
          rw [turn_load listed, idle]
          rfl
  | sweep => exact .inr (.inr rfl)

/-! ### Between eviction and deletion -/

/-- Behind the eviction of a file nothing in memory was read from it, save what look-ups held
then. -/
structure Idle (earlier state : Enforcement) (file : String) : Prop where
  entries : ∀ e ∈ state.service.databases.entries.entries,
    state.service.hasRead file e.value = false
  documents : ∀ stored, state.sweep.stage = .invalidated stored →
    ∀ entry ∈ state.service.documents.entries, Service.isFrom file entry.key = false
  holds : state.holds file = true → earlier.holds file = true

namespace Idle

variable {path : String}

/-- What neither look-ups nor loads do leaves a file as unread as it was. -/
theorem move (idle : Idle earlier state path) (other : Enforcement)
    (calls : other.lookUps.calls = state.lookUps.calls) (hands : other.hands = state.hands)
    (entries : other.service.databases.entries = state.service.databases.entries)
    (read : ∀ number, other.service.hasRead path number = state.service.hasRead path number)
    (documents : ∀ stored, other.sweep.stage = .invalidated stored →
      ∀ entry ∈ other.service.documents.entries, Service.isFrom path entry.key = false) :
    Idle earlier other path where
  entries e listed := (read e.value).trans (idle.entries e (entries ▸ listed))
  documents := documents
  holds held := by
    refine idle.holds ?_
    unfold Enforcement.holds at held ⊢
    simpa only [calls, hands, read] using held

theorem disposed (idle : Idle earlier state path) (position : Nat) :
    Idle earlier (state.turn (.lookUp (.disposal position))) path := by
  change Idle earlier { state with lookUps := state.lookUps.turn (.disposal position) } path
  cases stands : state.lookUps.pushedOut[position]? with
  | none => rwa [Interleaving.turn_disposal_absent stands]
  | some load =>
      rw [Interleaving.turn_disposal stands]
      obtain ⟨entries, documents, read⟩ := Service.dispose_frame state.service load
      exact idle.move _ rfl rfl entries (read path) fun stored stage entry listed =>
        idle.documents stored stage entry (documents ▸ listed)

/-- What the enforcement does until it deletes the file: it waits for the load, and forgets the
documents of the file. -/
theorem swept (idle : Idle earlier state file.path)
    (pending : state.sweep.stage.pending? = some file)
    (still : (state.turn .sweep).sweep.stage.pending? = some file) :
    Idle earlier (state.turn .sweep) file.path := by
  have stepped := state.sweep.step_stepped state.service
  change (state.sweep.step state.service).1.stage.pending? = some file at still
  unfold Enforcement.turn
  dsimp only
  generalize state.found = inUse
  generalize state.sweep.step state.service = after at stepped still ⊢
  cases stepped with
  | listed begun =>
      rw [begun] at pending
      cases pending
  | finished _ => cases still
  | chosen choosing _ _ =>
      rw [choosing] at pending
      cases pending
  | @waits _ load closing =>
      obtain ⟨entries, documents, read⟩ := Service.dispose_frame state.service load
      refine idle.move _ rfl rfl entries (read _) fun stored stage => ?_
      cases closing.symm.trans stage
  | @closed _ load closing =>
      obtain ⟨entries, documents, read⟩ := Service.dispose_frame state.service load
      refine idle.move _ rfl rfl entries (read _) fun stored stage => ?_
      cases stage
  | @forgets other evicted =>
      obtain rfl : other = file := Option.some.inj still
      exact idle.move _ rfl rfl rfl (fun _ => rfl) fun _ _ entry listed =>
        (WeightedCache.mem_removeWhere.mp listed).2
  | deletes _ => cases still
  | keeps _ => cases still
  | rests returned =>
      rw [returned] at pending
      cases pending

theorem step (idle : Idle earlier state file.path)
    (pending : state.sweep.stage.pending? = some file)
    (still : (state.turn turn).sweep.stage.pending? = some file)
    (quiet : state.serves turn = false) : Idle earlier (state.turn turn) file.path := by
  rcases turn_of_serves quiet with same | ⟨position, rfl⟩ | rfl
  · rwa [same]
  · exact idle.disposed position
  · exact idle.swept pending still

/-- Nothing uses such a file when it is to be deleted, save the look-ups that held it. -/
theorem held (idle : Idle earlier state file.path) (deletes : state.Deletes file)
    (used : state.uses file.path = true) : earlier.holds file.path = true := by
  unfold uses at used
  rcases Bool.or_eq_true_iff.mp used with memory | holds
  · rcases Bool.or_eq_true_iff.mp memory with entries | documents
    · obtain ⟨e, listed, read⟩ := List.any_eq_true.mp entries
      rw [idle.entries e listed] at read
      cases read
    · obtain ⟨entry, listed, decoded⟩ := List.any_eq_true.mp documents
      rw [idle.documents file deletes entry listed] at decoded
      cases decoded
  · exact idle.holds holds

end Idle

/-! ### All turns -/

/-- Only the enforcement's own turns change how far it has come. -/
theorem turn_frame (others : turn ≠ .sweep) :
    (state.turn turn).sweep = state.sweep ∧ (state.turn turn).inUse = state.inUse := by
  cases turn with
  | lookUp turn =>
      cases turn with
      | disposal position => exact ⟨rfl, rfl⟩
      | call number patience =>
          cases stands : state.lookUps.calls[number]? with
          | none =>
              rw [turn_call_absent stands]
              exact ⟨rfl, rfl⟩
          | some call =>
              rw [turn_call stands]
              exact ⟨rfl, rfl⟩
  | load position =>
      cases listed : state.asked[position]? with
      | none =>
          rw [turn_load_absent listed]
          exact ⟨rfl, rfl⟩
      | some started =>
          rw [turn_load listed]
          exact ⟨rfl, rfl⟩
  | sweep => exact absurd rfl others

theorem named_start [Gzip.Compressor] {s : Service} {requests : List (Binary64 × Request)}
    {most : Nat} : (start s requests most).sweep.Named s.root := by
  intro file listed
  cases listed

theorem Tracks.named (tracks : Tracks state) (named : state.sweep.Named state.service.root)
    (turns : List Turn) :
    (state.play turns).sweep.Named (state.play turns).service.root := by
  induction turns generalizing state with
  | nil => exact named
  | cons turn rest ih =>
      refine ih (tracks.turn turn) ?_
      rw [(tracks.passes turn).root]
      by_cases sweeps : turn = .sweep
      · subst sweeps
        exact Quota.Sweep.step_named named
      · rwa [(turn_frame sweeps).1]

/-- Its eviction leaves a file idle. -/
theorem Tracks.idle (tracks : Tracks state) (named : state.sweep.Named state.service.root)
    (evicts : state.Evicts file) {left : List StoredFile}
    (stepped : state.sweep.step state.service =
      Sweep.evict { state.sweep with left } file state.service) :
    Idle state (state.turn .sweep) file.path := by
  obtain ⟨kind, path⟩ := named file (List.mem_of_mem_head? evicts.2.1)
  have unread := tracks.clear.unread_of_evict { state.sweep with left } path
  obtain ⟨_, _, loads, _⟩ := Quota.Sweep.evict_frame { state.sweep with left } file state.service
  rw [← stepped] at unread loads
  have read (number : Nat) : (state.turn .sweep).service.hasRead file.path number =
      state.service.hasRead file.path number := by
    unfold Service.hasRead
    exact loads ▸ rfl
  refine ⟨unread, fun stored stage => ?_, fun held => ?_⟩
  · change (state.sweep.step state.service).1.stage = _ at stage
    rw [stepped] at stage
    unfold Sweep.evict at stage
    generalize state.service.databases.entries.remove file.key = removed at stage
    obtain ⟨found, entries⟩ := removed
    cases found <;> cases stage
  · unfold holds at held
    simp only [read] at held
    exact held

/-- Without look-ups nothing is ever served or held. -/
theorem alone {state : Enforcement} (calls : state.lookUps.calls = []) (asked : state.asked = [])
    (turns : List Turn) :
    state.servesAny turns = false ∧ (state.play turns).lookUps.calls = [] ∧
      (state.play turns).asked = [] := by
  induction turns generalizing state with
  | nil => exact ⟨rfl, calls, asked⟩
  | cons turn rest ih =>
      have quiet : state.serves turn = false := by
        cases turn with
        | lookUp turn =>
            cases turn with
            | call number patience => simp [serves, calls]
            | disposal position => rfl
        | load position => simp [serves, asked]
        | sweep => rfl
      have still : (state.turn turn).lookUps.calls = [] ∧ (state.turn turn).asked = [] := by
        rcases turn_of_serves quiet with same | ⟨position, rfl⟩ | rfl
        · rw [same]
          exact ⟨calls, asked⟩
        · refine ⟨?_, asked⟩
          change (state.lookUps.turn (.disposal position)).calls = []
          cases stands : state.lookUps.pushedOut[position]? with
          | none => rwa [Interleaving.turn_disposal_absent stands]
          | some load => rwa [Interleaving.turn_disposal stands]
        · exact ⟨calls, asked⟩
      obtain ⟨served, rest⟩ := ih still.1 still.2
      exact ⟨Bool.or_eq_false_iff.mpr ⟨quiet, served⟩, rest⟩

variable [Gzip.Compressor]

/-- A file is on its way out from its eviction on, and idle from then on unless a look-up has a
turn. -/
theorem pending_split {s : Service} (filed : s.Filed) (requests : List (Binary64 × Request))
    (most : Nat) (turns : List Turn) :
    let first := start s requests most
    ∀ file, (first.play turns).sweep.stage.pending? = some file →
      ∃ before between, turns = before ++ .sweep :: between ∧ (first.play before).Evicts file ∧
        (((first.play before).turn .sweep).servesAny between = false →
          Idle (first.play before) (first.play turns) file.path) := by
  intro first
  induction turns using List.reverseRecOn with
  | nil =>
      intro file pending
      cases pending
  | append_singleton turns turn ih =>
      intro file pending
      rw [play_append] at pending ⊢
      have goesOn (before_ : (first.play turns).sweep.stage.pending? = some file) :
          ∃ before between, turns ++ [turn] = before ++ .sweep :: between ∧
            (first.play before).Evicts file ∧
            (((first.play before).turn .sweep).servesAny between = false →
              Idle (first.play before) ((first.play turns).turn turn) file.path) := by
        obtain ⟨before, between, split, evicts, idle⟩ := ih file before_
        refine ⟨before, between ++ [turn], by simp [split], evicts, fun quiet => ?_⟩
        rw [servesAny_append, Bool.or_eq_false_iff] at quiet
        refine (idle quiet.1).step before_ pending ?_
        have here : first.play turns = ((first.play before).turn .sweep).play between := by
          rw [split, play_append]
          rfl
        exact here ▸ quiet.2
      by_cases sweeps : turn = .sweep
      · subst sweeps
        rcases Quota.Sweep.step_pending pending with before | ⟨evicts, left, stepped⟩
        · exact goesOn before
        · refine ⟨turns, [], rfl, evicts, fun _ => ?_⟩
          have tracks := (tracks_start filed requests most).play turns
          exact tracks.idle ((tracks_start filed requests most).named named_start turns) evicts
            stepped
      · exact goesOn ((turn_frame sweeps).1 ▸ pending)

/-- A file is in use when it is deleted only if some look-up held it at its eviction, or had a turn
between the two. -/
theorem inUse_split {s : Service} (filed : s.Filed) (requests : List (Binary64 × Request))
    (most : Nat) (turns : List Turn) :
    let first := start s requests most
    ∀ path ∈ (first.play turns).inUse, ∃ before between after file,
      turns = before ++ .sweep :: between ++ .sweep :: after ∧ file.path = path ∧
        (first.play before).Evicts file ∧
        (first.play (before ++ .sweep :: between)).Deletes file ∧
        ((first.play before).holds path = true ∨
          ((first.play before).turn .sweep).servesAny between = true) := by
  intro first
  induction turns using List.reverseRecOn with
  | nil =>
      intro path used
      cases used
  | append_singleton turns turn ih =>
      intro path used
      rw [play_append] at used
      have earlier (used : path ∈ (first.play turns).inUse) : ∃ before between after file,
          turns ++ [turn] = before ++ .sweep :: between ++ .sweep :: after ∧ file.path = path ∧
            (first.play before).Evicts file ∧
            (first.play (before ++ .sweep :: between)).Deletes file ∧
            ((first.play before).holds path = true ∨
              ((first.play before).turn .sweep).servesAny between = true) := by
        obtain ⟨before, between, after, file, split, rest⟩ := ih path used
        exact ⟨before, between, after ++ [turn], file, by simp [split], rest⟩
      by_cases sweeps : turn = .sweep
      · subst sweeps
        rcases mem_found_iff.mp used with before | ⟨file, deletes, rfl, uses⟩
        · exact earlier before
        · have pending : (first.play turns).sweep.stage.pending? = some file := by
            rw [deletes]
            rfl
          obtain ⟨before, between, split, evicts, idle⟩ :=
            pending_split filed requests most turns file pending
          refine ⟨before, between, [], file, by rw [split], rfl, evicts, split ▸ deletes, ?_⟩
          cases served : ((first.play before).turn .sweep).servesAny between with
          | true => exact .inr rfl
          | false => exact .inl ((idle served).held deletes uses)
      · exact earlier ((turn_frame sweeps).2 ▸ used)

theorem inUse_alone {s : Service} (filed : s.Filed) (most : Nat) (turns : List Turn) :
    ((start s [] most).play turns).inUse = [] := by
  refine List.eq_nil_iff_forall_not_mem.mpr fun path used => ?_
  obtain ⟨before, between, _, _, _, _, _, _, held | served⟩ :=
    inUse_split filed [] most turns path used
  · obtain ⟨_, calls, _⟩ := @alone (start s [] most) rfl rfl before
    simp [holds, calls] at held
  · obtain ⟨_, calls, asked⟩ := @alone (start s [] most) rfl rfl (before ++ [.sweep])
    rw [play_append] at calls asked
    cases served.symm.trans (alone calls asked between).1

/-- Whatever look-ups take turns with an enforcement, nothing in memory was read from a file that it
has deleted, unless the file was in use when it was about to be deleted. For a file to be in use
then, some look-up held it at its eviction or had a turn between its eviction and its deletion;
without look-ups no file is. The enforcement gets done if it gets enough turns. -/
theorem nothing_left {s : Service} (filed : s.Filed) (requests : List (Binary64 × Request))
    (most : Nat) (turns : List Turn) :
    let first := start s requests most
    let state := first.play turns
    (∀ file ∈ state.sweep.deleted, file ∉ state.inUse → state.service.FreeOf file) ∧
      (∀ path ∈ state.inUse, ∃ before between after file,
        turns = before ++ .sweep :: between ++ .sweep :: after ∧ file.path = path ∧
          (first.play before).Evicts file ∧
          (first.play (before ++ .sweep :: between)).Deletes file ∧
          ((first.play before).holds path = true ∨
            ((first.play before).turn .sweep).servesAny between = true)) ∧
      (requests = [] → state.inUse = []) ∧
      ∃ count, (state.play (List.replicate count .sweep)).sweep.stage = .returned := by
  intro first state
  have tracks := (tracks_start filed requests most).play turns
  refine ⟨fun file deleted unused => tracks.freeOf ⟨deleted, unused⟩,
    inUse_split filed requests most turns, ?_, ?_⟩
  · rintro rfl
    exact inUse_alone filed most turns
  · obtain ⟨count, done⟩ := Quota.Sweep.ends state.sweep state.service
    exact ⟨count, (congrArg Sweep.stage (play_sweeps state count)).trans done⟩

end Enforcement

/-! ### A question in between -/

open scoped Gzip

namespace Service

/-- A question about the start of the stored document. -/
def hoverRequest : Request :=
  { smallUpload with
    path := "/request"
    headers := [("content-type", "application/json")]
    body := ⟨[Utf8.encode ("\x7b\"path\":\"p\",\"position\":\x7b\"line\":0,\"character\":0\x7d," ++
      "\"method\":\"hover\"\x7d")], none⟩ }

theorem upToDate_documentService : documentService.UpToDate :=
  .atStart ..

end Service

namespace Enforcement

open Service (documentService upToDate_documentService hoverRequest dumpFile smallTarget)

/-- The question asked once. -/
def hovering : List (Binary64 × Request) :=
  [(.ofNat 0, hoverRequest)]

/-- If the question is answered before the enforcement looks at anything, nothing is left. -/
theorem nothing_left_answered :
    let turns : List Turn :=
      List.replicate 8 (.lookUp (.call 0 0)) ++ List.replicate 6 .sweep
    let state := (start documentService hovering 0).play turns
    state.sweep.stage = .returned ∧ state.sweep.deleted = [dumpFile "dumps" smallTarget .blob] ∧
      (state.lookUps.outcome? 0).isSome ∧
      state.service.FreeOf (dumpFile "dumps" smallTarget .blob) := by
  intro turns state
  have ⟨returned, deleted, unused, answered⟩ : state.sweep.stage = .returned ∧
      state.sweep.deleted = [dumpFile "dumps" smallTarget .blob] ∧ state.inUse = [] ∧
      (state.lookUps.outcome? 0).isSome := by
    decide +kernel
  have free := (nothing_left upToDate_documentService.filed hovering 0 turns).1
    (dumpFile "dumps" smallTarget .blob)
  refine ⟨returned, deleted, answered, free ?_ fun listed => ?_⟩
  · exact deleted ▸ List.mem_singleton_self _
  · exact List.not_mem_nil (unused ▸ listed)

/-- If it is asked behind the eviction and answered before the file goes away, the database stays in
memory. -/
theorem deleted_may_stay :
    ¬ ∀ (s : Service) (requests : List (Binary64 × Request)) (most : Nat) (turns : List Turn),
      s.UpToDate → ((start s requests most).play turns).sweep.stage = .returned →
        ∀ file ∈ ((start s requests most).play turns).sweep.deleted,
          ((start s requests most).play turns).service.FreeOf file := by
  intro claim
  let turns : List Turn :=
    List.replicate 3 .sweep ++ List.replicate 8 (.lookUp (.call 0 0)) ++ [.sweep, .sweep]
  have ⟨returned, deleted, stays⟩ :
      ((start documentService hovering 0).play turns).sweep.stage = .returned ∧
      dumpFile "dumps" smallTarget .blob ∈
        ((start documentService hovering 0).play turns).sweep.deleted ∧
      ((start documentService hovering 0).play turns).service.databases.entries.entries.any fun e =>
        ((start documentService hovering 0).play turns).service.hasRead
          (dumpFile "dumps" smallTarget .blob) e.value := by
    decide +kernel
  have free := claim documentService hovering 0 turns upToDate_documentService returned _ deleted
  obtain ⟨e, listed, read⟩ := List.any_eq_true.mp stays
  rw [free.1 e listed] at read
  cases read

end Enforcement

end CodeNav
