/-
Module: CodeNav.Proofs.Service.Accepting
Purpose: Uploads from their announcement to the discarding of what was received.
Main exports:
  Upload.ReachesMoves, Upload.Accepted, Upload.accept_run, Upload.uploadMoves
-/
import CodeNav.Proofs.Service.Placing

namespace CodeNav.Upload

open Stateful
open Http (Stream)
open Service (temporaryFile)

/-! ### Whole uploads -/

/-- The temporary file in which the next upload is received. -/
def stagedFile (s : Service) : String :=
  temporaryFile s.root s.temporaries .json

/-- An upload gets as far as its first move: it is received, checked and converted. -/
structure ReachesMoves (announced : Option Nat) (body : Stream) (s : Service) (size : Nat)
    (dump : Dump) (converted : List (Encoding × String)) (ready : Service) : Prop where
  within : ∀ announcedSize ∈ announced, announcedSize ≤ s.limits.maxUploadBytes
  run : ∃ received,
    receive body (stagedFile s) s.limits.maxUploadBytes
        { s with temporaries := s.temporaries + 1 } = (.ok size, received) ∧
    prepare (stagedFile s) received = (.ok (dump, converted), ready)

/-- What accepting an upload comes to: it is turned down without a trace before its first move, or
what committing it comes to, less the file received. -/
inductive Accepted (target : Target) (announced : Option Nat) (body : Stream) (s : Service) :
    Except Rejection Nat × Service → Prop where
  | turnedDown (rejection : Rejection) (files : Files) (temporaries : Nat)
      (besides : Files.Besides [] s.files files) (later : s.temporaries ≤ temporaries)
      (never : ∀ size dump converted ready,
        ¬ ReachesMoves announced body s size dump converted ready) :
      Accepted target announced body s
        (.error rejection, { s with files, temporaries })
  | committed (size : Nat) (dump : Dump) (converted : List (Encoding × String))
      (ready after : Service) (outcome : Except Failure Unit)
      (reaches : ReachesMoves announced body s size dump converted ready)
      (run : commit target (stagedFile s) dump converted ready = (outcome, after)) :
      Accepted target announced body s
        ((outcome.map fun _ => size).mapError .failure,
          { after with files := after.files.eraseAll [stagedFile s] })

/-- No conversion takes the place of the file received. -/
theorem stagedFile_not_output (s : Service) :
    stagedFile s ∉ (allOutputs { s with temporaries := s.temporaries + 1 }).map (·.2) :=
  temporaryFile_not_output (.inl (Nat.lt_succ_self _))

section

variable {s : Service} (sound : s.Sound)
include sound

theorem stagedFile_absent : s.files.find? (stagedFile s) = none :=
  sound.fresh s.temporaries .json (Nat.le_refl _)

/-- An upload that was received and prepared is ready, or leaves no more than the file received. -/
theorem receive_prepare (body : Stream) {size : Nat} {received : Service}
    (run : receive body (stagedFile s) s.limits.maxUploadBytes
      { s with temporaries := s.temporaries + 1 } = (.ok size, received)) :
    size = body.portions.flatten.length ∧
      Prepared (stagedFile s) body.portions.flatten s.files
        { s with files := received.files, temporaries := s.temporaries + 1 }
        (prepare (stagedFile s) received) := by
  have absent := stagedFile_absent sound
  obtain ⟨files, after, _, complete⟩ :=
    receive_run { s with temporaries := s.temporaries + 1 } sound.timely absent body
      s.limits.maxUploadBytes
  rw [run] at after complete
  obtain ⟨length, arrived⟩ := complete size rfl
  cases after
  refine ⟨length, prepare_run sound.timely _ arrived sound.confined ?_⟩
  intro number kind later
  have differs : temporaryFile s.root number kind ≠ stagedFile s := by
    intro same
    have numbers := (Service.temporaryFile_inj same).1
    have later : s.temporaries + 1 ≤ number := later
    omega
  have others := arrived.besides.elsewhere differs
  exact others.trans (sound.fresh number kind (Nat.le_of_succ_le later))

/-- The state of a service once an upload is ready. -/
theorem ReachesMoves.ready {announced : Option Nat} {body : Stream} {size : Nat} {dump : Dump}
    {converted : List (Encoding × String)} {ready : Service}
    (reaches : ReachesMoves announced body s size dump converted ready) :
    ∃ files, size = body.portions.flatten.length ∧
      Dump.parse (some s.limits.maxUploadBytes) body.portions.flatten = .ok dump ∧
      converted = allOutputs { s with temporaries := s.temporaries + 1 } ∧
      ready = { s with files, temporaries := s.temporaries + 1 + converted.length } ∧
      Ready (stagedFile s) body.portions.flatten s.files
        { s with temporaries := s.temporaries + 1 } files := by
  obtain ⟨received, receiving, preparing⟩ := reaches.run
  obtain ⟨length, prepared⟩ := receive_prepare sound body receiving
  rw [preparing] at prepared
  cases prepared with
  | ok dump files parsed ready =>
      exact ⟨files, length, parsed, rfl, rfl, ready.besides, ready.conversions⟩

omit sound in
theorem commit_plain {target : Target} {staged path : String} {dump : Dump}
    {converted : List (Encoding × String)} {after : Service} {outcome : Except Failure Unit}
    (run : commit target staged dump converted s = (outcome, after))
    (plain : s.files.find? path ≠ some .directory) : after.files.find? path ≠ some .directory := by
  have committed := commit_run target staged dump converted s
  rw [run] at committed
  cases committed with
  | ok files index moved usable => exact moved.plain plain
  | unindexed failure files moved broken => exact moved.plain plain
  | stopped fault first rest next files split moved refused => exact moved.plain plain

/-- Behind the names that were given out for an upload, nothing stands. -/
theorem Ready.fresh {octets : List UInt8} {files : Files}
    (ready : Ready (stagedFile s) octets s.files { s with temporaries := s.temporaries + 1 } files)
    {number : Nat} {kind : Encoding}
    (later : s.temporaries + 1 +
      (allOutputs { s with temporaries := s.temporaries + 1 }).length ≤ number) :
    files.find? (temporaryFile s.root number kind) = none := by
  rw [ready.besides.others]
  · exact sound.fresh number kind (by omega)
  · rw [List.mem_cons, not_or]
    constructor
    · intro same
      have numbers := (Service.temporaryFile_inj same).1
      omega
    · rw [allOutputs, length_outputs] at later
      exact temporaryFile_not_output (.inr later)

/-- Without the file received, the tree is as before. -/
theorem without_staged {files : Files} (besides : Files.Besides [stagedFile s] s.files files) :
    Files.Besides [] s.files (files.eraseAll [stagedFile s]) := by
  refine Files.Besides.erased besides fun path listed _ => ?_
  rw [List.mem_singleton.mp listed]
  exact stagedFile_absent sound

/-- An upload for which no size that is too large was announced. -/
def acceptAllowed (target : Target) (body : Stream) : RequestM Nat := do
  let staged ← RequestM.ofService (temporaryPath Encoding.json.extension)
  let outcome ← RequestM.attempt (receiveAndStore target body staged)
  RequestM.ofService (discard [staged])
  match outcome with
  | .ok size => return size
  | .error rejection => throw rejection

omit sound in
theorem allowed_or_announced (announced : Option Nat) (limit : Nat) :
    (∀ size ∈ announced, size ≤ limit) ∨ ∃ size ∈ announced, limit < size := by
  cases announced with
  | none => exact .inl nofun
  | some size =>
      rcases Nat.lt_or_ge limit size with large | fits
      · exact .inr ⟨size, rfl, large⟩
      · exact .inl fun _ same => Option.some.inj same ▸ fits

omit sound in
theorem accept_allowed (target : Target) {announced : Option Nat} (body : Stream)
    (within : ∀ size ∈ announced, size ≤ s.limits.maxUploadBytes) :
    accept target announced body s = acceptAllowed target body s := by
  unfold accept
  rw [bind_ok (get_run s)]
  cases announced with
  | none => rfl
  | some size =>
      dsimp only
      rw [if_neg (Nat.not_lt.mpr (within size rfl))]
      rfl

omit sound in
theorem accept_tooLarge (target : Target) {announced : Option Nat} {size : Nat} (body : Stream)
    (states : size ∈ announced) (large : s.limits.maxUploadBytes < size) :
    accept target announced body s =
      (.error (.uploadTooLarge size s.limits.maxUploadBytes true), s) := by
  cases states
  unfold accept
  rw [bind_ok (get_run s)]
  dsimp only
  rw [if_pos large]
  rfl

omit sound in
theorem acceptAllowed_run {target : Target} {body : Stream} {outcome : Except Rejection Nat}
    {t : Service}
    (run : receiveAndStore target body (stagedFile s) { s with temporaries := s.temporaries + 1 } =
      (outcome, t))
    (plain : t.files.find? (stagedFile s) ≠ some .directory) :
    acceptAllowed target body s =
      (outcome, { t with files := t.files.eraseAll [stagedFile s] }) := by
  have named : RequestM.ofService (temporaryPath Encoding.json.extension) s =
      (.ok (stagedFile s), { s with temporaries := s.temporaries + 1 }) := rfl
  have stored : RequestM.attempt (receiveAndStore target body (stagedFile s))
      { s with temporaries := s.temporaries + 1 } = (.ok outcome, t) := by
    unfold RequestM.attempt
    rw [run]
  have discarded : RequestM.ofService (discard [stagedFile s]) t =
      (.ok ⟨⟩, { t with files := t.files.eraseAll [stagedFile s] }) := by
    unfold RequestM.ofService
    rw [discard_run t (by simpa using plain)]
    rfl
  unfold acceptAllowed
  rw [bind_ok named, bind_ok stored, bind_ok discarded]
  cases outcome <;> rfl

omit sound in
theorem receiveAndStore_stops {target : Target} {body : Stream} {rejection : Rejection}
    {t : Service} {staged : String}
    (receiving : receive body staged s.limits.maxUploadBytes s = (.error rejection, t)) :
    receiveAndStore target body staged s = (.error rejection, t) := by
  unfold receiveAndStore
  rw [bind_ok (get_run s)]
  exact bind_error receiving

omit sound in
theorem receiveAndStore_run {target : Target} {body : Stream} {size : Nat} {received t : Service}
    {outcome : Except Failure Unit} {staged : String}
    (receiving : receive body staged s.limits.maxUploadBytes s = (.ok size, received))
    (run : store target staged received = (outcome, t)) :
    receiveAndStore target body staged s =
      ((outcome.map fun _ => size).mapError .failure, t) := by
  have asked : RequestM.ofService (store target staged) received =
      (outcome.mapError .failure, t) := by
    unfold RequestM.ofService
    rw [run]
  unfold receiveAndStore
  rw [bind_ok (get_run s), bind_ok receiving]
  cases outcome with
  | error failure => exact bind_error asked
  | ok done => exact bind_ok asked

omit sound in
theorem receiveAndStore_fst {target : Target} {received : Service} {body : Stream}
    {staged : String} {size : Nat}
    (receiving : receive body staged s.limits.maxUploadBytes s = (.ok size, received)) :
    (receiveAndStore target body staged s).1 =
      ((store target staged received).1.map fun _ => size).mapError .failure := by
  generalize run : store target staged received = result
  obtain ⟨outcome, t⟩ := result
  rw [receiveAndStore_run receiving run]

/-- What accepting comes to if no size that is too large was announced. -/
theorem accepted_allowed (target : Target) {announced : Option Nat} (body : Stream)
    (within : ∀ size ∈ announced, size ≤ s.limits.maxUploadBytes) :
    Accepted target announced body s (acceptAllowed target body s) := by
  let named : Service := { s with temporaries := s.temporaries + 1 }
  have absent := stagedFile_absent sound
  obtain ⟨files, left, besides, _⟩ :=
    receive_run named sound.timely absent body s.limits.maxUploadBytes
  generalize receiving : receive body (stagedFile s) s.limits.maxUploadBytes named = result at left
  obtain ⟨received, r⟩ := result
  cases left
  cases received with
  | error rejection =>
      have stops : receiveAndStore target body (stagedFile s) named =
          (.error rejection, { named with files }) := receiveAndStore_stops receiving
      rw [acceptAllowed_run stops (besides.plain (.inl List.mem_cons_self))]
      refine .turnedDown rejection _ _ (without_staged sound besides) (Nat.le_succ _) ?_
      rintro _ _ _ _ ⟨_, r, again, _⟩
      rw [receiving] at again
      cases again
  | ok size =>
      obtain ⟨_, prepared⟩ := receive_prepare sound body receiving
      generalize preparing : prepare (stagedFile s) { named with files } = result at prepared
      cases prepared with
      | failed failure left number besides =>
          have stops := (receiveAndStore_run receiving (bind_error preparing) :
            receiveAndStore target body _ named = _)
          rw [acceptAllowed_run stops (besides.plain (.inl List.mem_cons_self))]
          refine .turnedDown (.failure failure) _ _ (without_staged sound besides) ?_ ?_
          · change s.temporaries ≤ s.temporaries + 1 + number
            omega
          · rintro _ _ _ _ ⟨_, r, again, prepares⟩
            rw [receiving] at again
            cases again
            rw [preparing] at prepares
            cases prepares
      | ok dump left parsed ready =>
          let outputs := allOutputs { named with files }
          let ready : Service := { named with
            files := left
            temporaries := named.temporaries + outputs.length }
          generalize committing : commit target (stagedFile s) dump outputs ready = result
          obtain ⟨outcome, after⟩ := result
          have reaches : ReachesMoves announced body s size dump outputs ready :=
            ⟨within, _, receiving, preparing⟩
          have stored := receiveAndStore_run receiving ((bind_ok preparing).trans committing)
          have plain : ready.files.find? (stagedFile s) ≠ some .directory := by
            obtain ⟨files, _, _, _, state, standing⟩ := reaches.ready sound
            rw [state]
            exact standing.besides.plain (.inl List.mem_cons_self)
          rw [acceptAllowed_run stored (commit_plain committing plain)]
          exact .committed size dump outputs ready after outcome reaches committing

theorem accept_run (target : Target) (announced : Option Nat) (body : Stream) :
    Accepted target announced body s (accept target announced body s) := by
  rcases allowed_or_announced announced s.limits.maxUploadBytes with
    within | ⟨size, states, large⟩
  · rw [accept_allowed target body within]
    exact accepted_allowed sound target body within
  · rw [accept_tooLarge target body states large]
    refine .turnedDown _ s.files s.temporaries (.refl s.files) (Nat.le_refl _) ?_
    intro _ _ _ _ reaches
    exact absurd (reaches.within size states) (Nat.not_le.mpr large)

end

/-! ### Which files are moved where -/

/-- What the next upload moves into place once it is ready. -/
def uploadMoves (s : Service) : List (Encoding × String) :=
  moves (stagedFile s) s.flags.enabled (allOutputs { s with temporaries := s.temporaries + 1 })

theorem nodup_outputs (root : String) (number : Nat) (kinds : List Encoding) :
    ((outputs root number kinds).map (·.2)).Nodup := by
  induction kinds generalizing number with
  | nil => exact List.nodup_nil
  | cons kind rest ih =>
      change (temporaryFile root number kind :: (outputs root (number + 1) rest).map (·.2)).Nodup
      rw [List.nodup_cons]
      exact ⟨temporaryFile_not_output (.inl (Nat.lt_succ_self _)), ih (number + 1)⟩

/-- Everything that is moved comes from a temporary file that was free before. -/
theorem mem_uploadMoves {s : Service} {p : Encoding × String} (listed : p ∈ uploadMoves s) :
    ∃ number, s.temporaries ≤ number ∧ p.2 = temporaryFile s.root number p.1 := by
  rcases List.mem_append.mp listed with converted | kept
  · obtain ⟨number, low, _, named⟩ := mem_outputs converted
    exact ⟨number, Nat.le_of_succ_le low, named⟩
  · split at kept
    · rw [List.mem_singleton] at kept
      subst kept
      exact ⟨s.temporaries, Nat.le_refl _, rfl⟩
    · cases kept

theorem nodup_uploadMoves_sources (s : Service) : ((uploadMoves s).map (·.2)).Nodup := by
  have converted := nodup_outputs s.root (s.temporaries + 1) (s.flags.enabled.filter (· ≠ .json))
  unfold uploadMoves moves
  rw [List.map_append]
  refine List.nodup_append.mpr ⟨converted, ?_, ?_⟩
  · split <;> simp
  · intro path listed other kept same
    subst same
    split at kept
    · rw [List.map_singleton, List.mem_singleton] at kept
      rw [kept] at listed
      exact stagedFile_not_output s listed
    · cases kept

theorem map_fst_uploadMoves (s : Service) :
    (uploadMoves s).map (·.1) = s.flags.enabled.filter (· ≠ .json) ++
      if s.flags.enabled.contains .json then [.json] else [] := by
  unfold uploadMoves moves allOutputs
  rw [List.map_append, map_fst_outputs]
  split <;> rfl

theorem nodup_uploadMoves_kinds (s : Service) : ((uploadMoves s).map (·.1)).Nodup := by
  rw [map_fst_uploadMoves]
  have all : ∀ json graph blob, let kinds := (EncodingFlags.mk json graph blob).enabled
      (kinds.filter (· ≠ Encoding.json) ++
        if kinds.contains Encoding.json then [Encoding.json] else []).Nodup := by
    decide
  exact all _ _ _

/-- If all other encodings have been converted to, every enabled one is moved, and no other one. -/
theorem mem_moves_kinds {staged : String} {kinds : List Encoding}
    {converted : List (Encoding × String)} {kind : Encoding}
    (all : converted.map (·.1) = kinds.filter (· ≠ .json)) :
    kind ∈ (moves staged kinds converted).map (·.1) ↔ kind ∈ kinds := by
  unfold moves
  rw [List.map_append, all]
  by_cases isJson : kind = .json
  · subst isJson
    split
    · rename_i kept
      simpa using kept
    · rename_i notKept
      simpa using notKept
  · split <;> simp [isJson]

/-- Every enabled encoding is moved into place, and no other one. -/
theorem mem_uploadMoves_kinds {s : Service} {kind : Encoding} :
    kind ∈ (uploadMoves s).map (·.1) ↔ kind ∈ s.flags.enabled :=
  mem_moves_kinds (map_fst_outputs _ _ _)

theorem uploadMoves_ne_nil {s : Service} (enabled : s.flags.enabled ≠ []) : uploadMoves s ≠ [] := by
  intro none
  obtain ⟨kind, listed⟩ := List.exists_mem_of_ne_nil _ enabled
  rw [← mem_uploadMoves_kinds, none] at listed
  cases listed

/-- No file of a target is moved from. -/
theorem uploadMoves_apart {s : Service} {target : Target} (flat : '/' ∉ target.commit.toList)
    (kind : Encoding) {p : Encoding × String} (listed : p ∈ uploadMoves s) :
    kind.path (s.basePath target) ≠ p.2 := by
  obtain ⟨number, _, named⟩ := mem_uploadMoves listed
  rw [named]
  exact Service.dumpFile_ne_temporary flat kind p.1 number

end CodeNav.Upload
