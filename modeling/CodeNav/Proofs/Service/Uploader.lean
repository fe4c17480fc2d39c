/-
Module: CodeNav.Proofs.Service.Uploader
Purpose: An upload in the steps that it is made of.
Main exports:
  Uploader.advance, Uploader.Advanced, Uploader.Runs, Uploader.runs_iff
-/
import CodeNav.Proofs.Service.Accepting
import CodeNav.Proofs.Service.Races

namespace CodeNav

open Stateful
open Http (Stream)
open Service (temporaryFile)

/-! ### Uploads in steps -/

/-- How far an upload has come. -/
inductive Uploader.Stage where
  | begun
  | received (staged : String) (size : Nat)
  /-- The dump was read, and converted to some encodings; the others are left. -/
  | converting (staged : String) (size : Nat) (dump : Dump) (made : List (Encoding × String))
      (left : List Encoding)
  /-- All encodings exist; these steps of making the upload known are left. -/
  | committing (staged : String) (size : Nat) (dump : Dump) (pending : List UploadStep)
  | stored (size : Nat)

namespace Uploader

open Upload

/-- Turns an upload down if a size that is too large is announced for it. -/
def permit (announced : Option Nat) : RequestM Unit := do
  let limit := (← getThe Service).limits.maxUploadBytes
  if let some size := announced then
    if limit < size then throw (.uploadTooLarge size limit true)

/-- Receives a body in a temporary file. -/
def receiveNew (body : Stream) : RequestM Stage := do
  let limit := (← getThe Service).limits.maxUploadBytes
  let staged ← RequestM.ofService (temporaryPath Encoding.json.extension)
  return .received staged (← receive body staged limit)

/-- One step of an upload for a target. -/
def advance (target : Target) (announced : Option Nat) (body : Stream) : Stage → RequestM Stage
  | .begun => do
    permit announced
    receiveNew body
  | .received staged size => do
    let dump ← RequestM.ofService (validate staged)
    let kinds := (← getThe Service).flags.enabled
    return .converting staged size dump [] (kinds.filter (· ≠ .json))
  | .converting staged size dump made [] => do
    let service ← getThe Service
    return .committing staged size dump (UploadStep.inOrder (service.basePath target)
      (moves staged service.flags.enabled made.reverse))
  | .converting staged size dump made (kind :: left) => do
    let output ← RequestM.ofService (temporaryPath kind.extension)
    let converter := (← getThe Service).converter
    RequestM.ofService (ServiceM.onFiles (converter staged output kind))
    return .converting staged size dump ((kind, output) :: made) left
  | .committing staged size _ [] => do
    RequestM.ofService (discard [staged])
    return .stored size
  | .committing staged size dump (step :: pending) => do
    RequestM.ofService (step.run target dump)
    return .committing staged size dump pending
  | .stored size => return .stored size

/-- What a step of an upload may come to. -/
inductive Advanced (target : Target) (announced : Option Nat) (body : Stream) (s : Service) :
    Stage → Stage → Service → Prop where
  | received {size : Nat} {t : Service}
      (within : ∀ announcedSize ∈ announced, announcedSize ≤ s.limits.maxUploadBytes)
      (run : receive body (stagedFile s) s.limits.maxUploadBytes
        { s with temporaries := s.temporaries + 1 } = (.ok size, t)) :
      Advanced target announced body s .begun (.received (stagedFile s) size) t
  | validated {staged : String} {size : Nat} {dump : Dump} {t : Service}
      (run : validate staged s = (.ok dump, t)) :
      Advanced target announced body s (.received staged size)
        (.converting staged size dump [] (t.flags.enabled.filter (· ≠ .json))) t
  | converted {staged : String} {size : Nat} {dump : Dump} {made : List (Encoding × String)}
      {kind : Encoding} {left : List Encoding} {files : Files}
      (run : s.converter staged (temporaryFile s.root s.temporaries kind) kind s.files =
        (.ok (), files)) :
      Advanced target announced body s (.converting staged size dump made (kind :: left))
        (.converting staged size dump ((kind, temporaryFile s.root s.temporaries kind) :: made)
          left)
        { s with files, temporaries := s.temporaries + 1 }
  | ready {staged : String} {size : Nat} {dump : Dump} {made : List (Encoding × String)} :
      Advanced target announced body s (.converting staged size dump made [])
        (.committing staged size dump (UploadStep.inOrder (s.basePath target)
          (moves staged s.flags.enabled made.reverse))) s
  | committed {staged : String} {size : Nat} {dump : Dump} {step : UploadStep}
      {pending : List UploadStep} {t : Service} (run : step.run target dump s = (.ok (), t)) :
      Advanced target announced body s (.committing staged size dump (step :: pending))
        (.committing staged size dump pending) t
  | discarded {staged : String} {size : Nat} {dump : Dump} {t : Service}
      (run : discard [staged] s = (.ok ⟨⟩, t)) :
      Advanced target announced body s (.committing staged size dump []) (.stored size) t
  | stored {size : Nat} : Advanced target announced body s (.stored size) (.stored size) s

section

variable {target : Target} {announced : Option Nat} {body : Stream} {s t : Service}

theorem ofService_eq_ok {α : Type} {c : ServiceM α} {a : α} :
    RequestM.ofService c s = (.ok a, t) ↔ c s = (.ok a, t) := by
  unfold RequestM.ofService
  generalize c s = run
  obtain ⟨result, u⟩ := run
  cases result with
  | error failure => exact ⟨fun same => (by cases same), fun same => (by cases same)⟩
  | ok other =>
      constructor
      · rintro ⟨⟩
        rfl
      · rintro ⟨⟩
        rfl

theorem onFiles_eq_ok {c : FilesM Unit} :
    ServiceM.onFiles c s = (.ok (), t) ↔ ∃ files, c s.files = (.ok (), files) ∧
      t = { s with files } := by
  unfold ServiceM.onFiles
  generalize c s.files = run
  obtain ⟨result, files⟩ := run
  constructor
  · intro same
    cases same
    exact ⟨files, rfl, rfl⟩
  · rintro ⟨_, ⟨⟩, rfl⟩
    rfl

theorem attempt_eq_ok {α : Type} {c : RequestM α} {outcome : Except Rejection α} :
    RequestM.attempt c s = (.ok outcome, t) ↔ c s = (outcome, t) := by
  unfold RequestM.attempt
  generalize c s = run
  obtain ⟨result, u⟩ := run
  constructor
  · rintro ⟨⟩
    rfl
  · rintro ⟨⟩
    rfl

theorem permit_eq_ok : permit announced s = (.ok (), t) ↔
    (∀ size ∈ announced, size ≤ s.limits.maxUploadBytes) ∧ t = s := by
  unfold permit
  rw [bind_ok (get_run s)]
  cases announced with
  | none =>
      constructor
      · rintro ⟨⟩
        exact ⟨fun _ listed => (by cases listed), rfl⟩
      · rintro ⟨_, rfl⟩
        rfl
  | some size =>
      dsimp only
      split
      · rename_i large
        constructor
        · intro same
          cases same
        · rintro ⟨within, _⟩
          exact absurd (within size rfl) (Nat.not_le.mpr large)
      · rename_i small
        constructor
        · rintro ⟨⟩
          refine ⟨fun other listed => ?_, rfl⟩
          cases listed
          exact Nat.not_lt.mp small
        · rintro ⟨_, rfl⟩
          rfl

theorem advanced_of_advance {stage next : Stage}
    (run : advance target announced body stage s = (.ok next, t)) :
    Advanced target announced body s stage next t := by
  cases stage with
  | begun =>
      obtain ⟨_, u, admitted, receiving⟩ := bind_eq_ok.mp run
      obtain ⟨within, rfl⟩ := permit_eq_ok.mp admitted
      obtain ⟨limit, _, got, rest⟩ := bind_eq_ok.mp receiving
      cases got
      obtain ⟨staged, _, named, rest⟩ := bind_eq_ok.mp rest
      cases named
      obtain ⟨size, v, received, rest⟩ := bind_eq_ok.mp rest
      cases rest
      exact .received within received
  | received staged size =>
      obtain ⟨dump, u, validating, rest⟩ := bind_eq_ok.mp run
      cases rest
      exact .validated (ofService_eq_ok.mp validating)
  | converting staged size dump made left =>
      cases left with
      | nil =>
          cases run
          exact .ready
      | cons kind left =>
          obtain ⟨output, u, named, rest⟩ := bind_eq_ok.mp run
          cases named
          obtain ⟨service, _, got, rest⟩ := bind_eq_ok.mp rest
          cases got
          obtain ⟨_, v, converting, rest⟩ := bind_eq_ok.mp rest
          cases rest
          obtain ⟨files, converted, rfl⟩ := onFiles_eq_ok.mp (ofService_eq_ok.mp converting)
          exact .converted converted
  | committing staged size dump pending =>
      cases pending with
      | nil =>
          obtain ⟨_, u, discarding, rest⟩ := bind_eq_ok.mp run
          cases rest
          exact .discarded (ofService_eq_ok.mp discarding)
      | cons step pending =>
          obtain ⟨_, u, stepping, rest⟩ := bind_eq_ok.mp run
          cases rest
          exact .committed (ofService_eq_ok.mp stepping)
  | stored size =>
      cases run
      exact .stored

theorem advance_of_advanced {stage next : Stage}
    (advanced : Advanced target announced body s stage next t) :
    advance target announced body stage s = (.ok next, t) := by
  cases advanced with
  | received within run =>
      refine bind_eq_ok.mpr ⟨(), s, permit_eq_ok.mpr ⟨within, rfl⟩, ?_⟩
      exact bind_eq_ok.mpr ⟨_, s, rfl, bind_eq_ok.mpr ⟨_, _, rfl, bind_eq_ok.mpr ⟨_, t, run, rfl⟩⟩⟩
  | validated run =>
      exact bind_eq_ok.mpr ⟨_, t, ofService_eq_ok.mpr run, rfl⟩
  | converted run =>
      refine bind_eq_ok.mpr ⟨_, _, rfl, bind_eq_ok.mpr ⟨_, _, rfl, bind_eq_ok.mpr ⟨(), _, ?_, rfl⟩⟩⟩
      exact ofService_eq_ok.mpr (onFiles_eq_ok.mpr ⟨_, run, rfl⟩)
  | ready => rfl
  | committed run => exact bind_eq_ok.mpr ⟨(), t, ofService_eq_ok.mpr run, rfl⟩
  | discarded run => exact bind_eq_ok.mpr ⟨⟨⟩, t, ofService_eq_ok.mpr run, rfl⟩
  | stored => rfl

end

/-! ### All steps in a row -/

/-- Some steps of an upload in a row. -/
inductive Runs (target : Target) (announced : Option Nat) (body : Stream) :
    Stage → Service → Stage → Service → Prop where
  | done (stage : Stage) (s : Service) : Runs target announced body stage s stage s
  | step {stage next last : Stage} {s t u : Service}
      (advanced : Advanced target announced body s stage next t)
      (others : Runs target announced body next t last u) :
      Runs target announced body stage s last u

section

variable {target : Target} {announced : Option Nat} {body : Stream} {s t : Service} {size : Nat}

theorem runs_stored {arrived : Nat} :
    Runs target announced body (.stored arrived) s (.stored size) t ↔ arrived = size ∧ s = t := by
  constructor
  · intro runs
    generalize first : Stage.stored arrived = stage at runs
    generalize last : Stage.stored size = final at runs
    induction runs with
    | done stage s =>
        rw [← last] at first
        cases first
        exact ⟨rfl, rfl⟩
    | step advanced others ih =>
        subst first
        cases advanced
        exact ih rfl last
  · rintro ⟨rfl, rfl⟩
    exact .done _ _

theorem runs_committing {staged : String} {arrived : Nat} {dump : Dump}
    {pending : List UploadStep} :
    Runs target announced body (.committing staged arrived dump pending) s (.stored size) t ↔
      arrived = size ∧ ∃ u, pending.forM (UploadStep.run target dump) s = (.ok (), u) ∧
        discard [staged] u = (.ok ⟨⟩, t) := by
  induction pending generalizing s with
  | nil =>
      constructor
      · intro runs
        cases runs with
        | step advanced others =>
            cases advanced with
            | discarded run =>
                obtain ⟨rfl, rfl⟩ := runs_stored.mp others
                exact ⟨rfl, s, rfl, run⟩
      · rintro ⟨rfl, u, done, run⟩
        cases done
        exact .step (.discarded run) (.done _ _)
  | cons step pending ih =>
      constructor
      · intro runs
        cases runs with
        | step advanced others =>
            cases advanced with
            | committed run =>
                obtain ⟨rfl, u, done, discarding⟩ := ih.mp others
                exact ⟨rfl, u, bind_eq_ok.mpr ⟨(), _, run, done⟩, discarding⟩
      · rintro ⟨rfl, u, run, discarding⟩
        obtain ⟨_, v, first, rest⟩ := bind_eq_ok.mp run
        exact .step (.committed first) (ih.mpr ⟨rfl, u, rest, discarding⟩)

theorem convertAll_cons {input : String} {made converted : List (Encoding × String)}
    {kind : Encoding} {left : List Encoding} :
    convertAll input made (kind :: left) s = (.ok converted, t) ↔ ∃ files,
      s.converter input (temporaryFile s.root s.temporaries kind) kind s.files = (.ok (), files) ∧
        convertAll input ((kind, temporaryFile s.root s.temporaries kind) :: made) left
          { s with files, temporaries := s.temporaries + 1 } = (.ok converted, t) := by
  cases run : s.converter input (temporaryFile s.root s.temporaries kind) kind s.files with
  | mk outcome files =>
      cases outcome with
      | ok done =>
          rw [convertAll_next run]
          constructor
          · exact fun rest => ⟨files, rfl, rest⟩
          · rintro ⟨_, ⟨⟩, rest⟩
            exact rest
      | error failure =>
          constructor
          · intro all
            let named : Service := { s with temporaries := s.temporaries + 1 }
            have attempted : ServiceM.attempt (ServiceM.onFiles (named.converter input
                (temporaryFile s.root s.temporaries kind) kind)) named =
                (.ok (.error failure), { named with files }) := attempt_onFiles run
            unfold convertAll at all
            rw [bind_ok (temporaryPath_run kind s), bind_ok (get_run named), bind_ok attempted]
              at all
            obtain ⟨_, _, _, thrown⟩ := bind_eq_ok.mp all
            cases thrown
          · rintro ⟨_, same, _⟩
            cases same

theorem runs_converting {staged : String} {arrived : Nat} {dump : Dump}
    {made : List (Encoding × String)} {left : List Encoding} :
    Runs target announced body (.converting staged arrived dump made left) s (.stored size) t ↔
      arrived = size ∧ ∃ u, (do
        let converted ← convertAll staged made left
        commit target staged dump converted : ServiceM Unit) s = (.ok (), u) ∧
          discard [staged] u = (.ok ⟨⟩, t) := by
  induction left generalizing made s with
  | nil =>
      have ready : (do
          let converted ← convertAll staged made []
          commit target staged dump converted : ServiceM Unit) s =
          (UploadStep.inOrder (s.basePath target)
            (moves staged s.flags.enabled made.reverse)).forM (UploadStep.run target dump) s := by
        rw [UploadStep.inOrder_commit]
        exact bind_ok (c := convertAll staged made []) (pure_run made.reverse s)
      rw [ready, ← runs_committing]
      constructor
      · intro runs
        cases runs with
        | step advanced others =>
            cases advanced with
            | ready => exact others
      · exact fun others => .step .ready others
  | cons kind left ih =>
      constructor
      · intro runs
        cases runs with
        | step advanced others =>
            cases advanced with
            | converted run =>
                obtain ⟨rfl, u, done, discarding⟩ := ih.mp others
                obtain ⟨converted, v, rest, committing⟩ := bind_eq_ok.mp done
                have all := convertAll_cons.mpr ⟨_, run, rest⟩
                exact ⟨rfl, u, bind_eq_ok.mpr ⟨converted, v, all, committing⟩, discarding⟩
      · rintro ⟨rfl, u, done, discarding⟩
        obtain ⟨converted, v, all, committing⟩ := bind_eq_ok.mp done
        obtain ⟨files, run, rest⟩ := convertAll_cons.mp all
        have others := ih.mpr ⟨rfl, u, bind_eq_ok.mpr ⟨converted, v, rest, committing⟩, discarding⟩
        exact .step (.converted run) others

theorem runs_received {staged : String} {arrived : Nat} :
    Runs target announced body (.received staged arrived) s (.stored size) t ↔
      arrived = size ∧ ∃ u, store target staged s = (.ok (), u) ∧
        discard [staged] u = (.ok ⟨⟩, t) := by
  constructor
  · intro runs
    cases runs with
    | step advanced others =>
        cases advanced with
        | validated run =>
            obtain ⟨rfl, u, done, discarding⟩ := runs_converting.mp others
            obtain ⟨converted, v, all, committing⟩ := bind_eq_ok.mp done
            refine ⟨rfl, u, ?_, discarding⟩
            have prepared : prepare staged s = (.ok (_, converted), v) :=
              (bind_ok run).trans ((bind_ok (get_run _)).trans (bind_ok all))
            exact (bind_ok prepared).trans committing
  · rintro ⟨rfl, u, stored, discarding⟩
    obtain ⟨⟨dump, converted⟩, v, prepared, committing⟩ := bind_eq_ok.mp stored
    obtain ⟨_, w, run, rest⟩ := bind_eq_ok.mp prepared
    obtain ⟨_, _, got, rest⟩ := bind_eq_ok.mp rest
    cases got
    obtain ⟨_, _, all, paired⟩ := bind_eq_ok.mp rest
    cases paired
    refine .step (.validated run) (runs_converting.mpr ⟨rfl, u, ?_, discarding⟩)
    exact bind_eq_ok.mpr ⟨converted, v, all, committing⟩

/-- All steps in a row are a whole upload. -/
theorem runs_iff : Runs target announced body .begun s (.stored size) t ↔
    accept target announced body s = (.ok size, t) := by
  constructor
  · intro runs
    cases runs with
    | step advanced others =>
        cases advanced with
        | @received size _ within run =>
            obtain ⟨rfl, u, stored, discarding⟩ := runs_received.mp others
            rw [accept_allowed target body within]
            refine bind_eq_ok.mpr ⟨stagedFile s, _, rfl, bind_eq_ok.mpr ⟨.ok size, u, ?_, ?_⟩⟩
            · exact attempt_eq_ok.mpr (receiveAndStore_run run stored)
            · exact bind_eq_ok.mpr ⟨⟨⟩, t, ofService_eq_ok.mpr discarding, rfl⟩
  · intro accepted
    have within : ∀ announcedSize ∈ announced, announcedSize ≤ s.limits.maxUploadBytes := by
      intro announcedSize states
      refine Nat.not_lt.mp fun large => ?_
      rw [accept_tooLarge target body states large] at accepted
      cases accepted
    rw [accept_allowed target body within] at accepted
    obtain ⟨_, _, named, rest⟩ := bind_eq_ok.mp accepted
    cases named
    obtain ⟨outcome, u, attempted, rest⟩ := bind_eq_ok.mp rest
    obtain ⟨_, v, discarding, rest⟩ := bind_eq_ok.mp rest
    cases outcome with
    | error rejection => cases rest
    | ok arrived =>
        cases rest
        obtain ⟨_, _, got, rest⟩ := bind_eq_ok.mp (attempt_eq_ok.mp attempted)
        cases got
        obtain ⟨_, w, received, rest⟩ := bind_eq_ok.mp rest
        obtain ⟨_, _, storing, rest⟩ := bind_eq_ok.mp rest
        cases rest
        refine .step (.received within received) (runs_received.mpr ⟨rfl, u, ?_⟩)
        exact ⟨ofService_eq_ok.mp storing, ofService_eq_ok.mp discarding⟩

end

end Uploader

end CodeNav
