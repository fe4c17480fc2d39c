/-
Module: CodeNav.Proofs.Service.SameStore
Purpose: What does not count for uploads, and that services that store the same take them alike.
Main exports:
  Upload.Immaterial, Upload.alike_convertAll, Upload.alike_commit, Service.SameStore,
  Upload.alike_accept
-/
import CodeNav.Proofs.Service.Answering
import CodeNav.Proofs.Service.Housekeeping
import CodeNav.Proofs.Store.Matching

namespace CodeNav

open Stateful
open Http (Parameters Request Response Stream)

/-! ### What does not count -/

namespace Upload

/-- The difference between services that are related does not count for uploads, that between
their trees included. Only the limit on what is received is left open. -/
structure Immaterial (F : Files → Files → Prop) (R : Service → Service → Prop) : Prop where
  insensitive : FilesM.Insensitive F
  onFiles : ∀ {α : Type} {c d : FilesM α}, Related F c d →
    Related R (ServiceM.onFiles c) (ServiceM.onFiles d)
  converts : ∀ {s t}, R s t → ∀ input output kind,
    Related F (s.converter input output kind) (t.converter input output kind)
  root : ∀ {s t}, R s t → s.root = t.root
  flags : ∀ {s t}, R s t → s.flags = t.flags
  index : ∀ {s t}, R s t → s.index = t.index
  temporaries : ∀ {s t}, R s t → s.temporaries = t.temporaries
  indexed : ∀ {s t}, R s t → ∀ index, R { s with index } { t with index }
  named : ∀ {s t}, R s t →
    R { s with temporaries := s.temporaries + 1 } { t with temporaries := t.temporaries + 1 }
  forgotten : ∀ {s t}, R s t → ∀ target, R (s.forgetTarget target) (t.forgetTarget target)

section

variable {F : Files → Files → Prop} {R : Service → Service → Prop} (immaterial : Immaterial F R)
include immaterial

theorem alike_temporaryPath (ending : String) : Respects R (temporaryPath ending) := by
  have run (u : Service) : (temporaryPath ending u).1 =
      .ok (Files.join (Files.join u.root Service.temporaryName)
        ("upload-" ++ toString u.temporaries ++ ending)) := rfl
  intro s t related
  refine ⟨?_, immaterial.named related⟩
  rw [run, run, immaterial.root related, immaterial.temporaries related]

theorem alike_discard (paths : List String) : Respects R (discard paths) := by
  unfold discard
  induction paths with
  | nil => exact Related.pure _
  | cons path rest ih =>
      have removed := immaterial.onFiles (immaterial.insensitive.remove path)
      exact Related.bind (Related.bind (.attempt removed) fun _ => Related.pure _) fun _ => ih

theorem alike_writeOctets (path : String) (octets : List UInt8) :
    Respects R (writeOctets path octets) :=
  immaterial.onFiles (immaterial.insensitive.write path (.octets octets))

theorem alike_receivePortions (path : String) (limit : Nat) (arrived : List UInt8)
    (portions : List (List UInt8)) :
    Respects R (receivePortions path limit arrived portions) := by
  induction portions generalizing arrived with
  | nil => exact Related.pure arrived
  | cons portion rest ih =>
      have written := Related.ofService (alike_writeOctets immaterial path (arrived ++ portion))
      unfold receivePortions
      dsimp only
      split
      · exact Related.bind (Related.throw _) fun _ => Related.bind written fun _ => ih _
      · exact Related.bind written fun _ => ih _

theorem alike_receive (body : Stream) (path : String) (limit : Nat) :
    Respects R (receive body path limit) := by
  refine Related.bind (.ofService (alike_writeOctets immaterial path [])) fun _ => ?_
  refine Related.bind (alike_receivePortions immaterial path limit [] body.portions) fun arrived => ?_
  cases body.broken with
  | none => exact Related.pure _
  | some reason => exact Related.throw _

theorem alike_convertAll (input : String) (made : List (Encoding × String))
    (kinds : List Encoding) : Respects R (convertAll input made kinds) := by
  induction kinds generalizing made with
  | nil => exact Related.pure _
  | cons kind rest ih =>
      refine Related.bind (alike_temporaryPath immaterial _) fun output => ?_
      apply Related.get_bind
      intro s t related
      have converts := immaterial.onFiles (immaterial.converts related input output kind)
      refine Related.bind (.attempt converts) (fun outcome => ?_) s t related
      cases outcome with
      | ok done => exact ih _
      | error failure =>
          exact Related.bind (alike_discard immaterial _) fun _ => Related.throw failure

theorem alike_placeEach (base : String) (list : List (Encoding × String)) :
    Respects R (placeEach base list) := by
  unfold placeEach
  induction list with
  | nil => exact Related.pure _
  | cons next rest ih =>
      have moved : Respects R (place base next.2 next.1) :=
        immaterial.onFiles (immaterial.insensitive.rename _ _)
      exact Related.bind moved fun _ => ih

theorem alike_updateIndex (change : PackageIndex → PackageIndex) :
    Respects R (ServiceM.updateIndex change) := by
  intro s t related
  have same := immaterial.index related
  rcases available_or_broken s with ⟨index, usable⟩ | ⟨failure, broken⟩
  · rw [updateIndex_available usable, updateIndex_available (same ▸ usable)]
    exact ⟨rfl, immaterial.indexed related _⟩
  · rw [updateIndex_broken broken, updateIndex_broken (same ▸ broken)]
    exact ⟨rfl, related⟩

/-- What is closed and forgotten for a target differs, and does not count. -/
theorem alike_commit (target : Target) (staged : String) (dump : Dump)
    (converted : List (Encoding × String)) :
    Respects R (commit target staged dump converted) := by
  apply Related.get_bind
  intro s t related
  have sameBase : s.basePath target = t.basePath target :=
    congrArg (Files.join · target.key) (immaterial.root related)
  simp only [sameBase, immaterial.flags related, placeAll_eq]
  refine Related.bind (alike_placeEach immaterial _ _) (fun _ => ?_) s t related
  intro s t related
  rw [Service.forget_run, Service.forget_run]
  exact alike_updateIndex immaterial _ _ _ (immaterial.forgotten related target)

/-- A dump that checks alike is stored alike. -/
theorem alike_store_from {target : Target} {staged : String} {s t : Service}
    (checked : (validate staged s).1 = (validate staged t).1 ∧
      R (validate staged s).2 (validate staged t).2) :
    (store target staged s).1 = (store target staged t).1 ∧
      R (store target staged s).2 (store target staged t).2 := by
  refine Related.bind_from (Related.bind_from checked fun dump => ?_) fun _ =>
    alike_commit immaterial _ _ _ _
  apply Related.get_bind
  intro s t related
  simp only [immaterial.flags related]
  exact Related.bind (alike_convertAll immaterial _ _ _) (fun _ => Related.pure _) s t related

end

end Upload

/-! ### Services that store the same -/

/-- Two services store the same and convert in process. What is open or in their caches, what is
closed, their figures, and the times of their files do not count. -/
structure Service.SameStore [Gzip.Compressor] (s t : Service) : Prop where
  root : s.root = t.root
  flags : s.flags = t.flags
  softMaxBytes : s.limits.softMaxBytes = t.limits.softMaxBytes
  maxUploadBytes : s.limits.maxUploadBytes = t.limits.maxUploadBytes
  sizes : s.sizes = t.sizes
  files : s.files.Matching t.files
  index : s.index = t.index
  temporaries : s.temporaries = t.temporaries
  converter : s.converter = t.converter
  inProcess : t.converter = Converter.builtin

namespace Upload

open Service (SameStore)

variable [Gzip.Compressor]

theorem immaterial_sameStore : Immaterial Files.Matching SameStore where
  insensitive := Files.Matching.insensitive
  onFiles := by
    intro α c d related s t same
    obtain ⟨result, files⟩ := related s.files t.files same.files
    exact ⟨result, { same with files := files }⟩
  converts := by
    intro s t same input output kind
    rw [same.converter, same.inProcess]
    exact Converter.builtin_matching input output kind
  root same := same.root
  flags same := same.flags
  index same := same.index
  temporaries same := same.temporaries
  indexed same _ := { same with index := rfl }
  named same := { same with temporaries := congrArg (· + 1) same.temporaries }
  forgotten same _ := { same with }

theorem alike_validate (path : String) : Respects SameStore (validate path) := by
  apply Related.get_bind
  intro s t same
  rw [same.maxUploadBytes]
  have read := immaterial_sameStore.onFiles (Files.Matching.insensitive.read path)
  exact Related.bind read (fun content => .ofExcept _) s t same

theorem alike_store (target : Target) (staged : String) :
    Respects SameStore (store target staged) :=
  fun s t same => alike_store_from immaterial_sameStore (alike_validate staged s t same)

theorem alike_receiveAndStore (target : Target) (body : Stream) (staged : String) :
    Respects SameStore (receiveAndStore target body staged) := by
  apply Related.get_bind
  intro s t same
  simp only [same.maxUploadBytes]
  exact Related.bind (alike_receive immaterial_sameStore body staged _) (fun _ =>
    Related.bind (.ofService (alike_store target staged)) fun _ => Related.pure _) s t same

theorem alike_acceptAllowed (target : Target) (body : Stream) :
    Respects SameStore (acceptAllowed target body) := by
  refine Related.bind (.ofService (alike_temporaryPath immaterial_sameStore _)) fun staged => ?_
  refine Related.bind (.attemptRequest (alike_receiveAndStore target body staged)) fun outcome => ?_
  refine Related.bind (.ofService (alike_discard immaterial_sameStore _)) fun _ => ?_
  cases outcome with
  | ok size => exact Related.pure size
  | error rejection => exact Related.throw rejection

/-- Services that store the same accept the same uploads, and store the same behind them. -/
theorem alike_accept (target : Target) (announced : Option Nat) (body : Stream) :
    Respects SameStore (accept target announced body) := by
  intro s t same
  rcases allowed_or_announced announced s.limits.maxUploadBytes with
    within | ⟨size, states, large⟩
  · rw [accept_allowed target body within, accept_allowed target body (same.maxUploadBytes ▸ within)]
    exact alike_acceptAllowed target body s t same
  · rw [accept_tooLarge target body states large, accept_tooLarge target body states
      (same.maxUploadBytes ▸ large), same.maxUploadBytes]
    exact ⟨rfl, same⟩

end Upload

end CodeNav
