/-
Module: CodeNav.Proofs.Service.Answering
Purpose: How uploads are answered, and that none is turned down with success.
Main exports:
  Upload.Refuses, Upload.refuses_accept, Endpoint.UploadAnswered, Endpoint.upload_answered,
  Endpoint.upload_named
-/
import CodeNav.Proofs.Service.Accepting

namespace CodeNav

namespace Upload

open Stateful
open Http (Stream)

/-! ### Rejections -/

theorem failureStatus_ne_ok (cause : Failure) : Rejection.failureStatus cause ≠ .ok := by
  unfold Rejection.failureStatus
  split
  · decide
  · split <;> decide

/-- A computation that is rejected is not reported as a success. -/
def Refuses {α : Type} (c : RequestM α) : Prop :=
  ∀ s rejection t, c s = (.error rejection, t) → rejection.status ≠ .ok

namespace Refuses

variable {α β : Type}

theorem pure (a : α) : Refuses (pure a) := by
  intro s rejection t run
  cases run

theorem throw {rejection : Rejection} (refused : rejection.status ≠ .ok) :
    Refuses (throw rejection : RequestM α) := by
  intro s other t run
  cases run
  exact refused

theorem get : Refuses (getThe Service) := by
  intro s rejection t run
  cases run

theorem bind {c : RequestM α} {f : α → RequestM β} (first : Refuses c)
    (rest : ∀ a, Refuses (f a)) : Refuses (c >>= f) := by
  intro s rejection t run
  rcases bind_eq_error run with failed | ⟨a, u, _, later⟩
  · exact first s rejection t failed
  · exact rest a u rejection t later

theorem ofService (c : ServiceM α) : Refuses (RequestM.ofService c) := by
  intro s rejection t run
  unfold RequestM.ofService at run
  cases result : c s with
  | mk outcome u =>
      rw [result] at run
      cases outcome with
      | ok a => cases run
      | error failure =>
          cases run
          exact failureStatus_ne_ok failure

end Refuses

theorem refuses_receivePortions (path : String) (limit : Nat) (arrived : List UInt8)
    (portions : List (List UInt8)) : Refuses (receivePortions path limit arrived portions) := by
  induction portions generalizing arrived with
  | nil => exact Refuses.pure arrived
  | cons portion rest ih =>
      unfold receivePortions
      dsimp only
      split
      · exact Refuses.bind (Refuses.throw fun same => by cases same) fun _ =>
          Refuses.bind (Refuses.ofService _) fun _ => ih _
      · exact Refuses.bind (Refuses.ofService _) fun _ => ih _

theorem refuses_receive (body : Stream) (path : String) (limit : Nat) :
    Refuses (receive body path limit) := by
  refine Refuses.bind (Refuses.ofService _) fun _ => ?_
  refine Refuses.bind (refuses_receivePortions path limit [] _) fun arrived => ?_
  cases body.broken with
  | none => exact Refuses.pure _
  | some reason => exact Refuses.throw fun same => by cases same

theorem refuses_receiveAndStore (target : Target) (body : Stream) (staged : String) :
    Refuses (receiveAndStore target body staged) :=
  Refuses.bind Refuses.get fun _ => Refuses.bind (refuses_receive body staged _) fun _ =>
    Refuses.bind (Refuses.ofService _) fun _ => Refuses.pure _

theorem refuses_acceptAllowed (target : Target) (body : Stream) :
    Refuses (acceptAllowed target body) := by
  refine Refuses.bind (Refuses.ofService _) fun staged => ?_
  intro s rejection t run
  generalize storing : receiveAndStore target body staged s = result at run
  obtain ⟨outcome, u⟩ := result
  have attempted : RequestM.attempt (receiveAndStore target body staged) s = (.ok outcome, u) := by
    unfold RequestM.attempt
    rw [storing]
  rw [bind_ok attempted] at run
  rcases bind_eq_error run with failed | ⟨_, v, _, later⟩
  · exact Refuses.ofService _ u rejection t failed
  · cases outcome with
    | ok size => cases later
    | error other =>
        cases later
        exact refuses_receiveAndStore target body staged s rejection u storing

/-- An upload that is turned down is not reported as a success. -/
theorem refuses_accept (target : Target) (announced : Option Nat) (body : Stream) :
    Refuses (accept target announced body) := by
  intro s rejection t run
  rcases allowed_or_announced announced s.limits.maxUploadBytes with
    within | ⟨size, states, large⟩
  · rw [accept_allowed target body within] at run
    exact refuses_acceptAllowed target body s rejection t run
  · rw [accept_tooLarge target body states large] at run
    cases run
    exact fun same => by cases same

end Upload

/-! ### Answers to uploads -/

namespace Endpoint

open Stateful
open Http (Parameters Request Response)

/-- The parameters of a request name a target. -/
def NamesTarget (request : Request) (target : Target) : Prop :=
  ∃ parameters, Parameters.ofQuery [targetNames] request.query = .ok parameters ∧
    targetOf parameters = .ok target

theorem NamesTarget.isCommit {request : Request} {target : Target}
    (names : NamesTarget request target) : Target.isCommit target.commit := by
  obtain ⟨parameters, _, valid⟩ := names
  exact Target.isCommit_of_validate valid

theorem NamesTarget.flat {request : Request} {target : Target}
    (names : NamesTarget request target) : '/' ∉ target.commit.toList :=
  Target.slash_not_mem_of_isCommit names.isCommit

theorem NamesTarget.unique {request : Request} {target other : Target}
    (names : NamesTarget request target) (also : NamesTarget request other) : target = other := by
  obtain ⟨parameters, read, valid⟩ := names
  obtain ⟨parameters', read', valid'⟩ := also
  rw [read] at read'
  cases read'
  rw [valid] at valid'
  exact Except.ok.inj valid'

theorem answerUpload_rejected {parameters : Parameters} {request : Request} {s t : Service}
    {rejection : Rejection}
    (run : receiveUpload parameters request s = (.error rejection, t)) :
    answerUpload parameters request s =
      (.error rejection, { t with metrics := t.metrics.addFailedUpload }) := by
  have attempted : RequestM.attempt (receiveUpload parameters request) s =
      (.ok (.error rejection), t) := by
    unfold RequestM.attempt
    rw [run]
  exact bind_ok attempted

theorem answerUpload_stored {parameters : Parameters} {request : Request} {s t : Service}
    {size : Nat} (run : receiveUpload parameters request s = (.ok size, t)) :
    answerUpload parameters request s =
      (.ok (.text .ok "Upload successful."),
        (houseKeep size { t with metrics := t.metrics.addUpload size }).2) := by
  have attempted : RequestM.attempt (receiveUpload parameters request) s =
      (.ok (.ok size), t) := by
    unfold RequestM.attempt
    rw [run]
  exact bind_ok attempted

/-- How an upload is answered. Only one that was stored is followed by housekeeping. -/
inductive UploadAnswered (request : Request) (s : Service) : Response × Service → Prop where
  | noTarget (response : Response) (metrics : Metrics)
      (unnamed : ∀ target, ¬ NamesTarget request target) :
      UploadAnswered request s (response, { s with metrics })
  | rejected (target : Target) (rejection : Rejection) (t : Service) (metrics : Metrics)
      (names : NamesTarget request target)
      (run : Upload.accept target (announcedSize? request) request.body s = (.error rejection, t)) :
      UploadAnswered request s (rejection.response, { t with metrics })
  | stored (target : Target) (size : Nat) (t : Service) (names : NamesTarget request target)
      (run : Upload.accept target (announcedSize? request) request.body s = (.ok size, t)) :
      UploadAnswered request s (.text .ok "Upload successful.",
        (houseKeep size { t with metrics := t.metrics.addUpload size }).2)

theorem upload_answered [Gzip.Compressor] (elapsed : Binary64) (request : Request) (s : Service) :
    UploadAnswered request s (Endpoint.upload.answer elapsed request s) := by
  unfold Endpoint.answer withParameters
  cases read : Parameters.ofQuery [targetNames] request.query with
  | error cause =>
      refine .noTarget (Parameters.refusal cause) s.metrics ?_
      rintro target ⟨parameters, read', _⟩
      rw [read] at read'
      cases read'
  | ok parameters =>
      dsimp only
      cases valid : targetOf parameters with
      | error failure =>
          have received : receiveUpload parameters request s = (.error (.failure failure), s) := by
            unfold receiveUpload
            rw [valid]
            rfl
          unfold settle
          rw [answerUpload_rejected received]
          refine .noTarget _ _ ?_
          rintro target ⟨parameters', read', valid'⟩
          rw [read] at read'
          cases read'
          rw [valid] at valid'
          cases valid'
      | ok target =>
          have names : NamesTarget request target := ⟨parameters, read, valid⟩
          generalize accepted :
            Upload.accept target (announcedSize? request) request.body s = result
          obtain ⟨outcome, t⟩ := result
          have received : receiveUpload parameters request s = (outcome, t) := by
            unfold receiveUpload
            rw [valid]
            exact accepted
          unfold settle
          cases outcome with
          | error rejection =>
              rw [answerUpload_rejected received]
              exact .rejected target rejection t _ names accepted
          | ok size =>
              rw [answerUpload_stored received]
              exact .stored target size t names accepted

/-- An upload that names a target is answered by how it fares. -/
theorem upload_named [Gzip.Compressor] {request : Request} {target : Target}
    (names : NamesTarget request target) (elapsed : Binary64) (s : Service) :
    match Upload.accept target (announcedSize? request) request.body s with
    | (.error rejection, t) =>
        ∃ metrics, Endpoint.upload.answer elapsed request s = (rejection.response, { t with metrics })
    | (.ok size, t) =>
        Endpoint.upload.answer elapsed request s = (.text .ok "Upload successful.",
          (houseKeep size { t with metrics := t.metrics.addUpload size }).2) := by
  have answered := upload_answered elapsed request s
  generalize Endpoint.upload.answer elapsed request s = result at answered ⊢
  cases answered with
  | noTarget response metrics unnamed => exact absurd names (unnamed target)
  | rejected other rejection t metrics also run =>
      rw [names.unique also, run]
      exact ⟨metrics, rfl⟩
  | stored other size t also run => rw [names.unique also, run]

end Endpoint

namespace Service

open Http (Request)

/-- A request that brings an upload. -/
def IsUpload (request : Request) : Prop :=
  request.method = "POST" ∧ Endpoint.ofPath? request.path = some .upload

theorem respond_upload [Gzip.Compressor] {request : Request} (upload : IsUpload request)
    (elapsed : Binary64) (s : Service) :
    respond elapsed request s = Endpoint.upload.answer elapsed request s := by
  obtain ⟨method, path⟩ := upload
  unfold respond
  rw [method, path]
  rfl

end Service

end CodeNav
