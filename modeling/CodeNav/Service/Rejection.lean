/-
Module: CodeNav.Service.Rejection
Purpose: Why a request is turned down, and how that is reported.
Main exports:
  Rejection, Rejection.status, Rejection.message, Rejection.response, RequestM
-/
import CodeNav.Http.Message
import CodeNav.Service.State

namespace CodeNav

open Http (Response Status)

/-- Why a request is turned down. -/
inductive Rejection where
  | failure (cause : Failure)
  /-- The body of an upload broke off. -/
  | uploadBrokeOff (reason : String)
  /-- An upload is larger than the limit: by its announced size, or by what has arrived so far. -/
  | uploadTooLarge (size limit : Nat) (complete : Bool)
  | unknownMethod
  | noData (target : Target)
  /-- A rejection in words of its own. -/
  | stated (status : Status) (text : String)
deriving Repr, DecidableEq

namespace Rejection

/-- The outcome that a failure amounts to. -/
def failureStatus (cause : Failure) : Status :=
  if cause.isNotFound then .notFound
  else if cause.isValidation then .badRequest
  else .serverError

/-- The outcome that a rejection amounts to. -/
def status : Rejection → Status
  | failure cause => failureStatus cause
  | uploadBrokeOff _ => .badRequest
  | uploadTooLarge _ _ _ => .contentTooLarge
  | unknownMethod => .unprocessable
  | noData _ => .notFound
  | stated status _ => status

/-- The wording of a rejection. -/
def message : Rejection → String
  | failure cause => cause.message
  | uploadBrokeOff reason => "failed to read upload: " ++ reason
  | uploadTooLarge size limit complete =>
    "The size of the given LSIF file (" ++ toString size ++ " bytes"
      ++ (if complete then "" else " so far") ++ ") exceeds the max of " ++ toString limit
  | unknownMethod =>
    "Method must be one of " ++ ", ".intercalate (QueryMethod.all.map (·.name))
  | noData target => "No LSIF data available for " ++ target.display ++ "."
  | stated _ text => text

/-- The response that reports a rejection. -/
def response (rejection : Rejection) : Response :=
  .json rejection.status (.record
    [("error", .string rejection.message), ("status", .nat rejection.status.code)])

end Rejection

/-- A computation on the state of a service that may be rejected. -/
abbrev RequestM := ExceptT Rejection (StateM Service)

namespace RequestM

/-- Runs a computation whose failure is a rejection. -/
def ofService {α : Type} (computation : ServiceM α) : RequestM α := fun service =>
  let (result, service) := computation service
  (result.mapError .failure, service)

/-- Passes a result on; a failure is a rejection. -/
def ofExcept {α : Type} (result : Except Failure α) : RequestM α := fun service =>
  (result.mapError .failure, service)

/-- Runs a computation and hands out its rejection. -/
def attempt {α : Type} (computation : RequestM α) : RequestM (Except Rejection α) := fun service =>
  let (result, service) := computation service
  (.ok result, service)

/-- Changes the figures of the service. -/
def count (change : Metrics → Metrics) : RequestM Unit :=
  modifyThe Service fun service => { service with metrics := change service.metrics }

end RequestM

end CodeNav
