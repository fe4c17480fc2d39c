/-
Module: CodeNav.Service.Endpoint
Purpose: What the service offers, and how requests for it are answered.
Main exports:
  Endpoint, Endpoint.ofPath?, Endpoint.answer, Service.respond
-/
import CodeNav.Http.MediaType
import CodeNav.Http.QueryString
import CodeNav.Query.Answer
import CodeNav.Service.Quota
import CodeNav.Service.Upload

namespace CodeNav

open Http (Parameters Request Response Status Stream)
open Json (Decoder Mismatch Shape Value)

variable [Gzip.Compressor]

/-- What the service offers. -/
inductive Endpoint where
  | ping
  | metrics
  | upload
  | presence
  | query
deriving Repr, DecidableEq

namespace Endpoint

/-- The endpoint at a path. -/
def ofPath? : String → Option Endpoint
  | "/ping" => some .ping
  | "/metrics" => some .metrics
  | "/upload" => some .upload
  | "/exists" => some .presence
  | "/request" => some .query
  | _ => none

/-- Whether an endpoint is read by `GET`; the others are called by `POST`. -/
def isRead : Endpoint → Bool
  | .ping | .metrics => true
  | .upload | .presence | .query => false

/-- Whether an endpoint can be called by a method. -/
def accepts (endpoint : Endpoint) (method : String) : Bool :=
  if endpoint.isRead then method == "GET" || method == "HEAD" else method == "POST"

/-! ### Parameters -/

/-- The parameters that name a target. -/
def targetNames : List String :=
  ["repository", "commit"]

/-- The target that parameters name. -/
def targetOf (parameters : Parameters) : Except Failure Target :=
  Target.validate ((parameters.get? "repository").getD "") ((parameters.get? "commit").getD "")

/-- The response that a computation leads to. -/
def settle (computation : RequestM Response) : StateM Service Response := fun service =>
  match computation service with
  | (.ok response, service) => (response, service)
  | (.error rejection, service) => (rejection.response, service)

/-- Runs a computation on the parameters of a request, unless they cannot be read. -/
def withParameters (groups : List (List String)) (request : Request)
    (computation : Parameters → StateM Service Response) : StateM Service Response :=
  match Parameters.ofQuery groups request.query with
  | .ok parameters => computation parameters
  | .error cause => pure (Parameters.refusal cause)

/-! ### Uploads -/

/-- A number of octets as a header states it. -/
def sizeOfText? (text : String) : Option Nat :=
  let digits :=
    match text.toList with
    | '+' :: rest => rest
    | all => all
  if digits.isEmpty || !digits.all Char.isDigit then none
  else
    let size := digits.foldl (fun n c => 10 * n + (c.toNat - '0'.toNat)) 0
    if size < capacity 64 then some size else none

/-- The size that a request announces for its body. -/
def announcedSize? (request : Request) : Option Nat :=
  (request.header? "content-length").bind sizeOfText?

/-- Stores the body of a request; the result is its size. -/
def receiveUpload (parameters : Parameters) (request : Request) : RequestM Nat := do
  let target ← RequestM.ofExcept (targetOf parameters)
  Upload.accept target (announcedSize? request) request.body

/-- Keeps the stored dumps within their size, reckoning with a further upload like the last. -/
def houseKeep (size : Nat) : RequestM Unit := do
  let most := (← getThe Service).limits.softMaxBytes - size
  let report ← RequestM.ofService (Quota.enforce most)
  RequestM.count (·.setDiskBytes report.total)

/-- Answers an upload. -/
def answerUpload (parameters : Parameters) (request : Request) : RequestM Response := do
  match ← RequestM.attempt (receiveUpload parameters request) with
  | .error rejection =>
    RequestM.count (·.addFailedUpload)
    throw rejection
  | .ok size =>
    RequestM.count (·.addUpload size)
    let _ ← RequestM.attempt (houseKeep size)
    return .text .ok "Upload successful."

/-! ### Presence -/

/-- Whether there is a document of a path. A target or document that is not found does not
exist. -/
def hasDocument (target : Target) (path : String) : ServiceM Bool := do
  let found ← ServiceM.attempt do
    let database ← Service.openDatabase target
    return (← Service.source database).hasDocument path
  match found with
  | .ok found => return found
  | .error failure => if failure.isNotFound then return false else throw failure

/-- Whether there is data for a target, and, if a file is named, a document for it. -/
def isPresent (target : Target) (file : Option String) : ServiceM Bool := do
  if !(← getThe Service).hasData target then return false
  match file with
  | none | some "" => return true
  | some path => hasDocument target path

/-- Answers whether a target or a document of it is stored. -/
def answerPresence (parameters : Parameters) : RequestM Response := do
  let target ← RequestM.ofExcept (targetOf parameters)
  let found ← RequestM.ofService (isPresent target (parameters.get? "file"))
  return .json .ok (.bool found)

/-! ### Queries -/

/-- The body of a query. -/
structure QueryBody where
  path : String
  position : Position
  method : String
deriving Repr, DecidableEq, Inhabited

/-- The members of the body of a query. -/
def QueryBody.shape : Shape QueryBody where
  name := "struct QueryRequest"
  start := ⟨"", default, ""⟩
  fields :=
    [.needed "path" Decoder.string fun b path => { b with path },
     .needed "position" Position.decoder fun b position => { b with position },
     .needed "method" Decoder.string fun b method => { b with method }]

/-- The greatest size of the body of a query. -/
def bodyLimit : Nat := 2 * 1024 * 1024

/-- The octets of a body, unless they exceed the limit or break off. -/
def collect (body : Stream) : Except Response (List UInt8) :=
  let octets := body.portions.flatten
  if bodyLimit < octets.length then
    .error (.text .contentTooLarge "Failed to buffer the request body: length limit exceeded")
  else
    match body.broken with
    | some reason => .error (.text .badRequest ("Failed to buffer the request body: " ++ reason))
    | none => .ok octets

/-- The response to a body that cannot be read. -/
def bodyRefusal (mismatch : Mismatch) : Response :=
  if mismatch.cause.isSyntax then
    .text .badRequest ("Failed to parse the request body as JSON: " ++ mismatch.message)
  else
    .text .unprocessable
      ("Failed to deserialize the JSON body into the target type: " ++ mismatch.message)

/-- The body of a request for a query. -/
def queryBody (request : Request) : Except Response QueryBody := do
  let media := (request.header? "content-type").bind Http.MediaType.ofText?
  if !media.any (·.isJson) then
    throw (.text .unsupportedMediaType
      "Expected request with \x60Content-Type: application/json\x60")
  let octets ← collect request.body
  ((Decoder.shape QueryBody.shape).parse octets).mapError bodyRefusal

/-- The database of a target that a query is for. -/
def queryDatabase (target : Target) : RequestM Database := do
  match ← RequestM.ofService (ServiceM.attempt (Service.openDatabase target)) with
  | .ok database => return database
  | .error failure => throw (if failure.isNotFound then .noData target else .failure failure)

/-- The value that answers a query. -/
def queryValue (target : Target) (method : QueryMethod) (body : QueryBody) : RequestM Value := do
  let database ← queryDatabase target
  RequestM.ofService (Query.answer database method body.path body.position)

/-- Answers a query and counts it; `elapsed` is how long that takes, in seconds. -/
def answerQuery (elapsed : Binary64) (parameters : Parameters) (body : QueryBody) :
    RequestM Response := do
  let target ← RequestM.ofExcept (targetOf parameters)
  let some method := QueryMethod.ofName? body.method | throw .unknownMethod
  let outcome ← RequestM.attempt (queryValue target method body)
  RequestM.count (·.observeQuery method outcome.toOption.isSome elapsed)
  match outcome with
  | .ok value => return .json .ok value
  | .error rejection => throw rejection

/-! ### Answers -/

/-- The text of the figures of a service. -/
def figures (service : Service) : Response :=
  let lines := service.metrics.lines service.databases.entries.stats service.documents.stats
  ⟨.ok, some "text/plain; version=0.0.4", String.join (lines.map (· ++ "\n"))⟩

/-- Answers a request for an endpoint. -/
def answer (elapsed : Binary64) (request : Request) : Endpoint → StateM Service Response
  | .ping => pure (.json .ok (.record [("pong", .string "pong")]))
  | .metrics => return figures (← get)
  | .upload => withParameters [targetNames] request fun parameters =>
    settle (answerUpload parameters request)
  | .presence => withParameters [["file"], targetNames] request fun parameters =>
    settle (answerPresence parameters)
  | .query => withParameters [targetNames] request fun parameters =>
    match queryBody request with
    | .ok body => settle (answerQuery elapsed parameters body)
    | .error response => pure response

end Endpoint

/-- Answers a request. Inquiries on what is allowed are always granted. -/
def Service.respond (elapsed : Binary64) (request : Request) : StateM Service Response :=
  if request.method == "OPTIONS" then pure (.empty .ok)
  else
    match Endpoint.ofPath? request.path with
    | none => pure (.empty .notFound)
    | some endpoint =>
      if !endpoint.accepts request.method then pure (.empty .methodNotAllowed)
      else if request.method == "HEAD" then
        return (← endpoint.answer elapsed request).headOnly
      else endpoint.answer elapsed request

end CodeNav
