/-
Module: CodeNav.Http.Message
Purpose: Requests as they arrive and responses as they leave.
Main exports:
  Http.Status, Http.Stream, Http.Request, Http.Response
-/
import CodeNav.Json.Printer

namespace CodeNav.Http

/-- The outcomes of a request. -/
inductive Status where
  | ok
  | badRequest
  | notFound
  | methodNotAllowed
  | contentTooLarge
  | unsupportedMediaType
  | unprocessable
  | serverError
deriving Repr, DecidableEq, Inhabited

/-- The number of an outcome. -/
def Status.code : Status → Nat
  | ok => 200
  | badRequest => 400
  | notFound => 404
  | methodNotAllowed => 405
  | contentTooLarge => 413
  | unsupportedMediaType => 415
  | unprocessable => 422
  | serverError => 500

/-- The body of a request: the portions in which it arrives, and why it breaks off after them, if
it does. -/
structure Stream where
  portions : List (List UInt8)
  broken : Option String
deriving Repr, DecidableEq, Inhabited

/-- A request. -/
structure Request where
  method : String
  path : String
  query : String
  headers : List (String × String)
  body : Stream
deriving Repr, DecidableEq, Inhabited

namespace Request

/-- The address of a request without the fragment, which is not for the server. -/
def withoutFragment (address : List Char) : List Char :=
  address.takeWhile (· != '#')

/-- What follows the host of an address, if it names one. -/
def withoutHost (address : List Char) : List Char :=
  match address.dropWhile fun c => c != ':' && c != '/' && c != '?' with
  | ':' :: '/' :: '/' :: rest =>
    match rest.dropWhile fun c => c != '/' && c != '?' with
    | '/' :: path => '/' :: path
    | query => '/' :: query
  | _ => address

/-- The request for an address, which holds a path and after a question mark the query. -/
def ofAddress (method address : String) (headers : List (String × String)) (body : Stream) :
    Request :=
  let sent := withoutHost (withoutFragment address.toList)
  { method, headers, body
    path := String.ofList (sent.takeWhile (· != '?'))
    query := String.ofList ((sent.dropWhile (· != '?')).drop 1) }

/-- The first value of a header. The case of letters in names does not count. -/
def header? (request : Request) (name : String) : Option String :=
  (request.headers.find? fun (n, _) => n.toLower == name.toLower).map (·.2)

end Request

/-- A response. -/
structure Response where
  status : Status
  /-- The media type of the body. -/
  type : Option String
  body : String
deriving Repr, DecidableEq, Inhabited

namespace Response

/-- A response without content. -/
def empty (status : Status) : Response :=
  ⟨status, none, ""⟩

/-- A response that holds a value. -/
def json (status : Status) (value : Json.Value) : Response :=
  ⟨status, some "application/json", value.render⟩

/-- A response that holds a text. -/
def text (status : Status) (text : String) : Response :=
  ⟨status, some "text/plain; charset=utf-8", text⟩

/-- The response with its body left out, as for a request of the head alone. -/
def headOnly (response : Response) : Response :=
  { response with body := "" }

end Response

end CodeNav.Http
