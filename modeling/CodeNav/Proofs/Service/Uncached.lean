/-
Module: CodeNav.Proofs.Service.Uncached
Purpose: A service that keeps nothing in memory.
Main exports:
  Uncached.opened, Uncached.presence, Uncached.query, Uncached.respond, Uncached.replies
-/
import CodeNav.Proofs.Service.Invalidation

namespace CodeNav

open Stateful
open Http (Parameters Request Response)
open Json (Value)

variable [Gzip.Compressor]

namespace Uncached

/-!
Everything is opened and decoded anew from the stored files whenever it is needed, and nothing is
kept.  A look-up then is a function of the state, which it leaves as it was.
-/

/-! ### Queries -/

/-- The stored dump of a target. -/
def opened (s : Service) (target : Target) : Except Failure Source :=
  (Loaded.first s.flags (s.basePath target) s.files).1.map (·.source)

/-- The locations recorded for a moniker in the dump of a target, addressed from outside. -/
def addressed (target : Target) (kind : RowKind) (moniker : Moniker) (source : Source) :
    List Location :=
  (source.locations kind moniker.scheme (Identifier.blankSecond moniker.identifier)).map
    fun l => .remote target.repository target.commit l.uri l.range

/-- The locations recorded for a moniker in the dump of another target, if there is one. -/
def remoteLocations (s : Service) (target : Target) (kind : RowKind) (moniker : Moniker) :
    List Location :=
  ((opened s target).toOption.map (addressed target kind moniker)).getD []

/-- The definitions of a moniker by the provider of its package. -/
def providedDefinitions (s : Service) (package : PackageKey) (moniker : Moniker) : List Location :=
  match s.index with
  | .available index =>
    (index.provider? package).elim [] (remoteLocations s · .definitions moniker)
  | .broken _ => []

/-- The users of an identifier of a package. -/
def usersOf (s : Service) (package : PackageKey) (moniker : Moniker) : List Target :=
  match s.index with
  | .available index => index.users package moniker.identifier
  | .broken _ => []

/-- The first definition of a moniker by the provider of its package. -/
def remoteDefinition (s : Service) (document : Document) (moniker : Moniker) : Option Location := do
  let package ← Query.packageKey? document moniker
  (providedDefinitions s package moniker).head?

/-- The references to a moniker by the users of its package. -/
def remoteReferences (s : Service) (document : Document) (moniker : Moniker) : List Location :=
  match Query.packageKey? document moniker with
  | none => []
  | some package =>
    (usersOf s package moniker).flatMap fun target => remoteLocations s target .references moniker

/-- The definitions of the first moniker that leads anywhere. -/
def monikerDefinitions (s : Service) (source : Source) (document : Document) :
    List Moniker → Option Definitions
  | [] => none
  | moniker :: others =>
    if moniker.kind = .imported then (remoteDefinition s document moniker).map .one
    else
      let found := source.locations .definitions moniker.scheme moniker.identifier
      if found.isEmpty then monikerDefinitions s source document others else some (.many found)

/-- Where the symbol at a position is defined. -/
def definitions (s : Service) (source : Source) (path : String) (position : Position) :
    Except Failure (Option Definitions) := do
  let document ← source.answer path
  return (document.findRange? position).bind fun entry =>
    match document.definition? entry.node with
    | some result => some (.many (document.locations path result.values))
    | none => monikerDefinitions s source document (document.findMonikers entry.node)

/-- The references of the first moniker that has any in its own dump. -/
def monikerReferences (source : Source) : List Moniker → List Location
  | [] => []
  | moniker :: others =>
    let found := source.locations .references moniker.scheme moniker.identifier
    if found.isEmpty then monikerReferences source others else found

/-- The references to a symbol in its own dump. -/
def localReferences (source : Source) (document : Document) (path : String) (entry : RangeEntry) :
    List Location :=
  match document.reference? entry.node with
  | some result =>
    document.locations path result.definitions ++ document.locations path result.references
  | none => monikerReferences source (document.findMonikers entry.node)

/-- Where the symbol at a position is referred to. -/
def references (s : Service) (source : Source) (path : String) (position : Position) :
    Except Failure (Option (List Location)) := do
  let document ← source.answer path
  return (document.findRange? position).map fun entry =>
    localReferences source document path entry ++
      ((document.findMonikers entry.node).find? (·.kind = .exported)).elim []
        (remoteReferences s document)

/-- What is shown for the symbol at a position. -/
def hover (source : Source) (path : String) (position : Position) :
    Except Failure (Option Hover) := do
  let document ← source.answer path
  return (document.findRange? position).bind fun entry => document.hover? entry.node

/-- The answer to a query of a kind. -/
def answer (s : Service) (source : Source) (method : QueryMethod) (path : String)
    (position : Position) : Except Failure Value :=
  match method with
  | .hover => return Query.valueOf Hover.toValue (← hover source path position)
  | .definitions =>
    return Query.valueOf Definitions.toValue (← definitions s source path position)
  | .references => return Query.valueOf Query.locationsValue (← references s source path position)

/-! ### Requests -/

/-- The response that a result leads to. -/
def settle : Except Rejection Response → Response
  | .ok response => response
  | .error rejection => rejection.response

/-- Whether there is a document of a path in the dump of a target. -/
def hasDocument (s : Service) (target : Target) (path : String) : Except Failure Bool :=
  match opened s target with
  | .ok source => .ok (source.hasDocument path)
  | .error failure => if failure.isNotFound then .ok false else .error failure

/-- Whether there is data for a target, and, if a file is named, a document for it. -/
def isPresent (s : Service) (target : Target) (file : Option String) : Except Failure Bool :=
  if !s.hasData target then .ok false
  else
    match file with
    | none | some "" => .ok true
    | some path => hasDocument s target path

/-- The answer whether a target or a document of it is stored. -/
def presenceOf (s : Service) (parameters : Parameters) : Except Rejection Response := do
  let target ← (Endpoint.targetOf parameters).mapError .failure
  let found ← (isPresent s target (parameters.get? "file")).mapError .failure
  return .json .ok (.bool found)

/-- The response to a request that asks whether something is stored. -/
def presence (s : Service) (request : Request) : Response :=
  match Parameters.ofQuery [["file"], Endpoint.targetNames] request.query with
  | .ok parameters => settle (presenceOf s parameters)
  | .error cause => Parameters.refusal cause

/-- The value that answers a query. -/
def queryValue (s : Service) (target : Target) (method : QueryMethod) (body : Endpoint.QueryBody) :
    Except Rejection Value :=
  match opened s target with
  | .ok source => (answer s source method body.path body.position).mapError .failure
  | .error failure => .error (if failure.isNotFound then .noData target else .failure failure)

/-- The answer to a query. -/
def queryOf (s : Service) (parameters : Parameters) (body : Endpoint.QueryBody) :
    Except Rejection Response := do
  let target ← (Endpoint.targetOf parameters).mapError .failure
  match QueryMethod.ofName? body.method with
  | none => throw .unknownMethod
  | some method => return .json .ok (← queryValue s target method body)

/-- The response to a request for a query. -/
def query (s : Service) (request : Request) : Response :=
  match Parameters.ofQuery [Endpoint.targetNames] request.query with
  | .ok parameters =>
    match Endpoint.queryBody request with
    | .ok body => settle (queryOf s parameters body)
    | .error response => response
  | .error cause => Parameters.refusal cause

/-- Answers a request. What looks nothing up is answered as ever; it opens nothing. -/
def respond (elapsed : Binary64) (request : Request) : StateM Service Response := fun s =>
  match request.method, Endpoint.ofPath? request.path with
  | "POST", some .presence => (presence s request, s)
  | "POST", some .query => (query s request, s)
  | _, _ => Service.respond elapsed request s

/-- The replies to some requests, one after the other. -/
def replies : List (Binary64 × Request) → Service → List Response
  | [], _ => []
  | (elapsed, request) :: rest, s =>
    let (response, s) := respond elapsed request s
    response :: replies rest s

end Uncached

end CodeNav
