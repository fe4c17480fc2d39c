/-
Module: CodeNav.Proofs.Service.Lookups
Purpose: Look-ups and queries, seen through the few operations that they are made of.
Main exports:
  Service.Looks, Service.IsLookup, Service.replies, Service.replies_eq
-/
import CodeNav.Proofs.Stateful
import CodeNav.Service.Endpoint

namespace CodeNav

open Stateful
open Http (Request Response)

/-! ### Parts of computations -/

namespace Stateful.Related

variable {R : Service → Service → Prop} {ε α β : Type}

theorem attempt {c d : ServiceM α} (related : Related R c d) :
    Related R (ServiceM.attempt c) (ServiceM.attempt d) := by
  intro s t both
  obtain ⟨same, both⟩ := related s t both
  exact ⟨congrArg Except.ok same, both⟩

theorem ofExcept (result : Except Failure α) :
    Respects R (ServiceM.ofExcept result) := by
  cases result with
  | error failure => exact throw failure
  | ok value => exact pure value

theorem mapM {c : α → ServiceM β} (each : ∀ a, Respects R (c a)) (l : List α) :
    Respects R (l.mapM c) := by
  induction l with
  | nil => exact pure []
  | cons a rest ih =>
      rw [List.mapM_cons]
      exact bind (each a) fun b => bind ih fun bs => pure (b :: bs)

theorem ofService {c : ServiceM α} (related : Respects R c) :
    Respects R (RequestM.ofService c) := by
  intro s t both
  obtain ⟨same, both⟩ := related s t both
  exact ⟨congrArg (Except.mapError Rejection.failure) same, both⟩

theorem ofExceptRequest (result : Except Failure α) :
    Respects R (RequestM.ofExcept result) :=
  fun _ _ both => ⟨rfl, both⟩

theorem attemptRequest {c : RequestM α} (related : Respects R c) :
    Respects R (RequestM.attempt c) := by
  intro s t both
  obtain ⟨same, both⟩ := related s t both
  exact ⟨congrArg Except.ok same, both⟩

end Stateful.Related

/-- A relation between services that the operations behind look-ups and queries respect. -/
structure Service.Looks [Gzip.Compressor] (R : Service → Service → Prop) : Prop where
  hasData : ∀ s t, R s t → ∀ {target}, s.hasData target = t.hasData target
  openDatabase : ∀ target, Respects R (openDatabase target)
  source : ∀ database, Respects R (source database)
  readDocument : ∀ database path, Respects R (readDocument database path)
  packageIndex : Respects R ServiceM.packageIndex
  count : ∀ change, Respects R (RequestM.count change)

/-! ### Queries -/

namespace Query

open Service

variable {R : Service → Service → Prop}

theorem respects_orNothing {α : Type} {c : ServiceM (List α)} (related : Respects R c) :
    Respects R (orNothing c) := by
  refine Related.bind (.attempt related) fun result => ?_
  cases result with
  | ok found => exact Related.pure found
  | error _ => exact Related.pure []

section

variable [Gzip.Compressor] (looks : Looks R)
include looks

theorem respects_monikerLocations (database : Database) (kind : RowKind)
    (scheme identifier : String) :
    Respects R (Service.monikerLocations database kind scheme identifier) :=
  Related.bind (looks.source database) fun _ => Related.pure _

theorem respects_remoteLocations (target : Target) (kind : RowKind) (moniker : Moniker) :
    Respects R (remoteLocations target kind moniker) :=
  Related.bind (looks.openDatabase target) fun database =>
    Related.bind (respects_monikerLocations looks database _ _ _) fun _ => Related.pure _

theorem respects_providedDefinitions (package : PackageKey) (moniker : Moniker) :
    Respects R (providedDefinitions package moniker) := by
  refine Related.bind looks.packageIndex fun index => ?_
  cases index.provider? package with
  | none => exact Related.pure []
  | some target => exact respects_remoteLocations looks target _ moniker

theorem respects_remoteDefinition (document : Document) (moniker : Moniker) :
    Respects R (remoteDefinition document moniker) := by
  unfold remoteDefinition
  cases packageKey? document moniker with
  | none => exact Related.pure none
  | some package =>
      exact Related.bind (respects_orNothing (respects_providedDefinitions looks _ _))
        fun _ => Related.pure _

theorem respects_remoteReferences (document : Document) (moniker : Moniker) :
    Respects R (remoteReferences document moniker) := by
  unfold remoteReferences
  cases packageKey? document moniker with
  | none => exact Related.pure []
  | some package =>
      refine Related.bind (respects_orNothing ?_) fun targets => ?_
      · exact Related.bind looks.packageIndex fun _ => Related.pure _
      · exact Related.bind
          (.mapM (fun target => respects_orNothing (respects_remoteLocations looks target _ _)) _)
          fun _ => Related.pure _

theorem respects_monikerDefinitions (database : Database) (document : Document)
    (monikers : List Moniker) : Respects R (monikerDefinitions database document monikers) := by
  induction monikers with
  | nil => exact Related.pure none
  | cons moniker others ih =>
      unfold monikerDefinitions
      split
      · exact Related.bind (respects_remoteDefinition looks document moniker)
          fun _ => Related.pure _
      · refine Related.bind (respects_monikerLocations looks database _ _ _) fun found => ?_
        split
        · exact ih
        · exact Related.pure _

theorem respects_definitions (database : Database) (path : String) (position : Position) :
    Respects R (definitions database path position) := by
  refine Related.bind (looks.readDocument database path) fun document => ?_
  cases document.findRange? position with
  | none => exact Related.pure none
  | some entry =>
      dsimp only
      split
      · exact Related.pure _
      · exact respects_monikerDefinitions looks database document _

theorem respects_monikerReferences (database : Database) (monikers : List Moniker) :
    Respects R (monikerReferences database monikers) := by
  induction monikers with
  | nil => exact Related.pure []
  | cons moniker others ih =>
      refine Related.bind (respects_monikerLocations looks database _ _ _) fun found => ?_
      split
      · exact ih
      · exact Related.pure found

theorem respects_localReferences (database : Database) (document : Document) (path : String)
    (entry : RangeEntry) : Respects R (localReferences database document path entry) := by
  unfold localReferences
  split
  · exact Related.pure _
  · exact respects_monikerReferences looks database _

theorem respects_references (database : Database) (path : String) (position : Position) :
    Respects R (references database path position) := by
  refine Related.bind (looks.readDocument database path) fun document => ?_
  cases document.findRange? position with
  | none => exact Related.pure none
  | some entry =>
      refine Related.bind (respects_localReferences looks database document path entry)
        fun found => ?_
      dsimp only
      split
      · exact Related.pure _
      · exact Related.bind (respects_remoteReferences looks document _) fun _ => Related.pure _

theorem respects_hover (database : Database) (path : String) (position : Position) :
    Respects R (hover database path position) :=
  Related.bind (looks.readDocument database path) fun _ => Related.pure _

theorem respects_answer (database : Database) (method : QueryMethod) (path : String)
    (position : Position) : Respects R (answer database method path position) := by
  cases method with
  | hover =>
      exact Related.bind (respects_hover looks database path position) fun _ => Related.pure _
  | definitions =>
      exact Related.bind (respects_definitions looks database path position) fun _ => Related.pure _
  | references =>
      exact Related.bind (respects_references looks database path position) fun _ => Related.pure _

end

end Query

/-! ### Requests -/

namespace Endpoint

variable {R : Service → Service → Prop}

/-- A computation answers alike on related services, and leaves them related. -/
def AnswersAlike (R : Service → Service → Prop) (computation : StateM Service Response) : Prop :=
  ∀ s t, R s t → (computation s).1 = (computation t).1 ∧ R (computation s).2 (computation t).2

theorem answersAlike_pure (response : Response) : AnswersAlike R (pure response) :=
  fun _ _ both => ⟨rfl, both⟩

theorem answersAlike_settle {computation : RequestM Response}
    (related : Respects R computation) : AnswersAlike R (settle computation) := by
  intro s t both
  obtain ⟨same, both⟩ := related s t both
  unfold settle
  generalize computation s = left at same both ⊢
  generalize computation t = right at same both ⊢
  obtain ⟨result, s⟩ := left
  obtain ⟨other, t⟩ := right
  cases same
  cases result <;> exact ⟨rfl, both⟩

theorem answersAlike_withParameters (groups : List (List String)) (request : Request)
    {computation : Http.Parameters → StateM Service Response}
    (each : ∀ parameters, AnswersAlike R (computation parameters)) :
    AnswersAlike R (withParameters groups request computation) := by
  unfold withParameters
  split
  · exact each _
  · exact answersAlike_pure _

section

variable [Gzip.Compressor] (looks : Service.Looks R)
include looks

theorem respects_hasDocument (target : Target) (path : String) :
    Respects R (hasDocument target path) := by
  refine Related.bind (.attempt ?_) fun found => ?_
  · exact Related.bind (looks.openDatabase target) fun database =>
      Related.bind (looks.source database) fun _ => Related.pure _
  · cases found with
    | ok found => exact Related.pure found
    | error failure =>
        dsimp only
        split
        · exact Related.pure false
        · exact Related.throw failure

theorem respects_isPresent (target : Target) (file : Option String) :
    Respects R (isPresent target file) := by
  apply Related.get_bind
  intro s t both
  rw [looks.hasData s t both]
  split
  · exact ⟨rfl, both⟩
  · split
    · exact ⟨rfl, both⟩
    · exact ⟨rfl, both⟩
    · exact respects_hasDocument looks target _ s t both

theorem respects_answerPresence (parameters : Http.Parameters) :
    Respects R (answerPresence parameters) :=
  Related.bind (.ofExceptRequest _) fun target =>
    Related.bind (.ofService (respects_isPresent looks target _)) fun _ => Related.pure _

theorem respects_queryDatabase (target : Target) : Respects R (queryDatabase target) := by
  refine Related.bind
    (.ofService (.attempt (looks.openDatabase target))) fun result => ?_
  cases result with
  | ok database => exact Related.pure database
  | error failure => exact Related.throw _

theorem respects_queryValue (target : Target) (method : QueryMethod) (body : QueryBody) :
    Respects R (queryValue target method body) :=
  Related.bind (respects_queryDatabase looks target) fun database =>
    .ofService (Query.respects_answer looks database method body.path body.position)

theorem respects_answerQuery (elapsed : Binary64) (parameters : Http.Parameters)
    (body : QueryBody) : Respects R (answerQuery elapsed parameters body) := by
  refine Related.bind (.ofExceptRequest _) fun target => ?_
  cases QueryMethod.ofName? body.method with
  | none => exact Related.throw _
  | some method =>
      refine Related.bind (.attemptRequest (respects_queryValue looks target method body))
        fun outcome => ?_
      refine Related.bind (looks.count _) fun _ => ?_
      cases outcome with
      | ok value => exact Related.pure _
      | error rejection => exact Related.throw rejection

/-- What looks something up: whether it is there, or what is known of it. -/
def isLookup : Endpoint → Bool
  | .presence | .query => true
  | .ping | .metrics | .upload => false

theorem answersAlike_answer (elapsed : Binary64) (request : Request) {endpoint : Endpoint}
    (lookup : endpoint.isLookup) : AnswersAlike R (endpoint.answer elapsed request) := by
  cases endpoint with
  | ping => cases lookup
  | metrics => cases lookup
  | upload => cases lookup
  | presence =>
      exact answersAlike_withParameters _ _ fun parameters =>
        answersAlike_settle (respects_answerPresence looks parameters)
  | query =>
      refine answersAlike_withParameters _ _ fun parameters => ?_
      split
      · exact answersAlike_settle (respects_answerQuery looks elapsed parameters _)
      · exact answersAlike_pure _

end

end Endpoint

namespace Service

/-- A request that asks whether something is stored, or what is known of it. -/
def IsLookup (request : Request) : Prop :=
  ∃ endpoint, Endpoint.ofPath? request.path = some endpoint ∧ endpoint.isLookup

variable [Gzip.Compressor]

section

variable {R : Service → Service → Prop} (looks : Looks R)
include looks

theorem answersAlike_respond (elapsed : Binary64) {request : Request}
    (lookup : IsLookup request) : Endpoint.AnswersAlike R (respond elapsed request) := by
  obtain ⟨endpoint, named, isLookup⟩ := lookup
  have answered := Endpoint.answersAlike_answer looks elapsed request isLookup
  unfold respond
  rw [named]
  dsimp only
  split
  · exact Endpoint.answersAlike_pure _
  · split
    · exact Endpoint.answersAlike_pure _
    · split
      · intro s t both
        obtain ⟨same, both⟩ := answered s t both
        exact ⟨congrArg Response.headOnly same, both⟩
      · exact answered

end

/-- The replies to some requests, one after the other. -/
def replies : List (Binary64 × Request) → Service → List Response
  | [], _ => []
  | (elapsed, request) :: rest, service =>
    let (response, service) := respond elapsed request service
    response :: replies rest service

/-- Related services give the same replies to all look-ups. -/
theorem replies_eq {R : Service → Service → Prop} (looks : Looks R) {s t : Service}
    (both : R s t) {requests : List (Binary64 × Request)}
    (lookups : ∀ request ∈ requests, IsLookup request.2) :
    replies requests s = replies requests t := by
  induction requests generalizing s t with
  | nil => rfl
  | cons request rest ih =>
      obtain ⟨elapsed, request⟩ := request
      have lookup := lookups (elapsed, request) List.mem_cons_self
      obtain ⟨same, next⟩ := answersAlike_respond looks elapsed lookup s t both
      have later := ih next fun other member => lookups other (List.mem_cons_of_mem _ member)
      calc
        replies ((elapsed, request) :: rest) s =
            (respond elapsed request s).1 :: replies rest (respond elapsed request s).2 :=
          rfl
        _ = (respond elapsed request t).1 :: replies rest (respond elapsed request t).2 := by
          rw [same, later]
        _ = replies ((elapsed, request) :: rest) t := rfl

end Service

end CodeNav
