/-
Module: CodeNav.Proofs.Service.Outcomes
Purpose: What look-ups come to, told once for calls in a row and for calls that take turns.
Main exports:
  Steps.Rules, Steps.Rules.presence, Steps.Rules.query, Steps.Rules.call,
  Uncached.answer_presence, Uncached.answer_query
-/
import CodeNav.Proofs.Service.Steps
import CodeNav.Proofs.Service.Uncached
import CodeNav.Proofs.Service.UpToDate

namespace CodeNav

open Stateful
open Http (Parameters Request Response)
open Json (Value)

/-- A way of telling what steps come to on a service that stores what `u` stores, by what is known of
some state while they are taken. -/
structure Steps.Rules [Gzip.Compressor] (u : Service) (σ : Type) where
  /-- From states with the first property, steps come to a result, and in states with the second
  one they are done. -/
  Comes : {α : Type} → (σ → Prop) → Steps α → Except Failure α → (σ → Prop) → Prop
  /-- No database is being used. -/
  Idle : σ → Prop
  /-- A database is being used that was opened for a target. -/
  Uses : Target → Database → σ → Prop
  idle : ∀ {target database s}, Uses target database s → Idle s
  done : ∀ {α : Type} {P : σ → Prop} (result : Except Failure α), Comes P (.done result) result P
  weaken : ∀ {α : Type} {P Q R S : σ → Prop} {c : Steps α} {result : Except Failure α},
    Comes P c result Q → (∀ s, R s → P s) → (∀ s, Q s → S s) → Comes R c result S
  bind : ∀ {α β : Type} {P Q R : σ → Prop} {c : Steps α} {f : α → Steps β}
    {result : Except Failure α} {g : α → Except Failure β}, Comes P c result Q →
      (∀ s, Q s → R s) → (∀ a, Comes Q (f a) (g a) R) → Comes P (c >>= f) (result >>= g) R
  attempt : ∀ {α : Type} {P Q : σ → Prop} {c : Steps α} {result : Except Failure α},
    Comes P c result Q → Comes P c.attempt (.ok result) Q
  hasData : ∀ target, Comes Idle (.only (.hasData target)) (.ok (u.hasData target)) Idle
  /-- Whoever opens a target gets its stored dump. -/
  opening : ∀ {α : Type} (target : Target) {f : Except Failure Database → Steps α}
    (g : Except Failure Source → Except Failure α),
      (∀ database, Comes (Uses target database) (f (.ok database))
        (g (.ok database.loaded.source)) Idle) →
      (∀ failure, Comes Idle (f (.error failure)) (g (.error failure)) Idle) →
      Comes Idle ((Steps.openDatabase target).attempt >>= f)
        (g ((Uncached.opened u target).mapError .shared)) Idle
  source : ∀ target database,
    Comes (Uses target database) (Steps.source database) (.ok database.loaded.source)
      (Uses target database)
  readDocument : ∀ target database path, Target.isCommit target.commit →
    Comes (Uses target database) (Steps.readDocument database path)
      (database.loaded.source.answer path) (Uses target database)
  packageIndex : Comes Idle Steps.packageIndex
    (match u.index with
    | .available index => .ok index
    | .broken failure => .error failure) Idle
  count : ∀ change, Comes Idle (.only (.count change)) (.ok ()) Idle

/-- If nothing can be opened, there is no data. -/
theorem Uncached.opened_error {u : Service} {target : Target} {failure : Failure}
    (none : opened u target = .error failure) : failure = .noData (u.basePath target) := by
  unfold opened Loaded.first at none
  rcases Loaded.firstOf_cases (u.basePath target) u.flags.enabled u.files with
    ⟨loaded, first, _⟩ | first
  · rw [first] at none
    cases none
  · rw [first] at none
    exact (Except.error.inj none).symm

/-- The definitions of a moniker by the provider that an index names for its package. -/
def Uncached.definitionsIn (u : Service) (package : PackageKey) (moniker : Moniker)
    (index : PackageIndex) : Except Failure (List Location) :=
  match index.provider? package with
  | none => .ok []
  | some target => do
    let source ← (opened u target).mapError .shared
    return addressed target .definitions moniker source

theorem Uncached.providedDefinitions_eq (u : Service) (package : PackageKey) (moniker : Moniker) :
    ((match u.index with
      | .available index => .ok index
      | .broken failure => .error failure) >>= definitionsIn u package moniker).toOption.getD [] =
      providedDefinitions u package moniker := by
  unfold providedDefinitions
  cases u.index with
  | broken failure => rfl
  | available index =>
      change (definitionsIn u package moniker index).toOption.getD [] =
        (index.provider? package).elim [] (remoteLocations u · .definitions moniker)
      unfold definitionsIn
      cases index.provider? package with
      | none => rfl
      | some target =>
          dsimp only [Option.elim_some]
          unfold remoteLocations
          cases opened u target <;> rfl

namespace Steps

variable {α β : Type}

/-- A failure may be handed out and taken back. -/
theorem attempt_bind (c : Steps α) (f : α → Steps β) :
    (c.attempt >>= fun outcome => ofExcept outcome >>= f) = c >>= f := by
  change c.attempt.bind (fun outcome => (ofExcept outcome).bind f) = c.bind f
  induction c with
  | done outcome => rfl
  | step operation next ih => exact congrArg (Steps.step operation) (funext ih)

namespace Rules

variable [Gzip.Compressor] {u : Service} {σ : Type} (rules : Rules u σ) {target : Target}
  {database : Database}

theorem pure {P : σ → Prop} (a : α) : rules.Comes P (Pure.pure a) (.ok a) P :=
  rules.done (.ok a)

theorem uses_idle {c : Steps α} {result : Except Failure α} (comes :
    rules.Comes (rules.Uses target database) c result (rules.Uses target database)) :
    rules.Comes (rules.Uses target database) c result rules.Idle :=
  rules.weaken comes (fun _ => id) fun _ => rules.idle

theorem idle_uses {c : Steps α} {result : Except Failure α}
    (comes : rules.Comes rules.Idle c result rules.Idle) :
    rules.Comes (rules.Uses target database) c result rules.Idle :=
  rules.weaken comes (fun _ => rules.idle) fun _ => id

/-! ### Parts of look-ups -/

theorem openDatabase {f : Database → Steps α} (g : Source → Except Failure α)
    (stored : ∀ database, rules.Comes (rules.Uses target database) (f database)
      (g database.loaded.source) rules.Idle) :
    rules.Comes rules.Idle (Steps.openDatabase target >>= f)
      ((Uncached.opened u target).mapError .shared >>= g) rules.Idle := by
  rw [← attempt_bind]
  exact rules.opening target (· >>= g) stored fun failure => rules.done (.error failure)

theorem monikerLocations (kind : RowKind) (scheme identifier : String) :
    rules.Comes (rules.Uses target database)
      (Steps.monikerLocations database kind scheme identifier)
      (.ok (database.loaded.source.locations kind scheme identifier))
      (rules.Uses target database) :=
  rules.bind (rules.source target database) (fun _ => id) fun _ => rules.pure _

/-- Whatever steps come to, what they find is passed on. -/
theorem orNothing {P Q : σ → Prop} {c : Steps (List α)} {result : Except Failure (List α)}
    (comes : rules.Comes P c result Q) :
    rules.Comes P (Steps.orNothing c) (.ok (result.toOption.getD [])) Q := by
  refine rules.bind (g := fun outcome => .ok (outcome.toOption.getD [])) (rules.attempt comes)
    (fun _ => id) fun outcome => ?_
  cases outcome with
  | ok found => exact rules.pure found
  | error failure => exact rules.pure []

theorem remoteLocations (target : Target) (kind : RowKind) (moniker : Moniker) :
    rules.Comes rules.Idle (Steps.remoteLocations target kind moniker)
      ((Uncached.opened u target).mapError .shared >>= fun source =>
        .ok (Uncached.addressed target kind moniker source)) rules.Idle :=
  rules.openDatabase _ fun _ =>
    rules.bind (rules.monikerLocations kind _ _) (fun _ => rules.idle) fun _ =>
      rules.idle_uses (rules.pure _)

theorem foundRemotely (target : Target) (kind : RowKind) (moniker : Moniker) :
    rules.Comes rules.Idle (Steps.orNothing (Steps.remoteLocations target kind moniker))
      (.ok (Uncached.remoteLocations u target kind moniker)) rules.Idle := by
  have found := rules.orNothing (rules.remoteLocations target kind moniker)
  unfold Uncached.remoteLocations
  cases is : Uncached.opened u target <;> rw [is] at found <;> exact found

theorem providedDefinitions (package : PackageKey) (moniker : Moniker) :
    rules.Comes rules.Idle (Steps.orNothing (Steps.providedDefinitions package moniker))
      (.ok (Uncached.providedDefinitions u package moniker)) rules.Idle := by
  rw [← Uncached.providedDefinitions_eq]
  refine rules.orNothing (rules.bind rules.packageIndex (fun _ => id) fun index => ?_)
  unfold Uncached.definitionsIn
  cases index.provider? package with
  | none => exact rules.pure []
  | some target => exact rules.remoteLocations target .definitions moniker

theorem usersOf (package : PackageKey) (moniker : Moniker) :
    rules.Comes rules.Idle (Steps.orNothing (Steps.usersOf package moniker))
      (.ok (Uncached.usersOf u package moniker)) rules.Idle := by
  have found := rules.orNothing (rules.bind rules.packageIndex (fun _ => id)
    fun index => rules.pure (index.users package moniker.identifier))
  unfold Uncached.usersOf
  cases is : u.index <;> rw [is] at found <;> exact found

theorem remoteDefinition (document : Document) (moniker : Moniker) :
    rules.Comes rules.Idle (Steps.remoteDefinition document moniker)
      (.ok (Uncached.remoteDefinition u document moniker)) rules.Idle := by
  unfold Steps.remoteDefinition Uncached.remoteDefinition
  cases Query.packageKey? document moniker with
  | none => exact rules.pure none
  | some package =>
      exact rules.bind (rules.providedDefinitions package moniker) (fun _ => id)
        fun found => rules.pure found.head?

theorem forTargets {find : Target → Steps (List Location)} {found : Target → List Location}
    (each : ∀ target, rules.Comes rules.Idle (find target) (.ok (found target)) rules.Idle)
    (targets : List Target) :
    rules.Comes rules.Idle (Steps.forTargets find targets) (.ok (targets.map found))
      rules.Idle := by
  induction targets with
  | nil => exact rules.pure []
  | cons target others ih =>
      exact rules.bind (each target) (fun _ => id) fun first =>
        rules.bind ih (fun _ => id) fun rest => rules.pure (first :: rest)

theorem remoteReferences (document : Document) (moniker : Moniker) :
    rules.Comes rules.Idle (Steps.remoteReferences document moniker)
      (.ok (Uncached.remoteReferences u document moniker)) rules.Idle := by
  unfold Steps.remoteReferences Uncached.remoteReferences
  cases Query.packageKey? document moniker with
  | none => exact rules.pure []
  | some package =>
      refine rules.bind (g := fun targets => .ok (targets.flatMap fun target =>
        Uncached.remoteLocations u target .references moniker))
        (rules.usersOf package moniker) (fun _ => id) fun targets => ?_
      exact rules.bind
        (rules.forTargets (fun target => rules.foundRemotely target .references moniker) targets)
        (fun _ => id) fun found => rules.pure found.flatten

/-! ### Queries -/

theorem monikerDefinitions (document : Document) (monikers : List Moniker) :
    rules.Comes (rules.Uses target database)
      (Steps.monikerDefinitions database document monikers)
      (.ok (Uncached.monikerDefinitions u database.loaded.source document monikers))
      rules.Idle := by
  induction monikers with
  | nil => exact rules.uses_idle (rules.pure none)
  | cons moniker others ih =>
      unfold Steps.monikerDefinitions Uncached.monikerDefinitions
      split
      · exact rules.bind (rules.idle_uses (rules.remoteDefinition document moniker)) (fun _ => id)
          fun found => rules.pure (found.map Definitions.one)
      · refine rules.bind (g := fun found => .ok (if found.isEmpty then
          Uncached.monikerDefinitions u database.loaded.source document others
          else some (.many found))) (rules.monikerLocations _ _ _) (fun _ => rules.idle)
          fun found => ?_
        split
        · exact ih
        · exact rules.uses_idle (rules.pure _)

theorem definitions (commit : Target.isCommit target.commit) (path : String)
    (position : Position) :
    rules.Comes (rules.Uses target database) (Steps.definitions database path position)
      (Uncached.definitions u database.loaded.source path position) rules.Idle := by
  refine rules.bind (rules.readDocument target database path commit) (fun _ => rules.idle)
    fun document => ?_
  cases document.findRange? position with
  | none => exact rules.uses_idle (rules.pure none)
  | some entry =>
      dsimp only [Option.bind_some]
      cases document.definition? entry.node with
      | some result => exact rules.uses_idle (rules.pure _)
      | none => exact rules.monikerDefinitions document _

theorem monikerReferences (monikers : List Moniker) :
    rules.Comes (rules.Uses target database) (Steps.monikerReferences database monikers)
      (.ok (Uncached.monikerReferences database.loaded.source monikers))
      (rules.Uses target database) := by
  induction monikers with
  | nil => exact rules.pure []
  | cons moniker others ih =>
      refine rules.bind (g := fun found => .ok (if found.isEmpty then
        Uncached.monikerReferences database.loaded.source others else found))
        (rules.monikerLocations _ _ _) (fun _ => id) fun found => ?_
      split
      · exact ih
      · exact rules.pure found

theorem localReferences (document : Document) (path : String) (entry : RangeEntry) :
    rules.Comes (rules.Uses target database)
      (Steps.localReferences database document path entry)
      (.ok (Uncached.localReferences database.loaded.source document path entry))
      (rules.Uses target database) := by
  unfold Steps.localReferences Uncached.localReferences
  cases document.reference? entry.node with
  | some result => exact rules.pure _
  | none => exact rules.monikerReferences _

theorem references (commit : Target.isCommit target.commit) (path : String)
    (position : Position) :
    rules.Comes (rules.Uses target database) (Steps.references database path position)
      (Uncached.references u database.loaded.source path position) rules.Idle := by
  refine rules.bind (rules.readDocument target database path commit) (fun _ => rules.idle)
    fun document => ?_
  cases document.findRange? position with
  | none => exact rules.uses_idle (rules.pure none)
  | some entry =>
      let exported := (document.findMonikers entry.node).find? (·.kind = .exported)
      refine rules.bind (g := fun found => .ok (some (found ++
        exported.elim [] (Uncached.remoteReferences u document))))
        (rules.localReferences document path entry) (fun _ => rules.idle) fun found => ?_
      dsimp only [exported]
      cases (document.findMonikers entry.node).find? (·.kind = .exported) with
      | none =>
          rw [Option.elim_none, List.append_nil]
          exact rules.uses_idle (rules.pure (some found))
      | some moniker =>
          exact rules.bind (rules.idle_uses (rules.remoteReferences document moniker))
            (fun _ => id) fun others => rules.pure (some (found ++ others))

theorem hover (commit : Target.isCommit target.commit) (path : String) (position : Position) :
    rules.Comes (rules.Uses target database) (Steps.hover database path position)
      (Uncached.hover database.loaded.source path position) rules.Idle :=
  rules.bind (rules.readDocument target database path commit) (fun _ => rules.idle)
    fun _ => rules.uses_idle (rules.pure _)

theorem answer (commit : Target.isCommit target.commit) (method : QueryMethod) (path : String)
    (position : Position) :
    rules.Comes (rules.Uses target database) (Steps.answer database method path position)
      (Uncached.answer u database.loaded.source method path position) rules.Idle := by
  cases method with
  | hover =>
      exact rules.bind (rules.hover commit path position) (fun _ => id) fun _ => rules.pure _
  | definitions =>
      exact rules.bind (rules.definitions commit path position) (fun _ => id) fun _ => rules.pure _
  | references =>
      exact rules.bind (rules.references commit path position) (fun _ => id) fun _ => rules.pure _

/-! ### Requests -/

theorem hasDocument (target : Target) (path : String) :
    rules.Comes rules.Idle (Steps.hasDocument target path) (Uncached.hasDocument u target path)
      rules.Idle := by
  have stored (database : Database) : rules.Comes (rules.Uses target database)
      (Steps.source database >>= fun source => Pure.pure (source.hasDocument path))
      (.ok (database.loaded.source.hasDocument path)) rules.Idle :=
    rules.bind (rules.source target database) (fun _ => rules.idle) fun _ =>
      rules.uses_idle (rules.pure _)
  have found : rules.Comes rules.Idle (Steps.hasDocument target path)
      (((Uncached.opened u target).mapError Failure.shared >>= fun source =>
        .ok (source.hasDocument path)).tryCatch fun failure =>
          if failure.isNotFound then .ok false else .error failure) rules.Idle := by
    refine rules.bind (g := fun outcome => outcome.tryCatch fun failure =>
      if failure.isNotFound then .ok false else .error failure) (rules.attempt
        (rules.openDatabase (fun source => .ok (source.hasDocument path)) stored))
      (fun _ => id) fun outcome => ?_
    cases outcome with
    | ok found => exact rules.pure found
    | error failure => exact rules.done _
  unfold Uncached.hasDocument
  cases opens : Uncached.opened u target with
  | ok source =>
      rw [opens] at found
      exact found
  | error failure =>
      rw [opens] at found
      rw [Uncached.opened_error opens] at found ⊢
      exact found

theorem isPresent (target : Target) (file : Option String) :
    rules.Comes rules.Idle (Steps.isPresent target file) (Uncached.isPresent u target file)
      rules.Idle := by
  have found : rules.Comes rules.Idle (Steps.isPresent target file)
      (.ok (u.hasData target) >>= fun found => if !found then .ok false else
        file.elim (.ok true) fun path =>
          if path = "" then .ok true else Uncached.hasDocument u target path) rules.Idle := by
    refine rules.bind (rules.hasData target) (fun _ => id) fun found => ?_
    cases found with
    | false => exact rules.pure false
    | true =>
        cases file with
        | none => exact rules.pure true
        | some path =>
            by_cases blank : path = ""
            · subst blank
              exact rules.pure true
            · simpa [blank] using rules.hasDocument target path
  have same : Uncached.isPresent u target file = (.ok (u.hasData target) >>= fun found =>
      if !found then .ok false else file.elim (.ok true) fun path =>
        if path = "" then .ok true else Uncached.hasDocument u target path) := by
    unfold Uncached.isPresent
    change _ = if !(u.hasData target) then _ else _
    cases file with
    | none => rfl
    | some path =>
        by_cases blank : path = ""
        · subst blank
          rfl
        · simp [blank]
  rw [same]
  exact found

theorem answerPresence (parameters : Parameters) :
    rules.Comes rules.Idle (Steps.answerPresence parameters)
      (.ok (Uncached.settle (Uncached.presenceOf u parameters))) rules.Idle := by
  unfold Steps.answerPresence Uncached.presenceOf
  cases Endpoint.targetOf parameters with
  | error failure => exact rules.pure _
  | ok target =>
      refine rules.bind (g := fun outcome => .ok (Uncached.settle
        ((outcome.mapError .failure).map fun found => .json .ok (.bool found))))
        (rules.attempt (rules.isPresent target (parameters.get? "file"))) (fun _ => id)
        fun outcome => ?_
      cases outcome <;> exact rules.pure _

theorem queryValue (commit : Target.isCommit target.commit) (method : QueryMethod)
    (body : Endpoint.QueryBody) :
    rules.Comes rules.Idle (Steps.queryValue target method body)
      (.ok (Uncached.queryValue u target method body)) rules.Idle := by
  have answered : rules.Comes rules.Idle (Steps.queryValue target method body)
      (.ok ((((Uncached.opened u target).mapError Failure.shared).mapError fun failure =>
          if failure.isNotFound then .noData target else Rejection.failure failure) >>= fun source =>
        (Uncached.answer u source method body.path body.position).mapError Rejection.failure))
      rules.Idle := by
    refine rules.opening target (fun outcome => .ok ((outcome.mapError fun failure =>
      if failure.isNotFound then .noData target else Rejection.failure failure) >>= fun source =>
        (Uncached.answer u source method body.path body.position).mapError Rejection.failure))
      (fun database => ?_) fun failure => ?_
    · exact rules.bind (rules.attempt (rules.answer commit method body.path body.position))
        (fun _ => id) fun outcome => rules.pure (outcome.mapError Rejection.failure)
    · exact rules.pure _
  unfold Uncached.queryValue
  cases opens : Uncached.opened u target with
  | ok source =>
      rw [opens] at answered
      exact answered
  | error failure =>
      rw [opens] at answered
      rw [Uncached.opened_error opens] at answered ⊢
      exact answered

theorem answerQuery (elapsed : Binary64) (parameters : Parameters)
    (body : Endpoint.QueryBody) :
    rules.Comes rules.Idle (Steps.answerQuery elapsed parameters body)
      (.ok (Uncached.settle (Uncached.queryOf u parameters body))) rules.Idle := by
  unfold Steps.answerQuery Uncached.queryOf
  cases named : Endpoint.targetOf parameters with
  | error failure => exact rules.pure _
  | ok target =>
      have commit : Target.isCommit target.commit := Target.isCommit_of_validate named
      dsimp only
      cases QueryMethod.ofName? body.method with
      | none => exact rules.pure _
      | some method =>
          refine rules.bind (g := fun outcome => .ok (Uncached.settle
            (outcome.map (Response.json .ok)))) (rules.queryValue commit method body)
            (fun _ => id) fun outcome => ?_
          refine rules.bind (g := fun _ => .ok (Uncached.settle
            (outcome.map (Response.json .ok)))) (rules.count _) (fun _ => id) fun _ => ?_
          cases outcome <;> exact rules.pure _

theorem presence (request : Request) :
    rules.Comes rules.Idle (Steps.presence request) (.ok (Uncached.presence u request))
      rules.Idle := by
  unfold Steps.presence Uncached.presence
  cases Parameters.ofQuery [["file"], Endpoint.targetNames] request.query with
  | error cause => exact rules.pure _
  | ok parameters => exact rules.answerPresence parameters

theorem query (elapsed : Binary64) (request : Request) :
    rules.Comes rules.Idle (Steps.query elapsed request) (.ok (Uncached.query u request))
      rules.Idle := by
  unfold Steps.query Uncached.query
  cases Parameters.ofQuery [Endpoint.targetNames] request.query with
  | error cause => exact rules.pure _
  | ok parameters =>
      dsimp only
      cases Endpoint.queryBody request with
      | error response => exact rules.pure _
      | ok body => exact rules.answerQuery elapsed parameters body

end Rules

end Steps

/-! ### Nobody in between -/

namespace Uncached

theorem yields_attempt {P Q : Service → Prop} {α : Type} {c : ServiceM α}
    {result : Except Failure α} (yields : Yields P Q c result) :
    Yields P Q (ServiceM.attempt c) (.ok result) := by
  intro s holds
  obtain ⟨same, after⟩ := yields s holds
  exact ⟨congrArg Except.ok same, after⟩

variable [Gzip.Compressor]

/-- With nobody in between, a database that is opened stays open while it is being used. -/
def alone (u : Service) : Steps.Rules u Service where
  Comes P c result Q := Yields P Q c.inRow result
  Idle := u.Reflects
  Uses := u.ReflectsOpen
  idle opened := opened.reflects
  done result := by
    cases result with
    | ok a => exact .pure a
    | error failure => exact .throw failure
  weaken yields stronger weaker := (yields.strengthen stronger).weaken weaker
  bind first weaker rest := by
    rw [Steps.inRow_bind]
    exact .bind first weaker fun a _ => rest a
  attempt yields := by
    rw [Steps.inRow_attempt]
    exact yields_attempt yields
  hasData target := by
    intro s reflects
    refine ⟨congrArg Except.ok ?_, reflects⟩
    unfold Service.hasData
    rw [reflects.flags, reflects.basePath, reflects.files.hasData]
  opening {α} target f g stored absent := by
    intro s reflects
    rw [Steps.inRow_bind, Steps.inRow_attempt, Steps.inRow_openDatabase]
    cases run : Service.openDatabase target s with
    | mk outcome t =>
        unfold opened
        rw [bind_ok (Steps.attempt_run run)]
        obtain ⟨after, ⟨database, rfl, isOpen, first⟩ | ⟨rfl, first⟩⟩ := reflects.openDatabase run
        · rw [first]
          exact stored database t ⟨after, isOpen⟩
        · rw [first]
          exact absent _ t after
  source target database := by
    rw [Steps.inRow_source]
    exact fun _ opened => opened.source rfl
  readDocument target database path commit := by
    rw [Steps.inRow_readDocument]
    exact fun _ opened => opened.readDocument commit rfl
  packageIndex := by
    intro s reflects
    rw [Steps.inRow_packageIndex]
    unfold ServiceM.packageIndex
    rw [bind_ok (get_run s), reflects.index]
    cases u.index <;> exact ⟨rfl, reflects⟩
  count change := fun s reflects => ⟨rfl, { reflects with upToDate := { reflects.upToDate with } }⟩

theorem answer_presence {u s : Service} (reflects : u.Reflects s) (elapsed : Binary64)
    (request : Request) :
    (Endpoint.presence.answer elapsed request s).1 = presence u request ∧
      u.Reflects (Endpoint.presence.answer elapsed request s).2 := by
  obtain ⟨same, after⟩ := (alone u).presence request s reflects
  rw [Steps.inRow_presence elapsed] at same after
  exact ⟨Except.ok.inj same, after⟩

theorem answer_query {u s : Service} (reflects : u.Reflects s) (elapsed : Binary64)
    (request : Request) :
    (Endpoint.query.answer elapsed request s).1 = query u request ∧
      u.Reflects (Endpoint.query.answer elapsed request s).2 := by
  obtain ⟨same, after⟩ := (alone u).query elapsed request s reflects
  rw [Steps.inRow_query] at same after
  exact ⟨Except.ok.inj same, after⟩

end Uncached

/-- A call comes to the response that is given when nobody comes in between. -/
theorem Steps.Rules.call [Gzip.Compressor] {u : Service} {σ : Type} (rules : Steps.Rules u σ)
    (reflects : u.Reflects u) {request : Request} (post : request.method = "POST")
    (lookup : Service.IsLookup request) (elapsed : Binary64) :
    rules.Comes rules.Idle (Steps.call elapsed request)
      (.ok (Service.respond elapsed request u).1) rules.Idle := by
  obtain ⟨endpoint, named, isLookup⟩ := lookup
  unfold Steps.call Service.respond
  rw [post, named]
  cases endpoint with
  | presence => exact (Uncached.answer_presence reflects elapsed request).1 ▸ rules.presence request
  | query => exact (Uncached.answer_query reflects elapsed request).1 ▸ rules.query elapsed request
  | ping => cases isLookup
  | metrics => cases isLookup
  | upload => cases isLookup

end CodeNav
