/-
Module: CodeNav.Proofs.Service.Steps
Purpose: Look-ups in the steps between which other calls may take turns.
Main exports:
  Operation, Steps, Steps.inRow, Steps.call, Steps.inRow_call
-/
import CodeNav.Proofs.Service.Lookups
import CodeNav.Proofs.Service.Races

namespace CodeNav

open Stateful
open Http (Parameters Request Response)
open Json (Value)

/-! ### Operations -/

/-- What a call does in one step. -/
inductive Operation : Type → Type where
  /-- Asks whether anything is stored for a target. -/
  | hasData (target : Target) : Operation Bool
  /-- Looks a target up among the open databases. -/
  | lookUp (target : Target) : Operation (Option Nat)
  /-- Weighs the stored dump of a target. -/
  | weigh (target : Target) : Operation Nat
  /-- Puts a load for a target in the cache unless there is one by now. -/
  | insert (target : Target) (weight : Nat) : Operation Nat
  /-- Waits for a load to be finished. -/
  | settle (target : Target) (number : Nat) : Operation (Except Failure Database)
  /-- Looks a document up in the cache. -/
  | cached (key : String) : Operation (Option Document)
  /-- Reads from a database. -/
  | read (database : Database) : Operation (Except Failure Source)
  /-- Puts a document in the cache. -/
  | keep (key : String) (document : Document) : Operation Unit
  /-- Asks for the index of packages. -/
  | packages : Operation (Except Failure PackageIndex)
  | count (change : Metrics → Metrics) : Operation Unit

namespace Operation

variable {β : Type}

/-- Starts a load that is going to give up some turns, unless there is one by now. The result is
its number, and the loads that are pushed out. -/
def insertLoad (patience : Nat) (target : Target) (weight : Nat) (s : Service) :
    Nat × List Nat × Service :=
  let (outcome, s) := Service.loadDatabase target s
  let (number, pushedOut, databases) :=
    s.databases.register target.key weight ⟨patience, outcome⟩
  (number, pushedOut, { s with databases })

/-- What a load comes to, once it is finished. -/
def settleLoad (target : Target) (number : Nat) (s : Service) :
    Option (Except Failure Database) × Service :=
  let (progress, databases) := s.databases.pollLoad target.key number
  (Resident.result? progress, { s with databases })

/-- Carries an operation out; a load that it starts is going to give up some turns. The result
holds what the operation comes to, if it need not wait any longer, and the loads that are to be
disposed of because they were pushed out of the cache. -/
def run (patience : Nat) : Operation β → Service → Option β × List Nat × Service
  | hasData target, s => (some (s.hasData target), [], s)
  | lookUp target, s =>
    let (found, databases) := s.databases.lookup target.key
    (some found, [], { s with databases })
  | weigh target, s => (some (s.files.dumpWeight (s.basePath target) s.sizes), [], s)
  | insert target weight, s =>
    let (number, pushedOut, s) := insertLoad patience target weight s
    (some number, pushedOut, s)
  | settle target number, s =>
    let (outcome, s) := settleLoad target number s
    (outcome, [], s)
  | cached key, s => (some (s.documents.peek? key), [], Reader.looked s key)
  | read database, s =>
    let (result, s) := Service.source database s
    (some result, [], s)
  | keep key document, s => (some (), [], Reader.withDocument s key document)
  | packages, s =>
    let (result, s) := ServiceM.packageIndex s
    (some result, [], s)
  | count change, s => (some (), [], { s with metrics := change s.metrics })

/-- A service that has closed the databases of some loads. -/
def closing (loads : List Nat) (s : Service) : Service :=
  { s with closed := (s.databases.disposable loads).map (·.handle) ++ s.closed }

/-- An operation when nobody else takes a turn: no load has to be waited for, and what is pushed out
is closed at once. -/
def alone : Operation β → ServiceM β
  | insert target weight => fun s =>
    let (number, pushedOut, s) := insertLoad 0 target weight s
    (.ok number, closing pushedOut s)
  | settle target number => fun s =>
    let (outcome, s) := settleLoad target number s
    (.ok (outcome.getD (.error (.noData target.key))), s)
  | hasData target => fun s => (.ok (s.hasData target), s)
  | lookUp target => Service.onDatabases (·.lookup target.key)
  | weigh target => fun s => (.ok (s.files.dumpWeight (s.basePath target) s.sizes), s)
  | cached key => Reader.lookUp key
  | read database => ServiceM.attempt (Service.source database)
  | keep key document => Service.cacheDocument key document
  | packages => ServiceM.attempt ServiceM.packageIndex
  | count change => fun s => (.ok (), { s with metrics := change s.metrics })

/-- What starting a load may come to: there is one for the key, or a new one is put in the cache. -/
inductive Inserted (patience : Nat) (target : Target) (weight : Nat) (s : Service) :
    Nat × List Nat × Service → Prop where
  | known {e : Weighted String Nat} (found : s.databases.entries.find? target.key = some e) :
      Inserted patience target weight s (e.value, [],
        { s with files := (Loaded.first s.flags (s.basePath target) s.files).2 })
  | new (absent : s.databases.entries.find? target.key = none) :
      Inserted patience target weight s (s.databases.loads.size,
        (s.databases.entries.insert target.key s.databases.loads.size weight).1.map (·.2),
        { s with
          files := (Loaded.first s.flags (s.basePath target) s.files).2
          databases :=
            ⟨(s.databases.entries.insert target.key s.databases.loads.size weight).2,
              s.databases.loads.push ⟨patience,
                (Loaded.first s.flags (s.basePath target) s.files).1.map fun loaded =>
                  ⟨s.databases.loads.size, target, loaded⟩⟩⟩ })

theorem insertLoad_inserted (patience : Nat) (target : Target) (weight : Nat) (s : Service) :
    Inserted patience target weight s (insertLoad patience target weight s) := by
  unfold insertLoad
  rw [Service.loadDatabase_run]
  dsimp only
  unfold Resident.register WeightedCache.peek?
  cases found : s.databases.entries.find? target.key with
  | some e => exact .known found
  | none => exact .new found

/-- What waiting for a load may come to: the load gets on, or it is finished, and leaves the cache
if it has failed. -/
inductive Settled (number : Nat) (s : Service) : Option (Except Failure Database) × Service → Prop
    where
  | unknown (absent : s.databases.loads[number]? = none) : Settled number s (none, s)
  | busy {turns : Nat} {outcome : Except Failure Database}
      (found : s.databases.loads[number]? = some ⟨turns + 1, outcome⟩) :
      Settled number s (none, { s with databases :=
        { s.databases with loads := s.databases.loads.setIfInBounds number ⟨turns, outcome⟩ } })
  | opened {database : Database} (found : s.databases.loads[number]? = some ⟨0, .ok database⟩) :
      Settled number s (some (.ok database), s)
  | failed {failure : Failure} {entries : WeightedCache String Nat}
      (found : s.databases.loads[number]? = some ⟨0, .error failure⟩)
      (fewer : ∀ e ∈ entries.entries, e ∈ s.databases.entries.entries)
      (evictions : entries.evictions = s.databases.entries.evictions) :
      Settled number s (some (.error (.shared failure)),
        { s with databases := { s.databases with entries } })

theorem settleLoad_settled (target : Target) (number : Nat) (s : Service) :
    Settled number s (settleLoad target number s) := by
  unfold settleLoad Resident.pollLoad
  cases found : s.databases.loads[number]? with
  | none => exact .unknown found
  | some load =>
      obtain ⟨turns, outcome⟩ := load
      cases turns with
      | succ turns => exact .busy found
      | zero =>
          cases outcome with
          | ok database => exact .opened found
          | error failure =>
              simp only [Resident.finish, Resident.dropFailed]
              split
              · refine .failed found (fun e listed => (WeightedCache.mem_remove.mp listed).1) ?_
                unfold WeightedCache.remove
                split <;> rfl
              · exact .failed found (fun _ => id) rfl

/-- No operation fails: what may be refused is a result. -/
theorem alone_ok (operation : Operation β) (s : Service) :
    ∃ result t, operation.alone s = (.ok result, t) := by
  cases operation <;> exact ⟨_, _, rfl⟩

end Operation

/-! ### Calls in steps -/

/-- A computation in steps: what it comes to, or its next operation and how it goes on. -/
inductive Steps (α : Type) : Type 1 where
  | done (outcome : Except Failure α)
  | step {β : Type} (operation : Operation β) (next : β → Steps α)

namespace Steps

variable {α β : Type}

/-- Goes on from what the first part comes to, unless that is a failure. -/
def bind (f : α → Steps β) : Steps α → Steps β
  | done (.ok a) => f a
  | done (.error failure) => done (.error failure)
  | step operation next => step operation fun result => (next result).bind f

instance : Monad Steps where
  pure a := done (.ok a)
  bind c f := c.bind f

/-- Hands out a failure. -/
def attempt : Steps α → Steps (Except Failure α)
  | done outcome => done (.ok outcome)
  | step operation next => step operation fun result => (next result).attempt

/-- A single operation. -/
def only (operation : Operation β) : Steps β :=
  step operation pure

/-- All steps in a row. -/
def inRow : Steps α → ServiceM α
  | done outcome => ServiceM.ofExcept outcome
  | step operation next => do inRow (next (← operation.alone))

@[simp]
theorem inRow_pure (a : α) : inRow (pure a) = pure a :=
  rfl

@[simp]
theorem inRow_bind (c : Steps α) (f : α → Steps β) :
    inRow (c >>= f) = inRow c >>= fun a => inRow (f a) := by
  change inRow (c.bind f) = _
  induction c with
  | done outcome => cases outcome <;> rfl
  | step operation next ih =>
      change (operation.alone >>= fun result => inRow ((next result).bind f)) =
        (operation.alone >>= fun result => inRow (next result)) >>= fun a => inRow (f a)
      rw [bind_assoc]
      exact congrArg _ (funext ih)

@[simp]
theorem inRow_attempt (c : Steps α) : inRow c.attempt = ServiceM.attempt (inRow c) := by
  induction c with
  | done outcome => cases outcome <;> rfl
  | step operation next ih =>
      have attempts : (fun result => inRow (next result).attempt) =
          fun result => ServiceM.attempt (inRow (next result)) := funext ih
      change (operation.alone >>= fun result => inRow (next result).attempt) =
        ServiceM.attempt (operation.alone >>= fun result => inRow (next result))
      rw [attempts]
      funext s
      obtain ⟨result, t, run⟩ := operation.alone_ok s
      rw [bind_ok run]
      unfold ServiceM.attempt
      rw [bind_ok run]

@[simp]
theorem inRow_only (operation : Operation β) : inRow (only operation) = operation.alone :=
  bind_pure _

/-- Passes a result on. -/
def ofExcept (result : Except Failure α) : Steps α :=
  done result

@[simp]
theorem inRow_ofExcept (result : Except Failure α) :
    inRow (ofExcept result) = ServiceM.ofExcept result :=
  rfl

/-! ### Databases and documents -/

/-- Waits for a load. -/
def settle (target : Target) (number : Nat) : Steps Database := do
  ofExcept (← only (.settle target number))

/-- Opens a target, on first use with a load of its own unless another call starts one first. -/
def openDatabase (target : Target) : Steps Database := do
  match ← only (.lookUp target) with
  | some number => settle target number
  | none =>
    let weight ← only (.weigh target)
    let number ← only (.insert target weight)
    settle target number

/-- Reads from a database. -/
def source (database : Database) : Steps Source := do
  ofExcept (← only (.read database))

/-- The document of a path. -/
def readDocument [Gzip.Compressor] (database : Database) (path : String) : Steps Document := do
  let key := Service.documentKey database.loaded.path path
  match ← only (.cached key) with
  | some document => return document
  | none =>
    let document ← ofExcept (Document.decode (← ofExcept ((← source database).document path)))
    only (.keep key document)
    return document

/-- The locations recorded for a moniker. -/
def monikerLocations (database : Database) (kind : RowKind) (scheme identifier : String) :
    Steps (List Location) := do
  return (← source database).locations kind scheme identifier

/-- The index of packages, if it can be used. -/
def packageIndex : Steps PackageIndex := do
  ofExcept (← only .packages)

/-! ### Queries -/

/-- What a computation finds, or nothing if it fails. -/
def orNothing (c : Steps (List α)) : Steps (List α) := do
  match ← c.attempt with
  | .ok found => return found
  | .error _ => return []

/-- The locations recorded for a moniker in the dump of another target, addressed from outside. -/
def remoteLocations (target : Target) (kind : RowKind) (moniker : Moniker) :
    Steps (List Location) := do
  let database ← openDatabase target
  let found ← monikerLocations database kind moniker.scheme
    (Identifier.blankSecond moniker.identifier)
  return found.map fun l => .remote target.repository target.commit l.uri l.range

/-- The definitions of a moniker by the provider of its package. -/
def providedDefinitions (package : PackageKey) (moniker : Moniker) : Steps (List Location) := do
  match (← packageIndex).provider? package with
  | none => return []
  | some target => remoteLocations target .definitions moniker

/-- The first definition of a moniker by the provider of its package. -/
def remoteDefinition (document : Document) (moniker : Moniker) : Steps (Option Location) := do
  match Query.packageKey? document moniker with
  | none => return none
  | some package => return (← orNothing (providedDefinitions package moniker)).head?

/-- The users of an identifier of a package. -/
def usersOf (package : PackageKey) (moniker : Moniker) : Steps (List Target) := do
  return (← packageIndex).users package moniker.identifier

/-- What is found for each of some targets. -/
def forTargets (find : Target → Steps (List Location)) : List Target → Steps (List (List Location))
  | [] => return []
  | target :: others => do
    let found ← find target
    return found :: (← forTargets find others)

/-- The references to a moniker by the users of its package. -/
def remoteReferences (document : Document) (moniker : Moniker) : Steps (List Location) := do
  match Query.packageKey? document moniker with
  | none => return []
  | some package =>
    let targets ← orNothing (usersOf package moniker)
    let found ← forTargets (fun target => orNothing (remoteLocations target .references moniker))
      targets
    return found.flatten

/-- The definitions of the first moniker that leads anywhere. -/
def monikerDefinitions (database : Database) (document : Document) :
    List Moniker → Steps (Option Definitions)
  | [] => return none
  | moniker :: others =>
    if moniker.kind = .imported then do
      return (← remoteDefinition document moniker).map .one
    else do
      let found ← monikerLocations database .definitions moniker.scheme moniker.identifier
      if found.isEmpty then monikerDefinitions database document others
      else return some (.many found)

/-- Where the symbol at a position is defined. -/
def definitions [Gzip.Compressor] (database : Database) (path : String) (position : Position) :
    Steps (Option Definitions) := do
  let document ← readDocument database path
  match document.findRange? position with
  | none => return none
  | some entry =>
    match document.definition? entry.node with
    | some result => return some (.many (document.locations path result.values))
    | none => monikerDefinitions database document (document.findMonikers entry.node)

/-- The references of the first moniker that has any in its own dump. -/
def monikerReferences (database : Database) : List Moniker → Steps (List Location)
  | [] => return []
  | moniker :: others => do
    let found ← monikerLocations database .references moniker.scheme moniker.identifier
    if found.isEmpty then monikerReferences database others else return found

/-- The references to a symbol in its own dump. -/
def localReferences (database : Database) (document : Document) (path : String)
    (entry : RangeEntry) : Steps (List Location) := do
  match document.reference? entry.node with
  | some result =>
    return document.locations path result.definitions
      ++ document.locations path result.references
  | none => monikerReferences database (document.findMonikers entry.node)

/-- Where the symbol at a position is referred to. -/
def references [Gzip.Compressor] (database : Database) (path : String) (position : Position) :
    Steps (Option (List Location)) := do
  let document ← readDocument database path
  match document.findRange? position with
  | none => return none
  | some entry =>
    let found ← localReferences database document path entry
    match (document.findMonikers entry.node).find? (·.kind = .exported) with
    | none => return some found
    | some moniker => return some (found ++ (← remoteReferences document moniker))

/-- What is shown for the symbol at a position. -/
def hover [Gzip.Compressor] (database : Database) (path : String) (position : Position) :
    Steps (Option Hover) := do
  let document ← readDocument database path
  return (document.findRange? position).bind fun entry => document.hover? entry.node

/-- The answer to a query of a kind. -/
def answer [Gzip.Compressor] (database : Database) (method : QueryMethod) (path : String)
    (position : Position) : Steps Value :=
  match method with
  | .hover => return Query.valueOf Hover.toValue (← hover database path position)
  | .definitions =>
    return Query.valueOf Definitions.toValue (← definitions database path position)
  | .references =>
    return Query.valueOf Query.locationsValue (← references database path position)

/-! ### Requests -/

/-- Whether there is a document of a path. -/
def hasDocument (target : Target) (path : String) : Steps Bool := do
  let opened : Steps Bool := do
    return (← source (← openDatabase target)).hasDocument path
  match ← opened.attempt with
  | .ok found => return found
  | .error failure => ofExcept (if failure.isNotFound then .ok false else .error failure)

/-- Whether there is data for a target, and, if a file is named, a document for it. -/
def isPresent (target : Target) (file : Option String) : Steps Bool := do
  if !(← only (.hasData target)) then return false
  match file with
  | none | some "" => return true
  | some path => hasDocument target path

/-- Answers whether a target or a document of it is stored. -/
def answerPresence (parameters : Parameters) : Steps Response :=
  match Endpoint.targetOf parameters with
  | .error failure => return (Rejection.failure failure).response
  | .ok target => do
    match ← (isPresent target (parameters.get? "file")).attempt with
    | .ok found => return .json .ok (.bool found)
    | .error failure => return (Rejection.failure failure).response

/-- The value that answers a query. -/
def queryValue [Gzip.Compressor] (target : Target) (method : QueryMethod)
    (body : Endpoint.QueryBody) : Steps (Except Rejection Value) := do
  match ← (openDatabase target).attempt with
  | .ok database =>
    let outcome ← (answer database method body.path body.position).attempt
    return outcome.mapError .failure
  | .error failure =>
    return .error (if failure.isNotFound then .noData target else .failure failure)

/-- Answers a query and counts it. -/
def answerQuery [Gzip.Compressor] (elapsed : Binary64) (parameters : Parameters)
    (body : Endpoint.QueryBody) : Steps Response :=
  match Endpoint.targetOf parameters with
  | .error failure => return (Rejection.failure failure).response
  | .ok target =>
    match QueryMethod.ofName? body.method with
    | none => return Rejection.unknownMethod.response
    | some method => do
      let outcome ← queryValue target method body
      only (.count (·.observeQuery method outcome.toOption.isSome elapsed))
      match outcome with
      | .ok value => return .json .ok value
      | .error rejection => return rejection.response

/-- Answers an inquiry whether something is stored. -/
def presence (request : Request) : Steps Response :=
  match Parameters.ofQuery [["file"], Endpoint.targetNames] request.query with
  | .ok parameters => answerPresence parameters
  | .error cause => return Parameters.refusal cause

/-- Answers a request for a query. -/
def query [Gzip.Compressor] (elapsed : Binary64) (request : Request) : Steps Response :=
  match Parameters.ofQuery [Endpoint.targetNames] request.query with
  | .ok parameters =>
    match Endpoint.queryBody request with
    | .ok body => answerQuery elapsed parameters body
    | .error response => return response
  | .error cause => return Parameters.refusal cause

/-! ### All steps in a row -/

theorem attempt_ofExcept (c : ServiceM α) : ServiceM.attempt c >>= ServiceM.ofExcept = c := by
  funext s
  rw [bind_run]
  unfold ServiceM.attempt
  generalize c s = run
  obtain ⟨outcome, t⟩ := run
  cases outcome <;> rfl

/-- Weighing and inserting start a load, and what it pushes out is closed. -/
theorem startLoad_alone (target : Target) :
    ((Operation.weigh target).alone >>= fun weight => (Operation.insert target weight).alone) =
      Service.startLoad target := by
  funext s
  have weighed : (Operation.weigh target).alone s =
      (.ok (s.files.dumpWeight (s.basePath target) s.sizes), s) := rfl
  rw [bind_ok weighed]
  cases loading : Service.loadDatabase target s with
  | mk outcome t =>
      have attempted : ServiceM.attempt (Service.loadDatabase target) s = (.ok outcome, t) := by
        unfold ServiceM.attempt
        rw [loading]
      unfold Service.startLoad
      rw [bind_ok (get_run s), bind_ok attempted, bind_ok (Service.onDatabases_run _ t)]
      change (match Operation.insertLoad 0 target _ s with
        | (number, pushedOut, s) => (Except.ok number, Operation.closing pushedOut s)) = _
      unfold Operation.insertLoad
      rw [loading]
      rfl

theorem settle_alone (target : Target) (number : Nat) :
    (Operation.settle target number).alone >>= ServiceM.ofExcept = (do
      match ← Service.onDatabases (·.pollLoad target.key number) with
      | .done result => ServiceM.ofExcept result
      | _ => throw (.noData target.key) : ServiceM Database) := by
  funext s
  rw [bind_ok (Service.onDatabases_run _ s)]
  change ((fun s => match Operation.settleLoad target number s with
    | (outcome, s) => (Except.ok (outcome.getD (.error (.noData target.key))), s)) >>=
      ServiceM.ofExcept) s = _
  unfold Operation.settleLoad
  rw [bind_run]
  generalize s.databases.pollLoad target.key number = polled
  obtain ⟨progress, databases⟩ := polled
  cases progress <;> rfl

@[simp]
theorem inRow_openDatabase (target : Target) :
    inRow (openDatabase target) = Service.openDatabase target := by
  have settles (number : Nat) : inRow (settle target number) = _ :=
    (inRow_bind _ _).trans (settle_alone target number)
  unfold openDatabase Service.openDatabase
  rw [inRow_bind, inRow_only]
  congr 1
  funext found
  cases found with
  | some number => exact settles number
  | none =>
      simp only [inRow_bind, inRow_only, settles]
      rw [← bind_assoc]
      exact congrArg (· >>= _) (startLoad_alone target)

@[simp]
theorem inRow_source (database : Database) :
    inRow (source database) = Service.source database := by
  unfold source
  rw [inRow_bind, inRow_only]
  exact attempt_ofExcept _

@[simp]
theorem inRow_packageIndex : inRow packageIndex = ServiceM.packageIndex := by
  unfold packageIndex
  rw [inRow_bind, inRow_only]
  exact attempt_ofExcept _

@[simp]
theorem inRow_readDocument [Gzip.Compressor] (database : Database) (path : String) :
    inRow (readDocument database path) = Service.readDocument database path := by
  funext s
  have recalled : (Operation.cached (Service.documentKey database.loaded.path path)).alone s =
      (.ok (s.documents.peek? (Service.documentKey database.loaded.path path)),
        Reader.looked s (Service.documentKey database.loaded.path path)) := by
    rw [← WeightedCache.get_fst]
    rfl
  unfold readDocument
  rw [Reader.readDocument_run, inRow_bind, inRow_only, bind_ok recalled]
  cases s.documents.peek? (Service.documentKey database.loaded.path path) with
  | some document => rfl
  | none =>
      simp only [inRow_bind, inRow_source, inRow_ofExcept, inRow_only, Service.fetchDocument,
        bind_assoc]
      rfl

@[simp]
theorem inRow_monikerLocations (database : Database) (kind : RowKind)
    (scheme identifier : String) :
    inRow (monikerLocations database kind scheme identifier) =
      Service.monikerLocations database kind scheme identifier := by
  simp [monikerLocations, Service.monikerLocations]

@[simp]
theorem inRow_orNothing (c : Steps (List α)) : inRow (orNothing c) = Query.orNothing (inRow c) := by
  unfold orNothing Query.orNothing
  rw [inRow_bind, inRow_attempt]
  congr 1
  funext outcome
  cases outcome <;> rfl

@[simp]
theorem inRow_remoteLocations (target : Target) (kind : RowKind) (moniker : Moniker) :
    inRow (remoteLocations target kind moniker) = Query.remoteLocations target kind moniker := by
  simp [remoteLocations, Query.remoteLocations]

@[simp]
theorem inRow_providedDefinitions (package : PackageKey) (moniker : Moniker) :
    inRow (providedDefinitions package moniker) = Query.providedDefinitions package moniker := by
  unfold providedDefinitions Query.providedDefinitions
  rw [inRow_bind, inRow_packageIndex]
  congr 1
  funext index
  cases index.provider? package with
  | none => rfl
  | some target => exact inRow_remoteLocations target .definitions moniker

@[simp]
theorem inRow_remoteDefinition (document : Document) (moniker : Moniker) :
    inRow (remoteDefinition document moniker) = Query.remoteDefinition document moniker := by
  unfold remoteDefinition Query.remoteDefinition
  cases Query.packageKey? document moniker with
  | none => rfl
  | some package => simp

@[simp]
theorem inRow_forTargets (find : Target → Steps (List Location)) (targets : List Target) :
    inRow (forTargets find targets) = targets.mapM fun target => inRow (find target) := by
  induction targets with
  | nil => rfl
  | cons target others ih => simp [forTargets, ih]

@[simp]
theorem inRow_remoteReferences (document : Document) (moniker : Moniker) :
    inRow (remoteReferences document moniker) = Query.remoteReferences document moniker := by
  unfold remoteReferences Query.remoteReferences
  cases Query.packageKey? document moniker with
  | none => rfl
  | some package => simp [usersOf, Query.usersOf]

@[simp]
theorem inRow_monikerDefinitions (database : Database) (document : Document)
    (monikers : List Moniker) :
    inRow (monikerDefinitions database document monikers) =
      Query.monikerDefinitions database document monikers := by
  induction monikers with
  | nil => rfl
  | cons moniker others ih =>
      unfold monikerDefinitions Query.monikerDefinitions
      split
      · simp
      · simp only [inRow_bind, inRow_monikerLocations]
        congr 1
        funext found
        split
        · exact ih
        · rfl

@[simp]
theorem inRow_definitions [Gzip.Compressor] (database : Database) (path : String)
    (position : Position) :
    inRow (definitions database path position) = Query.definitions database path position := by
  unfold definitions Query.definitions
  rw [inRow_bind, inRow_readDocument]
  congr 1
  funext document
  cases document.findRange? position with
  | none => rfl
  | some entry =>
      dsimp only
      cases document.definition? entry.node with
      | some result => rfl
      | none => exact inRow_monikerDefinitions database document _

@[simp]
theorem inRow_monikerReferences (database : Database) (monikers : List Moniker) :
    inRow (monikerReferences database monikers) = Query.monikerReferences database monikers := by
  induction monikers with
  | nil => rfl
  | cons moniker others ih =>
      unfold monikerReferences Query.monikerReferences
      rw [inRow_bind, inRow_monikerLocations]
      congr 1
      funext found
      split
      · exact ih
      · rfl

@[simp]
theorem inRow_localReferences (database : Database) (document : Document) (path : String)
    (entry : RangeEntry) :
    inRow (localReferences database document path entry) =
      Query.localReferences database document path entry := by
  unfold localReferences Query.localReferences
  cases document.reference? entry.node with
  | some result => rfl
  | none => exact inRow_monikerReferences database _

@[simp]
theorem inRow_references [Gzip.Compressor] (database : Database) (path : String)
    (position : Position) :
    inRow (references database path position) = Query.references database path position := by
  unfold references Query.references
  rw [inRow_bind, inRow_readDocument]
  congr 1
  funext document
  cases document.findRange? position with
  | none => rfl
  | some entry =>
      dsimp only
      rw [inRow_bind, inRow_localReferences]
      congr 1
      funext found
      cases (document.findMonikers entry.node).find? (·.kind = .exported) with
      | none => rfl
      | some moniker => simp

@[simp]
theorem inRow_answer [Gzip.Compressor] (database : Database) (method : QueryMethod) (path : String)
    (position : Position) :
    inRow (answer database method path position) = Query.answer database method path position := by
  cases method <;> simp [answer, Query.answer, hover, Query.hover]

@[simp]
theorem inRow_hasDocument (target : Target) (path : String) :
    inRow (hasDocument target path) = Endpoint.hasDocument target path := by
  unfold hasDocument Endpoint.hasDocument
  rw [inRow_bind, inRow_attempt]
  simp only [inRow_bind, inRow_openDatabase, inRow_source, inRow_pure]
  congr 1
  funext outcome
  cases outcome with
  | ok found => rfl
  | error failure =>
      dsimp only
      split <;> rfl

@[simp]
theorem inRow_isPresent (target : Target) (file : Option String) :
    inRow (isPresent target file) = Endpoint.isPresent target file := by
  funext s
  have asked : (Operation.hasData target).alone s = (.ok (s.hasData target), s) := rfl
  unfold isPresent Endpoint.isPresent
  rw [inRow_bind, inRow_only, bind_ok asked, bind_ok (get_run s)]
  split
  · rfl
  · cases file with
    | none => rfl
    | some path =>
        by_cases blank : path = ""
        · subst blank
          rfl
        · simp

theorem attempt_run {c : ServiceM α} {s t : Service} {outcome : Except Failure α}
    (run : c s = (outcome, t)) : ServiceM.attempt c s = (.ok outcome, t) := by
  unfold ServiceM.attempt
  rw [run]

theorem ofService_run {c : ServiceM α} {s t : Service} {outcome : Except Failure α}
    (run : c s = (outcome, t)) :
    RequestM.ofService c s = (outcome.mapError .failure, t) := by
  unfold RequestM.ofService
  rw [run]

theorem inRow_answerPresence (parameters : Parameters) (s : Service) :
    inRow (answerPresence parameters) s =
      (.ok (Endpoint.settle (Endpoint.answerPresence parameters) s).1,
        (Endpoint.settle (Endpoint.answerPresence parameters) s).2) := by
  unfold answerPresence Endpoint.settle Endpoint.answerPresence
  cases Endpoint.targetOf parameters with
  | error failure => rfl
  | ok target =>
      have named : RequestM.ofExcept (.ok target) s = (.ok target, s) := rfl
      cases run : Endpoint.isPresent target (parameters.get? "file") s with
      | mk outcome t =>
          dsimp only
          rw [bind_ok named, inRow_bind, inRow_attempt, inRow_isPresent,
            bind_ok (attempt_run run)]
          cases outcome with
          | ok found =>
              rw [bind_ok (ofService_run run)]
              rfl
          | error failure =>
              rw [bind_error (ofService_run run)]
              rfl

variable [Gzip.Compressor]

theorem inRow_queryValue (target : Target) (method : QueryMethod) (body : Endpoint.QueryBody)
    (s : Service) :
    inRow (queryValue target method body) s =
      (.ok (Endpoint.queryValue target method body s).1,
        (Endpoint.queryValue target method body s).2) := by
  unfold queryValue Endpoint.queryValue Endpoint.queryDatabase
  cases run : Service.openDatabase target s with
  | mk outcome t =>
      rw [inRow_bind, inRow_attempt, inRow_openDatabase, bind_ok (attempt_run run), bind_assoc,
        bind_ok (ofService_run (attempt_run run))]
      cases outcome with
      | error failure => rfl
      | ok database =>
          cases answered : Query.answer database method body.path body.position t with
          | mk value u =>
              simp only [inRow_bind, inRow_attempt, inRow_answer]
              rw [bind_ok (attempt_run answered)]
              exact congrArg (fun run => (Except.ok run.1, run.2)) (ofService_run answered).symm

theorem inRow_answerQuery (elapsed : Binary64) (parameters : Parameters)
    (body : Endpoint.QueryBody) (s : Service) :
    inRow (answerQuery elapsed parameters body) s =
      (.ok (Endpoint.settle (Endpoint.answerQuery elapsed parameters body) s).1,
        (Endpoint.settle (Endpoint.answerQuery elapsed parameters body) s).2) := by
  unfold answerQuery Endpoint.settle Endpoint.answerQuery
  cases Endpoint.targetOf parameters with
  | error failure => rfl
  | ok target =>
      have named : RequestM.ofExcept (.ok target) s = (.ok target, s) := rfl
      dsimp only
      rw [bind_ok named]
      cases QueryMethod.ofName? body.method with
      | none => rfl
      | some method =>
          cases run : Endpoint.queryValue target method body s with
          | mk outcome t =>
              have whole : inRow (queryValue target method body) s = (.ok outcome, t) := by
                rw [inRow_queryValue, run]
              have attempted : RequestM.attempt (Endpoint.queryValue target method body) s =
                  (.ok outcome, t) := by
                unfold RequestM.attempt
                rw [run]
              dsimp only
              rw [inRow_bind, bind_ok whole, bind_ok attempted]
              cases outcome <;> rfl

/-- Answers a request that looks something up. -/
def call (elapsed : Binary64) (request : Request) : Steps Response :=
  match Endpoint.ofPath? request.path with
  | some .query => query elapsed request
  | _ => presence request

theorem inRow_presence (elapsed : Binary64) (request : Request) (s : Service) :
    inRow (presence request) s =
      (.ok (Endpoint.presence.answer elapsed request s).1,
        (Endpoint.presence.answer elapsed request s).2) := by
  unfold presence Endpoint.answer Endpoint.withParameters
  cases Parameters.ofQuery [["file"], Endpoint.targetNames] request.query with
  | error cause => rfl
  | ok parameters => exact inRow_answerPresence parameters s

theorem inRow_query (elapsed : Binary64) (request : Request) (s : Service) :
    inRow (query elapsed request) s =
      (.ok (Endpoint.query.answer elapsed request s).1,
        (Endpoint.query.answer elapsed request s).2) := by
  unfold query Endpoint.answer Endpoint.withParameters
  cases Parameters.ofQuery [Endpoint.targetNames] request.query with
  | error cause => rfl
  | ok parameters =>
      dsimp only
      cases Endpoint.queryBody request with
      | error response => rfl
      | ok body => exact inRow_answerQuery elapsed parameters body s

/-- With nobody in between, a call is answered as a request is. -/
theorem inRow_call (elapsed : Binary64) {request : Request} (post : request.method = "POST")
    (lookup : Service.IsLookup request) (s : Service) :
    inRow (call elapsed request) s =
      (.ok (Service.respond elapsed request s).1, (Service.respond elapsed request s).2) := by
  obtain ⟨endpoint, named, isLookup⟩ := lookup
  unfold call Service.respond
  rw [post, named]
  cases endpoint with
  | presence => exact inRow_presence elapsed request s
  | query => exact inRow_query elapsed request s
  | ping => cases isLookup
  | metrics => cases isLookup
  | upload => cases isLookup

end Steps

end CodeNav
