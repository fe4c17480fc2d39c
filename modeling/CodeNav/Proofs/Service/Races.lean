/-
Module: CodeNav.Proofs.Service.Races
Purpose: Queries for documents of a target that take turns with an upload for it.
Main exports:
  Reader, UploadStep, Race, Race.play, Reader.alone, UploadStep.inOrder, Reader.Stepped
-/
import CodeNav.Proofs.Service.Placing
import CodeNav.Proofs.Service.Reading

namespace CodeNav

open Stateful

/-! ### Queries in steps -/

/-- How far a query for a document has come. -/
inductive Reader.Stage where
  | begun
  | opened (database : Database)
  /-- The document was not in the cache. -/
  | missed (database : Database)
  | fetched (database : Database) (octets : List UInt8)
  | answered (outcome : Except Failure Document)

/-- A query for the document of a path. -/
structure Reader where
  path : String
  stage : Reader.Stage

namespace Reader

open Service

/-- Looks a document up in the cache. -/
def lookUp (key : String) : ServiceM (Option Document) := do
  let (found, documents) := (← getThe Service).documents.get key
  modifyThe Service fun service => { service with documents }
  return found

variable [Gzip.Compressor]

/-- One step of a query for a path of a target. -/
def advance (target : Target) (path : String) : Stage → ServiceM Stage
  | .begun => return .opened (← openDatabase target)
  | .opened database => do
    match ← lookUp (documentKey database.loaded.path path) with
    | some document => return .answered (.ok document)
    | none => return .missed database
  | .missed database => return .fetched database (← fetchDocument database path)
  | .fetched database octets => do
    let document ← ServiceM.ofExcept (Document.decode octets)
    cacheDocument (documentKey database.loaded.path path) document
    return .answered (.ok document)
  | .answered outcome => return .answered outcome

/-- A step of a query; one that fails is the last. -/
def step (target : Target) (reader : Reader) : StateM Service Reader := fun service =>
  match advance target reader.path reader.stage service with
  | (.ok stage, service) => ({ reader with stage }, service)
  | (.error failure, service) => ({ reader with stage := .answered (.error failure) }, service)

/-- Some steps of a query in a row. -/
def steps (target : Target) : Nat → Reader → StateM Service Reader
  | 0, reader => pure reader
  | number + 1, reader => do
    let reader ← reader.step target
    steps target number reader

end Reader

/-! ### Uploads in steps -/

/-- A step of making an upload known. -/
inductive UploadStep where
  | move (base source : String) (kind : Encoding)
  | evict
  | invalidate
  | record

namespace UploadStep

/-- Carries a step out for the dump of a target. -/
def run (target : Target) (dump : Dump) : UploadStep → ServiceM Unit
  | move base source kind => Upload.place base source kind
  | evict => do
    let _ ← Service.evict target
  | invalidate => do
    let _ ← Service.invalidate target
  | record => ServiceM.updateIndex fun index => index.record target dump.provided dump.used

/-- All steps: files are moved first. -/
def inOrder (base : String) (list : List (Encoding × String)) : List UploadStep :=
  (list.map fun (kind, source) => .move base source kind) ++ [.evict, .invalidate, .record]

end UploadStep

/-! ### Taking turns -/

/-- Queries for documents of a target, and the steps of an upload for it that are left. -/
structure Race where
  target : Target
  dump : Dump
  service : Service
  readers : List Reader
  pending : List UploadStep

/-- Whose turn it is: the upload, one of the queries, or a query that begins. -/
inductive Race.Turn where
  | upload
  | reader (number : Nat)
  | arrival (path : String)
deriving Repr, DecidableEq

namespace Race

variable [Gzip.Compressor]

/-- What a turn leads to. A step of the upload has to succeed. -/
def turn (race : Race) : Turn → Option Race
  | .upload =>
    match race.pending with
    | [] => none
    | step :: rest =>
      match step.run race.target race.dump race.service with
      | (.ok (), service) => some { race with service, pending := rest }
      | (.error _, _) => none
  | .reader number =>
    race.readers[number]?.map fun reader =>
      let (reader, service) := reader.step race.target race.service
      { race with service, readers := race.readers.set number reader }
  | .arrival path =>
    some { race with readers := race.readers ++ [⟨path, .begun⟩] }

/-- An upload that is ready to be made known, and no query under way. -/
def start (target : Target) (staged : String) (dump : Dump) (converted : List (Encoding × String))
    (ready : Service) : Race where
  target := target
  dump := dump
  service := ready
  readers := []
  pending := UploadStep.inOrder (ready.basePath target)
    (Upload.moves staged ready.flags.enabled converted)

/-- What turns lead to, one after the other. -/
def play (race : Race) : List Turn → Option Race
  | [] => some race
  | turn :: rest => (race.turn turn).bind (play · rest)

end Race

/-! ### Nobody in between -/

namespace Reader

open Service

theorem ofExcept_ok {α : Type} {result : Except Failure α} {a : α} (same : result = .ok a)
    (s : Service) : ServiceM.ofExcept result s = (.ok a, s) := by
  rw [same]
  rfl

theorem ofExcept_error {α : Type} {result : Except Failure α} {failure : Failure}
    (same : result = .error failure) (s : Service) :
    ServiceM.ofExcept result s = (.error failure, s) := by
  rw [same]
  rfl

variable [Gzip.Compressor] {target : Target} {path : String} {s t : Service}

theorem step_ok {stage next : Stage} (run : advance target path stage s = (.ok next, t)) :
    step target ⟨path, stage⟩ s = (⟨path, next⟩, t) := by
  unfold step
  rw [run]

theorem step_error {stage : Stage} {failure : Failure}
    (run : advance target path stage s = (.error failure, t)) :
    step target ⟨path, stage⟩ s = (⟨path, .answered (.error failure)⟩, t) := by
  unfold step
  rw [run]

/-- A service in whose cache a key was looked up. -/
def looked (s : Service) (key : String) : Service :=
  { s with documents := (s.documents.get key).2 }

/-- A service in whose cache a document was put. -/
def withDocument (s : Service) (key : String) (document : Document) : Service :=
  { s with documents := (s.documents.insert key document document.approximateSize).2 }

/-- What a step may come to. -/
inductive Stepped (target : Target) (path : String) (s : Service) :
    Stage → Stage → Service → Prop where
  | opened {database : Database} {t : Service} (run : openDatabase target s = (.ok database, t)) :
      Stepped target path s .begun (.opened database) t
  | unopened {failure : Failure} {t : Service}
      (run : openDatabase target s = (.error failure, t)) :
      Stepped target path s .begun (.answered (.error failure)) t
  | found {database : Database} {document : Document}
      (peek : s.documents.peek? (documentKey database.loaded.path path) = some document) :
      Stepped target path s (.opened database) (.answered (.ok document))
        (looked s (documentKey database.loaded.path path))
  | missed {database : Database}
      (peek : s.documents.peek? (documentKey database.loaded.path path) = none) :
      Stepped target path s (.opened database) (.missed database)
        (looked s (documentKey database.loaded.path path))
  | fetched {database : Database} {octets : List UInt8} {t : Service}
      (run : fetchDocument database path s = (.ok octets, t)) :
      Stepped target path s (.missed database) (.fetched database octets) t
  | unfetched {database : Database} {failure : Failure} {t : Service}
      (run : fetchDocument database path s = (.error failure, t)) :
      Stepped target path s (.missed database) (.answered (.error failure)) t
  | kept {database : Database} {octets : List UInt8} {document : Document}
      (decoded : Document.decode octets = .ok document) :
      Stepped target path s (.fetched database octets) (.answered (.ok document))
        (withDocument s (documentKey database.loaded.path path) document)
  | undecoded {database : Database} {octets : List UInt8} {failure : Failure}
      (refused : Document.decode octets = .error failure) :
      Stepped target path s (.fetched database octets) (.answered (.error failure)) s
  | done (outcome : Except Failure Document) :
      Stepped target path s (.answered outcome) (.answered outcome) s

/-- A step of a query leads to the next stage, or to an answer. -/
theorem step_stepped (target : Target) (path : String) (stage : Stage) (s : Service) :
    ∃ next t, step target ⟨path, stage⟩ s = (⟨path, next⟩, t) ∧
      Stepped target path s stage next t := by
  cases stage with
  | begun =>
      cases opening : openDatabase target s with
      | mk outcome t =>
          cases outcome with
          | ok database => exact ⟨_, _, step_ok (bind_ok opening), .opened opening⟩
          | error failure => exact ⟨_, _, step_error (bind_error opening), .unopened opening⟩
  | opened database =>
      have run : lookUp (documentKey database.loaded.path path) s =
          (.ok (s.documents.peek? (documentKey database.loaded.path path)),
            looked s (documentKey database.loaded.path path)) := by
        rw [← WeightedCache.get_fst]
        rfl
      cases peek : s.documents.peek? (documentKey database.loaded.path path) with
      | none =>
          rw [peek] at run
          exact ⟨_, _, step_ok (bind_ok run), .missed peek⟩
      | some document =>
          rw [peek] at run
          exact ⟨_, _, step_ok (bind_ok run), .found peek⟩
  | missed database =>
      cases fetching : fetchDocument database path s with
      | mk outcome t =>
          cases outcome with
          | ok octets => exact ⟨_, _, step_ok (bind_ok fetching), .fetched fetching⟩
          | error failure => exact ⟨_, _, step_error (bind_error fetching), .unfetched fetching⟩
  | fetched database octets =>
      cases decoded : Document.decode octets with
      | error failure =>
          exact ⟨_, _, step_error (bind_error (ofExcept_error decoded s)), .undecoded decoded⟩
      | ok document => exact ⟨_, _, step_ok (bind_ok (ofExcept_ok decoded s)), .kept decoded⟩
  | answered outcome => exact ⟨_, _, rfl, .done outcome⟩

theorem steps_answered (target : Target) (number : Nat) (path : String)
    (outcome : Except Failure Document) (s : Service) :
    steps target number ⟨path, .answered outcome⟩ s = (⟨path, .answered outcome⟩, s) := by
  induction number with
  | zero => rfl
  | succ number ih => exact ih

theorem steps_step {number : Nat} {reader next : Reader} (run : reader.step target s = (next, t)) :
    steps target (number + 1) reader s = steps target number next t := by
  change steps target number (reader.step target s).1 (reader.step target s).2 = _
  rw [run]

/-- Reading a document is looking it up, and fetching it if it is not there. -/
theorem readDocument_run (database : Database) (path : String) (s : Service) :
    readDocument database path s =
      match s.documents.peek? (documentKey database.loaded.path path) with
      | some document => (.ok document, looked s (documentKey database.loaded.path path))
      | none =>
        (do
          let octets ← fetchDocument database path
          let document ← ServiceM.ofExcept (Document.decode octets)
          cacheDocument (documentKey database.loaded.path path) document
          return document : ServiceM Document) (looked s (documentKey database.loaded.path path)) := by
  unfold readDocument cachedDocument looked
  rw [bind_ok (get_run s), ← WeightedCache.get_fst]
  generalize s.documents.get _ = found
  obtain ⟨_ | document, documents⟩ := found <;> rfl

/-- Four steps in a row are a whole query. -/
theorem alone (target : Target) (path : String) (s : Service) :
    steps target 4 ⟨path, .begun⟩ s =
      (⟨path, .answered ((openDatabase target >>= (readDocument · path)) s).1⟩,
        ((openDatabase target >>= (readDocument · path)) s).2) := by
  obtain ⟨stage, t, run, stepped⟩ := step_stepped target path .begun s
  rw [steps_step run]
  cases stepped with
  | unopened opening => rw [bind_error opening, steps_answered]
  | @opened database _ opening =>
      rw [bind_ok opening, readDocument_run]
      obtain ⟨stage, u, run, stepped⟩ := step_stepped target path (.opened database) t
      rw [steps_step run]
      cases stepped with
      | found peek => rw [peek, steps_answered]
      | missed peek =>
          rw [peek]
          dsimp only
          obtain ⟨stage, v, run, stepped⟩ := step_stepped target path (.missed database)
            (looked t (documentKey database.loaded.path path))
          rw [steps_step run]
          cases stepped with
          | unfetched fetching => rw [bind_error fetching, steps_answered]
          | @fetched _ octets _ fetching =>
              rw [bind_ok fetching]
              obtain ⟨stage, w, run, stepped⟩ :=
                step_stepped target path (.fetched database octets) v
              rw [steps_step run]
              cases stepped with
              | kept decoded =>
                  rw [bind_ok (ofExcept_ok decoded v)]
                  rfl
              | undecoded refused =>
                  rw [bind_error (ofExcept_error refused v)]
                  rfl

end Reader

/-- All steps of an upload in a row commit it. -/
theorem UploadStep.inOrder_commit (target : Target) (staged : String) (dump : Dump)
    (converted : List (Encoding × String)) (s : Service) :
    (inOrder (s.basePath target) (Upload.moves staged s.flags.enabled converted)).forM
        (run target dump) s = Upload.commit target staged dump converted s := by
  have moving : ((Upload.moves staged s.flags.enabled converted).map fun (kind, source) =>
      UploadStep.move (s.basePath target) source kind).forM (run target dump) =
      Upload.placeEach (s.basePath target) (Upload.moves staged s.flags.enabled converted) := by
    rw [List.forM_eq_forM, List.forM_map]
    rfl
  unfold Upload.commit inOrder
  rw [bind_ok (get_run s), Upload.placeAll_eq, List.forM_eq_forM, List.forM_append,
    ← List.forM_eq_forM, moving]
  simp [List.forM_eq_forM, run]

/-! ### Turns -/

namespace Race

variable [Gzip.Compressor] {race next final : Race}

/-- What a turn may lead to. -/
inductive Turned (race : Race) : Race → Prop where
  | upload {step : UploadStep} {rest : List UploadStep} {service : Service}
      (pending : race.pending = step :: rest)
      (run : step.run race.target race.dump race.service = (.ok (), service)) :
      Turned race { race with service, pending := rest }
  | reader {number : Nat} {path : String} {stage later : Reader.Stage} {service : Service}
      (stands : race.readers[number]? = some ⟨path, stage⟩)
      (stepped : Reader.Stepped race.target path race.service stage later service) :
      Turned race { race with service, readers := race.readers.set number ⟨path, later⟩ }
  | arrival (path : String) :
      Turned race { race with readers := race.readers ++ [⟨path, .begun⟩] }

theorem turn_turned {turn : Turn} (led : race.turn turn = some next) : Turned race next := by
  cases turn with
  | upload =>
      unfold Race.turn at led
      cases pending : race.pending with
      | nil =>
          rw [pending] at led
          cases led
      | cons step rest =>
          rw [pending] at led
          dsimp only at led
          split at led
          · rename_i service run
            cases led
            exact .upload pending run
          · cases led
  | reader number =>
      obtain ⟨⟨path, stage⟩, stands, rfl⟩ := Option.map_eq_some_iff.mp led
      obtain ⟨later, service, run, stepped⟩ :=
        Reader.step_stepped race.target path stage race.service
      rw [run]
      exact .reader stands stepped
  | arrival path =>
      cases led
      exact .arrival path

/-- What every turn keeps is kept by all turns together. -/
theorem play_keeps {P : Race → Prop} (each : ∀ race next, P race → Turned race next → P next)
    {turns : List Turn} (holds : P race) (played : race.play turns = some final) : P final := by
  induction turns generalizing race with
  | nil =>
      cases played
      exact holds
  | cons turn rest ih =>
      obtain ⟨next, led, played⟩ := Option.bind_eq_some_iff.mp played
      exact ih (each race next holds (turn_turned led)) played

theorem turn_reader {number : Nat} {path : String} {stage later : Reader.Stage} {service : Service}
    (stands : race.readers[number]? = some ⟨path, stage⟩)
    (run : Reader.step race.target ⟨path, stage⟩ race.service = (⟨path, later⟩, service)) :
    race.turn (.reader number) =
      some { race with service, readers := race.readers.set number ⟨path, later⟩ } := by
  simp only [turn, stands, Option.map_some, run]

theorem turn_upload {step : UploadStep} {rest : List UploadStep} {service : Service}
    (pending : race.pending = step :: rest)
    (run : step.run race.target race.dump race.service = (.ok (), service)) :
    race.turn .upload = some { race with service, pending := rest } := by
  simp only [turn, pending, run]

end Race

/-! ### What queries do to a service -/

namespace Reader

open Service

/-- The database that a query reads from. -/
def Stage.database? : Stage → Option Database
  | .opened database | .missed database | .fetched database _ => some database
  | .begun | .answered _ => none

section

variable [Gzip.Compressor] {target : Target} {path : String} {s t : Service} {stage next : Stage}
  (registered : Registered s.databases s.closed) (stepped : Stepped target path s stage next t)
include registered stepped

/-- A step of a query does not do more than to read. -/
theorem Stepped.reads : Reads target s t := by
  have still := Reads.refl target registered
  cases stepped with
  | opened run => exact (openDatabase_opening registered run).reads
  | unopened run => exact (openDatabase_opening registered run).reads
  | found peek => exact still.reading (.refl _) _
  | missed peek => exact still.reading (.refl _) _
  | fetched run => exact (fetchDocument_reads target registered run).1
  | unfetched run => exact (fetchDocument_reads target registered run).1
  | kept decoded => exact still.reading (.refl _) _
  | undecoded refused => exact still
  | done outcome => exact still

/-- The database that a query reads from was opened for its target. -/
theorem Stepped.knows (knows : ∀ database, stage.database? = some database →
    s.Opened target database) {database : Database} (reads : next.database? = some database) :
    t.Opened target database := by
  have earlier := (stepped.reads registered).opened database
  cases stepped with
  | opened run =>
      cases reads
      exact ((openDatabase_opening registered run).isOpen _ rfl).opened
  | missed peek => exact earlier (knows database reads)
  | fetched run => exact earlier (knows database reads)
  | _ => cases reads

end

end Reader

end CodeNav
