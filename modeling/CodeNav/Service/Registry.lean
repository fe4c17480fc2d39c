/-
Module: CodeNav.Service.Registry
Purpose: Databases opened on first use, closed when they leave the cache, and their documents.
Main exports:
  Service.openDatabase, Service.evict, Service.invalidate, Service.readDocument
-/
import CodeNav.Document.Size
import CodeNav.Service.State

namespace CodeNav.Service

/-! ### Opening and closing -/

/-- Closes databases; what is read from them afterwards fails. -/
def close (databases : List Database) : ServiceM Unit :=
  modifyThe Service fun service =>
    { service with closed := databases.map (·.handle) ++ service.closed }

/-- Runs a computation on the cache of open databases. -/
def onDatabases {α : Type} (change : Resident Database → α × Resident Database) : ServiceM α :=
  fun service =>
    let (result, databases) := change service.databases
    (.ok result, { service with databases })

/-- Opens the stored dump of a target as the database with the next handle. -/
def loadDatabase (target : Target) : ServiceM Database := do
  let service ← getThe Service
  let loaded ← ServiceM.onFiles (Loaded.first service.flags (service.basePath target))
  return ⟨service.databases.loads.size, target, loaded⟩

/-- Starts a load and closes what it pushes out. -/
def startLoad (target : Target) : ServiceM Nat := do
  let service ← getThe Service
  let weight := service.files.dumpWeight (service.basePath target) service.sizes
  let outcome ← ServiceM.attempt (loadDatabase target)
  let (number, pushedOut) ← onDatabases fun databases =>
    let (number, pushedOut, databases) :=
      databases.register target.key weight ⟨0, outcome⟩
    ((number, databases.disposable pushedOut), databases)
  close pushedOut
  return number

/-- The database of a target, opened on first use. -/
def openDatabase (target : Target) : ServiceM Database := do
  let found ← onDatabases (·.lookup target.key)
  let number ← match found with
    | some number => pure number
    | none => startLoad target
  match ← onDatabases (·.pollLoad target.key number) with
  | .done result => ServiceM.ofExcept result
  | _ => throw (.noData target.key)

/-- Closes and forgets the database with a key. The result tells whether there was one. -/
def evictKey (key : String) : ServiceM Bool := do
  let (found, removed) ← onDatabases fun databases =>
    let (found, removed, databases) := databases.remove key
    ((found, removed), databases)
  close removed
  return found

/-- Closes and forgets the database of a target, as when its files are replaced. -/
def evict (target : Target) : ServiceM Bool :=
  evictKey target.key

/-! ### Documents -/

/-- The key of the document of a path, which names the file that it is read from. -/
def documentKey (file path : String) : String :=
  file ++ "::" ++ path

/-- Forgets the documents read from a file. The result is their number. -/
def invalidateFile (file : String) : ServiceM Nat := fun service =>
  let stem := (documentKey file "").toList
  let (removed, documents) := service.documents.removeWhere fun key =>
    stem.isPrefixOf key.toList
  (.ok removed.length, { service with documents })

/-- Forgets the documents of every encoding of a target. -/
def invalidate (target : Target) : ServiceM Nat := do
  let base := (← getThe Service).basePath target
  let counts ← Encoding.all.mapM fun kind => invalidateFile (kind.path base)
  return total counts

/-- The tables of an open database as they can be read now: those of the file that was opened,
whatever its name has been given to since. -/
def currentTables (database : Database) (tables : Tables) : ServiceM Source := do
  let path := database.loaded.path
  match (← getThe Service).files.file? path with
  | none => return .tables tables
  | some file =>
    if file.serial != database.loaded.serial then return .tables tables
    ServiceM.onFiles (FilesM.change (·.touchRead path))
    match file.content with
    | .tables current => return .tables current
    | _ => throw .notTables

/-- What can be read from a database, unless it is closed. -/
def source (database : Database) : ServiceM Source := do
  let opened := database.loaded.source
  if (← getThe Service).closed.contains database.handle then throw opened.closedFailure
  match opened with
  | .whole .. => return opened
  | .tables tables => currentTables database tables

variable [Gzip.Compressor]

/-- The stored octets of the document of a path. -/
def fetchDocument (database : Database) (path : String) : ServiceM (List UInt8) := do
  ServiceM.ofExcept ((← source database).document path)

/-- Keeps a decoded document in the cache. -/
def cacheDocument (key : String) (document : Document) : ServiceM Unit :=
  modifyThe Service fun service =>
    { service with
      documents := (service.documents.insert key document document.approximateSize).2 }

/-- The document under a key, fetched and decoded unless it is in the cache. -/
def cachedDocument (key : String) (fetch : ServiceM (List UInt8)) : ServiceM Document := do
  let (found, documents) := (← getThe Service).documents.get key
  modifyThe Service fun service => { service with documents }
  match found with
  | some document => return document
  | none =>
    let document ← ServiceM.ofExcept (Document.decode (← fetch))
    cacheDocument key document
    return document

/-- The document of a path. -/
def readDocument (database : Database) (path : String) : ServiceM Document :=
  cachedDocument (documentKey database.loaded.path path) (fetchDocument database path)

/-- The locations recorded for a moniker. -/
def monikerLocations (database : Database) (kind : RowKind) (scheme identifier : String) :
    ServiceM (List Location) := do
  return (← source database).locations kind scheme identifier

end CodeNav.Service
