/-
Module: CodeNav.Service.State
Purpose: The state of a running service, and computations on it.
Main exports:
  Database, IndexState, Service, ServiceM
-/
import CodeNav.Cache.Resident
import CodeNav.PackageIndex
import CodeNav.Service.Metrics
import CodeNav.Store.Converter
import CodeNav.Store.Loading

namespace CodeNav

/-- An open dump of a target. -/
structure Database where
  /-- Tells this database apart from any other that was ever opened. -/
  handle : Nat
  target : Target
  loaded : Loaded

/-- The index of packages, or the failure with which every use of it ends. -/
inductive IndexState where
  | available (index : PackageIndex)
  | broken (failure : Failure)

/-- The limits that a service keeps. -/
structure Limits where
  softMaxBytes : Nat
  maxUploadBytes : Nat
  softMaxMemoryBytes : Nat
  blobCacheMaxBytes : Nat
deriving Repr, DecidableEq

/-- The state of a service. -/
structure Service where
  /-- The directory in which dumps are stored. -/
  root : String
  flags : EncodingFlags
  limits : Limits
  /-- What tables and directories take on the disk. -/
  sizes : Sizes
  files : Files
  /-- The open databases. -/
  databases : Resident Database
  /-- Decoded documents of all databases. -/
  documents : WeightedCache String Document
  index : IndexState
  converter : Converter
  metrics : Metrics
  /-- The handles of databases that have been closed. -/
  closed : List Nat
  /-- The number of temporary names given out. -/
  temporaries : Nat

/-- A computation on the state of a service that may fail. -/
abbrev ServiceM := ExceptT Failure (StateM Service)

namespace Service

/-- The name of the directory for files under way. -/
def temporaryName : String := "tmp"

/-- The name of the file of the index of packages. -/
def indexName : String := "xrepo.db"

/-- A service on a directory tree, with nothing open. -/
def start (root : String) (flags : EncodingFlags) (limits : Limits) (files : Files)
    (index : IndexState) (converter : Converter) (sizes : Sizes := .paged) : Service where
  root := root
  flags := flags
  limits := limits
  sizes := sizes
  files := files
  databases := .empty limits.softMaxMemoryBytes
  documents := .empty limits.blobCacheMaxBytes
  index := index
  converter := converter
  metrics := .empty
  closed := []
  temporaries := 0

/-- The path shared by the files of a target, up to the ending of an encoding. -/
def basePath (service : Service) (target : Target) : String :=
  Files.join service.root target.key

/-- Whether any enabled encoding of a target is stored. -/
def hasData (service : Service) (target : Target) : Bool :=
  service.files.hasData service.flags (service.basePath target)

end Service

namespace ServiceM

/-- Runs a computation on the directory tree. -/
def onFiles {α : Type} (computation : FilesM α) : ServiceM α := fun service =>
  let (result, files) := computation service.files
  (result, { service with files })

/-- Runs a computation and hands out its failure. -/
def attempt {α : Type} (computation : ServiceM α) : ServiceM (Except Failure α) := fun service =>
  let (result, service) := computation service
  (.ok result, service)

/-- Passes a result on. -/
def ofExcept {α : Type} (result : Except Failure α) : ServiceM α :=
  match result with
  | .ok value => return value
  | .error failure => throw failure

/-- The index of packages, if it can be used. -/
def packageIndex : ServiceM PackageIndex := do
  match (← getThe Service).index with
  | .available index => return index
  | .broken failure => throw failure

/-- Replaces the index of packages, if it can be used. -/
def updateIndex (change : PackageIndex → PackageIndex) : ServiceM Unit := do
  let index ← packageIndex
  modifyThe Service fun service => { service with index := .available (change index) }

end ServiceM

end CodeNav
