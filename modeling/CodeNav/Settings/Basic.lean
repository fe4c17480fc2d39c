/-
Module: CodeNav.Settings.Basic
Purpose: The settings of the service, their defaults, and which of them make sense.
Main exports:
  Settings, Settings.default, Settings.validate, Settings.limits
-/
import CodeNav.Encoding.Kind
import CodeNav.Service.State
import CodeNav.Text.Blank

namespace CodeNav

/-- Where the service listens. -/
structure ServerSettings where
  host : String
  port : Nat
deriving Repr, DecidableEq

/-- Where dumps are stored, and how much. -/
structure StorageSettings where
  root : String
  softMaxBytes : Nat
  maxUploadBytes : Nat
deriving Repr, DecidableEq

/-- How much is kept in memory. -/
structure CacheSettings where
  softMaxMemoryBytes : Nat
  blobCacheMaxBytes : Nat
deriving Repr, DecidableEq

/-- The settings of the service. -/
structure Settings where
  environment : String
  server : ServerSettings
  storage : StorageSettings
  cache : CacheSettings
  encodings : EncodingFlags
  /-- The external tool that converts dumps, if they are not converted in process. -/
  converter : Option String
  logLevel : String
deriving Repr, DecidableEq

namespace Settings

/-- The octets of a mebibyte. -/
def mebibyte : Nat := 1024 * 1024

/-- The octets of a gibibyte. -/
def gibibyte : Nat := 1024 * mebibyte

/-- The settings that hold where nothing else is set. -/
def default (environment : String) : Settings where
  environment := environment
  server := ⟨"0.0.0.0", 3186⟩
  storage := ⟨"lsif-storage", 100 * gibibyte, 100 * mebibyte⟩
  cache := ⟨100 * mebibyte, 64 * mebibyte⟩
  encodings := ⟨true, true, true⟩
  converter := none
  logLevel := "info"

/-- The limits that settings impose on a service. -/
def limits (settings : Settings) : Limits where
  softMaxBytes := settings.storage.softMaxBytes
  maxUploadBytes := settings.storage.maxUploadBytes
  softMaxMemoryBytes := settings.cache.softMaxMemoryBytes
  blobCacheMaxBytes := settings.cache.blobCacheMaxBytes

/-- What is wrong with settings. -/
inductive Fault where
  | emptyHost
  | zeroPort
  | emptyRoot
  | zeroUploadLimit
  | noEncoding
deriving Repr, DecidableEq

/-- The wording of a fault. -/
def Fault.message : Fault → String
  | .emptyHost => "server.host cannot be empty"
  | .zeroPort => "server.port must be > 0"
  | .emptyRoot => "storage.root cannot be empty"
  | .zeroUploadLimit => "storage.max_upload_bytes must be > 0"
  | .noEncoding =>
    "at least one of backends.json, backends.graph, backends.blob must be enabled"

/-- Checks settings; of several faults the first one counts. -/
def validate (settings : Settings) : Except Fault Unit := do
  if Text.isBlankText settings.server.host then throw .emptyHost
  if settings.server.port = 0 then throw .zeroPort
  if settings.storage.root.isEmpty then throw .emptyRoot
  if settings.storage.maxUploadBytes = 0 then throw .zeroUploadLimit
  if settings.encodings.enabled.isEmpty then throw .noEncoding

end Settings

end CodeNav
