/-
Module: CodeNav.Settings.Load
Purpose: Settings assembled from files and variables.
Main exports:
  Settings.Sources, Settings.assemble, Settings.ofTree?, Settings.load, Settings.loadDefault
-/
import CodeNav.Settings.Basic
import CodeNav.Settings.Scalar
import CodeNav.Toml.Reader

namespace CodeNav.Settings

/-!
Settings come in layers, each over the ones before: the name of the environment, the files
`default.toml`, `<environment>.toml` and `local.toml`, variables such as `LSIF__SERVER__PORT`, and
last the flat variables of earlier deployments.
-/

/-- What settings are assembled from. -/
structure Sources where
  /-- The text of the file with a name, if there is one. -/
  file : String → Option String
  /-- The variables that are set. -/
  bindings : List (String × String)

/-- Why settings cannot be loaded. -/
inductive LoadFault where
  /-- A file is malformed. -/
  | sources
  /-- A value does not fit its setting. -/
  | values
deriving Repr, DecidableEq

/-- The wording of a fault. -/
def LoadFault.message : LoadFault → String
  | .sources => "failed to assemble configuration sources"
  | .values => "failed to deserialize settings"

/-! ### Files -/

/-- Whether a file name has an ending after a point that does not come first. -/
def hasEnding (name : String) : Bool :=
  (name.toList.drop 1).contains '.'

/-- The text of the settings file with a name. A name without a file stands for one with a further
ending; a file without any ending is passed over. -/
def Sources.settingsFile? (sources : Sources) (name : String) : Option String :=
  match sources.file name with
  | some text => if hasEnding name then some text else none
  | none => sources.file (name ++ ".toml")

/-- Lays a file over a tree; one that is absent changes nothing. -/
def addFile (sources : Sources) (root : Tree) (name : String) : Except LoadFault Tree :=
  match sources.settingsFile? name with
  | none => .ok root
  | some text =>
    match Toml.parse text with
    | some fields => .ok (root.overlay fields)
    | none => .error .sources

/-- The names of the files for an environment in order. -/
def fileNames (environment : String) : List String :=
  ["default.toml", environment ++ ".toml", "local.toml"]

/-! ### Variables -/

/-- What the names of nested variables start with. -/
def variableStem : List Char :=
  "lsif__".toList

/-- Replaces double underscores by points. -/
def pointed : List Char → List Char
  | '_' :: '_' :: rest => '.' :: pointed rest
  | c :: rest => c :: pointed rest
  | [] => []

/-- The setting that a nested variable names. The case of letters does not count. -/
def settingOf? (name : String) : Option String :=
  let name := name.toLower.toList
  if variableStem.isPrefixOf name then
    some (String.ofList (pointed (name.drop variableStem.length)))
  else none

/-- The settings of nested variables. -/
def nestedVariables (bindings : List (String × String)) : List (String × Tree) :=
  bindings.filterMap fun (name, text) =>
    (settingOf? name).map fun setting => (setting, Tree.ofVariable text)

/-- The paths of all settings. -/
def settingPaths : List (List String) :=
  [["env"], ["server", "host"], ["server", "port"], ["storage", "root"],
   ["storage", "soft_max_bytes"], ["storage", "max_upload_bytes"],
   ["cache", "soft_max_memory_bytes"], ["cache", "blob_cache_max_bytes"], ["backends", "json"],
   ["backends", "graph"], ["backends", "blob"], ["converter", "binary"], ["logging", "level"]]

/-- The nested variable of a setting as it is usually spelled. -/
def nestedName (path : List String) : String :=
  "__".intercalate ("LSIF" :: path.map (·.toUpper))

/-! ### Flat variables -/

/-- The flat variables that hold numbers. -/
def flatNumbers : List (String × List String) :=
  [("LSIF_SOFT_MAX_STORAGE", ["storage", "soft_max_bytes"]),
   ("LSIF_MAX_FILE_SIZE", ["storage", "max_upload_bytes"]),
   ("LSIF_SOFT_MAX_STORAGE_IN_MEMORY", ["cache", "soft_max_memory_bytes"]),
   ("LSIF_HTTP_PORT", ["server", "port"])]

/-- The flat variables that hold truth values. -/
def flatFlags : List (String × List String) :=
  [("LSIF_ENABLE_JSON", ["backends", "json"]),
   ("LSIF_ENABLE_GRAPH", ["backends", "graph"]),
   ("LSIF_ENABLE_BLOB", ["backends", "blob"])]

/-- The truth value of a flat variable. -/
def flatFlag? (text : String) : Option Bool :=
  match Text.trim text with
  | "true" | "1" => some true
  | "false" | "0" => some false
  | _ => none

/-- Lays flat variables over a tree; those that cannot be read change nothing. -/
def addFlat (bindings : List (String × String)) (read : String → Option Tree) (root : Tree)
    (names : List (String × List String)) : Tree :=
  names.foldl (fun root (name, path) =>
    ((bindings.lookup name).bind read).elim root (root.putAt path)) root

/-- The number of a flat variable. -/
def readNumber (text : String) : Option Tree :=
  (Decimal.integer? (Text.trim text)).map .integer

/-- The truth value of a flat variable as a value. -/
def readFlag (text : String) : Option Tree :=
  (flatFlag? text).map .bool

/-- The text of a flat variable, unless it is empty. -/
def readText (text : String) : Option Tree :=
  if text.isEmpty then none else some (.text text)

/-- Lays all flat variables over a tree. -/
def addFlatVariables (root : Tree) (bindings : List (String × String)) : Tree :=
  let root := addFlat bindings readNumber root flatNumbers
  let root := addFlat bindings readFlag root flatFlags
  addFlat bindings readText root [("LSIF_STORAGE_ROOT", ["storage", "root"])]

/-- All layers for an environment as one tree. -/
def assemble (environment : String) (sources : Sources) : Except LoadFault Tree := do
  let start := (Tree.table []).put "env" (.text environment)
  let files ← (fileNames environment).foldlM (addFile sources) start
  let nested := files.overlay (nestedVariables sources.bindings)
  return addFlatVariables nested sources.bindings

/-! ### Values -/

/-- The value of a setting of a section: by name in a table, by place in a list. A setting that is
absent has its default. -/
def setting {α : Type} (part : Option Tree) (place : Nat) (name : String)
    (read : Tree → Option α) (default : α) : Option α :=
  match part with
  | none => some default
  | some (.table fields) => (fields.lookup name).elim (some default) read
  | some (.list items) => items[place]?.elim (some default) read
  | some _ => none

/-- The settings that a tree holds, with defaults where it holds none. -/
def ofTree? (environment : String) (root : Tree) : Option Settings := do
  let defaults := Settings.default environment
  let part (name : String) : Option Tree := root.fields.lookup name
  let word := Tree.toNat? (capacity 64)
  let environment ← (part "env").elim (some environment) Tree.toText?
  let host ← setting (part "server") 0 "host" Tree.toText? defaults.server.host
  let port ← setting (part "server") 1 "port" (Tree.toNat? (capacity 16)) defaults.server.port
  let storage := part "storage"
  let directory ← setting storage 0 "root" Tree.toText? defaults.storage.root
  let softMax ← setting storage 1 "soft_max_bytes" word defaults.storage.softMaxBytes
  let maxUpload ← setting storage 2 "max_upload_bytes" word defaults.storage.maxUploadBytes
  let cache := part "cache"
  let memory ← setting cache 0 "soft_max_memory_bytes" word defaults.cache.softMaxMemoryBytes
  let blobs ← setting cache 1 "blob_cache_max_bytes" word defaults.cache.blobCacheMaxBytes
  let json ← setting (part "backends") 0 "json" Tree.toBool? defaults.encodings.json
  let graph ← setting (part "backends") 1 "graph" Tree.toBool? defaults.encodings.graph
  let blob ← setting (part "backends") 2 "blob" Tree.toBool? defaults.encodings.blob
  let converter ← setting (part "converter") 0 "binary" (fun t => t.toText?.map some) none
  let level ← setting (part "logging") 0 "level" Tree.toText? defaults.logLevel
  return ⟨environment, ⟨host, port⟩, ⟨directory, softMax, maxUpload⟩, ⟨memory, blobs⟩,
    ⟨json, graph, blob⟩, converter, level⟩

/-- Loads the settings for an environment. -/
def load (environment : String) (sources : Sources) : Except LoadFault Settings := do
  let root ← assemble environment sources
  match ofTree? environment root with
  | some settings => return settings
  | none => throw .values

/-- The variables that have a meaning. -/
def variableNames : List String :=
  settingPaths.map nestedName ++ flatNumbers.map (·.1) ++ flatFlags.map (·.1)
    ++ ["LSIF_STORAGE_ROOT", "LSIF_ENV", "APP_ENV"]

/-- The files that are looked for in an environment. -/
def candidateFiles (environment : String) : List String :=
  (fileNames environment).flatMap fun name => [name, name ++ ".toml"]

/-- The environment that variables name. -/
def environmentOf (bindings : List (String × String)) : String :=
  ((bindings.lookup "LSIF_ENV").or (bindings.lookup "APP_ENV")).getD "development"

/-- Loads the settings for an environment, or for the one that variables name. -/
def loadDefault (environment : Option String) (sources : Sources) : Except LoadFault Settings :=
  load (environment.getD (environmentOf sources.bindings)) sources

end CodeNav.Settings
