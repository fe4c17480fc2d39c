/-
Module: CodeNav.Service.Launch
Purpose: A service set up from its settings.
Main exports:
  Files.makeDirectories, Service.prepare, Service.setUp, Service.launch
-/
import CodeNav.ListenAddress
import CodeNav.Proofs.Gzip.Stored
import CodeNav.Settings.Basic

namespace CodeNav

-- The service runs with members of stored blocks.
attribute [instance] Gzip.stored

namespace Files

/-- A path that ends where one of its names does, if it holds any; the characters stand in
reverse. -/
def named (reversed : List Char) : List String :=
  match reversed with
  | [] | '/' :: _ => []
  | _ => [String.ofList reversed.reverse]

/-- The paths of a directory and of those around it, the outermost first. -/
def ancestors (path : String) : List String :=
  go [] path.toList
where
  /-- Goes on behind the characters that stand in reverse. -/
  go (reversed : List Char) : List Char → List String
    | [] => named reversed
    | c :: rest => (if c == '/' then named reversed else []) ++ go (c :: reversed) rest

/-- Makes a directory and those around it. -/
def makeDirectories (path : String) (files : Files) : Files :=
  (ancestors path).foldl (fun files directory => files.makeDirectory directory) files

end Files

namespace Service

/-- Makes the directories of a service and the file of its index of packages. -/
def prepare (root : String) : FilesM Unit := do
  FilesM.change (Files.makeDirectories (Files.join root temporaryName))
  let path := Files.join root indexName
  if !(← getThe Files).contains path then
    FilesM.system (Files.write path .index)

/-- The converter that settings ask for; `tools` tells what the tools of the system do. -/
def converterOf (settings : Settings) (tools : String → Converter.Tool) : Converter :=
  match settings.converter with
  | some binary => .external binary (tools binary)
  | none => .builtin

/-- Sets a service up, with an index of packages as it was left. -/
def setUp (settings : Settings) (tools : String → Converter.Tool) (index : PackageIndex) :
    FilesM Service := do
  let root := settings.storage.root
  prepare root
  return .start root settings.encodings settings.limits (← getThe Files) (.available index)
    (converterOf settings tools)

/-- Sets a service up if it can listen on the address that its settings name. -/
def launch (settings : Settings) (tools : String → Converter.Tool) (index : PackageIndex) :
    FilesM Service := do
  if ListenAddress.isValid (ListenAddress.ofHost settings.server.host settings.server.port) then
    setUp settings tools index
  else throw .listenAddress

end Service

end CodeNav
