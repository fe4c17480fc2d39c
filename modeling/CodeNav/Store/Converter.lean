/-
Module: CodeNav.Store.Converter
Purpose: Uploaded dumps turned into tables, in process or by an external tool.
Main exports:
  Converter, Converter.builtin, Converter.external, ToolOutcome
-/
import CodeNav.Store.Files

namespace CodeNav

/-- Writes an encoding of the dump at one path to another path. -/
abbrev Converter := (input output : String) → Encoding → FilesM Unit

namespace Converter

/-- Writes tables in place of what stands at a path. -/
def replace (path : String) (tables : Tables) : FilesM Unit := do
  if (← getThe Files).contains path then
    FilesM.system (Files.remove path)
  FilesM.system (Files.write path (.tables tables))

/-- The octets of an uploaded dump. -/
def readDump (path : String) : FilesM (List UInt8) := do
  match ← FilesM.system (Files.read path) with
  | .octets octets => return octets
  | _ => throw .notTables

/-- Converts in process. -/
def builtin [Gzip.Compressor] : Converter := fun input output kind => do
  if kind = .json then throw (.notConverted kind)
  let octets ← readDump input
  let elements ← liftExcept (Dump.parseElements none octets)
  let tables ← liftExcept (Tables.ofElements kind elements)
  replace output tables
where
  /-- Passes a failure on. -/
  liftExcept {α : Type} (result : Except Failure α) : FilesM α :=
    match result with
    | .ok value => return value
    | .error failure => throw failure

/-- What becomes of running a tool: it cannot be started, or it ends, with a status unless it
succeeds and with what it wrote to its error output. -/
inductive ToolOutcome where
  | notStarted (fault : SystemFault)
  | succeeded
  | failed (status : String) (output : List UInt8)
deriving Repr, DecidableEq

/-- A tool: given its arguments it may change files. -/
abbrev Tool := List String → StateM Files ToolOutcome

/-- The arguments that name input, output and encoding to a tool. -/
def arguments (input output : String) (kind : Encoding) : List String :=
  ["--in", input, "--out", output] ++ (if kind = .blob then ["--format", "blob"] else [])

/-- The failure that an outcome amounts to, if it is one. -/
def ToolOutcome.failure? (binary : String) : ToolOutcome → Option Failure
  | notStarted fault => some (.toolNotRun binary fault)
  | succeeded => none
  | failed status output => some (.toolFailed binary status (Text.trim (Utf8.decodeLossy output)))

/-- Converts by an external tool. -/
def external (binary : String) (tool : Tool) : Converter := fun input output kind => do
  if kind = .json then throw (.notConverted kind)
  let outcome ← (tool (arguments input output kind) : StateM Files ToolOutcome)
  if let some failure := outcome.failure? binary then throw failure

end Converter

end CodeNav
