/-
Module: CodeNav.Encoding.Source
Purpose: Stored dumps opened for reading, whatever their encoding.
Main exports:
  Source, Source.ofOctets, Source.ofTables, Source.hasDocument, Source.document, Source.locations
-/
import CodeNav.Encoding.Tables

namespace CodeNav

/-- An open dump: one read as a whole, or tables. Paths are relative to the project root. -/
inductive Source where
  | whole (dump : Dump) (rows : RowTables)
  | tables (tables : Tables)

namespace Source

/-- A dump read as a whole. -/
def ofDump (dump : Dump) : Source :=
  .whole dump (.ofDump dump)

/-- Opens a dump that is stored as it was uploaded. -/
def ofOctets (octets : List UInt8) : Except Failure Source := do
  let dump ← Dump.parse none octets
  return .ofDump dump

/-- Opens tables, which have to be in the expected encoding. -/
def ofTables (kind : Encoding) (path : String) (tables : Tables) : Except Failure Source :=
  if tables.kind = kind then .ok (.tables tables)
  else .error (.wrongFormat path kind.name)

/-- What the addresses of the dump start with. -/
def project : Source → ProjectRoot
  | whole dump _ => .ofOption dump.projectRoot
  | tables t => .ofOption t.projectRoot

/-- The failure of reading after the dump has been closed. -/
def closedFailure : Source → Failure
  | whole _ _ => .dumpClosed
  | tables _ => .tablesClosed

/-- Whether there is a document of a path. -/
def hasDocument (source : Source) (path : String) : Bool :=
  let uri := source.project.address path
  match source with
  | whole dump _ => (dump.documentId? uri).isSome
  | tables t => t.hasDocument uri

/-- The document of a path cut out of a whole dump. -/
def wholeDocument (dump : Dump) (uri path : String) : Except Failure Document :=
  match (dump.documentId? uri).bind dump.document? with
  | some document => .ok document
  | none => .error (.noDocument path)

/-- The stored octets of the document of a path. -/
def document [Gzip.Compressor] (source : Source) (path : String) : Except Failure (List UInt8) :=
  let uri := source.project.address path
  match source with
  | whole dump _ => (wholeDocument dump uri path).map Document.encode
  | tables t => t.document uri path

/-- The rows by moniker. -/
def rows : Source → RowTables
  | whole _ rows => rows
  | tables t => t.rows

/-- The locations recorded for a moniker. -/
def locations (source : Source) (kind : RowKind) (scheme identifier : String) : List Location :=
  source.rows.locations source.project kind scheme identifier

end Source

end CodeNav
