/-
Module: CodeNav.Encoding.Tables
Purpose: The tables in which a converted dump is kept.
Main exports:
  GraphTables, BlobTables, Tables, GraphTables.subgraph, Tables.ofElements
-/
import CodeNav.Digest
import CodeNav.Dump.Document
import CodeNav.Dump.Rows
import CodeNav.Encoding.Kind
import CodeNav.ProjectRoot

namespace CodeNav

open Json (Value)

variable [Gzip.Compressor]

/-- Definitions and references by moniker, which both kinds of tables hold. -/
structure RowTables where
  definitions : List MonikerRow
  references : List MonikerRow
deriving DecidableEq

namespace RowTables

/-- The rows of a dump. -/
def ofDump (dump : Dump) : RowTables :=
  ⟨dump.rows .definitions, dump.rows .references⟩

/-- The rows of a kind. -/
def ofKind (rows : RowTables) : RowKind → List MonikerRow
  | .definitions => rows.definitions
  | .references => rows.references

/-- The locations recorded for a moniker, in the order of their rows. -/
def locations (rows : RowTables) (project : ProjectRoot) (kind : RowKind)
    (scheme identifier : String) : List Location :=
  ((rows.ofKind kind).filter fun row => row.scheme == scheme && row.identifier == identifier).map
    fun row => ⟨project.path row.uri, row.range⟩

end RowTables

/-- A stored vertex: its label, and the JSON text of the object that wrote it. -/
structure StoredVertex where
  label : String
  json : String
deriving DecidableEq

/-- A stored edge, which has one target. -/
structure StoredEdge where
  source : VertexId
  target : VertexId
  label : String
  document : Option VertexId
  property : Option String
deriving DecidableEq

/-- The tables of vertices and edges. -/
structure GraphTables where
  projectRoot : Option String
  vertices : Table StoredVertex
  /-- The edges in the order in which they were written. -/
  edges : List StoredEdge
  /-- The document at each address. -/
  documents : Std.ExtTreeMap String VertexId
  rows : RowTables

namespace GraphTables

/-- The stored edges of an edge, one for each target. -/
def storedEdges (edge : Edge) : List StoredEdge :=
  edge.targets.map fun target => ⟨edge.source, target, edge.label, edge.document, edge.property⟩

/-- Writes a vertex in place of an earlier one with its identifier. -/
def addVertex (vertices : Table StoredVertex) : Element → Table StoredVertex
  | .vertex v => vertices.insert v.id ⟨v.label, v.value.render⟩
  | .edge _ => vertices

/-- The edges of an element. -/
def edgesOf : Element → List StoredEdge
  | .vertex _ => []
  | .edge e => storedEdges e

/-- The tables of a dump. -/
def ofDump (elements : List Element) (dump : Dump) : GraphTables where
  projectRoot := dump.projectRoot
  vertices := elements.foldl addVertex ∅
  edges := elements.flatMap edgesOf
  documents := dump.documents.foldl (fun table id uri => table.insert uri id) ∅
  rows := .ofDump dump

/-- The labels of edges that are followed from any vertex. Items are kept but never followed, so
ranges of other documents stay out. -/
def isFollowed (label : String) : Bool :=
  match EdgeLabel.ofName? label with
  | some .contains | some .item | none => false
  | some _ => true

/-- Whether an edge out of a vertex is followed; contents count for the document alone. -/
def follows (document source : VertexId) (label : String) : Bool :=
  isFollowed label || (EdgeLabel.ofName? label == some .contains && source == document)

/-- A stored vertex read back. -/
def readVertex (id : VertexId) (stored : StoredVertex) : Except Failure Vertex := do
  let value ← (Value.parse (Utf8.encode stored.json)).mapError (.malformedVertex id.text)
  return ⟨id, stored.label, value⟩

/-- A stored edge read back. -/
def readEdge (edge : StoredEdge) : Edge :=
  ⟨edge.label, edge.source, some edge.target, [], edge.document, edge.property⟩

/-- The edges out of a vertex, in the order in which they were written. -/
def edgesFrom (tables : GraphTables) (id : VertexId) : List StoredEdge :=
  tables.edges.filter (·.source == id)

/-- Queues the targets that were not met before. -/
def enqueue (queue seen : List VertexId) : List VertexId → List VertexId × List VertexId
  | [] => (queue, seen)
  | id :: rest =>
    if seen.contains id then enqueue queue seen rest
    else enqueue (queue ++ [id]) (id :: seen) rest

/-- The elements met breadth first from queued vertices; `fuel` bounds the vertices. -/
def collect (tables : GraphTables) (document : VertexId) :
    Nat → List VertexId → List VertexId → Except Failure (List Element)
  | 0, _, _ => .ok []
  | _, [], _ => .ok []
  | fuel + 1, id :: queue, seen =>
    match tables.vertices[id]? with
    | none => collect tables document fuel queue seen
    | some stored => do
      let vertex ← readVertex id stored
      let edges := tables.edgesFrom id
      let targets := (edges.filter fun e => follows document id e.label).map (·.target)
      let (queue, seen) := enqueue queue seen targets
      let others ← collect tables document fuel queue seen
      return .vertex vertex :: edges.map (fun e => .edge (readEdge e)) ++ others

/-- The elements that a document needs. Every vertex is queued at most once, by an edge. -/
def subgraph (tables : GraphTables) (document : VertexId) : Except Failure (List Element) :=
  collect tables document (tables.edges.length + 1) [document] [document]

/-- The document of a path, if the tables know its address. -/
def document (tables : GraphTables) (uri path : String) : Except Failure Document := do
  let some id := tables.documents[uri]? | throw (.noDocument path)
  let elements ← tables.subgraph id
  let dump ← Dump.ofElements elements
  let some document := dump.document? id | throw (.noDocument path)
  return document

end GraphTables

/-- The tables of finished documents. Equal documents are stored once. -/
structure BlobTables where
  projectRoot : Option String
  /-- The digest of the document at each address. -/
  documents : Std.ExtTreeMap String String
  /-- The stored octets under each digest. -/
  contents : Std.ExtTreeMap String (List UInt8)
  rows : RowTables

namespace BlobTables

/-- The digest under which octets are stored. -/
def digest (octets : List UInt8) : String :=
  Digest.hex (Digest.sha256 octets)

/-- Stores the document of an address. Octets that are stored under the digest stay. -/
def addDocument (dump : Dump) (tables : BlobTables) (id : VertexId) (uri : String) : BlobTables :=
  let octets := (dump.documentOf id).encode
  { tables with
    documents := tables.documents.insert uri (digest octets)
    contents := tables.contents.insertIfNew (digest octets) octets }

/-- The tables of a dump. -/
def ofDump (dump : Dump) : BlobTables :=
  dump.documents.foldl (addDocument dump) ⟨dump.projectRoot, ∅, ∅, .ofDump dump⟩

/-- The stored octets at an address. -/
def octets? (tables : BlobTables) (uri : String) : Option (List UInt8) := do
  let digest ← tables.documents[uri]?
  tables.contents[digest]?

/-- The stored octets of the document of a path. -/
def document (tables : BlobTables) (uri path : String) : Except Failure (List UInt8) :=
  match tables.octets? uri with
  | some octets => .ok octets
  | none => .error (.noDocument path)

end BlobTables

/-- A converted dump. -/
inductive Tables where
  | graph (tables : GraphTables)
  | blob (tables : BlobTables)

namespace Tables

/-- The encoding that tables hold. -/
def kind : Tables → Encoding
  | graph _ => .graph
  | blob _ => .blob

/-- Converts a dump. -/
def ofElements (kind : Encoding) (elements : List Element) : Except Failure Tables := do
  let dump ← Dump.ofElements elements
  match kind with
  | .graph => return .graph (.ofDump elements dump)
  | _ => return .blob (.ofDump dump)

/-- The root that the dump stated. -/
def projectRoot : Tables → Option String
  | graph tables => tables.projectRoot
  | blob tables => tables.projectRoot

/-- The rows by moniker. -/
def rows : Tables → RowTables
  | graph tables => tables.rows
  | blob tables => tables.rows

/-- Whether there is a document at an address. -/
def hasDocument (uri : String) : Tables → Bool
  | graph tables => tables.documents.contains uri
  | blob tables => tables.documents.contains uri

/-- The stored octets of the document of a path. -/
def document (uri path : String) : Tables → Except Failure (List UInt8)
  | graph tables => (tables.document uri path).map Document.encode
  | blob tables => tables.document uri path

end Tables

end CodeNav
