/-
Module: CodeNav.Dump.Basic
Purpose: The elements of a dump correlated into one graph.
Main exports:
  VertexLabel, EdgeLabel, Items, Dump, Dump.ofElements, Dump.parse
-/
import CodeNav.Document.Json
import CodeNav.Dump.Text
import Std.Data.ExtTreeSet

namespace CodeNav

open Json (Decoder Shape Value)

/-- The vertices that matter for queries. -/
inductive VertexLabel where
  | metaData
  | document
  | range
  | resultSet
  | definitionResult
  | referenceResult
  | hoverResult
  | moniker
  | package
deriving Repr, DecidableEq

/-- The vertex label with a name. -/
def VertexLabel.ofName? : String → Option VertexLabel
  | "metaData" => some .metaData
  | "document" => some .document
  | "range" => some .range
  | "resultSet" => some .resultSet
  | "definitionResult" => some .definitionResult
  | "referenceResult" => some .referenceResult
  | "hoverResult" => some .hoverResult
  | "moniker" => some .moniker
  | "packageInformation" => some .package
  | _ => none

/-- The edges that matter for queries. -/
inductive EdgeLabel where
  | contains
  | next
  | definition
  | references
  | hover
  | moniker
  | package
  | item
deriving Repr, DecidableEq

/-- The edge label with a name. -/
def EdgeLabel.ofName? : String → Option EdgeLabel
  | "contains" => some .contains
  | "next" => some .next
  | "textDocument/definition" => some .definition
  | "textDocument/references" => some .references
  | "textDocument/hover" => some .hover
  | "moniker" => some .moniker
  | "packageInformation" => some .package
  | "item" => some .item
  | _ => none

/-- The ranges that a result lists, by the property of the edges that list them. -/
structure Items where
  values : List VertexId
  definitions : List VertexId
  references : List VertexId
deriving Repr, DecidableEq, Inhabited

/-- No ranges. -/
def Items.empty : Items :=
  ⟨[], [], []⟩

/-- Lists further ranges. Nested reference results are not followed. -/
def Items.add (items : Items) (property : Option String) (targets : List VertexId) : Items :=
  match property with
  | some "definitions" => { items with definitions := items.definitions ++ targets }
  | some "references" => { items with references := items.references ++ targets }
  | some "referenceResults" => items
  | _ => { items with values := items.values ++ targets }

/-- A set of vertices. -/
abbrev VertexSet := Std.ExtTreeSet VertexId

/-- The correlated graph of one dump. -/
structure Dump where
  projectRoot : Option String
  /-- The address of each document. -/
  documents : Table String
  ranges : Table Range
  resultSets : VertexSet
  definitionResults : VertexSet
  referenceResults : VertexSet
  hovers : Table Hover
  /-- The monikers, without their packages. -/
  monikers : Table Moniker
  packages : Table Package
  /-- The ranges of each document. -/
  contents : Table (List VertexId)
  /-- The document of each range. -/
  rangeDocuments : Table VertexId
  /-- What ranges and result sets carry. -/
  links : Table ChainNode
  monikerPackages : Table VertexId
  items : Table Items

namespace Dump

/-- The graph without vertices. -/
def empty : Dump where
  projectRoot := none
  documents := ∅
  ranges := ∅
  resultSets := ∅
  definitionResults := ∅
  referenceResults := ∅
  hovers := ∅
  monikers := ∅
  packages := ∅
  contents := ∅
  rangeDocuments := ∅
  links := ∅
  monikerPackages := ∅
  items := ∅

instance : Inhabited Dump := ⟨empty⟩

/-! ### Vertices -/

/-- The hover that a vertex holds. -/
def hoverShape : Shape Hover where
  name := "struct HoverVertex"
  start := default
  fields := [.needed "result" Hover.decoder fun _ hover => hover]

/-- The kind that a vertex states: one without a known kind is neither imported nor exported. -/
def statedKind (name : Option String) : MonikerKind :=
  (name.bind MonikerKind.ofName?).getD .internal

/-- The moniker that a vertex holds. -/
def monikerShape : Shape Moniker where
  name := "struct MonikerVertex"
  start := ⟨"", "", .internal, none⟩
  fields :=
    [.needed "scheme" Decoder.string fun m scheme => { m with scheme },
     .needed "identifier" Decoder.string fun m identifier => { m with identifier },
     .defaulted "kind" (Decoder.option Decoder.string)
       fun m name => { m with kind := statedKind name }]

/-- The address that a document vertex holds. -/
def addressOf (vertex : Vertex) : Except Failure String :=
  match Element.text? vertex.value "uri" with
  | some uri => .ok uri
  | none => .error (.documentWithoutUri vertex.id.text)

/-- Takes a vertex with a known label into the graph. -/
def addLabelled (dump : Dump) (vertex : Vertex) (label : VertexLabel) : Except Failure Dump :=
  let id := vertex.id
  match label with
  | .metaData => .ok { dump with projectRoot := Element.text? vertex.value "projectRoot" }
  | .document => do
    let uri ← addressOf vertex
    return { dump with documents := dump.documents.insert id uri }
  | .range => do
    let range ← Element.decode Range.decoder vertex.value
    return { dump with ranges := dump.ranges.insert id range }
  | .resultSet => .ok { dump with resultSets := dump.resultSets.insert id }
  | .definitionResult => .ok { dump with definitionResults := dump.definitionResults.insert id }
  | .referenceResult => .ok { dump with referenceResults := dump.referenceResults.insert id }
  | .hoverResult => do
    let hover ← Element.decode (Decoder.shape hoverShape) vertex.value
    return { dump with hovers := dump.hovers.insert id hover }
  | .moniker => do
    let moniker ← Element.decode (Decoder.shape monikerShape) vertex.value
    return { dump with monikers := dump.monikers.insert id moniker }
  | .package => do
    let package ← Element.decode Package.decoder vertex.value
    return { dump with packages := dump.packages.insert id package }

/-- Takes a vertex into the graph; one with another label is passed over. -/
def addVertex (dump : Dump) (vertex : Vertex) : Except Failure Dump :=
  match VertexLabel.ofName? vertex.label with
  | some label => dump.addLabelled vertex label
  | none => .ok dump

/-! ### Edges -/

/-- Changes what a range or result set carries. -/
def link (dump : Dump) (id : VertexId) (change : ChainNode → ChainNode) : Dump :=
  { dump with links := dump.links.insert id (change (dump.links.getD id .empty)) }

/-- Puts a range into a document, which becomes the document of the range. -/
def addContent (document : VertexId) (dump : Dump) (range : VertexId) : Dump :=
  { dump with
    contents := dump.contents.insert document (dump.contents.getD document [] ++ [range])
    rangeDocuments := dump.rangeDocuments.insert range document }

/-- Names the document of a range unless it has one. -/
def addRangeDocument (document : VertexId) (dump : Dump) (range : VertexId) : Dump :=
  { dump with rangeDocuments := dump.rangeDocuments.insertIfNew range document }

/-- Lists ranges under a result. Ranges listed with a document belong to it unless they are known
to belong elsewhere; nested results are passed over. -/
def addItems (dump : Dump) (edge : Edge) : Dump :=
  let items := (dump.items.getD edge.source .empty).add edge.property edge.targets
  let dump := { dump with items := dump.items.insert edge.source items }
  match edge.property, edge.document with
  | some "referenceResults", _ | _, none => dump
  | _, some document => edge.targets.foldl (addRangeDocument document) dump

/-- Names the package of a moniker. -/
def addMonikerPackage (dump : Dump) (edge : Edge) : Dump :=
  match edge.targets.head? with
  | some package =>
    { dump with monikerPackages := dump.monikerPackages.insert edge.source package }
  | none => dump

/-- Takes an edge with a known label into the graph. -/
def addEdgeLabelled (dump : Dump) (edge : Edge) (label : EdgeLabel) : Dump :=
  let first := edge.targets.head?
  match label with
  | .contains => edge.targets.foldl (addContent edge.source) dump
  | .next => dump.link edge.source fun node => { node with next := first }
  | .definition => dump.link edge.source fun node => { node with definitionResult := first }
  | .references => dump.link edge.source fun node => { node with referenceResult := first }
  | .hover => dump.link edge.source fun node => { node with hoverResult := first }
  | .moniker =>
    dump.link edge.source fun node => { node with monikers := node.monikers ++ edge.targets }
  | .package => dump.addMonikerPackage edge
  | .item => dump.addItems edge

/-- Takes an edge into the graph; one with another label is passed over. -/
def addEdge (dump : Dump) (edge : Edge) : Dump :=
  match EdgeLabel.ofName? edge.label with
  | some label => dump.addEdgeLabelled edge label
  | none => dump

/-! ### Whole dumps -/

/-- Takes an element into the graph. -/
def addElement (dump : Dump) : Element → Except Failure Dump
  | .vertex v => dump.addVertex v
  | .edge e => .ok (dump.addEdge e)

/-- The graph of some elements. -/
def ofElements (elements : List Element) : Except Failure Dump :=
  elements.foldlM addElement empty

/-- The graph of a dump; a compressed one may not expand past the limit. -/
def parse (limit : Option Nat) (octets : List UInt8) : Except Failure Dump := do
  let elements ← parseElements limit octets
  ofElements elements

/-- The document at an address; of several the first in the order of identifiers. -/
def documentId? (dump : Dump) (uri : String) : Option VertexId :=
  (dump.documents.toList.find? fun (_, candidate) => candidate == uri).map (·.1)

/-- A moniker with its package. -/
def moniker? (dump : Dump) (id : VertexId) : Option Moniker :=
  dump.monikers[id]?.map fun moniker => { moniker with package := dump.monikerPackages[id]? }

/-- Every moniker in the order of identifiers, with its package if that is known. -/
def monikersWithPackages (dump : Dump) : List (Moniker × Option Package) :=
  (dump.monikers.keys.filterMap dump.moniker?).map fun moniker =>
    (moniker, moniker.package.bind fun id => dump.packages[id]?)

end Dump

end CodeNav
