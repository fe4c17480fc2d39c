/-
Module: CodeNav.Dump.Document
Purpose: One document cut out of the graph of a dump.
Main exports:
  Dump.localRanges, Dump.reach, Dump.document?
-/
import CodeNav.Dump.Basic

namespace CodeNav.Dump

/-!
A document holds its ranges by start, and everything reachable from them: chain nodes, results,
monikers and packages.  Results are restricted to ranges of the document; one that has nothing
left is dropped, so that queries fall back to monikers.
-/

/-- The ranges of a document as they were put there, ordered by start and end. -/
def localRanges (dump : Dump) (document : VertexId) : List (VertexId × Range) :=
  let found := (dump.contents.getD document []).filterMap fun id =>
    dump.ranges[id]?.map fun range => (id, range)
  found.mergeSort fun a b => (Range.order a.2 b.2).isLE

/-- What a range or result set carries. -/
def nodeOf (dump : Dump) (id : VertexId) : ChainNode :=
  dump.links.getD id .empty

/-- The result sets reached from pending ones, added to those visited; `fuel` bounds the steps. -/
def reach (dump : Dump) : Nat → List VertexId → Table ChainNode → Table ChainNode
  | 0, _, visited => visited
  | _, [], visited => visited
  | fuel + 1, id :: pending, visited =>
    if visited.contains id || !dump.resultSets.contains id then reach dump fuel pending visited
    else
      let node := dump.nodeOf id
      reach dump fuel (node.next.toList ++ pending) (visited.insert id node)

/-- The result sets reached from some nodes. Every result set is entered at most once and then
leaves one more to be looked at. -/
def reachable (dump : Dump) (nodes : List ChainNode) : Table ChainNode :=
  let pending := nodes.filterMap (·.next)
  dump.reach (pending.length + dump.resultSets.size + 1) pending ∅

/-- The identifiers that belong to the document. -/
def inDocument (locals : List VertexId) (ids : List VertexId) : List VertexId :=
  ids.filter locals.contains

/-- A definition result restricted to a document, unless nothing is left. -/
def definitionIn? (dump : Dump) (locals : List VertexId) (id : VertexId) :
    Option DefinitionResult :=
  let values := inDocument locals (dump.items.getD id .empty).values
  if !dump.definitionResults.contains id || values.isEmpty then none else some ⟨values⟩

/-- A reference result restricted to a document, unless nothing is left. Ranges listed without a
property count as references. -/
def referenceIn? (dump : Dump) (locals : List VertexId) (id : VertexId) :
    Option ReferenceResult :=
  let items := dump.items.getD id .empty
  let definitions := inDocument locals items.definitions
  let references := inDocument locals items.references ++ inDocument locals items.values
  if !dump.referenceResults.contains id || (definitions.isEmpty && references.isEmpty) then none
  else some ⟨definitions, references⟩

/-- The table of what some identifiers stand for. -/
def tableOf {α : Type} (find : VertexId → Option α) (ids : List VertexId) : Table α :=
  ids.foldl (fun table id => (find id).elim table (table.insert id ·)) ∅

/-- The index of each range in the order of ranges. -/
def indexTable (ids : List VertexId) : Table UInt64 :=
  ids.zipIdx.foldl (fun table (id, index) => table.insert id (UInt64.ofNat index)) ∅

/-- Cuts out a document. -/
def documentOf (dump : Dump) (id : VertexId) : Document :=
  let ranges := dump.localRanges id
  let locals := ranges.map (·.1)
  let rangeNodes := locals.map dump.nodeOf
  let resultSets := dump.reachable rangeNodes
  let nodes := rangeNodes ++ resultSets.values
  let monikers := tableOf dump.moniker? (nodes.flatMap (·.monikers))
  { ranges := indexTable locals
    orderedRanges := ranges.map fun (id, range) => ⟨range, dump.nodeOf id⟩
    resultSets
    monikers
    packages := tableOf (dump.packages[·]?) (monikers.values.filterMap (·.package))
    definitionResults := tableOf (dump.definitionIn? locals) (nodes.filterMap (·.definitionResult))
    referenceResults := tableOf (dump.referenceIn? locals) (nodes.filterMap (·.referenceResult))
    hovers := tableOf (dump.hovers[·]?) (nodes.filterMap (·.hoverResult)) }

/-- The document with an identifier, if there is one. -/
def document? (dump : Dump) (id : VertexId) : Option Document :=
  if dump.documents.contains id then some (dump.documentOf id) else none

end CodeNav.Dump
