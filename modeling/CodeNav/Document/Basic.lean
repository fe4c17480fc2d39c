/-
Module: CodeNav.Document.Basic
Purpose: Everything needed to answer queries about one document.
Main exports:
  ChainNode, RangeEntry, DefinitionResult, ReferenceResult, Document, Document.locations
-/
import CodeNav.Hover
import CodeNav.Moniker

namespace CodeNav

/-!
Every reference inside a document is an identifier into one of the document's own tables.
References that do not resolve count as absent.
-/

/-- A node of a result chain: what it carries itself, and the node that it inherits from. -/
structure ChainNode where
  next : Option VertexId
  definitionResult : Option VertexId
  referenceResult : Option VertexId
  hoverResult : Option VertexId
  monikers : List VertexId
deriving Repr, DecidableEq, Inhabited

/-- The node that carries nothing. -/
def ChainNode.empty : ChainNode :=
  ⟨none, none, none, none, []⟩

/-- A range of a document with the chain node that starts at it. -/
structure RangeEntry where
  range : Range
  node : ChainNode
deriving Repr, DecidableEq, Inhabited

/-- The ranges that define a symbol. -/
structure DefinitionResult where
  values : List VertexId
deriving Repr, DecidableEq, Inhabited

/-- The ranges that refer to a symbol, its definitions apart. -/
structure ReferenceResult where
  definitions : List VertexId
  references : List VertexId
deriving Repr, DecidableEq, Inhabited

/-- One document of a dump. -/
structure Document where
  /-- For each range the index of its entry. -/
  ranges : Table UInt64
  /-- The entries, ordered by start. -/
  orderedRanges : List RangeEntry
  resultSets : Table ChainNode
  monikers : Table Moniker
  packages : Table Package
  definitionResults : Table DefinitionResult
  referenceResults : Table ReferenceResult
  hovers : Table Hover
deriving DecidableEq

namespace Document

/-- The document without content. -/
def empty : Document where
  ranges := ∅
  orderedRanges := []
  resultSets := ∅
  monikers := ∅
  packages := ∅
  definitionResults := ∅
  referenceResults := ∅
  hovers := ∅

instance : Inhabited Document := ⟨empty⟩

/-- The entry of a range. -/
def rangeById? (document : Document) (id : VertexId) : Option RangeEntry := do
  let index ← document.ranges[id]?
  document.orderedRanges[index.toNat]?

/-- The locations of ranges under a given address; ranges of other documents are skipped. -/
def locations (document : Document) (uri : String) (ids : List VertexId) : List Location :=
  (ids.filterMap document.rangeById?).map fun entry => ⟨uri, entry.range⟩

/-- The package of a moniker. -/
def packageOf? (document : Document) (moniker : Moniker) : Option Package := do
  let id ← moniker.package
  document.packages[id]?

end Document

end CodeNav
