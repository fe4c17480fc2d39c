/-
Module: CodeNav.Document.Chain
Purpose: Results and monikers inherited along result chains.
Main exports:
  ResultKind, Chain.walk, Document.chain, Document.findResult?, Document.findMonikers
-/
import CodeNav.Document.Basic

namespace CodeNav

/-- The results that a chain node may carry. -/
inductive ResultKind where
  | definition
  | reference
  | hover
deriving Repr, DecidableEq, Inhabited

/-- The result of a kind that a node carries itself. -/
def ResultKind.of : ResultKind → ChainNode → Option VertexId
  | .definition, node => node.definitionResult
  | .reference, node => node.referenceResult
  | .hover, node => node.hoverResult

/-- The node that a node inherits from. -/
def Chain.successor? (sets : Table ChainNode) (node : ChainNode) : Option ChainNode := do
  let next ← node.next
  sets[next]?

/-- The nodes met from a start along at most `hops` links. -/
def Chain.walk (sets : Table ChainNode) : Nat → ChainNode → List ChainNode
  | 0, node => [node]
  | hops + 1, node =>
    match Chain.successor? sets node with
    | none => [node]
    | some next => node :: Chain.walk sets hops next

namespace Document

/-- The nodes met from a start. One hop for each result set reaches every node of a chain without
a cycle, and ends the walk on a cycle. -/
def chain (document : Document) (start : ChainNode) : List ChainNode :=
  Chain.walk document.resultSets document.resultSets.size start

/-- The first result of a kind along the chain that resolves in a table. -/
def findResult? {α : Type} (document : Document) (table : Table α) (start : ChainNode)
    (kind : ResultKind) : Option α :=
  (document.chain start).findSome? fun node => do
    let id ← kind.of node
    table[id]?

/-- The definition that a node carries or inherits. -/
def definition? (document : Document) (start : ChainNode) : Option DefinitionResult :=
  document.findResult? document.definitionResults start .definition

/-- The references that a node carries or inherits. -/
def reference? (document : Document) (start : ChainNode) : Option ReferenceResult :=
  document.findResult? document.referenceResults start .reference

/-- The hover that a node carries or inherits. -/
def hover? (document : Document) (start : ChainNode) : Option Hover :=
  document.findResult? document.hovers start .hover

/-- Every moniker attached along the chain, most actionable first. -/
def findMonikers (document : Document) (start : ChainNode) : List Moniker :=
  Moniker.sort ((document.chain start).flatMap fun node =>
    node.monikers.filterMap fun id => document.monikers[id]?)

end Document

end CodeNav
