/-
Module: CodeNav.Dump.Rows
Purpose: Definitions and references by moniker, for look-ups from other documents.
Main exports:
  MonikerRow, RowKind, Dump.rows
-/
import CodeNav.Dump.Basic

namespace CodeNav

/-- A definition or reference of a moniker. -/
structure MonikerRow where
  scheme : String
  identifier : String
  /-- The address of the document. -/
  uri : String
  range : Range
deriving Repr, DecidableEq

/-- Which rows: definitions, or definitions and references together. -/
inductive RowKind where
  | definitions
  | references
deriving Repr, DecidableEq

namespace RowKind

/-- The result that rows are taken from. -/
def resultOf : RowKind → ChainNode → Option VertexId
  | .definitions, node => node.definitionResult
  | .references, node => node.referenceResult

/-- The ranges of a result that become rows. -/
def rangesOf : RowKind → Items → List VertexId
  | .definitions, items => items.values
  | .references, items => items.definitions ++ items.references ++ items.values

end RowKind

namespace Dump

/-- The ranges of the first result along a chain; `fuel` bounds the nodes looked at. -/
def chainItems? (dump : Dump) (kind : RowKind) : Nat → VertexId → Option Items
  | 0, _ => none
  | fuel + 1, id =>
    match dump.links[id]? with
    | none => none
    | some node =>
      match (kind.resultOf node).bind (dump.items[·]?) with
      | some items => some items
      | none => node.next.bind (chainItems? dump kind fuel)

/-- The row of a moniker and a range, if range and document are known. -/
def row? (dump : Dump) (moniker : Moniker) (range : VertexId) : Option MonikerRow := do
  let found ← dump.ranges[range]?
  let document ← dump.rangeDocuments[range]?
  let uri ← dump.documents[document]?
  return ⟨moniker.scheme, moniker.identifier, uri, found⟩

/-- The rows of one node: each of its monikers with each range that its chain reaches. -/
def nodeRows (dump : Dump) (kind : RowKind) (id : VertexId) (node : ChainNode) :
    List MonikerRow :=
  match dump.chainItems? kind (dump.links.size + 1) id with
  | none => []
  | some items =>
    (node.monikers.filterMap (dump.monikers[·]?)).flatMap fun moniker =>
      (kind.rangesOf items).filterMap (dump.row? moniker)

/-- All rows in the order of nodes, each once. -/
def rows (dump : Dump) (kind : RowKind) : List MonikerRow :=
  (dump.links.toList.flatMap fun (id, node) => dump.nodeRows kind id node).eraseDups

end Dump

end CodeNav
