/-
Module: CodeNav.Proofs.Dump.Nearest
Purpose: The nearest result with items on a chain of links, and the items that it lists.
Main exports:
  RowKind.counts, Element.mem_rangesOf_itemsOf, Element.Nearest, Dump.chainItems?_eq_some_iff
-/
import CodeNav.Dump.Rows
import CodeNav.Proofs.Dump.Places
import Mathlib.Data.List.Perm.Subperm

namespace CodeNav

/-! ### Items -/

/-- Whether items listed with a property become rows. Nested results are not followed. -/
def RowKind.counts : RowKind → Option String → Bool
  | .definitions, property => Edge.isPlain property
  | .references, property =>
    property = some "definitions" ∨ property = some "references" ∨ Edge.isPlain property

theorem Edge.mem_itemsWith {condition : Option String → Bool} {es : List Edge} {id : VertexId} :
    id ∈ itemsWith condition es ↔
      ∃ e ∈ es, e.listsItems ∧ condition e.property ∧ id ∈ e.targets := by
  simp [itemsWith, labelled, listsItems, and_assoc, and_left_comm]

namespace Element

/-- The items that are listed under a vertex. -/
def itemsOf (elements : List Element) (id : VertexId) : Items :=
  (EdgeFacts.ofEdges (edgesFrom elements id)).items

/-- The items that become rows are those whose property counts. -/
theorem mem_rangesOf_itemsOf {elements : List Element} {kind : RowKind} {id range : VertexId} :
    range ∈ kind.rangesOf (itemsOf elements id) ↔
      range ∈ Edge.itemsWith kind.counts (edgesFrom elements id) := by
  cases kind with
  | definitions => rfl
  | references =>
      simp only [RowKind.rangesOf, RowKind.counts, itemsOf, EdgeFacts.ofEdges, List.mem_append,
        Edge.mem_itemsWith, decide_eq_true_eq]
      grind

/-! ### Chains -/

/-- The vertex that a node links to next, of whatever kind. -/
def next? (elements : List Element) (id : VertexId) : Option VertexId :=
  (linksOf elements id).next

/-- The result that a node names, if items are listed under it. -/
def resultAt (elements : List Element) (kind : RowKind) (id : VertexId) : Option VertexId :=
  (kind.resultOf (linksOf elements id)).filter (listsItems elements)

/-- The nearest result on the chain of a node: the one with items named by the first node along its
links that names one. -/
def Nearest (elements : List Element) (kind : RowKind) : VertexId → VertexId → Prop :=
  Walk.Finds (next? elements) (resultAt elements kind)

end Element

namespace Dump

open Element

section

variable (dump : Dump) (kind : RowKind)

theorem nodeOf_eq_getD (id : VertexId) : dump.nodeOf id = dump.links[id]?.getD .empty :=
  Std.ExtTreeMap.getD_eq_getD_getElem?

/-- The items of the result that a node names. -/
def itemsAt? (id : VertexId) : Option Items :=
  (kind.resultOf (dump.nodeOf id)).bind (dump.items[·]?)

/-- A node without links ends a chain as one does that names nothing. -/
theorem chainItems?_succ (fuel : Nat) (id : VertexId) :
    dump.chainItems? kind (fuel + 1) id =
      (dump.itemsAt? kind id).or ((dump.nodeOf id).next.bind (dump.chainItems? kind fuel)) := by
  rw [chainItems?, itemsAt?, nodeOf_eq_getD]
  cases dump.links[id]? with
  | none => cases kind <;> rfl
  | some node =>
      simp only [Option.getD_some]
      cases (kind.resultOf node).bind (dump.items[·]?) <;> simp

theorem chainItems?_eq_trail (hops : Nat) (id : VertexId) :
    dump.chainItems? kind (hops + 1) id =
      (Walk.trail (fun id => (dump.nodeOf id).next) hops id).findSome? (dump.itemsAt? kind) := by
  induction hops generalizing id with
  | zero =>
      rw [chainItems?_succ]
      cases (dump.nodeOf id).next <;> simp [Walk.trail, chainItems?]
  | succ hops ih =>
      rw [chainItems?_succ]
      unfold Walk.trail
      cases (dump.nodeOf id).next with
      | none => simp
      | some next => cases own : dump.itemsAt? kind id <;> simp [own, ih]

/-- The walk along all links from a node. -/
def walkNext (id : VertexId) : List VertexId :=
  Walk.walkFrom (fun id => (dump.nodeOf id).next) (dump.links.toList.filterMap (·.2.next)).length []
    id

/-- A node that links on has links. -/
theorem mem_links_of_next {id next : VertexId} (links : (dump.nodeOf id).next = some next) :
    dump.links[id]? = some (dump.nodeOf id) := by
  rw [nodeOf_eq_getD] at links ⊢
  cases found : dump.links[id]? with
  | none =>
      rw [found] at links
      cases links
  | some node => rfl

theorem isWalk_walkNext (id : VertexId) :
    Walk.IsWalk (fun id => (dump.nodeOf id).next) id (dump.walkNext id) := by
  apply Walk.isWalk_walkFrom
  intro a b links
  refine List.mem_filterMap.mpr ⟨(a, dump.nodeOf a), ?_, links⟩
  rw [Std.ExtTreeMap.mem_toList_iff_getElem?_eq_some]
  exact dump.mem_links_of_next links

/-- Every node of a walk but the last has links, so the bound on chains is large enough. -/
theorem length_walkNext_le (id : VertexId) :
    (dump.walkNext id).length ≤ dump.links.size + 1 := by
  have walk := dump.isWalk_walkNext id
  have linked : (dump.walkNext id).dropLast ⊆ dump.links.keys := by
    intro other listed
    obtain ⟨next, links⟩ := walk.links_of_mem_dropLast listed
    rw [Std.ExtTreeMap.mem_keys, Std.ExtTreeMap.mem_iff_isSome_getElem?,
      dump.mem_links_of_next links]
    rfl
  have distinct : (dump.walkNext id).dropLast.Nodup :=
    walk.nodup.sublist (List.dropLast_sublist _)
  have fewer := (List.subperm_of_subset distinct linked).length_le
  rw [Std.ExtTreeMap.length_keys, List.length_dropLast] at fewer
  omega

/-- What is found along a chain, however long, is found within the bound. -/
theorem chainItems?_bound (items : Items) (id : VertexId) :
    dump.chainItems? kind (dump.links.size + 1) id = some items ↔
      Walk.Finds (fun id => (dump.nodeOf id).next) (dump.itemsAt? kind) id items := by
  rw [chainItems?_eq_trail, (dump.isWalk_walkNext id).findSome?_trail (dump.length_walkNext_le id)]
  exact (dump.isWalk_walkNext id).findSome?_eq_some_iff

end

variable {elements : List Element} {dump : Dump}

/-- The items found along a chain are those of the nearest result. -/
theorem chainItems?_eq_some_iff (accepted : ofElements elements = .ok dump) (kind : RowKind)
    (id : VertexId) (items : Items) :
    dump.chainItems? kind (dump.links.size + 1) id = some items ↔
      ∃ result, Nearest elements kind id result ∧ itemsOf elements result = items := by
  have links : (fun id => (dump.nodeOf id).next) = next? elements := by
    funext id
    rw [nodeOf_ofElements accepted, next?]
  have itemsAt : dump.itemsAt? kind = fun id => (resultAt elements kind id).map (itemsOf elements) := by
    funext id
    rw [itemsAt?, nodeOf_ofElements accepted, resultAt]
    cases kind.resultOf (linksOf elements id) with
    | none => rfl
    | some result =>
        rw [Option.bind_some, items?_ofElements accepted, Option.filter_some]
        split <;> rfl
  rw [chainItems?_bound, links, itemsAt, Walk.finds_map]
  rfl

end Dump

end CodeNav
