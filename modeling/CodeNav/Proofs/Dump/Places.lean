/-
Module: CodeNav.Proofs.Dump.Places
Purpose: In which document each range lies and which vertices list items, read off the edges.
Main exports:
  Element.rangeDocument?, Element.listsItems, Dump.rangeDocuments_ofElements,
  Dump.items?_ofElements
-/
import CodeNav.Proofs.Dump.Graph

namespace CodeNav

/-! ### Edges -/

namespace Edge

/-- Whether an edge lists items, be it none at all. -/
def listsItems (e : Edge) : Bool :=
  EdgeLabel.ofName? e.label = some .item

/-- The source of the last edge that contains a range. -/
def container? (range : VertexId) (es : List Edge) : Option VertexId :=
  ((labelled .contains es).filter (range ∈ ·.targets)).getLast?.map (·.source)

/-- The document that comes with the first edge that lists a range as an item and has one. Items
that are results do not count. -/
def itemDocument? (range : VertexId) (es : List Edge) : Option VertexId :=
  ((labelled .item es).filter fun e =>
    e.property ≠ some "referenceResults" ∧ range ∈ e.targets).findSome? (·.document)

/-- The document of a range: containing it counts for more than listing it. -/
def rangeDocument? (range : VertexId) (es : List Edge) : Option VertexId :=
  (container? range es).or (itemDocument? range es)

/-- What a further edge makes of the document of a range. -/
def place (range : VertexId) (known : Option VertexId) (e : Edge) : Option VertexId :=
  match EdgeLabel.ofName? e.label with
  | some .contains => if range ∈ e.targets then some e.source else known
  | some .item =>
    if e.property ≠ some "referenceResults" ∧ range ∈ e.targets then known.or e.document
    else known
  | _ => known

theorem rangeDocument?_snoc (range : VertexId) (es : List Edge) (e : Edge) :
    rangeDocument? range (es ++ [e]) = place range (rangeDocument? range es) e := by
  unfold place
  cases known : EdgeLabel.ofName? e.label with
  | none =>
      simp [rangeDocument?, container?, itemDocument?, EdgeFacts.labelled_snoc, known]
  | some label =>
      cases label with
      | contains =>
          by_cases among : range ∈ e.targets <;>
            simp [rangeDocument?, container?, itemDocument?, EdgeFacts.labelled_snoc, known, among]
      | item =>
          by_cases counts : e.property ≠ some "referenceResults" ∧ range ∈ e.targets <;>
            simp [rangeDocument?, container?, itemDocument?, EdgeFacts.labelled_snoc, known, counts,
              Option.or_assoc]
      | _ =>
          simp [rangeDocument?, container?, itemDocument?, EdgeFacts.labelled_snoc, known]

theorem foldl_place (range : VertexId) (es : List Edge) :
    es.foldl (place range) none = rangeDocument? range es := by
  induction es using List.reverseRecOn with
  | nil => rfl
  | append_singleton es e ih => simp [ih, rangeDocument?_snoc]

end Edge

namespace Element

/-- The document of a range. -/
def rangeDocument? (elements : List Element) (range : VertexId) : Option VertexId :=
  Edge.rangeDocument? range (edges elements)

/-- Whether an edge out of a vertex lists items, be it none at all. -/
def listsItems (elements : List Element) (id : VertexId) : Bool :=
  (edgesFrom elements id).any Edge.listsItems

end Element

/-! ### One edge -/

namespace Dump

open Element

theorem rangeDocuments_addContents (document range : VertexId) (ranges : List VertexId)
    (dump : Dump) :
    (ranges.foldl (addContent document) dump).rangeDocuments[range]? =
      if range ∈ ranges then some document else dump.rangeDocuments[range]? := by
  induction ranges generalizing dump with
  | nil => simp
  | cons other rest ih =>
      rw [List.foldl_cons, ih]
      by_cases same : other = range
      · simp [addContent, same]
      · simp [addContent, Std.ExtTreeMap.getElem?_insert, same, Ne.symm same]

theorem rangeDocuments_addRangeDocument (document other range : VertexId) (dump : Dump) :
    (addRangeDocument document dump other).rangeDocuments[range]? =
      if other = range then dump.rangeDocuments[range]?.or (some document)
      else dump.rangeDocuments[range]? := by
  simp only [addRangeDocument, Std.ExtTreeMap.getElem?_insertIfNew,
    Std.LawfulEqOrd.compare_eq_iff_eq, Std.ExtTreeMap.mem_iff_isSome_getElem?]
  by_cases same : other = range
  · subst same
    cases dump.rangeDocuments[other]? <;> simp
  · simp [same]

theorem rangeDocuments_addRangeDocuments (document range : VertexId) (ranges : List VertexId)
    (dump : Dump) :
    (ranges.foldl (addRangeDocument document) dump).rangeDocuments[range]? =
      if range ∈ ranges then dump.rangeDocuments[range]?.or (some document)
      else dump.rangeDocuments[range]? := by
  induction ranges generalizing dump with
  | nil => simp
  | cons other rest ih =>
      rw [List.foldl_cons, ih, rangeDocuments_addRangeDocument]
      by_cases same : other = range
      · cases dump.rangeDocuments[range]? <;> simp [same]
      · simp [same, Ne.symm same]

theorem rangeDocuments_addItems (dump : Dump) (edge : Edge) (range : VertexId) :
    (dump.addItems edge).rangeDocuments[range]? =
      if edge.property ≠ some "referenceResults" ∧ range ∈ edge.targets then
        dump.rangeDocuments[range]?.or edge.document
      else dump.rangeDocuments[range]? := by
  unfold addItems
  split
  · rename_i results
    simp [results]
  · rename_i unstated _
    simp [unstated]
  · rename_i document _ stated
    rw [rangeDocuments_addRangeDocuments]
    simp_all

/-- An edge places the ranges that it contains, and those that it lists unless they are placed. -/
theorem rangeDocuments_addEdge (dump : Dump) (edge : Edge) (range : VertexId) :
    (dump.addEdge edge).rangeDocuments[range]? =
      Edge.place range dump.rangeDocuments[range]? edge := by
  unfold addEdge Edge.place
  cases EdgeLabel.ofName? edge.label with
  | none => rfl
  | some label =>
      cases label with
      | contains => exact rangeDocuments_addContents _ _ _ _
      | item => exact rangeDocuments_addItems _ _ _
      | package =>
          simp only [addEdgeLabelled, addMonikerPackage]
          split <;> rfl
      | _ => rfl

/-- What no range changes, none of several does. -/
theorem view_foldl {β : Type} (view : Dump → β) (step : Dump → VertexId → Dump)
    (kept : ∀ dump range, view (step dump range) = view dump) (ranges : List VertexId)
    (dump : Dump) : view (ranges.foldl step dump) = view dump := by
  induction ranges generalizing dump with
  | nil => rfl
  | cons range rest ih => rw [List.foldl_cons, ih, kept]

theorem items_addItems_contains (dump : Dump) (edge : Edge) (id : VertexId) :
    (dump.addItems edge).items.contains id = (dump.items.contains id || edge.source = id) := by
  have listed : (dump.addItems edge).items =
      dump.items.insert edge.source
        ((dump.items.getD edge.source .empty).add edge.property edge.targets) := by
    unfold addItems
    split
    · rfl
    · rfl
    · exact view_foldl (·.items) (addRangeDocument _) (fun _ _ => rfl) _ _
  rw [listed, Std.ExtTreeMap.contains_insert]
  by_cases same : edge.source = id <;> simp [same]

theorem items_addEdge_contains (dump : Dump) (edge : Edge) (id : VertexId) :
    (dump.addEdge edge).items.contains id =
      (dump.items.contains id || (edge.listsItems && edge.source = id)) := by
  unfold addEdge Edge.listsItems
  cases EdgeLabel.ofName? edge.label with
  | none => simp
  | some label =>
      cases label with
      | item => simpa [addEdgeLabelled] using items_addItems_contains dump edge id
      | contains =>
          have kept := view_foldl (·.items) (addContent edge.source) (fun _ _ => rfl) edge.targets dump
          simp [addEdgeLabelled, kept]
      | package =>
          simp only [addEdgeLabelled, addMonikerPackage]
          split <;> simp
      | _ => simp [addEdgeLabelled, link]

/-! ### Whole dumps -/

/-- What a graph holds beside the vertices is folded from the edges. -/
theorem view_foldlM {β : Type} (view : Dump → β) (step : β → Edge → β)
    (puts : ∀ dump id content, view (put dump id content) = view dump)
    (adds : ∀ dump edge, view (addEdge dump edge) = step (view dump) edge)
    {elements : List Element} {dump after : Dump}
    (folded : elements.foldlM addElement dump = .ok after) :
    view after = (edges elements).foldl step (view dump) := by
  induction elements generalizing dump with
  | nil =>
      cases folded
      rfl
  | cons element rest ih =>
      rw [List.foldlM_cons] at folded
      obtain ⟨next, added, folded⟩ := Success.bind_eq_ok.mp folded
      rcases addElement_eq_ok added with ⟨v, content, rfl, _, rfl⟩ | ⟨e, rfl, rfl⟩
      · rw [ih folded, puts, edges_cons_vertex]
      · rw [ih folded, adds, edges_cons_edge, List.foldl_cons]

section

variable {elements : List Element} {dump : Dump} (accepted : ofElements elements = .ok dump)
include accepted

theorem rangeDocuments_ofElements (range : VertexId) :
    dump.rangeDocuments[range]? = Element.rangeDocument? elements range := by
  rw [Element.rangeDocument?, ← Edge.foldl_place]
  have folded := view_foldlM (·.rangeDocuments[range]?) (Edge.place range)
    (fun _ _ content => by cases content <;> rfl)
    (fun dump edge => rangeDocuments_addEdge dump edge range) accepted
  rw [folded]
  simp [empty]

theorem items_contains (id : VertexId) :
    dump.items.contains id = Element.listsItems elements id := by
  have folded := view_foldlM (·.items.contains id)
    (fun known edge => known || (edge.listsItems && edge.source = id))
    (fun _ _ content => by cases content <;> rfl)
    (fun dump edge => items_addEdge_contains dump edge id) accepted
  have any (es : List Edge) (known : Bool) :
      es.foldl (fun known edge => known || (edge.listsItems && edge.source = id)) known =
        (known || (es.filter (·.source = id)).any Edge.listsItems) := by
    induction es generalizing known with
    | nil => simp
    | cons e rest ih => by_cases same : e.source = id <;> simp [ih, same, Bool.or_assoc]
  rw [folded, any]
  simp [empty, Element.listsItems, edgesFrom]

/-- A vertex has items if an edge lists some, or none, under it. -/
theorem items?_ofElements (id : VertexId) :
    dump.items[id]? =
      if Element.listsItems elements id then
        some (EdgeFacts.ofEdges (edgesFrom elements id)).items
      else none := by
  have present := items_contains accepted id
  have listed := items_ofElements accepted id
  rw [Std.ExtTreeMap.contains_eq_isSome_getElem?] at present
  rw [Std.ExtTreeMap.getD_eq_getD_getElem?] at listed
  cases found : dump.items[id]? with
  | none => simpa [found] using present
  | some items =>
      rw [found] at present listed
      simp only [Option.isSome_some] at present
      rw [if_pos present.symm, ← listed]
      rfl

end

end Dump

end CodeNav
