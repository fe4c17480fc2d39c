/-
Module: CodeNav.Proofs.Dump.Rearranged
Purpose: The order of elements matters to a graph only where elements conflict.
Main exports:
  Element.Conflict, Element.Rearranged, Dump.DependsOn, Dump.order_matters_in_conflicts_only
-/
import CodeNav.Proofs.Dump.Relinked

namespace CodeNav

/-! ### Conflicts -/

/-- Whether an edge says in which document its targets lie. -/
def Edge.places (e : Edge) : Bool :=
  EdgeLabel.ofName? e.label = some .contains || EdgeLabel.ofName? e.label = some .item

/-- Whether an edge says what its source carries. -/
def Edge.isLink (e : Edge) : Bool :=
  [some .next, some .definition, some .references, some .hover, some .moniker].contains
    (EdgeLabel.ofName? e.label)

/-- Whether a vertex states the project root. -/
def Vertex.isMetaData (v : Vertex) : Bool :=
  VertexLabel.ofName? v.label = some .metaData

namespace Element

/-- Elements between which the later one may overwrite, or add to, what the earlier one says. -/
def Conflict : Element → Element → Prop
  | .vertex v, .vertex w => v.id = w.id ∨ (v.isMetaData ∧ w.isMetaData)
  | .edge e, .edge f =>
    e.source = f.source ∨ (e.places ∧ f.places ∧ ∃ target ∈ e.targets, target ∈ f.targets)
  | _, _ => False

instance : DecidableRel Conflict
  | .vertex v, .vertex w =>
    inferInstanceAs (Decidable (v.id = w.id ∨ (v.isMetaData ∧ w.isMetaData)))
  | .edge e, .edge f =>
    inferInstanceAs (Decidable
      (e.source = f.source ∨ (e.places ∧ f.places ∧ ∃ target ∈ e.targets, target ∈ f.targets)))
  | .vertex _, .edge _ => .isFalse id
  | .edge _, .vertex _ => .isFalse id

/-- The second list holds the elements of the first, taken from the given places; those that
conflict stay in order. -/
def Rearranged (first second : List Element) : Prop :=
  ∃ places : List (Fin first.length), places.Perm (List.finRange first.length) ∧
    places.map (first[·]) = second ∧
    places.Pairwise fun i j => Conflict first[i] first[j] → i < j

/-! ### Elements all of which conflict -/

/-- Whether an element is a vertex with an identifier. -/
def isVertex (id : VertexId) : Element → Bool
  | .vertex v => v.id = id
  | .edge _ => false

/-- Whether an element is an edge out of a vertex. -/
def isEdgeFrom (id : VertexId) : Element → Bool
  | .vertex _ => false
  | .edge e => e.source = id

/-- Whether an element states the project root. -/
def statesRoot : Element → Bool
  | .vertex v => v.isMetaData
  | .edge _ => false

/-- Whether an element may say in which document a range lies. -/
def placesRange (range : VertexId) : Element → Bool
  | .vertex _ => false
  | .edge e => e.places && range ∈ e.targets

/-- Any two of the elements that something holds of conflict. -/
def Rivals (matters : Element → Bool) : Prop :=
  ∀ a b, matters a = true → matters b = true → Conflict a b

theorem rivals_isVertex (id : VertexId) : Rivals (isVertex id) := by
  rintro (v | e) (w | f) one other
  · exact .inl ((of_decide_eq_true one).trans (of_decide_eq_true other).symm)
  all_goals first | cases one | cases other

theorem rivals_isEdgeFrom (id : VertexId) : Rivals (isEdgeFrom id) := by
  rintro (v | e) (w | f) one other
  case edge.edge => exact .inl ((of_decide_eq_true one).trans (of_decide_eq_true other).symm)
  all_goals first | cases one | cases other

theorem rivals_statesRoot : Rivals statesRoot := by
  rintro (v | e) (w | f) one other
  · exact .inr ⟨one, other⟩
  all_goals first | cases one | cases other

theorem rivals_placesRange (range : VertexId) : Rivals (placesRange range) := by
  rintro (v | e) (w | f) one other
  case edge.edge =>
    simp only [placesRange, Bool.and_eq_true, decide_eq_true_eq] at one other
    exact .inr ⟨one.1, other.1, range, one.2, other.2⟩
  all_goals first | cases one | cases other

/-! ### Rearranged elements -/

/-- Elements that conflict with each other are the same ones in the same order. -/
theorem Rearranged.filter_eq {first second : List Element} (rearranged : Rearranged first second)
    {matters : Element → Bool} (rivals : Rivals matters) :
    first.filter matters = second.filter matters := by
  obtain ⟨places, perm, rfl, ordered⟩ := rearranged
  let matter (i : Fin first.length) : Bool := matters first[i]
  have same : (List.finRange first.length).filter matter = places.filter matter := by
    -- both lists hold the same places, in ascending order
    refine List.Perm.eq_of_pairwise (fun i j _ _ before after => absurd before (lt_asymm after))
      ((List.pairwise_lt_finRange first.length).filter matter) ?_ (perm.symm.filter matter)
    exact List.pairwise_filter.mpr (ordered.imp fun stays one other =>
      stays (rivals _ _ one other))
  calc first.filter matters
      = ((List.finRange first.length).map (first[·])).filter matters :=
        congrArg (List.filter matters) (List.map_getElem_finRange first).symm
    _ = ((List.finRange first.length).filter matter).map (first[·]) := List.filter_map
    _ = (places.filter matter).map (first[·]) := by rw [same]
    _ = (places.map (first[·])).filter matters := List.filter_map.symm

theorem Rearranged.perm {first second : List Element} (rearranged : Rearranged first second) :
    first.Perm second := by
  obtain ⟨places, perm, rfl, -⟩ := rearranged
  exact (List.Perm.of_eq (List.map_getElem_finRange first).symm).trans (perm.symm.map _)

/-- Whether an element is an edge. -/
def isEdge : Element → Bool
  | .edge _ => true
  | .vertex _ => false

theorem not_conflict_of_isEdge {a b : Element} (edge : a.isEdge = true)
    (vertex : b.isEdge = false) : ¬Conflict a b := by
  cases a with
  | vertex v => cases edge
  | edge e =>
      cases b with
      | vertex w => exact id
      | edge f => cases vertex

/-- All edges may come before the vertices that they mention. -/
theorem rearranged_edges_first (elements : List Element) :
    Rearranged elements (elements.filter isEdge ++ elements.filter fun e => !e.isEdge) := by
  have each := List.map_getElem_finRange elements
  have ascending := List.pairwise_lt_finRange elements.length
  refine ⟨(List.finRange elements.length).filter (fun i => elements[i].isEdge) ++
    (List.finRange elements.length).filter (fun i => !elements[i].isEdge),
    List.filter_append_perm _ _, ?_, ?_⟩
  · conv_rhs => rw [← each, List.filter_map, List.filter_map]
    rw [List.map_append]
    rfl
  · refine List.pairwise_append.mpr ⟨?_, ?_, ?_⟩
    · exact (ascending.filter _).imp (by intro i j before _; exact before)
    · exact (ascending.filter _).imp (by intro i j before _; exact before)
    · intro i edge j vertex conflict
      refine absurd conflict (not_conflict_of_isEdge (List.mem_filter.mp edge).2 ?_)
      simpa using (List.mem_filter.mp vertex).2

end Element

/-! ### Views of a graph -/

namespace Dump

open Element

/-- A view of a graph that some elements alone decide. -/
structure DependsOn {β : Type} (view : Dump → β) (matters : Element → Bool) : Prop where
  kept : ∀ dump after element, matters element = false → dump.addElement element = .ok after →
    view after = view dump
  decided : ∀ a b nextA nextB element, view a = view b → a.addElement element = .ok nextA →
    b.addElement element = .ok nextB → view nextA = view nextB

/-- What can be taken into one graph can be taken into any. -/
theorem addElement_isOk {a nextA : Dump} {element : Element}
    (added : a.addElement element = .ok nextA) (b : Dump) :
    ∃ nextB, b.addElement element = .ok nextB := by
  rcases addElement_eq_ok added with ⟨v, content, rfl, read, -⟩ | ⟨e, rfl, -⟩
  · exact ⟨b.put v.id content, by rw [addElement, addVertex_eq_map_put, read]; rfl⟩
  · exact ⟨b.addEdge e, rfl⟩

section

variable {β : Type} {view : Dump → β} {matters : Element → Bool}

/-- Elements that do not matter to a view can be left out. -/
theorem DependsOn.foldlM_filter (depends : DependsOn view matters) {elements : List Element}
    {a b after : Dump} (same : view a = view b)
    (folded : elements.foldlM addElement a = .ok after) :
    ∃ fewer, (elements.filter matters).foldlM addElement b = .ok fewer ∧
      view after = view fewer := by
  induction elements generalizing a b with
  | nil =>
      cases folded
      exact ⟨b, rfl, same⟩
  | cons element rest ih =>
      rw [List.foldlM_cons] at folded
      obtain ⟨next, added, folded⟩ := Success.bind_eq_ok.mp folded
      cases matter : matters element with
      | false =>
          have kept := depends.kept a next element matter added
          simpa [matter] using ih (kept.trans same) folded
      | true =>
          obtain ⟨other, taken⟩ := addElement_isOk added b
          have alike := depends.decided a b next other element same added taken
          rw [List.filter_cons_of_pos matter, List.foldlM_cons, taken]
          exact ih alike folded

/-- Two graphs show the same if the elements that matter are the same in the same order. -/
theorem DependsOn.view_eq (depends : DependsOn view matters) {first second : List Element}
    {a b : Dump} (one : ofElements first = .ok a) (other : ofElements second = .ok b)
    (same : first.filter matters = second.filter matters) : view a = view b := by
  obtain ⟨fewer, folded, showsA⟩ := depends.foldlM_filter rfl one
  obtain ⟨alike, foldedToo, showsB⟩ := depends.foldlM_filter rfl other
  rw [same] at folded
  obtain rfl : fewer = alike := Except.ok.inj (folded.symm.trans foldedToo)
  exact showsA.trans showsB.symm

/-- A view is settled by what vertices put into it and edges add to it. -/
theorem DependsOn.of_steps
    (puts : ∀ dump vertex content, vertex.content = .ok content →
      matters (.vertex vertex) = false → view (put dump vertex.id content) = view dump)
    (adds : ∀ dump edge, matters (.edge edge) = false → view (addEdge dump edge) = view dump)
    (putsAlike : ∀ a b id content, view a = view b →
      view (put a id content) = view (put b id content))
    (addsAlike : ∀ a b edge, view a = view b → view (addEdge a edge) = view (addEdge b edge)) :
    DependsOn view matters where
  kept dump after element other added := by
    rcases addElement_eq_ok added with ⟨v, content, rfl, read, rfl⟩ | ⟨e, rfl, rfl⟩
    · exact puts dump v content read other
    · exact adds dump e other
  decided a b nextA nextB element same addedA addedB := by
    cases element with
    | edge e =>
        cases addedA
        cases addedB
        exact addsAlike a b e same
    | vertex v =>
        obtain ⟨content, read, rfl⟩ := addVertex_eq_ok addedA
        obtain ⟨again, readAgain, rfl⟩ := addVertex_eq_ok addedB
        obtain rfl : content = again := Except.ok.inj (read.symm.trans readAgain)
        exact putsAlike a b v.id content same

end

/-! ### The parts of a graph -/

theorem dependsOn_vertexFacts (id : VertexId) :
    DependsOn (·.vertexFacts id) (isVertex id) := by
  refine .of_steps ?_ ?_ ?_ ?_
  · intro dump v content _ other
    rw [vertexFacts_put, if_neg (by simpa [isVertex] using other)]
  · exact fun dump e _ => vertexFacts_addEdge dump e id
  · intro a b other content same
    rw [vertexFacts_put, vertexFacts_put, same]
  · intro a b e same
    rw [vertexFacts_addEdge, vertexFacts_addEdge, same]

theorem projectRoot_addEdge (dump : Dump) (e : Edge) :
    (dump.addEdge e).projectRoot = dump.projectRoot := by
  unfold addEdge
  cases EdgeLabel.ofName? e.label with
  | none => rfl
  | some label =>
      cases label with
      | contains => exact view_foldl (·.projectRoot) (addContent _) (fun _ _ => rfl) _ _
      | package =>
          simp only [addEdgeLabelled, addMonikerPackage]
          split <;> rfl
      | item =>
          simp only [addEdgeLabelled, addItems]
          split
          · rfl
          · rfl
          · exact view_foldl (·.projectRoot) (addRangeDocument _) (fun _ _ => rfl) _ _
      | _ => rfl

/-- Vertices with other labels do not hold a project root. -/
theorem projectRoot_put {v : Vertex} {content : VertexContent} (read : v.content = .ok content)
    (other : v.isMetaData = false) (dump : Dump) :
    (dump.put v.id content).projectRoot = dump.projectRoot := by
  cases content with
  | projectRoot root =>
      have known := Vertex.label?_content read
      simp [Vertex.isMetaData, ← known, VertexContent.label?] at other
  | _ => rfl

theorem dependsOn_projectRoot :
    DependsOn (·.projectRoot) statesRoot := by
  refine .of_steps ?_ ?_ ?_ ?_
  · exact fun dump v content read other => projectRoot_put read other dump
  · exact fun dump e _ => projectRoot_addEdge dump e
  · intro a b id content same
    cases content <;> first | exact same | rfl
  · intro a b e same
    rw [projectRoot_addEdge, projectRoot_addEdge, same]

theorem dependsOn_rangeDocuments (range : VertexId) :
    DependsOn (·.rangeDocuments[range]?) (placesRange range) := by
  have put (dump : Dump) (id : VertexId) (content : VertexContent) :
      (dump.put id content).rangeDocuments = dump.rangeDocuments := by
    cases content <;> rfl
  refine .of_steps ?_ ?_ ?_ ?_
  · intro dump v content _ _
    rw [put]
  · intro dump e other
    rw [rangeDocuments_addEdge]
    simp only [placesRange, Edge.places, Bool.and_eq_false_iff, Bool.or_eq_false_iff,
      decide_eq_false_iff_not] at other
    unfold Edge.place
    split <;> simp_all
  · intro a b id content same
    rw [put, put, same]
  · intro a b e same
    rw [rangeDocuments_addEdge, rangeDocuments_addEdge, same]

theorem dependsOn_edgeFacts (id : VertexId) :
    DependsOn (·.edgeFacts id) (isEdgeFrom id) := by
  refine .of_steps ?_ ?_ ?_ ?_
  · exact fun dump v content _ _ => edgeFacts_put dump v.id id content
  · intro dump e other
    rw [edgeFacts_addEdge, if_neg (by simpa [isEdgeFrom] using other)]
  · intro a b other content same
    rw [edgeFacts_put, edgeFacts_put, same]
  · intro a b e same
    rw [edgeFacts_addEdge, edgeFacts_addEdge, same]

/-- What some edges out of a vertex bring about depends on the edges out of it. -/
theorem dependsOn_of_present {view : Dump → Bool} {brings : Edge → Bool} {id : VertexId}
    (puts : ∀ dump other content, view (put dump other content) = view dump)
    (adds : ∀ dump e, view (addEdge dump e) = (view dump || (brings e && e.source = id))) :
    DependsOn view (isEdgeFrom id) := by
  refine .of_steps ?_ ?_ ?_ ?_
  · exact fun dump v content _ _ => puts dump v.id content
  · intro dump e other
    have elsewhere : e.source ≠ id := by simpa [isEdgeFrom] using other
    simp [adds, elsewhere]
  · intro a b other content same
    rw [puts, puts, same]
  · intro a b e same
    rw [adds, adds, same]

theorem dependsOn_items (id : VertexId) :
    DependsOn (·.items.contains id) (isEdgeFrom id) :=
  dependsOn_of_present (fun _ _ content => by cases content <;> rfl)
    fun dump e => items_addEdge_contains dump e id

/-- A document with contents is there once an edge puts something into it. -/
theorem contents_addContents_contains (document id : VertexId) (ranges : List VertexId)
    (dump : Dump) :
    (ranges.foldl (addContent document) dump).contents.contains id =
      (dump.contents.contains id || (!ranges.isEmpty && document = id)) := by
  induction ranges generalizing dump with
  | nil => simp
  | cons range rest ih =>
      rw [List.foldl_cons, ih]
      by_cases same : document = id <;> simp [addContent, same]

theorem contents_addEdge_contains (dump : Dump) (e : Edge) (id : VertexId) :
    (dump.addEdge e).contents.contains id =
      (dump.contents.contains id ||
        ((EdgeLabel.ofName? e.label = some .contains && !e.targets.isEmpty) &&
          e.source = id)) := by
  unfold addEdge
  cases EdgeLabel.ofName? e.label with
  | none => simp
  | some label =>
      cases label with
      | contains => simpa [addEdgeLabelled] using contents_addContents_contains e.source id _ dump
      | package =>
          simp only [addEdgeLabelled, addMonikerPackage]
          split <;> simp
      | item =>
          simp only [addEdgeLabelled, addItems]
          split
          · simp
          · simp
          · simp [view_foldl (·.contents) (addRangeDocument _) (fun _ _ => rfl)]
      | _ => simp [addEdgeLabelled, link]

theorem dependsOn_contents (id : VertexId) :
    DependsOn (·.contents.contains id) (isEdgeFrom id) :=
  dependsOn_of_present (fun _ _ content => by cases content <;> rfl)
    fun dump e => contents_addEdge_contains dump e id

theorem links_addEdge_contains (dump : Dump) (e : Edge) (id : VertexId) :
    (dump.addEdge e).links.contains id =
      (dump.links.contains id || (e.isLink && e.source = id)) := by
  unfold addEdge Edge.isLink
  cases EdgeLabel.ofName? e.label with
  | none => simp
  | some label =>
      cases label with
      | contains =>
          simp [addEdgeLabelled, view_foldl (·.links) (addContent _) (fun _ _ => rfl)]
      | package =>
          simp only [addEdgeLabelled, addMonikerPackage]
          split <;> simp
      | item =>
          simp only [addEdgeLabelled, addItems]
          split
          · simp
          · simp
          · simp [view_foldl (·.links) (addRangeDocument _) (fun _ _ => rfl)]
      | _ => by_cases same : e.source = id <;> simp [addEdgeLabelled, link, same]

theorem dependsOn_links (id : VertexId) :
    DependsOn (·.links.contains id) (isEdgeFrom id) :=
  dependsOn_of_present (fun _ _ content => by cases content <;> rfl)
    fun dump e => links_addEdge_contains dump e id

/-! ### Graphs of rearranged elements -/

/-- Tables are the same if the same keys are there and hold the same. -/
theorem table_ext {α : Type} {a b : Table α} (fallback : α)
    (present : ∀ id : VertexId, a.contains id = b.contains id)
    (held : ∀ id : VertexId, a.getD id fallback = b.getD id fallback) : a = b := by
  refine Std.ExtTreeMap.ext_getElem? fun id => ?_
  have present := present id
  have held := held id
  rw [Std.ExtTreeMap.contains_eq_isSome_getElem?, Std.ExtTreeMap.contains_eq_isSome_getElem?]
    at present
  rw [Std.ExtTreeMap.getD_eq_getD_getElem?, Std.ExtTreeMap.getD_eq_getD_getElem?] at held
  cases inA : a[id]? <;> cases inB : b[id]? <;> simp_all

/-- A graph is what it holds about vertices and edges. -/
theorem eq_of_facts {a b : Dump} (root : a.projectRoot = b.projectRoot)
    (vertices : ∀ id, a.vertexFacts id = b.vertexFacts id)
    (edges : ∀ id, a.edgeFacts id = b.edgeFacts id)
    (contents : ∀ id : VertexId, a.contents.contains id = b.contents.contains id)
    (links : ∀ id : VertexId, a.links.contains id = b.links.contains id)
    (items : ∀ id : VertexId, a.items.contains id = b.items.contains id)
    (places : ∀ id : VertexId, a.rangeDocuments[id]? = b.rangeDocuments[id]?) : a = b := by
  have relinked : a.Relinked b := {
    vertices
    contents := fun id => congrArg EdgeFacts.contents (edges id)
    items := fun id => congrArg EdgeFacts.items (edges id)
    places
    monikers := fun id => congrArg (·.node.monikers) (edges id) }
  have contents : a.contents = b.contents := table_ext [] contents relinked.contents
  have links : a.links = b.links :=
    table_ext .empty links fun id => congrArg EdgeFacts.node (edges id)
  have items : a.items = b.items := table_ext .empty items relinked.items
  have places : a.rangeDocuments = b.rangeDocuments := Std.ExtTreeMap.ext_getElem? places
  have packages : a.monikerPackages = b.monikerPackages :=
    Std.ExtTreeMap.ext_getElem? fun id => congrArg EdgeFacts.monikerPackage (edges id)
  have documents := relinked.documents
  have ranges := relinked.ranges
  have resultSets := relinked.resultSets
  have definitionResults := relinked.definitionResults
  have referenceResults := relinked.referenceResults
  have hovers := relinked.hovers
  have monikers := relinked.plainMonikers
  have published := relinked.packages
  cases a
  cases b
  simp only at *
  subst_vars
  rfl

section

variable {first second : List Element} (rearranged : Rearranged first second)
include rearranged

/-- Rearranged elements that are accepted amount to the same graph. -/
theorem eq_of_rearranged {a b : Dump} (one : ofElements first = .ok a)
    (other : ofElements second = .ok b) : a = b := by
  have same {β : Type} {view : Dump → β} {matters : Element → Bool}
      (depends : DependsOn view matters) (rivals : Rivals matters) : view a = view b :=
    depends.view_eq one other (rearranged.filter_eq rivals)
  exact eq_of_facts
    (same dependsOn_projectRoot rivals_statesRoot)
    (fun id => same (dependsOn_vertexFacts id) (rivals_isVertex id))
    (fun id => same (dependsOn_edgeFacts id) (rivals_isEdgeFrom id))
    (fun id => same (dependsOn_contents id) (rivals_isEdgeFrom id))
    (fun id => same (dependsOn_links id) (rivals_isEdgeFrom id))
    (fun id => same (dependsOn_items id) (rivals_isEdgeFrom id))
    (fun id => same (dependsOn_rangeDocuments id) (rivals_placesRange id))

/-- Whether elements are accepted does not depend on their order at all. -/
theorem isOk_of_rearranged :
    (∃ dump, ofElements first = .ok dump) ↔ ∃ dump, ofElements second = .ok dump := by
  rw [ofElements_isOk_iff, ofElements_isOk_iff]
  have perm : (vertices first).Perm (vertices second) := rearranged.perm.filterMap _
  exact ⟨fun all v member => all v (perm.mem_iff.mpr member),
    fun all v member => all v (perm.mem_iff.mp member)⟩

theorem ofElements_eq_ok_iff_of_rearranged (dump : Dump) :
    ofElements first = .ok dump ↔ ofElements second = .ok dump := by
  constructor
  · intro one
    obtain ⟨other, accepted⟩ := (isOk_of_rearranged rearranged).mp ⟨dump, one⟩
    rw [accepted, eq_of_rearranged rearranged one accepted]
  · intro other
    obtain ⟨one, accepted⟩ := (isOk_of_rearranged rearranged).mpr ⟨dump, other⟩
    rw [accepted, eq_of_rearranged rearranged accepted other]

end

/-- Elements in another order in which those that conflict stay in order are accepted exactly if the
elements are, as the same graph: with the same project root, documents, rows and monikers.  Edges
may come before the vertices that they mention. -/
theorem order_matters_in_conflicts_only :
    (∀ first second, Rearranged first second → ∀ dump,
      ofElements first = .ok dump ↔ ofElements second = .ok dump) ∧
    ∀ elements dump, ofElements elements = .ok dump ↔
      ofElements (elements.filter isEdge ++ elements.filter fun e => !e.isEdge) = .ok dump :=
  ⟨fun _ _ rearranged => ofElements_eq_ok_iff_of_rearranged rearranged,
    fun elements => ofElements_eq_ok_iff_of_rearranged (rearranged_edges_first elements)⟩

/-- A document with two ranges, of which the second is listed as an item before it is contained. -/
def rearrangedSample : List Element :=
  let position : Json.Value :=
    .record [("line", .number (.integer 0)), ("character", .number (.integer 0))]
  let range : Json.Value := .record [("start", position), ("end", position)]
  [.vertex ⟨⟨"1"⟩, "document", .record [("uri", .string "p")]⟩,
   .vertex ⟨⟨"2"⟩, "range", range⟩,
   .vertex ⟨⟨"3"⟩, "range", range⟩,
   .vertex ⟨⟨"4"⟩, "definitionResult", .record []⟩,
   .edge ⟨"item", ⟨"4"⟩, none, [⟨"3"⟩], some ⟨"1"⟩, none⟩,
   .edge ⟨"next", ⟨"2"⟩, some ⟨"5"⟩, [], none, none⟩,
   .edge ⟨"contains", ⟨"1"⟩, none, [⟨"2"⟩, ⟨"3"⟩], none, none⟩]

/-- Its edges come first, and the two that place the second range keep their order. -/
theorem order_matters_in_conflicts_only_sample :
    ∃ second dump, Rearranged rearrangedSample second ∧ second ≠ rearrangedSample ∧
      ofElements rearrangedSample = .ok dump ∧ ofElements second = .ok dump := by
  let places : List (Fin rearrangedSample.length) :=
    ([5, 4, 2, 6, 3, 1, 0] : List (Fin 7)).map (Fin.cast rfl)
  have rearranged : Rearranged rearrangedSample (places.map (rearrangedSample[·])) :=
    ⟨places, by decide +kernel, rfl, by decide +kernel⟩
  have readable : (ofElements rearrangedSample).isOk := by decide +kernel
  obtain ⟨dump, accepted⟩ := Success.isOk_iff.mp readable
  exact ⟨_, dump, rearranged, by decide +kernel, accepted,
    (order_matters_in_conflicts_only.1 _ _ rearranged dump).mp accepted⟩

end Dump

end CodeNav
