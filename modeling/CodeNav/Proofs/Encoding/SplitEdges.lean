/-
Module: CodeNav.Proofs.Encoding.SplitEdges
Purpose: What the edges of a dump say once they are split up by their targets, as tables store them.
Main exports:
  Edge.split, Edge.links_split_iff, Edge.package?_split, EdgeFacts.ofEdges_split, Element.splitUp,
  Element.rangeDocument?_splitUp, Element.linksOf_splitUp_iff
-/
import CodeNav.Encoding.Tables
import CodeNav.Proofs.Dump.Nearest

namespace CodeNav

/-- The edges that name one vertex: what a node inherits from, its results and its package. -/
def EdgeLabel.namesOne : EdgeLabel → Bool
  | .next | .definition | .references | .hover | .package => true
  | .contains | .moniker | .item => false

/-! ### Edges -/

namespace Edge

/-- The edges that an edge is stored as and read back from, one for each target. -/
def split (e : Edge) : List Edge :=
  (GraphTables.storedEdges e).map GraphTables.readEdge

/-- A part of an edge has one of its targets. -/
theorem mem_split {e part : Edge} :
    part ∈ e.split ↔
      ∃ target ∈ e.targets, part = ⟨e.label, e.source, some target, [], e.document, e.property⟩ := by
  simp [split, GraphTables.storedEdges, GraphTables.readEdge, eq_comm]

theorem flatMap_targets_split (e : Edge) : e.split.flatMap targets = e.targets := by
  simp only [split, GraphTables.storedEdges, List.map_map, List.flatMap_map]
  exact List.flatMap_singleton' e.targets

/-- What depends neither on the targets nor on where they stand picks all parts or none. -/
theorem filter_split {p : Edge → Bool} {e : Edge} (same : ∀ part ∈ e.split, p part = p e) :
    e.split.filter p = if p e then e.split else [] := by
  split
  · rename_i picked
    exact List.filter_eq_self.mpr fun part member => (same part member).trans picked
  · rename_i passed
    exact List.filter_eq_nil_iff.mpr fun part member => by rwa [same part member]

theorem filter_flatMap_split {p : Edge → Bool} {es : List Edge}
    (same : ∀ e ∈ es, ∀ part ∈ e.split, p part = p e) :
    (es.flatMap split).filter p = (es.filter p).flatMap split := by
  induction es with
  | nil => rfl
  | cons e rest ih =>
      rw [List.flatMap_cons, List.filter_append, filter_split (same e List.mem_cons_self),
        ih fun other listed => same other (List.mem_cons_of_mem e listed)]
      by_cases picked : p e <;> simp [picked]

theorem labelled_split (label : EdgeLabel) (es : List Edge) :
    labelled label (es.flatMap split) = (labelled label es).flatMap split := by
  apply filter_flatMap_split
  intro e _ part member
  obtain ⟨_, _, rfl⟩ := mem_split.mp member
  rfl

theorem targetsOf_split (label : EdgeLabel) (es : List Edge) :
    targetsOf label (es.flatMap split) = targetsOf label es := by
  simp only [targetsOf, labelled_split, List.flatMap_assoc, flatMap_targets_split]

theorem itemsWith_split (condition : Option String → Bool) (es : List Edge) :
    itemsWith condition (es.flatMap split) = itemsWith condition es := by
  have kept : ((labelled .item es).flatMap split).filter (condition ·.property) =
      ((labelled .item es).filter (condition ·.property)).flatMap split := by
    apply filter_flatMap_split
    intro e _ part member
    obtain ⟨_, _, rfl⟩ := mem_split.mp member
    rfl
  simp only [itemsWith, labelled_split, kept, List.flatMap_assoc, flatMap_targets_split]

/-! ### Edges with one target -/

/-- The edges with a label have one target each. -/
def OneTarget (label : EdgeLabel) (es : List Edge) : Prop :=
  ∀ e ∈ labelled label es, e.targets.length = 1

theorem oneTarget_split (label : EdgeLabel) (es : List Edge) :
    OneTarget label (es.flatMap split) := by
  intro part member
  rw [labelled_split] at member
  obtain ⟨e, _, member⟩ := List.mem_flatMap.mp member
  obtain ⟨target, _, rfl⟩ := mem_split.mp member
  rfl

/-- Of edges with one target each, the last names the last target. -/
theorem OneTarget.named? {label : EdgeLabel} {es : List Edge} (one : OneTarget label es) :
    named? label es = (targetsOf label es).getLast? := by
  rw [Edge.named?, targetsOf]
  unfold OneTarget at one
  generalize labelled label es = es at one
  induction es using List.reverseRecOn with
  | nil => rfl
  | append_singleton es e ih =>
      obtain ⟨target, only⟩ := List.length_eq_one_iff.mp (one e (by simp))
      simp [only]

theorem OneTarget.package? {es : List Edge} (one : OneTarget .package es) :
    package? es = (targetsOf .package es).getLast? := by
  rw [Edge.package?, targetsOf]
  unfold OneTarget at one
  generalize labelled .package es = es at one
  induction es using List.reverseRecOn with
  | nil => rfl
  | append_singleton es e ih =>
      obtain ⟨target, only⟩ := List.length_eq_one_iff.mp (one e (by simp))
      simp [only]

theorem named?_split (label : EdgeLabel) (es : List Edge) :
    named? label (es.flatMap split) = (targetsOf label es).getLast? := by
  rw [(oneTarget_split label es).named?, targetsOf_split]

theorem package?_split (es : List Edge) :
    package? (es.flatMap split) = (targetsOf .package es).getLast? := by
  rw [(oneTarget_split .package es).package?, targetsOf_split]

/-- The labels of edges that say what a node inherits from and which results it has. -/
def linkLabels : List EdgeLabel :=
  [.next, .definition, .references, .hover]

theorem namesOne_of_mem_linkLabels {label : EdgeLabel} (listed : label ∈ linkLabels) :
    label.namesOne := by
  revert label
  decide

/-- Split up, edges say the same about a node exactly if they name the last of their targets. -/
theorem links_split_iff (es : List Edge) :
    links (es.flatMap split) = links es ↔
      ∀ label ∈ linkLabels, named? label es = (targetsOf label es).getLast? := by
  simp [links, linkLabels, named?_split, targetsOf_split, eq_comm]

/-! ### Places -/

/-- What is done for each occurrence of a range among some targets is done once. -/
theorem foldl_occurrences (range : VertexId) (change : Option VertexId → Option VertexId)
    (again : ∀ known, change (change known) = change known) (targets : List VertexId)
    (known : Option VertexId) :
    targets.foldl (fun known target => if range = target then change known else known) known =
      if range ∈ targets then change known else known := by
  induction targets generalizing known with
  | nil => rfl
  | cons target rest ih =>
      rw [List.foldl_cons, ih]
      by_cases same : range = target <;> simp [same, again]

/-- An edge places a range as its parts do. -/
theorem foldl_place_split (range : VertexId) (e : Edge) (known : Option VertexId) :
    e.split.foldl (place range) known = place range known e := by
  have parts : e.split.foldl (place range) known = e.targets.foldl
      (fun known target =>
        place range known ⟨e.label, e.source, some target, [], e.document, e.property⟩)
      known := by
    simp only [split, GraphTables.storedEdges, List.map_map, List.foldl_map]
    rfl
  have alone (target : VertexId) :
      targets ⟨e.label, e.source, some target, [], e.document, e.property⟩ = [target] := rfl
  rw [parts]
  unfold place
  simp only [alone, List.mem_singleton]
  cases EdgeLabel.ofName? e.label with
  | none => simp
  | some label =>
      cases label with
      | contains =>
          exact foldl_occurrences range (fun _ => some e.source) (fun _ => rfl) e.targets known
      | item =>
          by_cases results : e.property = some "referenceResults"
          · simp [results]
          · simpa [results] using foldl_occurrences range (·.or e.document)
              (fun known => by simp [Option.or_assoc]) e.targets known
      | _ => simp

theorem rangeDocument?_split (range : VertexId) (es : List Edge) :
    rangeDocument? range (es.flatMap split) = rangeDocument? range es := by
  rw [← foldl_place, ← foldl_place, List.foldl_flatMap]
  simp only [foldl_place_split]

end Edge

/-- Split up, edges amount to the same if each one that names a vertex has one target. -/
theorem EdgeFacts.ofEdges_split {es : List Edge}
    (one : ∀ label : EdgeLabel, label.namesOne → Edge.OneTarget label es) :
    ofEdges (es.flatMap Edge.split) = ofEdges es := by
  have links : Edge.links (es.flatMap Edge.split) = Edge.links es :=
    (Edge.links_split_iff es).mpr fun label listed =>
      (one label (Edge.namesOne_of_mem_linkLabels listed)).named?
  have package : Edge.package? (es.flatMap Edge.split) = Edge.package? es := by
    rw [Edge.package?_split, (one .package rfl).package?]
  simp only [ofEdges, links, package, Edge.targetsOf_split, Edge.itemsWith_split]

/-! ### Elements -/

namespace Element

/-- The elements with every edge split up by its targets. -/
def splitUp (elements : List Element) : List Element :=
  elements.flatMap fun
    | .vertex v => [.vertex v]
    | .edge e => e.split.map .edge

variable {elements : List Element}

@[simp] theorem vertices_splitUp (elements : List Element) :
    vertices (splitUp elements) = vertices elements := by
  unfold splitUp vertices
  rw [List.filterMap_flatMap]
  induction elements with
  | nil => rfl
  | cons element rest ih =>
      cases element with
      | vertex v => simpa using ih
      | edge e => simpa [List.filterMap_map, Function.comp_def] using ih

theorem edges_splitUp (elements : List Element) :
    edges (splitUp elements) = (edges elements).flatMap Edge.split := by
  unfold splitUp edges
  rw [List.filterMap_flatMap]
  induction elements with
  | nil => rfl
  | cons element rest ih =>
      cases element with
      | vertex v => simpa using ih
      | edge e => simpa [List.filterMap_map, Function.comp_def] using ih

/-- The edges of the elements split up are those that tables store. -/
theorem edges_splitUp_eq_stored (elements : List Element) (dump : Dump) :
    edges (splitUp elements) = (GraphTables.ofDump elements dump).edges.map GraphTables.readEdge := by
  rw [edges_splitUp]
  unfold GraphTables.ofDump edges
  rw [List.map_flatMap]
  induction elements with
  | nil => rfl
  | cons element rest ih =>
      cases element with
      | vertex v => exact ih
      | edge e => exact congrArg (e.split ++ ·) ih

theorem edgesFrom_splitUp (elements : List Element) (id : VertexId) :
    edgesFrom (splitUp elements) id = (edgesFrom elements id).flatMap Edge.split := by
  rw [edgesFrom, edges_splitUp]
  apply Edge.filter_flatMap_split
  intro e _ part member
  obtain ⟨_, _, rfl⟩ := Edge.mem_split.mp member
  rfl

theorem hasVertex_splitUp (label : VertexLabel) (id : VertexId) :
    hasVertex (splitUp elements) label id = hasVertex elements label id := by
  rw [hasVertex, vertices_splitUp, hasVertex]

theorem contentsOf_splitUp (id : VertexId) :
    contentsOf (splitUp elements) id = contentsOf elements id := by
  rw [contentsOf, vertices_splitUp, contentsOf]

theorem itemsOf_splitUp (id : VertexId) :
    itemsOf (splitUp elements) id = itemsOf elements id := by
  simp only [itemsOf, EdgeFacts.ofEdges, edgesFrom_splitUp, Edge.itemsWith_split]

theorem rangeDocument?_splitUp (range : VertexId) :
    rangeDocument? (splitUp elements) range = rangeDocument? elements range := by
  rw [rangeDocument?, edges_splitUp, Edge.rangeDocument?_split, rangeDocument?]

/-- Where edges that name one vertex have one target, so have those out of any vertex. -/
theorem oneTarget_edgesFrom
    (single : ∀ e ∈ edges elements, ∀ label, EdgeLabel.ofName? e.label = some label →
      label.namesOne → e.targets.length = 1)
    {label : EdgeLabel} (names : label.namesOne) (id : VertexId) :
    Edge.OneTarget label (edgesFrom elements id) := by
  intro e member
  obtain ⟨among, known⟩ := List.mem_filter.mp member
  exact single e (List.mem_of_mem_filter among) label (of_decide_eq_true known) names

/-- Whether the edges out of a vertex say the same about a node once they are split up. -/
def LinksAlike (elements : List Element) (id : VertexId) : Prop :=
  ∀ label ∈ Edge.linkLabels,
    Edge.named? label (edgesFrom elements id) =
      (Edge.targetsOf label (edgesFrom elements id)).getLast?

/-- Whether the edges out of a vertex name the same package once they are split up. -/
def PackageAlike (elements : List Element) (id : VertexId) : Prop :=
  Edge.package? (edgesFrom elements id) =
    (Edge.targetsOf .package (edgesFrom elements id)).getLast?

theorem linksOf_splitUp_iff (id : VertexId) :
    linksOf (splitUp elements) id = linksOf elements id ↔ LinksAlike elements id := by
  rw [linksOf, linksOf, edgesFrom_splitUp, Edge.links_split_iff, LinksAlike]

theorem monikers_linksOf_splitUp (id : VertexId) :
    (linksOf (splitUp elements) id).monikers = (linksOf elements id).monikers := by
  simp only [linksOf, Edge.links, edgesFrom_splitUp, Edge.targetsOf_split]

/-- A moniker is the same unless another package is named. -/
theorem moniker?_splitUp_iff (id : VertexId) :
    moniker? (splitUp elements) id = moniker? elements id ↔
      (contentsOf elements id).filterMap VertexContent.moniker? = [] ∨
        PackageAlike elements id := by
  rw [moniker?, moniker?, contentsOf_splitUp, edgesFrom_splitUp, Edge.package?_split, PackageAlike,
    ← List.getLast?_eq_none_iff]
  cases ((contentsOf elements id).filterMap VertexContent.moniker?).getLast? with
  | none => simp
  | some plain => simp [eq_comm]

end Element

end CodeNav
