/-
Module: CodeNav.Proofs.Dump.Facts
Purpose: What a graph holds about a vertex comes from the elements about that vertex alone.
Main exports:
  VertexFacts, EdgeFacts, Dump.vertexFacts_ofElements, Dump.edgeFacts_ofElements,
  Dump.addElement_eq_ok, Dump.ofElements_isOk_iff
-/
import CodeNav.Dump.Document
import CodeNav.Proofs.Success

namespace CodeNav

open Json (Decoder)

/-! ### Vertices -/

/-- What a vertex adds to a graph. -/
inductive VertexContent where
  | projectRoot (root : Option String)
  | address (uri : String)
  | range (range : Range)
  | resultSet
  | definitionResult
  | referenceResult
  | hover (hover : Hover)
  | moniker (moniker : Moniker)
  | package (package : Package)
  | nothing

/-- What a vertex with a known label adds to a graph, if it can be read. -/
def Vertex.labelledContent (vertex : Vertex) : VertexLabel → Except Failure VertexContent
  | .metaData => .ok (.projectRoot (Element.text? vertex.value "projectRoot"))
  | .document => (Dump.addressOf vertex).map .address
  | .range => (Element.decode Range.decoder vertex.value).map .range
  | .resultSet => .ok .resultSet
  | .definitionResult => .ok .definitionResult
  | .referenceResult => .ok .referenceResult
  | .hoverResult => (Element.decode (Decoder.shape Dump.hoverShape) vertex.value).map .hover
  | .moniker => (Element.decode (Decoder.shape Dump.monikerShape) vertex.value).map .moniker
  | .package => (Element.decode Package.decoder vertex.value).map .package

/-- What a vertex adds to a graph, if it can be read. -/
def Vertex.content (vertex : Vertex) : Except Failure VertexContent :=
  match VertexLabel.ofName? vertex.label with
  | some label => vertex.labelledContent label
  | none => .ok .nothing

/-- Adds content under an identifier. -/
def Dump.put (dump : Dump) (id : VertexId) : VertexContent → Dump
  | .projectRoot root => { dump with projectRoot := root }
  | .address uri => { dump with documents := dump.documents.insert id uri }
  | .range range => { dump with ranges := dump.ranges.insert id range }
  | .resultSet => { dump with resultSets := dump.resultSets.insert id }
  | .definitionResult => { dump with definitionResults := dump.definitionResults.insert id }
  | .referenceResult => { dump with referenceResults := dump.referenceResults.insert id }
  | .hover hover => { dump with hovers := dump.hovers.insert id hover }
  | .moniker moniker => { dump with monikers := dump.monikers.insert id moniker }
  | .package package => { dump with packages := dump.packages.insert id package }
  | .nothing => dump

/-- Whether a vertex can be taken in does not depend on the graph. -/
theorem Dump.addVertex_eq_map_put (dump : Dump) (vertex : Vertex) :
    dump.addVertex vertex = vertex.content.map (dump.put vertex.id) := by
  unfold Dump.addVertex Vertex.content
  cases VertexLabel.ofName? vertex.label with
  | none => rfl
  | some label =>
      cases label with
      | metaData => rfl
      | resultSet => rfl
      | definitionResult => rfl
      | referenceResult => rfl
      | document =>
          simp only [Dump.addLabelled, Vertex.labelledContent]
          cases Dump.addressOf vertex <;> rfl
      | range =>
          simp only [Dump.addLabelled, Vertex.labelledContent]
          cases Element.decode Range.decoder vertex.value <;> rfl
      | hoverResult =>
          simp only [Dump.addLabelled, Vertex.labelledContent]
          cases Element.decode (Decoder.shape Dump.hoverShape) vertex.value <;> rfl
      | moniker =>
          simp only [Dump.addLabelled, Vertex.labelledContent]
          cases Element.decode (Decoder.shape Dump.monikerShape) vertex.value <;> rfl
      | package =>
          simp only [Dump.addLabelled, Vertex.labelledContent]
          cases Element.decode Package.decoder vertex.value <;> rfl

/-- What the vertices with one identifier amount to. -/
@[ext] structure VertexFacts where
  address : Option String
  range : Option Range
  isResultSet : Bool
  isDefinitionResult : Bool
  isReferenceResult : Bool
  hover : Option Hover
  moniker : Option Moniker
  package : Option Package

namespace VertexFacts

/-- No vertex. -/
def none : VertexFacts :=
  ⟨.none, .none, false, false, false, .none, .none, .none⟩

/-- Adds content. -/
def put (facts : VertexFacts) : VertexContent → VertexFacts
  | .projectRoot _ => facts
  | .address uri => { facts with address := uri }
  | .range range => { facts with range := range }
  | .resultSet => { facts with isResultSet := true }
  | .definitionResult => { facts with isDefinitionResult := true }
  | .referenceResult => { facts with isReferenceResult := true }
  | .hover hover => { facts with hover := hover }
  | .moniker moniker => { facts with moniker := moniker }
  | .package package => { facts with package := package }
  | .nothing => facts

end VertexFacts

/-! ### Edges -/

/-- What the edges out of one vertex amount to. -/
@[ext] structure EdgeFacts where
  contents : List VertexId
  node : ChainNode
  monikerPackage : Option VertexId
  items : Items

namespace EdgeFacts

/-- No edges. -/
def none : EdgeFacts :=
  ⟨[], .empty, .none, .empty⟩

/-- Adds the targets of an edge with a known label. -/
def addTargets (facts : EdgeFacts) (property : Option String) (targets : List VertexId) :
    EdgeLabel → EdgeFacts
  | .contains => { facts with contents := facts.contents ++ targets }
  | .next => { facts with node := { facts.node with next := targets.head? } }
  | .definition => { facts with node := { facts.node with definitionResult := targets.head? } }
  | .references => { facts with node := { facts.node with referenceResult := targets.head? } }
  | .hover => { facts with node := { facts.node with hoverResult := targets.head? } }
  | .moniker => { facts with node := { facts.node with monikers := facts.node.monikers ++ targets } }
  | .package => { facts with monikerPackage := targets.head?.or facts.monikerPackage }
  | .item => { facts with items := facts.items.add property targets }

/-- Adds an edge; one with another label is passed over. -/
def add (facts : EdgeFacts) (edge : Edge) : EdgeFacts :=
  match EdgeLabel.ofName? edge.label with
  | some label => facts.addTargets edge.property edge.targets label
  | .none => facts

end EdgeFacts

/-! ### One element -/

namespace Dump

/-- What a graph holds about the vertices with an identifier. -/
def vertexFacts (dump : Dump) (id : VertexId) : VertexFacts where
  address := dump.documents[id]?
  range := dump.ranges[id]?
  isResultSet := dump.resultSets.contains id
  isDefinitionResult := dump.definitionResults.contains id
  isReferenceResult := dump.referenceResults.contains id
  hover := dump.hovers[id]?
  moniker := dump.monikers[id]?
  package := dump.packages[id]?

/-- What a graph holds about the edges out of a vertex. -/
def edgeFacts (dump : Dump) (id : VertexId) : EdgeFacts where
  contents := dump.contents.getD id []
  node := dump.nodeOf id
  monikerPackage := dump.monikerPackages[id]?
  items := dump.items.getD id .empty

theorem vertexFacts_empty (id : VertexId) : empty.vertexFacts id = .none := by
  simp [vertexFacts, empty, VertexFacts.none]

theorem edgeFacts_empty (id : VertexId) : empty.edgeFacts id = .none := by
  simp [edgeFacts, empty, EdgeFacts.none, nodeOf]

/-- Content counts for its own identifier. -/
theorem vertexFacts_put (dump : Dump) (id other : VertexId) (content : VertexContent) :
    (dump.put id content).vertexFacts other =
      if id = other then (dump.vertexFacts other).put content else dump.vertexFacts other := by
  split
  · rename_i same
    subst same
    cases content <;> simp [put, vertexFacts, VertexFacts.put]
  · rename_i different
    cases content <;> simp [put, vertexFacts, Std.ExtTreeMap.getElem?_insert,
      Std.ExtTreeSet.contains_insert, different]

theorem edgeFacts_put (dump : Dump) (id other : VertexId) (content : VertexContent) :
    (dump.put id content).edgeFacts other = dump.edgeFacts other := by
  cases content <;> rfl

/-- Contents of a document are listed behind those before them. -/
theorem edgeFacts_addContents (document id : VertexId) (ranges : List VertexId) (dump : Dump) :
    (ranges.foldl (addContent document) dump).edgeFacts id =
      if document = id then
        { dump.edgeFacts id with contents := (dump.edgeFacts id).contents ++ ranges }
      else dump.edgeFacts id := by
  induction ranges generalizing dump with
  | nil => simp
  | cons range rest ih =>
      rw [List.foldl_cons, ih]
      split
      · rename_i same
        subst same
        simp [edgeFacts, addContent, nodeOf]
      · rename_i different
        simp [edgeFacts, addContent, nodeOf, Std.ExtTreeMap.getD_insert, different]

theorem vertexFacts_addContents (document id : VertexId) (ranges : List VertexId) (dump : Dump) :
    (ranges.foldl (addContent document) dump).vertexFacts id = dump.vertexFacts id := by
  induction ranges generalizing dump with
  | nil => rfl
  | cons range rest ih => rw [List.foldl_cons, ih]; rfl

/-- Naming the documents of ranges changes nothing else. -/
theorem facts_addRangeDocuments (document id : VertexId) (ranges : List VertexId) (dump : Dump) :
    (ranges.foldl (addRangeDocument document) dump).edgeFacts id = dump.edgeFacts id ∧
      (ranges.foldl (addRangeDocument document) dump).vertexFacts id = dump.vertexFacts id := by
  induction ranges generalizing dump with
  | nil => exact ⟨rfl, rfl⟩
  | cons range rest ih => exact ih (dump.addRangeDocument document range)

theorem edgeFacts_link (dump : Dump) (source id : VertexId) (change : ChainNode → ChainNode) :
    (dump.link source change).edgeFacts id =
      if source = id then { dump.edgeFacts id with node := change (dump.nodeOf id) }
      else dump.edgeFacts id := by
  split
  · rename_i same
    subst same
    simp [edgeFacts, link, nodeOf]
  · rename_i different
    simp [edgeFacts, link, nodeOf, Std.ExtTreeMap.getD_insert, different]

theorem edgeFacts_addItems (dump : Dump) (edge : Edge) (id : VertexId) :
    (dump.addItems edge).edgeFacts id =
      if edge.source = id then (dump.edgeFacts id).addTargets edge.property edge.targets .item
      else dump.edgeFacts id := by
  have listed (items : Items) :
      ({ dump with items := dump.items.insert edge.source items } : Dump).edgeFacts id =
        if edge.source = id then { dump.edgeFacts id with items := items }
        else dump.edgeFacts id := by
    split
    · rename_i same
      subst same
      simp [edgeFacts, nodeOf]
    · rename_i different
      simp [edgeFacts, nodeOf, Std.ExtTreeMap.getD_insert, different]
  have added : (dump.addItems edge).edgeFacts id =
      ({ dump with
        items := dump.items.insert edge.source
          ((dump.items.getD edge.source .empty).add edge.property edge.targets) } : Dump).edgeFacts
        id := by
    unfold addItems
    split
    · rfl
    · rfl
    · exact (facts_addRangeDocuments _ _ _ _).1
  rw [added, listed]
  split
  · rename_i same
    subst same
    rfl
  · rfl

theorem vertexFacts_addItems (dump : Dump) (edge : Edge) (id : VertexId) :
    (dump.addItems edge).vertexFacts id = dump.vertexFacts id := by
  unfold addItems
  split
  · rfl
  · rfl
  · exact (facts_addRangeDocuments _ _ _ _).2

theorem edgeFacts_addMonikerPackage (dump : Dump) (edge : Edge) (id : VertexId) :
    (dump.addMonikerPackage edge).edgeFacts id =
      if edge.source = id then (dump.edgeFacts id).addTargets edge.property edge.targets .package
      else dump.edgeFacts id := by
  unfold addMonikerPackage
  cases targets : edge.targets.head? with
  | none => simp [EdgeFacts.addTargets, targets]
  | some package =>
      by_cases same : edge.source = id
      · subst same
        simp [edgeFacts, nodeOf, EdgeFacts.addTargets, targets]
      · simp [edgeFacts, nodeOf, Std.ExtTreeMap.getElem?_insert, same]

/-- An edge counts for its source. -/
theorem edgeFacts_addEdge (dump : Dump) (edge : Edge) (id : VertexId) :
    (dump.addEdge edge).edgeFacts id =
      if edge.source = id then (dump.edgeFacts id).add edge else dump.edgeFacts id := by
  unfold addEdge EdgeFacts.add
  cases EdgeLabel.ofName? edge.label with
  | none => simp
  | some label =>
      cases label with
      | contains => exact edgeFacts_addContents _ _ _ _
      | next => exact edgeFacts_link _ _ _ _
      | definition => exact edgeFacts_link _ _ _ _
      | references => exact edgeFacts_link _ _ _ _
      | hover => exact edgeFacts_link _ _ _ _
      | moniker => exact edgeFacts_link _ _ _ _
      | package => exact edgeFacts_addMonikerPackage _ _ _
      | item => exact edgeFacts_addItems _ _ _

theorem vertexFacts_addEdge (dump : Dump) (edge : Edge) (id : VertexId) :
    (dump.addEdge edge).vertexFacts id = dump.vertexFacts id := by
  unfold addEdge
  cases EdgeLabel.ofName? edge.label with
  | none => rfl
  | some label =>
      cases label with
      | contains => exact vertexFacts_addContents _ _ _ _
      | package =>
          simp only [addEdgeLabelled, addMonikerPackage]
          split <;> rfl
      | item => exact vertexFacts_addItems _ _ _
      | _ => rfl

end Dump

/-! ### Whole dumps -/

namespace Element

/-- The vertices among some elements. -/
def vertices (elements : List Element) : List Vertex :=
  elements.filterMap fun
    | .vertex v => some v
    | .edge _ => none

/-- The edges among some elements. -/
def edges (elements : List Element) : List Edge :=
  elements.filterMap fun
    | .vertex _ => none
    | .edge e => some e

@[simp] theorem vertices_cons_vertex (v : Vertex) (rest : List Element) :
    vertices (.vertex v :: rest) = v :: vertices rest :=
  rfl

@[simp] theorem vertices_cons_edge (e : Edge) (rest : List Element) :
    vertices (.edge e :: rest) = vertices rest :=
  rfl

@[simp] theorem edges_cons_vertex (v : Vertex) (rest : List Element) :
    edges (.vertex v :: rest) = edges rest :=
  rfl

@[simp] theorem edges_cons_edge (e : Edge) (rest : List Element) :
    edges (.edge e :: rest) = e :: edges rest :=
  rfl

theorem mem_edges {elements : List Element} {e : Edge} :
    e ∈ edges elements ↔ .edge e ∈ elements := by
  simp only [edges, List.mem_filterMap]
  constructor
  · rintro ⟨element, member, found⟩
    cases element with
    | vertex v => cases found
    | edge f =>
        cases found
        exact member
  · intro member
    exact ⟨_, member, rfl⟩

end Element

namespace VertexFacts

/-- Adds a vertex, unless it cannot be read. -/
def add (facts : VertexFacts) (vertex : Vertex) : VertexFacts :=
  match vertex.content with
  | .ok content => facts.put content
  | .error _ => facts

end VertexFacts

namespace Dump

open Element (vertices edges)

theorem addVertex_eq_ok {dump after : Dump} {vertex : Vertex}
    (added : dump.addVertex vertex = .ok after) :
    ∃ content, vertex.content = .ok content ∧ after = dump.put vertex.id content := by
  rw [addVertex_eq_map_put] at added
  obtain ⟨content, read, same⟩ := Success.map_eq_ok.mp added
  exact ⟨content, read, same.symm⟩

/-- A vertex is added with its contents, or an edge is. -/
theorem addElement_eq_ok {dump after : Dump} {element : Element}
    (added : dump.addElement element = .ok after) :
    (∃ v content, element = .vertex v ∧ v.content = .ok content ∧ after = dump.put v.id content) ∨
      ∃ e, element = .edge e ∧ after = dump.addEdge e := by
  cases element with
  | vertex v =>
      obtain ⟨content, read, same⟩ := addVertex_eq_ok added
      exact .inl ⟨v, content, rfl, read, same⟩
  | edge e =>
      cases added
      exact .inr ⟨e, rfl, rfl⟩

/-- What elements add to a graph about one vertex: its own vertices and edges, in their order. -/
theorem facts_foldlM {elements : List Element} {dump after : Dump}
    (folded : elements.foldlM addElement dump = .ok after) (id : VertexId) :
    after.vertexFacts id =
        ((vertices elements).filter (·.id = id)).foldl VertexFacts.add (dump.vertexFacts id) ∧
      after.edgeFacts id =
        ((edges elements).filter (·.source = id)).foldl EdgeFacts.add (dump.edgeFacts id) := by
  induction elements generalizing dump with
  | nil =>
      cases folded
      exact ⟨rfl, rfl⟩
  | cons element rest ih =>
      rw [List.foldlM_cons] at folded
      obtain ⟨next, added, folded⟩ := Success.bind_eq_ok.mp folded
      obtain ⟨vertexPart, edgePart⟩ := ih folded
      rcases addElement_eq_ok added with ⟨v, content, rfl, read, rfl⟩ | ⟨e, rfl, rfl⟩
      · constructor
        · rw [vertexPart, vertexFacts_put]
          by_cases same : v.id = id
          · simp [same, VertexFacts.add, read]
          · simp [same]
        · rw [edgePart, edgeFacts_put]
          rfl
      · constructor
        · rw [vertexPart, vertexFacts_addEdge]
          rfl
        · rw [edgePart, edgeFacts_addEdge]
          by_cases same : e.source = id
          · simp [same]
          · simp [same]

/-- What a graph holds about a vertex comes from the vertices with its identifier. -/
theorem vertexFacts_ofElements {elements : List Element} {dump : Dump}
    (accepted : ofElements elements = .ok dump) (id : VertexId) :
    dump.vertexFacts id =
      ((vertices elements).filter (·.id = id)).foldl VertexFacts.add .none := by
  rw [(facts_foldlM accepted id).1, vertexFacts_empty]

/-- What a graph holds about the edges out of a vertex comes from those edges. -/
theorem edgeFacts_ofElements {elements : List Element} {dump : Dump}
    (accepted : ofElements elements = .ok dump) (id : VertexId) :
    dump.edgeFacts id = ((edges elements).filter (·.source = id)).foldl EdgeFacts.add .none := by
  rw [(facts_foldlM accepted id).2, edgeFacts_empty]

/-- Elements are accepted if each of their vertices can be read. -/
theorem foldlM_addElement_isOk (elements : List Element) (dump : Dump) :
    (∃ after, elements.foldlM addElement dump = .ok after) ↔
      ∀ v ∈ vertices elements, ∃ content, v.content = .ok content := by
  induction elements generalizing dump with
  | nil =>
      constructor
      · intro _ v member
        cases member
      · intro _
        exact ⟨dump, rfl⟩
  | cons element rest ih =>
      rw [List.foldlM_cons]
      cases element with
      | vertex v =>
          simp only [addElement, addVertex_eq_map_put, Element.vertices_cons_vertex,
            List.forall_mem_cons]
          cases v.content with
          | error failure => simp [Except.map, bind, Except.bind]
          | ok content => simpa [Except.map, bind, Except.bind] using ih _
      | edge e => exact ih (dump.addEdge e)

theorem ofElements_isOk_iff (elements : List Element) :
    (∃ dump, ofElements elements = .ok dump) ↔
      ∀ v ∈ vertices elements, ∃ content, v.content = .ok content :=
  foldlM_addElement_isOk elements empty

end Dump

end CodeNav
