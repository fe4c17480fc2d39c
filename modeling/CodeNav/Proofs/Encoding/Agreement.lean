/-
Module: CodeNav.Proofs.Encoding.Agreement
Purpose: A dump is served alike, whichever encoding it was stored in.
Main exports:
  Element.WellFormed, Element.ReadBack, Source.Agrees, Source.agrees_graph, Source.agrees_blob,
  Source.encodings_agree
-/
import CodeNav.Encoding.Source
import CodeNav.Proofs.Dump.Accepted
import CodeNav.Proofs.Dump.Addresses
import CodeNav.Proofs.Dump.Locality
import CodeNav.Proofs.Encoding.SplitEdges
import CodeNav.Proofs.Encoding.Subgraph
import CodeNav.Proofs.Keyed
import Mathlib.Data.List.Induction

namespace CodeNav

open Json (Value)
open Element (vertices edges)

/-! ### Dumps as they are produced -/

/-- Every vertex has an identifier of its own, and an edge that names one vertex has one target. -/
structure Element.WellFormed (elements : List Element) : Prop where
  distinct : ((vertices elements).map (·.id)).Nodup
  oneTarget : ∀ e ∈ edges elements, ∀ label, EdgeLabel.ofName? e.label = some label →
    label.namesOne → e.targets.length = 1

/-- Every vertex reads back from its text as the object that was printed. -/
def Element.Rereadable (elements : List Element) : Prop :=
  ∀ v ∈ vertices elements, Value.parse (Utf8.encode v.value.render) = .ok v.value

/-- Every vertex reads back from its text, changed in a given way, and still holds what it held with
the contents of a hover changed so. -/
structure Element.ReadBack (elements : List Element) (again : Value → Value) : Prop where
  parse : ∀ v ∈ vertices elements, Value.parse (Utf8.encode v.value.render) = .ok (again v.value)
  content : ∀ v ∈ vertices elements, ∀ held, v.content = .ok held →
    (v.mapValue again).content = .ok (held.mapContents again)

theorem Element.Rereadable.readBack {elements : List Element} (reread : Rereadable elements) :
    ReadBack elements fun value => value where
  parse := reread
  content v _ held read := by
    cases held <;> exact read

theorem Element.Rereadable.legible {elements : List Element} (reread : Rereadable elements) :
    Legible elements :=
  fun v member => Dump.parse_within (reread v member)

/-- What is legible is read back. -/
theorem Element.Legible.readBack {elements : List Element} (legible : Legible elements) :
    ReadBack elements Value.reread where
  parse v member := by
    rw [Value.parse_render (legible v member).1, if_pos (legible v member).2]
  content v member _ read := Vertex.content_reread (legible v member).1 read

/-- The vertex written last under an identifier. -/
def Element.lastVertex? (elements : List Element) (id : VertexId) : Option Vertex :=
  ((vertices elements).filter (·.id = id)).getLast?

theorem Element.mem_of_lastVertex? {elements : List Element} {id : VertexId} {v : Vertex}
    (last : lastVertex? elements id = some v) : v ∈ vertices elements ∧ v.id = id := by
  obtain ⟨member, same⟩ := List.mem_filter.mp (List.mem_of_getLast? last)
  exact ⟨member, of_decide_eq_true same⟩

/-- If every vertex has an identifier of its own, the last one is the only one. -/
theorem Element.WellFormed.toList_lastVertex? {elements : List Element}
    (wellFormed : WellFormed elements) (id : VertexId) :
    (lastVertex? elements id).toList = (vertices elements).filter (·.id = id) := by
  rw [lastVertex?]
  cases listed : (vertices elements).filter (·.id = id) with
  | nil => rfl
  | cons v rest =>
      have among : v ∈ (vertices elements).filter (·.id = id) := listed ▸ List.mem_cons_self
      obtain ⟨member, same⟩ := List.mem_filter.mp among
      have only := Keyed.filter_eq_singleton wellFormed.distinct member
      rw [of_decide_eq_true same, listed] at only
      rw [only]
      rfl

/-! ### Vertices that edges lead to -/

namespace EdgeFacts

/-- The vertices that edges lead to, if the edges are followed from any vertex. -/
def followed (facts : EdgeFacts) : List VertexId :=
  facts.node.targets ++ facts.monikerPackage.toList

/-- What an edge adds to the vertices that are followed, or to the contents, are targets of it. -/
theorem mem_add {facts : EdgeFacts} {e : Edge} {id : VertexId} :
    (id ∈ (facts.add e).contents → id ∈ facts.contents ∨
      EdgeLabel.ofName? e.label = some .contains ∧ id ∈ e.targets) ∧
    (id ∈ (facts.add e).followed → id ∈ facts.followed ∨
      GraphTables.isFollowed e.label ∧ id ∈ e.targets) := by
  unfold add GraphTables.isFollowed
  have head : e.targets.head? = some id → id ∈ e.targets := List.mem_of_head?
  cases EdgeLabel.ofName? e.label with
  | none => exact ⟨.inl, .inl⟩
  | some label =>
      cases label with
      | contains => simp [addTargets, followed]
      | item => exact ⟨.inl, .inl⟩
      | _ =>
          simp only [addTargets, followed, ChainNode.targets, List.mem_append, Option.mem_toList,
            Option.or_eq_some_iff]
          grind

/-- What edges hold about contents and followed vertices is a target of one of them. -/
theorem exists_of_mem_foldl {es : List Edge} {id : VertexId} :
    (id ∈ (es.foldl add .none).contents →
      ∃ e ∈ es, EdgeLabel.ofName? e.label = some .contains ∧ id ∈ e.targets) ∧
    (id ∈ (es.foldl add .none).followed →
      ∃ e ∈ es, GraphTables.isFollowed e.label ∧ id ∈ e.targets) := by
  induction es using List.reverseRecOn with
  | nil => simp [none, followed, ChainNode.targets, ChainNode.empty]
  | append_singleton es e ih =>
      rw [List.foldl_append]
      constructor
      · intro member
        rcases mem_add.1 member with member | found
        · obtain ⟨other, listed, found⟩ := ih.1 member
          exact ⟨other, List.mem_append_left _ listed, found⟩
        · exact ⟨e, by simp, found⟩
      · intro member
        rcases mem_add.2 member with member | found
        · obtain ⟨other, listed, found⟩ := ih.2 member
          exact ⟨other, List.mem_append_left _ listed, found⟩
        · exact ⟨e, by simp, found⟩

end EdgeFacts

/-! ### What is stored of a dump -/

namespace GraphTables

variable {elements : List Element} {dump : Dump}

theorem ofDump_vertices : (ofDump elements dump).vertices =
    (Element.vertices elements).foldl
      (fun table v => table.insert v.id ⟨v.label, v.value.render⟩) ∅ := by
  unfold ofDump
  generalize (∅ : Table StoredVertex) = table
  induction elements generalizing table with
  | nil => rfl
  | cons element rest ih =>
      cases element with
      | vertex v => exact ih _
      | edge e => exact ih _

/-- The vertex written last under an identifier is stored. -/
theorem getElem?_vertices (id : VertexId) : (ofDump elements dump).vertices[id]? =
    (Element.lastVertex? elements id).map fun v => ⟨v.label, v.value.render⟩ := by
  rw [ofDump_vertices, Keyed.getElem?_foldl_insert Vertex.id]
  simp [Element.lastVertex?]

theorem mem_vertices {id : VertexId} :
    id ∈ (ofDump elements dump).vertices ↔ ∃ v ∈ Element.vertices elements, v.id = id := by
  rw [ofDump_vertices, Std.ExtTreeMap.mem_iff_isSome_getElem?,
    Keyed.getElem?_foldl_insert Vertex.id]
  cases last : ((Element.vertices elements).filter (·.id = id)).getLast? with
  | none =>
      rw [List.getLast?_eq_none_iff, List.filter_eq_nil_iff] at last
      simpa using last
  | some v =>
      have listed := List.mem_filter.mp (List.mem_of_getLast? last)
      simp only [Option.map_some, Option.some_or, Option.isSome_some, true_iff]
      exact ⟨v, listed.1, of_decide_eq_true listed.2⟩

/-- The edges out of a vertex are stored in their order, one for each target. -/
theorem edgesFrom_ofDump (id : VertexId) :
    ((ofDump elements dump).edgesFrom id).map readEdge =
      ((Element.edges elements).filter (·.source = id)).flatMap fun e =>
        (storedEdges e).map readEdge := by
  have own (e : Edge) : (storedEdges e).filter (·.source == id) =
      if e.source = id then storedEdges e else [] := by
    split
    · rename_i same
      simp [storedEdges, List.filter_map, Function.comp_def, same]
    · rename_i different
      simp [storedEdges, List.filter_map, Function.comp_def, different]
  unfold edgesFrom ofDump
  simp only
  induction elements with
  | nil => rfl
  | cons element rest ih =>
      cases element with
      | vertex v => exact ih
      | edge e =>
          rw [List.flatMap_cons, List.filter_append, List.map_append, ih]
          simp only [edgesOf, own]
          by_cases same : e.source = id
          · simp [same]
          · simp [same]

/-! ### The subgraph of a document -/

section

variable {again : Value → Value} (reads : Element.ReadBack elements again)
include reads

/-- A stored vertex is read back. -/
theorem readVertex_stored {v : Vertex} (member : v ∈ Element.vertices elements) :
    readVertex v.id ⟨v.label, v.value.render⟩ = .ok (v.mapValue again) := by
  simp only [readVertex, reads.parse v member]
  rfl

theorem readable_ofDump (dump : Dump) : (ofDump elements dump).Readable := by
  intro id stored found
  rw [getElem?_vertices] at found
  obtain ⟨v, last, rfl⟩ := Option.map_eq_some_iff.mp found
  obtain ⟨member, rfl⟩ := Element.mem_of_lastVertex? last
  exact ⟨_, readVertex_stored reads member⟩

theorem block_ofDump {id : VertexId} {v : Vertex}
    (last : Element.lastVertex? elements id = some v) :
    (ofDump elements dump).block id =
      .vertex (v.mapValue again) :: (ofDump elements dump).edgeElements id := by
  obtain ⟨member, rfl⟩ := Element.mem_of_lastVertex? last
  simp [block, getElem?_vertices, last, readVertex_stored reads member]

end

theorem exists_lastVertex? {id : VertexId} (stored : id ∈ (ofDump elements dump).vertices) :
    ∃ v, Element.lastVertex? elements id = some v := by
  rw [Std.ExtTreeMap.mem_iff_isSome_getElem?, getElem?_vertices, Option.isSome_map] at stored
  exact Option.isSome_iff_exists.mp stored

theorem edgeElements_vertices_edges (tables : GraphTables) (id : VertexId) :
    Element.vertices (tables.edgeElements id) = [] ∧
      Element.edges (tables.edgeElements id) = (tables.edgesFrom id).map readEdge := by
  unfold edgeElements
  induction tables.edgesFrom id with
  | nil => exact ⟨rfl, rfl⟩
  | cons e rest ih => exact ⟨ih.1, congrArg (readEdge e :: ·) ih.2⟩

theorem vertices_flatMap (tables : GraphTables) (ids : List VertexId) :
    Element.vertices (ids.flatMap tables.block) =
      ids.flatMap fun id => Element.vertices (tables.block id) := by
  simp [Element.vertices, List.filterMap_flatMap]

theorem edges_flatMap (tables : GraphTables) (ids : List VertexId) :
    Element.edges (ids.flatMap tables.block) =
      ids.flatMap fun id => Element.edges (tables.block id) := by
  simp [Element.edges, List.filterMap_flatMap]

section

variable {again : Value → Value} (reads : Element.ReadBack elements again) {ids : List VertexId}
  (nodup : ids.Nodup) (stored : ∀ id ∈ ids, id ∈ (ofDump elements dump).vertices)
include reads nodup stored

/-- Collected elements hold the vertices stored under a collected identifier, and no others. -/
theorem filter_vertices_collected (id : VertexId) :
    (Element.vertices (ids.flatMap (ofDump elements dump).block)).filter (·.id = id) =
      if id ∈ ids then ((Element.lastVertex? elements id).map (·.mapValue again)).toList
      else [] := by
  have block (i) (member : i ∈ ids) : ∃ v, Element.lastVertex? elements i = some v ∧ v.id = i ∧
      Element.vertices ((ofDump elements dump).block i) = [v.mapValue again] := by
    obtain ⟨v, last⟩ := exists_lastVertex? (stored i member)
    refine ⟨v, last, (Element.mem_of_lastVertex? last).2, ?_⟩
    rw [block_ofDump reads last, Element.vertices_cons_vertex,
      (edgeElements_vertices_edges _ _).1]
  rw [vertices_flatMap, Keyed.filter_flatMap nodup]
  · split
    · rename_i member
      obtain ⟨v, last, _, only⟩ := block id member
      rw [only, last]
      rfl
    · rfl
  · intro i member v listed
    obtain ⟨w, _, same, only⟩ := block i member
    rw [only, List.mem_singleton] at listed
    rw [listed]
    exact same

/-- Collected elements hold the edges out of collected vertices, and no others. -/
theorem filter_edges_collected (id : VertexId) :
    (Element.edges (ids.flatMap (ofDump elements dump).block)).filter (·.source = id) =
      if id ∈ ids then ((ofDump elements dump).edgesFrom id).map readEdge else [] := by
  have block (i) (member : i ∈ ids) : Element.edges ((ofDump elements dump).block i) =
      ((ofDump elements dump).edgesFrom i).map readEdge := by
    obtain ⟨v, last⟩ := exists_lastVertex? (stored i member)
    rw [block_ofDump reads last, Element.edges_cons_vertex,
      (edgeElements_vertices_edges _ _).2]
  rw [edges_flatMap, Keyed.filter_flatMap nodup]
  · split
    · rename_i member
      exact block id member
    · rfl
  · intro i member e listed
    rw [block i member] at listed
    obtain ⟨storedEdge, among, rfl⟩ := List.mem_map.mp listed
    simpa [edgesFrom, readEdge] using (List.mem_filter.mp among).2

/-- Collected elements can be read, since all elements can. -/
theorem ofElements_collected (accepted : Dump.ofElements elements = .ok dump) :
    ∃ part, Dump.ofElements (ids.flatMap (ofDump elements dump).block) = .ok part := by
  refine (Dump.ofElements_isOk_iff _).mpr fun v listed => ?_
  have among : v ∈ (Element.vertices
      (ids.flatMap (ofDump elements dump).block)).filter (·.id = v.id) :=
    List.mem_filter.mpr ⟨listed, decide_eq_true rfl⟩
  rw [filter_vertices_collected reads nodup stored] at among
  split at among
  · obtain ⟨w, last, rfl⟩ := Option.map_eq_some_iff.mp (Option.mem_toList.mp among)
    have member := (Element.mem_of_lastVertex? last).1
    obtain ⟨held, read⟩ := (Dump.ofElements_isOk_iff elements).mp ⟨dump, accepted⟩ w member
    exact ⟨_, reads.content w member held read⟩
  · cases among

end

theorem foldl_edgesFrom (wellFormed : Element.WellFormed elements) (id : VertexId) :
    (((ofDump elements dump).edgesFrom id).map readEdge).foldl EdgeFacts.add .none =
      ((Element.edges elements).filter (·.source = id)).foldl EdgeFacts.add .none := by
  rw [edgesFrom_ofDump, EdgeFacts.foldl_add_eq_ofEdges, EdgeFacts.foldl_add_eq_ofEdges]
  exact EdgeFacts.ofEdges_split fun label names =>
    Element.oneTarget_edgesFrom wellFormed.oneTarget names id

/-- An edge that is followed leads to targets that are followed. -/
theorem mem_followed {document id target : VertexId} {e : Edge}
    (listed : e ∈ (Element.edges elements).filter (·.source = id))
    (follows : follows document id e.label) (among : target ∈ e.targets) :
    target ∈ (ofDump elements dump).followed document id := by
  obtain ⟨member, source⟩ := List.mem_filter.mp listed
  refine List.mem_map.mpr
    ⟨⟨e.source, target, e.label, e.document, e.property⟩, List.mem_filter.mpr ⟨?_, follows⟩, rfl⟩
  refine List.mem_filter.mpr ⟨?_, by simpa using source⟩
  exact List.mem_flatMap.mpr
    ⟨.edge e, Element.mem_edges.mp member, List.mem_map.mpr ⟨target, among, rfl⟩⟩

theorem mem_vertices_of_vertexFacts (accepted : Dump.ofElements elements = .ok dump)
    {id : VertexId} (present : dump.vertexFacts id ≠ .none) :
    id ∈ (ofDump elements dump).vertices := by
  rw [Dump.vertexFacts_ofElements accepted] at present
  cases listed : (Element.vertices elements).filter (·.id = id) with
  | nil =>
      rw [listed] at present
      exact absurd rfl present
  | cons v rest =>
      have member : v ∈ (Element.vertices elements).filter (·.id = id) := by simp [listed]
      obtain ⟨among, same⟩ := List.mem_filter.mp member
      exact mem_vertices.mpr ⟨v, among, of_decide_eq_true same⟩

/-- The stored vertices that a document leads to carry the document as the whole dump does. -/
theorem subgraph_agrees (accepted : Dump.ofElements elements = .ok dump)
    (wellFormed : Element.WellFormed elements) (reread : Element.Rereadable elements)
    {document : VertexId} (present : document ∈ (ofDump elements dump).vertices) :
    ∃ (collected : List Element) (part : Dump) (inside : VertexId → Prop),
      (ofDump elements dump).subgraph document = .ok collected ∧
      Dump.ofElements collected = .ok part ∧
      dump.AgreesOn part inside ∧ dump.ClosedFrom document inside ∧ inside document := by
  obtain ⟨ids, result, nodup, stored, started, closed⟩ :=
    subgraph_eq_ok (readable_ofDump reread.readBack dump) document
  have member := started present
  have vertexPart := filter_vertices_collected reread.readBack nodup stored
  simp only [Vertex.mapValue_id, Option.map_id', wellFormed.toList_lastVertex?] at vertexPart
  have edgePart := filter_edges_collected reread.readBack nodup stored
  obtain ⟨part, partAccepted⟩ := ofElements_collected reread.readBack nodup stored accepted
  have absent (id) (missing : id ∉ (ofDump elements dump).vertices) :
      dump.vertexFacts id = .none :=
    Classical.byContradiction fun there => missing (mem_vertices_of_vertexFacts accepted there)
  have leads (id) (inside : id ∈ ids) (target) (followed : target ∈ (dump.edgeFacts id).followed) :
      target ∈ (ofDump elements dump).vertices → target ∈ ids := by
    rw [Dump.edgeFacts_ofElements accepted] at followed
    obtain ⟨e, listed, follows, among⟩ := EdgeFacts.exists_of_mem_foldl.2 followed
    exact closed id inside target
      (mem_followed listed (by simp [GraphTables.follows, follows]) among)
  refine ⟨_, part, fun id => id ∈ (ofDump elements dump).vertices → id ∈ ids, result,
    partAccepted, ⟨?_, ?_⟩, ⟨?_, ?_, ?_⟩, fun _ => member⟩
  · intro id inside
    rw [Dump.vertexFacts_ofElements partAccepted, vertexPart]
    by_cases collected : id ∈ ids
    · rw [if_pos collected, Dump.vertexFacts_ofElements accepted]
    · rw [if_neg collected, absent id fun there => collected (inside there)]
      rfl
  · intro id inside there
    have collected := inside (mem_vertices_of_vertexFacts accepted there)
    rw [Dump.edgeFacts_ofElements partAccepted, edgePart, if_pos collected,
      foldl_edgesFrom wellFormed, Dump.edgeFacts_ofElements accepted]
  · intro id listed
    have listed : id ∈ (dump.edgeFacts document).contents := listed
    rw [Dump.edgeFacts_ofElements accepted] at listed
    obtain ⟨e, fromDocument, label, among⟩ := EdgeFacts.exists_of_mem_foldl.1 listed
    have source : e.source = document := by simpa using (List.mem_filter.mp fromDocument).2
    exact closed document member id
      (mem_followed fromDocument (by simp [GraphTables.follows, label]) among)
  · intro id inside there target listed
    have collected := inside (mem_vertices_of_vertexFacts accepted there)
    exact leads id collected target (List.mem_append_left _ listed)
  · intro id inside there package named
    have collected := inside (mem_vertices_of_vertexFacts accepted there)
    exact leads id collected package
      (List.mem_append_right _ (Option.mem_toList.mpr named))

/-- The graph of a dump serves each document as it is in the dump. -/
theorem documentOf_subgraph (accepted : Dump.ofElements elements = .ok dump)
    (wellFormed : Element.WellFormed elements) (reread : Element.Rereadable elements)
    {document : VertexId} {uri : String} (addressed : dump.documents[document]? = some uri) :
    ∃ (collected : List Element) (part : Dump),
      (ofDump elements dump).subgraph document = .ok collected ∧
      Dump.ofElements collected = .ok part ∧
      part.document? document = some (dump.documentOf document) := by
  have there : dump.vertexFacts document ≠ .none := by
    intro missing
    have := congrArg VertexFacts.address missing
    simp [Dump.vertexFacts, VertexFacts.none, addressed] at this
  obtain ⟨collected, part, inside, result, partAccepted, agree, closed, member⟩ :=
    subgraph_agrees accepted wellFormed reread (mem_vertices_of_vertexFacts accepted there)
  refine ⟨collected, part, result, partAccepted, ?_⟩
  have contents : dump.contents.getD document [] = part.contents.getD document [] :=
    congrArg EdgeFacts.contents (agree.edges document member there)
  have present : part.documents.contains document := by
    rw [Std.ExtTreeMap.contains_eq_isSome_getElem?, ← agree.document member, addressed]
    rfl
  rw [Dump.document?, if_pos present, Dump.documentOf_congr agree closed contents]

end GraphTables

/-! ### Documents by address -/

/-- The graph of a dump keeps the last document at each address. -/
theorem GraphTables.documents_eq_getLast? (elements : List Element) (dump : Dump) (uri : String) :
    (ofDump elements dump).documents[uri]? = (dump.documentsAt uri).getLast? := by
  unfold ofDump
  simp only
  rw [Std.ExtTreeMap.foldl_eq_foldl_toList]
  exact (dump.getElem?_foldl_eq_getLast? id).trans (congrFun Option.map_id _)

/-- The graph of a dump knows the address of each document. -/
theorem GraphTables.documents_ofDump (elements : List Element) {dump : Dump}
    (distinct : dump.DistinctAddresses) (uri : String) :
    (ofDump elements dump).documents[uri]? = dump.documentId? uri := by
  rw [documents_eq_getLast?, distinct.documentId?]

/-- A document served from the graph of a dump is the one cut out of the whole dump. -/
theorem GraphTables.document_ofDump {elements : List Element} {dump : Dump}
    (accepted : Dump.ofElements elements = .ok dump) (wellFormed : Element.WellFormed elements)
    (reread : Element.Rereadable elements) (distinct : dump.DistinctAddresses)
    (uri path : String) :
    (ofDump elements dump).document uri path = Source.wholeDocument dump uri path := by
  unfold document Source.wholeDocument
  rw [documents_ofDump elements distinct]
  cases located : dump.documentId? uri with
  | none => rfl
  | some id =>
      have addressed := Dump.addressed_of_documentId? located
      obtain ⟨collected, part, result, partAccepted, found⟩ :=
        documentOf_subgraph accepted wellFormed reread addressed
      have whole := Dump.document?_of_addressed addressed
      simp only [bind, Except.bind, result, partAccepted, found, Option.bind_some, whole]
      rfl

/-! ### Stored documents -/

namespace BlobTables

variable [Gzip.Compressor] {dump : Dump}

/-- Different documents of a dump have different digests. -/
def NoCollision (dump : Dump) : Prop :=
  ∀ i j : VertexId, i ∈ dump.documents → j ∈ dump.documents →
    digest (dump.documentOf i).encode = digest (dump.documentOf j).encode →
    (dump.documentOf i).encode = (dump.documentOf j).encode

/-- What has been stored of some documents: each digest stands for one of them, and every one has
a digest. -/
structure Holds (dump : Dump) (entries : List (VertexId × String)) (tables : BlobTables) :
    Prop where
  projectRoot : tables.projectRoot = dump.projectRoot
  rows : tables.rows = .ofDump dump
  digests : tables.documents = entries.foldl
    (fun table entry => table.insert entry.2 (digest (dump.documentOf entry.1).encode)) ∅
  sound : ∀ key octets, tables.contents[key]? = some octets → ∃ entry ∈ entries,
    octets = (dump.documentOf entry.1).encode ∧ key = digest octets
  complete : ∀ entry ∈ entries, digest (dump.documentOf entry.1).encode ∈ tables.contents

theorem Holds.addDocument {entries : List (VertexId × String)} {tables : BlobTables}
    (holds : Holds dump entries tables) (id : VertexId) (uri : String) :
    Holds dump (entries ++ [(id, uri)]) (tables.addDocument dump id uri) := by
  constructor
  · exact holds.projectRoot
  · exact holds.rows
  · rw [List.foldl_append, ← holds.digests]
    rfl
  · intro key octets found
    unfold BlobTables.addDocument at found
    simp only at found
    rw [Std.ExtTreeMap.getElem?_insertIfNew] at found
    split at found
    · rename_i new
      cases found
      refine ⟨(id, uri), by simp, rfl, ?_⟩
      exact (Std.LawfulEqOrd.eq_of_compare new.1).symm
    · obtain ⟨entry, listed, same⟩ := holds.sound key octets found
      exact ⟨entry, List.mem_append_left _ listed, same⟩
  · intro entry listed
    unfold BlobTables.addDocument
    simp only [Std.ExtTreeMap.mem_insertIfNew]
    rcases List.mem_append.mp listed with listed | listed
    · exact .inr (holds.complete entry listed)
    · rw [List.mem_singleton.mp listed]
      left
      simp

theorem holds_ofDump (dump : Dump) : Holds dump dump.documents.toList (ofDump dump) := by
  have folded (entries before : List (VertexId × String)) (tables : BlobTables)
      (holds : Holds dump before tables) : Holds dump (before ++ entries)
        (entries.foldl (fun tables entry => tables.addDocument dump entry.1 entry.2) tables) := by
    induction entries generalizing before tables with
    | nil => simpa using holds
    | cons entry rest ih =>
        have := ih (before ++ [entry]) _ (holds.addDocument entry.1 entry.2)
        rwa [List.append_assoc, List.singleton_append] at this
  unfold ofDump
  rw [Std.ExtTreeMap.foldl_eq_foldl_toList]
  apply folded _ []
  exact ⟨rfl, rfl, rfl, by simp, by simp⟩

theorem documents_eq_getLast? (dump : Dump) (uri : String) :
    (ofDump dump).documents[uri]? =
      (dump.documentsAt uri).getLast?.map fun id => digest (dump.documentOf id).encode := by
  rw [(holds_ofDump dump).digests]
  exact dump.getElem?_foldl_eq_getLast? fun id => digest (dump.documentOf id).encode

/-- The octets at an address are those of the last document, or of one with the same digest. -/
theorem octets?_ofDump {uri : String} {id : VertexId}
    (last : (dump.documentsAt uri).getLast? = some id) :
    ∃ same ∈ dump.documents,
      digest (dump.documentOf same).encode = digest (dump.documentOf id).encode ∧
      (ofDump dump).octets? uri = some (dump.documentOf same).encode := by
  have holds := holds_ofDump dump
  have addressed := Dump.mem_documentsAt.mp (List.mem_of_getLast? last)
  have kept := holds.complete _ (Std.ExtTreeMap.mem_toList_iff_getElem?_eq_some.mpr addressed)
  rw [Std.ExtTreeMap.mem_iff_isSome_getElem?] at kept
  obtain ⟨octets, stored⟩ := Option.isSome_iff_exists.mp kept
  obtain ⟨⟨same, address⟩, listed, rfl, digests⟩ := holds.sound _ _ stored
  refine ⟨same, ?_, digests.symm, ?_⟩
  · exact Dump.mem_documents_of_addressed (Std.ExtTreeMap.mem_toList_iff_getElem?_eq_some.mp listed)
  · rw [octets?, documents_eq_getLast?, last]
    exact stored

/-- Unless digests collide, the octets are those of the last document. -/
theorem octets?_eq_encode (collisionFree : NoCollision dump) {uri : String} {id : VertexId}
    (last : (dump.documentsAt uri).getLast? = some id) :
    (ofDump dump).octets? uri = some (dump.documentOf id).encode := by
  obtain ⟨same, present, digests, found⟩ := octets?_ofDump last
  have listed := Dump.mem_documents_of_addressed
    (Dump.mem_documentsAt.mp (List.mem_of_getLast? last))
  rw [found, collisionFree same id present listed digests]

/-- The digest of each document is stored at its address. -/
theorem documents_ofDump (distinct : dump.DistinctAddresses) (uri : String) :
    (ofDump dump).documents[uri]? =
      (dump.documentId? uri).map fun id => digest (dump.documentOf id).encode := by
  rw [documents_eq_getLast?, distinct.documentId?]

/-- The document stored at an address is the one cut out of the whole dump. -/
theorem document_ofDump (distinct : dump.DistinctAddresses) (collisionFree : NoCollision dump)
    (uri path : String) :
    (ofDump dump).document uri path = (Source.wholeDocument dump uri path).map Document.encode := by
  unfold document Source.wholeDocument
  cases located : dump.documentId? uri with
  | none =>
      rw [octets?, documents_ofDump distinct, located]
      rfl
  | some id =>
      have whole := Dump.document?_of_addressed (Dump.addressed_of_documentId? located)
      rw [distinct.documentId?] at located
      rw [octets?_eq_encode collisionFree located]
      simp only [Option.bind_some, whole, Except.map]

end BlobTables

/-! ### Sources -/

namespace Source

section

variable [Gzip.Compressor]

/-- Two sources answer alike: which paths have documents, what their documents are, and where
monikers are defined and referred to. -/
structure Agrees (a b : Source) : Prop where
  hasDocument : ∀ path, a.hasDocument path = b.hasDocument path
  present : ∀ path, a.hasDocument path → ∃ document : Document,
    a.document path = .ok document.encode ∧ b.document path = .ok document.encode
  absent : ∀ path, ¬ a.hasDocument path →
    a.document path = .error (.noDocument path) ∧ b.document path = .error (.noDocument path)
  locations : ∀ kind scheme identifier,
    a.locations kind scheme identifier = b.locations kind scheme identifier

variable {elements : List Element} {dump : Dump}

/-- A whole dump has a document for each path that it knows. -/
theorem exists_document_ofDump {path : String} (known : (ofDump dump).hasDocument path) :
    ∃ document : Document, (ofDump dump).document path = .ok document.encode := by
  obtain ⟨id, located⟩ := Option.isSome_iff_exists.mp known
  have whole := Dump.document?_of_addressed (Dump.addressed_of_documentId? located)
  refine ⟨dump.documentOf id, ?_⟩
  unfold document wholeDocument
  simp only [ofDump] at located ⊢
  simp only [located, Option.bind_some, whole]
  rfl

/-- Reading another path of a whole dump fails in one way only. -/
theorem no_document_ofDump {path : String} (unknown : ¬ (ofDump dump).hasDocument path) :
    (ofDump dump).document path = .error (.noDocument path) := by
  have located := Option.not_isSome_iff_eq_none.mp unknown
  unfold document wholeDocument
  simp only [ofDump] at located ⊢
  simp only [located]
  rfl

/-- It is enough that paths have the same octets. -/
theorem Agrees.of_octets {other : Source}
    (hasDocument : ∀ path, (ofDump dump).hasDocument path = other.hasDocument path)
    (document : ∀ path, (ofDump dump).document path = other.document path)
    (locations : ∀ kind scheme identifier,
      (ofDump dump).locations kind scheme identifier = other.locations kind scheme identifier) :
    (ofDump dump).Agrees other where
  hasDocument := hasDocument
  present path known := by
    obtain ⟨cut, found⟩ := exists_document_ofDump known
    exact ⟨cut, found, (document path).symm.trans found⟩
  absent path unknown := by
    have missing := no_document_ofDump unknown
    exact ⟨missing, (document path).symm.trans missing⟩
  locations := locations

theorem agrees_graph (accepted : Dump.ofElements elements = .ok dump)
    (wellFormed : Element.WellFormed elements) (reread : Element.Rereadable elements)
    (distinct : dump.DistinctAddresses) :
    (ofDump dump).Agrees (.tables (.graph (.ofDump elements dump))) := by
  apply Agrees.of_octets
  · intro path
    have known := GraphTables.documents_ofDump elements distinct
      ((ProjectRoot.ofOption dump.projectRoot).address path)
    exact (congrArg Option.isSome known).symm.trans
      Std.ExtTreeMap.contains_eq_isSome_getElem?.symm
  · intro path
    exact congrArg (Except.map Document.encode)
      (GraphTables.document_ofDump accepted wellFormed reread distinct _ path).symm
  · intro _ _ _
    rfl

theorem project_blob (dump : Dump) :
    (tables (.blob (.ofDump dump))).project = (ofDump dump).project :=
  congrArg ProjectRoot.ofOption (BlobTables.holds_ofDump dump).projectRoot

theorem agrees_blob (distinct : dump.DistinctAddresses)
    (collisionFree : BlobTables.NoCollision dump) :
    (ofDump dump).Agrees (.tables (.blob (.ofDump dump))) := by
  apply Agrees.of_octets
  · intro path
    have known := BlobTables.documents_ofDump distinct ((ofDump dump).project.address path)
    unfold hasDocument
    rw [project_blob]
    simp only [ofDump, Tables.hasDocument, Std.ExtTreeMap.contains_eq_isSome_getElem?]
    exact (congrArg Option.isSome known).trans Option.isSome_map |>.symm
  · intro path
    unfold document
    rw [project_blob]
    exact (BlobTables.document_ofDump distinct collisionFree _ path).symm
  · intro kind scheme identifier
    unfold locations
    rw [project_blob]
    exact congrArg (RowTables.locations · _ kind scheme identifier)
      (BlobTables.holds_ofDump dump).rows.symm

/-- Whichever encoding a well-formed dump is converted to, it is served as the dump itself is. -/
theorem encodings_agree (accepted : Dump.ofElements elements = .ok dump)
    (wellFormed : Element.WellFormed elements) (reread : Element.Rereadable elements)
    (distinct : dump.DistinctAddresses) (collisionFree : BlobTables.NoCollision dump) :
    ∃ graph blob,
      Tables.ofElements .graph elements = .ok graph ∧ graph.kind = .graph ∧
      Tables.ofElements .blob elements = .ok blob ∧ blob.kind = .blob ∧
      (ofDump dump).Agrees (.tables graph) ∧ (ofDump dump).Agrees (.tables blob) := by
  refine ⟨.graph (.ofDump elements dump), .blob (.ofDump dump), ?_, rfl, ?_, rfl,
    agrees_graph accepted wellFormed reread distinct, agrees_blob distinct collisionFree⟩
  · simp only [Tables.ofElements, accepted]
    rfl
  · simp only [Tables.ofElements, accepted]
    rfl

end

/-- A position as an object. -/
def samplePosition (line character : Int) : Value :=
  .record [("character", .number (.integer character)), ("line", .number (.integer line))]

/-- A range of one document whose symbol is defined there and in a document that is not given. -/
def sample : List Element :=
  [.vertex ⟨⟨"1"⟩, "document", .record [("uri", .string "file:///a.ts")]⟩,
   .vertex ⟨⟨"2"⟩, "range",
     .record [("end", samplePosition 1 7), ("start", samplePosition 1 4)]⟩,
   .vertex ⟨⟨"3"⟩, "resultSet", .record []⟩,
   .vertex ⟨⟨"4"⟩, "definitionResult", .record []⟩,
   .edge ⟨"contains", ⟨"1"⟩, none, [⟨"2"⟩], none, none⟩,
   .edge ⟨"next", ⟨"2"⟩, some ⟨"3"⟩, [], none, none⟩,
   .edge ⟨"textDocument/definition", ⟨"3"⟩, some ⟨"4"⟩, [], none, none⟩,
   .edge ⟨"item", ⟨"4"⟩, none, [⟨"2"⟩, ⟨"9"⟩], some ⟨"1"⟩, none⟩]

open scoped Gzip

theorem encodings_agree_sample :
    ∃ dump graph blob, Dump.ofElements sample = .ok dump ∧
      Tables.ofElements .graph sample = .ok graph ∧ Tables.ofElements .blob sample = .ok blob ∧
      (ofDump dump).Agrees (.tables graph) ∧ (ofDump dump).Agrees (.tables blob) := by
  have read : (Dump.ofElements sample).toOption.map (·.documents.toList) =
      some [(⟨"1"⟩, "file:///a.ts")] := by decide +kernel
  obtain ⟨dump, accepted, listed⟩ := Option.map_eq_some_iff.mp read
  have accepted : Dump.ofElements sample = .ok dump := by
    cases outcome : Dump.ofElements sample with
    | error failure =>
        rw [outcome] at accepted
        cases accepted
    | ok found =>
        rw [outcome] at accepted
        cases accepted
        rfl
  have only (i : VertexId) (uri : String) (found : dump.documents[i]? = some uri) :
      i = ⟨"1"⟩ := by
    rw [← Std.ExtTreeMap.mem_toList_iff_getElem?_eq_some, listed, List.mem_singleton] at found
    exact congrArg Prod.fst found
  have alone (i : VertexId) (member : i ∈ dump.documents) : i = ⟨"1"⟩ := by
    obtain ⟨uri, found⟩ :=
      Option.isSome_iff_exists.mp (Std.ExtTreeMap.mem_iff_isSome_getElem?.mp member)
    exact only i uri found
  have wellFormed : Element.WellFormed sample := by
    refine ⟨by decide +kernel, ?_⟩
    have single : ∀ e ∈ edges sample, e.targets.length = 1 ∨
        EdgeLabel.ofName? e.label = some .item := by decide +kernel
    intro e member label known names
    rcases single e member with one | isItem
    · exact one
    · rw [isItem] at known
      cases known
      cases names
  obtain ⟨graph, blob, toGraph, _, toBlob, _, agree⟩ :=
    encodings_agree accepted wellFormed (by unfold Element.Rereadable; decide +kernel)
      (fun i j uri first second => (only i uri first).trans (only j uri second).symm)
      (fun i j first second _ => by rw [alone i first, alone j second])
  exact ⟨dump, graph, blob, accepted, toGraph, toBlob, agree⟩

end Source

end CodeNav
