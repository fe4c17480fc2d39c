/-
Module: CodeNav.Proofs.Encoding.Traversal
Purpose: The walk over stored edges ends, and what it puts out is what a document leads to.
Main exports:
  GraphTables.LeadsTo, GraphTables.Stage, GraphTables.Turn, GraphTables.Ends,
  GraphTables.wellFounded_turn, GraphTables.subgraph_exact
-/
import CodeNav.Proofs.Encoding.Subgraph
import Mathlib.Logic.Relation

namespace CodeNav.GraphTables

/-! ### What a document leads to -/

/-- The labels of the edges that are followed from every vertex. -/
def walkedLabels : List String :=
  ["next", "textDocument/definition", "textDocument/references", "textDocument/hover", "moniker",
    "packageInformation"]

/-- A document leads to itself if it is stored, and from each stored vertex that it leads to on to
the stored targets of the edges with the labels above; its own contents count as well. -/
inductive LeadsTo (tables : GraphTables) (document : VertexId) : VertexId → Prop where
  | itself (stored : document ∈ tables.vertices) : LeadsTo tables document document
  | along {edge : StoredEdge} (before : LeadsTo tables document edge.source)
      (listed : edge ∈ tables.edges)
      (walked : edge.label ∈ walkedLabels ∨ edge.label = "contains" ∧ edge.source = document)
      (stored : edge.target ∈ tables.vertices) : LeadsTo tables document edge.target

theorem isFollowed_iff {label : String} : isFollowed label = true ↔ label ∈ walkedLabels := by
  unfold isFollowed walkedLabels
  fun_cases EdgeLabel.ofName? label <;> simp_all

theorem follows_iff {document source : VertexId} {label : String} :
    follows document source label = true ↔
      label ∈ walkedLabels ∨ label = "contains" ∧ source = document := by
  have contents : EdgeLabel.ofName? label = some .contains ↔ label = "contains" := by
    unfold EdgeLabel.ofName?
    split <;> simp_all
  simp [follows, isFollowed_iff, contents]

variable {tables : GraphTables} {document : VertexId}

theorem mem_followed_iff {id target : VertexId} :
    target ∈ tables.followed document id ↔
      ∃ edge ∈ tables.edges, edge.source = id ∧ edge.target = target ∧
        (edge.label ∈ walkedLabels ∨ edge.label = "contains" ∧ edge.source = document) := by
  unfold followed edgesFrom
  simp only [List.mem_map, List.mem_filter, beq_iff_eq, follows_iff]
  constructor
  · rintro ⟨edge, ⟨⟨listed, rfl⟩, walked⟩, same⟩
    exact ⟨edge, listed, rfl, same, walked⟩
  · rintro ⟨edge, listed, rfl, same, walked⟩
    exact ⟨edge, ⟨⟨listed, rfl⟩, walked⟩, same⟩

theorem LeadsTo.followed {id target : VertexId} (before : tables.LeadsTo document id)
    (listed : target ∈ tables.followed document id) (stored : target ∈ tables.vertices) :
    tables.LeadsTo document target := by
  obtain ⟨edge, member, rfl, rfl, walked⟩ := mem_followed_iff.mp listed
  exact .along before member walked stored

/-! ### What is met -/

theorem mem_enqueue {queue seen targets : List VertexId} {id : VertexId}
    (member : id ∈ (enqueue queue seen targets).1) : id ∈ queue ∨ id ∈ targets := by
  induction targets generalizing queue seen with
  | nil => exact .inl member
  | cons first rest ih =>
      unfold enqueue at member
      split at member
      · exact (ih member).imp_right (List.mem_cons_of_mem first)
      · rcases ih member with queued | later
        · rcases List.mem_append.mp queued with queued | here
          · exact .inl queued
          · rw [List.mem_singleton.mp here]
            exact .inr List.mem_cons_self
        · exact .inr (List.mem_cons_of_mem first later)

/-- What a walk meets is led to if the queue is. -/
theorem leadsTo_of_mem_met {fuel : Nat} {queue seen : List VertexId}
    (led : ∀ id ∈ queue, id ∈ tables.vertices → tables.LeadsTo document id) {id : VertexId}
    (member : id ∈ tables.met document fuel queue seen) : tables.LeadsTo document id := by
  induction fuel generalizing queue seen with
  | zero => cases member
  | succ fuel ih =>
      cases queue with
      | nil => cases member
      | cons first queue =>
          have ledRest := fun other listed => led other (List.mem_cons_of_mem first listed)
          unfold met at member
          split at member
          · rename_i stored
            have here := led first List.mem_cons_self stored
            rcases List.mem_cons.mp member with rfl | later
            · exact here
            · refine ih (fun other queued isStored => ?_) later
              rcases mem_enqueue queued with queued | target
              · exact ledRest other queued isStored
              · exact here.followed target isStored
          · exact ih ledRest member

/-- A walk from a document meets what the document leads to. -/
theorem mem_met_iff {id : VertexId} :
    id ∈ tables.met document (tables.edges.length + 1) [document] [document] ↔
      tables.LeadsTo document id := by
  constructor
  · apply leadsTo_of_mem_met
    intro other queued stored
    rw [List.mem_singleton.mp queued] at stored ⊢
    exact .itself stored
  · intro led
    have met := tables.collected_start document
    induction led with
    | itself stored => exact met.queued document (List.mem_singleton_self document) stored
    | along _ listed walked stored ih =>
        exact met.closed_start ih (mem_followed_iff.mpr ⟨_, listed, rfl, rfl, walked⟩) stored

/-! ### The turns of the walk -/

/-- A stage of the walk: the vertices queued, those met so far, and what has been put out. -/
structure Stage where
  queue : List VertexId
  seen : List VertexId
  emitted : List Element

/-- The stage at which a document is queued. -/
def Stage.start (document : VertexId) : Stage :=
  ⟨[document], [document], []⟩

/-- A turn of the walk takes a vertex out of the queue. One that is not stored is passed over; of
any other the vertex and its edges are put out, and the targets not met before are queued. -/
inductive Turn (tables : GraphTables) (document : VertexId) : Stage → Stage → Prop where
  | pass {id : VertexId} {queue seen : List VertexId} {emitted : List Element}
      (absent : tables.vertices[id]? = none) :
      Turn tables document ⟨id :: queue, seen, emitted⟩ ⟨queue, seen, emitted⟩
  | emit {id : VertexId} {queue seen : List VertexId} {emitted : List Element}
      {stored : StoredVertex} {vertex : Vertex} (found : tables.vertices[id]? = some stored)
      (read : readVertex id stored = .ok vertex) :
      Turn tables document ⟨id :: queue, seen, emitted⟩
        ⟨(enqueue queue seen (tables.followed document id)).1,
          (enqueue queue seen (tables.followed document id)).2,
          emitted ++ .vertex vertex :: tables.edgeElements id⟩

/-- How a walk ends: with what has been put out once nothing is queued, and with a failure at a
vertex that cannot be read back. -/
inductive Ends (tables : GraphTables) : Stage → Except Failure (List Element) → Prop where
  | done {seen : List VertexId} {emitted : List Element} :
      Ends tables ⟨[], seen, emitted⟩ (.ok emitted)
  | broken {id : VertexId} {queue seen : List VertexId} {emitted : List Element}
      {stored : StoredVertex} {failure : Failure} (found : tables.vertices[id]? = some stored)
      (read : readVertex id stored = .error failure) :
      Ends tables ⟨id :: queue, seen, emitted⟩ (.error failure)

/-- Any number of turns. -/
abbrev Turns (tables : GraphTables) (document : VertexId) : Stage → Stage → Prop :=
  Relation.ReflTransGen (Turn tables document)

/-- The turns that are left, at most. -/
def Stage.left (tables : GraphTables) (stage : Stage) : Nat :=
  stage.queue.length + (tables.unmet stage.seen).length

section

variable {before after other : Stage} {outcome : Except Failure (List Element)}

theorem enqueue_followed_le (tables : GraphTables) (document id : VertexId)
    (queue seen : List VertexId) :
    let next := enqueue queue seen (tables.followed document id)
    next.1.length + (tables.unmet next.2).length ≤ queue.length + (tables.unmet seen).length := by
  apply enqueue_length_le
  intro target member
  obtain ⟨edge, listed, _, same, _⟩ := mem_followed_iff.mp member
  exact ⟨edge, listed, same⟩

theorem Turn.left_lt (turn : Turn tables document before after) :
    after.left tables < before.left tables := by
  cases turn with
  | pass absent =>
      simp only [Stage.left, List.length_cons]
      omega
  | @emit id queue seen emitted stored vertex found read =>
      have fewer := tables.enqueue_followed_le document id queue seen
      simp only [Stage.left, List.length_cons] at fewer ⊢
      omega

/-- There is no endless walk, even where edges lead in a circle. -/
theorem wellFounded_turn (tables : GraphTables) (document : VertexId) :
    WellFounded fun after before => Turn tables document before after :=
  Subrelation.wf (fun turn => turn.left_lt) (InvImage.wf (Stage.left tables) Nat.lt_wfRel.wf)

theorem Turn.unique (turn : Turn tables document before after)
    (another : Turn tables document before other) : after = other := by
  cases turn with
  | pass absent =>
      cases another with
      | pass => rfl
      | emit found => simp [absent] at found
  | emit found read =>
      cases another with
      | pass absent => simp [found] at absent
      | emit foundToo readToo =>
          obtain rfl := Option.some.inj (found.symm.trans foundToo)
          obtain rfl := Except.ok.inj (read.symm.trans readToo)
          rfl

theorem Ends.no_turn (ended : Ends tables before outcome) : ¬Turn tables document before after := by
  intro turn
  cases ended with
  | done => cases turn
  | broken found read =>
      cases turn with
      | pass absent => simp [found] at absent
      | emit foundToo readToo =>
          obtain rfl := Option.some.inj (found.symm.trans foundToo)
          simp [read] at readToo

/-- With fuel for the turns that are left, the elements still to be collected are those that the
walk goes on to put out. -/
theorem exists_ends_collect (document : VertexId) (fuel : Nat) (queue seen : List VertexId)
    (emitted : List Element)
    (enough : queue.length + (tables.unmet seen).length ≤ fuel) :
    ∃ last, Turns tables document ⟨queue, seen, emitted⟩ last ∧
      Ends tables last ((tables.collect document fuel queue seen).map (emitted ++ ·)) := by
  induction fuel generalizing queue seen emitted with
  | zero =>
      obtain rfl : queue = [] := List.length_eq_zero_iff.mp (by omega)
      refine ⟨_, .refl, ?_⟩
      simpa [collect, Except.map] using Ends.done
  | succ fuel ih =>
      cases queue with
      | nil =>
          refine ⟨_, .refl, ?_⟩
          simpa [collect, Except.map] using Ends.done
      | cons id queue =>
          rw [List.length_cons] at enough
          cases found : tables.vertices[id]? with
          | none =>
              obtain ⟨last, turns, ended⟩ := ih queue seen emitted (by omega)
              refine ⟨last, .head (.pass found) turns, ?_⟩
              simpa only [collect, found] using ended
          | some stored =>
              rw [collect_cons_of_found found]
              cases read : readVertex id stored with
              | error failure => exact ⟨_, .refl, .broken found read⟩
              | ok vertex =>
                  have fewer := tables.enqueue_followed_le document id queue seen
                  obtain ⟨last, turns, ended⟩ := ih _ _
                    (emitted ++ .vertex vertex :: tables.edgeElements id)
                    (Nat.le_trans fewer (by omega))
                  refine ⟨last, .head (.emit found read) turns, ?_⟩
                  rw [Success.ok_bind]
                  cases collected : tables.collect document fuel _ _ with
                  | error failure => simpa [collected, Except.map] using ended
                  | ok others => simpa [collected, Except.map] using ended

/-- Whichever turns are made, once no further turn can be made the walk has ended with the elements
that the document needs. -/
theorem Turns.ends_subgraph {last : Stage} (turns : Turns tables document (.start document) last)
    (final : ∀ after, ¬Turn tables document last after) :
    Ends tables last (tables.subgraph document) := by
  obtain ⟨ended, others, ends⟩ := exists_ends_collect document (tables.edges.length + 1)
    [document] [document] [] (tables.start_enough document)
  have whole : (tables.collect document (tables.edges.length + 1) [document] [document]).map
      ([] ++ ·) = tables.subgraph document := by
    unfold subgraph
    cases tables.collect document (tables.edges.length + 1) [document] [document] <;> rfl
  rw [whole] at ends
  have same : last = ended := by
    rcases Relation.ReflTransGen.total_of_right_unique
      (fun _ _ _ turn another => turn.unique another) turns others with onward | onward
    · rcases onward.cases_head with same | ⟨next, turn, _⟩
      · exact same
      · exact absurd turn (final next)
    · rcases onward.cases_head with same | ⟨next, turn, _⟩
      · exact same.symm
      · exact absurd turn ends.no_turn
  rwa [same]

end

/-! ### What is put out -/

/-- A vertex is what is read back of the one stored under its identifier. -/
def Holds (tables : GraphTables) (vertex : Vertex) : Prop :=
  ∃ stored, tables.vertices[vertex.id]? = some stored ∧ readVertex vertex.id stored = .ok vertex

/-- A vertex, and behind it all edges out of it in the order in which they were written. -/
def withEdges (tables : GraphTables) (vertex : Vertex) : List Element :=
  .vertex vertex ::
    (tables.edges.filter (·.source == vertex.id)).map fun edge => .edge (readEdge edge)

theorem readVertex_id {id : VertexId} {stored : StoredVertex} {vertex : Vertex}
    (read : readVertex id stored = .ok vertex) : vertex.id = id := by
  obtain ⟨value, _, same⟩ := Success.bind_eq_ok.mp read
  rw [← Success.pure_eq_ok.mp same]

/-- Some stored vertices with their edges, or the first failure to read one of them back. -/
theorem mapM_part (ids : List VertexId) (stored : ∀ id ∈ ids, id ∈ tables.vertices) :
    match ids.mapM tables.part with
    | .ok parts => ∃ vertices : List Vertex, vertices.map (·.id) = ids ∧
        (∀ vertex ∈ vertices, tables.Holds vertex) ∧ parts = vertices.map tables.withEdges
    | .error failure => ∃ id ∈ ids, ∃ stored, tables.vertices[id]? = some stored ∧
        readVertex id stored = .error failure := by
  induction ids with
  | nil => exact ⟨[], rfl, by simp, rfl⟩
  | cons id rest ih =>
      obtain ⟨kept, found⟩ := Option.isSome_iff_exists.mp
        (Std.ExtTreeMap.mem_iff_isSome_getElem?.mp (stored id List.mem_cons_self))
      have later := ih fun other member => stored other (List.mem_cons_of_mem id member)
      have here : tables.part id = (readVertex id kept).map fun vertex =>
          .vertex vertex :: tables.edgeElements id := by
        simp [part, found]
      rw [List.mapM_cons, here]
      cases read : readVertex id kept with
      | error failure => exact ⟨id, List.mem_cons_self, kept, found, read⟩
      | ok vertex =>
          have own := readVertex_id read
          cases others : rest.mapM tables.part with
          | error failure =>
              rw [others] at later
              obtain ⟨other, member, broken⟩ := later
              exact ⟨other, List.mem_cons_of_mem id member, broken⟩
          | ok parts =>
              rw [others] at later
              obtain ⟨vertices, same, held, rfl⟩ := later
              subst own
              refine ⟨vertex :: vertices, by rw [List.map_cons, same], ?_, rfl⟩
              intro other member
              rcases List.mem_cons.mp member with rfl | member
              · exact ⟨kept, found, read⟩
              · exact held other member

theorem mem_of_mem_withEdges {vertices : List Vertex} {vertex : Vertex}
    (member : .vertex vertex ∈ vertices.flatMap tables.withEdges) : vertex ∈ vertices := by
  obtain ⟨other, listed, member⟩ := List.mem_flatMap.mp member
  rcases List.mem_cons.mp member with same | edge
  · rwa [Element.vertex.inj same]
  · obtain ⟨_, _, differs⟩ := List.mem_map.mp edge
    cases differs

/-- Whatever vertices and edges are stored, the walk from a document ends, and with nothing else
than the elements that the document needs. They are those of the stored vertices that the document
leads to: each of these vertices stands there once, right in front of all edges out of it, and
nothing else does, so that a range of another document is only there if such a path leads to it.
The walk fails only at a stored vertex on such a path that cannot be read back. -/
theorem subgraph_exact (tables : GraphTables) (document : VertexId) :
    (WellFounded fun after before => Turn tables document before after) ∧
    (∀ last, Turns tables document (.start document) last →
      (∀ after, ¬Turn tables document last after) →
      Ends tables last (tables.subgraph document)) ∧
    ∃ ids : List VertexId, ids.Nodup ∧ (∀ id, id ∈ ids ↔ tables.LeadsTo document id) ∧
      match tables.subgraph document with
      | .ok elements =>
        ∃ vertices : List Vertex, vertices.map (·.id) = ids ∧
          (∀ vertex ∈ vertices, tables.Holds vertex) ∧
          elements = vertices.flatMap tables.withEdges ∧
          ∀ vertex, .vertex vertex ∈ elements → tables.LeadsTo document vertex.id
      | .error failure =>
        ∃ id ∈ ids, ∃ stored, tables.vertices[id]? = some stored ∧
          readVertex id stored = .error failure := by
  refine ⟨tables.wellFounded_turn document, fun last turns => turns.ends_subgraph, ?_⟩
  have met := tables.collected_start document
  have parts := mapM_part _ met.stored
  refine ⟨_, met.nodup, fun id => mem_met_iff, ?_⟩
  unfold subgraph
  rw [collect_eq]
  cases whole : List.mapM tables.part _ with
  | error failure =>
      rw [whole] at parts
      exact parts
  | ok listed =>
      rw [whole] at parts
      obtain ⟨vertices, same, held, rfl⟩ := parts
      refine ⟨vertices, same, held, rfl, fun vertex member => mem_met_iff.mp ?_⟩
      rw [← same]
      exact List.mem_map_of_mem (mem_of_mem_withEdges member)

end CodeNav.GraphTables
