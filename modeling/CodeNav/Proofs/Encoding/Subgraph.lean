/-
Module: CodeNav.Proofs.Encoding.Subgraph
Purpose: The walk over stored edges meets every stored vertex that a document leads to, once.
Main exports:
  GraphTables.block, GraphTables.followed, GraphTables.Collected, GraphTables.met,
  GraphTables.collect_eq, GraphTables.collected_met, GraphTables.subgraph_eq_ok
-/
import CodeNav.Encoding.Tables
import CodeNav.Proofs.Success
import Mathlib.Data.List.Nodup

namespace CodeNav.GraphTables

/-! ### The queue -/

/-- What queueing targets adds to the queue and to the vertices met. -/
structure Enqueued (seen targets new : List VertexId) : Prop where
  nodup : new.Nodup
  unmet : ∀ id ∈ new, id ∉ seen
  met : ∀ id ∈ targets, id ∈ seen ∨ id ∈ new

theorem enqueue_eq (queue seen targets : List VertexId) :
    ∃ new, enqueue queue seen targets = (queue ++ new, new.reverse ++ seen) ∧
      Enqueued seen targets new := by
  induction targets generalizing queue seen with
  | nil =>
      refine ⟨[], by simp [enqueue], List.nodup_nil, ?_, ?_⟩
      · intro id member
        cases member
      · intro id member
        cases member
  | cons id rest ih =>
      unfold enqueue
      by_cases known : id ∈ seen
      · obtain ⟨new, result, added⟩ := ih queue seen
        refine ⟨new, by simpa [known] using result, added.nodup, added.unmet, ?_⟩
        intro other member
        rcases List.mem_cons.mp member with rfl | member
        · exact .inl known
        · exact added.met other member
      · obtain ⟨new, result, added⟩ := ih (queue ++ [id]) (id :: seen)
        have apart : id ∉ new := fun member => added.unmet id member List.mem_cons_self
        refine ⟨id :: new, by simp [known, result], List.nodup_cons.mpr ⟨apart, added.nodup⟩,
          ?_, ?_⟩
        · intro other member
          rcases List.mem_cons.mp member with rfl | member
          · exact known
          · exact fun met => added.unmet other member (List.mem_cons_of_mem id met)
        · intro other member
          rcases List.mem_cons.mp member with rfl | member
          · exact .inr List.mem_cons_self
          · rcases added.met other member with met | met
            · rcases List.mem_cons.mp met with rfl | met
              · exact .inr List.mem_cons_self
              · exact .inl met
            · exact .inr (List.mem_cons_of_mem id met)

/-- The edges whose targets have not been met. -/
def unmet (tables : GraphTables) (seen : List VertexId) : List StoredEdge :=
  tables.edges.filter fun e => !seen.contains e.target

/-- Each vertex that is queued uses up an edge that leads to it. -/
theorem enqueue_length_le (tables : GraphTables) (queue seen targets : List VertexId)
    (led : ∀ id ∈ targets, ∃ e ∈ tables.edges, e.target = id) :
    (enqueue queue seen targets).1.length + (tables.unmet (enqueue queue seen targets).2).length ≤
      queue.length + (tables.unmet seen).length := by
  induction targets generalizing queue seen with
  | nil => exact Nat.le_refl _
  | cons id rest ih =>
      have ledRest := fun other member => led other (List.mem_cons_of_mem id member)
      unfold enqueue
      split
      · exact ih queue seen ledRest
      · rename_i unknown
        have fewer : (tables.unmet (id :: seen)).length < (tables.unmet seen).length := by
          have narrowed : tables.unmet (id :: seen) =
              (tables.unmet seen).filter fun e => !decide (e.target = id) := by
            simp only [unmet, List.filter_filter]
            apply List.filter_congr
            intro e _
            simp [Bool.not_or]
          obtain ⟨e, member, target⟩ := led id List.mem_cons_self
          rw [narrowed]
          apply List.length_filter_lt_length_iff_exists.mpr
          refine ⟨e, ?_, by simp [target]⟩
          exact List.mem_filter.mpr ⟨member, by simpa [target] using unknown⟩
        have rest := ih (queue ++ [id]) (id :: seen) ledRest
        rw [List.length_append, List.length_singleton] at rest
        omega

/-! ### The walk -/

/-- The edges of a vertex as elements. -/
def edgeElements (tables : GraphTables) (id : VertexId) : List Element :=
  (tables.edgesFrom id).map fun e => .edge (readEdge e)

/-- A stored vertex with its edges, as elements. -/
def block (tables : GraphTables) (id : VertexId) : List Element :=
  match tables.vertices[id]?.map (readVertex id) with
  | some (.ok vertex) => .vertex vertex :: tables.edgeElements id
  | _ => []

/-- The targets of the edges that are followed from a vertex. -/
def followed (tables : GraphTables) (document id : VertexId) : List VertexId :=
  ((tables.edgesFrom id).filter fun e => follows document id e.label).map (·.target)

/-- Every stored vertex can be read back. -/
def Readable (tables : GraphTables) : Prop :=
  ∀ (id : VertexId) stored, tables.vertices[id]? = some stored →
    ∃ vertex, readVertex id stored = .ok vertex

/-- The vertices met from a queue, each once: those that are stored and queued, and what they
lead to. -/
structure Collected (tables : GraphTables) (document : VertexId)
    (queue seen ids : List VertexId) : Prop where
  nodup : ids.Nodup
  stored : ∀ id ∈ ids, id ∈ tables.vertices
  new : ∀ id ∈ ids, id ∈ queue ∨ id ∉ seen
  queued : ∀ id ∈ queue, id ∈ tables.vertices → id ∈ ids
  closed : ∀ id ∈ ids, ∀ target ∈ tables.followed document id,
    target ∈ tables.vertices → target ∈ seen ∨ target ∈ ids

variable {tables : GraphTables} {document : VertexId}

/-- One step of the walk: a stored vertex, and then what its edges queue. -/
theorem collected_cons {id : VertexId} {queue seen new ids : List VertexId}
    {stored : StoredVertex} (fresh : id ∉ queue) (known : id ∈ seen)
    (found : tables.vertices[id]? = some stored)
    (added : Enqueued seen (tables.followed document id) new)
    (met : tables.Collected document (queue ++ new) (new.reverse ++ seen) ids) :
    tables.Collected document (id :: queue) seen (id :: ids) := by
  have present : id ∈ tables.vertices := by
    simp [Std.ExtTreeMap.mem_iff_isSome_getElem?, found]
  have later (target) (listed : target ∈ new.reverse ++ seen)
      (isStored : target ∈ tables.vertices) : target ∈ seen ∨ target ∈ ids := by
    rcases List.mem_append.mp listed with listed | listed
    · exact .inr (met.queued target
        (List.mem_append_right _ (List.mem_reverse.mp listed)) isStored)
    · exact .inl listed
  constructor
  · refine List.nodup_cons.mpr ⟨?_, met.nodup⟩
    intro member
    rcases met.new id member with queued | unseen
    · rcases List.mem_append.mp queued with queued | isNew
      · exact fresh queued
      · exact added.unmet id isNew known
    · exact unseen (List.mem_append_right _ known)
  · intro other member
    rcases List.mem_cons.mp member with rfl | member
    · exact present
    · exact met.stored other member
  · intro other member
    rcases List.mem_cons.mp member with rfl | member
    · exact .inl List.mem_cons_self
    · rcases met.new other member with queued | unseen
      · rcases List.mem_append.mp queued with queued | isNew
        · exact .inl (List.mem_cons_of_mem id queued)
        · exact .inr (added.unmet other isNew)
      · exact .inr fun listed => unseen (List.mem_append_right _ listed)
  · intro other member isStored
    rcases List.mem_cons.mp member with rfl | member
    · exact List.mem_cons_self
    · exact List.mem_cons_of_mem id
        (met.queued other (List.mem_append_left _ member) isStored)
  · intro other member target listed isStored
    rcases List.mem_cons.mp member with rfl | member
    · rcases added.met target listed with before | isNew
      · exact .inl before
      · exact .inr (List.mem_cons_of_mem _
          (met.queued target (List.mem_append_right _ isNew) isStored))
    · rcases met.closed other member target listed isStored with before | listed
      · exact (later target before isStored).imp_right (List.mem_cons_of_mem id)
      · exact .inr (List.mem_cons_of_mem id listed)

/-- The vertices that a walk meets, in the order in which they leave the queue. -/
def met (tables : GraphTables) (document : VertexId) :
    Nat → List VertexId → List VertexId → List VertexId
  | 0, _, _ => []
  | _, [], _ => []
  | fuel + 1, id :: queue, seen =>
    if id ∈ tables.vertices then
      let (queue, seen) := enqueue queue seen (tables.followed document id)
      id :: met tables document fuel queue seen
    else met tables document fuel queue seen

/-- A stored vertex with its edges, as elements, if it can be read back. -/
def part (tables : GraphTables) (id : VertexId) : Except Failure (List Element) :=
  match tables.vertices[id]? with
  | none => .ok []
  | some stored =>
    (readVertex id stored).map fun vertex => .vertex vertex :: tables.edgeElements id

theorem part_eq_ok (readable : tables.Readable) (id : VertexId) :
    tables.part id = .ok (tables.block id) := by
  unfold part block
  cases found : tables.vertices[id]? with
  | none => rfl
  | some stored =>
      obtain ⟨vertex, read⟩ := readable id stored found
      simp [read, Except.map]

theorem collect_cons_of_found {id : VertexId} {stored : StoredVertex}
    (found : tables.vertices[id]? = some stored) (document : VertexId) (fuel : Nat)
    (queue seen : List VertexId) :
    tables.collect document (fuel + 1) (id :: queue) seen =
      readVertex id stored >>= fun vertex =>
        (tables.collect document fuel (enqueue queue seen (tables.followed document id)).1
          (enqueue queue seen (tables.followed document id)).2).map
            (.vertex vertex :: tables.edgeElements id ++ ·) := by
  conv => lhs; unfold collect
  rw [found]
  rfl

/-- The elements of a walk are those of the vertices that it meets. -/
theorem collect_eq (tables : GraphTables) (document : VertexId) (fuel : Nat)
    (queue seen : List VertexId) :
    tables.collect document fuel queue seen =
      ((tables.met document fuel queue seen).mapM tables.part).map List.flatten := by
  induction fuel generalizing queue seen with
  | zero => rfl
  | succ fuel ih =>
      cases queue with
      | nil => rfl
      | cons id queue =>
          unfold met
          cases found : tables.vertices[id]? with
          | none =>
              have absent : id ∉ tables.vertices := by
                simp [Std.ExtTreeMap.mem_iff_isSome_getElem?, found]
              rw [if_neg absent, ← ih]
              simp only [collect, found]
          | some stored =>
              have present : id ∈ tables.vertices := by
                simp [Std.ExtTreeMap.mem_iff_isSome_getElem?, found]
              have here : tables.part id = (readVertex id stored).map fun vertex =>
                  .vertex vertex :: tables.edgeElements id := by
                simp [part, found]
              rw [if_pos present, List.mapM_cons, here, collect_cons_of_found found]
              cases readVertex id stored with
              | error failure => rfl
              | ok vertex =>
                  rw [Success.ok_bind, ih]
                  cases List.mapM tables.part _ <;> rfl

/-- With fuel for the vertices queued and for the edges that can queue others, a walk meets all
that the queue leads to. -/
theorem collected_met (document : VertexId) {fuel : Nat} {queue seen : List VertexId}
    (nodup : queue.Nodup) (known : ∀ id ∈ queue, id ∈ seen)
    (enough : queue.length + (tables.unmet seen).length ≤ fuel) :
    tables.Collected document queue seen (tables.met document fuel queue seen) := by
  induction fuel generalizing queue seen with
  | zero =>
      have nothing : queue = [] := List.length_eq_zero_iff.mp (by omega)
      subst nothing
      exact ⟨List.nodup_nil, by simp [met], by simp [met], by simp, by simp [met]⟩
  | succ fuel ih =>
      cases queue with
      | nil => exact ⟨List.nodup_nil, by simp [met], by simp [met], by simp, by simp [met]⟩
      | cons id queue =>
          obtain ⟨fresh, nodup⟩ := List.nodup_cons.mp nodup
          rw [List.length_cons] at enough
          have knownRest : ∀ other ∈ queue, other ∈ seen :=
            fun other member => known other (List.mem_cons_of_mem id member)
          unfold met
          split
          · rename_i present
            obtain ⟨stored, found⟩ := Option.isSome_iff_exists.mp
              (Std.ExtTreeMap.mem_iff_isSome_getElem?.mp present)
            have led : ∀ target ∈ tables.followed document id,
                ∃ e ∈ tables.edges, e.target = target := by
              intro target member
              obtain ⟨e, listed, rfl⟩ := List.mem_map.mp member
              exact ⟨e, List.mem_of_mem_filter (List.mem_of_mem_filter listed), rfl⟩
            have fewer := tables.enqueue_length_le queue seen _ led
            obtain ⟨new, queued, added⟩ := enqueue_eq queue seen (tables.followed document id)
            simp only [queued] at fewer ⊢
            have nodupNext : (queue ++ new).Nodup :=
              List.Nodup.append nodup added.nodup
                fun other member isNew => added.unmet other isNew (knownRest other member)
            have knownNext : ∀ other ∈ queue ++ new, other ∈ new.reverse ++ seen := by
              intro other member
              rcases List.mem_append.mp member with member | member
              · exact List.mem_append_right _ (knownRest other member)
              · exact List.mem_append_left _ (List.mem_reverse.mpr member)
            exact collected_cons fresh (known id List.mem_cons_self) found added
              (ih nodupNext knownNext (by omega))
          · rename_i absent
            have rest := ih nodup knownRest (by omega)
            refine ⟨rest.nodup, rest.stored, ?_, ?_, rest.closed⟩
            · intro other member
              exact (rest.new other member).imp (List.mem_cons_of_mem id) (fun apart => apart)
            · intro other member stored
              rcases List.mem_cons.mp member with rfl | member
              · exact absurd stored absent
              · exact rest.queued other member stored

/-- The bound on the vertices of a walk from a document is enough. -/
theorem start_enough (tables : GraphTables) (document : VertexId) :
    [document].length + (tables.unmet [document]).length ≤ tables.edges.length + 1 := by
  have := List.length_filter_le (fun e => !([document].contains e.target)) tables.edges
  rw [List.length_singleton]
  unfold unmet
  omega

/-- What a walk from a document meets: the document, and all stored vertices that those met lead
to. -/
theorem collected_start (tables : GraphTables) (document : VertexId) :
    tables.Collected document [document] [document]
      (tables.met document (tables.edges.length + 1) [document] [document]) :=
  collected_met document (List.nodup_singleton document) (fun _ member => member)
    (tables.start_enough document)

theorem Collected.closed_start {ids : List VertexId}
    (met : tables.Collected document [document] [document] ids) {id target : VertexId}
    (member : id ∈ ids) (listed : target ∈ tables.followed document id)
    (isStored : target ∈ tables.vertices) : target ∈ ids := by
  rcases met.closed id member target listed isStored with same | listed
  · rw [List.mem_singleton.mp same] at isStored ⊢
    exact met.queued document (List.mem_singleton_self document) isStored
  · exact listed

/-- The elements that a document needs are those of the stored vertices that it leads to. -/
theorem subgraph_eq_ok (readable : tables.Readable) (document : VertexId) :
    ∃ ids : List VertexId, tables.subgraph document = .ok (ids.flatMap tables.block) ∧ ids.Nodup ∧
      (∀ id ∈ ids, id ∈ tables.vertices) ∧
      (document ∈ tables.vertices → document ∈ ids) ∧
      ∀ id ∈ ids, ∀ target ∈ tables.followed document id,
        target ∈ tables.vertices → target ∈ ids := by
  have met := tables.collected_start document
  refine ⟨_, ?_, met.nodup, met.stored, met.queued document (List.mem_singleton_self document),
    fun id member target => met.closed_start member⟩
  unfold subgraph
  rw [collect_eq, funext fun id => part_eq_ok readable id]
  exact congrArg (Except.map List.flatten) List.mapM_pure

end CodeNav.GraphTables
