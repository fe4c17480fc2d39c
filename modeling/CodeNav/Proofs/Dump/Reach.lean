/-
Module: CodeNav.Proofs.Dump.Reach
Purpose: What the tables of a document hold about the nodes that can be reached from its ranges.
Main exports:
  Dump.getElem?_tableOf, Dump.Reaches, Dump.reaches_reachable, Dump.chain_documentOf
-/
import CodeNav.Proofs.Dump.Graph
import CodeNav.Proofs.Dump.Locality
import CodeNav.Document.Chain
import Mathlib.Data.List.Perm.Subperm

namespace CodeNav.Dump

variable {α : Type}

/-! ### Tables -/

theorem getElem?_foldl_tableOf (find : VertexId → Option α) (ids : List VertexId)
    (table : Table α) (key : VertexId) :
    (ids.foldl (fun t id => (find id).elim t (t.insert id ·)) table)[key]? =
      if key ∈ ids then (find key).or table[key]? else table[key]? := by
  induction ids generalizing table with
  | nil => simp
  | cons id rest ih =>
      rw [List.foldl_cons, ih]
      by_cases same : id = key
      · subst same
        cases find id <;> simp
      · have other : (key ∈ id :: rest) = (key ∈ rest) := by simp [Ne.symm same]
        simp only [other]
        cases find id <;> simp [Std.ExtTreeMap.getElem?_insert, same]

/-- A table of some identifiers holds what each of them stands for. -/
theorem getElem?_tableOf (find : VertexId → Option α) (ids : List VertexId) (key : VertexId) :
    (tableOf find ids)[key]? = if key ∈ ids then find key else none := by
  rw [tableOf, getElem?_foldl_tableOf]
  simp

theorem getElem?_foldl_indexTable (entries : List (VertexId × Nat)) (table : Table UInt64)
    (key : VertexId) :
    (entries.foldl (fun t (id, index) => t.insert id (UInt64.ofNat index)) table)[key]? =
      (((entries.filter (·.1 = key)).getLast?).map fun entry => UInt64.ofNat entry.2).or
        table[key]? := by
  induction entries using List.reverseRecOn with
  | nil => simp
  | append_singleton entries entry ih =>
      by_cases same : entry.1 = key
      · simp [← same]
      · simp [ih, same, Std.ExtTreeMap.getElem?_insert]

/-- Each range has the index of one of its entries. -/
theorem exists_getElem?_indexTable {ids : List VertexId} {id : VertexId} (listed : id ∈ ids) :
    ∃ index, ids[index]? = some id ∧ (indexTable ids)[id]? = some (UInt64.ofNat index) := by
  rw [indexTable, getElem?_foldl_indexTable]
  obtain ⟨index, found⟩ := List.mem_iff_getElem?.mp listed
  have nonempty : (ids.zipIdx.filter (·.1 = id)) ≠ [] := by
    apply List.ne_nil_of_mem (a := (id, index))
    simpa [List.mem_zipIdx_iff_getElem?] using found
  obtain ⟨entry, last⟩ := Option.ne_none_iff_exists'.mp
    (mt List.getLast?_eq_none_iff.mp nonempty)
  have member := List.mem_of_getLast? last
  obtain ⟨place, same⟩ : ids[entry.2]? = some entry.1 ∧ entry.1 = id := by
    simpa [List.mem_zipIdx_iff_getElem?] using member
  exact ⟨entry.2, same ▸ place, by simp [last]⟩

/-! ### Result sets that are reached -/

/-- The result sets visited so far hold what the graph holds about them, and no wanted result set
is missing from them and those pending. -/
structure Reaches (dump : Dump) (wanted : VertexId → Prop) (pending : List VertexId)
    (visited : Table ChainNode) : Prop where
  entry : ∀ id node, visited[id]? = some node →
    dump.resultSets.contains id ∧ node = dump.nodeOf id
  started : ∀ id, wanted id → dump.resultSets.contains id → visited.contains id ∨ id ∈ pending
  closed : ∀ id, visited.contains id → ∀ next, (dump.nodeOf id).next = some next →
    dump.resultSets.contains next → visited.contains next ∨ next ∈ pending

namespace Reaches

variable {dump : Dump} {wanted : VertexId → Prop} {pending : List VertexId}
  {visited : Table ChainNode} {id : VertexId}

/-- A pending identifier that was visited before, or is no result set, can be passed over. -/
theorem skip (reaches : Reaches dump wanted (id :: pending) visited)
    (passed : dump.resultSets.contains id → visited.contains id) :
    Reaches dump wanted pending visited where
  entry := reaches.entry
  started := by
    intro other isWanted isSet
    rcases reaches.started other isWanted isSet with met | listed
    · exact .inl met
    · rcases List.mem_cons.mp listed with rfl | listed
      · exact .inl (passed isSet)
      · exact .inr listed
  closed := by
    intro other met next links isSet
    rcases reaches.closed other met next links isSet with met | listed
    · exact .inl met
    · rcases List.mem_cons.mp listed with rfl | listed
      · exact .inl (passed isSet)
      · exact .inr listed

/-- A pending result set is visited, and what it inherits from is pending instead. -/
theorem enter (reaches : Reaches dump wanted (id :: pending) visited)
    (isSet : dump.resultSets.contains id) :
    Reaches dump wanted ((dump.nodeOf id).next.toList ++ pending)
      (visited.insert id (dump.nodeOf id)) where
  entry := by
    intro other node found
    rw [Std.ExtTreeMap.getElem?_insert] at found
    split at found
    · rename_i same
      obtain rfl : id = other := by simpa using same
      cases found
      exact ⟨isSet, rfl⟩
    · exact reaches.entry other node found
  started := by
    intro other isWanted known
    rcases reaches.started other isWanted known with met | listed
    · simp [Std.ExtTreeMap.contains_insert, met]
    · rcases List.mem_cons.mp listed with rfl | listed
      · simp
      · simp [listed]
  closed := by
    intro other met next links known
    by_cases same : id = other
    · subst same
      simp [links]
    · have before : visited.contains other := by
        simpa [Std.ExtTreeMap.contains_insert, same] using met
      rcases reaches.closed other before next links known with met | listed
      · simp [Std.ExtTreeMap.contains_insert, met]
      · rcases List.mem_cons.mp listed with rfl | listed
        · simp
        · simp [listed]

/-- With enough fuel nothing is left pending. -/
theorem reach {fuel : Nat} (reaches : Reaches dump wanted pending visited)
    (enough : pending.length + (dump.unvisited visited).length ≤ fuel) :
    Reaches dump wanted [] (dump.reach fuel pending visited) := by
  revert reaches
  refine reach_induction (P := fun pending visited last =>
    Reaches dump wanted pending visited → Reaches dump wanted [] last) ?_ ?_ ?_ enough
  · exact fun _ => id
  · exact fun _ _ _ _ passed ih reaches => ih (reaches.skip passed)
  · exact fun _ _ _ _ _ isSet ih reaches => ih (reaches.enter isSet)

end Reaches

/-- The result sets reached from some nodes are those that the nodes inherit from, directly or
from one another. -/
theorem reaches_reachable (dump : Dump) (nodes : List ChainNode) :
    Reaches dump (fun id => ∃ node ∈ nodes, node.next = some id) [] (dump.reachable nodes) := by
  have all := dump.length_unvisited_le ∅
  have start : Reaches dump (fun id => ∃ node ∈ nodes, node.next = some id)
      (nodes.filterMap (·.next)) ∅ := by
    refine ⟨by simp, ?_, by simp⟩
    rintro id ⟨node, member, links⟩ _
    exact .inr (List.mem_filterMap.mpr ⟨node, member, links⟩)
  exact start.reach (by omega)

/-! ### Nodes of a document -/

section

open Element

variable {elements : List Element} {dump : Dump} (accepted : ofElements elements = .ok dump)
  (document : VertexId)

/-- A document is cut out of the graph if there is a vertex for it. -/
theorem document?_ofElements (accepted : ofElements elements = .ok dump) (document : VertexId) :
    dump.document? document =
      if hasVertex elements .document document then some (dump.documentOf document) else none := by
  rw [document?, documents_contains accepted]

/-- The ranges of a document and the result sets that are reached from them. -/
def IsNode (dump : Dump) (document id : VertexId) : Prop :=
  id ∈ (dump.localRanges document).map (·.1) ∨
    (dump.documentOf document).resultSets.contains id

/-- The ranges of a document are the ones that it contains. -/
theorem mem_map_localRanges (accepted : ofElements elements = .ok dump)
    {document id : VertexId} :
    id ∈ (dump.localRanges document).map (·.1) ↔ id ∈ rangesIn elements document := by
  have isRange := ranges_contains accepted id
  rw [rangesIn, List.mem_filter, ← contents_ofElements accepted, ← isRange]
  constructor
  · intro listed
    obtain ⟨entry, member, rfl⟩ := List.mem_map.mp listed
    obtain ⟨contained, found⟩ := mem_localRanges member
    exact ⟨contained, by simp [found]⟩
  · rintro ⟨contained, present⟩
    obtain ⟨range, found⟩ := Option.isSome_iff_exists.mp present
    apply List.mem_map.mpr
    refine ⟨(id, range), ?_, rfl⟩
    unfold localRanges
    rw [List.mem_mergeSort]
    exact List.mem_filterMap.mpr ⟨id, contained, by simp [found]⟩

/-- The result sets of a document hold what the graph holds, and none is missing. -/
theorem reaches_documentOf (dump : Dump) (document : VertexId) :
    Reaches dump (fun id => ∃ node ∈ ((dump.localRanges document).map (·.1)).map dump.nodeOf,
      node.next = some id) [] (dump.documentOf document).resultSets :=
  reaches_reachable dump _

/-- What a node of a document inherits from is a node of the document. -/
theorem IsNode.contains_next {dump : Dump} {document id next : VertexId}
    (isNode : IsNode dump document id) (links : (dump.nodeOf id).next = some next)
    (isSet : dump.resultSets.contains next) :
    (dump.documentOf document).resultSets.contains next := by
  have reaches := reaches_documentOf dump document
  rcases isNode with listed | met
  · exact (reaches.started next ⟨dump.nodeOf id, List.mem_map.mpr ⟨id, listed, rfl⟩, links⟩
      isSet).resolve_right (by simp)
  · exact (reaches.closed id met next links isSet).resolve_right (by simp)

theorem getElem?_resultSets_documentOf {dump : Dump} {document id : VertexId}
    (met : (dump.documentOf document).resultSets.contains id) :
    (dump.documentOf document).resultSets[id]? = some (dump.nodeOf id) := by
  obtain ⟨node, found⟩ := Option.isSome_iff_exists.mp
    ((Std.ExtTreeMap.contains_eq_isSome_getElem?).symm.trans met)
  rw [found, ((reaches_documentOf dump document).entry id node found).2]

/-- Inside a document a node inherits from what its links say. -/
theorem IsNode.successor? (accepted : ofElements elements = .ok dump) {document id : VertexId}
    (isNode : IsNode dump document id) :
    Chain.successor? (dump.documentOf document).resultSets (dump.nodeOf id) =
      (Element.successor? elements id).map dump.nodeOf := by
  unfold Chain.successor? Element.successor?
  rw [← nodeOf_ofElements accepted]
  cases links : (dump.nodeOf id).next with
  | none => rfl
  | some next =>
      simp only [Option.bind_eq_bind, Option.bind_some, Option.filter_some,
        ← resultSets_ofElements accepted]
      by_cases isSet : dump.resultSets.contains next
      · simp [getElem?_resultSets_documentOf (isNode.contains_next links isSet), isSet]
      · have unmet : (dump.documentOf document).resultSets[next]? = none := by
          apply Option.eq_none_iff_forall_ne_some.mpr
          intro node found
          exact isSet ((reaches_documentOf dump document).entry next node found).1
        simp [unmet, isSet]

theorem IsNode.successor (accepted : ofElements elements = .ok dump) {document id next : VertexId}
    (isNode : IsNode dump document id) (links : Element.successor? elements id = some next) :
    (dump.documentOf document).resultSets.contains next := by
  obtain ⟨named, isSet⟩ := Option.filter_eq_some_iff.mp links
  rw [← nodeOf_ofElements accepted] at named
  rw [← resultSets_ofElements accepted] at isSet
  exact isNode.contains_next named isSet

/-- The chain from a node follows the links between vertices. -/
theorem IsNode.walk (accepted : ofElements elements = .ok dump) {document id : VertexId}
    (isNode : IsNode dump document id) (hops : Nat) :
    Chain.walk (dump.documentOf document).resultSets hops (dump.nodeOf id) =
      (Walk.trail (Element.successor? elements) hops id).map dump.nodeOf := by
  induction hops generalizing id with
  | zero => rfl
  | succ hops ih =>
      unfold Chain.walk Walk.trail
      rw [isNode.successor? accepted]
      cases links : Element.successor? elements id with
      | none => rfl
      | some next =>
          simp only [Option.map_some, List.map_cons]
          rw [ih (.inr (isNode.successor accepted links))]

/-- Every vertex on a walk from a node is a node. -/
theorem IsNode.of_mem_walk (accepted : ofElements elements = .ok dump) {document id other : VertexId}
    (isNode : IsNode dump document id) (met : other ∈ Element.walk elements id) :
    IsNode dump document other :=
  (isWalk_walk elements id).mem_inside
    (fun _ _ isNode links => .inr (isNode.successor accepted links)) isNode met

/-- The document has as many result sets as a walk from one of its nodes has links. -/
theorem IsNode.length_walk_le (accepted : ofElements elements = .ok dump) {document id : VertexId}
    (isNode : IsNode dump document id) :
    (Element.walk elements id).length ≤ (dump.documentOf document).resultSets.size + 1 := by
  have walked := isWalk_walk elements id
  have nodes (other) (met : other ∈ Element.walk elements id) : IsNode dump document other :=
    isNode.of_mem_walk accepted met
  generalize Element.walk elements id = all at walked nodes
  cases all with
  | nil => simp
  | cons first rest =>
      obtain rfl : first = id := by simpa using walked.head
      have inherited : rest ⊆ (dump.documentOf document).resultSets.keys := by
        intro other listed
        obtain ⟨a, met, links⟩ := walked.linked_to listed
        rw [Std.ExtTreeMap.mem_keys]
        exact (nodes a met).successor accepted links
      have distinct := (List.nodup_cons.mp walked.nodup).2
      have shorter := (List.subperm_of_subset distinct inherited).length_le
      rw [Std.ExtTreeMap.length_keys] at shorter
      simpa using shorter

end

end CodeNav.Dump
