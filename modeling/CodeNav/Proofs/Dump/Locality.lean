/-
Module: CodeNav.Proofs.Dump.Locality
Purpose: A document depends on the vertices that can be reached from it and on nothing else.
Main exports:
  Dump.AgreesOn, Dump.ClosedFrom, Dump.reach_induction, Dump.reach_congr, Dump.documentOf_congr
-/
import CodeNav.Proofs.Dump.Facts
import Mathlib.Data.List.Basic

namespace CodeNav

/-! ### Values of tables -/

namespace Table

variable {α : Type}

theorem values_eq (table : Table α) : table.values = table.toList.map Prod.snd := by
  have folded : table.values = table.foldr (fun _ value values => value :: values) [] := by
    rcases table with ⟨⟨tree⟩⟩
    induction tree using Quotient.ind
    rfl
  rw [folded, Std.ExtTreeMap.foldr_eq_foldr_toList]
  simp

theorem mem_values {table : Table α} {value : α} :
    value ∈ table.values ↔ ∃ id : VertexId, table[id]? = some value := by
  simp [values_eq]

end Table

/-- The vertices that a chain node leads to. -/
def ChainNode.targets (node : ChainNode) : List VertexId :=
  node.next.toList ++ node.definitionResult.toList ++ node.referenceResult.toList ++
    node.hoverResult.toList ++ node.monikers

namespace Dump

section Tables

variable {α : Type}

theorem tableOf_congr {find other : VertexId → Option α} {ids : List VertexId}
    (same : ∀ id ∈ ids, find id = other id) : tableOf find ids = tableOf other ids := by
  unfold tableOf
  generalize (∅ : Table α) = table
  induction ids generalizing table with
  | nil => rfl
  | cons id rest ih =>
      rw [List.foldl_cons, List.foldl_cons, same id List.mem_cons_self]
      exact ih (fun other member => same other (List.mem_cons_of_mem id member)) _

/-- An entry that a fold puts into a table was found under one of the identifiers. -/
theorem getElem?_foldl_insert {find : VertexId → Option α} {ids : List VertexId} {key : VertexId}
    {table : Table α} {value : α}
    (found : (ids.foldl (fun t id => (find id).elim t (t.insert id ·)) table)[key]? = some value) :
    table[key]? = some value ∨ (key ∈ ids ∧ find key = some value) := by
  induction ids generalizing table with
  | nil => exact .inl found
  | cons id rest ih =>
      rw [List.foldl_cons] at found
      rcases ih found with before | ⟨listed, result⟩
      · cases result : find id with
        | none =>
            rw [result] at before
            exact .inl before
        | some entry =>
            simp only [result, Option.elim] at before
            by_cases same : id = key
            · subst same
              rw [Std.ExtTreeMap.getElem?_insert_self] at before
              exact .inr ⟨List.mem_cons_self, result.trans before⟩
            · left
              simpa [Std.ExtTreeMap.getElem?_insert, same] using before
      · exact .inr ⟨List.mem_cons_of_mem id listed, result⟩

/-- What a table holds was found under one of the identifiers. -/
theorem mem_values_tableOf {find : VertexId → Option α} {ids : List VertexId} {value : α}
    (member : value ∈ (tableOf find ids).values) : ∃ id ∈ ids, find id = some value := by
  obtain ⟨key, found⟩ := Table.mem_values.mp member
  rcases getElem?_foldl_insert found with absent | listed
  · simp at absent
  · exact ⟨key, listed⟩

end Tables

/-! ### Two graphs that agree on a closed set of vertices -/

variable {a b : Dump} {inside : VertexId → Prop}

/-- Two graphs hold the same about every vertex inside a set; edges count for vertices that
are there. -/
structure AgreesOn (a b : Dump) (inside : VertexId → Prop) : Prop where
  vertices : ∀ id, inside id → a.vertexFacts id = b.vertexFacts id
  edges : ∀ id, inside id → a.vertexFacts id ≠ .none → a.edgeFacts id = b.edgeFacts id

/-- A set holds the ranges of a document and what its vertices lead to. -/
structure ClosedFrom (dump : Dump) (document : VertexId) (inside : VertexId → Prop) : Prop where
  contents : ∀ id ∈ dump.contents.getD document [], inside id
  node : ∀ id, inside id → dump.vertexFacts id ≠ .none →
    ∀ target ∈ (dump.nodeOf id).targets, inside target
  package : ∀ id, inside id → dump.vertexFacts id ≠ .none →
    ∀ package, dump.monikerPackages[id]? = some package → inside package

namespace AgreesOn

section Vertices

variable {id : VertexId} (agree : a.AgreesOn b inside) (member : inside id)
include agree member

theorem range : a.ranges[id]? = b.ranges[id]? :=
  congrArg VertexFacts.range (agree.vertices id member)

theorem resultSet : a.resultSets.contains id = b.resultSets.contains id :=
  congrArg VertexFacts.isResultSet (agree.vertices id member)

theorem hover : a.hovers[id]? = b.hovers[id]? :=
  congrArg VertexFacts.hover (agree.vertices id member)

theorem package : a.packages[id]? = b.packages[id]? :=
  congrArg VertexFacts.package (agree.vertices id member)

theorem document : a.documents[id]? = b.documents[id]? :=
  congrArg VertexFacts.address (agree.vertices id member)

end Vertices

end AgreesOn

theorem vertexFacts_ne_none_of_range {dump : Dump} {id : VertexId} {range : Range}
    (found : dump.ranges[id]? = some range) : dump.vertexFacts id ≠ .none := by
  intro absent
  have := congrArg VertexFacts.range absent
  simp [vertexFacts, VertexFacts.none, found] at this

theorem vertexFacts_ne_none_of_moniker {dump : Dump} {id : VertexId} {moniker : Moniker}
    (found : dump.monikers[id]? = some moniker) : dump.vertexFacts id ≠ .none := by
  intro absent
  have := congrArg VertexFacts.moniker absent
  simp [vertexFacts, VertexFacts.none, found] at this

theorem vertexFacts_ne_none_of_definitionResult {dump : Dump} {id : VertexId}
    (found : dump.definitionResults.contains id) : dump.vertexFacts id ≠ .none := by
  intro absent
  have := congrArg VertexFacts.isDefinitionResult absent
  simp [vertexFacts, VertexFacts.none, found] at this

theorem vertexFacts_ne_none_of_referenceResult {dump : Dump} {id : VertexId}
    (found : dump.referenceResults.contains id) : dump.vertexFacts id ≠ .none := by
  intro absent
  have := congrArg VertexFacts.isReferenceResult absent
  simp [vertexFacts, VertexFacts.none, found] at this

theorem vertexFacts_ne_none_of_resultSet {dump : Dump} {id : VertexId}
    (found : dump.resultSets.contains id) : dump.vertexFacts id ≠ .none := by
  intro absent
  have := congrArg VertexFacts.isResultSet absent
  simp [vertexFacts, VertexFacts.none, found] at this

/-! ### Result sets -/

/-- The result sets that have not been visited. -/
def unvisited (dump : Dump) (visited : Table ChainNode) : List VertexId :=
  dump.resultSets.toList.filter fun id => !visited.contains id

/-- Entering a result set leaves fewer to be visited. -/
theorem unvisited_insert_lt {dump : Dump} {visited : Table ChainNode} {id : VertexId}
    (node : ChainNode) (unmet : visited.contains id = false)
    (isSet : dump.resultSets.contains id = true) :
    (dump.unvisited (visited.insert id node)).length < (dump.unvisited visited).length := by
  have narrowed : dump.unvisited (visited.insert id node) =
      (dump.unvisited visited).filter fun other => !(id == other) := by
    simp only [unvisited, List.filter_filter]
    apply List.filter_congr
    intro other _
    by_cases same : id = other
    · subst same
      simp
    · have differ : (compare id other == .eq) = false := beq_false_of_ne (by simpa using same)
      have apart : (id == other) = false := beq_false_of_ne same
      simp [Std.ExtTreeMap.contains_insert, differ, apart]
  rw [narrowed]
  apply List.length_filter_lt_length_iff_exists.mpr
  refine ⟨id, ?_, by simp⟩
  simp [unvisited, unmet, Std.ExtTreeSet.mem_toList, Std.ExtTreeSet.mem_iff_contains, isSet]

theorem length_unvisited_le (dump : Dump) (visited : Table ChainNode) :
    (dump.unvisited visited).length ≤ dump.resultSets.size := by
  rw [← Std.ExtTreeSet.length_toList]
  exact List.length_filter_le _ _

section

variable {dump : Dump} {fuel : Nat} {id : VertexId} {pending : List VertexId}
  {visited : Table ChainNode}

theorem reach_skip (passed : dump.resultSets.contains id → visited.contains id) :
    dump.reach (fuel + 1) (id :: pending) visited = dump.reach fuel pending visited := by
  rw [reach, if_pos]
  cases isSet : dump.resultSets.contains id with
  | true => simp [passed isSet]
  | false => simp

theorem reach_enter (unmet : visited.contains id = false)
    (isSet : dump.resultSets.contains id = true) :
    dump.reach (fuel + 1) (id :: pending) visited =
      dump.reach fuel ((dump.nodeOf id).next.toList ++ pending)
        (visited.insert id (dump.nodeOf id)) := by
  rw [reach, if_neg]
  simp [unmet, isSet]

/-- Whoever enters a result set may have one more to look at, but one fewer to visit. -/
theorem enough_enter (unmet : visited.contains id = false)
    (isSet : dump.resultSets.contains id = true) (node : ChainNode)
    (enough : (id :: pending).length + (dump.unvisited visited).length ≤ fuel + 1) :
    (node.next.toList ++ pending).length + (dump.unvisited (visited.insert id node)).length ≤
      fuel := by
  have fewer := unvisited_insert_lt node unmet isSet
  have one : node.next.toList.length ≤ 1 := by cases node.next <;> simp
  rw [List.length_cons] at enough
  rw [List.length_append]
  omega

/-- With enough fuel a search goes on until nothing is left pending, and what each of its steps
hands back to the one before holds of the whole. -/
theorem reach_induction {P : List VertexId → Table ChainNode → Table ChainNode → Prop}
    (done : ∀ visited, P [] visited visited)
    (skip : ∀ id pending visited last, (dump.resultSets.contains id → visited.contains id) →
      P pending visited last → P (id :: pending) visited last)
    (enter : ∀ id pending visited last, visited.contains id = false →
      dump.resultSets.contains id = true →
      P ((dump.nodeOf id).next.toList ++ pending) (visited.insert id (dump.nodeOf id)) last →
        P (id :: pending) visited last)
    (enough : pending.length + (dump.unvisited visited).length ≤ fuel) :
    P pending visited (dump.reach fuel pending visited) := by
  induction fuel generalizing pending visited with
  | zero =>
      obtain rfl : pending = [] := List.length_eq_zero_iff.mp (by omega)
      exact done visited
  | succ fuel ih =>
      cases pending with
      | nil => exact done visited
      | cons id pending =>
          by_cases passed : dump.resultSets.contains id → visited.contains id
          · rw [reach_skip passed]
            rw [List.length_cons] at enough
            exact skip _ _ _ _ passed (ih (by omega))
          · obtain ⟨isSet, unmet⟩ := Classical.not_imp.mp passed
            have unmet : visited.contains id = false := Bool.eq_false_iff.mpr unmet
            rw [reach_enter unmet isSet]
            exact enter _ _ _ _ unmet isSet (ih (enough_enter unmet isSet _ enough))

end

/-- The nodes of a table lead to vertices inside a set. -/
def NodesInside (inside : VertexId → Prop) (visited : Table ChainNode) : Prop :=
  ∀ node ∈ visited.values, ∀ target ∈ node.targets, inside target

theorem NodesInside.empty : NodesInside inside ∅ := by
  intro node member
  obtain ⟨id, found⟩ := Table.mem_values.mp member
  simp at found

theorem NodesInside.insert {visited : Table ChainNode} {node : ChainNode}
    (kept : NodesInside inside visited) (id : VertexId)
    (targets : ∀ target ∈ node.targets, inside target) :
    NodesInside inside (visited.insert id node) := by
  intro other member
  obtain ⟨key, found⟩ := Table.mem_values.mp member
  rw [Std.ExtTreeMap.getElem?_insert] at found
  split at found
  · cases found
    exact targets
  · exact kept other (Table.mem_values.mpr ⟨key, found⟩)

/-- Inside a closed set on which two graphs agree, both reach the same result sets, whatever their
fuel beyond what is needed. -/
theorem reach_congr {document : VertexId} (agree : a.AgreesOn b inside)
    (closed : a.ClosedFrom document inside) (fuelA fuelB : Nat) (pending : List VertexId)
    (visited : Table ChainNode) (started : ∀ id ∈ pending, inside id)
    (kept : NodesInside inside visited)
    (enoughA : pending.length + (a.unvisited visited).length ≤ fuelA)
    (enoughB : pending.length + (b.unvisited visited).length ≤ fuelB) :
    a.reach fuelA pending visited = b.reach fuelB pending visited ∧
      NodesInside inside (a.reach fuelA pending visited) := by
  revert started kept fuelB
  refine reach_induction (P := fun pending visited last => ∀ fuelB,
    (∀ id ∈ pending, inside id) → NodesInside inside visited →
      pending.length + (b.unvisited visited).length ≤ fuelB →
        last = b.reach fuelB pending visited ∧ NodesInside inside last) ?_ ?_ ?_ enoughA
  · intro visited fuelB _ kept _
    cases fuelB <;> exact ⟨rfl, kept⟩
  · intro id pending visited last passed ih fuelB started kept enough
    cases fuelB with
    | zero => simp at enough
    | succ fuelB =>
        have member := started id List.mem_cons_self
        rw [List.length_cons] at enough
        rw [reach_skip (agree.resultSet member ▸ passed)]
        exact ih fuelB (fun other listed => started other (List.mem_cons_of_mem id listed)) kept
          (by omega)
  · intro id pending visited last unmet isSet ih fuelB started kept enough
    cases fuelB with
    | zero => simp at enough
    | succ fuelB =>
        have member := started id List.mem_cons_self
        have present := vertexFacts_ne_none_of_resultSet isSet
        have node : a.nodeOf id = b.nodeOf id :=
          congrArg EdgeFacts.node (agree.edges id member present)
        have targets := closed.node id member present
        have isSetToo := (agree.resultSet member).symm.trans isSet
        rw [reach_enter unmet isSetToo, ← node]
        refine ih fuelB ?_ (kept.insert id targets) (enough_enter unmet isSetToo _ enough)
        intro other listed
        rcases List.mem_append.mp listed with next | listed
        · exact targets other (by simp [ChainNode.targets, next])
        · exact started other (List.mem_cons_of_mem id listed)

theorem reachable_congr {document : VertexId} (agree : a.AgreesOn b inside)
    (closed : a.ClosedFrom document inside) {nodes : List ChainNode}
    (started : ∀ node ∈ nodes, ∀ target ∈ node.targets, inside target) :
    a.reachable nodes = b.reachable nodes ∧ NodesInside inside (a.reachable nodes) := by
  have allA := a.length_unvisited_le ∅
  have allB := b.length_unvisited_le ∅
  apply reach_congr agree closed
  · intro id listed
    obtain ⟨node, member, next⟩ := List.mem_filterMap.mp listed
    exact started node member id (by simp [ChainNode.targets, next])
  · exact .empty
  · omega
  · omega

/-! ### Documents -/

section Results

variable {id : VertexId} (agree : a.AgreesOn b inside)
  (member : inside id)
include agree member

/-- Edges out of a vertex matter only if it is there as what is looked for. -/
theorem moniker?_congr : a.moniker? id = b.moniker? id := by
  have same : a.monikers[id]? = b.monikers[id]? :=
    congrArg VertexFacts.moniker (agree.vertices id member)
  unfold moniker?
  rw [← same]
  cases found : a.monikers[id]? with
  | none => rfl
  | some moniker =>
      have present := vertexFacts_ne_none_of_moniker found
      have package : a.monikerPackages[id]? = b.monikerPackages[id]? :=
        congrArg EdgeFacts.monikerPackage (agree.edges id member present)
      rw [package]

theorem definitionIn?_congr (locals : List VertexId) :
    a.definitionIn? locals id = b.definitionIn? locals id := by
  have same : a.definitionResults.contains id = b.definitionResults.contains id :=
    congrArg VertexFacts.isDefinitionResult (agree.vertices id member)
  unfold definitionIn?
  rw [← same]
  cases found : a.definitionResults.contains id with
  | false => simp
  | true =>
      have present := vertexFacts_ne_none_of_definitionResult found
      have items : a.items.getD id .empty = b.items.getD id .empty :=
        congrArg EdgeFacts.items (agree.edges id member present)
      rw [items]

theorem referenceIn?_congr (locals : List VertexId) :
    a.referenceIn? locals id = b.referenceIn? locals id := by
  have same : a.referenceResults.contains id = b.referenceResults.contains id :=
    congrArg VertexFacts.isReferenceResult (agree.vertices id member)
  unfold referenceIn?
  rw [← same]
  cases found : a.referenceResults.contains id with
  | false => simp
  | true =>
      have present := vertexFacts_ne_none_of_referenceResult found
      have items : a.items.getD id .empty = b.items.getD id .empty :=
        congrArg EdgeFacts.items (agree.edges id member present)
      rw [items]

end Results

/-- A table of what nodes name is the same if it is the same inside the set. -/
theorem tableOf_filterMap_congr {α : Type} {find other : VertexId → Option α}
    {nodes : List ChainNode} (pick : ChainNode → Option VertexId)
    (targets : ∀ node ∈ nodes, ∀ target ∈ node.targets, inside target)
    (named : ∀ node id, pick node = some id → id ∈ node.targets)
    (same : ∀ id, inside id → find id = other id) :
    tableOf find (nodes.filterMap pick) = tableOf other (nodes.filterMap pick) := by
  apply tableOf_congr
  intro id listed
  obtain ⟨node, member, picked⟩ := List.mem_filterMap.mp listed
  exact same id (targets node member id (named node id picked))

/-- The monikers of nodes are the same if what the nodes name is inside the set. -/
theorem monikers_congr {nodes : List ChainNode} (agree : a.AgreesOn b inside)
    (targets : ∀ node ∈ nodes, ∀ target ∈ node.targets, inside target) :
    tableOf a.moniker? (nodes.flatMap (·.monikers)) =
      tableOf b.moniker? (nodes.flatMap (·.monikers)) := by
  apply tableOf_congr
  intro id listed
  obtain ⟨node, member, named⟩ := List.mem_flatMap.mp listed
  exact moniker?_congr agree (targets node member id (by simp [ChainNode.targets, named]))

/-- The packages of the monikers of nodes are the same, too. -/
theorem packages_congr {document : VertexId} {nodes : List ChainNode}
    (agree : a.AgreesOn b inside) (closed : a.ClosedFrom document inside)
    (targets : ∀ node ∈ nodes, ∀ target ∈ node.targets, inside target) :
    tableOf (a.packages[·]?) ((tableOf a.moniker? (nodes.flatMap (·.monikers))).values.filterMap
        (·.package)) =
      tableOf (b.packages[·]?) ((tableOf a.moniker? (nodes.flatMap (·.monikers))).values.filterMap
        (·.package)) := by
  apply tableOf_congr
  intro id listed
  obtain ⟨moniker, member, named⟩ := List.mem_filterMap.mp listed
  obtain ⟨key, among, found⟩ := mem_values_tableOf member
  obtain ⟨node, inNode, carried⟩ := List.mem_flatMap.mp among
  have keyInside := targets node inNode key (by simp [ChainNode.targets, carried])
  obtain ⟨plain, stored, rfl⟩ := Option.map_eq_some_iff.mp found
  exact agree.package
    (closed.package key keyInside (vertexFacts_ne_none_of_moniker stored) id named)

/-- A document and its ranges come from a graph's facts about the document and its contents. -/
theorem localRanges_congr {document : VertexId} (agree : a.AgreesOn b inside)
    (contents : a.contents.getD document [] = b.contents.getD document [])
    (started : ∀ id ∈ a.contents.getD document [], inside id) :
    a.localRanges document = b.localRanges document := by
  have found : (a.contents.getD document []).filterMap
        (fun id => a.ranges[id]?.map fun range => (id, range)) =
      (a.contents.getD document []).filterMap
        (fun id => b.ranges[id]?.map fun range => (id, range)) := by
    apply List.filterMap_congr
    intro id listed
    rw [agree.range (started id listed)]
  unfold localRanges
  rw [← contents, found]

/-- A range of a document is listed in it and has a vertex. -/
theorem mem_localRanges {dump : Dump} {document : VertexId} {entry : VertexId × Range}
    (listed : entry ∈ dump.localRanges document) :
    entry.1 ∈ dump.contents.getD document [] ∧ dump.ranges[entry.1]? = some entry.2 := by
  unfold localRanges at listed
  obtain ⟨id, member, read⟩ := List.mem_filterMap.mp (List.mem_mergeSort.mp listed)
  obtain ⟨range, found, rfl⟩ := Option.map_eq_some_iff.mp read
  exact ⟨member, found⟩

/-- Two graphs that agree on a closed set around a document hold the same document. -/
theorem documentOf_congr {document : VertexId} (agree : a.AgreesOn b inside)
    (closed : a.ClosedFrom document inside)
    (contents : a.contents.getD document [] = b.contents.getD document []) :
    a.documentOf document = b.documentOf document := by
  have ranges := localRanges_congr agree contents closed.contents
  have present (entry) (listed : entry ∈ a.localRanges document) :
      inside entry.1 ∧ a.vertexFacts entry.1 ≠ .none := by
    obtain ⟨member, found⟩ := mem_localRanges listed
    exact ⟨closed.contents _ member, vertexFacts_ne_none_of_range found⟩
  have nodeOf (entry) (listed : entry ∈ a.localRanges document) :
      a.nodeOf entry.1 = b.nodeOf entry.1 :=
    congrArg EdgeFacts.node
      (agree.edges entry.1 (present entry listed).1 (present entry listed).2)
  have rangeNodes : ((a.localRanges document).map (·.1)).map b.nodeOf =
      ((a.localRanges document).map (·.1)).map a.nodeOf := by
    rw [List.map_map, List.map_map]
    exact List.map_congr_left fun entry listed => (nodeOf entry listed).symm
  have entries : (a.localRanges document).map
        (fun entry => (⟨entry.2, b.nodeOf entry.1⟩ : RangeEntry)) =
      (a.localRanges document).map (fun entry => ⟨entry.2, a.nodeOf entry.1⟩) :=
    List.map_congr_left fun entry listed => by rw [nodeOf entry listed]
  have started : ∀ node ∈ ((a.localRanges document).map (·.1)).map a.nodeOf,
      ∀ target ∈ node.targets, inside target := by
    intro node member
    rw [List.map_map] at member
    obtain ⟨entry, listed, rfl⟩ := List.mem_map.mp member
    exact closed.node entry.1 (present entry listed).1 (present entry listed).2
  obtain ⟨resultSets, kept⟩ := reachable_congr agree closed started
  have targets : ∀ node ∈ ((a.localRanges document).map (·.1)).map a.nodeOf ++
        (a.reachable (((a.localRanges document).map (·.1)).map a.nodeOf)).values,
      ∀ target ∈ node.targets, inside target := by
    intro node member
    rcases List.mem_append.mp member with member | member
    · exact started node member
    · exact kept node member
  simp only [documentOf, ← ranges, rangeNodes, ← resultSets, entries]
  revert targets
  generalize ((a.localRanges document).map (·.1)).map a.nodeOf ++
    (a.reachable (((a.localRanges document).map (·.1)).map a.nodeOf)).values = nodes
  intro targets
  have monikers := monikers_congr agree targets
  have packages := packages_congr agree closed targets
  have definitions := tableOf_filterMap_congr (·.definitionResult) targets
    (fun node id named => by simp [ChainNode.targets, named])
    (fun id member => definitionIn?_congr agree member ((a.localRanges document).map (·.1)))
  have references := tableOf_filterMap_congr (·.referenceResult) targets
    (fun node id named => by simp [ChainNode.targets, named])
    (fun id member => referenceIn?_congr agree member ((a.localRanges document).map (·.1)))
  have hovers := tableOf_filterMap_congr (·.hoverResult) targets
    (fun node id named => by simp [ChainNode.targets, named])
    (fun id member => agree.hover member)
  rw [← monikers, ← packages, ← definitions, ← references, ← hovers]

end Dump

end CodeNav
