/-
Module: CodeNav.Proofs.Dump.Relinked
Purpose: What two graphs have in common that differ in the links of nodes and packages of monikers.
Main exports:
  Dump.Relinked, Dump.Relinked.documentOf_eq_iff, Dump.Relinked.monikersWithPackages_eq_iff,
  Dump.Relinked.rows_eq_of_chains
-/
import CodeNav.Proofs.Dump.MonikerRows
import Mathlib.Data.List.Sort

namespace CodeNav.Dump

/-- Two graphs hold the same but for where nodes link to, and which packages monikers belong to. -/
structure Relinked (a b : Dump) : Prop where
  vertices : ∀ id, a.vertexFacts id = b.vertexFacts id
  contents : ∀ id : VertexId, a.contents.getD id [] = b.contents.getD id []
  items : ∀ id : VertexId, a.items.getD id .empty = b.items.getD id .empty
  places : ∀ id : VertexId, a.rangeDocuments[id]? = b.rangeDocuments[id]?
  monikers : ∀ id, (a.nodeOf id).monikers = (b.nodeOf id).monikers

variable {a b : Dump}

/-! ### Vertices -/

section

variable (relinked : a.Relinked b)
include relinked

theorem Relinked.documents : a.documents = b.documents :=
  Std.ExtTreeMap.ext_getElem? fun id => congrArg VertexFacts.address (relinked.vertices id)

theorem Relinked.ranges : a.ranges = b.ranges :=
  Std.ExtTreeMap.ext_getElem? fun id => congrArg VertexFacts.range (relinked.vertices id)

theorem Relinked.resultSets : a.resultSets = b.resultSets :=
  Std.ExtTreeSet.ext_contains fun id => congrArg VertexFacts.isResultSet (relinked.vertices id)

theorem Relinked.hovers : a.hovers = b.hovers :=
  Std.ExtTreeMap.ext_getElem? fun id => congrArg VertexFacts.hover (relinked.vertices id)

theorem Relinked.plainMonikers : a.monikers = b.monikers :=
  Std.ExtTreeMap.ext_getElem? fun id => congrArg VertexFacts.moniker (relinked.vertices id)

theorem Relinked.packages : a.packages = b.packages :=
  Std.ExtTreeMap.ext_getElem? fun id => congrArg VertexFacts.package (relinked.vertices id)

theorem Relinked.definitionResults : a.definitionResults = b.definitionResults :=
  Std.ExtTreeSet.ext_contains fun id =>
    congrArg VertexFacts.isDefinitionResult (relinked.vertices id)

theorem Relinked.referenceResults : a.referenceResults = b.referenceResults :=
  Std.ExtTreeSet.ext_contains fun id =>
    congrArg VertexFacts.isReferenceResult (relinked.vertices id)

theorem Relinked.localRanges (document : VertexId) :
    a.localRanges document = b.localRanges document := by
  rw [Dump.localRanges, Dump.localRanges, relinked.contents, relinked.ranges]

theorem Relinked.definitionIn? (locals : List VertexId) :
    a.definitionIn? locals = b.definitionIn? locals := by
  funext id
  rw [Dump.definitionIn?, Dump.definitionIn?, relinked.items, relinked.definitionResults]

theorem Relinked.referenceIn? (locals : List VertexId) :
    a.referenceIn? locals = b.referenceIn? locals := by
  funext id
  simp only [Dump.referenceIn?, relinked.items, relinked.referenceResults]

theorem Relinked.row? (moniker : Moniker) : a.row? moniker = b.row? moniker := by
  funext item
  rw [Dump.row?, Dump.row?, relinked.ranges, relinked.places, relinked.documents]

/-! ### Documents -/

/-- The same result sets are reached if the ones on the way link on alike. -/
theorem Relinked.reach {wanted : VertexId → Prop}
    (nodes : ∀ id, wanted id → a.resultSets.contains id →
      a.nodeOf id = b.nodeOf id ∧ ∀ next, (a.nodeOf id).next = some next → wanted next)
    (fuel : Nat) (pending : List VertexId) (visited : Table ChainNode)
    (started : ∀ id ∈ pending, wanted id) :
    a.reach fuel pending visited = b.reach fuel pending visited := by
  induction fuel generalizing pending visited with
  | zero => cases pending <;> rfl
  | succ fuel ih =>
      cases pending with
      | nil => rfl
      | cons id pending =>
          obtain ⟨member, rest⟩ := List.forall_mem_cons.mp started
          unfold Dump.reach
          rw [← relinked.resultSets]
          split
          · exact ih pending visited rest
          · rename_i enters
            simp only [Bool.or_eq_true, Bool.not_eq_true', not_or, Bool.not_eq_false] at enters
            obtain ⟨node, onward⟩ := nodes id member enters.2
            rw [← node]
            apply ih
            intro other listed
            rcases List.mem_append.mp listed with next | listed
            · exact onward other (Option.mem_toList.mp next)
            · exact rest other listed

/-- The ranges of a document carry the same if its nodes link on alike. -/
theorem Relinked.rangeNodes {document : VertexId}
    (nodes : ∀ id, IsNode a document id → a.nodeOf id = b.nodeOf id) :
    ((b.localRanges document).map (·.1)).map b.nodeOf =
      ((a.localRanges document).map (·.1)).map a.nodeOf := by
  rw [← relinked.localRanges]
  exact List.map_congr_left fun id listed => (nodes id (.inl listed)).symm

/-- The same result sets belong to a document if its nodes link on alike. -/
theorem Relinked.reachable {document : VertexId}
    (nodes : ∀ id, IsNode a document id → a.nodeOf id = b.nodeOf id) :
    a.reachable (((a.localRanges document).map (·.1)).map a.nodeOf) =
      b.reachable (((a.localRanges document).map (·.1)).map a.nodeOf) := by
  -- what is pending belongs to the document if it is a result set, and is passed over if not
  have onward (id : VertexId)
      (wanted : a.resultSets.contains id → (a.documentOf document).resultSets.contains id)
      (isSet : a.resultSets.contains id) :
      a.nodeOf id = b.nodeOf id ∧ ∀ next, (a.nodeOf id).next = some next →
        a.resultSets.contains next → (a.documentOf document).resultSets.contains next :=
    have isNode : IsNode a document id := .inr (wanted isSet)
    ⟨nodes id isNode, fun next links known => isNode.contains_next links known⟩
  rw [Dump.reachable, Dump.reachable, ← relinked.resultSets]
  apply relinked.reach onward
  intro id pending isSet
  obtain ⟨node, listed, links⟩ := List.mem_filterMap.mp pending
  obtain ⟨range, among, rfl⟩ := List.mem_map.mp listed
  exact IsNode.contains_next (.inl among) links isSet

end

/-- The nodes from which tables are made are what the graph holds about the nodes. -/
theorem mem_nodesOf {dump : Dump} {document : VertexId} {node : ChainNode} :
    node ∈ dump.nodesOf document ↔ ∃ id, IsNode dump document id ∧ dump.nodeOf id = node := by
  constructor
  · intro member
    rcases List.mem_append.mp member with listed | listed
    · obtain ⟨id, among, rfl⟩ := List.mem_map.mp listed
      exact ⟨id, .inl among, rfl⟩
    · obtain ⟨id, found⟩ := Table.mem_values.mp listed
      have met : (dump.documentOf document).resultSets.contains id := by
        rw [Std.ExtTreeMap.contains_eq_isSome_getElem?, found]
        rfl
      have stored := getElem?_resultSets_documentOf met
      exact ⟨id, .inr met, Option.some.inj (stored.symm.trans found)⟩
  · rintro ⟨id, isNode, rfl⟩
    exact isNode.mem_nodesOf

/-- A document is the same exactly if its nodes link on alike and their monikers belong to the same
packages. -/
theorem Relinked.documentOf_eq_iff (relinked : a.Relinked b) (document : VertexId) :
    a.documentOf document = b.documentOf document ↔
      ∀ id, IsNode a document id → a.nodeOf id = b.nodeOf id ∧
        ∀ named ∈ (a.nodeOf id).monikers, a.moniker? named = b.moniker? named := by
  have ranges := relinked.localRanges document
  constructor
  · intro same id isNode
    have other : IsNode b document id := by
      rcases isNode with listed | met
      · exact .inl (ranges ▸ listed)
      · exact .inr (same ▸ met)
    constructor
    · rcases isNode with listed | met
      · obtain ⟨entry, among, rfl⟩ := List.mem_map.mp listed
        have entries : (a.localRanges document).map
              (fun entry => (⟨entry.2, a.nodeOf entry.1⟩ : RangeEntry)) =
            (a.localRanges document).map (fun entry => ⟨entry.2, b.nodeOf entry.1⟩) := by
          conv_rhs => rw [ranges]
          exact congrArg Document.orderedRanges same
        exact congrArg RangeEntry.node (List.map_inj_left.mp entries entry among)
      · have stored := getElem?_resultSets_documentOf met
        rw [same] at met stored
        exact Option.some.inj (stored.symm.trans (getElem?_resultSets_documentOf met))
    · intro named attached
      have inA : (a.documentOf document).monikers[named]? = a.moniker? named :=
        (getElem?_tableOf _ _ named).trans
          (if_pos (List.mem_flatMap.mpr ⟨_, isNode.mem_nodesOf, attached⟩))
      have inB : (b.documentOf document).monikers[named]? = b.moniker? named :=
        (getElem?_tableOf _ _ named).trans
          (if_pos (List.mem_flatMap.mpr ⟨_, other.mem_nodesOf, relinked.monikers id ▸ attached⟩))
      rw [← inA, ← inB, same]
  · intro alike
    have nodes (id) (isNode : IsNode a document id) : a.nodeOf id = b.nodeOf id :=
      (alike id isNode).1
    have entries : (a.localRanges document).map
          (fun entry => (⟨entry.2, b.nodeOf entry.1⟩ : RangeEntry)) =
        (a.localRanges document).map (fun entry => ⟨entry.2, a.nodeOf entry.1⟩) :=
      List.map_congr_left fun entry listed => by
        rw [nodes entry.1 (.inl (List.mem_map_of_mem listed))]
    have monikers : tableOf a.moniker? ((a.nodesOf document).flatMap (·.monikers)) =
        tableOf b.moniker? ((a.nodesOf document).flatMap (·.monikers)) := by
      apply tableOf_congr
      intro named listed
      obtain ⟨node, member, attached⟩ := List.mem_flatMap.mp listed
      obtain ⟨id, isNode, rfl⟩ := mem_nodesOf.mp member
      exact (alike id isNode).2 named attached
    unfold nodesOf at monikers
    have rangeNodes := relinked.rangeNodes nodes
    rw [← ranges] at rangeNodes
    simp only [documentOf, ← ranges, rangeNodes, entries] at monikers ⊢
    rw [← relinked.reachable nodes, relinked.definitionIn?, relinked.referenceIn?, relinked.hovers,
      relinked.packages, monikers]

/-! ### Monikers with their packages -/

/-- Where something is found everywhere, the same is found altogether exactly if it is everywhere. -/
theorem filterMap_eq_iff {α β : Type} {f g : α → Option β} {l : List α}
    (found : ∀ x ∈ l, (f x).isSome) (other : ∀ x ∈ l, (g x).isSome) :
    l.filterMap f = l.filterMap g ↔ ∀ x ∈ l, f x = g x := by
  refine ⟨?_, List.filterMap_congr⟩
  induction l with
  | nil => simp
  | cons x rest ih =>
      obtain ⟨first, found⟩ := List.forall_mem_cons.mp found
      obtain ⟨second, other⟩ := List.forall_mem_cons.mp other
      obtain ⟨y, here⟩ := Option.isSome_iff_exists.mp first
      obtain ⟨z, there⟩ := Option.isSome_iff_exists.mp second
      intro same
      simp only [List.filterMap_cons, here, there, List.cons.injEq] at same
      rw [List.forall_mem_cons, here, there, same.1]
      exact ⟨rfl, ih found other same.2⟩

/-- All monikers with their packages are the same exactly if each one is. -/
theorem Relinked.monikersWithPackages_eq_iff (relinked : a.Relinked b) :
    a.monikersWithPackages = b.monikersWithPackages ↔ ∀ id, a.moniker? id = b.moniker? id := by
  have isSome (dump : Dump) (id : VertexId) :
      (dump.moniker? id).isSome = dump.monikers[id]?.isSome := Option.isSome_map
  have known (dump : Dump) (id) (listed : id ∈ dump.monikers.keys) : (dump.moniker? id).isSome := by
    rw [isSome, ← Std.ExtTreeMap.mem_iff_isSome_getElem?]
    exact Std.ExtTreeMap.mem_keys.mp listed
  have each := filterMap_eq_iff (known a) fun id listed =>
    known b id (relinked.plainMonikers ▸ listed)
  unfold monikersWithPackages
  rw [← relinked.plainMonikers, ← relinked.packages]
  constructor
  · intro same id
    have plain := congrArg (List.map Prod.fst) same
    simp only [List.map_map, Function.comp_def, List.map_id'] at plain
    by_cases listed : id ∈ a.monikers.keys
    · exact each.mp plain id listed
    · have absent : a.monikers[id]? = none := by
        rw [Std.ExtTreeMap.mem_keys] at listed
        exact Std.ExtTreeMap.getElem?_eq_none listed
      rw [moniker?, moniker?, ← relinked.plainMonikers, absent]
      rfl
  · intro same
    rw [each.mpr fun id _ => same id]

/-! ### Rows -/

/-- The nodes with monikers are the same, though there may be further nodes in one graph alone. -/
theorem Relinked.attached (relinked : a.Relinked b) : a.attached = b.attached := by
  have ordered (dump : Dump) : dump.attached.Pairwise fun x y => compare x y = .lt :=
    Std.ExtTreeMap.ordered_keys.filter _
  have distinct (dump : Dump) : dump.attached.Nodup := Std.ExtTreeMap.nodup_keys.filter _
  have members (id : VertexId) : id ∈ a.attached ↔ id ∈ b.attached := by
    rw [mem_attached, mem_attached, relinked.monikers]
  refine List.Perm.eq_of_pairwise ?_ (ordered a) (ordered b)
    ((List.perm_ext_iff_of_nodup (distinct a) (distinct b)).mpr members)
  intro x y _ _ before after
  exact absurd (Std.TransCmp.lt_trans before after) (by simp)

/-- The rows are the same if the chains of nodes with monikers reach the same items. -/
theorem Relinked.rows_eq_of_chains (relinked : a.Relinked b) {kind : RowKind}
    (chains : ∀ id, (a.nodeOf id).monikers ≠ [] →
      a.chainItems? kind (a.links.size + 1) id = b.chainItems? kind (b.links.size + 1) id) :
    a.rows kind = b.rows kind := by
  rw [rows_eq, rows_eq, ← relinked.attached]
  congr 1
  apply List.flatMap_congr
  intro id listed
  rw [nodeRows, nodeRows, chains id (mem_attached.mp listed), relinked.monikers,
    relinked.plainMonikers]
  cases b.chainItems? kind (b.links.size + 1) id with
  | none => rfl
  | some items =>
      apply List.flatMap_congr
      intro moniker _
      rw [relinked.row?]

end CodeNav.Dump
