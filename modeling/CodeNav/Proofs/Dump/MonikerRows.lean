/-
Module: CodeNav.Proofs.Dump.MonikerRows
Purpose: Which rows of definitions and references a dump yields, read off its vertices and edges.
Main exports:
  Element.Row, Dump.attached, Dump.rows_eq, Dump.mem_rows, Dump.rows_exact
-/
import CodeNav.Proofs.Dump.Answers
import CodeNav.Proofs.Dump.Nearest
import CodeNav.Proofs.Packages.Users
import CodeNav.Proofs.Success

namespace CodeNav

/-- The rows that the elements of a dump give reason for: a moniker is attached to a node, and the
nearest result on the chain of the node lists a range, which lies in a document. -/
inductive Element.Row (elements : List Element) (kind : RowKind) : MonikerRow → Prop where
  | intro {node result item document : VertexId} {moniker : Moniker} {range : Range} {uri : String}
      (attached : moniker ∈ monikersAt elements node)
      (nearest : Nearest elements kind node result)
      (listed : item ∈ Edge.itemsWith kind.counts (edgesFrom elements result))
      (known : range? elements item = some range)
      (placed : rangeDocument? elements item = some document)
      (addressed : address? elements document = some uri) :
      Row elements kind ⟨moniker.scheme, moniker.identifier, uri, range⟩

namespace Dump

open Element

variable {elements : List Element} {dump : Dump} {kind : RowKind} {row : MonikerRow}

/-- The nodes that have monikers, in order. -/
def attached (dump : Dump) : List VertexId :=
  dump.links.keys.filter fun id => (dump.nodeOf id).monikers ≠ []

theorem mem_attached {id : VertexId} : id ∈ dump.attached ↔ (dump.nodeOf id).monikers ≠ [] := by
  simp only [attached, List.mem_filter, decide_eq_true_eq, and_iff_right_iff_imp]
  intro some
  rw [Std.ExtTreeMap.mem_keys]
  by_contra absent
  rw [nodeOf_eq_getD, Std.ExtTreeMap.getElem?_eq_none absent] at some
  exact some rfl

theorem nodeRows_of_bare {id : VertexId} (bare : (dump.nodeOf id).monikers = []) :
    dump.nodeRows kind id (dump.nodeOf id) = [] := by
  unfold nodeRows
  split <;> simp [bare]

/-- The rows come from the nodes that have monikers. -/
theorem rows_eq (dump : Dump) (kind : RowKind) :
    dump.rows kind =
      (dump.attached.flatMap fun id => dump.nodeRows kind id (dump.nodeOf id)).eraseDups := by
  have byKey : dump.rows kind =
      (dump.links.keys.flatMap fun id => dump.nodeRows kind id (dump.nodeOf id)).eraseDups := by
    rw [rows, ← Std.ExtTreeMap.map_fst_toList_eq_keys, List.flatMap_map]
    congr 1
    apply List.flatMap_congr
    rintro ⟨id, node⟩ listed
    rw [Std.ExtTreeMap.mem_toList_iff_getElem?_eq_some] at listed
    rw [nodeOf_eq_getD, listed]
    rfl
  rw [byKey, attached]
  congr 1
  induction dump.links.keys with
  | nil => rfl
  | cons id rest ih =>
      rw [List.flatMap_cons, ih, List.filter_cons]
      by_cases bare : (dump.nodeOf id).monikers = []
      · simp [bare, nodeRows_of_bare]
      · simp [bare]

theorem mem_rows_iff_exists_node :
    row ∈ dump.rows kind ↔ ∃ id, row ∈ dump.nodeRows kind id (dump.nodeOf id) := by
  rw [rows_eq, List.mem_eraseDups, List.mem_flatMap]
  constructor
  · rintro ⟨id, _, member⟩
    exact ⟨id, member⟩
  · rintro ⟨id, member⟩
    refine ⟨id, mem_attached.mpr fun bare => ?_, member⟩
    rw [nodeRows_of_bare bare] at member
    cases member

/-- A row is one of a node if it pairs one of its monikers with a range that its chain reaches. -/
theorem mem_nodeRows {id : VertexId} :
    row ∈ dump.nodeRows kind id (dump.nodeOf id) ↔
      ∃ items moniker item,
        dump.chainItems? kind (dump.links.size + 1) id = some items ∧
        moniker ∈ (dump.nodeOf id).monikers.filterMap (dump.monikers[·]?) ∧
        item ∈ kind.rangesOf items ∧ dump.row? moniker item = some row := by
  unfold nodeRows
  cases dump.chainItems? kind (dump.links.size + 1) id with
  | none => simp
  | some items =>
      simp only [List.mem_flatMap, List.mem_filterMap, Option.some.injEq]
      constructor
      · rintro ⟨moniker, attached, item, listed, made⟩
        exact ⟨items, moniker, item, rfl, attached, listed, made⟩
      · rintro ⟨_, moniker, item, rfl, attached, listed, made⟩
        exact ⟨moniker, attached, item, listed, made⟩

/-- A row is made of a range that is known and lies in a document. -/
theorem row?_eq_some_iff {moniker : Moniker} {item : VertexId} :
    dump.row? moniker item = some row ↔
      ∃ range document uri,
        dump.ranges[item]? = some range ∧ dump.rangeDocuments[item]? = some document ∧
        dump.documents[document]? = some uri ∧
        (⟨moniker.scheme, moniker.identifier, uri, range⟩ : MonikerRow) = row := by
  simp [row?, Option.bind_eq_some_iff]

section

variable (accepted : ofElements elements = .ok dump)
include accepted

/-- The monikers of a node without their packages have the scheme and identifier of those with
them. -/
theorem mem_monikers_iff {id : VertexId} {scheme identifier : String} :
    (∃ moniker ∈ (dump.nodeOf id).monikers.filterMap (dump.monikers[·]?),
        moniker.scheme = scheme ∧ moniker.identifier = identifier) ↔
      ∃ moniker ∈ monikersAt elements id,
        moniker.scheme = scheme ∧ moniker.identifier = identifier := by
  have whole (named : VertexId) : Element.moniker? elements named =
      dump.monikers[named]?.map fun moniker =>
        { moniker with package := dump.monikerPackages[named]? } :=
    (moniker?_ofElements accepted named).symm
  simp only [monikersAt, ← nodeOf_ofElements accepted, List.mem_filterMap, whole,
    Option.map_eq_some_iff]
  constructor
  · rintro ⟨moniker, ⟨named, attached, found⟩, same⟩
    exact ⟨_, ⟨named, attached, moniker, found, rfl⟩, same⟩
  · rintro ⟨_, ⟨named, attached, moniker, found, rfl⟩, same⟩
    exact ⟨moniker, ⟨named, attached, found⟩, same⟩

theorem mem_rows : row ∈ dump.rows kind ↔ Row elements kind row := by
  simp only [mem_rows_iff_exists_node, mem_nodeRows, row?_eq_some_iff, ranges_ofElements accepted,
    rangeDocuments_ofElements accepted, documents_ofElements accepted]
  constructor
  · rintro ⟨node, items, plain, item, reached, attached, listed, range, document, uri, known,
      placed, addressed, rfl⟩
    obtain ⟨result, nearest, rfl⟩ := (chainItems?_eq_some_iff accepted kind node items).mp reached
    obtain ⟨moniker, attached, scheme, identifier⟩ :=
      (mem_monikers_iff accepted).mp ⟨plain, attached, rfl, rfl⟩
    rw [← scheme, ← identifier]
    exact .intro attached nearest (mem_rangesOf_itemsOf.mp listed) known placed addressed
  · intro due
    cases due with
    | @intro node result item document moniker range uri attached nearest listed known placed
        addressed =>
      obtain ⟨plain, attached, scheme, identifier⟩ :=
        (mem_monikers_iff accepted).mpr ⟨moniker, attached, rfl, rfl⟩
      exact ⟨node, itemsOf elements result, plain, item,
        (chainItems?_eq_some_iff accepted kind node _).mpr ⟨result, nearest, rfl⟩, attached,
        mem_rangesOf_itemsOf.mpr listed, range, document, uri, known, placed, addressed,
        by rw [scheme, identifier]⟩

/-- The rows of a dump are those that its elements give reason for, each once, and what is found
along a chain of any length is found within the bound on chains. -/
theorem rows_exact (kind : RowKind) :
    (∀ row, row ∈ dump.rows kind ↔ Row elements kind row) ∧
      (dump.rows kind).Nodup ∧
      ∀ fuel node items, dump.chainItems? kind fuel node = some items →
        dump.chainItems? kind (dump.links.size + 1) node = some items := by
  refine ⟨fun row => mem_rows accepted, ?_, ?_⟩
  · have different := pairwise_eraseDups (R := fun _ _ => True)
      (List.pairwise_of_forall
        (l := dump.attached.flatMap fun id => dump.nodeRows kind id (dump.nodeOf id))
        fun _ _ => trivial)
    rw [rows_eq]
    exact different.imp And.right
  · intro fuel node items reached
    cases fuel with
    | zero => cases reached
    | succ hops =>
        rw [chainItems?_eq_trail] at reached
        exact (dump.chainItems?_bound kind items node).mpr (Walk.finds_of_trail reached)

end

theorem rows_exact_sample :
    ∃ dump, ofElements walkSample = .ok dump ∧
      ⟨"tsc", "a:f", "file:///a.ts", ⟨⟨1, 4⟩, ⟨1, 7⟩⟩⟩ ∈ dump.rows .definitions ∧
      (dump.rows .definitions).Nodup := by
  have readable : (ofElements walkSample).isOk := by decide +kernel
  obtain ⟨dump, accepted⟩ := Success.isOk_iff.mp readable
  have exact := rows_exact accepted .definitions
  have attached : ⟨"tsc", "a:f", .exported, none⟩ ∈ monikersAt walkSample ⟨"2"⟩ := by
    decide +kernel
  -- the range names no result, the result set that it inherits from does
  have further : next? walkSample ⟨"2"⟩ = some ⟨"3"⟩ := by decide +kernel
  have nearest : Nearest walkSample .definitions ⟨"2"⟩ ⟨"4"⟩ :=
    .onward (by decide +kernel) further (.here (by decide +kernel))
  have listed : ⟨"2"⟩ ∈ Edge.itemsWith RowKind.definitions.counts
      (edgesFrom walkSample ⟨"4"⟩) := by decide +kernel
  have known : range? walkSample ⟨"2"⟩ = some ⟨⟨1, 4⟩, ⟨1, 7⟩⟩ := by decide +kernel
  have placed : Element.rangeDocument? walkSample ⟨"2"⟩ = some ⟨"1"⟩ := by decide +kernel
  have addressed : address? walkSample ⟨"1"⟩ = some "file:///a.ts" := by decide +kernel
  exact ⟨dump, accepted, (exact.1 _).mpr (.intro attached nearest listed known placed addressed),
    exact.2.1⟩

end Dump

end CodeNav
