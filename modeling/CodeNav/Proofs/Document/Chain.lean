/-
Module: CodeNav.Proofs.Document.Chain
Purpose: A walk with one hop for each result set misses nothing that a node inherits from.
Main exports:
  Chain.Reaches, Chain.IsWhole, Chain.walk_eq_trail, Document.mem_chain_iff,
  Document.chain_eq_of_isWhole, Document.chain_misses_nothing
-/
import CodeNav.Document.Chain
import CodeNav.Proofs.Dump.Answers
import Mathlib.Logic.Relation

namespace CodeNav

/-! ### Nodes along links -/

namespace Chain

variable {sets : Table ChainNode} {start node : ChainNode} {nodes : List ChainNode}

/-- A node is met from another along any number of links, none of which dangles. -/
abbrev Reaches (sets : Table ChainNode) : ChainNode → ChainNode → Prop :=
  Relation.ReflTransGen fun node next => successor? sets node = some next

/-- All nodes from a start on, one link apart, up to one that has no link or a dangling one. -/
structure IsWhole (sets : Table ChainNode) (start : ChainNode) (nodes : List ChainNode) :
    Prop where
  head : nodes.head? = some start
  linked : nodes.IsChain fun node next => successor? sets node = some next
  ends : nodes.getLast?.bind (successor? sets) = none

theorem walk_eq_trail (sets : Table ChainNode) (hops : Nat) (start : ChainNode) :
    walk sets hops start = Walk.trail (successor? sets) hops start := by
  induction hops generalizing start with
  | zero => rfl
  | succ hops ih =>
      unfold walk Walk.trail
      cases successor? sets start with
      | none => rfl
      | some next => simp only [ih]

/-- A node that is linked to is one of the result sets. -/
theorem mem_values_of_successor? {next : ChainNode} (links : successor? sets node = some next) :
    next ∈ sets.values := by
  obtain ⟨id, _, found⟩ := Option.bind_eq_some_iff.mp links
  exact Table.mem_values.mpr ⟨id, found⟩

/-- From every start there is a walk that meets each node once. -/
theorem exists_isWalk (sets : Table ChainNode) (start : ChainNode) :
    ∃ nodes, Walk.IsWalk (successor? sets) start nodes :=
  ⟨_, Walk.isWalk_walkFrom (fun _ _ links => mem_values_of_successor? links) start⟩

/-- Behind its start a walk meets result sets only, each at most once. -/
theorem length_le_of_isWalk (walked : Walk.IsWalk (successor? sets) start nodes) :
    nodes.length ≤ sets.size + 1 := by
  cases nodes with
  | nil => exact Nat.zero_le _
  | cons first rest =>
      obtain rfl : first = start := by simpa using walked.head
      have inherited : rest ⊆ sets.values := by
        intro other listed
        obtain ⟨node, _, links⟩ := walked.linked_to listed
        exact mem_values_of_successor? links
      have distinct := (List.nodup_cons.mp walked.nodup).2
      have shorter := (List.subperm_of_subset distinct inherited).length_le
      rw [Table.values_eq, List.length_map, Std.ExtTreeMap.length_toList] at shorter
      exact Nat.succ_le_succ shorter

theorem mem_isWalk_iff (walked : Walk.IsWalk (successor? sets) start nodes) :
    node ∈ nodes ↔ Reaches sets start node := by
  constructor
  · exact walked.mem_inside (fun _ _ reached links => reached.tail links) .refl
  · intro reached
    induction reached with
    | refl => exact List.mem_of_head? walked.head
    | tail _ links met => exact walked.closed _ met _ links

/-- A chain that comes to an end is what a walk meets: on a cycle every node has a successor. -/
theorem IsWhole.trail_eq (whole : IsWhole sets start nodes) {met : List ChainNode}
    (walked : Walk.IsWalk (successor? sets) start met) :
    nodes = met ∧ met.getLast?.bind (successor? sets) = none := by
  obtain ⟨rest, rfl⟩ : ∃ rest, nodes = start :: rest := List.head?_eq_some_iff.mp whole.head
  -- hops enough for both, so that one and the same trail is the chain and the walk
  have hops : (start :: rest).length ≤ rest.length + met.length + 1 := by
    rw [List.length_cons]
    omega
  have anywhere : ∀ node ∈ start :: rest, (fun _ : ChainNode => True) node := fun _ _ => trivial
  obtain ⟨_, followed, _, stops⟩ := Walk.trail_split (fun _ _ _ _ => trivial) whole.linked
    anywhere (Nat.le_of_succ_le_succ hops)
  obtain ⟨more, again, within, closes⟩ := walked.trail_eq
    (show met.length ≤ rest.length + met.length + 1 by omega)
  rw [stops whole.ends, List.append_nil] at followed
  have same : start :: rest = met ++ more := followed.symm.trans again
  have lastEnds : met.getLast?.bind (successor? sets) = none := by
    obtain ⟨before, last, split⟩ := List.eq_nil_or_concat (start :: rest) |>.resolve_left (by simp)
    have ends : successor? sets last = none := by simpa [split] using whole.ends
    have listed : last ∈ met := by
      have member : last ∈ met ++ more := by simp [← same, split]
      exact (List.mem_append.mp member).elim id (within last)
    have nonempty : met ≠ [] := List.ne_nil_of_mem listed
    rw [← List.dropLast_append_getLast nonempty, List.mem_append, List.mem_singleton] at listed
    rcases listed with early | rfl
    · obtain ⟨next, links⟩ := walked.links_of_mem_dropLast early
      simp [ends] at links
    · rw [List.getLast?_eq_some_getLast nonempty]
      exact ends
  rw [closes lastEnds, List.append_nil] at same
  exact ⟨same, lastEnds⟩

end Chain

/-! ### What is inherited -/

/-- What the result of a kind that a node carries stands for in a table. -/
def ResultKind.resolve? {α : Type} (kind : ResultKind) (table : Table α) (node : ChainNode) :
    Option α :=
  (kind.of node).bind fun id => table[id]?

namespace Document

variable {document : Document} {start node : ChainNode} {nodes : List ChainNode}

/-- The monikers that a node carries itself. -/
def monikersOf (document : Document) (node : ChainNode) : List Moniker :=
  node.monikers.filterMap fun id => document.monikers[id]?

/-- One hop for each result set is enough for every node that can be met. -/
theorem mem_chain_iff :
    node ∈ document.chain start ↔ Chain.Reaches document.resultSets start node := by
  obtain ⟨met, walked⟩ := Chain.exists_isWalk document.resultSets start
  obtain ⟨more, followed, again, _⟩ := walked.trail_eq (Chain.length_le_of_isWalk walked)
  rw [← Chain.mem_isWalk_iff walked, chain, Chain.walk_eq_trail, followed, List.mem_append]
  exact or_iff_left_of_imp (again node)

theorem chain_eq_of_isWhole (whole : Chain.IsWhole document.resultSets start nodes) :
    document.chain start = nodes := by
  obtain ⟨met, walked⟩ := Chain.exists_isWalk document.resultSets start
  obtain ⟨rfl, ends⟩ := whole.trail_eq walked
  obtain ⟨more, followed, _, stops⟩ := walked.trail_eq (Chain.length_le_of_isWalk walked)
  rw [chain, Chain.walk_eq_trail, followed, stops ends, List.append_nil]

theorem findResult?_eq_some_iff {α : Type} {table : Table α} {kind : ResultKind} {value : α} :
    document.findResult? table start kind = some value ↔
      Walk.Finds (Chain.successor? document.resultSets) (kind.resolve? table) start value := by
  obtain ⟨met, walked⟩ := Chain.exists_isWalk document.resultSets start
  rw [← walked.findSome?_eq_some_iff, ← walked.findSome?_trail (Chain.length_le_of_isWalk walked),
    ← Chain.walk_eq_trail]
  rfl

theorem findResult?_eq_none_iff {α : Type} {table : Table α} {kind : ResultKind} :
    document.findResult? table start kind = none ↔
      ∀ node, Chain.Reaches document.resultSets start node → kind.resolve? table node = none := by
  simp only [← mem_chain_iff]
  exact List.findSome?_eq_none_iff

theorem findMonikers_eq : document.findMonikers start =
    Moniker.sort ((document.chain start).flatMap document.monikersOf) :=
  rfl

theorem mem_findMonikers_iff {moniker : Moniker} :
    moniker ∈ document.findMonikers start ↔ ∃ node,
      Chain.Reaches document.resultSets start node ∧ moniker ∈ document.monikersOf node := by
  rw [findMonikers_eq, Moniker.sort, List.mem_mergeSort, List.mem_flatMap]
  simp only [mem_chain_iff]

/-- Whatever the result sets are, with cycles and dangling links, and whether or not the start is
one of them, the walk meets exactly the nodes that can be met.  So what is found is what the first
node along the links has that has anything, nothing is found only if no node has anything, and the
monikers are those of all nodes by rank.  Where the links come to an end, each node is met once, and
the monikers of one rank stand in the order of the nodes. -/
theorem chain_misses_nothing (document : Document) (start : ChainNode) :
    (∀ node, node ∈ document.chain start ↔ Chain.Reaches document.resultSets start node) ∧
    (∀ {α : Type} (table : Table α) (kind : ResultKind),
      (∀ value, document.findResult? table start kind = some value ↔
        Walk.Finds (Chain.successor? document.resultSets) (kind.resolve? table) start value) ∧
      (document.findResult? table start kind = none ↔
        ∀ node, Chain.Reaches document.resultSets start node →
          kind.resolve? table node = none)) ∧
    (∀ moniker, moniker ∈ document.findMonikers start ↔
      ∃ node, Chain.Reaches document.resultSets start node ∧
        moniker ∈ document.monikersOf node) ∧
    (document.findMonikers start).Pairwise (fun a b => a.notAfter b) ∧
    ∀ nodes, Chain.IsWhole document.resultSets start nodes →
      document.chain start = nodes ∧
      document.findMonikers start = Moniker.inOrder (nodes.flatMap document.monikersOf) := by
  refine ⟨fun _ => mem_chain_iff, fun _ _ => ⟨fun _ => findResult?_eq_some_iff,
    findResult?_eq_none_iff⟩, fun _ => mem_findMonikers_iff, ?_, ?_⟩
  · exact List.pairwise_mergeSort Moniker.notAfter_trans Moniker.notAfter_total _
  · intro nodes whole
    have met := chain_eq_of_isWhole whole
    exact ⟨met, by rw [findMonikers_eq, met, Moniker.sort_eq_inOrder]⟩

/-- What the members of the sample carry: a link, a hover and a moniker. -/
def chainNode (next hover : Option VertexId) (moniker : VertexId) : ChainNode :=
  ⟨next, none, none, hover, [moniker]⟩

/-- Three result sets, each inheriting from the next; the last one links to `last` and has a
hover. -/
def chainSample (last : Option VertexId) : Document :=
  { empty with
    resultSets := ((((∅ : Table ChainNode).insert ⟨"2"⟩ (chainNode (some ⟨"3"⟩) none ⟨"m"⟩)).insert
      ⟨"3"⟩ (chainNode (some ⟨"4"⟩) none ⟨"n"⟩)).insert
      ⟨"4"⟩ (chainNode last (some ⟨"h"⟩) ⟨"m"⟩))
    monikers := ((∅ : Table Moniker).insert ⟨"m"⟩ ⟨"tsc", "m", .exported, none⟩).insert
      ⟨"n"⟩ ⟨"tsc", "n", .imported, none⟩
    hovers := (∅ : Table Hover).insert ⟨"h"⟩ ⟨.string "shown", none⟩ }

/-- The last result set is met from a start that is none of them. -/
theorem chain_misses_nothing_sample :
    let start := chainNode (some ⟨"2"⟩) none ⟨"n"⟩
    let document := chainSample (some ⟨"5"⟩)
    let nodes := [start, chainNode (some ⟨"3"⟩) none ⟨"m"⟩, chainNode (some ⟨"4"⟩) none ⟨"n"⟩,
      chainNode (some ⟨"5"⟩) (some ⟨"h"⟩) ⟨"m"⟩]
    Chain.IsWhole document.resultSets start nodes ∧
    document.chain start = nodes ∧
    (document.hover? start).map (·.contents) = some (.string "shown") ∧
    (document.findMonikers start).map (·.identifier) = ["n", "n", "m", "m"] := by
  intro start document nodes
  have whole : Chain.IsWhole document.resultSets start nodes :=
    ⟨rfl, by decide +kernel, by decide +kernel⟩
  obtain ⟨_, results, _, _, acyclic⟩ := chain_misses_nothing document start
  obtain ⟨met, monikers⟩ := acyclic nodes whole
  have toSecond : Chain.successor? document.resultSets start =
      some (chainNode (some ⟨"3"⟩) none ⟨"m"⟩) := by decide +kernel
  have toThird : Chain.successor? document.resultSets (chainNode (some ⟨"3"⟩) none ⟨"m"⟩) =
      some (chainNode (some ⟨"4"⟩) none ⟨"n"⟩) := by decide +kernel
  have toLast : Chain.successor? document.resultSets (chainNode (some ⟨"4"⟩) none ⟨"n"⟩) =
      some (chainNode (some ⟨"5"⟩) (some ⟨"h"⟩) ⟨"m"⟩) := by decide +kernel
  have hover := ((results document.hovers .hover).1 ⟨.string "shown", none⟩).mpr
    (.onward rfl toSecond (.onward rfl toThird (.onward rfl toLast (.here (by decide +kernel)))))
  refine ⟨whole, met, congrArg (Option.map _) hover, ?_⟩
  rw [monikers]
  decide +kernel

-- On a cycle the walk comes by its start again, and still ends.
example :
    let document := chainSample (some ⟨"2"⟩)
    let start := chainNode (some ⟨"2"⟩) none ⟨"n"⟩
    (document.chain start).map (·.next) =
      [some ⟨"2"⟩, some ⟨"3"⟩, some ⟨"4"⟩, some ⟨"2"⟩] := by
  decide +kernel

end Document

end CodeNav
