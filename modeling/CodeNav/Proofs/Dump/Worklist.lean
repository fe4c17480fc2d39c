/-
Module: CodeNav.Proofs.Dump.Worklist
Purpose: Looking for the result sets of a document ends, in whichever order they are looked at.
Main exports:
  Agenda.Step, Agenda.wellFounded_step, Dump.Inherits, Agenda.getElem?_visited_iff,
  Agenda.visited_eq_reachable
-/
import CodeNav.Proofs.Dump.Reach
import Mathlib.Logic.Relation

namespace CodeNav

namespace Dump

/-- The result set that a vertex inherits from. -/
def setAfter? (dump : Dump) (id : VertexId) : Option VertexId :=
  (dump.nodeOf id).next.filter dump.resultSets.contains

/-- A vertex is a result set that one of some vertices inherits from, directly or through others. -/
def Inherits (dump : Dump) (starts : List VertexId) (id : VertexId) : Prop :=
  ∃ start ∈ starts, Relation.TransGen (fun a b => dump.setAfter? a = some b) start id

section

variable {dump : Dump} {id next : VertexId}

theorem setAfter?_eq_some :
    dump.setAfter? id = some next ↔
      (dump.nodeOf id).next = some next ∧ dump.resultSets.contains next = true :=
  Option.filter_eq_some_iff

theorem Reaches.perm {wanted : VertexId → Prop} {pending others : List VertexId}
    {visited : Table ChainNode} (reaches : dump.Reaches wanted pending visited)
    (same : pending.Perm others) : dump.Reaches wanted others visited where
  entry := reaches.entry
  started id isWanted isSet := (reaches.started id isWanted isSet).imp_right same.mem_iff.mp
  closed id met next links isSet :=
    (reaches.closed id met next links isSet).imp_right same.mem_iff.mp

end

end Dump

/-- A stage of looking for result sets: what is still to be looked at, and what was found. -/
structure Agenda where
  pending : List VertexId
  visited : Table ChainNode

namespace Agenda

/-- One of the pending identifiers is looked at, whichever it is. -/
inductive Step (dump : Dump) : Agenda → Agenda → Prop where
  | skip {pending rest : List VertexId} {id : VertexId} {visited : Table ChainNode}
      (taken : pending.Perm (id :: rest))
      (passed : dump.resultSets.contains id = true → visited.contains id = true) :
      Step dump ⟨pending, visited⟩ ⟨rest, visited⟩
  | enter {pending rest : List VertexId} {id : VertexId} {visited : Table ChainNode}
      (taken : pending.Perm (id :: rest)) (unmet : visited.contains id = false)
      (isSet : dump.resultSets.contains id = true) :
      Step dump ⟨pending, visited⟩
        ⟨(dump.nodeOf id).next.toList ++ rest, visited.insert id (dump.nodeOf id)⟩

/-- Any number of steps. -/
abbrev Run (dump : Dump) : Agenda → Agenda → Prop :=
  Relation.ReflTransGen (Step dump)

/-- The stage at which some vertices have been looked at. -/
def start (dump : Dump) (starts : List VertexId) : Agenda :=
  ⟨(starts.map dump.nodeOf).filterMap (·.next), ∅⟩

/-- How much there is left to look at, at most. -/
def weight (dump : Dump) (agenda : Agenda) : Nat :=
  agenda.pending.length + (dump.unvisited agenda.visited).length

section

variable {dump : Dump} {before after : Agenda}

/-! ### A run ends -/

/-- A step enters a result set for the first time, or leaves one identifier fewer. -/
theorem Step.weight_lt (step : Step dump before after) :
    after.weight dump < before.weight dump := by
  cases step with
  | skip taken passed =>
      simp only [weight, taken.length_eq, List.length_cons]
      omega
  | @enter pending rest id visited taken unmet isSet =>
      have fewer := dump.unvisited_insert_lt (dump.nodeOf id) unmet isSet
      have one : (dump.nodeOf id).next.toList.length ≤ 1 := by
        cases (dump.nodeOf id).next <;> simp
      simp only [weight, taken.length_eq, List.length_cons, List.length_append]
      omega

/-- There is no endless run, even where result sets inherit from one another in a circle. -/
theorem wellFounded_step (dump : Dump) :
    WellFounded fun after before => Step dump before after :=
  Subrelation.wf (fun step => step.weight_lt) (InvImage.wf (weight dump) Nat.lt_wfRel.wf)

/-- As long as something is pending there is a step. -/
theorem exists_step (dump : Dump) (id : VertexId) (pending : List VertexId)
    (visited : Table ChainNode) : ∃ after, Step dump ⟨id :: pending, visited⟩ after := by
  by_cases passed : dump.resultSets.contains id = true → visited.contains id = true
  · exact ⟨_, .skip (.refl _) passed⟩
  · obtain ⟨isSet, unmet⟩ := Classical.not_imp.mp passed
    exact ⟨_, .enter (.refl _) (Bool.eq_false_iff.mpr unmet) isSet⟩

theorem pending_eq_nil {last : Agenda} (final : ∀ after, ¬Step dump last after) :
    last.pending = [] := by
  obtain ⟨pending, visited⟩ := last
  cases pending with
  | nil => rfl
  | cons id pending =>
      obtain ⟨after, step⟩ := exists_step dump id pending visited
      exact absurd step (final after)

/-! ### What holds throughout a run -/

theorem Step.reaches {wanted : VertexId → Prop} (step : Step dump before after)
    (reaches : dump.Reaches wanted before.pending before.visited) :
    dump.Reaches wanted after.pending after.visited := by
  cases step with
  | skip taken passed => exact (reaches.perm taken).skip passed
  | enter taken unmet isSet => exact (reaches.perm taken).enter isSet

theorem Run.reaches {wanted : VertexId → Prop} (run : Run dump before after)
    (reaches : dump.Reaches wanted before.pending before.visited) :
    dump.Reaches wanted after.pending after.visited := by
  induction run with
  | refl => exact reaches
  | tail _ step ih => exact step.reaches ih

/-- All that was found lies inside a set, and so do the result sets that are pending. -/
structure Inside (dump : Dump) (inside : VertexId → Prop) (agenda : Agenda) : Prop where
  visited : ∀ id, agenda.visited.contains id = true → inside id
  pending : ∀ id ∈ agenda.pending, dump.resultSets.contains id = true → inside id

theorem Step.inside {inside : VertexId → Prop} (step : Step dump before after)
    (closed : ∀ id, inside id → ∀ next, dump.setAfter? id = some next → inside next)
    (kept : before.Inside dump inside) : after.Inside dump inside := by
  cases step with
  | skip taken passed =>
      refine ⟨kept.visited, fun other listed isSet => ?_⟩
      exact kept.pending other (taken.mem_iff.mpr (List.mem_cons_of_mem _ listed)) isSet
  | @enter pending rest id visited taken unmet isSet =>
      have here : inside id := kept.pending id (taken.mem_iff.mpr List.mem_cons_self) isSet
      refine ⟨fun other met => ?_, fun other listed known => ?_⟩
      · by_cases same : id = other
        · exact same ▸ here
        · exact kept.visited other (by simpa [Std.ExtTreeMap.contains_insert, same] using met)
      · rcases List.mem_append.mp listed with next | listed
        · exact closed id here other (Dump.setAfter?_eq_some.mpr ⟨Option.mem_toList.mp next, known⟩)
        · exact kept.pending other (taken.mem_iff.mpr (List.mem_cons_of_mem _ listed)) known

theorem Run.inside {inside : VertexId → Prop} (run : Run dump before after)
    (closed : ∀ id, inside id → ∀ next, dump.setAfter? id = some next → inside next)
    (kept : before.Inside dump inside) : after.Inside dump inside := by
  induction run with
  | refl => exact kept
  | tail _ step ih => exact step.inside closed ih

/-! ### What a run ends with -/

theorem mem_pending_start {starts : List VertexId} {id : VertexId} :
    id ∈ (start dump starts).pending ↔ ∃ first ∈ starts, (dump.nodeOf first).next = some id := by
  simp [start]

/-- Whichever order it takes, a run that has ended has found the result sets that are inherited
from, each with its links, and nothing else. -/
theorem getElem?_visited_iff {starts : List VertexId} {visited : Table ChainNode}
    (run : Run dump (start dump starts) ⟨[], visited⟩) (id : VertexId) (node : ChainNode) :
    visited[id]? = some node ↔ dump.Inherits starts id ∧ node = dump.nodeOf id := by
  have reaches : dump.Reaches (fun id => ∃ first ∈ starts, (dump.nodeOf first).next = some id) []
      visited := by
    apply run.reaches
    exact ⟨by simp [start], fun id isWanted _ => .inr (mem_pending_start.mpr isWanted),
      by simp [start]⟩
  have inside : Inside dump (dump.Inherits starts) ⟨[], visited⟩ := by
    apply run.inside
    · rintro id ⟨first, listed, path⟩ next links
      exact ⟨first, listed, path.tail links⟩
    · refine ⟨by simp [start], fun id pending isSet => ?_⟩
      obtain ⟨first, listed, links⟩ := mem_pending_start.mp pending
      exact ⟨first, listed, .single (Dump.setAfter?_eq_some.mpr ⟨links, isSet⟩)⟩
  constructor
  · intro found
    have met : visited.contains id = true := by
      rw [Std.ExtTreeMap.contains_eq_isSome_getElem?, found]
      rfl
    exact ⟨inside.visited id met, (reaches.entry id node found).2⟩
  · rintro ⟨⟨first, listed, path⟩, rfl⟩
    have met : visited.contains id = true := by
      induction path with
      | single links =>
          obtain ⟨links, isSet⟩ := Dump.setAfter?_eq_some.mp links
          exact (reaches.started _ ⟨first, listed, links⟩ isSet).resolve_right (by simp)
      | tail _ links ih =>
          obtain ⟨links, isSet⟩ := Dump.setAfter?_eq_some.mp links
          exact (reaches.closed _ ih _ links isSet).resolve_right (by simp)
    obtain ⟨node, found⟩ := Option.isSome_iff_exists.mp
      (Std.ExtTreeMap.contains_eq_isSome_getElem?.symm.trans met)
    rw [found, (reaches.entry id node found).2]

end

end Agenda

namespace Dump

variable {dump : Dump}

/-- The bound on the number of steps is never what ends the search. -/
theorem run_reach (fuel : Nat) (pending : List VertexId) (visited : Table ChainNode)
    (enough : pending.length + (dump.unvisited visited).length ≤ fuel) :
    Agenda.Run dump ⟨pending, visited⟩ ⟨[], dump.reach fuel pending visited⟩ := by
  refine reach_induction (P := fun pending visited last =>
    Agenda.Run dump ⟨pending, visited⟩ ⟨[], last⟩) ?_ ?_ ?_ enough
  · exact fun _ => .refl
  · exact fun _ _ _ _ passed run => .head (.skip (.refl _) passed) run
  · exact fun _ _ _ _ unmet isSet run => .head (.enter (.refl _) unmet isSet) run

theorem run_reachable (dump : Dump) (starts : List VertexId) :
    Agenda.Run dump (.start dump starts) ⟨[], dump.reachable (starts.map dump.nodeOf)⟩ := by
  apply run_reach
  have all := dump.length_unvisited_le ∅
  omega

end Dump

/-- Every run that cannot go on has found the same. -/
theorem Agenda.visited_eq_reachable {dump : Dump} {starts : List VertexId} {last : Agenda}
    (run : Run dump (start dump starts) last) (final : ∀ after, ¬Step dump last after) :
    last.visited = dump.reachable (starts.map dump.nodeOf) := by
  obtain ⟨pending, visited⟩ := last
  obtain rfl : pending = [] := pending_eq_nil final
  apply Std.ExtTreeMap.ext_getElem?
  intro id
  apply Option.ext
  intro node
  rw [getElem?_visited_iff run, getElem?_visited_iff (dump.run_reachable starts)]

end CodeNav
