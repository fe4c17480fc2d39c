/-
Module: CodeNav.Proofs.Walk
Purpose: Walks along links from node to node, which end or come back to a node met before.
Main exports:
  Walk.trail, Walk.walkFrom, Walk.IsWalk, Walk.isWalk_walkFrom, Walk.IsWalk.trail_eq,
  Walk.Finds, Walk.IsWalk.findSome?_eq_some_iff
-/
import Mathlib.Data.List.Chain
import Mathlib.Data.List.Nodup

namespace CodeNav.Walk

variable {α : Type} {link : α → Option α}

/-- The nodes met from a node along at most `hops` links. -/
def trail (link : α → Option α) : Nat → α → List α
  | 0, node => [node]
  | hops + 1, node =>
    match link node with
    | none => [node]
    | some next => node :: trail link hops next

/-- The nodes met from a node until one would be met again, where those in `seen` count as met;
`fuel` bounds the links. -/
def walkFrom [DecidableEq α] (link : α → Option α) : Nat → List α → α → List α
  | 0, _, node => [node]
  | fuel + 1, seen, node =>
    match link node with
    | none => [node]
    | some next =>
      if next ∈ node :: seen then [node] else node :: walkFrom link fuel (node :: seen) next

/-- The nodes met from a node, each once: no node links to one outside. -/
structure IsWalk (link : α → Option α) (node : α) (nodes : List α) : Prop where
  head : nodes.head? = some node
  linked : nodes.IsChain fun a b => link a = some b
  nodup : nodes.Nodup
  closed : ∀ a ∈ nodes, ∀ b, link a = some b → b ∈ nodes

/-! ### Walks with enough fuel -/

/-- What is met from a node behind those seen: enough fuel lets the walk go on as long as there is
a new node. -/
structure Continues (link : α → Option α) (seen : List α) (node : α) (nodes : List α) : Prop where
  head : nodes.head? = some node
  linked : nodes.IsChain fun a b => link a = some b
  nodup : nodes.Nodup
  unseen : ∀ a ∈ nodes, a ∉ seen
  closed : ∀ a ∈ nodes, ∀ b, link a = some b → b ∈ nodes ∨ b ∈ seen

theorem Continues.single {seen : List α} {node : α} (fresh : node ∉ seen)
    (ends : ∀ next, link node = some next → next ∈ node :: seen) :
    Continues link seen node [node] where
  head := rfl
  linked := .singleton node
  nodup := List.nodup_singleton node
  unseen := by simpa using fresh
  closed := by simpa using ends

theorem Continues.cons {seen nodes : List α} {node next : α} (fresh : node ∉ seen)
    (links : link node = some next) (rest : Continues link (node :: seen) next nodes) :
    Continues link seen node (node :: nodes) where
  head := rfl
  linked := by
    refine .cons rest.linked ?_
    intro b first
    rw [rest.head] at first
    cases first
    exact links
  nodup := by
    refine List.nodup_cons.mpr ⟨?_, rest.nodup⟩
    intro again
    exact rest.unseen node again List.mem_cons_self
  unseen := by
    intro a member
    rcases List.mem_cons.mp member with rfl | member
    · exact fresh
    · exact fun seenBefore => rest.unseen a member (List.mem_cons_of_mem node seenBefore)
  closed := by
    intro a member b linked
    rcases List.mem_cons.mp member with rfl | member
    · rw [links] at linked
      cases linked
      exact .inl (List.mem_cons_of_mem a (List.mem_of_head? rest.head))
    · rcases rest.closed a member b linked with listed | seenBefore
      · exact .inl (List.mem_cons_of_mem node listed)
      · rcases List.mem_cons.mp seenBefore with rfl | seenBefore
        · exact .inl List.mem_cons_self
        · exact .inr seenBefore

/-- As many links as there are nodes to be linked to, those seen apart, are enough. -/
theorem continues_walkFrom [DecidableEq α] {all : List α} (linked : ∀ a b, link a = some b → b ∈ all)
    (fuel : Nat) (seen : List α) (node : α) (fresh : node ∉ seen)
    (enough : (all.filter (· ∉ node :: seen)).length ≤ fuel) :
    Continues link seen node (walkFrom link fuel seen node) := by
  induction fuel generalizing seen node with
  | zero =>
      refine .single fresh fun next links => ?_
      have none := List.filter_eq_nil_iff.mp (List.length_eq_zero_iff.mp (Nat.le_zero.mp enough))
      simpa only [decide_not, Bool.not_eq_true', Bool.not_eq_false, decide_eq_true_eq] using
        none next (linked node next links)
  | succ fuel ih =>
      unfold walkFrom
      cases links : link node with
      | none => exact .single fresh fun next linked => by simp [links] at linked
      | some next =>
          by_cases met : next ∈ node :: seen
          · simp only [met, if_true]
            refine .single fresh fun other linked => ?_
            rw [links] at linked
            cases linked
            exact met
          · simp only [met, if_false]
            refine .cons fresh links (ih (node :: seen) next met ?_)
            -- the next node is among those not seen before, and is seen from now on
            have narrowed : all.filter (· ∉ next :: node :: seen) =
                (all.filter (· ∉ node :: seen)).filter (· ≠ next) := by
              rw [List.filter_filter]
              apply List.filter_congr
              intro a _
              simp [not_or]
            have fewer : ((all.filter (· ∉ node :: seen)).filter (· ≠ next)).length <
                (all.filter (· ∉ node :: seen)).length := by
              apply List.length_filter_lt_length_iff_exists.mpr
              exact ⟨next, by simpa [linked node next links] using met, by simp⟩
            rw [narrowed]
            omega

theorem isWalk_walkFrom [DecidableEq α] {all : List α}
    (linked : ∀ a b, link a = some b → b ∈ all) (node : α) :
    IsWalk link node (walkFrom link all.length [] node) := by
  have walked := continues_walkFrom linked all.length [] node (by simp) (List.length_filter_le _ _)
  exact ⟨walked.head, walked.linked, walked.nodup, fun a member b links =>
    (walked.closed a member b links).resolve_right (by simp)⟩

/-! ### Trails with enough hops -/

/-- A trail stays inside a set that no link leaves. -/
theorem mem_trail {inside : α → Prop} (closed : ∀ a b, inside a → link a = some b → inside b)
    {hops : Nat} {node other : α} (member : inside node) (listed : other ∈ trail link hops node) :
    inside other := by
  induction hops generalizing node with
  | zero => simp_all [trail]
  | succ hops ih =>
      unfold trail at listed
      cases links : link node with
      | none => simp_all
      | some next =>
          simp only [links, List.mem_cons] at listed
          rcases listed with rfl | listed
          · exact member
          · exact ih (closed node next member links) listed

/-- A trail with enough hops follows linked nodes to the last one, and goes on from there only if
there is a link. -/
theorem trail_split {inside : α → Prop} (closed : ∀ a b, inside a → link a = some b → inside b)
    {node : α} {rest : List α} (linked : (node :: rest).IsChain fun a b => link a = some b)
    (member : ∀ a ∈ node :: rest, inside a) {hops : Nat} (enough : rest.length ≤ hops) :
    ∃ more, trail link hops node = node :: rest ++ more ∧ (∀ a ∈ more, inside a) ∧
      ((node :: rest).getLast?.bind link = none → more = []) := by
  induction rest generalizing node hops with
  | nil =>
      cases hops with
      | zero => exact ⟨[], by simp [trail]⟩
      | succ hops =>
          cases links : link node with
          | none => exact ⟨[], by simp [trail, links]⟩
          | some next =>
              refine ⟨trail link hops next, by simp [trail, links], ?_, by simp [links]⟩
              intro a listed
              exact mem_trail closed (closed node next (member node (by simp)) links) listed
  | cons next rest ih =>
      obtain ⟨links, linked⟩ := List.isChain_cons_cons.mp linked
      obtain ⟨hops, rfl⟩ : ∃ fewer, hops = fewer + 1 :=
        ⟨hops - 1, by simp only [List.length_cons] at enough; omega⟩
      obtain ⟨more, followed, inMore, ends⟩ := ih linked
        (fun a listed => member a (List.mem_cons_of_mem node listed))
        (Nat.le_of_succ_le_succ enough)
      refine ⟨more, by simp [trail, links, followed], inMore, ?_⟩
      simpa [List.getLast?_cons_cons] using ends

/-- A trail of enough hops is the walk, and on a cycle some of its nodes again. -/
theorem IsWalk.trail_eq {node : α} {nodes : List α} (walk : IsWalk link node nodes) {hops : Nat}
    (enough : nodes.length ≤ hops + 1) :
    ∃ more, trail link hops node = nodes ++ more ∧ (∀ a ∈ more, a ∈ nodes) ∧
      (nodes.getLast?.bind link = none → more = []) := by
  cases nodes with
  | nil => simpa using walk.head
  | cons first rest =>
      obtain rfl : first = node := by simpa using walk.head
      have closed (a b : α) (member : a ∈ first :: rest) (links : link a = some b) :
          b ∈ first :: rest := walk.closed a member b links
      exact trail_split closed walk.linked (fun a => id) (Nat.le_of_succ_le_succ enough)

/-- A walk stays inside a set that no link leaves. -/
theorem IsWalk.mem_inside {node other : α} {nodes : List α} (walk : IsWalk link node nodes)
    {inside : α → Prop} (closed : ∀ a b, inside a → link a = some b → inside b)
    (member : inside node) (listed : other ∈ nodes) : inside other := by
  obtain ⟨more, followed, _⟩ := walk.trail_eq (Nat.le_succ nodes.length)
  exact mem_trail closed member (followed ▸ List.mem_append_left more listed)

/-- What is found first on a trail of enough hops is found first on the walk. -/
theorem IsWalk.findSome?_trail {β : Type} {node : α} {nodes : List α}
    (walk : IsWalk link node nodes) {hops : Nat} (enough : nodes.length ≤ hops + 1)
    (find : α → Option β) :
    (trail link hops node).findSome? find = nodes.findSome? find := by
  obtain ⟨more, followed, again, _⟩ := walk.trail_eq enough
  rw [followed, List.findSome?_append]
  cases found : nodes.findSome? find with
  | some value => rfl
  | none =>
      have nowhere := List.findSome?_eq_none_iff.mp found
      exact List.findSome?_eq_none_iff.mpr fun a listed => nowhere a (again a listed)

/-- The nodes of a walk behind the first one are linked to. -/
theorem IsWalk.linked_to {node other : α} {rest : List α} (walk : IsWalk link node (node :: rest))
    (member : other ∈ rest) : ∃ a ∈ node :: rest, link a = some other := by
  have linked := walk.linked
  clear walk
  induction rest generalizing node with
  | nil => cases member
  | cons next rest ih =>
      obtain ⟨links, linked⟩ := List.isChain_cons_cons.mp linked
      rcases List.mem_cons.mp member with rfl | member
      · exact ⟨node, List.mem_cons_self, links⟩
      · obtain ⟨a, listed, leads⟩ := ih member linked
        exact ⟨a, List.mem_cons_of_mem node listed, leads⟩

/-- Every node of a walk but the last one links on. -/
theorem IsWalk.links_of_mem_dropLast {node other : α} {nodes : List α}
    (walk : IsWalk link node nodes) (listed : other ∈ nodes.dropLast) :
    ∃ next, link other = some next := by
  have linked := walk.linked
  clear walk
  induction nodes with
  | nil => cases listed
  | cons first rest ih =>
      cases rest with
      | nil => cases listed
      | cons second rest =>
          obtain ⟨links, linked⟩ := List.isChain_cons_cons.mp linked
          rcases List.mem_cons.mp (List.dropLast_cons_cons ▸ listed) with rfl | listed
          · exact ⟨second, links⟩
          · exact ih listed linked

/-! ### What is found first -/

section Finds

variable {β : Type} {at? : α → Option β} {node : α} {value : β}

/-- What is found from a node: what is at the first node along its links that has something. -/
inductive Finds (link : α → Option α) (at? : α → Option β) : α → β → Prop where
  | here {node : α} {value : β} (found : at? node = some value) : Finds link at? node value
  | onward {node next : α} {value : β} (nothing : at? node = none) (links : link node = some next)
      (later : Finds link at? next value) : Finds link at? node value

/-- What is found on a trail is found along the links. -/
theorem finds_of_trail {hops : Nat} (found : (trail link hops node).findSome? at? = some value) :
    Finds link at? node value := by
  induction hops generalizing node with
  | zero => exact .here (by simpa [trail] using found)
  | succ hops ih =>
      unfold trail at found
      cases links : link node with
      | none => exact .here (by simpa [links] using found)
      | some next =>
          simp only [links, List.findSome?_cons] at found
          cases own : at? node with
          | none => exact .onward own links (ih (by simpa [own] using found))
          | some other =>
              simp only [own] at found
              exact .here (own.trans found)

/-- What is found along the links is found on every trail that is long enough. -/
theorem Finds.exists_hops (finds : Finds link at? node value) :
    ∃ enough, ∀ hops, enough ≤ hops → (trail link hops node).findSome? at? = some value := by
  induction finds with
  | here found =>
      refine ⟨0, fun hops _ => ?_⟩
      cases hops with
      | zero => simpa [trail] using found
      | succ hops =>
          unfold trail
          split <;> simp [found]
  | onward nothing links _ ih =>
      obtain ⟨enough, found⟩ := ih
      refine ⟨enough + 1, fun hops more => ?_⟩
      obtain ⟨fewer, rfl⟩ : ∃ fewer, hops = fewer + 1 := ⟨hops - 1, by omega⟩
      simp only [trail, links, List.findSome?_cons, nothing]
      exact found fewer (by omega)

/-- A walk finds what is found along the links. -/
theorem IsWalk.findSome?_eq_some_iff {nodes : List α} (walk : IsWalk link node nodes) :
    nodes.findSome? at? = some value ↔ Finds link at? node value := by
  constructor
  · intro found
    rw [← walk.findSome?_trail (Nat.le_succ nodes.length)] at found
    exact finds_of_trail found
  · intro finds
    obtain ⟨enough, found⟩ := finds.exists_hops
    have long : nodes.length ≤ enough + nodes.length + 1 := by omega
    rw [← walk.findSome?_trail long]
    exact found (enough + nodes.length) (Nat.le_add_right _ _)

/-- One thing is found at most. -/
theorem Finds.unique {other : β} (first : Finds link at? node value)
    (second : Finds link at? node other) : value = other := by
  induction first with
  | here found =>
      cases second with
      | here again => exact Option.some.inj (found.symm.trans again)
      | onward nothing _ _ => simp [nothing] at found
  | onward nothing links _ ih =>
      cases second with
      | here found => simp [nothing] at found
      | onward _ again later =>
          obtain rfl := Option.some.inj (links.symm.trans again)
          exact ih later

/-- What is made of the things at nodes is made of what is found. -/
theorem finds_map {γ : Type} {make : β → γ} {made : γ} :
    Finds link (fun node => (at? node).map make) node made ↔
      ∃ value, Finds link at? node value ∧ make value = made := by
  constructor
  · intro finds
    induction finds with
    | here found =>
        obtain ⟨value, own, made⟩ := Option.map_eq_some_iff.mp found
        exact ⟨value, .here own, made⟩
    | onward nothing links _ ih =>
        obtain ⟨value, later, made⟩ := ih
        exact ⟨value, .onward (Option.map_eq_none_iff.mp nothing) links later, made⟩
  · rintro ⟨value, finds, rfl⟩
    induction finds with
    | here found => exact .here (by simp [found])
    | onward nothing links _ ih => exact .onward (by simp [nothing]) links ih

end Finds

end CodeNav.Walk
