/-
Module: CodeNav.Proofs.Cache.Saturation
Purpose: When a cache keeps account of the weight that it holds, for weights of any size.
Main exports:
  WeightedCache.held, WeightedCache.Tells, WeightedCache.Bears, WeightedCache.Sane,
  WeightedCache.tells_act_iff, WeightedCache.tells_throughout_iff
-/
import CodeNav.Proofs.Cache.Recency

namespace CodeNav.WeightedCache

variable {κ α : Type}

/-! ### What is held, and what is told -/

/-- The weight of all entries of a cache. -/
def held (cache : WeightedCache κ α) : Nat :=
  Recency.weight cache.entries

/-- A cache tells the weight of its entries, up to the greatest weight there is. -/
def Tells (cache : WeightedCache κ α) : Prop :=
  cache.totalWeight = min cache.held maxWord

/-- The weight that a call brings. -/
def Action.added : Action κ α → Nat
  | insert _ _ weight => weight
  | _ => 0

variable [DecidableEq κ]

/-- The weight under a key; nothing weighs nothing. -/
def weightUnder (cache : WeightedCache κ α) (key : κ) : Nat :=
  ((cache.find? key).map (·.weight)).getD 0

/-- The weight that a call takes out by itself: what it replaces or removes. -/
def released (cache : WeightedCache κ α) : Action κ α → Nat
  | .insert key _ _ => cache.weightUnder key
  | .remove key => cache.weightUnder key
  | .removeWhere condition => Recency.weight (cache.entries.filter (condition ·.key))
  | _ => 0

/-- A call that a cache bears. Less may leave than comes while more is held than can be told, and
more may be held than can be told if that is within the bound. Once nothing of weight is left there
is nothing to be told. -/
def Bears (cache : WeightedCache κ α) (action : Action κ α) : Prop :=
  (cache.held ≤ maxWord ∨ cache.released action ≤ action.added) ∧
      (cache.held - cache.released action + action.added ≤ maxWord ∨ cache.maxWeight = maxWord) ∨
    (cache.act action).2.held = 0

/-- What is true of a cache whatever weights are brought to it: it never tells more than it holds,
and what it tells is within the bound unless there is a single entry. -/
structure Sane (cache : WeightedCache κ α) : Prop where
  distinct : cache.Distinct
  limit : cache.maxWeight ≤ maxWord
  words : ∀ entry ∈ cache.entries, entry.weight ≤ maxWord
  atMost : cache.totalWeight ≤ min cache.held maxWord
  soft : cache.totalWeight ≤ cache.maxWeight ∨ cache.size ≤ 1

omit [DecidableEq κ] in
theorem sane_empty {most : Nat} (limit : most ≤ maxWord) :
    (empty most : WeightedCache κ α).Sane where
  distinct := distinct_empty most
  limit := limit
  words := by simp [empty]
  atMost := Nat.zero_le _
  soft := .inl (Nat.zero_le _)

/-! ### How a call changes the account -/

/-- How a call changes what is held and what is told: some weight is pushed out behind it. -/
structure Changed (cache : WeightedCache κ α) (action : Action κ α) (after : WeightedCache κ α)
    (pushed : Nat) : Prop where
  limit : after.maxWeight = cache.maxWeight
  within : cache.released action ≤ cache.held
  small : action.added = 0 ∨ cache.released action ≤ maxWord
  held : after.held + pushed = cache.held - cache.released action + action.added
  told : after.totalWeight =
    min (cache.totalWeight - cache.released action + action.added) maxWord - pushed
  needed : pushed = 0 ∨
    cache.maxWeight < min (cache.totalWeight - cache.released action + action.added) maxWord
  enough : action.added = 0 ∧ pushed = 0 ∨ after.totalWeight ≤ cache.maxWeight ∨
    pushed = cache.held - cache.released action
  soft : after.totalWeight ≤ cache.maxWeight ∨ after.size ≤ 1

variable {cache : WeightedCache κ α}

/-- A call that brings nothing pushes nothing out. -/
theorem Changed.of_kept (sane : cache.Sane) {action : Action κ α} {after : WeightedCache κ α}
    (brings : action.added = 0) (limit : after.maxWeight = cache.maxWeight)
    (held : cache.held = cache.released action + after.held)
    (told : after.totalWeight = cache.totalWeight - cache.released action)
    (size : after.size ≤ cache.size) : Changed cache action after 0 where
  limit := limit
  within := by omega
  small := .inl brings
  held := by omega
  told := by
    have atMost := sane.atMost
    rw [told, brings]
    omega
  needed := .inl rfl
  enough := .inl ⟨brings, rfl⟩
  soft := by
    have soft := sane.soft
    omega

theorem weightUnder_le (words : ∀ entry ∈ cache.entries, entry.weight ≤ maxWord) (key : κ) :
    cache.weightUnder key ≤ maxWord := by
  unfold weightUnder
  cases found : cache.find? key with
  | none => exact Nat.zero_le _
  | some entry => exact words entry (mem_of_find? found).1

theorem held_eq_add_others (distinct : cache.Distinct) (key : κ) :
    cache.held = cache.weightUnder key + (cache.remove key).2.held := by
  unfold held weightUnder remove
  cases found : cache.find? key with
  | none => exact (Nat.zero_add _).symm
  | some entry =>
      rw [Recency.weight_perm (perm_others distinct found), Recency.weight_cons]
      rfl

theorem totalWeight_remove (cache : WeightedCache κ α) (key : κ) :
    (cache.remove key).2.totalWeight = cache.totalWeight - cache.weightUnder key := by
  unfold weightUnder remove
  cases cache.find? key <;> rfl

theorem maxWeight_remove (cache : WeightedCache κ α) (key : κ) :
    (cache.remove key).2.maxWeight = cache.maxWeight := by
  unfold remove
  cases cache.find? key <;> rfl

theorem size_remove_le (cache : WeightedCache κ α) (key : κ) :
    (cache.remove key).2.size ≤ cache.size := by
  unfold size remove
  cases cache.find? key with
  | none => exact Nat.le_refl _
  | some entry => exact List.length_filter_le _ _

theorem perm_get (distinct : cache.Distinct) (key : κ) :
    (cache.get key).2.entries.Perm cache.entries := by
  unfold get
  cases found : cache.find? key with
  | none => exact .refl _
  | some entry => exact (perm_others distinct found).symm

theorem Changed.get (sane : cache.Sane) (key : κ) :
    Changed cache (.get key) (cache.get key).2 0 := by
  have perm := perm_get sane.distinct key
  have told : (cache.get key).2.totalWeight = cache.totalWeight ∧
      (cache.get key).2.maxWeight = cache.maxWeight := by
    unfold WeightedCache.get
    cases cache.find? key <;> exact ⟨rfl, rfl⟩
  refine .of_kept sane rfl told.2 ?_ told.1 (Nat.le_of_eq perm.length_eq)
  unfold WeightedCache.held released
  rw [Recency.weight_perm perm, Nat.zero_add]

theorem Changed.remove (sane : cache.Sane) (key : κ) :
    Changed cache (.remove key) (cache.remove key).2 0 :=
  .of_kept sane rfl (cache.maxWeight_remove key) (held_eq_add_others sane.distinct key)
    (cache.totalWeight_remove key) (cache.size_remove_le key)

theorem Changed.removeWhere (sane : cache.Sane) (condition : κ → Bool) :
    Changed cache (.removeWhere condition) (cache.removeWhere condition).2 0 := by
  have parts := List.filter_append_perm (fun entry : Weighted κ α => condition entry.key)
    cache.entries
  refine .of_kept sane rfl rfl ?_ (foldl_sub _ _) (List.length_filter_le _ _)
  unfold WeightedCache.held released
  rw [← Recency.weight_perm parts, Recency.weight_append]
  rfl

omit [DecidableEq κ] in
/-- The loop of an insertion takes off what it drops. It drops nothing that is within the bound,
and ends within the bound or with a single entry. -/
theorem shrink_told (most total : Nat) (entries : List (Weighted κ α)) :
    let shrunk := shrink most total entries
    shrunk.2.2 = total - Recency.weight shrunk.1 ∧ (shrunk.1 = [] ∨ most < total) ∧
      (shrunk.2.2 ≤ most ∨ shrunk.2.1.length ≤ 1) := by
  induction entries generalizing total with
  | nil => exact ⟨rfl, .inl rfl, .inr (Nat.zero_le 1)⟩
  | cons oldest others ih =>
      cases others with
      | nil => exact ⟨rfl, .inl rfl, .inr (Nat.le_refl 1)⟩
      | cons next others =>
          unfold shrink
          split
          · rename_i heavy
            obtain ⟨told, _, ended⟩ := ih (total - oldest.weight)
            refine ⟨?_, .inr heavy, ended⟩
            rw [Recency.weight_cons, ← Nat.sub_sub]
            exact told
          · rename_i light
            exact ⟨rfl, .inl rfl, .inl (Nat.le_of_not_lt light)⟩

theorem Changed.insert (sane : cache.Sane) (key : κ) (value : α) (weight : Nat) :
    ∃ pushed, Changed cache (.insert key value weight) (cache.insert key value weight).2
      pushed := by
  let removed := (cache.remove key).2
  let entry : Weighted κ α := ⟨key, value, weight⟩
  let told := addWeight removed.totalWeight weight
  let shrunk := shrink removed.maxWeight told (entry :: removed.entries).reverse
  obtain ⟨left, needed, ended⟩ : shrunk.2.2 = told - Recency.weight shrunk.1 ∧
      (shrunk.1 = [] ∨ removed.maxWeight < told) ∧
      (shrunk.2.2 ≤ removed.maxWeight ∨ shrunk.2.1.length ≤ 1) :=
    shrink_told removed.maxWeight told (entry :: removed.entries).reverse
  obtain ⟨split, last⟩ : (entry :: removed.entries).reverse = shrunk.1 ++ shrunk.2.1 ∧
      shrunk.2.1.getLast? = (entry :: removed.entries).reverse.getLast? :=
    shrink_split removed.maxWeight told (entry :: removed.entries).reverse
  have limit : removed.maxWeight = cache.maxWeight := cache.maxWeight_remove key
  have before : cache.held = cache.weightUnder key + removed.held :=
    held_eq_add_others sane.distinct key
  have sum : told = min (cache.totalWeight - cache.weightUnder key + weight) maxWord := by
    unfold told addWeight
    rw [cache.totalWeight_remove key]
  have all : weight + removed.held = Recency.weight shrunk.1 + Recency.weight shrunk.2.1 := by
    rw [← Recency.weight_append, ← split, Recency.weight_perm (List.reverse_perm _)]
    rfl
  have stays : entry ∈ shrunk.2.1 := by
    apply List.mem_of_getLast?
    rw [last]
    simp
  have after : (cache.insert key value weight).2.held = Recency.weight shrunk.2.1 :=
    Recency.weight_perm (List.reverse_perm _)
  have size : (cache.insert key value weight).2.size = shrunk.2.1.length :=
    List.length_reverse
  have single : shrunk.2.1.length ≤ 1 → Recency.weight shrunk.2.1 = weight := by
    intro short
    obtain ⟨only, same⟩ := List.length_eq_one_iff.mp
      (Nat.le_antisymm short (List.length_pos_of_mem stays))
    rw [same] at stays ⊢
    rw [← List.mem_singleton.mp stays]
    rfl
  have nothing : shrunk.1 = [] → Recency.weight shrunk.1 = 0 := by
    intro none
    rw [none]
    rfl
  rw [limit] at needed ended
  refine ⟨Recency.weight shrunk.1, limit, ?_, .inr (weightUnder_le sane.words key), ?_, ?_, ?_,
    ?_, ?_⟩
  · exact before ▸ Nat.le_add_right _ _
  · rw [after]
    change _ = cache.held - cache.weightUnder key + weight
    omega
  · exact left.trans (congrArg (· - _) sum)
  · exact needed.imp nothing fun heavy => sum ▸ heavy
  · refine .inr (ended.imp_right fun short => ?_)
    change _ = cache.held - cache.weightUnder key
    have one := single short
    omega
  · exact ended.imp_right fun short => size ▸ short

/-! ### One call -/

/-- Every call changes what is held and told in this way. -/
theorem exists_changed (sane : cache.Sane) (action : Action κ α) :
    ∃ pushed, Changed cache action (cache.act action).2 pushed := by
  cases action with
  | insert key value weight => exact Changed.insert sane key value weight
  | get key => exact ⟨0, .get sane key⟩
  | peek key => exact ⟨0, .of_kept sane rfl rfl (Nat.zero_add _).symm rfl (Nat.le_refl _)⟩
  | contains key => exact ⟨0, .of_kept sane rfl rfl (Nat.zero_add _).symm rfl (Nat.le_refl _)⟩
  | remove key => exact ⟨0, .remove sane key⟩
  | removeWhere condition => exact ⟨0, .removeWhere sane condition⟩

/-- What stands in a cache behind a call was brought by it, or stood there before. -/
theorem mem_act {action : Action κ α} {entry : Weighted κ α}
    (listed : entry ∈ (cache.act action).2.entries) :
    entry.weight = action.added ∨ entry ∈ cache.entries := by
  cases action with
  | insert key value weight =>
      rcases mem_insert listed with rfl | ⟨member, _⟩
      · exact .inl rfl
      · exact .inr member
  | get key => exact .inr (mem_of_mem_get listed)
  | peek key => exact .inr listed
  | contains key => exact .inr listed
  | remove key => exact .inr (mem_remove.mp listed).1
  | removeWhere condition => exact .inr (mem_removeWhere.mp listed).1

/-- A call leaves a cache sane. -/
theorem Sane.act (sane : cache.Sane) {action : Action κ α} (word : action.added ≤ maxWord) :
    (cache.act action).2.Sane := by
  obtain ⟨pushed, changed⟩ := exists_changed sane action
  refine ⟨distinct_act sane.distinct action, ?_, ?_, ?_, ?_⟩
  · rw [changed.limit]
    exact sane.limit
  · intro entry listed
    rcases mem_act listed with same | member
    · exact same ▸ word
    · exact sane.words entry member
  · have atMost := sane.atMost
    have held := changed.held
    have told := changed.told
    omega
  · rw [changed.limit]
    exact changed.soft

omit [DecidableEq κ] in
/-- A cache that tells its weight holds no more than can be told, unless its bound is all that can
be told. -/
theorem Sane.held_le (sane : cache.Sane) (tells : cache.Tells) :
    cache.held ≤ maxWord ∨ cache.maxWeight = maxWord := by
  have limit := sane.limit
  rcases sane.soft with light | short
  · unfold Tells at tells
    omega
  · left
    unfold held
    unfold size at short
    match cache.entries, sane.words, short with
    | [], _, _ => exact Nat.zero_le _
    | [only], words, _ => exact words only (List.mem_singleton_self only)

/-- A cache that tells its weight does so behind a call exactly if it bears the call. -/
theorem tells_act_iff (sane : cache.Sane) (tells : cache.Tells) {action : Action κ α}
    (word : action.added ≤ maxWord) :
    (cache.act action).2.Tells ↔ cache.Bears action := by
  obtain ⟨pushed, limit, within, small, held, told, needed, enough, _⟩ :=
    exists_changed sane action
  have positive : 0 < maxWord := by decide
  have bound := sane.limit
  unfold Tells at tells ⊢
  unfold Bears
  rcases sane.held_le tells with fits | top
  · -- all is told so far, so the sum alone can be clipped
    have all : cache.totalWeight = cache.held := by rw [tells, Nat.min_eq_left fits]
    rw [all] at told needed
    clear small all tells
    rcases Nat.lt_or_ge maxWord (cache.held - cache.released action + action.added) with
      above | whole
    · rw [Nat.min_eq_right (Nat.le_of_lt above)] at told needed
      rcases Nat.eq_zero_or_pos pushed with none | some
      · clear needed
        omega
      · clear enough
        omega
    · rw [Nat.min_eq_left whole] at told
      clear needed enough
      omega
  · -- nothing exceeds the bound, so the weight taken out alone can be missing
    have kept : pushed = 0 := by omega
    rw [kept, Nat.add_zero] at held
    rw [kept, Nat.sub_zero] at told
    simp only [top, or_true, and_true]
    clear needed enough within bound limit
    rcases Nat.lt_or_ge maxWord cache.held with above | fits
    · rw [Nat.min_eq_right (Nat.le_of_lt above)] at tells
      rcases small with none | low
      · omega
      · omega
    · rw [Nat.min_eq_left fits] at tells
      omega

/-! ### All calls -/

/-- A cache tells its weight at first, and behind each of some calls. -/
def TellsThroughout (cache : WeightedCache κ α) : List (Action κ α) → Prop
  | [] => cache.Tells
  | action :: rest => cache.Tells ∧ TellsThroughout (cache.act action).2 rest

/-- A cache bears each of some calls in its turn. -/
def BearsAll (cache : WeightedCache κ α) : List (Action κ α) → Prop
  | [] => True
  | action :: rest => cache.Bears action ∧ BearsAll (cache.act action).2 rest

/-- Calls leave a cache sane. -/
theorem Sane.run (sane : cache.Sane) {actions : List (Action κ α)}
    (words : ∀ action ∈ actions, action.added ≤ maxWord) : (cache.run actions).2.Sane := by
  induction actions generalizing cache with
  | nil => exact sane
  | cons action rest ih =>
      exact ih (sane.act (words action List.mem_cons_self))
        fun other member => words other (List.mem_cons_of_mem action member)

theorem TellsThroughout.first {actions : List (Action κ α)}
    (throughout : cache.TellsThroughout actions) : cache.Tells := by
  cases actions with
  | nil => exact throughout
  | cons action rest => exact throughout.1

theorem maxWeight_run (sane : cache.Sane) {actions : List (Action κ α)}
    (words : ∀ action ∈ actions, action.added ≤ maxWord) :
    (cache.run actions).2.maxWeight = cache.maxWeight := by
  induction actions generalizing cache with
  | nil => rfl
  | cons action rest ih =>
      obtain ⟨_, changed⟩ := exists_changed sane action
      rw [← changed.limit]
      exact ih (sane.act (words action List.mem_cons_self))
        fun other member => words other (List.mem_cons_of_mem action member)

theorem tellsThroughout_iff (sane : cache.Sane) (tells : cache.Tells) {actions : List (Action κ α)}
    (words : ∀ action ∈ actions, action.added ≤ maxWord) :
    cache.TellsThroughout actions ↔ cache.BearsAll actions := by
  induction actions generalizing cache with
  | nil => exact iff_of_true tells trivial
  | cons action rest ih =>
      have word := words action List.mem_cons_self
      have step := tells_act_iff sane tells word
      have later (next : (cache.act action).2.Tells) := ih (sane.act word) next
        fun other member => words other (List.mem_cons_of_mem action member)
      constructor
      · rintro ⟨_, throughout⟩
        have next := throughout.first
        exact ⟨step.mp next, (later next).mp throughout⟩
      · rintro ⟨bears, all⟩
        exact ⟨tells, (later (step.mpr bears)).mpr all⟩

/-- Whatever calls are made on a cache that is empty at first, with weights of any size: it tells
its weight throughout exactly if it bears each call in its turn. It never tells more than it holds,
and what it tells is within the bound unless there is a single entry; so a cache that tells its
weight holds no more than the bound in several entries, as long as the bound is less than the
greatest weight there is. -/
theorem tells_throughout_iff {most : Nat} (limit : most ≤ maxWord) (actions : List (Action κ α))
    (words : ∀ action ∈ actions, action.added ≤ maxWord) :
    let cache := ((empty most : WeightedCache κ α).run actions).2
    ((empty most : WeightedCache κ α).TellsThroughout actions ↔
      (empty most : WeightedCache κ α).BearsAll actions) ∧
    cache.totalWeight ≤ min cache.held maxWord ∧
    (cache.totalWeight ≤ most ∨ cache.size ≤ 1) ∧
    (cache.Tells → cache.held ≤ most ∨ cache.size ≤ 1 ∨ most = maxWord) := by
  intro cache
  have started : (empty most : WeightedCache κ α).Sane := sane_empty limit
  have sane : cache.Sane := started.run words
  have bound : cache.maxWeight = most := maxWeight_run started words
  have atMost := sane.atMost
  have soft := sane.soft
  rw [bound] at soft
  refine ⟨tellsThroughout_iff started rfl words, atMost, soft, fun tells => ?_⟩
  unfold Tells at tells
  omega

/-- Calls that bring more than can be told to a cache with the greatest bound, and replace an entry
by a heavier one while there is more. -/
def piled : List (Action Nat Nat) :=
  [.insert 1 10 maxWord, .insert 2 20 5, .insert 2 21 7, .get 1, .remove 3]

theorem tells_throughout_iff_piled :
    (maxWord ≤ maxWord ∧ ∀ action ∈ piled, action.added ≤ maxWord) ∧
      (empty maxWord : WeightedCache Nat Nat).TellsThroughout piled := by
  have words : ∀ action ∈ piled, action.added ≤ maxWord := by decide
  have bears : (empty maxWord : WeightedCache Nat Nat).BearsAll piled := by
    refine ⟨.inl ?_, .inl ?_, .inl ?_, .inl ?_, .inl ?_, trivial⟩ <;> decide
  exact ⟨⟨Nat.le_refl _, words⟩,
    (tells_throughout_iff (Nat.le_refl maxWord) piled words).1.mpr bears⟩

/-- Calls among which an entry is pushed out whose weight was clipped when it was brought. -/
def clipped : List (Action Nat Nat) :=
  [.insert 0 0 maxWord, .insert 1 1 5, .insert 2 2 10]

/-- A cache may tell less than it holds, and so keep more than its bound in several entries. -/
theorem weight_may_be_lost :
    let cache := ((empty 10 : WeightedCache Nat Nat).run clipped).2
    (∀ action ∈ clipped, action.added ≤ maxWord) ∧ ¬cache.Tells ∧ cache.totalWeight = 10 ∧
      cache.held = 15 ∧ cache.size = 2 := by
  refine ⟨?_, ?_, ?_, ?_, ?_⟩
  · decide
  · unfold Tells
    decide
  all_goals decide

end CodeNav.WeightedCache
