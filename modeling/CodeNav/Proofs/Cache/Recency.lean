/-
Module: CodeNav.Proofs.Cache.Recency
Purpose: A weighted cache answers as a list of entries in the order of their last use.
Main exports:
  WeightedCache.Action, WeightedCache.Answer, Recency, Recency.act, WeightedCache.Follows,
  WeightedCache.follows_recency
-/
import CodeNav.Proofs.Cache.Weighted
import CodeNav.Proofs.Keyed

namespace CodeNav

/-! ### Calls on a cache -/

namespace WeightedCache

/-- A call on a cache. -/
inductive Action (κ α : Type) where
  | insert (key : κ) (value : α) (weight : Nat)
  | get (key : κ)
  | peek (key : κ)
  | contains (key : κ)
  | remove (key : κ)
  | removeWhere (condition : κ → Bool)

/-- What a call comes to: a value that may be missing, a truth value, or entries handed back. -/
inductive Answer (κ α : Type) where
  | value (found : Option α)
  | truth (found : Bool)
  | entries (handedBack : List (κ × α))
deriving Repr, DecidableEq

variable {κ α : Type} [DecidableEq κ]

/-- Carries a call out. -/
def act (cache : WeightedCache κ α) : Action κ α → Answer κ α × WeightedCache κ α
  | .insert key value weight =>
    let (pushedOut, cache) := cache.insert key value weight
    (.entries pushedOut, cache)
  | .get key =>
    let (found, cache) := cache.get key
    (.value found, cache)
  | .peek key => (.value (cache.peek? key), cache)
  | .contains key => (.truth (cache.contains key), cache)
  | .remove key =>
    let (removed, cache) := cache.remove key
    (.value removed, cache)
  | .removeWhere condition =>
    let (removed, cache) := cache.removeWhere condition
    (.entries removed, cache)

/-- Carries calls out in a row. -/
def run (cache : WeightedCache κ α) : List (Action κ α) → List (Answer κ α) × WeightedCache κ α
  | [] => ([], cache)
  | action :: rest =>
    let (answer, cache) := cache.act action
    let (answers, cache) := run cache rest
    (answer :: answers, cache)

/-- Whenever an entry is inserted, its weight and those of the entries that stand in the cache can
be added up. -/
def Fits (cache : WeightedCache κ α) : List (Action κ α) → Prop
  | [] => True
  | action :: rest =>
    (match action with
      | .insert _ _ weight => total (cache.entries.map (·.weight)) + weight < capacity 64
      | _ => True) ∧
    Fits (cache.act action).2 rest

end WeightedCache

/-! ### The reference -/

/-- Entries in the order in which they were inserted or got last, the one not used for longest in
front. -/
abbrev Recency (κ α : Type) := List (Weighted κ α)

namespace Recency

variable {κ α : Type} [DecidableEq κ]

/-- The weight of all entries. -/
def weight (entries : Recency κ α) : Nat :=
  total (entries.map (·.weight))

/-- The entry under a key. -/
def under? (entries : Recency κ α) (key : κ) : Option (Weighted κ α) :=
  entries.find? (·.key = key)

/-- The entries under other keys. -/
def besides (entries : Recency κ α) (key : κ) : Recency κ α :=
  entries.filter (·.key ≠ key)

/-- The least number of entries that have to leave, those not used for longest first, for the rest
to take at most a weight together with a new entry; all of them if the new entry is too heavy by
itself. -/
def excess (most added : Nat) (entries : Recency κ α) : Nat :=
  ((List.range entries.length).find? fun n => weight (entries.drop n) + added ≤ most).getD
    entries.length

/-- What is handed back of entries. -/
def pairs (entries : Recency κ α) : List (κ × α) :=
  entries.map fun entry => (entry.key, entry.value)

/-- What a call comes to, and what it leaves. -/
def act (most : Nat) (entries : Recency κ α) :
    WeightedCache.Action κ α → WeightedCache.Answer κ α × Recency κ α
  | .insert key value weight =>
    let others := entries.besides key
    let gone := others.excess most weight
    (.entries ((entries.under? key).toList.map (fun old => (key, old.value))
        ++ pairs (others.take gone)),
      others.drop gone ++ [⟨key, value, weight⟩])
  | .get key =>
    match entries.under? key with
    | some entry => (.value (some entry.value), entries.besides key ++ [entry])
    | none => (.value none, entries)
  | .peek key => (.value ((entries.under? key).map (·.value)), entries)
  | .contains key => (.truth (entries.under? key).isSome, entries)
  | .remove key => (.value ((entries.under? key).map (·.value)), entries.besides key)
  | .removeWhere condition =>
    (.entries (pairs (entries.filter (condition ·.key)).reverse),
      entries.filter (!condition ·.key))

/-- What calls in a row come to, and what they leave. -/
def run (most : Nat) (entries : Recency κ α) :
    List (WeightedCache.Action κ α) → List (WeightedCache.Answer κ α) × Recency κ α
  | [] => ([], entries)
  | action :: rest =>
    let (answer, entries) := entries.act most action
    let (answers, entries) := run most entries rest
    (answer :: answers, entries)

/-! ### How many entries leave -/

omit [DecidableEq κ] in
theorem weight_cons (entry : Weighted κ α) (rest : Recency κ α) :
    weight (entry :: rest) = entry.weight + weight rest :=
  rfl

omit [DecidableEq κ] in
theorem weight_append (front rest : Recency κ α) :
    weight (front ++ rest) = weight front + weight rest := by
  unfold weight
  rw [List.map_append, total_append]

omit [DecidableEq κ] in
theorem weight_perm {entries other : Recency κ α} (perm : entries.Perm other) :
    weight entries = weight other :=
  total_perm (perm.map _)

omit [DecidableEq κ] in
/-- The entry not used for longest leaves if all together are too heavy. -/
theorem excess_cons (most added : Nat) (oldest : Weighted κ α) (rest : Recency κ α) :
    excess most added (oldest :: rest) =
      if weight (oldest :: rest) + added ≤ most then 0 else excess most added rest + 1 := by
  unfold excess
  rw [List.length_cons, List.range_succ_eq_map, List.find?_cons, List.drop_zero]
  split_ifs with small
  · simp [small]
  · simp only [small, decide_false, List.find?_map, Function.comp_def, List.drop_succ_cons]
    cases List.find? (fun n => decide (weight (rest.drop n) + added ≤ most))
      (List.range rest.length) <;> rfl

omit [DecidableEq κ] in
/-- Behind the entries that leave there is room for the new one, unless all others have left. -/
theorem excess_enough (most added : Nat) (entries : Recency κ α) :
    weight (entries.drop (entries.excess most added)) + added ≤ most ∨
      entries.drop (entries.excess most added) = [] := by
  induction entries with
  | nil => exact .inr rfl
  | cons oldest rest ih =>
      rw [excess_cons]
      split_ifs with small
      · exact .inl small
      · exact ih

omit [DecidableEq κ] in
/-- The loop of an insertion drops as many entries as have to leave. -/
theorem shrink_eq (most : Nat) (newest : Weighted κ α) (others : Recency κ α) :
    let gone := others.excess most newest.weight
    WeightedCache.shrink most (weight others + newest.weight) (others ++ [newest]) =
      (others.take gone, others.drop gone ++ [newest],
        weight (others.drop gone) + newest.weight) := by
  induction others with
  | nil => rfl
  | cons oldest rest ih =>
      obtain ⟨next, behind, split⟩ : ∃ next behind, rest ++ [newest] = next :: behind :=
        List.exists_cons_of_ne_nil (by simp)
      dsimp only at ih ⊢
      rw [List.cons_append, excess_cons]
      rw [split] at ih ⊢
      unfold WeightedCache.shrink
      have left : weight (oldest :: rest) + newest.weight - oldest.weight =
          weight rest + newest.weight := by
        rw [weight_cons]
        omega
      rw [left, ih]
      by_cases small : weight (oldest :: rest) + newest.weight ≤ most
      · rw [if_neg (Nat.not_lt.mpr small), if_pos small, ← split]
        rfl
      · rw [if_pos (Nat.lt_of_not_le small), if_neg small]
        rfl

omit [DecidableEq κ] in
/-- Part of a list that is light enough, or a single entry, is of this kind. -/
theorem bounded_of_sublist {most : Nat} {entries part : Recency κ α}
    (bounded : weight entries ≤ most ∨ entries.length = 1) (sublist : part.Sublist entries) :
    weight part ≤ most ∨ part.length = 1 := by
  rcases bounded with small | single
  · left
    refine Nat.le_trans ?_ small
    obtain ⟨rest, perm⟩ := sublist.exists_perm_append
    rw [weight_perm perm, weight_append]
    exact Nat.le_add_right _ _
  · have short := sublist.length_le
    rw [single] at short
    rcases Nat.le_one_iff_eq_zero_or_eq_one.mp short with none | one
    · left
      rw [List.length_eq_zero_iff.mp none]
      exact Nat.zero_le _
    · exact .inr one

end Recency

namespace WeightedCache

open Recency (pairs)

variable {κ α : Type} [DecidableEq κ] {cache : WeightedCache κ α} {line : Recency κ α}
  {most : Nat} {key : κ}

/-! ### What stands under a key -/

/-- An entry and those under other keys are all entries. -/
theorem perm_others (distinct : cache.Distinct) {entry : Weighted κ α}
    (found : cache.find? key = some entry) : cache.entries.Perm (entry :: cache.others key) := by
  obtain ⟨member, rfl⟩ := mem_of_find? found
  have own : cache.entries.filter (·.key = entry.key) = [entry] :=
    Keyed.filter_eq_singleton distinct member
  have parts := List.filter_append_perm (fun other : Weighted κ α => decide (other.key = entry.key))
    cache.entries
  rw [own] at parts
  unfold others
  simpa using parts.symm

theorem others_of_absent (absent : cache.find? key = none) : cache.others key = cache.entries := by
  apply List.filter_eq_self.mpr
  intro entry member
  exact decide_eq_true (find?_eq_none.mp absent entry member)

/-- What is taken out under a key, and what stays, is all that there was. -/
theorem perm_remove (distinct : cache.Distinct) (key : κ) :
    (pairs cache.entries).Perm
      ((cache.remove key).1.toList.map (fun value => (key, value))
        ++ pairs (cache.remove key).2.entries) := by
  unfold remove
  cases found : cache.find? key with
  | none => exact .refl _
  | some entry =>
      obtain ⟨_, rfl⟩ := mem_of_find? found
      exact (perm_others distinct found).map fun entry => (entry.key, entry.value)

omit [DecidableEq κ] in
/-- Weights are taken off one after the other. -/
theorem foldl_sub (weight : Nat) (removed : List (Weighted κ α)) :
    removed.foldl (fun left entry => left - entry.weight) weight =
      weight - Recency.weight removed := by
  induction removed generalizing weight with
  | nil => rfl
  | cons entry rest ih => rw [List.foldl_cons, ih, Recency.weight_cons, Nat.sub_sub]

/-! ### A cache beside a list -/

/-- A cache holds the entries of a list, and knows their weight, which is within the bound unless
there is a single entry. -/
structure Follows (most : Nat) (cache : WeightedCache κ α) (line : Recency κ α) : Prop where
  limit : cache.maxWeight = most
  distinct : cache.Distinct
  entries : cache.entries = line.reverse
  weight : cache.totalWeight = line.weight
  bounded : line.weight ≤ most ∨ line.length = 1

omit [DecidableEq κ] in
theorem follows_empty (most : Nat) : Follows most (empty most : WeightedCache κ α) [] where
  limit := rfl
  distinct := distinct_empty most
  entries := rfl
  weight := rfl
  bounded := .inl (Nat.zero_le most)

namespace Follows

variable (follows : Follows most cache line)
include follows

theorem under? (key : κ) : cache.find? key = line.under? key := by
  cases found : line.under? key with
  | none =>
      rw [find?_eq_none, follows.entries]
      intro entry member
      have other := List.find?_eq_none.mp found entry (List.mem_reverse.mp member)
      simpa using other
  | some entry =>
      have member : entry ∈ cache.entries := by
        rw [follows.entries, List.mem_reverse]
        exact List.mem_of_find?_eq_some found
      have same : entry.key = key := by simpa using List.find?_some found
      rw [← same]
      exact find?_eq_some_of_mem follows.distinct member

theorem peek? (key : κ) : cache.peek? key = (line.under? key).map (·.value) := by
  unfold WeightedCache.peek?
  rw [follows.under?]

theorem besides (key : κ) : cache.others key = (line.besides key).reverse := by
  unfold others Recency.besides
  rw [follows.entries, List.filter_reverse]

/-- The entries of the list are one under a key, and those under other keys. -/
theorem perm {entry : Weighted κ α} (found : cache.find? key = some entry) :
    line.Perm (entry :: line.besides key) := by
  have perm := perm_others follows.distinct found
  rw [follows.entries, follows.besides] at perm
  exact (List.reverse_perm line).symm.trans
    (perm.trans ((List.reverse_perm _).cons entry))

theorem get (key : κ) :
    (cache.act (.get key)).1 = (line.act most (.get key)).1 ∧
      Follows most (cache.act (.get key)).2 (line.act most (.get key)).2 := by
  have distinct := distinct_get follows.distinct key
  cases found : line.under? key with
  | none =>
      have absent := (follows.under? key).trans found
      simp only [act, WeightedCache.get, absent, Recency.act, found, true_and]
      exact ⟨follows.limit, follows.distinct, follows.entries, follows.weight, follows.bounded⟩
  | some entry =>
      have stands := (follows.under? key).trans found
      have moved : (line.besides key ++ [entry]).Perm line :=
        List.perm_append_comm.trans (follows.perm stands).symm
      simp only [act, WeightedCache.get, stands, Recency.act, found, true_and] at distinct ⊢
      refine ⟨follows.limit, distinct, ?_, ?_, ?_⟩
      · rw [follows.besides, List.reverse_append]
        rfl
      · rw [Recency.weight_perm moved]
        exact follows.weight
      · rw [Recency.weight_perm moved, moved.length_eq]
        exact follows.bounded

theorem remove (key : κ) :
    (cache.remove key).1 = (line.under? key).map (·.value) ∧
      Follows most (cache.remove key).2 (line.besides key) := by
  have distinct := distinct_remove follows.distinct key
  have bounded := Recency.bounded_of_sublist follows.bounded
    (List.filter_sublist (p := (·.key ≠ key)))
  cases found : cache.find? key with
  | none =>
      have unchanged : (line.besides key).reverse = line.reverse := by
        rw [← follows.besides, others_of_absent found, follows.entries]
      have same : line.besides key = line := List.reverse_injective unchanged
      rw [← follows.under?, found, same]
      simp only [WeightedCache.remove, found]
      exact ⟨rfl, follows⟩
  | some entry =>
      rw [← follows.under?, found]
      simp only [WeightedCache.remove, found] at distinct ⊢
      refine ⟨rfl, follows.limit, distinct, follows.besides key, ?_, bounded⟩
      change cache.totalWeight - entry.weight = (line.besides key).weight
      rw [follows.weight, Recency.weight_perm (follows.perm found), Recency.weight_cons,
        Nat.add_sub_cancel_left]

theorem insert (key : κ) (value : α) {added : Nat} (fits : line.weight + added < capacity 64) :
    (cache.act (.insert key value added)).1 = (line.act most (.insert key value added)).1 ∧
      Follows most (cache.act (.insert key value added)).2
        (line.act most (.insert key value added)).2 := by
  obtain ⟨replaced, removed⟩ := follows.remove key
  have distinct := (inserted follows.distinct key value added).distinct
  have lighter : (line.besides key).weight ≤ line.weight := by
    obtain ⟨rest, perm⟩ :=
      (List.filter_sublist (p := (·.key ≠ key)) (l := line)).exists_perm_append
    rw [Recency.weight_perm perm, Recency.weight_append]
    exact Nat.le_add_right _ _
  have sum : addWeight (cache.remove key).2.totalWeight added =
      (line.besides key).weight + added := by
    unfold addWeight maxWord
    rw [removed.weight, Nat.min_eq_left]
    exact Nat.le_sub_one_of_lt (Nat.lt_of_le_of_lt (Nat.add_le_add_right lighter added) fits)
  have loop := Recency.shrink_eq most ⟨key, value, added⟩ (line.besides key)
  have arranged : (⟨key, value, added⟩ :: (cache.remove key).2.entries).reverse =
      line.besides key ++ [⟨key, value, added⟩] := by
    rw [removed.entries, List.reverse_cons, List.reverse_reverse]
  simp only [act, Recency.act, WeightedCache.insert, removed.limit, sum, arranged, loop]
    at distinct ⊢
  refine ⟨?_, rfl, distinct, ?_, ?_, ?_⟩
  · rw [replaced]
    cases line.under? key <;> rfl
  · rfl
  · rw [Recency.weight_append]
    rfl
  · rw [Recency.weight_append]
    rcases Recency.excess_enough most added (line.besides key) with enough | none
    · exact .inl enough
    · right
      rw [none]
      rfl

theorem removeWhere (condition : κ → Bool) :
    (cache.act (.removeWhere condition)).1 = (line.act most (.removeWhere condition)).1 ∧
      Follows most (cache.act (.removeWhere condition)).2
        (line.act most (.removeWhere condition)).2 := by
  have kept : (cache.entries.filter (!condition ·.key)).Sublist cache.entries :=
    List.filter_sublist
  have parts := List.filter_append_perm (fun entry : Weighted κ α => condition entry.key) line
  simp only [act, Recency.act, WeightedCache.removeWhere]
  refine ⟨?_, follows.limit, follows.distinct.sublist (kept.map _), ?_, ?_, ?_⟩
  · rw [follows.entries, List.filter_reverse]
    rfl
  · rw [follows.entries, List.filter_reverse]
  · rw [foldl_sub, follows.weight, ← Recency.weight_perm parts, Recency.weight_append]
    change _ - Recency.weight _ = _
    rw [follows.entries, List.filter_reverse, Recency.weight_perm (List.reverse_perm _),
      Nat.add_sub_cancel_left]
  · exact Recency.bounded_of_sublist follows.bounded List.filter_sublist

/-- A call that fits comes to what it comes to on the list, and the cache goes on following it. -/
theorem act (action : Action κ α) (fits : cache.Fits [action]) :
    (cache.act action).1 = (line.act most action).1 ∧
      Follows most (cache.act action).2 (line.act most action).2 := by
  cases action with
  | insert key value added =>
      apply follows.insert
      rw [← Recency.weight_perm (List.reverse_perm line), ← follows.entries]
      exact fits.1
  | get key => exact follows.get key
  | peek key => exact ⟨congrArg Answer.value (follows.peek? key), follows⟩
  | contains key =>
      refine ⟨congrArg Answer.truth ?_, follows⟩
      unfold WeightedCache.contains
      rw [follows.under?]
  | remove key =>
      obtain ⟨same, removed⟩ := follows.remove key
      exact ⟨congrArg Answer.value same, removed⟩
  | removeWhere condition => exact follows.removeWhere condition

end Follows

/-- Calls that fit come to what they come to on the list. -/
theorem Follows.run (follows : Follows most cache line) {actions : List (Action κ α)}
    (fits : cache.Fits actions) :
    (cache.run actions).1 = (line.run most actions).1 ∧
      Follows most (cache.run actions).2 (line.run most actions).2 := by
  induction actions generalizing cache line with
  | nil => exact ⟨rfl, follows⟩
  | cons action rest ih =>
      obtain ⟨answer, next⟩ := follows.act action ⟨fits.1, trivial⟩
      obtain ⟨answers, last⟩ := ih next fits.2
      refine ⟨?_, last⟩
      change (cache.act action).1 :: ((cache.act action).2.run rest).1 = _
      rw [answer, answers]
      rfl

/-! ### What becomes of values, and what is counted -/

namespace Action

/-- What a call brings to the cache. -/
def inserted? : Action κ α → Option (κ × α)
  | insert key value _ => some (key, value)
  | _ => none

/-- What a call with some answer has handed back for good. -/
def returned : Action κ α × Answer κ α → List (κ × α)
  | (insert .., .entries pushedOut) => pushedOut
  | (remove key, .value found) => found.toList.map fun value => (key, value)
  | (removeWhere _, .entries removed) => removed
  | _ => []

/-- What a call with some answer has pushed out by weight: entries under other keys than the one
inserted. -/
def evicted : Action κ α × Answer κ α → List (κ × α)
  | (insert key .., .entries pushedOut) => pushedOut.filter (·.1 ≠ key)
  | _ => []

/-- Whether a call with some answer was a look-up. -/
def isGet : Action κ α × Answer κ α → Bool
  | (get _, _) => true
  | _ => false

/-- Whether a call with some answer was a look-up that found something. -/
def isHit : Action κ α × Answer κ α → Bool
  | (get _, .value (some _)) => true
  | _ => false

end Action

/-- What calls in a row do to a cache: every value is in the cache or was handed back once, and the
counters tell how many look-ups there were, how many found something, and how many entries were
pushed out by weight. -/
structure Accounted (before : WeightedCache κ α) (actions : List (Action κ α))
    (answers : List (Answer κ α)) (after : WeightedCache κ α) : Prop where
  values : (actions.filterMap Action.inserted? ++ pairs before.entries).Perm
    ((actions.zip answers).flatMap Action.returned ++ pairs after.entries)
  hits : after.hits = before.hits + (actions.zip answers).countP Action.isHit
  looked : after.hits + after.misses =
    before.hits + before.misses + (actions.zip answers).countP Action.isGet
  evictions : after.evictions =
    before.evictions + ((actions.zip answers).flatMap Action.evicted).length

theorem Accounted.cons {before between after : WeightedCache κ α} {action : Action κ α}
    {answer : Answer κ α} {actions : List (Action κ α)} {answers : List (Answer κ α)}
    (first : Accounted before [action] [answer] between)
    (rest : Accounted between actions answers after) :
    Accounted before (action :: actions) (answer :: answers) after where
  values := by
    let brought := [action].filterMap Action.inserted?
    let later := actions.filterMap Action.inserted?
    let handedBack := [(action, answer)].flatMap Action.returned
    have all : (action :: actions).filterMap Action.inserted? = brought ++ later :=
      @List.filterMap_append _ _ [action] actions Action.inserted?
    have given : ((action :: actions).zip (answer :: answers)).flatMap Action.returned =
        handedBack ++ (actions.zip answers).flatMap Action.returned :=
      @List.flatMap_append _ _ [(action, answer)] _ Action.returned
    rw [all, given, List.append_assoc, List.append_assoc]
    calc brought ++ (later ++ pairs before.entries)
      _ |>.Perm (later ++ (brought ++ pairs before.entries)) := List.perm_append_comm_assoc _ _ _
      _ |>.Perm (later ++ (handedBack ++ pairs between.entries)) := first.values.append_left later
      _ |>.Perm (handedBack ++ (later ++ pairs between.entries)) := List.perm_append_comm_assoc _ _ _
      _ |>.Perm _ := rest.values.append_left handedBack
  hits := by
    have one := first.hits
    rw [List.zip_cons_cons, List.countP_cons] at one ⊢
    rw [rest.hits, one, List.zip_nil_left, List.countP_nil]
    omega
  looked := by
    have one := first.looked
    rw [List.zip_cons_cons, List.countP_cons] at one ⊢
    rw [rest.looked, one, List.zip_nil_left, List.countP_nil]
    omega
  evictions := by
    have one := first.evictions
    rw [List.zip_cons_cons, List.flatMap_cons, List.length_append] at one ⊢
    rw [rest.evictions, one, List.zip_nil_left, List.flatMap_nil, List.length_nil]
    omega

theorem Accounted.insert (distinct : cache.Distinct) (key : κ) (value : α) (added : Nat) :
    Accounted cache [.insert key value added] [.entries (cache.insert key value added).1]
      (cache.insert key value added).2 := by
  obtain ⟨kept, dropped, total, split, result⟩ := cache.insert_eq key value added
  let replaced := (cache.remove key).1.toList.map fun old => (key, old)
  have others : ∀ entry ∈ dropped, entry.key ≠ key := by
    intro entry listed
    have stood : entry ∈ (cache.remove key).2.entries := by
      rw [split]
      exact List.mem_append_right _ (List.mem_reverse.mpr listed)
    exact (mem_remove.mp stood).2
  have counters : (cache.remove key).2.hits = cache.hits ∧
      (cache.remove key).2.misses = cache.misses ∧
      (cache.remove key).2.evictions = cache.evictions := by
    unfold WeightedCache.remove
    cases cache.find? key <;> exact ⟨rfl, rfl, rfl⟩
  obtain ⟨hits, misses, evictions⟩ := counters
  rw [result, Option.toList_map]
  refine ⟨?_, hits, ?_, ?_⟩
  · have stood : (pairs cache.entries).Perm (replaced ++ (pairs kept ++ pairs dropped)) := by
      refine (perm_remove distinct key).trans (List.Perm.append_left replaced ?_)
      rw [split, pairs, List.map_append, List.map_reverse]
      exact (List.reverse_perm _).append_left _
    change ([(key, value)] ++ pairs cache.entries).Perm
      (((replaced ++ pairs dropped) ++ []) ++ ([(key, value)] ++ pairs kept))
    rw [List.append_nil]
    calc [(key, value)] ++ pairs cache.entries
      _ |>.Perm ([(key, value)] ++ (replaced ++ (pairs kept ++ pairs dropped))) :=
        stood.append_left _
      _ |>.Perm (replaced ++ ([(key, value)] ++ (pairs kept ++ pairs dropped))) :=
        List.perm_append_comm_assoc _ _ _
      _ |>.Perm (replaced ++ (pairs dropped ++ ([(key, value)] ++ pairs kept))) := by
        rw [← List.append_assoc [(key, value)]]
        exact List.perm_append_comm.append_left replaced
      _ |>.Perm _ := by rw [List.append_assoc]
  · change (cache.remove key).2.hits + (cache.remove key).2.misses = _
    rw [hits, misses]
    rfl
  · change (cache.remove key).2.evictions + dropped.length = cache.evictions +
      (List.filter (fun pair : κ × α => pair.1 ≠ key) (replaced ++ pairs dropped) ++ []).length
    have own : replaced.filter (fun pair => pair.1 ≠ key) = [] := by simp [replaced]
    have pushed : (pairs dropped).filter (fun pair => pair.1 ≠ key) = pairs dropped := by
      rw [List.filter_eq_self]
      intro pair listed
      obtain ⟨entry, member, rfl⟩ := List.mem_map.mp listed
      exact decide_eq_true (others entry member)
    rw [evictions, List.append_nil, List.filter_append, own, pushed, List.nil_append, pairs,
      List.length_map]

theorem Accounted.get (distinct : cache.Distinct) (key : κ) :
    Accounted cache [.get key] [.value (cache.get key).1] (cache.get key).2 := by
  unfold WeightedCache.get
  cases found : cache.find? key with
  | none => exact ⟨.refl _, rfl, rfl, rfl⟩
  | some entry =>
      have moved := (perm_others distinct found).map fun entry => (entry.key, entry.value)
      refine ⟨moved, rfl, ?_, rfl⟩
      change cache.hits + 1 + cache.misses = cache.hits + cache.misses + 1
      exact Nat.add_right_comm _ _ _

theorem Accounted.remove (distinct : cache.Distinct) (key : κ) :
    Accounted cache [.remove key] [.value (cache.remove key).1] (cache.remove key).2 := by
  have taken := perm_remove distinct key
  rw [← List.append_nil (List.map _ _)] at taken
  refine ⟨taken, ?_, ?_, ?_⟩ <;> unfold WeightedCache.remove <;> cases cache.find? key <;> rfl

/-- A single call is accounted for. -/
theorem Accounted.act (distinct : cache.Distinct) (action : Action κ α) :
    Accounted cache [action] [(cache.act action).1] (cache.act action).2 := by
  cases action with
  | insert key value added => exact .insert distinct key value added
  | get key => exact .get distinct key
  | peek key => exact ⟨.refl _, rfl, rfl, rfl⟩
  | contains key => exact ⟨.refl _, rfl, rfl, rfl⟩
  | remove key => exact .remove distinct key
  | removeWhere condition =>
      have parts := List.filter_append_perm (fun entry : Weighted κ α => condition entry.key)
        cache.entries
      have taken := (parts.map fun entry => (entry.key, entry.value)).symm
      rw [List.map_append, ← List.append_nil (List.map _ (List.filter _ _))] at taken
      exact ⟨taken, rfl, rfl, rfl⟩

theorem distinct_act (distinct : cache.Distinct) (action : Action κ α) :
    (cache.act action).2.Distinct := by
  cases action with
  | insert key value added => exact (inserted distinct key value added).distinct
  | get key => exact distinct_get distinct key
  | remove key => exact distinct_remove distinct key
  | removeWhere condition => exact distinct.sublist (List.filter_sublist.map _)
  | _ => exact distinct

/-- All calls in a row are accounted for. -/
theorem Accounted.run (distinct : cache.Distinct) (actions : List (Action κ α)) :
    Accounted cache actions (cache.run actions).1 (cache.run actions).2 := by
  induction actions generalizing cache with
  | nil => exact ⟨.refl _, rfl, rfl, rfl⟩
  | cons action rest ih =>
      exact (Accounted.act distinct action).cons (ih (distinct_act distinct action))

/-! ### All calls from the beginning -/

/-- Whatever calls are made on a cache that is empty at first, as long as the weights can be added
up: each call comes to what it comes to on the list of entries in the order of their last use, and
the cache holds the entries of that list, which are within the bound unless there is a single one.
No value is lost or handed back twice, and the counters are right. -/
theorem follows_recency (most : Nat) (actions : List (Action κ α))
    (fits : (empty most : WeightedCache κ α).Fits actions) :
    let run := (empty most : WeightedCache κ α).run actions
    let reference := Recency.run most [] actions
    run.1 = reference.1 ∧ run.2.entries = reference.2.reverse ∧
      run.2.totalWeight = reference.2.weight ∧ (run.2.totalWeight ≤ most ∨ run.2.size = 1) ∧
      Accounted (empty most) actions run.1 run.2 := by
  intro run reference
  obtain ⟨answers, follows⟩ := (follows_empty most).run fits
  refine ⟨answers, follows.entries, follows.weight, ?_, .run (distinct_empty most) actions⟩
  have size : run.2.size = reference.2.length := by
    unfold size
    rw [follows.entries, List.length_reverse]
  rw [follows.weight, size]
  exact follows.bounded

/-- Calls among which an entry is renewed by a look-up, another is pushed out in its place, and one
too heavy replaces a value and pushes all others out. -/
def crowded : List (Action Nat Nat) :=
  [.insert 1 10 4, .insert 2 20 4, .get 1, .insert 3 30 4, .contains 2, .insert 1 11 50, .peek 3,
    .get 3, .removeWhere (· < 3)]

theorem follows_recency_crowded :
    (empty 10 : WeightedCache Nat Nat).Fits crowded ∧
      (Recency.run 10 [] crowded).1 =
        [.entries [], .entries [], .value (some 10), .entries [(2, 20)], .truth false,
          .entries [(1, 10), (3, 30)], .value none, .value none, .entries [(1, 11)]] ∧
      Accounted (empty 10) crowded ((empty 10).run crowded).1 ((empty 10).run crowded).2 := by
  have fits : (empty 10 : WeightedCache Nat Nat).Fits crowded := by
    refine ⟨?_, ?_, trivial, ?_, trivial, ?_, trivial, trivial, trivial, trivial⟩ <;> decide
  obtain ⟨answers, _, _, _, accounted⟩ := follows_recency 10 crowded fits
  refine ⟨fits, ?_, accounted⟩
  rw [← answers]
  rfl

end WeightedCache

end CodeNav
