/-
Module: CodeNav.Proofs.Packages.Recordings
Purpose: Which provider the index of packages tells after any sequence of calls.
Main exports:
  Recording, PackageIndex.after, PackageIndex.provider?_record, PackageIndex.provider?_after,
  PackageIndex.answered_iff
-/
import CodeNav.PackageIndex
import Mathlib.Data.List.Induction
import Mathlib.Data.List.Nodup

namespace CodeNav

/-! ### Calls -/

/-- A call that records what a target provides and uses. -/
structure Recording where
  target : Target
  provided : List PackageKey
  used : List PackageUse

namespace Recording

variable (calls : List Recording) (target : Target) (package : PackageKey)

/-- The most recent call for a target. -/
def latest? : Option Recording :=
  (calls.filter (·.target = target)).getLast?

/-- The most recent of the calls that list a package as provided. -/
def lastListing? : Option Recording :=
  (calls.filter (package ∈ ·.provided)).getLast?

/-- The most recent call for a target lists a package as provided. -/
def Provides : Prop :=
  ∃ call, latest? calls target = some call ∧ package ∈ call.provided

variable {calls target package} {call : Recording}

theorem latest?_snoc :
    latest? (calls ++ [call]) target =
      if call.target = target then some call else latest? calls target := by
  by_cases own : call.target = target <;> simp [latest?, own]

theorem lastListing?_snoc :
    lastListing? (calls ++ [call]) package =
      if package ∈ call.provided then some call else lastListing? calls package := by
  by_cases listed : package ∈ call.provided <;> simp [lastListing?, listed]

theorem provides_snoc_self :
    Provides (calls ++ [call]) call.target package ↔ package ∈ call.provided := by
  simp [Provides, latest?_snoc]

/-- A call for another target leaves alone what the most recent call lists. -/
theorem provides_snoc_of_ne (other : call.target ≠ target) :
    Provides (calls ++ [call]) target package ↔ Provides calls target package := by
  simp [Provides, latest?_snoc, other]

/-- What the most recent call for some target lists has a last call that lists it. -/
theorem exists_lastListing? (provides : Provides calls target package) :
    ∃ call, lastListing? calls package = some call := by
  obtain ⟨call, latest, listed⟩ := provides
  have member : call ∈ calls := (List.mem_filter.mp (List.mem_of_getLast? latest)).1
  have kept : call ∈ calls.filter (package ∈ ·.provided) := by simp [member, listed]
  exact ⟨_, List.getLast?_eq_some_getLast (List.ne_nil_of_mem kept)⟩

end Recording

namespace PackageIndex

open Recording

variable {index : PackageIndex} {package : PackageKey} {target : Target}

/-- The index after some calls, from the one in which nothing is known. -/
def after (calls : List Recording) : PackageIndex :=
  calls.foldl (fun index call => index.record call.target call.provided call.used) empty

theorem after_snoc (calls : List Recording) (call : Recording) :
    after (calls ++ [call]) = (after calls).record call.target call.provided call.used := by
  simp [after]

/-! ### Providers -/

/-- No package has two providers. -/
def SingleProviders (index : PackageIndex) : Prop :=
  (index.provisions.map (·.package)).Nodup

theorem singleProviders_forget (single : index.SingleProviders) (target : Target) :
    (index.forget target).SingleProviders :=
  single.sublist (List.filter_sublist.map _)

theorem singleProviders_provide (single : index.SingleProviders) (target : Target)
    (package : PackageKey) : (index.provide target package).SingleProviders := by
  have others : ((index.provisions.filter (·.package != package)).map (·.package)).Nodup :=
    single.sublist (List.filter_sublist.map _)
  unfold SingleProviders provide
  rw [List.map_append, List.nodup_append]
  refine ⟨others, List.nodup_singleton _, ?_⟩
  intro kept member added listed
  obtain ⟨provision, among, rfl⟩ := List.mem_map.mp member
  rw [List.map_singleton, List.mem_singleton] at listed
  subst listed
  simpa using (List.mem_filter.mp among).2

/-- Where packages have one provider each, the provider is the target of any provision. -/
theorem provider?_eq_some_iff (single : index.SingleProviders) :
    index.provider? package = some target ↔ ⟨package, target⟩ ∈ index.provisions := by
  unfold SingleProviders at single
  unfold provider?
  generalize index.provisions = provisions at single
  induction provisions with
  | nil => simp
  | cons first rest ih =>
      obtain ⟨p, t⟩ := first
      rw [List.map_cons, List.nodup_cons] at single
      obtain ⟨fresh, single⟩ := single
      by_cases same : p = package
      · subst same
        have unlisted : (⟨p, target⟩ : Provision) ∉ rest :=
          fun listed => fresh (List.mem_map.mpr ⟨_, listed, rfl⟩)
        simp [unlisted, eq_comm]
      · have unlisted : (⟨package, target⟩ : Provision) ≠ ⟨p, t⟩ := by simp [Ne.symm same]
        simpa [same, unlisted] using ih single

theorem provider?_provide (index : PackageIndex) (target : Target) (listed package : PackageKey) :
    (index.provide target listed).provider? package =
      if package = listed then some target else index.provider? package := by
  unfold provider? provide
  rw [List.find?_append, List.find?_filter]
  by_cases same : package = listed
  · subst same
    have none : (fun p : Provision => decide ((p.package != package) = true ∧
        (p.package == package) = true)) = fun _ => false := by
      funext p
      simp
    rw [none, List.find?_eq_none.mpr (by simp)]
    simp
  · have others : (fun p : Provision => decide ((p.package != listed) = true ∧
        (p.package == package) = true)) = fun p => p.package == package := by
      funext p
      by_cases found : p.package = package <;> simp [found, same]
    rw [others]
    simp [same, Ne.symm same]

/-- Recording the packages of a target one by one makes it the provider of each. -/
theorem provider?_foldl_provide (target : Target) (provided : List PackageKey)
    (index : PackageIndex) (package : PackageKey) :
    (provided.foldl (provide target) index).provider? package =
      if package ∈ provided then some target else index.provider? package := by
  induction provided generalizing index with
  | nil => simp
  | cons listed rest ih =>
      rw [List.foldl_cons, ih, provider?_provide]
      by_cases among : package ∈ rest <;> by_cases same : package = listed <;>
        simp [among, same]

theorem provider?_forget (single : index.SingleProviders) (target : Target)
    (package : PackageKey) :
    (index.forget target).provider? package = (index.provider? package).filter (· ≠ target) := by
  apply Option.ext
  intro provider
  rw [provider?_eq_some_iff (singleProviders_forget single target), Option.filter_eq_some_iff,
    provider?_eq_some_iff single]
  simp [forget]

theorem singleProviders_record (single : index.SingleProviders) (call : Recording) :
    (index.record call.target call.provided call.used).SingleProviders := by
  have folded (provided : List PackageKey) :
      ∀ index : PackageIndex, index.SingleProviders →
        (provided.foldl (provide call.target) index).SingleProviders := by
    induction provided with
    | nil => exact fun _ single => single
    | cons listed rest ih =>
        exact fun _ single => ih _ (singleProviders_provide single call.target listed)
  exact folded call.provided _ (singleProviders_forget single call.target)

/-- A call takes over the packages that it lists, and gives up those that its target provided. -/
theorem provider?_record (single : index.SingleProviders) (call : Recording)
    (package : PackageKey) :
    (index.record call.target call.provided call.used).provider? package =
      if package ∈ call.provided then some call.target
      else (index.provider? package).filter (· ≠ call.target) := by
  rw [← provider?_forget single]
  exact provider?_foldl_provide call.target call.provided (index.forget call.target) package

theorem singleProviders_after (calls : List Recording) : (after calls).SingleProviders := by
  induction calls using List.reverseRecOn with
  | nil => exact List.nodup_nil
  | append_singleton calls call ih =>
      rw [after_snoc]
      exact singleProviders_record ih call

/-- The provider of a package is the target of the last call that listed it, as long as no later
call for that target has dropped it. -/
theorem provider?_after (calls : List Recording) (package : PackageKey) (target : Target) :
    (after calls).provider? package = some target ↔
      (∃ call, lastListing? calls package = some call ∧ call.target = target) ∧
        Provides calls target package := by
  induction calls using List.reverseRecOn with
  | nil => simp [after, empty, provider?, lastListing?]
  | append_singleton calls call ih =>
      rw [after_snoc, provider?_record (singleProviders_after calls), lastListing?_snoc]
      by_cases listed : package ∈ call.provided
      · simp only [listed, if_true, Option.some.injEq, exists_eq_left']
        constructor
        · rintro rfl
          exact ⟨rfl, provides_snoc_self.mpr listed⟩
        · exact And.left
      · simp only [listed, if_false]
        rw [Option.filter_eq_some_iff, ih, decide_eq_true_eq]
        by_cases own : call.target = target
        · subst own
          simp [provides_snoc_self, listed]
        · simp [provides_snoc_of_ne own, Ne.symm own]

/-! ### Faithful answers -/

/-- The answer for a package is right: a target is told only if its most recent call lists the
package, and none only if there is no such target. -/
def Answered (calls : List Recording) (package : PackageKey) : Prop :=
  (∀ target, (after calls).provider? package = some target → Provides calls target package) ∧
    ((after calls).provider? package = none ↔ ∀ target, ¬ Provides calls target package)

/-- A package is found. -/
def Found (calls : List Recording) (package : PackageKey) : Prop :=
  ((after calls).provider? package).isSome

/-- The target told is the one that listed the package last, as long as it still lists it. The
answer is right exactly if that target still lists the package, or none does. A call changes whether
a package is found exactly if it lists one that was not found, or drops one that its target was
told for. -/
theorem answered_iff (calls : List Recording) (package : PackageKey) :
    (∀ target, (after calls).provider? package = some target ↔
      (∃ call, lastListing? calls package = some call ∧ call.target = target) ∧
        Provides calls target package) ∧
    (Answered calls package ↔
      ∀ call, lastListing? calls package = some call → Provides calls call.target package ∨
        ∀ target, ¬ Provides calls target package) ∧
    ∀ call : Recording, (Found (calls ++ [call]) package ↔ Found calls package) ↔
      (package ∈ call.provided → Found calls package) ∧
        ((after calls).provider? package = some call.target → package ∈ call.provided) := by
  have sound (target : Target) (told : (after calls).provider? package = some target) :
      Provides calls target package :=
    ((provider?_after calls package target).mp told).2
  refine ⟨provider?_after calls package, ⟨?_, ?_⟩, ?_⟩
  · rintro ⟨-, none⟩ call last
    by_cases told : (after calls).provider? package = Option.none
    · exact .inr (none.mp told)
    · obtain ⟨target, told⟩ := Option.ne_none_iff_exists'.mp told
      obtain ⟨⟨listing, same, rfl⟩, provides⟩ := (provider?_after calls package target).mp told
      rw [last, Option.some.injEq] at same
      subst same
      exact .inl provides
  · intro faithful
    refine ⟨sound, ?_, ?_⟩
    · intro none target provides
      obtain ⟨call, last⟩ := exists_lastListing? provides
      rcases faithful call last with still | nobody
      · have told := (provider?_after calls package call.target).mpr ⟨⟨call, last, rfl⟩, still⟩
        rw [none] at told
        cases told
      · exact nobody target provides
    · intro nobody
      by_contra told
      obtain ⟨target, told⟩ := Option.ne_none_iff_exists'.mp told
      exact nobody target (sound target told)
  · intro call
    unfold Found
    rw [after_snoc, provider?_record (singleProviders_after calls)]
    by_cases listed : package ∈ call.provided
    · simp [listed]
    · cases told : (after calls).provider? package with
      | none => simp [listed]
      | some target => by_cases own : target = call.target <;> simp [listed, own]

/-- Two targets list one package, and the one that listed it last drops it again. -/
def dropped : List Recording :=
  let package : PackageKey := ⟨"npm", "p", "1.0.0"⟩
  let first : Target := ⟨"a", "aaaaaaaaaaaaaaaaaaaaaaaaaaaaaaaaaaaaaaaa"⟩
  let second : Target := ⟨"b", "bbbbbbbbbbbbbbbbbbbbbbbbbbbbbbbbbbbbbbbb"⟩
  [⟨first, [package], []⟩, ⟨second, [package], []⟩, ⟨second, [], []⟩]

/-- A package that a target still lists may not be found: another target has taken it over and
dropped it. -/
theorem provider_may_be_forgotten :
    ∃ calls package target, Provides calls target package ∧
      (after calls).provider? package = none ∧ ¬ Answered calls package := by
  have provides : Provides dropped ⟨"a", "aaaaaaaaaaaaaaaaaaaaaaaaaaaaaaaaaaaaaaaa"⟩
      ⟨"npm", "p", "1.0.0"⟩ :=
    ⟨_, rfl, List.mem_singleton_self _⟩
  have forgotten : (after dropped).provider? ⟨"npm", "p", "1.0.0"⟩ = none := by
    decide
  exact ⟨dropped, _, _, provides, forgotten,
    fun answered => answered.2.mp forgotten _ provides⟩

end PackageIndex

end CodeNav
