/-
Module: CodeNav.Proofs.Packages.Users
Purpose: Which targets the index of packages tells as users after any sequence of recorded dumps.
Main exports:
  mem_ascending, pairwise_ascending, Element.Imports, RecordedDump, PackageIndex.mem_usages_after,
  PackageIndex.users_eq_latest_imports
-/
import CodeNav.Proofs.Dump.Graph
import CodeNav.Proofs.Packages.Recordings
import CodeNav.Proofs.Text.Order

namespace CodeNav

/-! ### Ascending lists -/

section

variable {α : Type} [BEq α] [LawfulBEq α]

/-- Dropping repetitions keeps every relation between members and leaves different ones. -/
theorem pairwise_eraseDups {R : α → α → Prop} : ∀ {l : List α}, l.Pairwise R →
    l.eraseDups.Pairwise fun a b => R a b ∧ a ≠ b
  | [], _ => List.Pairwise.nil
  | a :: rest, related => by
    obtain ⟨first, related⟩ := List.pairwise_cons.mp related
    rw [List.eraseDups_cons, List.pairwise_cons]
    constructor
    · intro b member
      obtain ⟨kept, other⟩ := List.mem_filter.mp (List.mem_eraseDups.mp member)
      have differ : b ≠ a := by simpa using other
      exact ⟨first b kept, differ.symm⟩
    · exact pairwise_eraseDups (related.sublist List.filter_sublist)
termination_by l => l.length
decreasing_by exact Nat.lt_succ_of_le (List.length_filter_le _ _)

variable [Ord α]

theorem mem_ascending {a : α} {l : List α} : a ∈ ascending l ↔ a ∈ l := by
  rw [ascending, List.mem_eraseDups, List.mem_mergeSort]

variable [Std.TransOrd α] [Std.LawfulEqOrd α]

/-- Each member of an ascending list comes before the next. -/
theorem pairwise_ascending (l : List α) :
    (ascending l).Pairwise fun a b => compare a b = .lt := by
  have sorted := @List.pairwise_mergeSort α (fun a b => (compare a b).isLE)
    (fun a b c => Std.TransCmp.isLE_trans)
    (fun a b => by cases order : compare a b <;> simp [order, Std.OrientedOrd.eq_swap (a := b)]) l
  apply (pairwise_eraseDups sorted).imp
  rintro a b ⟨notAfter, differ⟩
  cases order : compare a b with
  | lt => rfl
  | eq => exact absurd (Std.LawfulEqOrd.eq_of_compare order) differ
  | gt =>
      rw [order] at notAfter
      cases notAfter

end

/-! ### The order of targets -/

namespace Target

instance : Std.TransOrd Target :=
  inferInstanceAs (Std.TransCmp
    (compareLex (compareOn Target.repository) (compareOn Target.commit)))

instance : Std.LawfulEqOrd Target where
  compare_self := Ordering.then_eq_eq.mpr ⟨Std.ReflOrd.compare_self, Std.ReflOrd.compare_self⟩
  eq_of_compare {a b} same := by
    obtain ⟨first, second⟩ := Ordering.then_eq_eq.mp same
    cases a
    cases b
    congr
    · exact Std.LawfulEqOrd.eq_of_compare first
    · exact Std.LawfulEqOrd.eq_of_compare second

/-- One target stands before another by the octets of its repository, or of its commit if the
repository is the same. -/
def Before (a b : Target) : Prop :=
  Utf8.encode a.repository < Utf8.encode b.repository ∨
    a.repository = b.repository ∧ Utf8.encode a.commit < Utf8.encode b.commit

theorem compare_eq_lt {a b : Target} : compare a b = .lt ↔ a.Before b := by
  change ((compare a.repository b.repository).then (compare a.commit b.commit)) = .lt ↔ _
  rw [Ordering.then_eq_lt, compare_lt_iff_lt, compare_lt_iff_lt, compare_eq_iff_eq, Before,
    Utf8.encode_lt_encode, Utf8.encode_lt_encode]

theorem Before.asymm {a b : Target} (before : a.Before b) : ¬ b.Before a := by
  rw [← compare_eq_lt] at before ⊢
  rw [Std.OrientedOrd.eq_swap, before]
  decide

end Target

/-! ### Imports of dumps -/

/-- Some elements import an identifier of a package: an import moniker with the scheme and the
identifier names, by the last edge that leads to a package, one with the name and the version. -/
def Element.Imports (elements : List Element) (package : PackageKey) (identifier : String) :
    Prop :=
  ∃ id moniker info, Element.moniker? elements id = some moniker ∧ moniker.kind = .imported ∧
    moniker.scheme = package.scheme ∧ moniker.identifier = identifier ∧
    moniker.package = some info ∧
    Element.package? elements info = some ⟨package.name, package.version⟩

namespace Dump

variable {elements : List Element} {dump : Dump}

theorem mem_packaged {kind : MonikerKind} {package : PackageKey} {identifier : String} :
    (package, identifier) ∈ dump.packaged kind ↔
      ∃ id moniker info, dump.moniker? id = some moniker ∧ moniker.kind = kind ∧
        moniker.scheme = package.scheme ∧ moniker.identifier = identifier ∧
        moniker.package = some info ∧
        dump.packages[info]? = some ⟨package.name, package.version⟩ := by
  unfold packaged monikersWithPackages
  simp only [List.mem_filterMap, List.mem_map, Std.ExtTreeMap.mem_keys]
  constructor
  · rintro ⟨_, ⟨moniker, ⟨id, -, found⟩, rfl⟩, made⟩
    split at made
    · rename_i same
      obtain ⟨p, named, made⟩ := Option.map_eq_some_iff.mp made
      obtain ⟨info, stated, known⟩ := Option.bind_eq_some_iff.mp named
      obtain ⟨rfl, rfl⟩ := Prod.mk.inj made
      exact ⟨id, moniker, info, found, same, rfl, rfl, stated, known⟩
    · cases made
  · rintro ⟨id, moniker, info, found, same, scheme, rfl, stated, known⟩
    have listed : id ∈ dump.monikers := by
      obtain ⟨plain, held, -⟩ := Option.map_eq_some_iff.mp found
      exact Std.ExtTreeMap.mem_iff_isSome_getElem?.mpr (Option.isSome_of_eq_some held)
    refine ⟨_, ⟨moniker, ⟨id, listed, found⟩, rfl⟩, ?_⟩
    simp [same, stated, known, scheme]

/-- The imports of a graph are those of its elements. -/
theorem mem_packaged_imported (accepted : ofElements elements = .ok dump) {package : PackageKey}
    {identifier : String} :
    (package, identifier) ∈ dump.packaged .imported ↔
      Element.Imports elements package identifier := by
  rw [mem_packaged]
  simp only [moniker?_ofElements accepted, packages_ofElements accepted]
  rfl

/-- The uses of a dump are its imports, grouped by package. -/
theorem mem_used {package : PackageKey} {identifier : String} :
    (∃ use ∈ dump.used, use.package = package ∧ identifier ∈ use.identifiers) ↔
      (package, identifier) ∈ dump.packaged .imported := by
  simp only [used, List.mem_map, mem_ascending]
  constructor
  · rintro ⟨_, ⟨key, -, rfl⟩, rfl, listed⟩
    obtain ⟨⟨p, i⟩, member, rfl⟩ := List.mem_map.mp (mem_ascending.mp listed)
    obtain ⟨member, same⟩ := List.mem_filter.mp member
    rwa [← eq_of_beq same]
  · intro member
    refine ⟨_, ⟨package, ⟨_, member, rfl⟩, rfl⟩, rfl, mem_ascending.mpr ?_⟩
    exact List.mem_map.mpr ⟨_, List.mem_filter.mpr ⟨member, beq_self_eq_true _⟩, rfl⟩

end Dump

/-! ### Usages in the index -/

namespace PackageIndex

open Recording

variable {calls : List Recording} {package : PackageKey} {identifier : String} {target : Target}

theorem usages_foldl_provide (target : Target) (provided : List PackageKey)
    (index : PackageIndex) :
    (provided.foldl (provide target) index).usages = index.usages := by
  induction provided generalizing index with
  | nil => rfl
  | cons listed rest ih => exact ih (index.provide target listed)

/-- A call puts the usages of its target in place of all that were recorded for it. -/
theorem mem_usages_record {index : PackageIndex} {call : Recording} {usage : Usage} :
    usage ∈ (index.record call.target call.provided call.used).usages ↔
      usage ∈ index.usages ∧ usage.target ≠ call.target ∨
        ∃ use ∈ call.used, usage ∈ usagesOf call.target use := by
  simp only [record, usages_foldl_provide, List.mem_append, List.mem_flatMap, forget,
    List.mem_filter, bne_iff_ne]

/-- The usages of a target are those that its most recent call lists. -/
theorem mem_usages_after (calls : List Recording) (package : PackageKey) (identifier : String)
    (target : Target) :
    ⟨package, identifier, target⟩ ∈ (after calls).usages ↔
      ∃ call, latest? calls target = some call ∧
        ∃ use ∈ call.used, use.package = package ∧ identifier ∈ use.identifiers := by
  have listed {call : Recording} : (∃ use ∈ call.used, (⟨package, identifier, target⟩ : Usage) ∈
      usagesOf call.target use) ↔ call.target = target ∧
        ∃ use ∈ call.used, use.package = package ∧ identifier ∈ use.identifiers := by
    simp only [usagesOf, List.mem_map, Usage.mk.injEq]
    constructor
    · rintro ⟨use, member, _, among, rfl, rfl, rfl⟩
      exact ⟨rfl, use, member, rfl, among⟩
    · rintro ⟨rfl, use, member, rfl, among⟩
      exact ⟨use, member, identifier, among, rfl, rfl, rfl⟩
  induction calls using List.reverseRecOn with
  | nil => simp [after, empty, latest?]
  | append_singleton calls call ih =>
      rw [after_snoc, mem_usages_record, listed, latest?_snoc]
      simp only [ih]
      by_cases own : call.target = target
      · simp [own]
      · simp [own, Ne.symm own]

/-- The users of an identifier are the targets with such a usage. -/
theorem mem_users {index : PackageIndex} :
    target ∈ index.users package identifier ↔ ⟨package, identifier, target⟩ ∈ index.usages := by
  simp only [users, mem_ascending, List.mem_map, List.mem_filter, Bool.and_eq_true, beq_iff_eq]
  constructor
  · rintro ⟨usage, ⟨member, rfl, rfl⟩, rfl⟩
    exact member
  · intro member
    exact ⟨_, ⟨member, rfl, rfl⟩, rfl⟩

end PackageIndex

/-! ### Recorded dumps -/

/-- A dump that is recorded for a target: its elements, and the graph that they amount to. -/
structure RecordedDump where
  target : Target
  elements : List Element
  dump : Dump
  accepted : Dump.ofElements elements = .ok dump

namespace RecordedDump

/-- The call that records a dump. -/
def call (record : RecordedDump) : Recording :=
  ⟨record.target, record.dump.provided, record.dump.used⟩

/-- The dump recorded last for a target. -/
def latest? (records : List RecordedDump) (target : Target) : Option RecordedDump :=
  (records.filter (·.target = target)).getLast?

theorem latest?_map_call (records : List RecordedDump) (target : Target) :
    Recording.latest? (records.map call) target = (latest? records target).map call := by
  unfold Recording.latest? latest?
  rw [List.filter_map, List.getLast?_map]
  rfl

end RecordedDump

namespace PackageIndex

open RecordedDump

/-- The index in which some dumps were recorded one after the other. -/
def ofRecords (records : List RecordedDump) : PackageIndex :=
  after (records.map call)

/-- The users of an identifier of a package are the targets whose dump recorded last imports it,
each once, by the octets of repository and commit. So they only depend on the dump recorded last for
each target, in whatever order different targets were recorded. -/
theorem users_eq_latest_imports (records : List RecordedDump) (package : PackageKey)
    (identifier : String) :
    (∀ target, target ∈ (ofRecords records).users package identifier ↔
      ∃ record, latest? records target = some record ∧
        Element.Imports record.elements package identifier) ∧
    ((ofRecords records).users package identifier).Pairwise Target.Before ∧
    ∀ others, (∀ target, latest? others target = latest? records target) →
      (ofRecords others).users package identifier =
        (ofRecords records).users package identifier := by
  have members (records : List RecordedDump) (target : Target) :
      target ∈ (ofRecords records).users package identifier ↔
        ∃ record, latest? records target = some record ∧
          Element.Imports record.elements package identifier := by
    simp only [mem_users, ofRecords, mem_usages_after, latest?_map_call,
      Option.map_eq_some_iff, exists_exists_and_eq_and]
    apply exists_congr
    intro record
    apply and_congr_right
    intro _
    rw [← Dump.mem_packaged_imported record.accepted]
    exact Dump.mem_used
  have sorted (records : List RecordedDump) :
      ((ofRecords records).users package identifier).Pairwise Target.Before :=
    (pairwise_ascending _).imp Target.compare_eq_lt.mp
  refine ⟨members records, sorted records, ?_⟩
  intro others same
  have nodup (records : List RecordedDump) :
      ((ofRecords records).users package identifier).Nodup :=
    (sorted records).imp fun before equal => (equal ▸ before).asymm (equal ▸ before)
  have alike : ((ofRecords others).users package identifier).Perm
      ((ofRecords records).users package identifier) := by
    rw [List.perm_ext_iff_of_nodup (nodup others) (nodup records)]
    intro target
    rw [members, members, same]
  exact alike.eq_of_pairwise (fun a b _ _ before after => absurd after before.asymm)
    (sorted others) (sorted records)

end PackageIndex

end CodeNav
