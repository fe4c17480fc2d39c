/-
Module: CodeNav.Proofs.Service.Trimming
Purpose: Housekeeping deletes the shortest run of the files not read for longest, and nothing else.
Main exports:
  Quota.IsStored, Quota.mem_storedFiles_iff, Quota.kept_least, Quota.Trimmed, Quota.enforce_exact
-/
import CodeNav.Proofs.Gzip.Stored
import CodeNav.Proofs.Service.Housekeeping

namespace CodeNav.Quota

open Service (documentKey)

/-! ### Files of dumps -/

/-- A file of a dump, told by its name alone: it stands directly in the root, under a key followed
by the ending of an encoding. -/
structure IsStored (sizes : Sizes) (files : Files) (root : String) (file : StoredFile) : Prop where
  named : ∃ kind : Encoding, file.path = Files.join root (file.key ++ kind.extension)
  nonempty : file.key ≠ ""
  flat : '/' ∉ file.key.toList
  stands : ∃ f : File, files.find? file.path = some (.file f) ∧
    f.content.size sizes = file.size ∧ f.times.accessed = file.accessed

theorem mem_storedFiles_iff {sizes : Sizes} {files : Files} {root : String} {file : StoredFile} :
    file ∈ storedFiles sizes files root ↔ IsStored sizes files root file := by
  rw [storedFiles_eq, List.mem_filterMap]
  constructor
  · rintro ⟨⟨path, entry⟩, listed, stored⟩
    have there : files.find? path = some entry :=
      Std.ExtTreeMap.mem_toList_iff_getElem?_eq_some.mp listed
    obtain ⟨rfl, f, rfl, stands⟩ := storedFile_stands there stored
    obtain ⟨name, named, stored⟩ := Option.bind_eq_some_iff.mp stored
    obtain ⟨⟨kind, key⟩, split, made⟩ := Option.bind_eq_some_iff.mp stored
    obtain ⟨rfl, nonempty⟩ := Encoding.splitFileName?_eq_some_iff.mp split
    have flat := Files.slash_not_mem_of_nameIn? named
    rw [String.toList_append, List.mem_append] at flat
    cases made
    exact ⟨⟨kind, rfl⟩, nonempty, fun slash => flat (.inl slash), f, there, stands⟩
  · rintro ⟨⟨kind, named⟩, nonempty, flat, f, there, size, accessed⟩
    have name : Files.nameIn? root file.path = some (file.key ++ kind.extension) := by
      rw [named]
      refine Files.nameIn?_join ?_
      rw [String.toList_append, List.mem_append]
      exact not_or.mpr ⟨flat, Encoding.slash_not_mem_extension kind⟩
    refine ⟨(file.path, .file f), Std.ExtTreeMap.mem_toList_iff_getElem?_eq_some.mpr there, ?_⟩
    dsimp only
    rw [name, Option.bind_some]
    unfold storedFile?
    rw [Encoding.splitFileName?_eq_some_iff.mpr ⟨rfl, nonempty⟩]
    change some (StoredFile.mk _ file.key (f.content.size sizes) f.times.accessed) = some file
    rw [size, accessed, ← named]

/-! ### The shortest run -/

theorem totalSize_append (front rest : List StoredFile) :
    totalSize (front ++ rest) = totalSize front + totalSize rest := by
  unfold totalSize
  rw [List.map_append, total_append]

/-- What is kept is small enough, and would not be with any file more. -/
theorem kept_least (most : Nat) {stored gone : List StoredFile}
    (split : stored = gone ++ kept most (totalSize stored) stored) :
    totalSize (kept most (totalSize stored) stored) ≤ most ∧
      ∀ fewer < gone.length, most < totalSize (stored.drop fewer) := by
  induction stored generalizing gone with
  | nil =>
      obtain ⟨rfl, _⟩ := List.append_eq_nil_iff.mp split.symm
      exact ⟨Nat.zero_le _, nofun⟩
  | cons file rest ih =>
      unfold kept at split ⊢
      by_cases small : totalSize (file :: rest) ≤ most
      · rw [if_pos small] at split ⊢
        obtain rfl := List.self_eq_append_left.mp split
        exact ⟨small, nofun⟩
      · rw [if_neg small, totalSize_cons, Nat.add_sub_cancel_left] at split ⊢
        cases gone with
        | nil =>
            have shorter := congrArg List.length split
            have all := (kept_suffix most (totalSize rest) rest).length_le
            rw [List.nil_append, List.length_cons] at shorter
            omega
        | cons first others =>
            rw [List.cons_append, List.cons.injEq] at split
            obtain ⟨fits, least⟩ := ih split.2
            refine ⟨fits, fun fewer less => ?_⟩
            cases fewer with
            | zero => exact Nat.lt_of_not_le small
            | succ fewer => exact least fewer (Nat.lt_of_succ_lt_succ less)

/-! ### Housekeeping -/

/-- What housekeeping comes to: the files of dumps fall into those that are gone and the rest, in
the order in which they were last read; no fewer would have been enough. -/
structure Trimmed (most : Nat) (s t : Service) (report : Report) (gone rest : List StoredFile) :
    Prop extends Swept gone s t where
  listed : ∀ file, file ∈ gone ++ rest ↔ IsStored s.sizes s.files s.root file
  sorted : (gone ++ rest).Pairwise fun a b => a.accessed < b.accessed
  small : totalSize rest ≤ most
  shortest : ∀ fewer < gone.length, most < totalSize ((gone ++ rest).drop fewer)
  report : report = ⟨totalSize rest, gone.map (·.path)⟩
  left : ∀ file, IsStored t.sizes t.files t.root file ↔ file ∈ rest
  other : ∀ path, t.files.find? path =
    if path ∈ gone.map (·.path) then none else s.files.find? path
  closed : ∀ file ∈ gone, t.databases.entries.find? file.key = none
  forgotten : ∀ file ∈ gone, ∀ path, t.documents.find? (documentKey file.path path) = none

variable {s t : Service}

/-- A file is stored still unless it was deleted. -/
theorem Deleted.isStored_iff {paths : List String} (deleted : Deleted paths s t)
    {file : StoredFile} :
    IsStored t.sizes t.files t.root file ↔
      IsStored s.sizes s.files s.root file ∧ file.path ∉ paths := by
  have found : t.files.find? file.path =
      if file.path ∈ paths then none else s.files.find? file.path := by
    rw [deleted.frame, Files.find?_eraseAll]
  have root : t.root = s.root := by rw [deleted.frame]
  have sizes : t.sizes = s.sizes := by rw [deleted.frame]
  constructor
  · intro stored
    obtain ⟨f, stands, rest⟩ := stored.stands
    rw [found] at stands
    split at stands
    · cases stands
    · rename_i stays
      exact ⟨⟨root ▸ stored.named, stored.nonempty, stored.flat, f, stands, sizes ▸ rest⟩, stays⟩
  · rintro ⟨stored, stays⟩
    obtain ⟨f, stands, rest⟩ := stored.stands
    rw [if_neg stays] at found
    exact ⟨root ▸ stored.named, stored.nonempty, stored.flat, f, found.trans stands, sizes ▸ rest⟩

/-- Different files were read at different times, so their order is strict. -/
theorem byAccess_strictly {stored : List StoredFile} (nodup : stored.Nodup)
    (distinct : ∀ a ∈ stored, ∀ b ∈ stored, a.accessed = b.accessed → a = b) :
    (byAccess stored).Pairwise fun a b => a.accessed < b.accessed := by
  have perm := byAccess_perm stored
  have different : (byAccess stored).Pairwise (· ≠ ·) := perm.nodup_iff.mpr nodup
  refine ((byAccess_sorted stored).and different).imp_of_mem ?_
  rintro a b member among ⟨before, apart⟩
  refine Nat.lt_of_le_of_ne before fun same => apart ?_
  exact distinct a (perm.mem_iff.mp member) b (perm.mem_iff.mp among) same

/-- If the files of dumps were last read at different times, housekeeping deletes the shortest run
of the oldest ones that leaves little enough, and with them the databases and documents of those
files, and nothing else. -/
theorem enforce_exact (most : Nat)
    (distinct : ∀ a b, IsStored s.sizes s.files s.root a → IsStored s.sizes s.files s.root b →
      a.accessed = b.accessed → a = b) :
    ∃ report t gone rest, enforce most s = (.ok report, t) ∧
      Trimmed most s t report gone rest := by
  obtain ⟨t, gone, run, split, swept⟩ := enforce_run most s
  have perm := byAccess_perm (storedFiles s.sizes s.files s.root)
  have strictly := byAccess_strictly (nodup_storedFiles s.sizes s.files s.root).of_map
    fun a first b second =>
      distinct a b (mem_storedFiles_iff.mp first) (mem_storedFiles_iff.mp second)
  have paths := nodup_byAccess s.sizes s.files s.root
  obtain ⟨small, least⟩ := kept_least most split
  generalize kept most _ _ = rest at split small
  rw [split] at perm strictly paths least run
  have listed (file) : file ∈ gone ++ rest ↔ IsStored s.sizes s.files s.root file :=
    perm.mem_iff.trans mem_storedFiles_iff
  refine ⟨_, t, gone, rest, run, { swept with
    listed, sorted := strictly, small, shortest := least, report := ?_, left := ?_, other := ?_,
    closed := ?_, forgotten := ?_ }⟩
  · rw [totalSize_append, Nat.add_sub_cancel_left]
  · intro file
    rw [swept.isStored_iff, ← listed, List.mem_append]
    rw [List.map_append, List.nodup_append] at paths
    constructor
    · rintro ⟨among | stays, notGone⟩
      · exact absurd (List.mem_map_of_mem among) notGone
      · exact stays
    · intro stays
      exact ⟨.inr stays, fun among => paths.2.2 _ among _ (List.mem_map_of_mem stays) rfl⟩
  · intro path
    rw [swept.frame, Files.find?_eraseAll]
  · intro file among
    rw [WeightedCache.find?_eq_none, swept.entries]
    intro e listed same
    have stays : e.key ∉ gone.map (·.key) := of_decide_eq_true (List.mem_filter.mp listed).2
    exact stays (same ▸ List.mem_map_of_mem among)
  · intro file among path
    rw [WeightedCache.find?_eq_none, swept.documents]
    rintro e listed same
    have fromOthers := List.all_eq_true.mp (List.mem_filter.mp listed).2 file among
    rw [same, Service.isFrom_documentKey] at fromOthers
    cases fromOthers

/-- A file of some size that was last read at some time. -/
def sampleFile (size accessed : Nat) : Entry :=
  .file ⟨0, .octets (List.replicate size 0x78), ⟨accessed, 0, 0⟩⟩

open scoped Gzip

/-- A service with three dumps of two targets, both of which are open, beside files that are none
of its dumps. -/
def pressed : Service :=
  { Service.start "dumps" ⟨true, true, true⟩ ⟨10, 1000, 1000, 1000⟩
      ⟨.ofList [("dumps", .directory), ("dumps/tmp", .directory),
        ("dumps/tmp/upload-0.lsif", sampleFile 7 1), ("dumps/readme", sampleFile 7 1),
        ("dumps/xrepo.db", .file ⟨0, .index, ⟨1, 0, 0⟩⟩), ("dumps/a.lsif", sampleFile 6 2),
        ("dumps/b.blob.db", sampleFile 5 1), ("dumps/a.graph.db", sampleFile 4 3)], 9, 1⟩
      (.available .empty) Converter.builtin with
    databases := ⟨⟨1000, [⟨"b", 1, 1⟩, ⟨"a", 0, 1⟩], 2, 0, 2, 0⟩, #[]⟩ }

/-- The dumps of the sample in the order in which they were last read. -/
def pressedOrder : List StoredFile :=
  [⟨"dumps/b.blob.db", "b", 5, 1⟩, ⟨"dumps/a.lsif", "a", 6, 2⟩, ⟨"dumps/a.graph.db", "a", 4, 3⟩]

theorem isStored_pressed {file : StoredFile} :
    IsStored pressed.sizes pressed.files pressed.root file ↔ file ∈ pressedOrder := by
  have stored : storedFiles pressed.sizes pressed.files pressed.root =
      [⟨"dumps/a.graph.db", "a", 4, 3⟩, ⟨"dumps/a.lsif", "a", 6, 2⟩,
        ⟨"dumps/b.blob.db", "b", 5, 1⟩] := by
    decide +kernel
  rw [← mem_storedFiles_iff, stored]
  exact (List.reverse_perm pressedOrder).mem_iff

/-- Down to ten octets the oldest dump goes, and with it the database of its target alone. -/
theorem enforce_exact_pressed :
    (∀ a b, IsStored pressed.sizes pressed.files pressed.root a →
      IsStored pressed.sizes pressed.files pressed.root b → a.accessed = b.accessed → a = b) ∧
    ∃ t, enforce 10 pressed = (.ok ⟨10, ["dumps/b.blob.db"]⟩, t) ∧
      t.databases.entries.entries = [⟨"a", 0, 1⟩] := by
  have apart : ∀ a ∈ pressedOrder, ∀ b ∈ pressedOrder, a.accessed = b.accessed → a = b := by
    decide
  have distinct : ∀ a b, IsStored pressed.sizes pressed.files pressed.root a →
      IsStored pressed.sizes pressed.files pressed.root b → a.accessed = b.accessed → a = b :=
    fun a b first second => apart a (isStored_pressed.mp first) b (isStored_pressed.mp second)
  obtain ⟨_, t, gone, rest, run, trimmed⟩ := enforce_exact 10 distinct
  have order : gone ++ rest = pressedOrder := by
    have before : pressedOrder.Pairwise fun a b => a.accessed < b.accessed := by decide
    refine List.Perm.eq_of_pairwise (fun a b _ _ first second => ?_) trimmed.sorted before ?_
    · exact absurd first (Nat.lt_asymm second)
    · refine (List.perm_ext_iff_of_nodup ?_ (by decide)).mpr fun file => ?_
      · refine List.Pairwise.imp ?_ trimmed.sorted
        rintro a b less rfl
        exact Nat.lt_irrefl _ less
      · exact (trimmed.listed file).trans isStored_pressed
  refine ⟨distinct, t, ?_⟩
  have small := trimmed.small
  have shortest := trimmed.shortest
  rw [order] at shortest
  -- without any deletion fifteen octets are left, behind the first one ten
  cases gone with
  | nil =>
      rw [List.nil_append] at order
      rw [order] at small
      exact absurd small (by decide)
  | cons first others =>
      cases others with
      | cons second others => exact absurd (shortest 1 (by simp)) (by decide)
      | nil =>
          obtain ⟨rfl, rfl⟩ := List.cons.inj order
          rw [run, trimmed.report, trimmed.entries]
          exact ⟨rfl, by decide⟩

end CodeNav.Quota
