/-
Module: CodeNav.Proofs.Store.Matching
Purpose: Trees of files that differ in times only, and go on to do so whatever is done to both.
Main exports:
  Files.Matching, Files.Matching.write, Files.Matching.rename, Files.Matching.insensitive,
  Converter.builtin_matching
-/
import CodeNav.Proofs.Store.Contents

namespace CodeNav

open Stateful

namespace Files

/-- The same files and directories stand in both trees, and files to come get the same serial
numbers. -/
structure Matching (a b : Files) : Prop where
  alike : a.Alike b
  serial : a.nextSerial = b.nextSerial

theorem Alike.find?_of_plain {a b : Files} (alike : a.Alike b) {path : String}
    (free : a.find? path ≠ some .directory) : b.find? path ≠ some .directory :=
  fun taken => free (alike.symm.directory taken)

theorem Alike.isDirectory_eq {a b : Files} (alike : a.Alike b) (path : String) :
    a.isDirectory path = b.isDirectory path :=
  Bool.eq_iff_iff.mpr ⟨alike.isDirectory, alike.symm.isDirectory⟩

/-- Entries that differ in times only may be put at one path. -/
theorem Alike.put {a b : Files} (alike : a.Alike b) (path : String) {entry other : Entry}
    (plain : entry.plain = other.plain) : (a.put path entry).Alike (b.put path other) := by
  intro at_
  rw [find?_put, find?_put]
  split
  · simp [plain]
  · exact alike at_

theorem Alike.erase {a b : Files} (alike : a.Alike b) (path : String) :
    (a.erase path).Alike (b.erase path) := by
  intro at_
  rw [find?_erase, find?_erase]
  split
  · rfl
  · exact alike at_

/-- Reading changes times alone. -/
theorem nextSerial_touchRead (files : Files) (path : String) :
    (files.touchRead path).nextSerial = files.nextSerial := by
  rcases files.touchRead_eq path with same | ⟨f, _, result⟩
  · rw [same]
  · rw [result]
    rfl

theorem nextSerial_read (files : Files) (path : String) :
    (files.read path).2.nextSerial = files.nextSerial := by
  unfold read
  split
  · rfl
  · rfl
  · exact nextSerial_touchRead files path

/-- Nothing is moved to where there is no directory. -/
theorem rename_refused {files : Files} {source target : String} {f : File}
    (found : files.find? source = some (.file f)) (free : files.find? target ≠ some .directory)
    (noDirectory : ¬ files.isDirectory (parent target)) :
    files.rename source target = (.error .missing, files) := by
  unfold rename
  rw [found]
  dsimp only
  split
  · contradiction
  · rw [if_neg noDirectory]

namespace Matching

variable {a b c : Files}

theorem refl (files : Files) : Matching files files :=
  ⟨.refl files, rfl⟩

theorem trans (first : Matching a b) (second : Matching b c) : Matching a c :=
  ⟨first.alike.trans second.alike, first.serial.trans second.serial⟩

theorem touchRead (files : Files) (path : String) : Matching (files.touchRead path) files :=
  ⟨.touchRead files path, nextSerial_touchRead files path⟩

section

variable (matching : Matching a b)
include matching

/-! ### Operations -/

theorem read (path : String) :
    (a.read path).1 = (b.read path).1 ∧ Matching (a.read path).2 (b.read path).2 := by
  obtain ⟨same, alike⟩ := matching.alike.read path
  refine ⟨same, alike, ?_⟩
  rw [nextSerial_read, nextSerial_read, matching.serial]

theorem write (path : String) (content : Content) :
    (a.write path content).1 = (b.write path content).1 ∧
      Matching (a.write path content).2 (b.write path content).2 := by
  cases found : a.find? path with
  | none =>
      have other := matching.alike.missing found
      by_cases inDirectory : a.isDirectory (parent path)
      · rw [write_new found inDirectory,
          write_new other (matching.alike.isDirectory inDirectory)]
        exact ⟨rfl, matching.alike.put path (by simp [Entry.plain, newFile, matching.serial]),
          congrArg (· + 1) matching.serial⟩
      · have outside : ¬ b.isDirectory (parent path) := by
          rwa [← matching.alike.isDirectory_eq]
        rw [write_refused found inDirectory, write_refused other outside]
        exact ⟨rfl, matching⟩
  | some entry =>
      cases entry with
      | directory =>
          have other := matching.alike.directory found
          unfold Files.write
          rw [found, other]
          exact ⟨rfl, matching⟩
      | file f =>
          obtain ⟨g, other, serial, _⟩ := matching.alike.file found
          rw [write_over found, write_over other]
          exact ⟨rfl, matching.alike.put path (by simp [Entry.plain, serial]), matching.serial⟩

theorem remove (path : String) :
    (a.remove path).1 = (b.remove path).1 ∧ Matching (a.remove path).2 (b.remove path).2 := by
  cases found : a.find? path with
  | none =>
      unfold Files.remove
      rw [found, matching.alike.missing found]
      exact ⟨rfl, matching⟩
  | some entry =>
      cases entry with
      | directory =>
          unfold Files.remove
          rw [found, matching.alike.directory found]
          exact ⟨rfl, matching⟩
      | file f =>
          obtain ⟨g, other, _⟩ := matching.alike.file found
          rw [remove_file found, remove_file other]
          exact ⟨rfl, matching.alike.erase path, matching.serial⟩

theorem rename (source target : String) :
    (a.rename source target).1 = (b.rename source target).1 ∧
      Matching (a.rename source target).2 (b.rename source target).2 := by
  cases found : a.find? source with
  | none =>
      unfold Files.rename
      rw [found, matching.alike.missing found]
      exact ⟨rfl, matching⟩
  | some entry =>
      cases entry with
      | directory =>
          unfold Files.rename
          rw [found, matching.alike.directory found]
          exact ⟨rfl, matching⟩
      | file f =>
          obtain ⟨g, other, serial, content⟩ := matching.alike.file found
          by_cases taken : a.find? target = some .directory
          · unfold Files.rename
            rw [found, other, taken, matching.alike.directory taken]
            exact ⟨rfl, matching⟩
          · have free := matching.alike.find?_of_plain taken
            by_cases inDirectory : a.isDirectory (parent target)
            · rw [rename_file found taken inDirectory,
                rename_file other free (matching.alike.isDirectory inDirectory)]
              have erased := (show a.tick.Alike b.tick from matching.alike).erase source
              exact ⟨rfl, erased.put target (by simp [Entry.plain, renamed, serial, content]),
                matching.serial⟩
            · have outside : ¬ b.isDirectory (parent target) := by
                rwa [← matching.alike.isDirectory_eq]
              rw [rename_refused found taken inDirectory, rename_refused other free outside]
              exact ⟨rfl, matching⟩

end

end Matching

end Files

/-! ### Computations on files -/

theorem FilesM.matching_system {α : Type} {operation : Files → Except SystemFault α × Files}
    (same : ∀ a b, Files.Matching a b →
      (operation a).1 = (operation b).1 ∧ Files.Matching (operation a).2 (operation b).2) :
    Respects Files.Matching (FilesM.system operation) := by
  intro a b matching
  obtain ⟨result, files⟩ := same a b matching
  rw [Converter.system_run, Converter.system_run, result]
  exact ⟨rfl, files⟩

/-- Operations on files do not tell trees apart that are related. -/
structure FilesM.Insensitive (R : Files → Files → Prop) : Prop where
  read : ∀ path, Respects R (system (Files.read path))
  write : ∀ path content, Respects R (system (Files.write path content))
  remove : ∀ path, Respects R (system (Files.remove path))
  rename : ∀ source target, Respects R (system (Files.rename source target))

theorem FilesM.respects_eq {α : Type} (c : FilesM α) : Respects Eq c := by
  rintro a _ rfl
  exact ⟨rfl, rfl⟩

theorem FilesM.insensitive_eq : Insensitive Eq :=
  ⟨fun _ => respects_eq _, fun _ _ => respects_eq _, fun _ => respects_eq _,
    fun _ _ => respects_eq _⟩

theorem Files.Matching.insensitive : FilesM.Insensitive Matching where
  read path := FilesM.matching_system fun _ _ matching => matching.read path
  write path content := FilesM.matching_system fun _ _ matching => matching.write path content
  remove path := FilesM.matching_system fun _ _ matching => matching.remove path
  rename source target := FilesM.matching_system fun _ _ matching => matching.rename source target

/-- The converter in process does the same on trees that differ in times only. -/
theorem Converter.builtin_matching [Gzip.Compressor] (input output : String) (kind : Encoding) :
    Respects Files.Matching (builtin input output kind) := by
  have lifted {α : Type} (result : Except Failure α) :
      Respects Files.Matching (builtin.liftExcept result) := by
    cases result with
    | ok value => exact Related.pure value
    | error failure => exact Related.throw failure
  have readDump : Respects Files.Matching (readDump input) := by
    refine Related.bind (Files.Matching.insensitive.read input) fun content => ?_
    cases content with
    | octets octets => exact Related.pure octets
    | _ => exact Related.throw _
  have replace (tables : Tables) : Respects Files.Matching (replace output tables) := by
    have write := Files.Matching.insensitive.write output (.tables tables)
    have remove := Files.Matching.insensitive.remove output
    apply Related.get_bind
    intro a b matching
    rw [matching.alike.contains]
    split
    · exact Related.bind remove (fun _ => write) a b matching
    · exact write a b matching
  unfold builtin
  split
  · exact Related.bind (Related.throw _) fun _ => Related.bind readDump fun octets =>
      Related.bind (lifted _) fun elements => Related.bind (lifted _) fun tables => replace tables
  · exact Related.bind readDump fun octets =>
      Related.bind (lifted _) fun elements => Related.bind (lifted _) fun tables => replace tables

end CodeNav
