/-
Module: CodeNav.Proofs.Store.Files
Purpose: What each operation does to the directory tree, and what it leaves alone.
Main exports:
  Files.Alike, Files.Timely, Files.Besides, Files.write_new, Files.rename_file
-/
import CodeNav.Store.Loading

namespace CodeNav.Files

/-! ### Entries -/

@[simp] theorem find?_put (files : Files) (path other : String) (entry : Entry) :
    (files.put path entry).find? other =
      if path = other then some entry else files.find? other := by
  unfold put find?
  by_cases same : path = other
  · subst same
    simp
  · simp [Std.ExtTreeMap.getElem?_insert, same]

/-- Takes the entry at a path away. -/
def erase (files : Files) (path : String) : Files :=
  { files with entries := files.entries.erase path }

@[simp] theorem find?_erase (files : Files) (path other : String) :
    (files.erase path).find? other = if path = other then none else files.find? other := by
  unfold erase find?
  by_cases same : path = other
  · subst same
    simp
  · simp [Std.ExtTreeMap.getElem?_erase, same]

@[simp] theorem find?_tick (files : Files) (path : String) :
    files.tick.find? path = files.find? path :=
  rfl

theorem contains_eq (files : Files) (path : String) :
    files.contains path = (files.find? path).isSome :=
  Std.ExtTreeMap.contains_eq_isSome_getElem?

theorem file?_eq_some {files : Files} {path : String} {f : File} :
    files.file? path = some f ↔ files.find? path = some (.file f) := by
  unfold file?
  cases files.find? path with
  | none => simp
  | some entry => cases entry <;> simp

/-- Trees with the same entries at all paths have the same entries. -/
theorem entries_ext {a b : Files} (same : ∀ path, a.find? path = b.find? path) :
    a.entries = b.entries :=
  Std.ExtTreeMap.ext_getElem? fun path => same path

/-! ### Operations -/

/-- Reading a file may change the time of its access, and nothing else. -/
theorem touchRead_eq (files : Files) (path : String) :
    files.touchRead path = files ∨ ∃ f, files.find? path = some (.file f) ∧
      files.touchRead path = files.tick.put path
        (.file { f with times := { f.times with accessed := files.clock + 1 } }) := by
  unfold touchRead
  cases found : files.file? path with
  | none => exact .inl rfl
  | some f =>
      simp only
      split
      · exact .inr ⟨f, file?_eq_some.mp found, rfl⟩
      · exact .inl rfl

/-- A file that was not read since it was written is marked as read. -/
theorem touchRead_written {files : Files} {path : String} {f : File}
    (found : files.find? path = some (.file f)) (written : f.times.accessed ≤ f.times.modified) :
    files.touchRead path = files.tick.put path
      (.file { f with times := { f.times with accessed := files.clock + 1 } }) := by
  unfold touchRead
  rw [file?_eq_some.mpr found]
  simp only
  rw [if_pos (by simp [written])]
  rfl

theorem read_file {files : Files} {path : String} {f : File}
    (found : files.find? path = some (.file f)) :
    files.read path = (.ok f.content, files.touchRead path) := by
  unfold read
  rw [found]

theorem read_missing {files : Files} {path : String} (absent : files.find? path = none) :
    files.read path = (.error .missing, files) := by
  unfold read
  rw [absent]

/-- A file that is made carries the present time and a serial number of its own. -/
def newFile (files : Files) (content : Content) : File :=
  ⟨files.nextSerial, content, ⟨files.clock + 1, files.clock + 1, files.clock + 1⟩⟩

theorem write_new {files : Files} {path : String} {content : Content}
    (absent : files.find? path = none) (inDirectory : files.isDirectory (parent path)) :
    files.write path content =
      (.ok (), { files.tick with nextSerial := files.nextSerial + 1 }.put path
        (.file (files.newFile content))) := by
  unfold write
  rw [absent]
  simp only
  rw [if_pos inDirectory]
  rfl

theorem write_refused {files : Files} {path : String} {content : Content}
    (absent : files.find? path = none) (noDirectory : ¬ files.isDirectory (parent path)) :
    files.write path content = (.error .missing, files) := by
  unfold write
  rw [absent]
  simp only
  rw [if_neg noDirectory]

theorem write_over {files : Files} {path : String} {content : Content} {f : File}
    (found : files.find? path = some (.file f)) :
    files.write path content =
      (.ok (), files.tick.put path (.file { f with
        content
        times := { f.times with modified := files.clock + 1, changed := files.clock + 1 } })) := by
  unfold write
  rw [found]
  rfl

theorem remove_file {files : Files} {path : String} {f : File}
    (found : files.find? path = some (.file f)) :
    files.remove path = (.ok (), files.erase path) := by
  unfold remove
  rw [found]
  rfl

/-- A removal takes a file away, or changes nothing. -/
theorem remove_cases (files : Files) (path : String) :
    (∃ f, files.find? path = some (.file f) ∧ files.remove path = (.ok (), files.erase path)) ∨
    ∃ fault, files.remove path = (.error fault, files) := by
  cases found : files.find? path with
  | none =>
      right
      unfold remove
      rw [found]
      exact ⟨_, rfl⟩
  | some entry =>
      cases entry with
      | file f => exact .inl ⟨f, rfl, remove_file found⟩
      | directory =>
          right
          unfold remove
          rw [found]
          exact ⟨_, rfl⟩

/-- A file as it is once its name has changed. -/
def renamed (files : Files) (f : File) : File :=
  { f with times := { f.times with changed := files.clock + 1 } }

/-- A renaming moves a file to a place that no directory takes, or changes nothing. -/
theorem rename_cases (files : Files) (source target : String) :
    (∃ f, files.find? source = some (.file f) ∧ files.find? target ≠ some .directory ∧
      files.isDirectory (parent target) ∧
      files.rename source target =
        (.ok (), (files.tick.erase source).put target (.file (files.renamed f)))) ∨
    ∃ fault, files.rename source target = (.error fault, files) := by
  unfold rename
  cases found : files.find? source with
  | none => exact .inr ⟨_, rfl⟩
  | some entry =>
      cases entry with
      | directory => exact .inr ⟨_, rfl⟩
      | file f =>
          simp only
          split
          · exact .inr ⟨_, rfl⟩
          · rename_i free
            split
            · rename_i inDirectory
              exact .inl ⟨f, rfl, free, inDirectory, rfl⟩
            · exact .inr ⟨_, rfl⟩

theorem rename_file {files : Files} {source target : String} {f : File}
    (found : files.find? source = some (.file f)) (free : files.find? target ≠ some .directory)
    (inDirectory : files.isDirectory (parent target)) :
    files.rename source target =
      (.ok (), (files.tick.erase source).put target (.file (files.renamed f))) := by
  unfold rename
  rw [found]
  simp only
  split
  · rfl
  · rename_i noDirectory
    exact absurd inDirectory noDirectory

/-! ### Trees that differ in times only -/

end Files

/-- What stands at a path, times apart: a file's serial number and content, or a directory. -/
def Entry.plain : Entry → Option (Nat × Content)
  | .file f => some (f.serial, f.content)
  | .directory => none

theorem Entry.size_of_plain {a b : Entry} (same : a.plain = b.plain) (sizes : Sizes) :
    a.size sizes = b.size sizes := by
  cases a with
  | directory =>
      cases b with
      | directory => rfl
      | file g => cases same
  | file f =>
      cases b with
      | directory => cases same
      | file g =>
          simp only [plain, Option.some.injEq, Prod.mk.injEq] at same
          simp [size, same.2]

/-- Where a file stood, times apart, a file stands with its serial number and content. -/
theorem Entry.file_of_plain {entry : Option Entry} {f : File}
    (same : entry.map plain = (some (.file f)).map plain) :
    ∃ g, entry = some (.file g) ∧ g.serial = f.serial ∧ g.content = f.content := by
  cases entry with
  | none => cases same
  | some entry =>
      cases entry with
      | directory => cases same
      | file g =>
          simp only [Option.map_some, plain, Option.some.injEq, Prod.mk.injEq] at same
          exact ⟨g, rfl, same.1, same.2⟩

namespace Files

/-- The same files and directories stand in both trees, whatever their times. -/
def Alike (a b : Files) : Prop :=
  ∀ path, (a.find? path).map Entry.plain = (b.find? path).map Entry.plain

namespace Alike

variable {a b c : Files}

theorem refl (files : Files) : files.Alike files :=
  fun _ => rfl

theorem symm (alike : a.Alike b) : b.Alike a :=
  fun path => (alike path).symm

theorem trans (first : a.Alike b) (second : b.Alike c) : a.Alike c :=
  fun path => (first path).trans (second path)

theorem of_entries (same : a.entries = b.entries) : a.Alike b := by
  intro path
  unfold find?
  rw [same]

theorem contains (alike : a.Alike b) (path : String) : a.contains path = b.contains path := by
  have same := congrArg Option.isSome (alike path)
  rw [Option.isSome_map, Option.isSome_map] at same
  rw [contains_eq, contains_eq, same]

/-- Where one tree has a file, the other has a file with its serial number and content. -/
theorem file (alike : a.Alike b) {path : String} {f : File}
    (found : a.find? path = some (.file f)) :
    ∃ g, b.find? path = some (.file g) ∧ g.serial = f.serial ∧ g.content = f.content := by
  have same := alike.symm path
  rw [found] at same
  exact Entry.file_of_plain same

theorem missing (alike : a.Alike b) {path : String} (absent : a.find? path = none) :
    b.find? path = none := by
  have same := alike path
  rw [absent] at same
  simpa using same.symm

theorem directory (alike : a.Alike b) {path : String}
    (found : a.find? path = some .directory) : b.find? path = some .directory := by
  cases other : b.find? path with
  | none =>
      have := alike.symm.missing other
      rw [found] at this
      cases this
  | some entry =>
      cases entry with
      | directory => rfl
      | file g =>
          obtain ⟨f, isFile, _⟩ := alike.symm.file other
          rw [found] at isFile
          cases isFile

theorem touchRead (files : Files) (path : String) : (files.touchRead path).Alike files := by
  rcases files.touchRead_eq path with same | ⟨f, found, result⟩
  · rw [same]
    exact refl files
  · rw [result]
    intro other
    rw [find?_put]
    split
    · rename_i same
      subst same
      rw [found]
      rfl
    · rfl

/-- Reading gives the same content, or is refused in the same way. -/
theorem read (alike : a.Alike b) (path : String) :
    (a.read path).1 = (b.read path).1 ∧ (a.read path).2.Alike (b.read path).2 := by
  cases found : a.find? path with
  | none =>
      rw [read_missing found, read_missing (alike.missing found)]
      exact ⟨rfl, alike⟩
  | some entry =>
      cases entry with
      | directory =>
          unfold Files.read
          rw [found, alike.directory found]
          exact ⟨rfl, alike⟩
      | file f =>
          obtain ⟨g, other, _, content⟩ := alike.file found
          rw [read_file found, read_file other, content]
          exact ⟨rfl, (touchRead a path).trans (alike.trans (touchRead b path).symm)⟩

theorem isDirectory (alike : a.Alike b) {path : String} (inA : a.isDirectory path) :
    b.isDirectory path := by
  unfold Files.isDirectory at inA ⊢
  split at inA
  · rename_i found
    rw [alike.directory found]
  · cases inA

/-- Renaming succeeds in both trees, or in neither, and leaves them alike. -/
theorem rename (alike : a.Alike b) {source target : String}
    (moved : a.rename source target = (.ok (), c)) :
    ∃ d, b.rename source target = (.ok (), d) ∧ c.Alike d := by
  rcases a.rename_cases source target with ⟨f, stands, free, inDirectory, run⟩ | ⟨fault, run⟩
  · rw [run] at moved
    cases moved
    obtain ⟨g, other, serial, content⟩ := alike.file stands
    have otherFree : b.find? target ≠ some .directory := fun taken =>
      free (alike.symm.directory taken)
    refine ⟨_, rename_file other otherFree (alike.isDirectory inDirectory), ?_⟩
    intro path
    rw [find?_put, find?_put, find?_erase, find?_erase, find?_tick, find?_tick]
    split
    · simp [Entry.plain, renamed, serial, content]
    · split
      · rfl
      · exact alike path
  · rw [run] at moved
    cases moved

theorem serial (alike : a.Alike b) (path : String) :
    (a.file? path).elim 0 (·.serial) = (b.file? path).elim 0 (·.serial) := by
  cases found : a.find? path with
  | none => simp [file?, found, alike.missing found]
  | some entry =>
      cases entry with
      | directory => simp [file?, found, alike.directory found]
      | file f =>
          obtain ⟨g, other, same, _⟩ := alike.file found
          simp [file?, found, other, same]

theorem dumpWeight (alike : a.Alike b) (sizes : Sizes) (base : String) :
    a.dumpWeight base sizes = b.dumpWeight base sizes := by
  have each (path : String) :
      (a.find? path).map (Entry.size sizes) = (b.find? path).map (Entry.size sizes) := by
    have same := alike path
    cases left : a.find? path with
    | none => rw [alike.missing left]
    | some entry =>
        cases right : b.find? path with
        | none =>
            rw [alike.symm.missing right] at left
            cases left
        | some other =>
            rw [left, right] at same
            exact congrArg some (Entry.size_of_plain (Option.some.inj same) sizes)
  unfold Files.dumpWeight dumpFiles
  rw [List.map_filterMap, List.map_filterMap]
  congr 2
  funext kind
  simpa [Function.comp_def] using each (kind.path base)

theorem hasData (alike : a.Alike b) (flags : EncodingFlags) (base : String) :
    a.hasData flags base = b.hasData flags base := by
  unfold Files.hasData
  congr 1
  funext kind
  exact alike.contains _

end Alike

/-! ### Times and serial numbers -/

/-- No file was read later than now, and serial numbers to come are new. -/
structure Timely (files : Files) : Prop where
  accessed : ∀ path f, files.find? path = some (.file f) → f.times.accessed ≤ files.clock
  serial : ∀ path f, files.find? path = some (.file f) → f.serial < files.nextSerial

namespace Timely

variable {files : Files}

theorem touchRead (timely : files.Timely) (path : String) : (files.touchRead path).Timely := by
  rcases files.touchRead_eq path with same | ⟨f, found, result⟩
  · rw [same]
    exact timely
  · rw [result]
    constructor
    · intro other g stands
      rw [find?_put] at stands
      split at stands
      · cases stands
        exact Nat.le_refl _
      · exact Nat.le_succ_of_le (timely.accessed other g stands)
    · intro other g stands
      rw [find?_put] at stands
      split at stands
      · cases stands
        exact timely.serial path f found
      · exact timely.serial other g stands

theorem erase (timely : files.Timely) (path : String) : (files.erase path).Timely := by
  constructor
  · intro other f stands
    rw [find?_erase] at stands
    split at stands
    · cases stands
    · exact timely.accessed other f stands
  · intro other f stands
    rw [find?_erase] at stands
    split at stands
    · cases stands
    · exact timely.serial other f stands

end Timely

/-! ### New files beside the old ones -/

/-- Nothing but new files at some paths sets two trees apart; they need not be there. -/
structure Besides (paths : List String) (before after : Files) : Prop where
  others : ∀ path, path ∉ paths → after.find? path = before.find? path
  made : ∀ path ∈ paths, after.find? path = none ∨ ∃ f, after.find? path = some (.file f) ∧
    before.nextSerial ≤ f.serial ∧ before.clock < f.times.accessed
  timely : before.Timely → after.Timely
  clock : before.clock ≤ after.clock
  serial : before.nextSerial ≤ after.nextSerial

namespace Besides

variable {a b c : Files} {paths more : List String}

theorem refl (files : Files) : Besides [] files files where
  others _ _ := rfl
  made _ member := by cases member
  timely := id
  clock := Nat.le_refl _
  serial := Nat.le_refl _

theorem trans (first : Besides paths a b) (second : Besides more b c) :
    Besides (paths ++ more) a c where
  others path outside := by
    rw [List.mem_append, not_or] at outside
    rw [second.others path outside.2, first.others path outside.1]
  made path member := by
    by_cases later : path ∈ more
    · rcases second.made path later with absent | ⟨f, stands, serial, clock⟩
      · exact .inl absent
      · exact .inr
          ⟨f, stands, Nat.le_trans first.serial serial, Nat.lt_of_le_of_lt first.clock clock⟩
    · rw [second.others path later]
      exact first.made path ((List.mem_append.mp member).resolve_right later)
  timely timely := second.timely (first.timely timely)
  clock := Nat.le_trans first.clock second.clock
  serial := Nat.le_trans first.serial second.serial

theorem elsewhere {path other : String} (besides : Besides [path] a b) (differs : other ≠ path) :
    b.find? other = a.find? other :=
  besides.others other (by simpa using differs)

/-- A directory stands where one stood before, and there was nothing to be made. -/
theorem plain (besides : Besides paths a b) {path : String}
    (either : path ∈ paths ∨ a.find? path ≠ some .directory) : b.find? path ≠ some .directory := by
  by_cases listed : path ∈ paths
  · rcases besides.made path listed with absent | ⟨f, stands, _⟩
    · simp [absent]
    · simp [stands]
  · rw [besides.others path listed]
    exact either.resolve_left listed

/-- A file that was made alone was read later than every other one. -/
theorem newest {path other : String} {f g : File} (besides : Besides [path] a b)
    (timely : a.Timely) (stands : b.find? path = some (.file f)) (differs : other ≠ path)
    (found : b.find? other = some (.file g)) : g.times.accessed < f.times.accessed := by
  rw [besides.elsewhere differs] at found
  rcases besides.made path (List.mem_singleton_self _) with absent | ⟨h, same, _, recent⟩
  · rw [stands] at absent
    cases absent
  · rw [stands] at same
    cases same
    exact Nat.lt_of_le_of_lt (timely.accessed other g found) recent

/-- More paths may be named where nothing stands. -/
theorem widen (besides : Besides paths a b) (subset : ∀ path ∈ paths, path ∈ more)
    (absent : ∀ path ∈ more, path ∉ paths → a.find? path = none) : Besides more a b where
  others path outside := besides.others path fun member => outside (subset path member)
  made path member := by
    by_cases listed : path ∈ paths
    · exact besides.made path listed
    · left
      rw [besides.others path listed, absent path member listed]
  timely := besides.timely
  clock := besides.clock
  serial := besides.serial

theorem of_absent {path : String} (files : Files) (absent : files.find? path = none) :
    Besides [path] files files :=
  (refl files).widen (fun _ member => by cases member) fun other member _ => by
    rw [List.mem_singleton.mp member]
    exact absent

/-- A new file may be written to, and read. -/
theorem update (besides : Besides paths a b) {path : String} (listed : path ∈ paths) {f g : File}
    (stands : b.find? path = some (.file f)) (serial : g.serial = f.serial)
    (later : f.times.accessed ≤ g.times.accessed) (now : g.times.accessed ≤ b.clock + 1) :
    Besides paths a (b.tick.put path (.file g)) where
  others other outside := by
    have differs : path ≠ other := by
      rintro rfl
      exact outside listed
    rw [find?_put, if_neg differs]
    exact besides.others other outside
  made other member := by
    rw [find?_put]
    split
    · rename_i same
      subst same
      rcases besides.made path member with absent | ⟨h, found, new, recent⟩
      · rw [stands] at absent
        cases absent
      · rw [stands] at found
        cases found
        exact .inr ⟨g, rfl, serial ▸ new, Nat.lt_of_lt_of_le recent later⟩
    · exact besides.made other member
  timely timely := by
    have old := besides.timely timely
    constructor
    · intro other h found
      rw [find?_put] at found
      split at found
      · cases found
        exact now
      · exact Nat.le_succ_of_le (old.accessed other h found)
    · intro other h found
      rw [find?_put] at found
      split at found
      · cases found
        rw [serial]
        exact old.serial path f stands
      · exact old.serial other h found
  clock := Nat.le_succ_of_le besides.clock
  serial := besides.serial

/-- Writing where nothing stands makes a new file, or nothing. -/
theorem write {path : String} (content : Content) (absent : a.find? path = none) :
    Besides [path] a (a.write path content).2 := by
  by_cases inDirectory : a.isDirectory (parent path)
  · rw [write_new absent inDirectory]
    constructor
    · intro other outside
      have differs : path ≠ other := fun same => outside (same ▸ List.mem_singleton_self _)
      rw [find?_put, if_neg differs]
      rfl
    · intro other member
      rw [List.mem_singleton.mp member]
      exact .inr ⟨a.newFile content, by simp, Nat.le_refl _, Nat.lt_succ_self _⟩
    · intro timely
      constructor
      · intro other f stands
        rw [find?_put] at stands
        split at stands
        · cases stands
          exact Nat.le_refl _
        · exact Nat.le_succ_of_le (timely.accessed other f stands)
      · intro other f stands
        rw [find?_put] at stands
        split at stands
        · cases stands
          exact Nat.lt_succ_self _
        · exact Nat.lt_succ_of_lt (timely.serial other f stands)
    · exact Nat.le_succ _
    · exact Nat.le_succ _
  · rw [write_refused absent inDirectory]
    exact of_absent a absent

end Besides

/-! ### Several removals -/

theorem erase_absent {files : Files} {path : String} (absent : files.find? path = none) :
    files.erase path = files := by
  have same : (files.erase path).entries = files.entries := by
    apply entries_ext
    intro other
    rw [find?_erase]
    split
    · rename_i this
      rw [← this, absent]
    · rfl
  exact congrArg (fun entries => { files with entries }) same

/-- Takes the entries at several paths away. -/
def eraseAll (files : Files) (paths : List String) : Files :=
  paths.foldl erase files

theorem find?_eraseAll (files : Files) (paths : List String) (other : String) :
    (files.eraseAll paths).find? other =
      if other ∈ paths then none else files.find? other := by
  induction paths generalizing files with
  | nil => rfl
  | cons path rest ih =>
      have step : (files.eraseAll (path :: rest)).find? other =
          ((files.erase path).eraseAll rest).find? other := rfl
      rw [step, ih, find?_erase]
      by_cases first : path = other
      · simp [first]
      · have differs : ¬ other = path := fun same => first same.symm
        simp [first, differs]

@[simp] theorem eraseAll_clock (files : Files) (paths : List String) :
    (files.eraseAll paths).clock = files.clock := by
  induction paths generalizing files with
  | nil => rfl
  | cons path rest ih => exact ih (files.erase path)

@[simp] theorem eraseAll_nextSerial (files : Files) (paths : List String) :
    (files.eraseAll paths).nextSerial = files.nextSerial := by
  induction paths generalizing files with
  | nil => rfl
  | cons path rest ih => exact ih (files.erase path)

theorem Timely.eraseAll {files : Files} (timely : files.Timely) (paths : List String) :
    (files.eraseAll paths).Timely := by
  induction paths generalizing files with
  | nil => exact timely
  | cons path rest ih => exact ih (timely.erase path)

namespace Besides

variable {paths gone : List String} {a b : Files}

/-- New files may be taken away again. -/
theorem erased (besides : Besides (paths ++ gone) a b)
    (absent : ∀ path ∈ gone, path ∉ paths → a.find? path = none) :
    Besides paths a (b.eraseAll gone) where
  others path outside := by
    rw [find?_eraseAll]
    split
    · rename_i removed
      exact (absent path removed outside).symm
    · rename_i stays
      exact besides.others path fun listed =>
        (List.mem_append.mp listed).elim outside stays
  made path member := by
    rw [find?_eraseAll]
    split
    · exact .inl rfl
    · exact besides.made path (List.mem_append_left gone member)
  timely timely := (besides.timely timely).eraseAll gone
  clock := by
    rw [eraseAll_clock]
    exact besides.clock
  serial := by
    rw [eraseAll_nextSerial]
    exact besides.serial

/-- Without new files, the entries are those from before. -/
theorem entries (besides : Besides [] a b) : b.entries = a.entries :=
  entries_ext fun path => besides.others path (by simp)

end Besides

end CodeNav.Files
