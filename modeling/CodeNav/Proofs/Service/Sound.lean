/-
Module: CodeNav.Proofs.Service.Sound
Purpose: What holds of a service at any time.
Main exports:
  Service.Sound, Service.sound_start, Service.Sound.looks
-/
import CodeNav.Proofs.Service.Lookups
import CodeNav.Proofs.Service.Registry
import CodeNav.Proofs.Store.Matching
import CodeNav.Proofs.Store.Paths

namespace CodeNav

open Stateful

/-- At any time no file is from the future, temporary names to come are free, every database is
either in the cache or closed, and the converter keeps to its output. -/
structure Service.Sound (s : Service) : Prop where
  timely : s.files.Timely
  fresh : ∀ number kind, s.temporaries ≤ number →
    s.files.find? (temporaryFile s.root number kind) = none
  registered : Registered s.databases s.closed
  confined : s.converter.Confined

namespace Service

/-- A service that starts on a tree without temporary files is sound. -/
theorem sound_start (root : String) (flags : EncodingFlags) (limits : Limits) {files : Files}
    (index : IndexState) {converter : Converter} (sizes : Sizes) (timely : files.Timely)
    (empty : ∀ number kind, files.find? (temporaryFile root number kind) = none)
    (confined : converter.Confined) :
    (start root flags limits files index converter sizes).Sound where
  timely := timely
  fresh number kind _ := empty number kind
  registered := registered_empty _
  confined := confined

/-- Two trees differ in times only, and if the first is timely, so is the second. -/
structure ReadOnly (before after : Files) : Prop where
  matching : after.Matching before
  timely : before.Timely → after.Timely

namespace ReadOnly

theorem alike {before after : Files} (reads : ReadOnly before after) : after.Alike before :=
  reads.matching.alike

theorem refl (files : Files) : ReadOnly files files :=
  ⟨.refl files, id⟩

theorem trans {a b c : Files} (first : ReadOnly a b) (second : ReadOnly b c) : ReadOnly a c :=
  ⟨second.matching.trans first.matching, second.timely ∘ first.timely⟩

theorem touchRead (files : Files) (path : String) : ReadOnly files (files.touchRead path) :=
  ⟨.touchRead files path, fun timely => timely.touchRead path⟩

theorem read (files : Files) (path : String) : ReadOnly files (files.read path).2 := by
  unfold Files.read
  split
  · exact refl files
  · exact refl files
  · exact touchRead files path

theorem load (kind : Encoding) (path : String) (files : Files) :
    ReadOnly files (kind.load path files).2 := by
  have reading := read files path
  unfold Encoding.load
  generalize files.read path = run at reading ⊢
  obtain ⟨result, after⟩ := run
  cases result with
  | error fault => exact reading
  | ok content =>
      dsimp only
      split <;> exact reading

theorem firstOf (base : String) (kinds : List Encoding) (files : Files) :
    ReadOnly files (Loaded.firstOf base kinds files).2 := by
  induction kinds generalizing files with
  | nil => exact refl files
  | cons kind others ih =>
      unfold Loaded.firstOf
      rw [bind_ok (get_run files)]
      split
      · have loading := load kind (kind.path base) files
        rw [tryCatch_run]
        generalize kind.load (kind.path base) files = run at loading ⊢
        obtain ⟨result, after⟩ := run
        cases result with
        | ok loaded => exact loading
        | error failure => exact loading.trans (ih after)
      · exact ih files

end ReadOnly

/-! ### Reading -/

theorem keeps_ofExcept {α : Type} {P : Service → Prop} (result : Except Failure α) :
    Keeps P (ServiceM.ofExcept result) := by
  cases result with
  | error failure => exact Keeps.throw failure
  | ok value => exact Keeps.pure value

section

variable {P : Service → Prop}
  (reading : ∀ (s : Service) (files : Files), P s → ReadOnly s.files files → P { s with files })
include reading

theorem keeps_currentTables (database : Database) (tables : Tables) :
    Keeps P (currentTables database tables) := by
  apply Keeps.get_bind
  intro s holds
  cases s.files.file? database.loaded.path with
  | none => exact holds
  | some file =>
      dsimp only
      split
      · exact holds
      · refine Keeps.bind (fun s holds => reading s _ holds (.touchRead s.files _)) (fun _ => ?_)
          s holds
        cases file.content with
        | tables current => exact Keeps.pure _
        | _ => exact Keeps.throw _

/-- What does not depend on the times of files is kept by reading from a database. -/
theorem keeps_source (database : Database) : Keeps P (source database) := by
  apply Keeps.get_bind
  intro s holds
  split
  · exact holds
  · cases database.loaded.source with
    | whole dump rows => exact holds
    | tables tables => exact keeps_currentTables reading database tables s holds

theorem keeps_fetchDocument [Gzip.Compressor] (database : Database) (path : String) :
    Keeps P (fetchDocument database path) :=
  Keeps.bind (keeps_source reading database) fun _ => keeps_ofExcept _

theorem keeps_readDocument [Gzip.Compressor]
    (documents : ∀ (s : Service) (documents : WeightedCache String Document), P s →
      P { s with documents }) (database : Database) (path : String) :
    Keeps P (readDocument database path) := by
  unfold readDocument cachedDocument
  refine Keeps.get_bind fun s holds => ?_
  generalize s.documents.get _ = looked
  obtain ⟨found, fewer⟩ := looked
  refine Keeps.bind (fun s holds => documents s _ holds) (fun _ => ?_) s holds
  cases found with
  | some document => exact Keeps.pure document
  | none =>
      refine Keeps.bind (keeps_fetchDocument reading database path) fun octets => ?_
      refine Keeps.bind (keeps_ofExcept _) fun document => ?_
      exact Keeps.bind (fun s holds => documents s _ holds) fun _ => Keeps.pure document

theorem keeps_loadDatabase (target : Target) : Keeps P (loadDatabase target) := by
  refine Keeps.get_bind fun s holds => ?_
  exact Keeps.bind (fun s holds => reading s _ holds (.firstOf _ _ s.files))
    (fun _ => Keeps.pure _) s holds

/-- What does not depend on what is open, either, is kept by opening a database. -/
theorem keeps_openDatabase
    (databases : ∀ (s : Service) (databases : Resident Database) (closed : List Nat), P s →
      P { s with databases, closed }) (target : Target) : Keeps P (openDatabase target) := by
  have changes {α : Type} (change : Resident Database → α × Resident Database) :
      Keeps P (onDatabases change) := fun s holds => databases s _ s.closed holds
  have starts : Keeps P (startLoad target) := by
    refine Keeps.get_bind fun s holds => ?_
    have loads : Keeps P (ServiceM.attempt (loadDatabase target)) :=
      keeps_loadDatabase reading target
    refine Keeps.bind loads (fun outcome => ?_) s holds
    refine Keeps.bind (changes _) fun (number, pushedOut) => ?_
    exact Keeps.bind (fun s holds => databases s s.databases _ holds) fun _ => Keeps.pure number
  unfold openDatabase
  refine Keeps.bind (changes _) fun found => ?_
  cases found with
  | some number =>
      refine Keeps.bind (Keeps.pure number) fun number => ?_
      refine Keeps.bind (changes _) fun progress => ?_
      cases progress with
      | done result => exact keeps_ofExcept result
      | _ => exact Keeps.throw _
  | none =>
      refine Keeps.bind starts fun number => ?_
      refine Keeps.bind (changes _) fun progress => ?_
      cases progress with
      | done result => exact keeps_ofExcept result
      | _ => exact Keeps.throw _

end

theorem keeps_packageIndex {P : Service → Prop} : Keeps P ServiceM.packageIndex := by
  apply Keeps.get_bind
  intro s holds
  cases s.index with
  | available index => exact holds
  | broken failure => exact holds

namespace Sound

variable {s : Service}

/-- Reading files keeps a service sound. -/
theorem reading (sound : s.Sound) {files : Files} (reads : ReadOnly s.files files) :
    ({ s with files } : Service).Sound where
  timely := reads.timely sound.timely
  fresh number kind later := reads.alike.symm.missing (sound.fresh number kind later)
  registered := sound.registered
  confined := sound.confined

theorem openDatabase (target : Target) : Keeps Sound (Service.openDatabase target) := by
  intro s sound
  have registered := registered_openDatabase target s sound.registered
  cases found : s.databases.entries.find? target.key with
  | some e =>
      obtain ⟨load, db, _, _, _, _, run⟩ := openDatabase_hit sound.registered found
      rw [run] at registered ⊢
      exact { sound with registered := registered }
  | none =>
      have reads := ReadOnly.firstOf (s.basePath target) s.flags.enabled s.files
      change ReadOnly s.files (Loaded.first s.flags (s.basePath target) s.files).2 at reads
      generalize first : Loaded.first s.flags (s.basePath target) s.files = loading at reads
      obtain ⟨outcome, files⟩ := loading
      have after := sound.reading reads
      rw [openDatabase_miss found first] at registered ⊢
      cases outcome with
      | error failure => exact ⟨after.timely, after.fresh, registered, sound.confined⟩
      | ok loaded => exact ⟨after.timely, after.fresh, registered, sound.confined⟩

/-- Look-ups keep a service sound. -/
theorem looks [Gzip.Compressor] : Looks fun s t => s = t ∧ s.Sound where
  hasData := by
    rintro s t ⟨rfl, _⟩ target
    rfl
  openDatabase target := (openDatabase target).respects
  source database := (keeps_source (fun _ _ sound reads => sound.reading reads) database).respects
  readDocument database path :=
    (keeps_readDocument (fun _ _ sound reads => sound.reading reads)
      (fun _ _ sound => { sound with }) database path).respects
  packageIndex := keeps_packageIndex.respects
  count _ := Keeps.respects fun _ sound => { sound with }

end Sound

end Service

end CodeNav
