/-
Module: CodeNav.Proofs.Service.Alike
Purpose: Which parts of a service the answers to look-ups and queries depend on.
Main exports:
  Service.Alike, Service.Alike.looks, Service.Alike.replies
-/
import CodeNav.Proofs.Service.Lookups
import CodeNav.Proofs.Store.Files

namespace CodeNav

open Stateful
open Http (Request Response)

/-- Two services hold the same, but for the times of files, the clock, the serial numbers and
temporary names given out, the figures, and the converter. -/
structure Service.Alike (s t : Service) : Prop where
  root : s.root = t.root
  flags : s.flags = t.flags
  limits : s.limits = t.limits
  sizes : s.sizes = t.sizes
  files : s.files.Alike t.files
  databases : s.databases = t.databases
  documents : s.documents = t.documents
  index : s.index = t.index
  closed : s.closed = t.closed

namespace Service.Alike

variable {s t u : Service}

theorem basePath (alike : s.Alike t) (target : Target) :
    s.basePath target = t.basePath target := by
  unfold Service.basePath
  rw [alike.root]

end Service.Alike

/-- A computation comes to the same on services that are alike. -/
abbrev Indifferent {α : Type} (computation : ServiceM α) : Prop :=
  Respects Service.Alike computation

namespace Indifferent

variable {α : Type}

/-- A computation on files that comes to the same on trees that are alike. -/
theorem onFiles {c : FilesM α} (same : Related Files.Alike c c) :
    Indifferent (ServiceM.onFiles c) := by
  intro s t alike
  obtain ⟨result, files⟩ := same s.files t.files alike.files
  exact ⟨result, { alike with files := files }⟩

theorem onDatabases (change : Resident Database → α × Resident Database) :
    Indifferent (Service.onDatabases change) := by
  intro s t alike
  have same := alike.databases
  refine ⟨?_, { alike with databases := ?_ }⟩
  · simp [Service.onDatabases, same]
  · simp [Service.onDatabases, same]

theorem close (databases : List Database) : Indifferent (Service.close databases) := by
  intro s t alike
  exact ⟨rfl, { alike with closed := congrArg (databases.map (·.handle) ++ ·) alike.closed }⟩

end Indifferent

/-! ### Loading -/

theorem Encoding.load_alike (kind : Encoding) (path : String) :
    Related Files.Alike (kind.load path) (kind.load path) := by
  intro a b alike
  obtain ⟨content, files⟩ := alike.read path
  have serial := alike.serial path
  unfold Encoding.load
  rw [serial]
  generalize a.read path = left at content files ⊢
  generalize b.read path = right at content files ⊢
  obtain ⟨result, a⟩ := left
  obtain ⟨other, b⟩ := right
  cases content
  cases result with
  | error fault => exact ⟨rfl, files⟩
  | ok content =>
      simp only
      split <;> exact ⟨rfl, files⟩

theorem Loaded.firstOf_alike (base : String) (kinds : List Encoding) :
    Related Files.Alike (Loaded.firstOf base kinds) (Loaded.firstOf base kinds) := by
  induction kinds with
  | nil => exact Related.throw _
  | cons kind others ih =>
      unfold Loaded.firstOf
      apply Related.get_bind
      intro a b alike
      simp only [alike.contains]
      split
      · exact Related.tryCatch (kind.load_alike _) (fun _ => ih) a b alike
      · exact ih a b alike

namespace Service

theorem indifferent_loadDatabase (target : Target) : Indifferent (loadDatabase target) := by
  apply Related.get_bind
  intro s t alike
  rw [alike.flags, alike.basePath, alike.databases]
  exact Related.bind (Indifferent.onFiles (Loaded.firstOf_alike _ _)) (fun _ => Related.pure _)
    s t alike

theorem indifferent_startLoad (target : Target) : Indifferent (startLoad target) := by
  apply Related.get_bind
  intro s t alike
  simp only [alike.basePath, alike.sizes, alike.files.dumpWeight]
  refine Related.bind (.attempt (indifferent_loadDatabase target)) (fun outcome => ?_) s t alike
  refine Related.bind (Indifferent.onDatabases _) fun (number, pushedOut) => ?_
  exact Related.bind (Indifferent.close _) fun _ => Related.pure _

theorem indifferent_openDatabase (target : Target) : Indifferent (openDatabase target) := by
  unfold openDatabase
  refine Related.bind (Indifferent.onDatabases _) fun found => ?_
  cases found with
  | some number =>
      refine Related.bind (Related.pure number) fun number => ?_
      refine Related.bind (Indifferent.onDatabases _) fun progress => ?_
      cases progress with
      | done result => exact .ofExcept result
      | _ => exact Related.throw _
  | none =>
      refine Related.bind (indifferent_startLoad target) fun number => ?_
      refine Related.bind (Indifferent.onDatabases _) fun progress => ?_
      cases progress with
      | done result => exact .ofExcept result
      | _ => exact Related.throw _

/-! ### Reading -/

theorem indifferent_touchRead (path : String) :
    Indifferent (ServiceM.onFiles (FilesM.change (·.touchRead path))) := by
  apply Indifferent.onFiles
  intro a b alike
  exact ⟨rfl, (Files.Alike.touchRead a path).trans
    (alike.trans (Files.Alike.touchRead b path).symm)⟩

theorem indifferent_currentTables (database : Database) (tables : Tables) :
    Indifferent (currentTables database tables) := by
  apply Related.get_bind
  intro s t alike
  cases found : s.files.file? database.loaded.path with
  | none =>
      have other : t.files.file? database.loaded.path = none := by
        cases found' : t.files.file? database.loaded.path with
        | none => rfl
        | some g =>
            obtain ⟨f, isFile, _⟩ := alike.files.symm.file (Files.file?_eq_some.mp found')
            rw [Files.file?_eq_some.mpr isFile] at found
            cases found
      simp only [other]
      exact ⟨rfl, alike⟩
  | some f =>
      obtain ⟨g, isFile, serial, content⟩ := alike.files.file (Files.file?_eq_some.mp found)
      simp only [Files.file?_eq_some.mpr isFile, serial, content]
      split
      · exact ⟨rfl, alike⟩
      · refine Related.bind (indifferent_touchRead _) (fun _ => ?_) s t alike
        cases f.content with
        | tables current => exact Related.pure _
        | _ => exact Related.throw _

theorem indifferent_source (database : Database) : Indifferent (source database) := by
  apply Related.get_bind
  intro s t alike
  rw [alike.closed]
  split
  · exact ⟨rfl, alike⟩
  · cases database.loaded.source with
    | whole dump rows => exact ⟨rfl, alike⟩
    | tables tables => exact indifferent_currentTables database tables s t alike

theorem indifferent_fetchDocument [Gzip.Compressor] (database : Database) (path : String) :
    Indifferent (fetchDocument database path) :=
  Related.bind (indifferent_source database) fun _ => .ofExcept _

theorem indifferent_cachedDocument (key : String) {fetch : ServiceM (List UInt8)}
    (indifferent : Indifferent fetch) : Indifferent (cachedDocument key fetch) := by
  unfold cachedDocument
  refine Related.get_bind fun s t alike => ?_
  rw [alike.documents]
  generalize t.documents.get key = looked
  obtain ⟨found, documents⟩ := looked
  refine Related.bind ?_ (fun _ => ?_) s t alike
  · intro s t alike
    exact ⟨rfl, { alike with documents := rfl }⟩
  · cases found with
    | some document => exact Related.pure document
    | none =>
        refine Related.bind indifferent fun octets => ?_
        refine Related.bind (.ofExcept _) fun document => ?_
        refine Related.bind ?_ fun _ => Related.pure document
        intro s t alike
        refine ⟨rfl, { alike with documents := ?_ }⟩
        exact congrArg (fun documents => (documents.insert key document
          document.approximateSize).2) alike.documents

theorem indifferent_readDocument [Gzip.Compressor] (database : Database) (path : String) :
    Indifferent (readDocument database path) :=
  indifferent_cachedDocument _ (indifferent_fetchDocument database path)

theorem indifferent_packageIndex : Indifferent ServiceM.packageIndex := by
  apply Related.get_bind
  intro s t alike
  rw [alike.index]
  cases t.index with
  | available index => exact ⟨rfl, alike⟩
  | broken failure => exact ⟨rfl, alike⟩

/-- What look-ups are made of does not tell services apart that are alike. -/
theorem Alike.looks [Gzip.Compressor] : Looks Alike where
  hasData s t alike target := by
    unfold Service.hasData
    rw [alike.flags, alike.basePath, alike.files.hasData]
  openDatabase := indifferent_openDatabase
  source := indifferent_source
  readDocument := indifferent_readDocument
  packageIndex := indifferent_packageIndex
  count _ _ _ alike := ⟨rfl, { alike with }⟩

/-- Services that are alike give the same replies to all look-ups. -/
theorem Alike.replies [Gzip.Compressor] {s t : Service} (alike : s.Alike t)
    {requests : List (Binary64 × Request)}
    (lookups : ∀ request ∈ requests, IsLookup request.2) :
    Service.replies requests s = Service.replies requests t :=
  replies_eq looks alike lookups

end Service

end CodeNav
