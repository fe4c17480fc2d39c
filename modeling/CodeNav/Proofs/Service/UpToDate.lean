/-
Module: CodeNav.Proofs.Service.UpToDate
Purpose: What a service keeps in memory is what its files hold, whatever it opens and reads.
Main exports:
  Service.UpToDate, Service.Reflects.openDatabase, Service.ReflectsOpen.readDocument
-/
import CodeNav.Proofs.Service.Invalidation
import CodeNav.Proofs.Service.Opening

namespace CodeNav

open Stateful

/-! ### Keys -/

theorem Text.colon_not_mem_percentChars (b : UInt8) : ':' ∉ Text.percentChars b := by
  have all : ∀ n : Fin 256, ':' ∉ Text.percentChars (UInt8.ofNat n) := by decide +kernel
  have this := all ⟨b.toNat, b.toNat_lt⟩
  simpa using this

theorem Target.colon_not_mem_key {target : Target} (commit : Target.isCommit target.commit) :
    ':' ∉ target.key.toList := by
  unfold Target.key Text.percentEncode
  simp only [String.toList_append, String.toList_ofList, List.mem_append, List.mem_flatMap]
  rintro ((⟨b, _, listed⟩ | at_) | listed)
  · exact Text.colon_not_mem_percentChars b listed
  · simp at at_
  · simp only [Target.isCommit, Bool.and_eq_true, List.all_eq_true] at commit
    have := commit.2 ':' listed
    revert this
    decide

namespace Service

/-- The key of a document tells the file and the path. -/
theorem documentKey_injective {root path other : String} {target target' : Target}
    {kind kind' : Encoding} (commit : Target.isCommit target.commit)
    (commit' : Target.isCommit target'.commit)
    (same : documentKey (dumpFile root target kind) path =
      documentKey (dumpFile root target' kind') other) :
    kind = kind' ∧ target.key = target'.key ∧ path = other := by
  have apart (target : Target) (kind : Encoding) (path : String)
      (commit : Target.isCommit target.commit) :
      ((target.key.toList ++ kind.extension.toList) ++ ':' :: ':' :: path.toList).takeWhile
        (· ≠ ':') = target.key.toList ++ kind.extension.toList := by
    rw [List.takeWhile_append_of_pos]
    · simp
    · intro c listed
      simp only [ne_eq, decide_not, Bool.not_eq_true', decide_eq_false_iff_not]
      rintro rfl
      rcases List.mem_append.mp listed with inKey | ending
      · exact Target.colon_not_mem_key commit inKey
      · revert ending
        cases kind <;> decide
  have lists : (target.key.toList ++ kind.extension.toList) ++ ':' :: ':' :: path.toList =
      (target'.key.toList ++ kind'.extension.toList) ++ ':' :: ':' :: other.toList := by
    simpa [documentKey, dumpFile_eq, Files.toList_join] using congrArg String.toList same
  have names := congrArg (List.takeWhile (· ≠ ':')) lists
  rw [apart target kind path commit, apart target' kind' other commit'] at names
  obtain rfl := Encoding.extension_of_append names
  rw [names] at lists
  have paths := List.append_cancel_left lists
  simp only [List.cons.injEq, true_and] at paths
  exact ⟨rfl, String.toList_inj.mp (List.append_cancel_right names), String.toList_inj.mp paths⟩

/-! ### What is open -/

section

variable {s : Service} {target : Target} {database : Database}

/-- What is read from an open database is what its file held when it was opened, as long as the
file stays. -/
theorem source_run {base : String} {kinds : List Encoding} (opened : database.handle ∉ s.closed)
    (isFrom : database.loaded.IsFrom s.files base kinds) :
    ∃ files, source database s = (.ok database.loaded.source, { s with files }) ∧
      ReadOnly s.files files := by
  obtain ⟨f, stands, serial, opens⟩ := isFrom.stands
  exact source_stored database opened stands serial opens

theorem isFrom_of_first {s : Service}
    (first : (Loaded.first s.flags (s.basePath target) s.files).1 = .ok database.loaded) :
    database.loaded.IsFrom s.files (s.basePath target) s.flags.enabled := by
  unfold Loaded.first at first
  rcases Loaded.firstOf_cases (s.basePath target) s.flags.enabled s.files with
    ⟨loaded, opens, isFrom⟩ | none
  · rw [opens] at first
    cases first
    exact isFrom
  · rw [none] at first
    cases first

end

/-! ### What is in memory -/

variable [Gzip.Compressor]

/-- The file at a path holds a dump that answers a path with a document. -/
def HoldsAnswer (files : Files) (kind : Encoding) (file path : String) (document : Document) :
    Prop :=
  ∃ f source, files.find? file = some (.file f) ∧ kind.openContent file f.content = .ok source ∧
    source.answer path = .ok document

theorem HoldsAnswer.congr {a b : Files} {kind : Encoding} {file path : String}
    {document : Document} (holds : HoldsAnswer a kind file path document)
    (same : (a.find? file).map Entry.plain = (b.find? file).map Entry.plain) :
    HoldsAnswer b kind file path document := by
  obtain ⟨f, source, stands, opens, answers⟩ := holds
  rw [stands] at same
  cases found : b.find? file with
  | none => simp [found] at same
  | some entry =>
      cases entry with
      | directory => simp [found, Entry.plain] at same
      | file g =>
          simp only [found, Option.map_some, Entry.plain, Option.some.injEq, Prod.mk.injEq] at same
          exact ⟨g, source, found, same.2 ▸ opens, answers⟩

/-- A document may be kept under a key if the file that the key names answers with it. -/
def MayKeep (root : String) (files : Files) (key : String) (document : Document) : Prop :=
  ∀ target kind path, Target.isCommit target.commit →
    key = documentKey (dumpFile root target kind) path →
      HoldsAnswer files kind (dumpFile root target kind) path document

end Service

namespace Loaded.IsFrom

open Service

variable [Gzip.Compressor] {loaded : Loaded} {files : Files} {root path : String} {target : Target}
  {kinds : List Encoding} {document : Document}

/-- A document that may be kept is what the dump answers. -/
theorem answer_of_mayKeep (isFrom : loaded.IsFrom files (Files.join root target.key) kinds)
    (commit : Target.isCommit target.commit)
    (mayKeep : MayKeep root files (documentKey loaded.path path) document) :
    loaded.source.answer path = .ok document := by
  have file : loaded.path = dumpFile root target loaded.kind := isFrom.path
  obtain ⟨f, source, stands, opens, answers⟩ :=
    mayKeep target loaded.kind path commit (by rw [← file])
  obtain ⟨g, there, _, opens'⟩ := isFrom.stands
  rw [← file, there] at stands
  cases stands
  rw [← file, opens'] at opens
  cases opens
  exact answers

/-- What the dump answers may be kept. -/
theorem mayKeep_of_answer (isFrom : loaded.IsFrom files (Files.join root target.key) kinds)
    (commit : Target.isCommit target.commit) (answers : loaded.source.answer path = .ok document) :
    MayKeep root files (documentKey loaded.path path) document := by
  intro target' kind path' commit' key
  have file : loaded.path = dumpFile root target loaded.kind := isFrom.path
  obtain ⟨f, stands, _, opens⟩ := isFrom.stands
  rw [file] at key
  obtain ⟨rfl, sameKey, rfl⟩ := documentKey_injective commit commit' key
  have sameFile : dumpFile root target' loaded.kind = loaded.path := by
    rw [file]
    unfold dumpFile
    rw [sameKey]
  rw [sameFile]
  exact ⟨f, _, stands, opens, answers⟩

end Loaded.IsFrom

/-- What a service keeps in memory is what its files hold: what is open for a key is the dump that
would be opened now, and a document is the one that its file has now. -/
structure Service.UpToDate [Gzip.Compressor] (s : Service) : Prop where
  registered : Registered s.databases s.closed
  opens : ∀ e ∈ s.databases.entries.entries, ∀ load database,
    s.databases.loads[e.value]? = some load → load.outcome = .ok database →
      (Loaded.first s.flags (Files.join s.root e.key) s.files).1 = .ok database.loaded
  documents : ∀ entry ∈ s.documents.entries, MayKeep s.root s.files entry.key entry.value

/-- A service is up to date, and stores the dumps that another one stores. -/
structure Service.Reflects [Gzip.Compressor] (u s : Service) : Prop where
  upToDate : s.UpToDate
  root : s.root = u.root
  flags : s.flags = u.flags
  files : s.files.Alike u.files
  index : s.index = u.index

namespace Service

variable [Gzip.Compressor] {s t u : Service} {target : Target} {database : Database}

namespace UpToDate

/-- Reading files keeps everything in memory up to date. -/
theorem reading (upToDate : s.UpToDate) {files : Files} (reads : ReadOnly s.files files) :
    ({ s with files } : Service).UpToDate where
  registered := upToDate.registered
  opens e listed load database found ok := by
    have before := upToDate.opens e listed load database found ok
    rw [← first_alike reads.alike.symm]
    exact before
  documents entry listed target kind path commit key :=
    (upToDate.documents entry listed target kind path commit key).congr (reads.alike.symm _)

theorem first_of_isOpen (upToDate : s.UpToDate) (isOpen : s.IsOpen target database) :
    (Loaded.first s.flags (s.basePath target) s.files).1 = .ok database.loaded := by
  obtain ⟨load, loaded, ok, _⟩ := isOpen.opened
  obtain ⟨e, found, handle⟩ := isOpen.resident
  obtain ⟨listed, key⟩ := WeightedCache.mem_of_find? found
  have opens := upToDate.opens e listed load database (handle ▸ loaded) ok
  rwa [key] at opens

/-- Documents may be forgotten, and others may be kept. -/
theorem keeping (upToDate : s.UpToDate) {documents : WeightedCache String Document}
    (mayKeep : ∀ entry ∈ documents.entries, entry ∈ s.documents.entries ∨
      MayKeep s.root s.files entry.key entry.value) :
    ({ s with documents } : Service).UpToDate where
  registered := upToDate.registered
  opens := upToDate.opens
  documents entry listed := (mayKeep entry listed).elim (upToDate.documents entry) id

/-- Databases may come and go as long as what is open is what is stored. -/
theorem replace (upToDate : s.UpToDate) {databases : Resident Database} {closed : List Nat}
    (registered : Registered databases closed)
    (opens : ∀ e ∈ databases.entries.entries, ∀ load database,
      databases.loads[e.value]? = some load → load.outcome = .ok database →
        (Loaded.first s.flags (Files.join s.root e.key) s.files).1 = .ok database.loaded) :
    ({ s with databases, closed } : Service).UpToDate where
  registered := registered
  opens := opens
  documents := upToDate.documents

/-- At the start nothing is in memory. -/
theorem atStart (root : String) (flags : EncodingFlags) (limits : Limits) (files : Files)
    (index : IndexState) (converter : Converter) (sizes : Sizes) :
    (start root flags limits files index converter sizes).UpToDate where
  registered := registered_empty _
  opens e listed := by cases listed
  documents entry listed := by cases listed

theorem reflects (upToDate : s.UpToDate) : s.Reflects s :=
  ⟨upToDate, rfl, rfl, .refl s.files, rfl⟩

/-! ### Opening -/

/-- What is in the cache behind a load was there before, or is what was loaded. -/
theorem opens_withLoad (upToDate : s.UpToDate) {outcome : Except Failure Loaded} {files : Files}
    (run : Loaded.first s.flags (s.basePath target) s.files = (outcome, files))
    (reads : ReadOnly s.files files) :
    ∀ e ∈ (s.withLoad target outcome files).databases.entries.entries, ∀ load database,
      (s.withLoad target outcome files).databases.loads[e.value]? = some load →
      load.outcome = .ok database →
        (Loaded.first s.flags (Files.join s.root e.key) files).1 = .ok database.loaded := by
  intro e listed load database found ok
  have looked := registered_lookup upToDate.registered target.key
  have inserted := WeightedCache.inserted looked.distinct target.key s.databases.loads.size
    (s.files.dumpWeight (s.basePath target) s.sizes)
  have pushed : (s.databases.loads.push
      ⟨0, outcome.map fun loaded => ⟨s.databases.loads.size, target, loaded⟩⟩)[e.value]? =
      some load := found
  rw [Array.getElem?_push] at pushed
  rw [← first_alike reads.alike.symm]
  rcases inserted.mem e listed with rfl | ⟨old, _⟩
  · rw [if_pos rfl] at pushed
    cases pushed
    cases outcome with
    | error failure => cases ok
    | ok loaded =>
        cases ok
        exact congrArg Prod.fst run
  · have before : e ∈ s.databases.entries.entries := WeightedCache.mem_of_mem_get old
    obtain ⟨_, _, known, _⟩ := upToDate.registered.entry e before
    rw [if_neg (Nat.ne_of_lt (Registered.lt_size known))] at pushed
    exact upToDate.opens e before load database pushed ok

theorem openDatabase (target : Target) : Keeps UpToDate (Service.openDatabase target) := by
  intro s upToDate
  have registered := registered_openDatabase target s upToDate.registered
  cases found : s.databases.entries.find? target.key with
  | some e =>
      obtain ⟨_, _, _, _, _, _, run⟩ := openDatabase_hit upToDate.registered found
      rw [run] at registered ⊢
      exact upToDate.replace registered fun e listed =>
        upToDate.opens e (WeightedCache.mem_of_mem_get listed)
  | none =>
      have reads := ReadOnly.firstOf (s.basePath target) s.flags.enabled s.files
      change ReadOnly s.files (Loaded.first s.flags (s.basePath target) s.files).2 at reads
      generalize first : Loaded.first s.flags (s.basePath target) s.files = loading at reads
      obtain ⟨outcome, files⟩ := loading
      have after := upToDate.reading reads
      have opens := upToDate.opens_withLoad first reads
      rw [openDatabase_miss found first] at registered ⊢
      cases outcome with
      | ok loaded => exact after.replace registered opens
      | error failure =>
          refine after.replace registered ?_
          unfold Resident.dropFailed
          split
          · exact fun e listed => opens e (WeightedCache.mem_remove.mp listed).1
          · exact opens

end UpToDate

namespace Reflects

theorem basePath (reflects : u.Reflects s) (target : Target) :
    s.basePath target = u.basePath target :=
  congrArg (Files.join · target.key) reflects.root

theorem first_eq (reflects : u.Reflects s) (target : Target) :
    (Loaded.first s.flags (s.basePath target) s.files).1 =
      (Loaded.first u.flags (u.basePath target) u.files).1 := by
  rw [reflects.flags, reflects.basePath, first_alike reflects.files]

/-- What a service opens is what the stored files hold, or there is nothing. -/
theorem openDatabase (reflects : u.Reflects s) {outcome : Except Failure Database}
    (run : Service.openDatabase target s = (outcome, t)) :
    u.Reflects t ∧
      ((∃ database, outcome = .ok database ∧ t.IsOpen target database ∧
          (Loaded.first u.flags (u.basePath target) u.files).1 = .ok database.loaded) ∨
        (outcome = .error (.shared (.noData (u.basePath target))) ∧
          (Loaded.first u.flags (u.basePath target) u.files).1 =
            .error (.noData (u.basePath target)))) := by
  have registered := reflects.upToDate.registered
  have opening := openDatabase_opening registered run
  have after : u.Reflects t := by
    have upToDate := UpToDate.openDatabase target s reflects.upToDate
    rw [run] at upToDate
    exact
      { upToDate := upToDate
        root := opening.reads.root.trans reflects.root
        flags := opening.reads.flags.trans reflects.flags
        files := opening.reads.files.alike.trans reflects.files
        index := opening.reads.index.trans reflects.index }
  refine ⟨after, ?_⟩
  rcases Loaded.firstOf_cases (s.basePath target) s.flags.enabled s.files with
    ⟨loaded, first, _⟩ | first
  · obtain ⟨database, rfl⟩ := opening.loads loaded first
    have isOpen := opening.isOpen database rfl
    exact .inl ⟨database, rfl, isOpen,
      (after.first_eq target) ▸ after.upToDate.first_of_isOpen isOpen⟩
  · right
    have none : (Loaded.first u.flags (u.basePath target) u.files).1 =
        .error (.noData (u.basePath target)) := by
      rw [← reflects.first_eq, ← reflects.basePath]
      exact first
    refine ⟨?_, none⟩
    cases found : s.databases.entries.find? target.key with
    | some e =>
        obtain ⟨_, database, _, _, _, _, hit⟩ := openDatabase_hit registered found
        rw [run] at hit
        cases hit
        have isOpen := opening.isOpen database rfl
        have opens := after.upToDate.first_of_isOpen isOpen
        rw [after.first_eq, none] at opens
        cases opens
    | none =>
        generalize loading : Loaded.first s.flags (s.basePath target) s.files = result
        obtain ⟨outcome', files⟩ := result
        have same : outcome' = .error (.noData (s.basePath target)) := by
          rw [← first]
          exact congrArg Prod.fst loading.symm
        subst same
        rw [openDatabase_miss found loading] at run
        rw [← reflects.basePath]
        exact (congrArg Prod.fst run).symm

end Reflects

/-! ### Reading -/

theorem UpToDate.isFrom (upToDate : s.UpToDate) (isOpen : s.IsOpen target database) :
    database.loaded.IsFrom s.files (s.basePath target) s.flags.enabled :=
  isFrom_of_first (upToDate.first_of_isOpen isOpen)

/-- A service that reflects what another one stores has a database open. -/
structure ReflectsOpen (u : Service) (target : Target) (database : Database) (s : Service) :
    Prop where
  reflects : u.Reflects s
  isOpen : s.IsOpen target database

namespace ReflectsOpen

variable (opened : u.ReflectsOpen target database s)
include opened

theorem source {outcome : Except Failure Source}
    (run : Service.source database s = (outcome, t)) :
    outcome = .ok database.loaded.source ∧ u.ReflectsOpen target database t := by
  have upToDate := opened.reflects.upToDate
  obtain ⟨files, read, readOnly⟩ :=
    source_run (opened.isOpen.not_closed upToDate.registered) (upToDate.isFrom opened.isOpen)
  rw [read] at run
  cases run
  exact ⟨rfl, { opened.reflects with
    upToDate := upToDate.reading readOnly
    files := readOnly.alike.trans opened.reflects.files }, opened.isOpen.opened,
    opened.isOpen.resident⟩

/-- Documents may be forgotten, and others may be kept. -/
theorem keeping {documents : WeightedCache String Document}
    (mayKeep : ∀ entry ∈ documents.entries, entry ∈ s.documents.entries ∨
      MayKeep s.root s.files entry.key entry.value) :
    u.ReflectsOpen target database { s with documents } where
  reflects := { opened.reflects with upToDate := opened.reflects.upToDate.keeping mayKeep }
  isOpen := ⟨opened.isOpen.opened, opened.isOpen.resident⟩

theorem fetchDocument {path : String} {outcome : Except Failure (List UInt8)}
    (run : Service.fetchDocument database path s = (outcome, t)) :
    outcome = database.loaded.source.document path ∧ u.ReflectsOpen target database t := by
  cases reads : Service.source database s with
  | mk result v =>
      obtain ⟨rfl, after⟩ := opened.source reads
      unfold Service.fetchDocument at run
      rw [bind_ok reads] at run
      cases document : database.loaded.source.document path <;>
        rw [document] at run <;> cases run <;> exact ⟨rfl, after⟩

/-- A document is what the open dump answers, whether it is in the cache or not. -/
theorem readDocument (commit : Target.isCommit target.commit) {path : String}
    {outcome : Except Failure Document}
    (run : Service.readDocument database path s = (outcome, t)) :
    outcome = database.loaded.source.answer path ∧ u.ReflectsOpen target database t := by
  have looked : u.ReflectsOpen target database
      (Reader.looked s (documentKey database.loaded.path path)) :=
    opened.keeping fun entry listed => .inl (WeightedCache.mem_of_mem_get listed)
  rw [Reader.readDocument_run] at run
  cases cached : s.documents.peek? (documentKey database.loaded.path path) with
  | some document =>
      rw [cached] at run
      cases run
      obtain ⟨entry, found, rfl⟩ := Option.map_eq_some_iff.mp cached
      obtain ⟨listed, key⟩ := WeightedCache.mem_of_find? found
      have upToDate := opened.reflects.upToDate
      have mayKeep := key ▸ upToDate.documents entry listed
      exact ⟨((upToDate.isFrom opened.isOpen).answer_of_mayKeep commit mayKeep).symm, looked⟩
  | none =>
      rw [cached] at run
      dsimp only at run
      cases fetched : Service.fetchDocument database path
          (Reader.looked s (documentKey database.loaded.path path)) with
      | mk octets v =>
          obtain ⟨same, after⟩ := looked.fetchDocument fetched
          cases octets with
          | error failure =>
              rw [bind_error fetched] at run
              cases run
              refine ⟨?_, after⟩
              unfold Source.answer
              rw [← same]
              rfl
          | ok octets =>
              have answers := Reader.answer_fetched same.symm
              rw [bind_ok fetched, answers.symm] at run
              cases decoded : database.loaded.source.answer path with
              | error failure =>
                  rw [decoded] at run
                  cases run
                  exact ⟨rfl, after⟩
              | ok document =>
                  rw [decoded] at run
                  cases run
                  refine ⟨rfl, after.keeping fun entry listed => ?_⟩
                  rcases WeightedCache.mem_insert listed with rfl | ⟨old, _⟩
                  · exact .inr ((after.reflects.upToDate.isFrom after.isOpen).mayKeep_of_answer
                      commit decoded)
                  · exact .inl old

end ReflectsOpen

end Service

end CodeNav
