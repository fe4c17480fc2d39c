/-
Module: CodeNav.Proofs.Service.Reading
Purpose: What opening databases and reading documents of a target does to a service.
Main exports:
  Service.Opened, Service.IsOpen, Service.Reads, Service.openDatabase_opening
-/
import CodeNav.Proofs.Service.Alike
import CodeNav.Proofs.Service.Sound

namespace CodeNav

open Stateful

namespace Service

/-! ### What reading does -/

variable {s t u : Service} {target : Target} {database : Database}

/-- A database that was opened for a target, whether it has been closed since or not. -/
def Opened (s : Service) (target : Target) (database : Database) : Prop :=
  ∃ load, s.databases.loads[database.handle]? = some load ∧ load.outcome = .ok database ∧
    database.target.key = target.key

/-- The database that is open for a target. -/
structure IsOpen (s : Service) (target : Target) (database : Database) : Prop where
  opened : s.Opened target database
  resident : ∃ e, s.databases.entries.find? target.key = some e ∧ e.value = database.handle

theorem IsOpen.not_closed (isOpen : s.IsOpen target database)
    (registered : Registered s.databases s.closed) : database.handle ∉ s.closed := by
  obtain ⟨e, found, handle⟩ := isOpen.resident
  obtain ⟨_, _, _, _, _, opened⟩ := registered.entry e (WeightedCache.mem_of_find? found).1
  exact handle ▸ opened

/-- What queries for documents of a target may do to a service: they change the times of files, and
what is open or in the cache. What they open for the target is the dump that is stored. -/
structure Reads (target : Target) (s t : Service) : Prop where
  root : t.root = s.root
  flags : t.flags = s.flags
  index : t.index = s.index
  files : ReadOnly s.files t.files
  registered : Registered t.databases t.closed
  opened : ∀ database, s.Opened target database → t.Opened target database
  recent : ∀ database, t.Opened target database → s.Opened target database ∨
    (Loaded.first s.flags (s.basePath target) s.files).1 = .ok database.loaded
  closed : ∀ handle ∈ s.closed, handle ∈ t.closed
  isOpen : ∀ database, s.IsOpen target database → t.IsOpen target database

theorem first_alike {a b : Files} (alike : a.Alike b) (flags : EncodingFlags) (base : String) :
    (Loaded.first flags base a).1 = (Loaded.first flags base b).1 :=
  (Loaded.firstOf_alike base flags.enabled a b alike).1

namespace Reads

theorem refl (target : Target) (registered : Registered s.databases s.closed) :
    Reads target s s where
  root := rfl
  flags := rfl
  index := rfl
  files := .refl s.files
  registered := registered
  opened _ := id
  recent _ := .inl
  closed _ := id
  isOpen _ := id

/-- Neither the times of files nor the documents in the cache count. -/
theorem reading (reads : Reads target s t) {files : Files} (more : ReadOnly t.files files)
    (documents : WeightedCache String Document) : Reads target s { t with files, documents } :=
  { reads with
    files := reads.files.trans more
    isOpen database isOpen := ⟨(reads.isOpen database isOpen).1, (reads.isOpen database isOpen).2⟩ }

end Reads

/-! ### Opening -/

/-- What opening the database of a target comes to. -/
structure Opening (target : Target) (s : Service) (outcome : Except Failure Database)
    (t : Service) : Prop where
  reads : Reads target s t
  documents : t.documents = s.documents
  isOpen : ∀ database, outcome = .ok database → t.IsOpen target database
  loads : ∀ loaded, (Loaded.first s.flags (s.basePath target) s.files).1 = .ok loaded →
    ∃ database, outcome = .ok database

theorem opening_hit (registered : Registered s.databases s.closed) {e : Weighted String Nat}
    (found : s.databases.entries.find? target.key = some e) :
    Opening target s (openDatabase target s).1 (openDatabase target s).2 := by
  obtain ⟨load, db, loaded, ok, key, _, run⟩ := openDatabase_hit registered found
  have again : (s.databases.entries.get target.key).2.find? target.key = some e :=
    (WeightedCache.find?_get _ _).trans found
  have handle := registered.handle e.value load db loaded ok
  rw [run]
  refine ⟨⟨rfl, rfl, rfl, .refl _, registered_lookup registered _, fun _ => id, fun _ => .inl,
    fun _ => id, ?_⟩, rfl, ?_, fun _ _ => ⟨db, rfl⟩⟩
  · rintro database ⟨opened, e', found', same⟩
    rw [found] at found'
    cases found'
    exact ⟨opened, e, again, same⟩
  · intro database same
    cases same
    refine ⟨⟨load, ?_, ok, key⟩, e, again, handle.symm⟩
    rw [handle]
    exact loaded

/-- Behind a load, what was opened is what was opened before, and what was loaded. -/
theorem opened_push (target : Target) (database : Database) (outcome : Except Failure Loaded)
    (pushed : t.databases.loads = s.databases.loads.push
      ⟨0, outcome.map fun loaded => ⟨s.databases.loads.size, target, loaded⟩⟩) :
    t.Opened target database ↔ s.Opened target database ∨
      ∃ loaded, outcome = .ok loaded ∧ database = ⟨s.databases.loads.size, target, loaded⟩ := by
  unfold Opened
  rw [pushed, Array.getElem?_push]
  constructor
  · rintro ⟨load, found, ok, key⟩
    split at found
    · cases found
      cases outcome with
      | error failure => cases ok
      | ok loaded =>
          cases ok
          exact .inr ⟨loaded, rfl, rfl⟩
    · exact .inl ⟨load, found, ok, key⟩
  · rintro (⟨load, found, ok, key⟩ | ⟨loaded, rfl, rfl⟩)
    · rw [if_neg (Nat.ne_of_lt (Registered.lt_size found))]
      exact ⟨load, found, ok, key⟩
    · rw [if_pos rfl]
      exact ⟨_, rfl, rfl, rfl⟩

theorem opening_miss (registered : Registered s.databases s.closed)
    (absent : s.databases.entries.find? target.key = none) :
    Opening target s (openDatabase target s).1 (openDatabase target s).2 := by
  have keeps := registered_openDatabase target s registered
  have files := ReadOnly.firstOf (s.basePath target) s.flags.enabled s.files
  change ReadOnly s.files (Loaded.first s.flags (s.basePath target) s.files).2 at files
  have notOpen (database : Database) : ¬ s.IsOpen target database := by
    rintro ⟨_, e, found, _⟩
    rw [absent] at found
    cases found
  generalize first : Loaded.first s.flags (s.basePath target) s.files = loading at files
  obtain ⟨outcome, after⟩ := loading
  rw [openDatabase_miss absent first] at keeps ⊢
  cases outcome with
  | error failure =>
      let dropped := (s.withLoad target (.error failure) after).databases.dropFailed target.key
        s.databases.loads.size
      have pushed : dropped.loads = s.databases.loads.push ⟨0, .error failure⟩ := by
        simp only [dropped]
        unfold Resident.dropFailed
        split <;> rfl
      have opened (database : Database) :=
        opened_push (t := { s.withLoad target (.error failure) after with databases := dropped })
          target database (.error failure) pushed
      refine ⟨⟨rfl, rfl, rfl, files, keeps, ?_, ?_, ?_, ?_⟩, rfl, ?_, ?_⟩
      · exact fun database before => (opened database).mpr (.inl before)
      · intro database now
        rcases (opened database).mp now with before | ⟨loaded, same, _⟩
        · exact .inl before
        · cases same
      · exact fun handle listed => List.mem_append_right _ listed
      · exact fun database isOpen => absurd isOpen (notOpen database)
      · intro database same
        cases same
      · intro loaded same
        rw [first] at same
        cases same
  | ok loaded =>
      have opened (database : Database) :=
        opened_push (s := s) (t := s.withLoad target (.ok loaded) after) target database
          (.ok loaded) rfl
      refine ⟨⟨rfl, rfl, rfl, files, keeps, ?_, ?_, ?_, ?_⟩, rfl, ?_, fun _ _ => ⟨_, rfl⟩⟩
      · exact fun database before => (opened database).mpr (.inl before)
      · intro database now
        rw [first]
        rcases (opened database).mp now with before | ⟨other, same, rfl⟩
        · exact .inl before
        · cases same
          exact .inr rfl
      · exact fun handle listed => List.mem_append_right _ listed
      · exact fun database isOpen => absurd isOpen (notOpen database)
      · intro database same
        cases same
        exact ⟨(opened _).mpr (.inr ⟨loaded, rfl, rfl⟩), _, WeightedCache.find?_insert _ _ _ _, rfl⟩

theorem openDatabase_opening (registered : Registered s.databases s.closed)
    {outcome : Except Failure Database} (run : openDatabase target s = (outcome, t)) :
    Opening target s outcome t := by
  have opening : Opening target s (openDatabase target s).1 (openDatabase target s).2 := by
    cases found : s.databases.entries.find? target.key with
    | some e => exact opening_hit registered found
    | none => exact opening_miss registered found
  rw [run] at opening
  exact opening

theorem fetchDocument_reads [Gzip.Compressor] (target : Target)
    (registered : Registered s.databases s.closed) {path : String}
    {outcome : Except Failure (List UInt8)}
    (run : fetchDocument database path s = (outcome, t)) :
    Reads target s t ∧ t.documents = s.documents := by
  have keeps := keeps_fetchDocument
    (P := fun t => Reads target s t ∧ t.documents = s.documents)
    (fun t files holds more => ⟨holds.1.reading more t.documents, holds.2⟩) database path s
    ⟨.refl target registered, rfl⟩
  rw [run] at keeps
  exact keeps

end Service

end CodeNav
