/-
Module: CodeNav.Proofs.Service.Registry
Purpose: Every database ever opened is either in the cache or closed.
Main exports:
  Registered, Service.openDatabase_hit, Service.openDatabase_miss, Service.registered_openDatabase
-/
import CodeNav.Proofs.Cache.Weighted
import CodeNav.Proofs.Stateful
import CodeNav.Service.Registry

namespace CodeNav

open Stateful

/-- The cache of databases and the handles of those that are closed: a database bears the number
of its load, the cache holds databases that are open under the keys of their targets, and every
other one is closed. -/
structure Registered (databases : Resident Database) (closed : List Nat) : Prop where
  settled : ∀ (n : Nat) (load : Load Database), databases.loads[n]? = some load → load.turns = 0
  handle : ∀ (n : Nat) (load : Load Database) (db : Database), databases.loads[n]? = some load →
    load.outcome = .ok db → db.handle = n
  distinct : databases.entries.Distinct
  entry : ∀ e ∈ databases.entries.entries, ∃ (load : Load Database) (db : Database),
    databases.loads[e.value]? = some load ∧ load.outcome = .ok db ∧ db.target.key = e.key ∧
      e.value ∉ closed
  started : ∀ n ∈ closed, n < databases.loads.size
  resident : ∀ (n : Nat) (load : Load Database) (db : Database), databases.loads[n]? = some load →
    load.outcome = .ok db →
      n ∈ closed ∨ ∃ e ∈ databases.entries.entries, e.value = n ∧ e.key = db.target.key

theorem registered_empty (maxWeight : Nat) : Registered (.empty maxWeight) [] where
  settled n load found := by simp [Resident.empty] at found
  handle n load db found := by simp [Resident.empty] at found
  distinct := WeightedCache.distinct_empty maxWeight
  entry e member := by cases member
  started n member := by cases member
  resident n load db found := by simp [Resident.empty] at found

namespace Registered

variable {databases : Resident Database} {closed : List Nat}

theorem lt_size {n : Nat} {load : Load Database} (found : databases.loads[n]? = some load) :
    n < databases.loads.size := by
  rcases Nat.lt_or_ge n databases.loads.size with less | more
  · exact less
  · rw [Array.getElem?_eq_none more] at found
    cases found

/-- A load stays what it is when another one is started. -/
theorem found_push {loads : Array (Load Database)} {n : Nat} {load : Load Database}
    (found : loads[n]? = some load) (new : Load Database) : (loads.push new)[n]? = some load := by
  obtain ⟨less, _⟩ := Array.getElem?_eq_some_iff.mp found
  rw [Array.getElem?_push, if_neg (Nat.ne_of_lt less), found]

/-- The entries of the cache matter, not how it has been used. -/
theorem of_mem (registered : Registered databases closed) {entries : WeightedCache String Nat}
    (distinct : entries.Distinct)
    (same : ∀ e, e ∈ entries.entries ↔ e ∈ databases.entries.entries) :
    Registered { databases with entries } closed where
  settled := registered.settled
  handle := registered.handle
  distinct := distinct
  entry e member := registered.entry e ((same e).mp member)
  started := registered.started
  resident n load db found opened := by
    rcases registered.resident n load db found opened with gone | ⟨e, member, this⟩
    · exact .inl gone
    · exact .inr ⟨e, (same e).mpr member, this⟩

/-- Every entry of the cache is for a load of its own. -/
theorem entry_inj (registered : Registered databases closed) {e other : Weighted String Nat}
    (member : e ∈ databases.entries.entries) (among : other ∈ databases.entries.entries)
    (same : other.value = e.value) : other = e := by
  obtain ⟨load, db, found, ok, key, _⟩ := registered.entry e member
  obtain ⟨load', db', found', ok', key', _⟩ := registered.entry other among
  rw [same, found] at found'
  cases found'
  rw [ok] at ok'
  cases ok'
  have one := WeightedCache.find?_eq_some_of_mem registered.distinct among
  rw [← key', key, WeightedCache.find?_eq_some_of_mem registered.distinct member] at one
  exact (Option.some.inj one).symm

/-- What is disposed of when loads leave the cache is the databases of those loads. -/
theorem mem_disposable (registered : Registered databases closed) {left : List Nat}
    (gone : ∀ n ∈ left, ∃ e ∈ databases.entries.entries, e.value = n) (n : Nat) :
    n ∈ (databases.disposable left).map (·.handle) ↔ n ∈ left := by
  unfold Resident.disposable
  simp only [List.mem_map, List.mem_filterMap]
  constructor
  · rintro ⟨db, ⟨m, among, found⟩, rfl⟩
    obtain ⟨load, loaded, opened⟩ := Option.bind_eq_some_iff.mp found
    have ok : load.outcome = .ok db := by
      cases outcome : load.outcome with
      | error failure =>
          rw [outcome] at opened
          cases opened
      | ok other =>
          rw [outcome] at opened
          cases opened
          rfl
    rw [registered.handle m load db loaded ok]
    exact among
  · intro among
    obtain ⟨e, member, rfl⟩ := gone n among
    obtain ⟨load, db, found, ok, _⟩ := registered.entry e member
    refine ⟨db, ⟨e.value, among, ?_⟩, registered.handle _ load db found ok⟩
    rw [found, Option.bind_some, ok]
    rfl

/-- Databases that leave the cache are closed. -/
theorem leave (registered : Registered databases closed) {entries : WeightedCache String Nat}
    {left : List Nat} (distinct : entries.Distinct)
    (fewer : ∀ e ∈ entries.entries, e ∈ databases.entries.entries)
    (stay : ∀ e ∈ databases.entries.entries, e ∈ entries.entries ∨ e.value ∈ left)
    (gone : ∀ n ∈ left, ∃ e ∈ databases.entries.entries, e.value = n ∧ e ∉ entries.entries) :
    Registered { databases with entries }
      ((databases.disposable left).map (·.handle) ++ closed) := by
  have handles := registered.mem_disposable fun n listed =>
    (gone n listed).imp fun _ entry => ⟨entry.1, entry.2.1⟩
  constructor
  · exact registered.settled
  · exact registered.handle
  · exact distinct
  · intro e member
    obtain ⟨load, db, found, ok, key, notClosed⟩ := registered.entry e (fewer e member)
    refine ⟨load, db, found, ok, key, ?_⟩
    intro listed
    rcases List.mem_append.mp listed with listed | listed
    · obtain ⟨other, among, same, absent⟩ := gone e.value ((handles _).mp listed)
      rw [registered.entry_inj (fewer e member) among same] at absent
      exact absent member
    · exact notClosed listed
  · intro n listed
    rcases List.mem_append.mp listed with listed | listed
    · obtain ⟨e, member, rfl, _⟩ := gone n ((handles n).mp listed)
      obtain ⟨load, db, found, _⟩ := registered.entry e member
      exact lt_size found
    · exact registered.started n listed
  · intro n load db found ok
    rcases registered.resident n load db found ok with already | ⟨e, member, same, key⟩
    · exact .inl (List.mem_append_right _ already)
    · rcases stay e member with stays | leaves
      · exact .inr ⟨e, stays, same, key⟩
      · left
        rw [same] at leaves
        exact List.mem_append_left _ ((handles n).mpr leaves)

/-- A load that failed has no place in the cache. -/
theorem push_failed (registered : Registered databases closed) (failure : Failure) :
    Registered { databases with loads := databases.loads.push ⟨0, .error failure⟩ } closed where
  settled n load found := by
    rw [Array.getElem?_push] at found
    split at found
    · cases found
      rfl
    · exact registered.settled n load found
  handle n load db found opened := by
    rw [Array.getElem?_push] at found
    split at found
    · cases found
      cases opened
    · exact registered.handle n load db found opened
  distinct := registered.distinct
  entry e member := by
    obtain ⟨load, db, found, rest⟩ := registered.entry e member
    exact ⟨load, db, found_push found _, rest⟩
  started n member := by
    rw [Array.size_push]
    exact Nat.lt_succ_of_lt (registered.started n member)
  resident n load db found opened := by
    rw [Array.getElem?_push] at found
    split at found
    · cases found
      cases opened
    · exact registered.resident n load db found opened

/-- A database that was loaded under a new key is the one of its load. -/
theorem push_loaded (registered : Registered databases closed) {key : String} {weight : Nat}
    (db : Database) (entries : WeightedCache String Nat) (handle : db.handle = databases.loads.size)
    (target : db.target.key = key) (fresh : ∀ e ∈ databases.entries.entries, e.key ≠ key)
    (listed : entries.entries = ⟨key, databases.loads.size, weight⟩ :: databases.entries.entries) :
    Registered ⟨entries, databases.loads.push ⟨0, .ok db⟩⟩ closed where
  settled n load found := by
    rw [Array.getElem?_push] at found
    split at found
    · cases found
      rfl
    · exact registered.settled n load found
  handle n load other found opened := by
    rw [Array.getElem?_push] at found
    split at found
    · rename_i same
      cases found
      cases opened
      rw [same, handle]
    · exact registered.handle n load other found opened
  distinct := by
    unfold WeightedCache.Distinct
    rw [listed, List.map_cons, List.nodup_cons]
    refine ⟨?_, registered.distinct⟩
    intro member
    obtain ⟨e, among, same⟩ := List.mem_map.mp member
    exact fresh e among same
  entry e member := by
    rw [listed] at member
    rcases List.mem_cons.mp member with rfl | member
    · refine ⟨⟨0, .ok db⟩, db, by simp, rfl, target, ?_⟩
      intro already
      exact absurd (registered.started _ already) (Nat.lt_irrefl _)
    · obtain ⟨load, other, found, rest⟩ := registered.entry e member
      exact ⟨load, other, found_push found _, rest⟩
  started n member := by
    rw [Array.size_push]
    exact Nat.lt_succ_of_lt (registered.started n member)
  resident n load other found opened := by
    rw [Array.getElem?_push] at found
    rw [listed]
    split at found
    · rename_i same
      cases found
      cases opened
      exact .inr ⟨_, List.mem_cons_self, same.symm, target.symm⟩
    · rcases registered.resident n load other found opened with gone | ⟨e, member, this⟩
      · exact .inl gone
      · exact .inr ⟨e, List.mem_cons_of_mem _ member, this⟩

end Registered

/-! ### Opening -/

namespace Service

/-- The service behind a load for a target, whatever came of it. What the load pushes out is
closed. -/
def withLoad (s : Service) (target : Target) (outcome : Except Failure Loaded) (files : Files) :
    Service :=
  let number := s.databases.loads.size
  let load : Load Database := ⟨0, outcome.map fun loaded => ⟨number, target, loaded⟩⟩
  let weight := s.files.dumpWeight (s.basePath target) s.sizes
  let inserted := (s.databases.entries.get target.key).2.insert target.key number weight
  let databases : Resident Database := ⟨inserted.2, s.databases.loads.push load⟩
  { s with
    files
    databases
    closed := (databases.disposable (inserted.1.map (·.2))).map (·.handle) ++ s.closed }

theorem get_of_absent {entries : WeightedCache String Nat} {key : String}
    (absent : entries.find? key = none) :
    entries.get key = (none, { entries with misses := entries.misses + 1 }) := by
  unfold WeightedCache.get
  rw [absent]

theorem onDatabases_run {α : Type} (change : Resident Database → α × Resident Database)
    (s : Service) :
    onDatabases change s =
      (.ok (change s.databases).1, { s with databases := (change s.databases).2 }) :=
  rfl

theorem loadDatabase_run (target : Target) (s : Service) :
    loadDatabase target s =
      ((Loaded.first s.flags (s.basePath target) s.files).1.map fun loaded =>
          ⟨s.databases.loads.size, target, loaded⟩,
        { s with files := (Loaded.first s.flags (s.basePath target) s.files).2 }) := by
  have first : ServiceM.onFiles (Loaded.first s.flags (s.basePath target)) s =
      ((Loaded.first s.flags (s.basePath target) s.files).1,
        { s with files := (Loaded.first s.flags (s.basePath target) s.files).2 }) := rfl
  unfold loadDatabase
  rw [bind_ok (get_run s)]
  cases outcome : (Loaded.first s.flags (s.basePath target) s.files).1 with
  | error failure =>
      rw [outcome] at first
      exact bind_error first
  | ok loaded =>
      rw [outcome] at first
      exact bind_ok first

/-- A load is started for a target that was looked up in vain. -/
theorem startLoad_run {s : Service} {target : Target} {outcome : Except Failure Loaded}
    {files : Files} (absent : s.databases.entries.find? target.key = none)
    (run : Loaded.first s.flags (s.basePath target) s.files = (outcome, files)) :
    startLoad target
        { s with databases :=
          { s.databases with entries := (s.databases.entries.get target.key).2 } } =
      (.ok s.databases.loads.size, s.withLoad target outcome files) := by
  let looked : Service := { s with databases :=
    { s.databases with entries := (s.databases.entries.get target.key).2 } }
  have unknown : looked.databases.entries.peek? target.key = none := by
    simp only [looked, get_of_absent absent, WeightedCache.peek?]
    exact congrArg (Option.map _) absent
  have loaded : loadDatabase target looked =
      (outcome.map fun loaded => ⟨s.databases.loads.size, target, loaded⟩,
        { looked with files }) := by
    have same : Loaded.first looked.flags (looked.basePath target) looked.files =
        (outcome, files) := run
    rw [loadDatabase_run, same]
  have attempted : ServiceM.attempt (loadDatabase target) looked =
      (.ok (outcome.map fun loaded => ⟨s.databases.loads.size, target, loaded⟩),
        { looked with files }) := by
    unfold ServiceM.attempt
    rw [loaded]
  change startLoad target looked = _
  unfold startLoad
  rw [bind_ok (get_run looked), bind_ok attempted, bind_ok (onDatabases_run _ _)]
  simp only [Resident.register]
  rw [show ({ looked with files } : Service).databases.entries.peek? target.key = none
    from unknown]
  rfl

/-- What is not in the cache is loaded. -/
theorem openDatabase_miss {s : Service} {target : Target} {outcome : Except Failure Loaded}
    {files : Files} (absent : s.databases.entries.find? target.key = none)
    (run : Loaded.first s.flags (s.basePath target) s.files = (outcome, files)) :
    openDatabase target s =
      match outcome with
      | .ok loaded =>
        (.ok ⟨s.databases.loads.size, target, loaded⟩, s.withLoad target outcome files)
      | .error failure =>
        (.error (.shared failure),
          { s.withLoad target outcome files with
            databases := (s.withLoad target outcome files).databases.dropFailed target.key
              s.databases.loads.size }) := by
  have looked : onDatabases (·.lookup target.key) s =
      (.ok none, { s with databases :=
        { s.databases with entries := (s.databases.entries.get target.key).2 } }) := by
    rw [onDatabases_run]
    simp only [Resident.lookup, get_of_absent absent]
  unfold openDatabase
  rw [bind_ok looked]
  dsimp only
  rw [bind_ok (startLoad_run absent run), bind_ok (onDatabases_run _ _)]
  have load : (s.withLoad target outcome files).databases.loads[s.databases.loads.size]? =
      some ⟨0, outcome.map fun loaded => ⟨s.databases.loads.size, target, loaded⟩⟩ := by
    simp [withLoad]
  simp only [Resident.pollLoad, load]
  cases outcome with
  | error failure => rfl
  | ok loaded => rfl

/-- What is in the cache is open. -/
theorem openDatabase_hit {s : Service} (registered : Registered s.databases s.closed)
    {target : Target} {e : Weighted String Nat}
    (found : s.databases.entries.find? target.key = some e) :
    ∃ (load : Load Database) (db : Database), s.databases.loads[e.value]? = some load ∧
      load.outcome = .ok db ∧ db.target.key = target.key ∧ e.value ∉ s.closed ∧
      openDatabase target s = (.ok db, { s with databases :=
        { s.databases with entries := (s.databases.entries.get target.key).2 } }) := by
  obtain ⟨member, key⟩ := WeightedCache.mem_of_find? found
  obtain ⟨load, db, loaded, ok, ofTarget, opened⟩ := registered.entry e member
  refine ⟨load, db, loaded, ok, ofTarget.trans key, opened, ?_⟩
  have looked : onDatabases (·.lookup target.key) s =
      (.ok (some e.value), { s with databases :=
        { s.databases with entries := (s.databases.entries.get target.key).2 } }) := by
    rw [onDatabases_run]
    simp [Resident.lookup, WeightedCache.get, found]
  unfold openDatabase
  rw [bind_ok looked]
  dsimp only
  rw [bind_ok (pure_run _ _), bind_ok (onDatabases_run _ _)]
  have settled := registered.settled _ _ loaded
  simp only [Resident.pollLoad, loaded, settled, ok]
  rfl

/-- Looking a key up changes the order of the entries alone. -/
theorem registered_lookup {s : Service} (registered : Registered s.databases s.closed)
    (key : String) :
    Registered { s.databases with entries := (s.databases.entries.get key).2 } s.closed :=
  registered.of_mem (WeightedCache.distinct_get registered.distinct key)
    fun _ => WeightedCache.mem_get registered.distinct key

/-- A key that is absent stays so when it is looked up. -/
theorem fresh_lookup {s : Service} {key : String}
    (absent : s.databases.entries.find? key = none) :
    ∀ e ∈ (s.databases.entries.get key).2.entries, e.key ≠ key := by
  rw [get_of_absent absent]
  exact WeightedCache.find?_eq_none.mp absent

theorem registered_withLoad {s : Service} (registered : Registered s.databases s.closed)
    {target : Target} (absent : s.databases.entries.find? target.key = none) (loaded : Loaded)
    (files : Files) :
    Registered (s.withLoad target (.ok loaded) files).databases
      (s.withLoad target (.ok loaded) files).closed := by
  let entries := (s.databases.entries.get target.key).2
  let weight := s.files.dumpWeight (s.basePath target) s.sizes
  let new : Weighted String Nat := ⟨target.key, s.databases.loads.size, weight⟩
  have looked := registered_lookup registered target.key
  have fresh : ∀ e ∈ entries.entries, e.key ≠ target.key := fresh_lookup absent
  have inserted := WeightedCache.inserted looked.distinct target.key s.databases.loads.size weight
  -- all entries first, and then those that stay
  have all := looked.push_loaded ⟨s.databases.loads.size, target, loaded⟩
    { entries with entries := new :: entries.entries } rfl rfl fresh rfl
  refine all.leave inserted.distinct ?_ ?_ ?_
  · intro e member
    rcases inserted.mem e member with rfl | ⟨old, _⟩
    · exact List.mem_cons_self
    · exact List.mem_cons_of_mem _ old
  · intro e member
    rcases List.mem_cons.mp member with rfl | old
    · exact .inl inserted.stays
    · rcases inserted.kept e old (fresh e old) with stays | out
      · exact .inl stays
      · exact .inr (List.mem_map.mpr ⟨_, out, rfl⟩)
  · intro n out
    obtain ⟨pushed, listed, rfl⟩ := List.mem_map.mp out
    obtain ⟨e, member, rfl, left⟩ := inserted.pushed pushed listed
    refine ⟨e, List.mem_cons_of_mem _ member, rfl, ?_⟩
    rcases left with sameKey | gone
    · exact absurd sameKey (fresh e member)
    · exact gone

/-- A database that was just loaded is not closed. -/
theorem loaded_not_closed {s : Service} (registered : Registered s.databases s.closed)
    {target : Target} (absent : s.databases.entries.find? target.key = none) (loaded : Loaded)
    (files : Files) :
    s.databases.loads.size ∉ (s.withLoad target (.ok loaded) files).closed := by
  have looked := registered_lookup registered target.key
  have inserted := WeightedCache.inserted looked.distinct target.key s.databases.loads.size
    (s.files.dumpWeight (s.basePath target) s.sizes)
  obtain ⟨_, _, _, _, _, opened⟩ :=
    (registered_withLoad registered absent loaded files).entry _ inserted.stays
  exact opened

/-- A load that fails may push others out, and leaves itself. -/
theorem registered_dropFailed {s : Service} (registered : Registered s.databases s.closed)
    {target : Target} (absent : s.databases.entries.find? target.key = none) (failure : Failure)
    (files : Files) :
    Registered
      ((s.withLoad target (.error failure) files).databases.dropFailed target.key
        s.databases.loads.size)
      (s.withLoad target (.error failure) files).closed := by
  let entries := (s.databases.entries.get target.key).2
  let weight := s.files.dumpWeight (s.basePath target) s.sizes
  have looked := registered_lookup registered target.key
  have fresh : ∀ e ∈ entries.entries, e.key ≠ target.key := fresh_lookup absent
  have inserted := WeightedCache.inserted looked.distinct target.key s.databases.loads.size weight
  have found := WeightedCache.find?_eq_some_of_mem inserted.distinct inserted.stays
  have dropped : (s.withLoad target (.error failure) files).databases.dropFailed target.key
      s.databases.loads.size =
      ⟨((entries.insert target.key s.databases.loads.size weight).2.remove target.key).2,
        s.databases.loads.push ⟨0, .error failure⟩⟩ := by
    unfold Resident.dropFailed
    rw [if_pos]
    · rfl
    · simp only [withLoad, WeightedCache.peek?]
      rw [found]
      rfl
  rw [dropped]
  refine (looked.push_failed failure).leave
    (WeightedCache.distinct_remove inserted.distinct target.key) ?_ ?_ ?_
  · intro e member
    obtain ⟨member, differs⟩ := WeightedCache.mem_remove.mp member
    rcases inserted.mem e member with rfl | ⟨old, _⟩
    · exact absurd rfl differs
    · exact old
  · intro e member
    rcases inserted.kept e member (fresh e member) with stays | out
    · exact .inl (WeightedCache.mem_remove.mpr ⟨stays, fresh e member⟩)
    · exact .inr (List.mem_map.mpr ⟨_, out, rfl⟩)
  · intro n out
    obtain ⟨pushed, listed, rfl⟩ := List.mem_map.mp out
    obtain ⟨e, member, rfl, left⟩ := inserted.pushed pushed listed
    refine ⟨e, member, rfl, ?_⟩
    rcases left with sameKey | gone
    · exact absurd sameKey (fresh e member)
    · exact fun stays => gone (WeightedCache.mem_remove.mp stays).1

/-- Opening keeps the books. -/
theorem registered_openDatabase (target : Target) :
    Keeps (fun s => Registered s.databases s.closed) (openDatabase target) := by
  intro s registered
  cases found : s.databases.entries.find? target.key with
  | some e =>
      obtain ⟨load, db, _, _, _, _, run⟩ := openDatabase_hit registered found
      rw [run]
      exact registered_lookup registered target.key
  | none =>
      generalize first : Loaded.first s.flags (s.basePath target) s.files = loading
      obtain ⟨outcome, files⟩ := loading
      rw [openDatabase_miss found first]
      cases outcome with
      | error failure => exact registered_dropFailed registered found failure files
      | ok loaded => exact registered_withLoad registered found loaded files

/-! ### Closing -/

/-- What is evicted is closed, and nothing else. -/
theorem evictKey_run (key : String) (s : Service) :
    evictKey key s =
      match s.databases.entries.find? key with
      | none => (.ok false, s)
      | some e =>
        (.ok true, { s with
          databases := { s.databases with entries := (s.databases.entries.remove key).2 }
          closed := (s.databases.disposable [e.value]).map (·.handle) ++ s.closed }) := by
  unfold evictKey
  rw [bind_ok (onDatabases_run _ s)]
  cases found : s.databases.entries.find? key with
  | none =>
      have removed : s.databases.remove key = (false, [], s.databases) := by
        simp [Resident.remove, WeightedCache.remove, found]
      simp only [removed]
      rfl
  | some e =>
      have removed : s.databases.remove key =
          (true, s.databases.disposable [e.value],
            { s.databases with entries := (s.databases.entries.remove key).2 }) := by
        simp [Resident.remove, WeightedCache.remove, found]
      simp only [removed]
      rfl

theorem registered_evictKey (key : String) :
    Keeps (fun s => Registered s.databases s.closed) (evictKey key) := by
  intro s registered
  rw [evictKey_run]
  cases found : s.databases.entries.find? key with
  | none => exact registered
  | some e =>
      obtain ⟨member, sameKey⟩ := WeightedCache.mem_of_find? found
      refine registered.leave (WeightedCache.distinct_remove registered.distinct key) ?_ ?_ ?_
      · exact fun other listed => (WeightedCache.mem_remove.mp listed).1
      · intro other listed
        by_cases same : other.key = key
        · right
          have one := WeightedCache.find?_eq_some_of_mem registered.distinct listed
          rw [same, found] at one
          cases one
          exact List.mem_singleton_self _
        · exact .inl (WeightedCache.mem_remove.mpr ⟨listed, same⟩)
      · intro n listed
        rw [List.mem_singleton] at listed
        exact ⟨e, member, listed.symm, fun stays => (WeightedCache.mem_remove.mp stays).2 sameKey⟩

/-- Behind an eviction nothing is open under the key. -/
theorem find?_evictKey (key : String) (s : Service) :
    (evictKey key s).2.databases.entries.find? key = none := by
  rw [evictKey_run]
  cases found : s.databases.entries.find? key with
  | none => exact found
  | some e =>
      rw [WeightedCache.find?_eq_none]
      exact fun other member => (WeightedCache.mem_remove.mp member).2

/-- An eviction takes the entries under one key, and leaves the others in their order. -/
theorem entries_evictKey (key : String) (s : Service) :
    (evictKey key s).2.databases.entries.entries =
      s.databases.entries.entries.filter (·.key ≠ key) := by
  rw [evictKey_run]
  cases found : s.databases.entries.find? key with
  | none =>
      refine (List.filter_eq_self.mpr fun e member => ?_).symm
      exact decide_eq_true (WeightedCache.find?_eq_none.mp found e member)
  | some e => simp [WeightedCache.remove, found, WeightedCache.others]

/-- An eviction opens nothing. -/
theorem find?_evictKey_of_none {key other : String} {s : Service}
    (absent : s.databases.entries.find? other = none) :
    (evictKey key s).2.databases.entries.find? other = none := by
  rw [evictKey_run]
  cases s.databases.entries.find? key with
  | none => exact absent
  | some e =>
      rw [WeightedCache.find?_eq_none] at absent ⊢
      exact fun entry member => absent entry (WeightedCache.mem_remove.mp member).1

/-- An eviction forgets no load. -/
theorem loads_evictKey (key : String) (s : Service) :
    (evictKey key s).2.databases.loads = s.databases.loads := by
  rw [evictKey_run]
  cases s.databases.entries.find? key <;> rfl

/-! ### Forgetting -/

/-- The key of a document names a file that it was read from. -/
def isFrom (file : String) (key : String) : Bool :=
  (documentKey file "").toList.isPrefixOf key.toList

theorem isFrom_documentKey (file path : String) : isFrom file (documentKey file path) := by
  unfold isFrom documentKey
  rw [List.isPrefixOf_iff_prefix]
  simp

/-- The documents that were read from none of some files. -/
def forgetFiles (documents : WeightedCache String Document) (files : List String) :
    WeightedCache String Document :=
  files.foldl (fun documents file => (documents.removeWhere (isFrom file)).2) documents

theorem mem_forgetFiles {documents : WeightedCache String Document} {files : List String}
    {entry : Weighted String Document} :
    entry ∈ (forgetFiles documents files).entries ↔
      entry ∈ documents.entries ∧ ∀ file ∈ files, isFrom file entry.key = false := by
  induction files generalizing documents with
  | nil => simp [forgetFiles]
  | cons file rest ih =>
      change entry ∈ (forgetFiles (documents.removeWhere (isFrom file)).2 rest).entries ↔ _
      rw [ih, WeightedCache.mem_removeWhere, List.forall_mem_cons, and_assoc]

/-- The files of a target in all encodings, enabled or not. -/
def targetFiles (s : Service) (target : Target) : List String :=
  Encoding.all.map fun kind => kind.path (s.basePath target)

theorem invalidate_run (target : Target) (s : Service) :
    ∃ count, invalidate target s =
      (.ok count, { s with documents := forgetFiles s.documents (s.targetFiles target) }) :=
  ⟨_, rfl⟩

/-- An eviction changes the databases and what is closed, and nothing else. -/
theorem evictKey_frame (key : String) (s : Service) :
    (evictKey key s).2 =
      { s with
        databases := (evictKey key s).2.databases
        closed := (evictKey key s).2.closed } := by
  rw [evictKey_run]
  cases s.databases.entries.find? key <;> rfl

theorem evictKey_ok (key : String) (s : Service) :
    ∃ found, evictKey key s = (.ok found, (evictKey key s).2) := by
  rw [evictKey_run]
  cases s.databases.entries.find? key with
  | none => exact ⟨false, rfl⟩
  | some e => exact ⟨true, rfl⟩

/-- A service that has closed the database of a target and forgotten its documents. -/
def forgetTarget (s : Service) (target : Target) : Service :=
  { s with
    databases := (evict target s).2.databases
    closed := (evict target s).2.closed
    documents := forgetFiles s.documents (s.targetFiles target) }

theorem forget_run {α : Type} (target : Target) (rest : ServiceM α) (s : Service) :
    (do
      let _ ← evict target
      let _ ← invalidate target
      rest : ServiceM α) s = rest (s.forgetTarget target) := by
  obtain ⟨found, evicted⟩ := evictKey_ok target.key s
  rw [evictKey_frame] at evicted
  obtain ⟨count, forgotten⟩ := invalidate_run target
    { s with databases := (evictKey target.key s).2.databases
             closed := (evictKey target.key s).2.closed }
  rw [bind_ok (c := evict target) evicted, bind_ok forgotten]
  rfl

end Service

end CodeNav
