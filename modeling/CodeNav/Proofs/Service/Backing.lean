/-
Module: CodeNav.Proofs.Service.Backing
Purpose: Loads within reach have read no file that is gone, whatever look-ups do.
Main exports:
  Service.DecodedFrom, Service.Clear, Service.Holds, Service.Passes, Operation.run_passes,
  Operation.run_holds
-/
import CodeNav.Proofs.Service.Hands
import CodeNav.Proofs.Service.Housekeeping
import CodeNav.Proofs.Service.Interleaving
import CodeNav.Proofs.Success

namespace CodeNav

open Stateful

namespace Service

/-! ### Files that are gone -/

/-- A document under a key was decoded from a file. -/
def DecodedFrom (root file key : String) : Prop :=
  ∃ target kind path, Target.isCommit target.commit ∧ file = dumpFile root target kind ∧
    key = documentKey file path

/-- A dump was read from one of the files that a key stands for. -/
def FiledUnder (s : Service) (key : String) (loaded : Loaded) : Prop :=
  ∃ kind : Encoding, loaded.path = kind.path (Files.join s.root key)

/-- Every load in the cache exists, and has read a file of the key that it stands under. -/
def Filed (s : Service) : Prop :=
  ∀ e ∈ s.databases.entries.entries, ∃ load, s.databases.loads[e.value]? = some load ∧
    ∀ database, load.outcome = .ok database → s.FiledUnder e.key database.loaded

/-- A load can stand under a key: it was asked for by none but targets with that key, and the file
that it has read is one of theirs and is not gone. -/
def Backed (s : Service) (asked : List (Nat × Target)) (gone : String → Prop) (key : String)
    (number : Nat) : Prop :=
  (∀ target, (number, target) ∈ asked → target.key = key) ∧
    ∃ load, s.databases.loads[number]? = some load ∧ ∀ database, load.outcome = .ok database →
      s.FiledUnder key database.loaded ∧ ¬ gone database.loaded.path

/-- Nothing in memory was read from a file that is gone. -/
structure Clear (s : Service) (asked : List (Nat × Target)) (gone : String → Prop) : Prop where
  absent : ∀ file, gone file → s.files.find? file = none
  entries : ∀ e ∈ s.databases.entries.entries, s.Backed asked gone e.key e.value
  documents : ∀ entry ∈ s.documents.entries, ∀ file, gone file →
    ¬ DecodedFrom s.root file entry.key
  asked : ∀ number target, (number, target) ∈ asked → number < s.databases.loads.size

/-- What a call has in its hands can stand: its databases come from loads that it was told of. -/
structure Holds (s : Service) (asked : List (Nat × Target)) (gone : String → Prop) (hand : Hand) :
    Prop where
  loads : ∀ target number, (target, number) ∈ hand.loads → s.Backed asked gone target.key number
  databases : ∀ target database, (target, database) ∈ hand.databases → ∃ number load,
    (target, number) ∈ hand.loads ∧ s.databases.loads[number]? = some load ∧ load.turns = 0 ∧
      load.outcome = .ok database

/-- What is up to date was read from the files that it stands for. -/
theorem UpToDate.filed [Gzip.Compressor] {s : Service} (upToDate : s.UpToDate) : s.Filed := by
  intro e listed
  obtain ⟨load, database, found, ok, _⟩ := upToDate.registered.entry e listed
  refine ⟨load, found, fun other same => ?_⟩
  obtain rfl : database = other := Except.ok.inj (ok.symm.trans same)
  have first := upToDate.opens e listed load database found ok
  rcases Loaded.firstOf_cases (Files.join s.root e.key) s.flags.enabled s.files with
    ⟨loaded, opens, isFrom⟩ | none
  · obtain rfl : loaded = database.loaded := Except.ok.inj (opens.symm.trans first)
    exact ⟨_, isFrom.path⟩
  · cases none.symm.trans first

/-- From one state to another, loads go on and finished ones stay what they are. -/
structure Passes (s : Service) (before : List (Nat × Target)) (gone : String → Prop) (t : Service)
    (after : List (Nat × Target)) : Prop where
  clear : t.Clear after gone
  backed : ∀ key number, s.Backed before gone key number → t.Backed after gone key number
  finished : ∀ (number : Nat) (load : Load Database), s.databases.loads[number]? = some load →
    load.turns = 0 → t.databases.loads[number]? = some load
  root : t.root = s.root

variable {s t u : Service} {asked more most : List (Nat × Target)} {gone : String → Prop}
  {hand : Hand}

theorem Passes.trans (first : Passes s asked gone t more) (second : Passes t more gone u most) :
    Passes s asked gone u most where
  clear := second.clear
  backed key number backed := second.backed key number (first.backed key number backed)
  finished number load found idle :=
    second.finished number load (first.finished number load found idle) idle
  root := second.root.trans first.root

theorem Holds.passes (holds : s.Holds asked gone hand) (passes : Passes s asked gone t more) :
    t.Holds more gone hand where
  loads target number told := passes.backed _ _ (holds.loads target number told)
  databases target database opened := by
    obtain ⟨number, load, told, found, idle, ok⟩ := holds.databases target database opened
    exact ⟨number, load, told, passes.finished number load found idle, idle, ok⟩

/-- A database in hand was read from a file of its target that is not gone. -/
theorem Holds.opened (holds : s.Holds asked gone hand) {target : Target} {database : Database}
    (opened : (target, database) ∈ hand.databases) :
    (∃ kind, database.loaded.path = dumpFile s.root target kind) ∧ ¬ gone database.loaded.path := by
  obtain ⟨number, load, told, found, _, ok⟩ := holds.databases target database opened
  obtain ⟨_, other, same, backed⟩ := holds.loads target number told
  rw [found] at same
  cases same
  exact backed database ok

/-- What is kept of such a database was decoded from no file that is gone. -/
theorem Holds.keeps (holds : s.Holds asked gone hand) {key : String} {document : Document}
    (within : (Operation.keep key document).Within hand) {file : String} (isGone : gone file) :
    ¬ DecodedFrom s.root file key := by
  rintro ⟨other, kind, path, commit, rfl, same⟩
  obtain ⟨target, database, path', opened, commit', rfl⟩ := within
  obtain ⟨⟨kind', read⟩, stays⟩ := holds.opened opened
  rw [read] at same
  obtain ⟨rfl, sameKey, _⟩ := documentKey_injective commit' commit same
  refine stays ?_
  rw [read]
  unfold dumpFile at isGone ⊢
  rwa [sameKey]

/-! ### Single changes -/

namespace Clear

variable (clear : s.Clear asked gone)
include clear

theorem refl : Passes s asked gone s asked :=
  ⟨clear, fun _ _ => id, fun _ _ found _ => found, rfl⟩

theorem reading {files : Files} (reads : ReadOnly s.files files) :
    Passes s asked gone { s with files } asked where
  clear := { clear with
    absent := fun file isGone => by
      have same := reads.alike file
      rw [clear.absent file isGone] at same
      exact Option.map_eq_none_iff.mp same }
  backed _ _ := id
  finished _ _ found _ := found
  root := rfl

theorem keeping {documents : WeightedCache String Document}
    (allowed : ∀ entry ∈ documents.entries, entry ∈ s.documents.entries ∨
      ∀ file, gone file → ¬ DecodedFrom s.root file entry.key) :
    Passes s asked gone { s with documents } asked where
  clear := { clear with
    documents := fun entry listed => (allowed entry listed).elim (clear.documents entry) id }
  backed _ _ := id
  finished _ _ found _ := found
  root := rfl

theorem withEntries {entries : WeightedCache String Nat}
    (fewer : ∀ e ∈ entries.entries, e ∈ s.databases.entries.entries) :
    Passes s asked gone { s with databases := { s.databases with entries } } asked where
  clear := { clear with entries := fun e listed => clear.entries e (fewer e listed) }
  backed _ _ := id
  finished _ _ found _ := found
  root := rfl

/-- A load that is not finished may go on, and come to something else. -/
theorem replaceLoad {number turns : Nat} {outcome : Except Failure Database} {load : Load Database}
    (found : s.databases.loads[number]? = some ⟨turns + 1, outcome⟩)
    (fits : ∀ key, s.Backed asked gone key number → ∀ database, load.outcome = .ok database →
      s.FiledUnder key database.loaded ∧ ¬ gone database.loaded.path) :
    Passes s asked gone { s with databases :=
      { s.databases with loads := s.databases.loads.setIfInBounds number load } } asked := by
  have set : (s.databases.loads.setIfInBounds number load)[number]? = some load :=
    Array.getElem?_setIfInBounds_self_of_lt (Registered.lt_size found)
  have backed (key : String) (other : Nat) (backed : s.Backed asked gone key other) :
      ({ s with databases := { s.databases with
        loads := s.databases.loads.setIfInBounds number load } } : Service).Backed asked gone key
          other := by
    refine ⟨backed.1, ?_⟩
    by_cases same : number = other
    · subst same
      exact ⟨load, set, fits key backed⟩
    · obtain ⟨there, stands, fine⟩ := backed.2
      exact ⟨there, (Array.getElem?_setIfInBounds_ne same).trans stands, fine⟩
  refine ⟨{ clear with
    entries := fun e listed => backed _ _ (clear.entries e listed)
    asked := fun other target listed => by
      simpa using clear.asked other target listed }, backed, fun other there stands idle => ?_, rfl⟩
  have differ : number ≠ other := by
    rintro rfl
    rw [found] at stands
    cases stands
    cases idle
  exact (Array.getElem?_setIfInBounds_ne differ).trans stands

/-- A load that is waited for gets on. -/
theorem movesOn {number turns : Nat} {outcome : Except Failure Database}
    (found : s.databases.loads[number]? = some ⟨turns + 1, outcome⟩) :
    Passes s asked gone { s with databases :=
      { s.databases with loads := s.databases.loads.setIfInBounds number ⟨turns, outcome⟩ } }
      asked := by
  refine clear.replaceLoad found fun key backed database ok => ?_
  obtain ⟨_, load, same, fine⟩ := backed
  rw [found] at same
  cases same
  exact fine database ok

theorem dispose (load : Nat) : Passes s asked gone (s.dispose load).2 asked := by
  unfold Service.dispose
  split
  · exact clear.movesOn ‹_›
  · exact ⟨{ clear with }, fun _ _ => id, fun _ _ found _ => found, rfl⟩

theorem invalidate (file : String) : Passes s asked gone (invalidateFile file s).2 asked := by
  have forgets : Passes s asked gone
      { s with documents := (s.documents.removeWhere (Service.isFrom file)).2 } asked :=
    clear.keeping fun _ listed => .inl (WeightedCache.mem_removeWhere.mp listed).1
  exact forgets

theorem erase (file : String) :
    Passes s asked gone { s with files := s.files.erase file } asked where
  clear := { clear with
    absent := fun other isGone => by
      rw [Files.find?_erase]
      split
      · rfl
      · exact clear.absent other isGone }
  backed _ _ := id
  finished _ _ found _ := found
  root := rfl

end Clear

/-! ### Other files -/

/-- A load has read a file. -/
def hasRead (s : Service) (file : String) (number : Nat) : Bool :=
  match s.databases.loads[number]? with
  | some ⟨_, .ok database⟩ => database.loaded.path == file
  | _ => false

theorem DecodedFrom.isFrom {root file key : String} (decoded : DecodedFrom root file key) :
    Service.isFrom file key := by
  obtain ⟨_, _, path, _, _, rfl⟩ := decoded
  exact isFrom_documentKey file path

variable {later : String → Prop}

/-- Other files may be gone if the load has read none of them. -/
theorem Backed.change {key : String} {number : Nat} (backed : s.Backed asked gone key number)
    (unread : ∀ file, later file → gone file ∨ s.hasRead file number = false) :
    s.Backed asked later key number := by
  obtain ⟨onlyKey, load, found, fine⟩ := backed
  refine ⟨onlyKey, load, found, fun database ok => ⟨(fine database ok).1, fun isGone => ?_⟩⟩
  rcases unread _ isGone with before | other
  · exact (fine database ok).2 before
  · obtain ⟨turns, outcome⟩ := load
    cases ok
    unfold hasRead at other
    rw [found] at other
    simp at other

theorem Holds.change (holds : s.Holds asked gone hand)
    (unread : ∀ file, later file → gone file ∨
      ∀ target number, (target, number) ∈ hand.loads → s.hasRead file number = false) :
    s.Holds asked later hand where
  loads target number told := (holds.loads target number told).change fun file isGone =>
    (unread file isGone).imp_right fun none => none target number told
  databases := holds.databases

theorem Clear.change (clear : s.Clear asked gone)
    (unread : ∀ file, later file → gone file ∨ s.files.find? file = none ∧
      (∀ e ∈ s.databases.entries.entries, s.hasRead file e.value = false) ∧
      ∀ entry ∈ s.documents.entries, Service.isFrom file entry.key = false) :
    s.Clear asked later where
  absent file isGone := (unread file isGone).elim (clear.absent file) (·.1)
  entries e listed := (clear.entries e listed).change fun file isGone =>
    (unread file isGone).imp_right fun none => none.2.1 e listed
  documents entry listed file isGone decoded := by
    rcases unread file isGone with before | ⟨_, _, none⟩
    · exact clear.documents entry listed file before decoded
    · have some := decoded.isFrom
      rw [none entry listed] at some
      cases some
  asked := clear.asked

/-! ### Loading -/

/-- What is loaded for a target was read from one of its files, which is not gone. -/
theorem Clear.fits (clear : s.Clear asked gone) {target : Target} {number : Nat}
    {database : Database} (opened : ((Loaded.first s.flags (s.basePath target) s.files).1.map
      fun loaded => (⟨number, target, loaded⟩ : Database)) = .ok database) :
    s.FiledUnder target.key database.loaded ∧ ¬ gone database.loaded.path := by
  obtain ⟨loaded, first, rfl⟩ := Success.map_eq_ok.mp opened
  rcases Loaded.firstOf_cases (s.basePath target) s.flags.enabled s.files with
    ⟨other, same, isFrom⟩ | none
  · obtain rfl : other = loaded := Except.ok.inj (same.symm.trans first)
    refine ⟨⟨other.kind, isFrom.path⟩, fun isGone => ?_⟩
    obtain ⟨f, stands, _⟩ := isFrom.stands
    rw [clear.absent _ isGone] at stands
    cases stands
  · cases none.symm.trans first

/-- A load for a target may be put in the cache. -/
theorem Clear.addLoad (clear : s.Clear asked gone) (target : Target) (load : Load Database)
    {entries : WeightedCache String Nat}
    (fits : ∀ database, load.outcome = .ok database →
      s.FiledUnder target.key database.loaded ∧ ¬ gone database.loaded.path)
    (listed : ∀ e ∈ entries.entries, e.key = target.key ∧ e.value = s.databases.loads.size ∨
      e ∈ s.databases.entries.entries) :
    let t : Service := { s with databases := ⟨entries, s.databases.loads.push load⟩ }
    Passes s asked gone t ((s.databases.loads.size, target) :: asked) ∧
      t.Backed ((s.databases.loads.size, target) :: asked) gone target.key
        s.databases.loads.size := by
  intro t
  have backed (key : String) (number : Nat) (backed : s.Backed asked gone key number) :
      t.Backed ((s.databases.loads.size, target) :: asked) gone key number := by
    obtain ⟨onlyKey, other, found, fine⟩ := backed
    refine ⟨fun another told => ?_, other, Registered.found_push found load, fine⟩
    rcases List.mem_cons.mp told with same | told
    · cases same
      exact absurd (Registered.lt_size found) (Nat.lt_irrefl _)
    · exact onlyKey another told
  have new : t.Backed ((s.databases.loads.size, target) :: asked) gone target.key
      s.databases.loads.size := by
    refine ⟨fun another told => ?_, load, by simp [t], fits⟩
    rcases List.mem_cons.mp told with same | told
    · cases same
      rfl
    · exact absurd (clear.asked _ _ told) (Nat.lt_irrefl _)
  refine ⟨⟨{ clear with entries := ?_, asked := ?_ }, backed,
    fun _ _ found _ => Registered.found_push found load, rfl⟩, new⟩
  · intro e member
    rcases listed e member with ⟨key, value⟩ | old
    · rw [key, value]
      exact new
    · exact backed e.key e.value (clear.entries e old)
  · intro number another told
    refine Nat.lt_of_lt_of_eq ?_ (Array.size_push load).symm
    rcases List.mem_cons.mp told with same | told
    · cases same
      exact Nat.lt_succ_self _
    · exact Nat.lt_succ_of_lt (clear.asked _ _ told)

/-- The load with a number, if it is under way, reads what is stored for a target only now. -/
def reload (number : Nat) (target : Target) (s : Service) : Service :=
  match s.databases.loads[number]? with
  | some ⟨turns + 1, _⟩ =>
    let (outcome, files) := Loaded.first s.flags (s.basePath target) s.files
    let load : Load Database := ⟨turns + 1, outcome.map fun loaded => ⟨number, target, loaded⟩⟩
    { s with
      files
      databases :=
        { s.databases with loads := s.databases.loads.setIfInBounds number load } }
  | _ => s

theorem reload_passes (clear : s.Clear asked gone) {number : Nat} {target : Target}
    (listed : (number, target) ∈ asked) : Passes s asked gone (reload number target s) asked := by
  unfold reload
  split
  · rename_i turns outcome found
    have reads := ReadOnly.firstOf (s.basePath target) s.flags.enabled s.files
    let load : Load Database := ⟨turns + 1, (Loaded.first s.flags (s.basePath target)
      s.files).1.map fun loaded => ⟨number, target, loaded⟩⟩
    have goes : Passes s asked gone { s with databases :=
        { s.databases with loads := s.databases.loads.setIfInBounds number load } } asked := by
      refine clear.replaceLoad found fun key backed database ok => ?_
      obtain rfl : target.key = key := backed.1 target listed
      exact clear.fits ok
    exact goes.trans (goes.clear.reading reads)
  · exact clear.refl

end Service

namespace Operation

open Service

/-- The load that an operation starts, with the target that it is for. -/
def asks {β : Type} : Operation β → Service → List (Nat × Target)
  | .insert target _, s =>
    if (s.databases.entries.peek? target.key).isNone then [(s.databases.loads.size, target)] else []
  | _, _ => []

variable {s : Service} {asked : List (Nat × Target)} {gone : String → Prop} {hand : Hand}
  {β : Type} {operation : Operation β}

theorem asks_known {target : Target} {e : Weighted String Nat}
    (found : s.databases.entries.find? target.key = some e) (weight : Nat) :
    (insert target weight).asks s = [] := by
  change (if (s.databases.entries.peek? target.key).isNone then _ else _) = _
  unfold WeightedCache.peek?
  rw [found]
  rfl

theorem asks_new {target : Target} (absent : s.databases.entries.find? target.key = none)
    (weight : Nat) : (insert target weight).asks s = [(s.databases.loads.size, target)] := by
  change (if (s.databases.entries.peek? target.key).isNone then _ else _) = _
  unfold WeightedCache.peek?
  rw [absent]
  rfl

/-- A load is started for a key unless there is one. -/
theorem insertLoad_passes (clear : s.Clear asked gone) (patience : Nat) (target : Target)
    (weight : Nat) :
    Passes s asked gone (insertLoad patience target weight s).2.2
        ((insert target weight).asks s ++ asked) ∧
      (insertLoad patience target weight s).2.2.Backed ((insert target weight).asks s ++ asked) gone
        target.key (insertLoad patience target weight s).1 := by
  have reads := ReadOnly.firstOf (s.basePath target) s.flags.enabled s.files
  change ReadOnly s.files (Loaded.first s.flags (s.basePath target) s.files).2 at reads
  have read := clear.reading reads
  have inserted := insertLoad_inserted patience target weight s
  generalize insertLoad patience target weight s = result at inserted
  cases inserted with
  | known found =>
      obtain ⟨listed, key⟩ := WeightedCache.mem_of_find? found
      rw [asks_known found]
      exact ⟨read, key ▸ clear.entries _ listed⟩
  | new absent =>
      have listed : ∀ e ∈ (s.databases.entries.insert target.key s.databases.loads.size
          weight).2.entries, e.key = target.key ∧ e.value = s.databases.loads.size ∨
            e ∈ s.databases.entries.entries := by
        intro e member
        rcases WeightedCache.mem_insert member with rfl | ⟨old, _⟩
        · exact .inl ⟨rfl, rfl⟩
        · exact .inr old
      obtain ⟨passes, new⟩ := read.clear.addLoad target
        ⟨patience, (Loaded.first s.flags (s.basePath target) s.files).1.map fun loaded =>
          ⟨s.databases.loads.size, target, loaded⟩⟩ (fun _ => clear.fits) listed
      rw [asks_new absent]
      exact ⟨read.trans passes, new⟩

theorem settleLoad_passes (clear : s.Clear asked gone) (target : Target) (number : Nat) :
    Passes s asked gone (settleLoad target number s).2 asked := by
  have settled := settleLoad_settled target number s
  generalize settleLoad target number s = result at settled
  cases settled with
  | unknown absent => exact clear.refl
  | busy found => exact clear.movesOn found
  | opened found => exact clear.refl
  | failed found fewer _ => exact clear.withEntries fewer

/-- Whoever gets a database from a load gets it from a finished one. -/
theorem settleLoad_ok {target : Target} {number : Nat} {database : Database}
    (handed : (settleLoad target number s).1 = some (.ok database)) :
    s.databases.loads[number]? = some ⟨0, .ok database⟩ := by
  have settled := settleLoad_settled target number s
  generalize settleLoad target number s = result at settled handed
  cases settled with
  | unknown absent => cases handed
  | busy found => cases handed
  | opened found =>
      cases handed
      exact found
  | failed found _ _ => cases handed

/-- An operation that keeps to what the call has in its hands reads nothing that is gone into
memory. -/
theorem run_passes (clear : s.Clear asked gone) (holds : s.Holds asked gone hand)
    (within : operation.Within hand) (patience : Nat) :
    Passes s asked gone (operation.run patience s).2.2 (operation.asks s ++ asked) := by
  cases operation with
  | hasData target => exact clear.refl
  | lookUp target => exact clear.withEntries fun e => WeightedCache.mem_of_mem_get
  | weigh target => exact clear.refl
  | insert target weight => exact (insertLoad_passes clear patience target weight).1
  | settle target number => exact settleLoad_passes clear target number
  | cached key => exact clear.keeping fun entry listed => .inl (WeightedCache.mem_of_mem_get listed)
  | read database =>
      exact keeps_source (P := fun t => Passes s asked gone t asked)
        (fun t files passes reads => passes.trans (passes.clear.reading reads)) database s
        clear.refl
  | keep key document =>
      refine clear.keeping fun entry listed => ?_
      rcases WeightedCache.mem_insert listed with rfl | ⟨old, _⟩
      · exact .inr fun file isGone => holds.keeps within isGone
      · exact .inl old
  | packages => exact keeps_packageIndex (P := fun t => Passes s asked gone t asked) s clear.refl
  | count change => exact ⟨{ clear with }, fun _ _ => id, fun _ _ found _ => found, rfl⟩

/-- What a call has in its hands behind an operation can stand. -/
theorem run_holds (clear : s.Clear asked gone) (holds : s.Holds asked gone hand)
    (within : operation.Within hand) {patience : Nat} {result : β}
    (run : (operation.run patience s).1 = some result) :
    (operation.run patience s).2.2.Holds (operation.asks s ++ asked) gone
      (operation.hands result hand) := by
  have passes := run_passes clear holds within patience
  have stays := holds.passes passes
  have told {target : Target} {number : Nat}
      (backed : (operation.run patience s).2.2.Backed (operation.asks s ++ asked) gone target.key
        number) :
      (operation.run patience s).2.2.Holds (operation.asks s ++ asked) gone
        { hand with loads := (target, number) :: hand.loads } := by
    refine ⟨fun other n listed => ?_, fun other database opened => ?_⟩
    · rcases List.mem_cons.mp listed with same | listed
      · cases same
        exact backed
      · exact stays.loads other n listed
    · obtain ⟨n, load, listed, rest⟩ := stays.databases other database opened
      exact ⟨n, load, List.mem_cons_of_mem _ listed, rest⟩
  cases operation with
  | lookUp target =>
      cases result with
      | none => exact stays
      | some number =>
          refine told (passes.backed _ _ ?_)
          have known : s.databases.entries.peek? target.key = some number := by
            rw [← WeightedCache.get_fst]
            exact Option.some.inj run
          obtain ⟨e, there, rfl⟩ := Option.map_eq_some_iff.mp known
          obtain ⟨listed, key⟩ := WeightedCache.mem_of_find? there
          exact key ▸ clear.entries e listed
  | insert target weight =>
      cases run
      exact told (insertLoad_passes clear patience target weight).2
  | settle target number =>
      cases result with
      | error failure => exact stays
      | ok database =>
          refine ⟨stays.loads, fun other opened listed => ?_⟩
          rcases List.mem_cons.mp listed with same | listed
          · cases same
            have found := settleLoad_ok run
            exact ⟨number, _, within, passes.finished number _ found rfl, rfl, rfl⟩
          · exact stays.databases other opened listed
  | _ => exact stays

end Operation

end CodeNav
