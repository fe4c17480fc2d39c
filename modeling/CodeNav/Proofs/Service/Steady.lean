/-
Module: CodeNav.Proofs.Service.Steady
Purpose: What a call comes to when other calls take turns between its steps.
Main exports:
  Service.Steady, Service.Later, Steps.Leads, Steps.interleaved
-/
import CodeNav.Proofs.Service.Outcomes

namespace CodeNav

open Stateful

/-! ### Services that calls take turns on -/

namespace Service

/-- The database that a load opens for a target. -/
def opening (u : Service) (target : Target) (number : Nat) : Except Failure Database :=
  (Loaded.first u.flags (u.basePath target) u.files).1.map fun loaded => ⟨number, target, loaded⟩

/-- A load opens what is stored under a key. -/
def IsLoad (u s : Service) (key : String) (number : Nat) : Prop :=
  ∃ target load, target.key = key ∧ s.databases.loads[number]? = some load ∧
    load.outcome = u.opening target number

variable [Gzip.Compressor]

/-- Look-ups have left everything as it was stored; what they keep in memory was read from that. A
database in use may have left the cache, and may be closed. -/
structure Steady (u s : Service) : Prop where
  root : s.root = u.root
  flags : s.flags = u.flags
  files : s.files.Alike u.files
  index : s.index = u.index
  entries : ∀ e ∈ s.databases.entries.entries, u.IsLoad s e.key e.value
  documents : ∀ entry ∈ s.documents.entries, MayKeep u.root u.files entry.key entry.value

/-- Between two states, calls have taken turns. -/
structure Later (u s t : Service) : Prop where
  steady : u.Steady t
  loads : ∀ key number, u.IsLoad s key number → u.IsLoad t key number

variable {u s t v : Service}

theorem Later.trans (first : u.Later s t) (second : u.Later t v) : u.Later s v :=
  ⟨second.steady, fun key number isLoad => second.loads key number (first.loads key number isLoad)⟩

/-- At the start nothing is in memory. -/
theorem steady_start (root : String) (flags : EncodingFlags) (limits : Limits) (files : Files)
    (index : IndexState) (converter : Converter) (sizes : Sizes) :
    (start root flags limits files index converter sizes).Steady
      (start root flags limits files index converter sizes) where
  root := rfl
  flags := rfl
  files := .refl files
  index := rfl
  entries e listed := by cases listed
  documents entry listed := by cases listed

namespace Steady

variable (steady : u.Steady s)
include steady

theorem later_refl : u.Later s s :=
  ⟨steady, fun _ _ => id⟩

theorem basePath (target : Target) : s.basePath target = u.basePath target :=
  congrArg (Files.join · target.key) steady.root

theorem opens (target : Target) (number : Nat) :
    (Loaded.first s.flags (s.basePath target) s.files).1.map
      (fun loaded => (⟨number, target, loaded⟩ : Database)) = u.opening target number := by
  unfold opening
  rw [steady.flags, steady.basePath, first_alike steady.files]

theorem reading {files : Files} (reads : ReadOnly s.files files) :
    u.Steady { s with files } where
  root := steady.root
  flags := steady.flags
  files := reads.alike.trans steady.files
  index := steady.index
  entries := steady.entries
  documents := steady.documents

theorem keeping {documents : WeightedCache String Document}
    (mayKeep : ∀ entry ∈ documents.entries, entry ∈ s.documents.entries ∨
      MayKeep u.root u.files entry.key entry.value) :
    u.Later s { s with documents } where
  steady := { steady with
    documents := fun entry listed => (mayKeep entry listed).elim (steady.documents entry) id }
  loads _ _ := id

theorem withEntries {entries : WeightedCache String Nat}
    (fewer : ∀ e ∈ entries.entries, e ∈ s.databases.entries.entries) :
    u.Later s { s with databases := { s.databases with entries } } where
  steady := { steady with entries := fun e listed => steady.entries e (fewer e listed) }
  loads _ _ := id

end Steady

end Service

namespace Operation

open Service

variable {u s after : Service} {β : Type} {patience : Nat} {pushedOut : List Nat}

/-- Whether an operation reads from a database that is closed. -/
def meetsClosed : Operation β → Service → Bool
  | .read database, s => s.closed.contains database.handle
  | _, _ => false

/-- A finished load comes to what is stored, as for every caller. -/
theorem settleLoad_fst {target : Target} {number : Nat} {outcome : Except Failure Database}
    (isLoad : u.IsLoad s target.key number)
    (settled : (settleLoad target number s).1 = some outcome) :
    ∃ other, other.key = target.key ∧ outcome = (u.opening other number).mapError .shared := by
  obtain ⟨other, load, same, there, is⟩ := isLoad
  refine ⟨other, same, ?_⟩
  rw [← is]
  have comes := settleLoad_settled target number s
  generalize settleLoad target number s = result at comes settled
  cases comes with
  | unknown absent => cases settled
  | busy found => cases settled
  | opened found =>
      cases settled
      cases found.symm.trans there
      rfl
  | failed found fewer evictions =>
      cases settled
      cases found.symm.trans there
      rfl

variable [Gzip.Compressor]

/-- An operation keeps no document under a key that names a file with other contents, and waits for
no load that was never started. -/
def Sane (u s : Service) : Operation β → Prop
  | .keep key document => MayKeep u.root u.files key document
  | .settle target number => u.IsLoad s target.key number
  | _ => True

theorem Sane.later {t : Service} {operation : Operation β} (sane : operation.Sane u s)
    (later : u.Later s t) : operation.Sane u t := by
  cases operation with
  | keep key document => exact sane
  | settle target number => exact later.loads _ _ sane
  | _ => trivial

/-- A load is started for a key unless there is one. -/
theorem insertLoad_later (steady : u.Steady s) (patience : Nat) (target : Target) (weight : Nat) :
    u.Later s (insertLoad patience target weight s).2.2 ∧
      u.IsLoad (insertLoad patience target weight s).2.2 target.key
        (insertLoad patience target weight s).1 := by
  have reads := ReadOnly.firstOf (s.basePath target) s.flags.enabled s.files
  have read := steady.reading reads
  have inserted := insertLoad_inserted patience target weight s
  generalize insertLoad patience target weight s = result at inserted
  cases inserted with
  | known found =>
      obtain ⟨listed, key⟩ := WeightedCache.mem_of_find? found
      exact ⟨⟨read, fun _ _ => id⟩, key ▸ steady.entries _ listed⟩
  | new absent =>
      let load : Load Database := ⟨patience, (Loaded.first s.flags (s.basePath target)
        s.files).1.map fun loaded => ⟨s.databases.loads.size, target, loaded⟩⟩
      have keeps (key : String) (number : Nat) (isLoad : u.IsLoad s key number) :
          ∃ target other, target.key = key ∧ (s.databases.loads.push load)[number]? = some other ∧
            other.outcome = u.opening target number := by
        obtain ⟨other, there, same, found, is⟩ := isLoad
        exact ⟨other, there, same, Registered.found_push found load, is⟩
      have new : ∃ other there, other.key = target.key ∧
          (s.databases.loads.push load)[s.databases.loads.size]? = some there ∧
            there.outcome = u.opening other s.databases.loads.size :=
        ⟨target, load, rfl, by simp, steady.opens target _⟩
      refine ⟨⟨{ read with entries := fun e listed => ?_ }, keeps⟩, new⟩
      rcases WeightedCache.mem_insert listed with rfl | ⟨old, _⟩
      · exact new
      · exact keeps e.key e.value (steady.entries e old)

/-- Loads get on. -/
theorem movesOn (steady : u.Steady s) {number turns : Nat} {outcome : Except Failure Database}
    (found : s.databases.loads[number]? = some ⟨turns + 1, outcome⟩) :
    u.Later s { s with databases :=
      { s.databases with loads := s.databases.loads.setIfInBounds number ⟨turns, outcome⟩ } } := by
  have keeps (key : String) (n : Nat) (isLoad : u.IsLoad s key n) :
      ∃ target load, target.key = key ∧
        (s.databases.loads.setIfInBounds number ⟨turns, outcome⟩)[n]? = some load ∧
        load.outcome = u.opening target n := by
    obtain ⟨other, load, same, there, is⟩ := isLoad
    by_cases this : number = n
    · subst this
      rw [found] at there
      cases there
      refine ⟨other, ⟨turns, outcome⟩, same, ?_, is⟩
      rw [Array.getElem?_setIfInBounds_self_of_lt (Registered.lt_size found)]
    · exact ⟨other, load, same, by rw [Array.getElem?_setIfInBounds_ne this, there], is⟩
  exact ⟨{ steady with
    entries := fun e listed => keeps e.key e.value (steady.entries e listed) }, keeps⟩

/-- Loads that are waited for get on, and failed ones leave the cache. -/
theorem settleLoad_later (steady : u.Steady s) (target : Target) (number : Nat) :
    u.Later s (settleLoad target number s).2 := by
  have settled := settleLoad_settled target number s
  generalize settleLoad target number s = result at settled
  cases settled with
  | unknown absent => exact steady.later_refl
  | busy found => exact movesOn steady found
  | opened found => exact steady.later_refl
  | failed found fewer _ => exact steady.withEntries fewer

/-- Behind an operation everything is as it was stored. -/
theorem run_later (steady : u.Steady s) {operation : Operation β} (sane : operation.Sane u s)
    (patience : Nat) : u.Later s (operation.run patience s).2.2 := by
  cases operation with
  | hasData target => exact steady.later_refl
  | lookUp target => exact steady.withEntries fun e => WeightedCache.mem_of_mem_get
  | weigh target => exact steady.later_refl
  | insert target weight => exact (insertLoad_later steady patience target weight).1
  | settle target number => exact settleLoad_later steady target number
  | cached key => exact steady.keeping fun entry listed => .inl (WeightedCache.mem_of_mem_get listed)
  | read database =>
      exact keeps_source
        (fun t files later reads => ⟨later.steady.reading reads, later.loads⟩) database s
        steady.later_refl
  | keep key document =>
      refine steady.keeping fun entry listed => ?_
      rcases WeightedCache.mem_insert listed with rfl | ⟨old, _⟩
      · exact .inr sane
      · exact .inl old
  | packages => exact keeps_packageIndex s steady.later_refl
  | count change => exact ⟨{ steady with }, fun _ _ => id⟩

end Operation

namespace Steps

open Service

variable [Gzip.Compressor] {u s t : Service} {α β : Type}

/-- Whatever turns others take in between, steps come to an outcome with a property once they are
done. The property may depend on whether a database was closed that they read from. -/
def Leads (u : Service) (P : Bool → Except Failure α → Service → Prop) :
    Steps α → Bool → Service → Prop
  | done outcome, disturbed, s => P disturbed outcome s
  | step operation next, disturbed, s =>
    operation.Sane u s ∧ ∀ t, u.Later s t → ∀ patience result pushedOut after,
      operation.run patience t = (some result, pushedOut, after) →
        Leads u P (next result) (disturbed || operation.meetsClosed t) after

namespace Leads

variable {P : Bool → Except Failure α → Service → Prop}

theorem later {c : Steps α} {disturbed : Bool} (leads : Leads u P c disturbed s)
    (later : u.Later s t) (stable : ∀ disturbed outcome, P disturbed outcome s →
      P disturbed outcome t) : Leads u P c disturbed t := by
  cases c with
  | done outcome => exact stable disturbed outcome leads
  | step operation next =>
      exact ⟨leads.1.later later, fun v more => leads.2 v (later.trans more)⟩

/-- Steps go on from what the first of them come to. -/
theorem bind {Q : Bool → Except Failure β → Service → Prop} {c : Steps α} {f : α → Steps β}
    {disturbed : Bool} (leads : Leads u P c disturbed s)
    (fails : ∀ disturbed failure s, P disturbed (.error failure) s →
      Q disturbed (.error failure) s)
    (rest : ∀ disturbed a s, P disturbed (.ok a) s → Leads u Q (f a) disturbed s) :
    Leads u Q (c >>= f) disturbed s := by
  change Leads u Q (c.bind f) disturbed s
  induction c generalizing disturbed s with
  | done outcome =>
      cases outcome with
      | ok a => exact rest disturbed a s leads
      | error failure => exact fails disturbed failure s leads
  | step operation next ih =>
      exact ⟨leads.1, fun t later patience result pushedOut after run =>
        ih result (leads.2 t later patience result pushedOut after run)⟩

theorem attempt {Q : Bool → Except Failure (Except Failure α) → Service → Prop} {c : Steps α}
    {disturbed : Bool} (leads : Leads u P c disturbed s)
    (handed : ∀ disturbed outcome s, P disturbed outcome s → Q disturbed (.ok outcome) s) :
    Leads u Q c.attempt disturbed s := by
  induction c generalizing disturbed s with
  | done outcome => exact handed disturbed outcome s leads
  | step operation next ih =>
      exact ⟨leads.1, fun t later patience result pushedOut after run =>
        ih result (leads.2 t later patience result pushedOut after run)⟩

/-- Steps that have been disturbed stay so. -/
theorem mono {Q : Bool → Except Failure α → Service → Prop} {c : Steps α} {disturbed : Bool}
    (leads : Leads u P c disturbed s)
    (weaker : ∀ more outcome s, (disturbed = true → more = true) → P more outcome s →
      Q more outcome s) :
    Leads u Q c disturbed s := by
  induction c generalizing disturbed s with
  | done outcome => exact weaker disturbed outcome s id leads
  | step operation next ih =>
      refine ⟨leads.1, fun t later patience result pushedOut after run =>
        ih result (leads.2 t later patience result pushedOut after run)
          fun more outcome s stays => weaker more outcome s fun before => stays ?_⟩
      rw [before, Bool.true_or]

theorem only {operation : Operation α} {disturbed : Bool} (sane : operation.Sane u s)
    (runs : ∀ t patience result, u.Later s t → (operation.run patience t).1 = some result →
      P (disturbed || operation.meetsClosed t) (.ok result) (operation.run patience t).2.2) :
    Leads u P (Steps.only operation) disturbed s := by
  refine ⟨sane, fun t later patience result pushedOut after run => ?_⟩
  have holds := runs t patience result later (by rw [run])
  rw [run] at holds
  exact holds

end Leads

/-! ### Opening -/

/-- What opening a target comes to while others take turns. -/
def Opens (u : Service) (target : Target) (outcome : Except Failure Database) : Prop :=
  (∃ database, outcome = .ok database ∧
      (Loaded.first u.flags (u.basePath target) u.files).1 = .ok database.loaded) ∨
    ∃ failure, outcome = .error (.shared failure) ∧
      (Loaded.first u.flags (u.basePath target) u.files).1 = .error failure

theorem leads_settle {target : Target} {number : Nat} {disturbed : Bool}
    (isLoad : u.IsLoad s target.key number) :
    Leads u (fun _ outcome _ => Opens u target outcome) (settle target number) disturbed s := by
  refine Leads.bind (P := fun _ outcome _ => ∃ result, outcome = .ok result ∧ Opens u target result)
    (Leads.only isLoad ?_) ?_ ?_
  · intro t patience result later settled
    obtain ⟨other, same, rfl⟩ := Operation.settleLoad_fst (later.loads _ _ isLoad) settled
    refine ⟨_, rfl, ?_⟩
    have paths : u.basePath other = u.basePath target := by
      unfold Service.basePath
      rw [same]
    unfold Service.opening Opens
    rw [paths]
    cases (Loaded.first u.flags (u.basePath target) u.files).1 with
    | ok loaded => exact .inl ⟨_, rfl, rfl⟩
    | error failure => exact .inr ⟨failure, rfl, rfl⟩
  · rintro _ failure _ ⟨_, impossible, _⟩
    cases impossible
  · rintro _ result _ ⟨_, same, opens⟩
    cases same
    exact opens

theorem leads_openDatabase (target : Target) (disturbed : Bool) :
    Leads u (fun _ outcome _ => Opens u target outcome) (openDatabase target) disturbed s := by
  refine Leads.bind (P := fun _ outcome s => ∃ found, outcome = .ok found ∧
    ∀ number ∈ found, u.IsLoad s target.key number) (Leads.only trivial ?_) ?_ ?_
  · rintro t patience found later looked
    cases looked
    refine ⟨_, rfl, fun number known => ?_⟩
    have known : t.databases.entries.peek? target.key = some number := by
      rw [← WeightedCache.get_fst]
      exact known
    obtain ⟨e, there, rfl⟩ := Option.map_eq_some_iff.mp known
    obtain ⟨listed, key⟩ := WeightedCache.mem_of_find? there
    exact key ▸ later.steady.entries e listed
  · rintro _ failure _ ⟨_, impossible, _⟩
    cases impossible
  · rintro disturbed found s ⟨_, same, isLoad⟩
    cases same
    cases found with
    | some number => exact leads_settle (isLoad number rfl)
    | none =>
        refine Leads.bind (P := fun _ outcome _ => ∃ weight, outcome = .ok weight)
          (Leads.only trivial fun _ _ weight _ _ => ⟨weight, rfl⟩) ?_ ?_
        · rintro _ failure _ ⟨_, impossible⟩
          cases impossible
        · rintro disturbed weight s _
          refine Leads.bind (P := fun _ outcome s => ∃ number, outcome = .ok number ∧
            u.IsLoad s target.key number) (Leads.only trivial ?_) ?_ ?_
          · rintro t patience number later inserted
            cases inserted
            exact ⟨_, rfl, (Operation.insertLoad_later later.steady patience target weight).2⟩
          · rintro _ failure _ ⟨_, impossible, _⟩
            cases impossible
          · rintro disturbed number s ⟨_, same, isLoad⟩
            cases same
            exact leads_settle isLoad

/-! ### Reading -/

variable {target : Target} {database : Database}

/-- What is read from a database that was opened for a target is what is stored, unless the
database is closed. -/
theorem leads_source (disturbed : Bool)
    (first : (Loaded.first u.flags (u.basePath target) u.files).1 = .ok database.loaded) :
    Leads u (fun disturbed outcome _ => outcome = .ok database.loaded.source ∨
      disturbed ∧ ∃ failure, outcome = .error failure) (source database) disturbed s := by
  refine Leads.bind (P := fun disturbed outcome _ => ∃ result, outcome = .ok result ∧
    (result = .ok database.loaded.source ∨ disturbed ∧ ∃ failure, result = .error failure))
    (Leads.only trivial ?_) ?_ ?_
  · rintro t patience result later read
    cases read
    refine ⟨_, rfl, ?_⟩
    by_cases closed : database.handle ∈ t.closed
    · right
      have refused : Service.source database t = (.error database.loaded.source.closedFailure, t) := by
        unfold Service.source
        rw [bind_ok (get_run t), if_pos (by simpa using closed)]
        rfl
      refine ⟨?_, _, congrArg Prod.fst refused⟩
      simp [Operation.meetsClosed, closed]
    · left
      obtain ⟨files, read, _⟩ :=
        source_run closed ((isFrom_of_first first).alike later.steady.files.symm)
      exact congrArg Prod.fst read
  · rintro _ failure _ ⟨_, impossible, _⟩
    cases impossible
  · rintro disturbed result s ⟨_, same, reads⟩
    cases same
    exact reads

/-- A document is what the stored dump answers, unless the database is closed. -/
theorem leads_readDocument (commit : Target.isCommit target.commit) (path : String)
    (disturbed : Bool)
    (first : (Loaded.first u.flags (u.basePath target) u.files).1 = .ok database.loaded) :
    Leads u (fun disturbed outcome _ => disturbed = false →
      outcome = database.loaded.source.answer path) (readDocument database path) disturbed s := by
  have isFrom := isFrom_of_first first
  refine Leads.bind (P := fun _ outcome _ => ∃ found, outcome = .ok found ∧
    ∀ document ∈ found, database.loaded.source.answer path = .ok document) (Leads.only trivial ?_) ?_
    ?_
  · rintro t patience found later recalled
    cases recalled
    refine ⟨_, rfl, fun document cached => ?_⟩
    obtain ⟨entry, there, rfl⟩ := Option.map_eq_some_iff.mp cached
    obtain ⟨listed, key⟩ := WeightedCache.mem_of_find? there
    exact isFrom.answer_of_mayKeep commit (key ▸ later.steady.documents entry listed)
  · rintro _ failure _ ⟨_, impossible, _⟩
    cases impossible
  · rintro disturbed found s ⟨_, same, answers⟩
    cases same
    cases found with
    | some document => exact fun _ => (answers document rfl).symm
    | none =>
        refine Leads.bind (leads_source disturbed first) ?_ ?_
        · rintro disturbed failure _ (impossible | ⟨closed, _⟩) undisturbed
          · cases impossible
          · rw [undisturbed] at closed
            cases closed
        · rintro disturbed source s (same | ⟨_, _, impossible⟩)
          · cases same
            cases fetched : database.loaded.source.document path with
            | error failure =>
                have answer : database.loaded.source.answer path = .error failure := by
                  unfold Source.answer
                  rw [fetched]
                  rfl
                exact fun _ => answer.symm
            | ok octets =>
                have answer : database.loaded.source.answer path = Document.decode octets := by
                  unfold Source.answer
                  rw [fetched]
                  rfl
                rw [answer]
                change Leads u _ (ofExcept (Document.decode octets) >>= fun document => do
                  Steps.only (.keep (documentKey database.loaded.path path) document)
                  return document) disturbed s
                cases decoded : Document.decode octets with
                | error failure => exact fun _ => rfl
                | ok document =>
                    rw [decoded] at answer
                    have mayKeep := isFrom.mayKeep_of_answer commit answer
                    exact ⟨mayKeep, fun _ _ _ _ _ _ _ _ => rfl⟩
          · cases impossible

/-! ### Calls that take turns -/

/-- Steps come to their result unless they read from a closed database. -/
def interleaved (u : Service) : Rules u Service where
  Comes P c result Q := ∀ s, P s → ∀ disturbed, Leads u (fun disturbed outcome t =>
    (disturbed = false → outcome = result) ∧ Q t) c disturbed s
  Idle _ := True
  Uses target database _ :=
    (Loaded.first u.flags (u.basePath target) u.files).1 = .ok database.loaded
  idle _ := trivial
  done result := fun s holds _ => ⟨fun _ => rfl, holds⟩
  weaken comes stronger weaker := fun s holds disturbed =>
    (comes s (stronger s holds) disturbed).mono fun _ _ t _ holds => ⟨holds.1, weaker t holds.2⟩
  bind {α β P Q R c f result g} comes weaker rest := by
    intro s holds disturbed
    refine (comes s holds disturbed).bind ?_ ?_
    · rintro disturbed failure t ⟨same, after⟩
      refine ⟨fun undisturbed => ?_, weaker t after⟩
      rw [← same undisturbed]
      rfl
    · rintro disturbed a t ⟨same, after⟩
      refine (rest a t after disturbed).mono fun more outcome v stays holds => ?_
      refine ⟨fun undisturbed => ?_, holds.2⟩
      have calm : disturbed = false := by
        cases disturbed with
        | false => rfl
        | true => rw [stays rfl] at undisturbed; cases undisturbed
      rw [← same calm]
      exact holds.1 undisturbed
  attempt comes := fun s holds disturbed =>
    (comes s holds disturbed).attempt fun _ _ _ holds =>
      ⟨fun undisturbed => congrArg Except.ok (holds.1 undisturbed), holds.2⟩
  hasData target := fun s _ disturbed => by
    refine Leads.only trivial fun t patience result later asked => ⟨fun _ => ?_, trivial⟩
    cases asked
    unfold Service.hasData
    rw [later.steady.flags, later.steady.basePath, later.steady.files.hasData]
  opening target f g stored absent := by
    intro s _ disturbed
    refine ((leads_openDatabase target disturbed).attempt
      (Q := fun _ outcome _ => ∃ opened, outcome = .ok opened ∧ Opens u target opened)
      fun _ opened _ opens => ⟨opened, rfl, opens⟩).bind ?_ ?_
    · rintro _ failure _ ⟨_, impossible, _⟩
      cases impossible
    · rintro disturbed outcome t ⟨_, same, opens⟩
      cases same
      unfold Uncached.opened
      rcases opens with ⟨database, rfl, first⟩ | ⟨failure, rfl, first⟩
      · rw [first]
        exact stored database t first disturbed
      · rw [first]
        exact absent _ t trivial disturbed
  source target database := fun s first disturbed => by
    refine (leads_source disturbed first).mono fun more outcome t _ reads => ⟨fun calm => ?_, first⟩
    rcases reads with same | ⟨closed, _⟩
    · exact same
    · rw [calm] at closed
      cases closed
  readDocument target database path commit := fun s first disturbed =>
    (leads_readDocument commit path disturbed first).mono fun _ _ _ _ answers => ⟨answers, first⟩
  packageIndex := by
    intro s _ disturbed
    refine Leads.bind (P := fun _ outcome _ => ∃ result, outcome = .ok result ∧
      result = match u.index with
        | .available index => .ok index
        | .broken failure => .error failure) (Leads.only trivial ?_) ?_ ?_
    · rintro t patience result later asked
      cases asked
      refine ⟨_, rfl, ?_⟩
      rw [later.steady.index]
      cases u.index <;> rfl
    · rintro _ failure _ ⟨_, impossible, _⟩
      cases impossible
    · rintro _ result _ ⟨_, same, index⟩
      cases same
      exact ⟨fun _ => index, trivial⟩
  count change := fun s _ disturbed =>
    Leads.only trivial fun _ _ _ _ _ => ⟨fun _ => rfl, trivial⟩

end Steps

end CodeNav
