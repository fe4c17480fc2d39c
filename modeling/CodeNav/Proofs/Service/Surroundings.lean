/-
Module: CodeNav.Proofs.Service.Surroundings
Purpose: Calls in surroundings that may come to anything.
Main exports:
  Surroundings, Steps.amid, Steps.amid_bind, Steps.amid_orNothing, Steps.amid_alone,
  Steps.firstRows, Steps.amid_monikerDefinitions
-/
import CodeNav.Proofs.Service.Uncached
import CodeNav.Proofs.Service.Steps

namespace CodeNav

open Stateful

/-!
A call depends on what its operations come to.  A service with nobody in between is one possibility
(`Surroundings.alone`); with other calls in between, or with files that come and go, operations come
to something else.  Surroundings stand for all of this: they answer each operation with whatever
they like, and may take into account what they were asked before.
-/

/-- What goes on around a call: what each operation comes to, and the state that it leaves. -/
structure Surroundings (σ : Type) where
  comes : {β : Type} → Operation β → σ → β × σ

namespace Surroundings

/-- Nobody else does anything. -/
def alone : Surroundings Service where
  comes operation s :=
    match run : operation.alone s with
    | (.ok result, t) => (result, t)
    | (.error _, _) =>
      absurd (operation.alone_ok s) fun ⟨_, _, ok⟩ => nomatch run.symm.trans ok

theorem alone_comes {β : Type} {operation : Operation β} {s t : Service} {result : β}
    (run : operation.alone s = (.ok result, t)) : alone.comes operation s = (result, t) := by
  unfold alone
  dsimp only
  split
  · rename_i same
    cases run.symm.trans same
    rfl
  · rename_i failed
    cases run.symm.trans failed

/-- Nothing ever changes: all databases are open or cannot be opened, and the document that is asked
for is known. -/
def steady (document : Document) (packages : Except Failure PackageIndex)
    (opened : Target → Except Failure Database) : Surroundings Unit where
  comes operation s := (match operation with
    | .hasData target => (opened target).isOk
    | .lookUp _ => some 0
    | .weigh _ | .insert _ _ => 0
    | .settle target _ => opened target
    | .cached _ => some document
    | .read database => .ok database.loaded.source
    | .packages => packages
    | .keep _ _ | .count _ => (), s)

end Surroundings

namespace Steps

variable {σ α β : Type}

/-- A call in some surroundings. -/
def amid (w : Surroundings σ) : Steps α → ExceptT Failure (StateM σ) α
  | done outcome => fun s => (outcome, s)
  | step operation next => fun s =>
    let (result, t) := w.comes operation s
    amid w (next result) t

section

variable (w : Surroundings σ)

@[simp]
theorem amid_pure (a : α) : amid w (pure a) = pure a :=
  rfl

theorem amid_bind (c : Steps α) (f : α → Steps β) :
    amid w (c >>= f) = amid w c >>= fun a => amid w (f a) := by
  change amid w (c.bind f) = _
  funext s
  rw [bind_run]
  induction c generalizing s with
  | done outcome => cases outcome <;> rfl
  | step operation next ih => exact ih _ _

theorem amid_attempt (c : Steps α) (s : σ) :
    amid w c.attempt s = (.ok (amid w c s).1, (amid w c s).2) := by
  induction c generalizing s with
  | done outcome => rfl
  | step operation next ih => exact ih _ _

/-- What a computation finds, or nothing if it fails; either way the call goes on. -/
theorem amid_orNothing (c : Steps (List α)) (s : σ) :
    amid w (orNothing c) s =
      (.ok ((amid w c s).1.toOption.getD []), (amid w c s).2) := by
  rw [orNothing, amid_bind, bind_ok (amid_attempt w c s)]
  cases (amid w c s).1 <;> rfl

end

/-- Alone, a call takes its steps in a row. -/
theorem amid_alone (c : Steps α) : amid .alone c = inRow c := by
  funext s
  induction c generalizing s with
  | done outcome => cases outcome <;> rfl
  | step operation next ih =>
      obtain ⟨result, t, run⟩ := operation.alone_ok s
      change amid .alone (next (Surroundings.alone.comes operation s).1)
        (Surroundings.alone.comes operation s).2 =
          (operation.alone >>= fun result => inRow (next result)) s
      rw [Surroundings.alone_comes run, bind_ok run, ih]

end Steps

/-! ### Rows of the own dump -/

/-- The rows of the first of some monikers that has any in a dump. -/
def Source.firstRows (source : Source) (kind : RowKind) : List Moniker → List Location
  | [] => []
  | moniker :: others =>
    let found := source.locations kind moniker.scheme moniker.identifier
    if found.isEmpty then firstRows source kind others else found

theorem Uncached.monikerReferences_eq (source : Source) (monikers : List Moniker) :
    monikerReferences source monikers = source.firstRows .references monikers := by
  induction monikers with
  | nil => rfl
  | cons moniker others ih => rw [monikerReferences, Source.firstRows, ih]

namespace Steps

variable {σ : Type} (w : Surroundings σ)

theorem amid_source (database : Database) (s : σ) :
    amid w (source database) s = w.comes (.read database) s := by
  change amid w (only (.read database) >>= ofExcept) s = _
  rw [amid_bind]
  rfl

theorem amid_monikerLocations (database : Database) (kind : RowKind)
    (scheme identifier : String) (s : σ) :
    amid w (monikerLocations database kind scheme identifier) s =
      ((w.comes (.read database) s).1.map fun read => read.locations kind scheme identifier,
        (w.comes (.read database) s).2) := by
  rw [monikerLocations, amid_bind, bind_run, amid_source]
  rcases w.comes (.read database) s with ⟨_ | _, _⟩ <;> rfl

/-- The rows of the first of some monikers that has any. -/
def firstRows (database : Database) (kind : RowKind) : List Moniker → Steps (List Location)
  | [] => return []
  | moniker :: others => do
    let found ← monikerLocations database kind moniker.scheme moniker.identifier
    if found.isEmpty then firstRows database kind others else return found

theorem monikerReferences_eq (database : Database) (monikers : List Moniker) :
    monikerReferences database monikers = firstRows database .references monikers := by
  induction monikers with
  | nil => rfl
  | cons moniker others ih => rw [monikerReferences, firstRows, ih]

section

variable {w : Surroundings σ} {database : Database} {source : Source}

/-- If whatever is read of a database is a dump, the rows found are those of the dump. -/
theorem eq_firstRows {kind : RowKind} {monikers : List Moniker} {s t : σ} {found : List Location}
    (same : ∀ u read, (w.comes (.read database) u).1 = .ok read → read = source)
    (run : amid w (firstRows database kind monikers) s = (.ok found, t)) :
    found = source.firstRows kind monikers := by
  induction monikers generalizing s with
  | nil =>
      cases run
      rfl
  | cons moniker others ih =>
      rw [firstRows, amid_bind] at run
      obtain ⟨rows, u, first, rest⟩ := bind_eq_ok.mp run
      rw [amid_monikerLocations] at first
      cases outcome : (w.comes (.read database) s).1 with
      | error failure =>
          rw [outcome] at first
          cases first
      | ok read =>
          obtain rfl := same s read outcome
          rw [outcome] at first
          cases first
          rw [Source.firstRows]
          by_cases none : (read.locations kind moniker.scheme moniker.identifier).isEmpty
          · simp only [none, if_true] at rest ⊢
            exact ih rest
          · simp only [none, Bool.false_eq_true, if_false] at rest ⊢
            cases rest
            rfl

/-- As long as a database can be read, its rows are found. -/
theorem firstRows_ok {P : σ → Prop}
    (reads : ∀ u, P u → (w.comes (.read database) u).1 = .ok source ∧
      P (w.comes (.read database) u).2)
    (kind : RowKind) (monikers : List Moniker) {s : σ} (holds : P s) :
    (amid w (firstRows database kind monikers) s).1 = .ok (source.firstRows kind monikers) := by
  induction monikers generalizing s with
  | nil => rfl
  | cons moniker others ih =>
      obtain ⟨read, again⟩ := reads s holds
      rw [firstRows, amid_bind, bind_run, amid_monikerLocations, read, Source.firstRows]
      simp only [Except.map]
      by_cases none : (source.locations kind moniker.scheme moniker.identifier).isEmpty
      · simp only [none, if_true]
        exact ih again
      · simp only [none, Bool.false_eq_true, if_false]
        rfl

end

end Steps

/-! ### Definitions -/

/-- What the provider of a moniker's package is found to define, or nothing if that cannot be found
out. -/
def Surroundings.provided {σ : Type} (w : Surroundings σ) (document : Document) (moniker : Moniker)
    (s : σ) : Option Location :=
  (Query.packageKey? document moniker).bind fun package =>
    ((Steps.amid w (Steps.providedDefinitions package moniker) s).1.toOption.getD []).head?

namespace Steps

variable {σ : Type} (w : Surroundings σ)

/-- Looking for a definition in another repository never fails. -/
theorem amid_remoteDefinition (document : Document) (moniker : Moniker) (s : σ) :
    (amid w (remoteDefinition document moniker) s).1 = .ok (w.provided document moniker s) := by
  unfold remoteDefinition Surroundings.provided
  cases Query.packageKey? document moniker with
  | none => rfl
  | some package =>
      dsimp only
      rw [amid_bind, bind_ok (amid_orNothing w _ s)]
      rfl

/-- Definitions by moniker are the rows of a moniker before the first imported one, or else what the
imported one leads to. -/
theorem amid_monikerDefinitions (database : Database) (document : Document)
    (monikers : List Moniker) :
    amid w (monikerDefinitions database document monikers) = do
      let found ← amid w
        (firstRows database .definitions (monikers.takeWhile (·.kind ≠ .imported)))
      if found.isEmpty then
        match monikers.find? (·.kind = .imported) with
        | none => return none
        | some moniker => return (← amid w (remoteDefinition document moniker)).map .one
      else return some (.many found) := by
  induction monikers with
  | nil => rfl
  | cons moniker others ih =>
      by_cases imported : moniker.kind = .imported
      · rw [monikerDefinitions, if_pos imported, amid_bind]
        simp only [imported, ne_eq, not_true_eq_false, decide_false, Bool.false_eq_true,
          not_false_eq_true, List.takeWhile_cons_of_neg, decide_true, List.find?_cons_of_pos]
        rfl
      · rw [monikerDefinitions, if_neg imported, amid_bind]
        simp only [imported, ne_eq, not_false_eq_true, decide_true, List.takeWhile_cons_of_pos,
          decide_false, Bool.false_eq_true, List.find?_cons_of_neg, firstRows, amid_bind,
          bind_assoc]
        congr 1
        funext found
        by_cases none : found.isEmpty
        · simp only [none, if_true]
          exact ih
        · simp only [none, Bool.false_eq_true, if_false, amid_pure, pure_bind]

variable {w} {database : Database} {path : String} {s t : σ} {document : Document}

theorem amid_definitions [Gzip.Compressor]
    (blob : amid w (readDocument database path) s = (.ok document, t)) (position : Position) :
    amid w (definitions database path position) s =
      match document.findRange? position with
      | none => (.ok none, t)
      | some entry =>
        match document.definition? entry.node with
        | some result => (.ok (some (.many (document.locations path result.values))), t)
        | none =>
          amid w (monikerDefinitions database document (document.findMonikers entry.node)) t := by
  rw [definitions, amid_bind, bind_ok blob]
  cases document.findRange? position with
  | none => rfl
  | some entry =>
      dsimp only
      cases document.definition? entry.node <;> rfl

/-- Only a failure in the own dump keeps definitions by moniker from being looked for. -/
theorem amid_monikerDefinitions_ok {monikers : List Moniker} {found : List Location}
    (rows : (amid w (firstRows database .definitions
      (monikers.takeWhile (·.kind ≠ .imported))) s).1 = .ok found) :
    ∃ result, (amid w (monikerDefinitions database document monikers) s).1 = .ok result := by
  rw [amid_monikerDefinitions, bind_fst rows]
  by_cases none : found.isEmpty
  · simp only [none, if_true]
    cases monikers.find? (·.kind = .imported) with
    | none => exact ⟨_, rfl⟩
    | some moniker =>
        dsimp only
        rw [bind_fst (amid_remoteDefinition w document moniker _)]
        exact ⟨_, rfl⟩
  · simp only [none, Bool.false_eq_true, if_false]
    exact ⟨_, rfl⟩

end Steps

end CodeNav
