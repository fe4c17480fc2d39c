/-
Module: CodeNav.Proofs.Service.Sweep
Purpose: An enforcement of the quota in the steps that it is made of.
Main exports:
  Quota.Sweep, Quota.Sweep.step, Quota.Sweep.step_stepped, Quota.Sweep.rest_step,
  Quota.Sweep.enforce_in_steps
-/
import CodeNav.Proofs.Service.Housekeeping
import CodeNav.Proofs.Service.Interleaving

namespace CodeNav.Quota

open Stateful

/-! ### Enforcement in steps -/

/-- How far an enforcement has come. -/
inductive Sweep.Stage where
  | begun
  /-- The next file is to be chosen. -/
  | choosing
  /-- The database of the file's target has left the cache, and its load is to be disposed of. -/
  | closing (file : StoredFile) (load : Nat)
  | evicted (file : StoredFile)
  | invalidated (file : StoredFile)
  | returned
deriving Repr, DecidableEq

/-- An enforcement: what is still stored, the files that are left to look at, and those that were
deleted. -/
structure Sweep where
  most : Nat
  total : Nat
  left : List StoredFile
  deleted : List String
  stage : Sweep.Stage
deriving Repr, DecidableEq

namespace Sweep

/-- An enforcement that has not looked at anything. -/
def start (most : Nat) : Sweep :=
  ⟨most, 0, [], [], .begun⟩

/-- Goes on to the next file. -/
def resume (sweep : Sweep) : Sweep :=
  { sweep with stage := .choosing }

/-- Goes on to the next file behind the deletion of one. -/
def without (sweep : Sweep) (file : StoredFile) : Sweep :=
  { sweep with
    total := sweep.total - file.size
    deleted := sweep.deleted ++ [file.path]
    stage := .choosing }

/-- Takes the database of a file's target out of the cache, and leaves it to be disposed of. -/
def evict (sweep : Sweep) (file : StoredFile) (s : Service) : Sweep × Service :=
  match s.databases.entries.remove file.key with
  | (none, _) => ({ sweep with stage := .evicted file }, s)
  | (some load, entries) =>
    ({ sweep with stage := .closing file load },
      { s with databases := { s.databases with entries } })

/-- One step of an enforcement. -/
def step (sweep : Sweep) (s : Service) : Sweep × Service :=
  match sweep.stage with
  | .begun =>
    let stored := storedFiles s.sizes s.files s.root
    (⟨sweep.most, totalSize stored, byAccess stored, [], .choosing⟩, s)
  | .choosing =>
    match sweep.left with
    | [] => ({ sweep with stage := .returned }, s)
    | file :: left =>
      if sweep.total ≤ sweep.most then ({ sweep with stage := .returned }, s)
      else evict { sweep with left } file s
  | .closing file load =>
    let (closed, s) := s.dispose load
    (if closed then { sweep with stage := .evicted file } else sweep, s)
  | .evicted file =>
    ({ sweep with stage := .invalidated file }, (Service.invalidateFile file.path s).2)
  | .invalidated file =>
    match Files.remove file.path s.files with
    | (.ok (), files) => (sweep.without file, { s with files })
    | (.error _, files) => (sweep.resume, { s with files })
  | .returned => (sweep, s)

/-- What one step of an enforcement does. -/
inductive Stepped (sweep : Sweep) (s : Service) : Sweep × Service → Prop where
  | listed (begun : sweep.stage = .begun) :
      Stepped sweep s (⟨sweep.most, totalSize (storedFiles s.sizes s.files s.root),
        byAccess (storedFiles s.sizes s.files s.root), [], .choosing⟩, s)
  | finished (choosing : sweep.stage = .choosing) :
      Stepped sweep s ({ sweep with stage := .returned }, s)
  | chosen {file : StoredFile} {left : List StoredFile} (choosing : sweep.stage = .choosing)
      (next : sweep.left = file :: left) (many : sweep.most < sweep.total) :
      Stepped sweep s (evict { sweep with left } file s)
  | waits {file : StoredFile} {load : Nat} (closing : sweep.stage = .closing file load) :
      Stepped sweep s (sweep, (s.dispose load).2)
  | closed {file : StoredFile} {load : Nat} (closing : sweep.stage = .closing file load) :
      Stepped sweep s ({ sweep with stage := .evicted file }, (s.dispose load).2)
  | forgets {file : StoredFile} (evicted : sweep.stage = .evicted file) :
      Stepped sweep s
        ({ sweep with stage := .invalidated file }, (Service.invalidateFile file.path s).2)
  | deletes {file : StoredFile} (invalidated : sweep.stage = .invalidated file) :
      Stepped sweep s (sweep.without file, { s with files := s.files.erase file.path })
  | keeps {file : StoredFile} (invalidated : sweep.stage = .invalidated file) :
      Stepped sweep s (sweep.resume, s)
  | rests (returned : sweep.stage = .returned) : Stepped sweep s (sweep, s)

/-- Taking a database out of the cache leaves the lists of files and all loads as they are. -/
theorem evict_frame (sweep : Sweep) (file : StoredFile) (s : Service) :
    (sweep.evict file s).1.left = sweep.left ∧ (sweep.evict file s).1.deleted = sweep.deleted ∧
      (sweep.evict file s).2.databases.loads = s.databases.loads ∧
      (sweep.evict file s).2.documents = s.documents := by
  unfold evict
  generalize s.databases.entries.remove file.key = removed
  obtain ⟨found, entries⟩ := removed
  cases found <;> exact ⟨rfl, rfl, rfl, rfl⟩

theorem step_stepped (sweep : Sweep) (s : Service) : Stepped sweep s (sweep.step s) := by
  unfold step
  split
  · exact .listed ‹_›
  · split
    · exact .finished ‹_›
    · split
      · exact .finished ‹_›
      · exact .chosen ‹_› ‹_› (Nat.lt_of_not_le ‹_›)
  · rename_i file load closing
    dsimp only
    split
    · exact .closed closing
    · exact .waits closing
  · exact .forgets ‹_›
  · rename_i file invalidated
    rcases Files.remove_cases s.files file.path with ⟨_, _, removed⟩ | ⟨_, removed⟩
    · rw [removed]
      exact .deletes invalidated
    · rw [removed]
      exact .keeps invalidated
  · exact .rests ‹_›

/-- Some steps in a row. -/
def steps : Nat → Sweep → Service → Sweep × Service
  | 0, sweep, s => (sweep, s)
  | count + 1, sweep, s => steps count (sweep.step s).1 (sweep.step s).2

/-! ### What is left to do -/

/-- Forgets the documents of a file and deletes it. -/
def erase (file : StoredFile) : ServiceM Unit := do
  let _ ← Service.invalidateFile file.path
  ServiceM.onFiles (FilesM.system (Files.remove file.path))

/-- What is done with the files that are left. -/
def resumed (sweep : Sweep) : ServiceM Report := do
  let report ← trim sweep.most sweep.total sweep.left
  return { report with deleted := sweep.deleted ++ report.deleted }

/-- What is done when one file is about to be deleted. -/
def behind (sweep : Sweep) (file : StoredFile) (deletion : ServiceM Unit) : ServiceM Report := do
  match ← ServiceM.attempt deletion with
  | .ok () => (sweep.without file).resumed
  | .error _ => sweep.resumed

/-- What is left to do. -/
def rest (sweep : Sweep) : ServiceM Report :=
  match sweep.stage with
  | .begun => enforce sweep.most
  | .choosing => sweep.resumed
  | .closing file load => sweep.behind file do
    modifyThe Service (Operation.closing [load])
    erase file
  | .evicted file => sweep.behind file (erase file)
  | .invalidated file =>
    sweep.behind file (ServiceM.onFiles (FilesM.system (Files.remove file.path)))
  | .returned => return ⟨sweep.total, sweep.deleted⟩

variable {sweep : Sweep} {file : StoredFile} {s t : Service}

theorem behind_congr {c d : ServiceM Unit} (same : c s = d t) :
    sweep.behind file c s = sweep.behind file d t := by
  have attempts : ServiceM.attempt c s = ServiceM.attempt d t := by
    unfold ServiceM.attempt
    rw [same]
  unfold behind
  rw [bind_run, bind_run, attempts]

/-- What is left to do with the next file, if too much is stored. -/
theorem resumed_cons {left : List StoredFile} (next : sweep.left = file :: left)
    (many : ¬ sweep.total ≤ sweep.most) :
    sweep.resumed = ({ sweep with left } : Sweep).behind file (delete file) := by
  have trims : trim sweep.most sweep.total (file :: left) = (do
      match ← ServiceM.attempt (delete file) with
      | .ok () =>
        let report ← trim sweep.most (sweep.total - file.size) left
        return { report with deleted := file.path :: report.deleted }
      | .error _ => trim sweep.most sweep.total left) := by
    conv_lhs => unfold trim
    exact if_neg many
  unfold resumed behind
  rw [next, trims, bind_assoc]
  congr 1
  funext outcome
  cases outcome with
  | error failure => rfl
  | ok done =>
      simp only [bind_assoc, pure_bind, resumed, without, List.append_assoc, List.singleton_append]

theorem delete_eq : delete file = (Service.evictKey file.key >>= fun _ => erase file) :=
  rfl

/-- Taking a database out of the cache leaves to be done what is left of the deletion. -/
theorem rest_evict (s : Service) :
    sweep.behind file (delete file) s =
      (sweep.evict file s).1.rest (sweep.evict file s).2 := by
  obtain ⟨found, evicted⟩ := Service.evictKey_ok file.key s
  have deletes : delete file s = erase file (Service.evictKey file.key s).2 := by
    rw [delete_eq]
    exact bind_ok evicted
  rw [Service.evictKey_run] at deletes
  unfold evict WeightedCache.remove
  cases known : s.databases.entries.find? file.key with
  | none =>
      rw [known] at deletes
      exact behind_congr deletes
  | some e =>
      rw [known] at deletes
      refine behind_congr (deletes.trans ?_)
      unfold WeightedCache.remove
      rw [known]
      rfl

/-- A load that is finished is disposed of at once. -/
theorem dispose_idle {load : Nat} (idle : (s.databases.loads[load]?).elim 0 (·.turns) = 0) :
    s.dispose load = (true, Operation.closing [load] s) := by
  unfold Service.dispose
  split
  · rename_i turns outcome found
    rw [found] at idle
    cases idle
  · rfl

theorem dispose_settled {load : Nat} (settled : ∀ (n : Nat) (load : Load Database),
      s.databases.loads[n]? = some load → load.turns = 0) :
    s.dispose load = (true, Operation.closing [load] s) := by
  refine dispose_idle ?_
  cases found : s.databases.loads[load]? with
  | none => rfl
  | some finished => exact settled load finished found

/-- With nobody in between, each step does a part of what is left to do. -/
theorem rest_step (settled : ∀ (n : Nat) (load : Load Database),
      s.databases.loads[n]? = some load → load.turns = 0) :
    sweep.rest s = (sweep.step s).1.rest (sweep.step s).2 := by
  obtain ⟨most, total, left, deleted, stage⟩ := sweep
  cases stage with
  | begun =>
      change enforce most s = resumed ⟨most, _, _, [], .choosing⟩ s
      unfold enforce resumed
      rw [bind_ok (get_run s)]
      exact congrFun (bind_pure _).symm s
  | choosing =>
      change resumed _ s = _
      cases left with
      | nil =>
          change _ = (pure (⟨total, deleted⟩ : Report) : ServiceM Report) s
          unfold resumed trim
          rw [pure_bind]
          simp
      | cons file left =>
          unfold step
          dsimp only
          split
          · rename_i few
            unfold resumed trim
            dsimp only
            rw [if_pos few, pure_bind]
            simp [rest]
          · rename_i many
            rw [resumed_cons rfl many]
            exact rest_evict s
  | closing file load =>
      unfold step
      dsimp only
      rw [dispose_settled settled]
      exact behind_congr (bind_ok rfl)
  | evicted file => exact behind_congr (bind_ok rfl)
  | invalidated file =>
      have removes : ServiceM.onFiles (FilesM.system (Files.remove file.path)) s =
          ((FilesM.system (Files.remove file.path) s.files).1,
            { s with files := (FilesM.system (Files.remove file.path) s.files).2 }) := rfl
      change behind _ file (ServiceM.onFiles (FilesM.system (Files.remove file.path))) s = _
      unfold behind step
      dsimp only
      rw [Converter.system_run] at removes
      rw [bind_ok (Steps.attempt_run removes)]
      generalize Files.remove file.path s.files = removed
      obtain ⟨outcome, files⟩ := removed
      cases outcome <;> rfl
  | returned => rfl

/-! ### Getting done -/

/-- Enough steps in a row lead to the end. -/
def Ends (sweep : Sweep) (s : Service) : Prop :=
  ∃ count, (steps count sweep s).1.stage = .returned

theorem ends_step (ends : Ends (sweep.step s).1 (sweep.step s).2) : Ends sweep s := by
  obtain ⟨count, done⟩ := ends
  exact ⟨count + 1, done⟩

/-- A load that is to be disposed of is waited for. -/
theorem ends_closing {load : Nat} (closing : sweep.stage = .closing file load)
    (rest : ∀ s, Ends { sweep with stage := .evicted file } s) (s : Service) : Ends sweep s := by
  generalize found : (s.databases.loads[load]?).elim 0 (·.turns) = turns
  induction turns generalizing s with
  | zero =>
      refine ends_step ?_
      unfold step
      rw [closing]
      dsimp only
      rw [dispose_idle found]
      exact rest _
  | succ turns ih =>
      cases stands : s.databases.loads[load]? with
      | none =>
          rw [stands] at found
          cases found
      | some running =>
          obtain ⟨more, outcome⟩ := running
          rw [stands] at found
          cases found
          have waits : s.dispose load = (false, { s with databases :=
              { s.databases with
                loads := s.databases.loads.setIfInBounds load ⟨turns, outcome⟩ } }) := by
            unfold Service.dispose
            rw [stands]
          refine ends_step ?_
          unfold step
          rw [closing]
          dsimp only
          rw [waits]
          refine ih _ ?_
          simp [Array.getElem?_setIfInBounds_self_of_lt (Registered.lt_size stands)]

theorem ends_invalidated {most : Nat} {left : List StoredFile}
    (rest : ∀ total deleted s, Ends ⟨most, total, left, deleted, .choosing⟩ s) (total : Nat)
    (deleted : List String) (file : StoredFile) (s : Service) :
    Ends ⟨most, total, left, deleted, .invalidated file⟩ s := by
  refine ends_step ?_
  unfold step
  dsimp only
  generalize Files.remove file.path s.files = removed
  obtain ⟨outcome, files⟩ := removed
  cases outcome with
  | ok done => exact rest _ _ _
  | error fault => exact rest _ _ _

theorem ends_choosing (most total : Nat) (left : List StoredFile) (deleted : List String)
    (s : Service) : Ends ⟨most, total, left, deleted, .choosing⟩ s := by
  induction left generalizing total deleted s with
  | nil => exact ⟨1, rfl⟩
  | cons file left ih =>
      have evicted (s : Service) : Ends ⟨most, total, left, deleted, .evicted file⟩ s :=
        ends_step (ends_invalidated ih _ _ _ _)
      refine ends_step ?_
      unfold step
      dsimp only
      split
      · exact ⟨0, rfl⟩
      · unfold evict
        generalize s.databases.entries.remove file.key = removed
        obtain ⟨found, entries⟩ := removed
        cases found with
        | none => exact evicted _
        | some load => exact ends_closing rfl evicted _

/-- An enforcement gets done, wherever it stands. -/
theorem ends (sweep : Sweep) (s : Service) : Ends sweep s := by
  obtain ⟨most, total, left, deleted, stage⟩ := sweep
  have invalidated (file : StoredFile) (s : Service) :
      Ends ⟨most, total, left, deleted, .invalidated file⟩ s :=
    ends_invalidated (fun total deleted s => ends_choosing most total left deleted s) _ _ _ _
  have evicted (file : StoredFile) (s : Service) :
      Ends ⟨most, total, left, deleted, .evicted file⟩ s :=
    ends_step (invalidated file _)
  cases stage with
  | begun => exact ends_step (ends_choosing _ _ _ _ _)
  | choosing => exact ends_choosing _ _ _ _ _
  | closing file load => exact ends_closing rfl (evicted file) s
  | evicted file => exact evicted file s
  | invalidated file => exact invalidated file s
  | returned => exact ⟨0, rfl⟩

/-- Steps with nobody in between start no loads. -/
theorem step_loads (settled : ∀ (n : Nat) (load : Load Database),
      s.databases.loads[n]? = some load → load.turns = 0) :
    (sweep.step s).2.databases.loads = s.databases.loads := by
  obtain ⟨most, total, left, deleted, stage⟩ := sweep
  unfold step
  cases stage with
  | begun => rfl
  | choosing =>
      cases left with
      | nil => rfl
      | cons file left =>
          dsimp only
          split
          · rfl
          · unfold evict
            generalize s.databases.entries.remove file.key = removed
            obtain ⟨found, entries⟩ := removed
            cases found <;> rfl
  | closing file load =>
      dsimp only
      rw [dispose_settled settled]
      rfl
  | evicted file => rfl
  | invalidated file =>
      dsimp only
      generalize Files.remove file.path s.files = removed
      obtain ⟨outcome, files⟩ := removed
      cases outcome <;> rfl
  | returned => rfl

theorem rest_steps (settled : ∀ (n : Nat) (load : Load Database),
      s.databases.loads[n]? = some load → load.turns = 0) (count : Nat) :
    sweep.rest s = (steps count sweep s).1.rest (steps count sweep s).2 := by
  induction count generalizing sweep s with
  | zero => rfl
  | succ count ih =>
      have loads : (sweep.step s).2.databases.loads = s.databases.loads := step_loads settled
      exact (rest_step settled).trans (ih (fun n load found => settled n load (loads ▸ found)))

/-- With nobody in between, the steps come to what an enforcement comes to. -/
theorem enforce_in_steps (registered : Registered s.databases s.closed) (most : Nat) :
    ∃ count, (steps count (start most) s).1.stage = .returned ∧
      enforce most s =
        (.ok ⟨(steps count (start most) s).1.total, (steps count (start most) s).1.deleted⟩,
          (steps count (start most) s).2) := by
  obtain ⟨count, done⟩ := ends (start most) s
  refine ⟨count, done, ?_⟩
  have same : (start most).rest s = _ := rest_steps registered.settled count
  refine same.trans ?_
  unfold rest
  rw [done]
  rfl

end Sweep

end CodeNav.Quota
