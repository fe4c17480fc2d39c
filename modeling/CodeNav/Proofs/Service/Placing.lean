/-
Module: CodeNav.Proofs.Service.Placing
Purpose: Files moved into place one after the other, and what stands where when that stops.
Main exports:
  Upload.moves, Upload.Moves, Upload.placeEach_run, Upload.commit_run
-/
import CodeNav.Proofs.Service.Uploads

namespace CodeNav.Upload

open Stateful

/-! ### Moves -/

/-- What is moved into place, in order: the conversions, and the dump itself if it is kept. -/
def moves (staged : String) (kinds : List Encoding) (converted : List (Encoding × String)) :
    List (Encoding × String) :=
  converted ++ if kinds.contains .json then [(.json, staged)] else []

/-- Moves that succeed, one after the other. -/
inductive Moves (base : String) : List (Encoding × String) → Files → Files → Prop where
  | done (files : Files) : Moves base [] files files
  | next {kind : Encoding} {source : String} {rest : List (Encoding × String)} {a b c : Files}
      (moved : a.rename source (kind.path base) = (.ok (), b)) (others : Moves base rest b c) :
      Moves base ((kind, source) :: rest) a c

namespace Moves

variable {base : String} {list : List (Encoding × String)} {a b : Files}

/-- A renaming that succeeds takes a file from one place to another. -/
theorem rename_ok {source target : String} (moved : a.rename source target = (.ok (), b)) :
    ∃ f, a.find? source = some (.file f) ∧
      b = (a.tick.erase source).put target (.file (a.renamed f)) := by
  rcases a.rename_cases source target with ⟨f, stands, _, _, run⟩ | ⟨fault, run⟩
  · rw [run] at moved
    cases moved
    exact ⟨f, stands, rfl⟩
  · rw [run] at moved
    cases moved

theorem snoc {c : Files} (moves : Moves base list a b) {kind : Encoding} {source : String}
    (moved : b.rename source (kind.path base) = (.ok (), c)) :
    Moves base (list ++ [(kind, source)]) a c := by
  induction moves with
  | done files => exact .next moved (.done c)
  | next first _ ih => exact .next first (ih moved)

/-- What is neither moved nor replaced stays. -/
theorem others (moves : Moves base list a b) {path : String} (notMoved : path ∉ list.map (·.2))
    (notReplaced : ∀ p ∈ list, p.1.path base ≠ path) : b.find? path = a.find? path := by
  induction moves with
  | done files => rfl
  | @next kind source rest a b c moved _ ih =>
      rw [List.map_cons, List.mem_cons, not_or] at notMoved
      rw [ih notMoved.2 fun p listed => notReplaced p (List.mem_cons_of_mem _ listed)]
      obtain ⟨f, _, rfl⟩ := rename_ok moved
      rw [Files.find?_put, if_neg (notReplaced (kind, source) List.mem_cons_self),
        Files.find?_erase, if_neg fun same => notMoved.1 same.symm, Files.find?_tick]

/-- No move makes a directory. -/
theorem plain (moves : Moves base list a b) {path : String}
    (plain : a.find? path ≠ some .directory) : b.find? path ≠ some .directory := by
  induction moves with
  | done files => exact plain
  | next moved _ ih =>
      apply ih
      obtain ⟨f, _, rfl⟩ := rename_ok moved
      rw [Files.find?_put]
      split
      · simp
      · rw [Files.find?_erase]
        split
        · simp
        · exact plain

theorem timely (moves : Moves base list a b) (timely : a.Timely) : b.Timely := by
  induction moves with
  | done files => exact timely
  | @next _ source _ a b _ moved _ ih =>
      apply ih
      obtain ⟨f, stands, rfl⟩ := rename_ok moved
      constructor
      · intro path g found
        rw [Files.find?_put] at found
        split at found
        · cases found
          exact Nat.le_succ_of_le (timely.accessed source f stands)
        · rw [Files.find?_erase] at found
          split at found
          · cases found
          · exact Nat.le_succ_of_le (timely.accessed path g found)
      · intro path g found
        rw [Files.find?_put] at found
        split at found
        · cases found
          exact timely.serial source f stands
        · rw [Files.find?_erase] at found
          split at found
          · cases found
          · exact timely.serial path g found

/-- Where a file has been moved to, it stands as it was. -/
theorem arrives (moves : Moves base list a b) (kinds : (list.map (·.1)).Nodup)
    (sources : (list.map (·.2)).Nodup)
    (apart : ∀ p ∈ list, ∀ q ∈ list, p.1.path base ≠ q.2) {p : Encoding × String}
    (listed : p ∈ list) :
    ∃ f g, a.find? p.2 = some (.file f) ∧ b.find? (p.1.path base) = some (.file g) ∧
      g.serial = f.serial ∧ g.content = f.content ∧ g.times.accessed = f.times.accessed := by
  induction moves with
  | done files => cases listed
  | @next kind source rest a b c moved others ih =>
      rw [List.map_cons, List.nodup_cons] at kinds sources
      obtain ⟨f, stands, rfl⟩ := rename_ok moved
      rcases List.mem_cons.mp listed with rfl | later
      · refine ⟨f, a.renamed f, stands, ?_, rfl, rfl, rfl⟩
        rw [others.others]
        · simp
        · intro taken
          obtain ⟨q, member, same⟩ := List.mem_map.mp taken
          exact apart _ List.mem_cons_self q (List.mem_cons_of_mem _ member) same.symm
        · intro q member same
          apply kinds.1
          rw [← Encoding.path_injective same]
          exact List.mem_map_of_mem member
      · obtain ⟨g, h, found, result⟩ := ih kinds.2 sources.2
          (fun p hp q hq => apart p (List.mem_cons_of_mem _ hp) q (List.mem_cons_of_mem _ hq)) later
        refine ⟨g, h, ?_, result⟩
        rw [Files.find?_put, if_neg (apart _ List.mem_cons_self p listed), Files.find?_erase,
          if_neg] at found
        · exact found
        · intro same
          subst same
          exact sources.1 (List.mem_map.mpr ⟨p, later, rfl⟩)

/-- What has been moved is gone from where it was. -/
theorem leaves (moves : Moves base list a b) {path : String} (moved : path ∈ list.map (·.2))
    (notReplaced : ∀ p ∈ list, p.1.path base ≠ path) : b.find? path = none := by
  induction moves with
  | done files => cases moved
  | @next kind source rest a b c renamed others ih =>
      have notLater : ∀ p ∈ rest, p.1.path base ≠ path := fun p listed =>
        notReplaced p (List.mem_cons_of_mem _ listed)
      by_cases later : path ∈ rest.map (·.2)
      · exact ih later notLater
      · obtain rfl := (List.mem_cons.mp moved).resolve_right later
        rw [others.others later notLater]
        obtain ⟨f, _, rfl⟩ := rename_ok renamed
        rw [Files.find?_put, if_neg (notReplaced _ List.mem_cons_self), Files.find?_erase,
          if_pos rfl]

/-- Where nothing stands and nothing is moved to, nothing stands afterwards. -/
theorem absent (moves : Moves base list a b) {path : String} (absent : a.find? path = none)
    (notReplaced : ∀ p ∈ list, p.1.path base ≠ path) : b.find? path = none := by
  by_cases moved : path ∈ list.map (·.2)
  · exact moves.leaves moved notReplaced
  · rw [moves.others moved notReplaced, absent]

end Moves

/-! ### Running them -/

theorem place_run (base source : String) (kind : Encoding) (s : Service) :
    place base source kind s =
      ((s.files.rename source (kind.path base)).1.mapError .fileSystem,
        { s with files := (s.files.rename source (kind.path base)).2 }) := by
  unfold place ServiceM.onFiles
  rw [Converter.system_run]

/-- Moves the files of a list, each to its place. -/
def placeEach (base : String) (list : List (Encoding × String)) : ServiceM Unit :=
  list.forM fun (kind, source) => place base source kind

theorem placeAll_eq (base staged : String) (kinds : List Encoding)
    (converted : List (Encoding × String)) :
    placeAll base staged kinds converted = placeEach base (moves staged kinds converted) := by
  unfold placeAll placeEach moves
  rw [List.forM_eq_forM, List.forM_append]
  split
  · simp
  · simp

/-- What a run of moves comes to: all of them are made, or all up to one that is refused. -/
inductive Placed (base : String) (list : List (Encoding × String)) (s : Service) :
    Except Failure Unit × Service → Prop where
  | ok (files : Files) (moved : Moves base list s.files files) :
      Placed base list s (.ok (), { s with files })
  | stopped (fault : SystemFault) (first rest : List (Encoding × String))
      (next : Encoding × String) (files : Files) (split : list = first ++ next :: rest)
      (moved : Moves base first s.files files)
      (refused : files.rename next.2 (next.1.path base) = (.error fault, files)) :
      Placed base list s (.error (.fileSystem fault), { s with files })

theorem placeEach_run (base : String) (list : List (Encoding × String)) (s : Service) :
    Placed base list s (placeEach base list s) := by
  induction list generalizing s with
  | nil => exact .ok s.files (.done s.files)
  | cons next rest ih =>
      obtain ⟨kind, source⟩ := next
      have step := place_run base source kind s
      rcases s.files.rename_cases source (kind.path base) with ⟨f, _, _, _, run⟩ | ⟨fault, run⟩
      · rw [run] at step
        have later := ih { s with files := (s.files.rename source (kind.path base)).2 }
        rw [run] at later
        have goes : placeEach base ((kind, source) :: rest) s = placeEach base rest _ :=
          bind_ok step
        rw [goes]
        generalize placeEach base rest _ = result at later
        cases later with
        | ok files moved => exact .ok files (.next run moved)
        | stopped fault first others other files split moved refused =>
            exact .stopped fault ((kind, source) :: first) others other files
              (congrArg ((kind, source) :: ·) split) (.next run moved) refused
      · rw [run] at step
        have stops : placeEach base ((kind, source) :: rest) s = (.error (.fileSystem fault), s) :=
          bind_error step
        rw [stops]
        exact .stopped fault [] rest (kind, source) s.files rfl (.done s.files) run

/-! ### Making an upload known -/

/-- What committing an upload comes to. Only if all files have been moved is anything forgotten, and
only behind that is it told whether the index can be used. -/
inductive Committed (target : Target) (list : List (Encoding × String)) (dump : Dump)
    (s : Service) : Except Failure Unit × Service → Prop where
  | ok (files : Files) (index : PackageIndex) (moved : Moves (s.basePath target) list s.files files)
      (usable : s.index = .available index) :
      Committed target list dump s
        (.ok (), { ({ s with files } : Service).forgetTarget target with
          index := .available (index.record target dump.provided dump.used) })
  | unindexed (failure : Failure) (files : Files)
      (moved : Moves (s.basePath target) list s.files files) (broken : s.index = .broken failure) :
      Committed target list dump s
        (.error failure, ({ s with files } : Service).forgetTarget target)
  | stopped (fault : SystemFault) (first rest : List (Encoding × String))
      (next : Encoding × String) (files : Files) (split : list = first ++ next :: rest)
      (moved : Moves (s.basePath target) first s.files files)
      (refused : files.rename next.2 (next.1.path (s.basePath target)) = (.error fault, files)) :
      Committed target list dump s (.error (.fileSystem fault), { s with files })

namespace Committed

variable {target : Target} {list : List (Encoding × String)} {dump : Dump} {s after : Service}
  {outcome : Except Failure Unit}

/-- Some files have been moved, the first ones of those that were to be moved. -/
theorem moved (committed : Committed target list dump s (outcome, after)) :
    ∃ first, first <+: list ∧ Moves (s.basePath target) first s.files after.files := by
  cases committed with
  | ok files index moved usable => exact ⟨list, List.prefix_refl list, moved⟩
  | unindexed failure files moved broken => exact ⟨list, List.prefix_refl list, moved⟩
  | stopped fault first rest next files split moved refused =>
      exact ⟨first, ⟨next :: rest, split.symm⟩, moved⟩

/-- Committing changes neither the settings of a service nor its names. -/
theorem frame (committed : Committed target list dump s (outcome, after)) :
    after = { s with
      files := after.files
      databases := after.databases
      documents := after.documents
      closed := after.closed
      index := after.index } := by
  cases committed <;> rfl

theorem registered (committed : Committed target list dump s (outcome, after))
    (registered : Registered s.databases s.closed) : Registered after.databases after.closed := by
  cases committed with
  | ok files index moved usable => exact Service.registered_evictKey target.key _ registered
  | unindexed failure files moved broken =>
      exact Service.registered_evictKey target.key _ registered
  | stopped fault first rest next files split moved refused => exact registered

/-- If committing fails, some file has been moved, or the first move was refused. -/
theorem error_cases {failure : Failure}
    (committed : Committed target list dump s (.error failure, after)) (some : list ≠ []) :
    (∃ first, first ≠ [] ∧ first <+: list ∧ Moves (s.basePath target) first s.files after.files) ∨
    ∃ fault next rest, list = next :: rest ∧ after = s ∧
      s.files.rename next.2 (next.1.path (s.basePath target)) = (.error fault, s.files) := by
  cases committed with
  | unindexed failure files moved broken =>
      exact .inl ⟨list, some, List.prefix_refl list, moved⟩
  | stopped fault first rest next files split moved refused =>
      cases first with
      | nil =>
          cases moved
          exact .inr ⟨fault, next, rest, split, rfl, refused⟩
      | cons head others =>
          exact .inl ⟨head :: others, List.cons_ne_nil _ _, ⟨next :: rest, split.symm⟩, moved⟩

end Committed

theorem available_or_broken (s : Service) :
    (∃ index, s.index = .available index) ∨ ∃ failure, s.index = .broken failure := by
  cases s.index with
  | available index => exact .inl ⟨index, rfl⟩
  | broken failure => exact .inr ⟨failure, rfl⟩

theorem updateIndex_available {s : Service} {index : PackageIndex}
    (usable : s.index = .available index) (change : PackageIndex → PackageIndex) :
    ServiceM.updateIndex change s = (.ok (), { s with index := .available (change index) }) := by
  have read : ServiceM.packageIndex s = (.ok index, s) := by
    unfold ServiceM.packageIndex
    rw [bind_ok (get_run s), usable]
    rfl
  exact bind_ok read

theorem updateIndex_broken {s : Service} {failure : Failure} (broken : s.index = .broken failure)
    (change : PackageIndex → PackageIndex) :
    ServiceM.updateIndex change s = (.error failure, s) := by
  have read : ServiceM.packageIndex s = (.error failure, s) := by
    unfold ServiceM.packageIndex
    rw [bind_ok (get_run s), broken]
    rfl
  exact bind_error read

theorem commit_run (target : Target) (staged : String) (dump : Dump)
    (converted : List (Encoding × String)) (s : Service) :
    Committed target (moves staged s.flags.enabled converted) dump s
      (commit target staged dump converted s) := by
  have placing := placeEach_run (s.basePath target) (moves staged s.flags.enabled converted) s
  unfold commit
  rw [bind_ok (get_run s), placeAll_eq]
  generalize placed : placeEach (s.basePath target) (moves staged s.flags.enabled converted) s =
    result at placing
  cases placing with
  | stopped fault first rest next files split moved refused =>
      rw [bind_error placed]
      exact .stopped fault first rest next files split moved refused
  | ok files moved =>
      rw [bind_ok placed, Service.forget_run]
      rcases available_or_broken s with ⟨index, usable⟩ | ⟨failure, broken⟩
      · rw [updateIndex_available (s := ({ s with files } : Service).forgetTarget target) usable]
        exact .ok files index moved usable
      · rw [updateIndex_broken (s := ({ s with files } : Service).forgetTarget target) broken]
        exact .unindexed failure files moved broken

end CodeNav.Upload
