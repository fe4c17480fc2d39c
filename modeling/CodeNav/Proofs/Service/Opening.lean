/-
Module: CodeNav.Proofs.Service.Opening
Purpose: What is opened for a target, told by what stands at the paths of its files.
Main exports:
  Loaded.IsFrom, Loaded.firstOf_cases, Loaded.firstOf_congr
-/
import CodeNav.Proofs.Service.Sound

namespace CodeNav

open Stateful

/-- What loading a file comes to is told by what stands at its path. -/
theorem Encoding.load_fst (kind : Encoding) (path : String) (files : Files) :
    (kind.load path files).1 =
      match (files.find? path).map Entry.plain with
      | none => .error (kind.openFailure path .missing)
      | some none => .error (kind.openFailure path .isDirectory)
      | some (some (serial, content)) =>
        (kind.openContent path content).map fun source => ⟨kind, path, serial, source⟩ := by
  unfold Encoding.load
  cases found : files.find? path with
  | none =>
      rw [Files.read_missing found]
      rfl
  | some entry =>
      cases entry with
      | directory =>
          unfold Files.read
          rw [found]
          rfl
      | file f =>
          rw [Files.read_file found, Files.file?_eq_some.mpr found]
          simp only [Option.elim_some, Option.map_some, Entry.plain]
          cases kind.openContent path f.content <;> rfl

namespace Loaded

/-- A dump was opened from a file of one of the encodings. -/
structure IsFrom (files : Files) (base : String) (kinds : List Encoding) (loaded : Loaded) :
    Prop where
  kind : loaded.kind ∈ kinds
  path : loaded.path = loaded.kind.path base
  stands : ∃ f, files.find? loaded.path = some (.file f) ∧ f.serial = loaded.serial ∧
    loaded.kind.openContent loaded.path f.content = .ok loaded.source

theorem IsFrom.alike {a b : Files} {base : String} {kinds : List Encoding} {loaded : Loaded}
    (isFrom : loaded.IsFrom a base kinds) (alike : a.Alike b) : loaded.IsFrom b base kinds := by
  obtain ⟨f, stands, serial, opens⟩ := isFrom.stands
  obtain ⟨g, there, same, content⟩ := alike.file stands
  exact ⟨isFrom.kind, isFrom.path, g, there, same.trans serial, content ▸ opens⟩

theorem isFrom_load {kind : Encoding} {base : String} {files : Files} {loaded : Loaded}
    (run : (kind.load (kind.path base) files).1 = .ok loaded) :
    loaded.IsFrom files base [kind] := by
  rw [Encoding.load_fst] at run
  cases found : files.find? (kind.path base) with
  | none => simp [found] at run
  | some entry =>
      cases entry with
      | directory => simp [found, Entry.plain] at run
      | file f =>
          simp only [found, Option.map_some, Entry.plain] at run
          cases opens : kind.openContent (kind.path base) f.content with
          | error failure => simp [opens, Except.map] at run
          | ok source =>
              simp only [opens, Except.map, Except.ok.injEq] at run
              subst run
              exact ⟨List.mem_singleton_self _, rfl, f, found, rfl, opens⟩

/-- A dump is opened from one of its files, or there is none that can be opened. -/
theorem firstOf_cases (base : String) (kinds : List Encoding) (files : Files) :
    (∃ loaded, (firstOf base kinds files).1 = .ok loaded ∧ loaded.IsFrom files base kinds) ∨
      (firstOf base kinds files).1 = .error (.noData base) := by
  induction kinds generalizing files with
  | nil => exact .inr rfl
  | cons kind others ih =>
      have later (after : Files) (alike : after.Alike files) :
          (∃ loaded, (firstOf base others after).1 = .ok loaded ∧
            loaded.IsFrom files base (kind :: others)) ∨
            (firstOf base others after).1 = .error (.noData base) := by
        refine (ih after).imp_left ?_
        rintro ⟨loaded, run, isFrom⟩
        exact ⟨loaded, run, { isFrom.alike alike with
          kind := List.mem_cons_of_mem kind isFrom.kind }⟩
      unfold firstOf
      rw [bind_ok (get_run files)]
      split
      · rw [tryCatch_run]
        have reads := Service.ReadOnly.load kind (kind.path base) files
        generalize run : kind.load (kind.path base) files = result at reads
        obtain ⟨outcome, after⟩ := result
        cases outcome with
        | ok loaded =>
            have isFrom := isFrom_load (congrArg Prod.fst run)
            refine .inl ⟨loaded, rfl, { isFrom with kind := ?_ }⟩
            rw [List.mem_singleton.mp isFrom.kind]
            exact List.mem_cons_self
        | error failure => exact later after reads.alike
      · exact later files (.refl files)

/-- Which dump is opened depends on the files of the encodings alone. -/
theorem firstOf_congr {base : String} {kinds : List Encoding} {a b : Files}
    (same : ∀ kind ∈ kinds, (a.find? (kind.path base)).map Entry.plain =
      (b.find? (kind.path base)).map Entry.plain) :
    (firstOf base kinds a).1 = (firstOf base kinds b).1 := by
  induction kinds generalizing a b with
  | nil => rfl
  | cons kind others ih =>
      have here := same kind List.mem_cons_self
      have rest (other) (listed : other ∈ others) := same other (List.mem_cons_of_mem kind listed)
      have contains : a.contains (kind.path base) = b.contains (kind.path base) := by
        have present := congrArg Option.isSome here
        rw [Files.contains_eq, Files.contains_eq]
        simpa using present
      have loads : (kind.load (kind.path base) a).1 = (kind.load (kind.path base) b).1 := by
        rw [Encoding.load_fst, Encoding.load_fst, here]
      have readA := (Service.ReadOnly.load kind (kind.path base) a).alike
      have readB := (Service.ReadOnly.load kind (kind.path base) b).alike
      unfold firstOf
      rw [bind_ok (get_run a), bind_ok (get_run b), contains]
      split
      · rw [tryCatch_run, tryCatch_run]
        generalize kind.load (kind.path base) a = left at loads readA
        generalize kind.load (kind.path base) b = right at loads readB
        obtain ⟨outcome, afterA⟩ := left
        obtain ⟨other, afterB⟩ := right
        cases loads
        cases outcome with
        | ok loaded => rfl
        | error failure =>
            refine ih fun other listed => ?_
            exact (readA _).trans ((rest other listed).trans (readB _).symm)
      · exact ih rest

end Loaded

end CodeNav
