/-
Module: CodeNav.Proofs.Store.Converter
Purpose: What is asked of a converter: it makes its output, if any, and touches nothing else.
Main exports:
  FileTimes.WasRead, Converter.Confined, Converter.Faithful, Converter.builtin_faithful
-/
import CodeNav.Proofs.Stateful
import CodeNav.Proofs.Store.Files
import CodeNav.Store.Converter

namespace CodeNav

open Stateful

/-- The file was read since it was last written or changed. -/
structure FileTimes.WasRead (times : FileTimes) : Prop where
  modified : times.modified < times.accessed
  changed : times.changed < times.accessed

/-- Reading a file once more leaves no trace. -/
theorem Files.touchRead_wasRead {files : Files} {path : String} {f : File}
    (found : files.find? path = some (.file f)) (read : f.times.WasRead) :
    files.touchRead path = files := by
  unfold Files.touchRead
  rw [Files.file?_eq_some.mpr found]
  have modified := read.modified
  have changed := read.changed
  simp only
  rw [if_neg]
  simp only [Bool.or_eq_true, decide_eq_true_eq]
  omega

namespace Converter

/-- A converter writes to its output and nowhere else, whether it reports success or failure. What
it writes, and whether it writes at all, is left open. -/
def Confined (converter : Converter) : Prop :=
  ∀ input output kind (files : Files) f, files.find? input = some (.file f) →
    f.times.WasRead → files.find? output = none →
    Files.Besides [output] files (converter input output kind files).2

/-- A converter that reports success has written the tables of the dump. -/
structure Faithful [Gzip.Compressor] (converter : Converter) : Prop where
  confined : converter.Confined
  writes : ∀ input output kind (files after : Files) f octets elements,
    files.find? input = some (.file f) → f.times.WasRead → files.find? output = none →
    f.content = .octets octets → Dump.parseElements none octets = .ok elements →
    converter input output kind files = (.ok (), after) →
    ∃ g tables, after.find? output = some (.file g) ∧
      Tables.ofElements kind elements = .ok tables ∧ g.content = .tables tables

end Converter

/-! ### Converting in process -/

namespace Converter

theorem system_run {α : Type} (operation : Files → Except SystemFault α × Files) (files : Files) :
    FilesM.system operation files =
      ((operation files).1.mapError .fileSystem, (operation files).2) := by
  unfold FilesM.system
  split <;> rename_i run <;> rw [run] <;> rfl

/-- Where nothing stands at the output, tables are written there. -/
theorem replace_run {files : Files} {output : String} (tables : Tables)
    (absent : files.find? output = none) :
    replace output tables files =
      FilesM.system (Files.write output (.tables tables)) files := by
  have missing : files.contains output = false := by
    rw [Files.contains_eq, absent]
    rfl
  unfold replace
  rw [bind_ok (get_run files)]
  simp only [missing, Bool.false_eq_true, if_false]

variable [Gzip.Compressor]

/-- What the converter in process does with a file that was read before. -/
theorem builtin_run {files : Files} {input output : String} {f : File} (kind : Encoding)
    (found : files.find? input = some (.file f)) (read : f.times.WasRead)
    (absent : files.find? output = none) :
    (∃ failure, builtin input output kind files = (.error failure, files)) ∨
    ∃ octets elements tables, f.content = .octets octets ∧
      Dump.parseElements none octets = .ok elements ∧
      Tables.ofElements kind elements = .ok tables ∧
      builtin input output kind files =
        FilesM.system (Files.write output (.tables tables)) files := by
  have reading : FilesM.system (Files.read input) files = (.ok f.content, files) := by
    rw [system_run, Files.read_file found, Files.touchRead_wasRead found read]
    rfl
  unfold builtin
  by_cases isJson : kind = .json
  · left
    rw [if_pos isJson]
    exact ⟨_, bind_error (throw_run _ files)⟩
  · rw [if_neg isJson]
    dsimp only
    cases content : f.content with
    | octets octets =>
        have dump : readDump input files = (.ok octets, files) := by
          unfold readDump
          rw [bind_ok reading, content]
          rfl
        rw [bind_ok dump]
        cases parsed : Dump.parseElements none octets with
        | error failure => exact .inl ⟨failure, bind_error rfl⟩
        | ok elements =>
            rw [bind_ok (c := builtin.liftExcept (.ok elements)) (pure_run elements files)]
            cases converted : Tables.ofElements kind elements with
            | error failure => exact .inl ⟨failure, bind_error rfl⟩
            | ok tables =>
                rw [bind_ok (c := builtin.liftExcept (.ok tables)) (pure_run tables files)]
                exact .inr
                  ⟨octets, elements, tables, rfl, parsed, converted, replace_run tables absent⟩
    | tables tables =>
        left
        have dump : readDump input files = (.error .notTables, files) := by
          unfold readDump
          rw [bind_ok reading, content]
          rfl
        exact ⟨_, bind_error dump⟩
    | index =>
        left
        have dump : readDump input files = (.error .notTables, files) := by
          unfold readDump
          rw [bind_ok reading, content]
          rfl
        exact ⟨_, bind_error dump⟩

theorem builtin_faithful : builtin.Faithful where
  confined input output kind files f found read absent := by
    rcases builtin_run kind found read absent with ⟨failure, run⟩ | ⟨_, _, tables, _, _, _, run⟩
    · rw [run]
      exact .of_absent files absent
    · rw [run, system_run]
      exact .write (.tables tables) absent
  writes input output kind files after f octets elements found read absent content parsed run := by
    rcases builtin_run kind found read absent with
      ⟨failure, failed⟩ | ⟨_, _, tables, sameContent, sameElements, converted, written⟩
    · rw [failed] at run
      cases run
    · rw [content] at sameContent
      cases sameContent
      rw [parsed] at sameElements
      cases sameElements
      rw [written, system_run] at run
      by_cases inDirectory : files.isDirectory (Files.parent output)
      · rw [Files.write_new absent inDirectory] at run
        cases run
        exact ⟨files.newFile (.tables tables), tables, by simp, converted, rfl⟩
      · rw [Files.write_refused absent inDirectory] at run
        cases run

end Converter

end CodeNav
