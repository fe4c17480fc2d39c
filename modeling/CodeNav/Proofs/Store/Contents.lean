/-
Module: CodeNav.Proofs.Store.Contents
Purpose: What is stored of a dump in each encoding, and what opening it again gives.
Main exports:
  Dump.elements_of_parse, Encoding.contentOf, Encoding.contentOf_opens, Loaded.firstOf_run
-/
import CodeNav.Proofs.Stateful
import CodeNav.Proofs.Store.Converter
import CodeNav.Proofs.Store.Files
import CodeNav.Store.Loading

namespace CodeNav

open Stateful

/-! ### Limits -/

/-- What expands within a limit expands without one. -/
theorem Gzip.decompress_unlimited {limit : Option Nat} {octets content : List UInt8}
    (within : decompress limit octets = .ok (.content content)) :
    decompress none octets = .ok (.content content) := by
  unfold decompress at within ⊢
  cases header : skipHeader octets with
  | error fault =>
      rw [header] at within
      cases within
  | ok s =>
      rw [header] at within
      simp only [bind, Except.bind] at within ⊢
      cases rest : (inflate s).rest with
      | error halt =>
          rw [rest] at within
          cases halt with
          | corrupt =>
              dsimp only at within
              split at within <;> cases within
          | truncated =>
              dsimp only at within
              split at within <;> cases within
      | ok rest =>
          rw [rest] at within
          dsimp only at within
          split at within
          · cases within
          · exact within

theorem Dump.inflate_unlimited {limit : Option Nat} {octets content : List UInt8}
    (within : inflate limit octets = .ok content) : inflate none octets = .ok content := by
  unfold inflate at within ⊢
  split
  · rename_i plain
    rw [if_pos plain] at within
    exact within
  · rename_i compressed
    rw [if_neg compressed] at within
    cases expanded : Gzip.decompress limit octets with
    | error fault =>
        rw [expanded] at within
        cases within
    | ok outcome =>
        rw [expanded] at within
        cases outcome with
        | exceeded => cases within
        | content all =>
            cases within
            rw [Gzip.decompress_unlimited expanded]

theorem Dump.parseElements_unlimited {limit : Option Nat} {octets : List UInt8}
    {elements : List Element} (within : parseElements limit octets = .ok elements) :
    parseElements none octets = .ok elements := by
  unfold parseElements at within ⊢
  cases inflated : inflate limit octets with
  | error failure =>
      rw [inflated] at within
      cases within
  | ok content =>
      rw [inflated] at within
      rw [inflate_unlimited inflated]
      exact within

/-- A dump that could be read under a limit consists of elements that can be read without one. -/
theorem Dump.elements_of_parse {limit : Option Nat} {octets : List UInt8} {dump : Dump}
    (within : parse limit octets = .ok dump) :
    ∃ elements, parseElements none octets = .ok elements ∧ ofElements elements = .ok dump := by
  unfold parse at within
  cases parsed : parseElements limit octets with
  | error failure =>
      rw [parsed] at within
      cases within
  | ok elements =>
      rw [parsed] at within
      exact ⟨elements, parseElements_unlimited parsed, within⟩

/-! ### Contents -/

/-- A dump that is stored as it was uploaded is opened as its graph. -/
theorem Encoding.openContent_octets {octets : List UInt8} {dump : Dump}
    (parsed : Dump.parse none octets = .ok dump) (path : String) :
    json.openContent path (.octets octets) = .ok (.ofDump dump) := by
  change Source.ofOctets octets = _
  rw [Source.ofOctets, parsed]
  rfl

theorem Encoding.openContent_tables {kind : Encoding} (notJson : kind ≠ .json) {tables : Tables}
    (ofKind : tables.kind = kind) (path : String) :
    kind.openContent path (.tables tables) = .ok (.tables tables) := by
  cases kind with
  | json => exact absurd rfl notJson
  | graph =>
      change Source.ofTables .graph path tables = _
      unfold Source.ofTables
      rw [if_pos ofKind]
  | blob =>
      change Source.ofTables .blob path tables = _
      unfold Source.ofTables
      rw [if_pos ofKind]

/-- A dump is opened as a whole, or as the tables that are stored. -/
theorem Encoding.openContent_cases {kind : Encoding} {path : String} {content : Content}
    {source : Source} (opens : kind.openContent path content = .ok source) :
    (∃ dump rows, source = .whole dump rows) ∨
      ∃ tables, content = .tables tables ∧ source = .tables tables := by
  have opensTables (kind : Encoding)
      (opens : (do Source.ofTables kind path (← content.asTables) : Except Failure Source) =
        .ok source) : ∃ tables, content = .tables tables ∧ source = .tables tables := by
    cases content with
    | tables tables =>
        refine ⟨tables, rfl, ?_⟩
        change Source.ofTables kind path tables = _ at opens
        unfold Source.ofTables at opens
        split at opens
        · cases opens
          rfl
        · cases opens
    | octets octets => cases octets <;> cases opens
    | index => cases opens
  cases kind with
  | graph => exact .inr (opensTables .graph opens)
  | blob => exact .inr (opensTables .blob opens)
  | json =>
      left
      cases content with
      | octets octets =>
          change Source.ofOctets octets = _ at opens
          unfold Source.ofOctets at opens
          cases parsed : Dump.parse none octets with
          | error failure =>
              rw [parsed] at opens
              cases opens
          | ok dump =>
              rw [parsed] at opens
              cases opens
              exact ⟨_, _, rfl⟩
      | tables tables => cases opens
      | index => cases opens

section

variable [Gzip.Compressor]

/-- What is stored of an uploaded dump in an encoding. -/
def Encoding.contentOf (kind : Encoding) (octets : List UInt8) : Except Failure Content :=
  match kind with
  | .json => .ok (.octets octets)
  | kind => do
    let elements ← Dump.parseElements none octets
    let tables ← Tables.ofElements kind elements
    return .tables tables

/-- A source that was opened from what is stored of an uploaded dump. -/
def Source.IsOf (octets : List UInt8) (source : Source) : Prop :=
  ∃ kind path content, Encoding.contentOf kind octets = .ok content ∧
    Encoding.openContent kind path content = .ok source

theorem Tables.ofElements_kind {kind : Encoding} {elements : List Element} {tables : Tables}
    (converted : ofElements kind elements = .ok tables) (notJson : kind ≠ .json) :
    tables.kind = kind := by
  unfold ofElements at converted
  cases accepted : Dump.ofElements elements with
  | error failure =>
      rw [accepted] at converted
      cases converted
  | ok dump =>
      rw [accepted] at converted
      cases kind with
      | json => exact absurd rfl notJson
      | graph =>
          cases converted
          rfl
      | blob =>
          cases converted
          rfl

theorem Encoding.contentOf_eq {kind : Encoding} (notJson : kind ≠ .json) (octets : List UInt8) :
    kind.contentOf octets = (do
      let elements ← Dump.parseElements none octets
      let tables ← Tables.ofElements kind elements
      return .tables tables) := by
  cases kind with
  | json => exact absurd rfl notJson
  | graph => rfl
  | blob => rfl

theorem Encoding.contentOf_tables {kind : Encoding} (notJson : kind ≠ .json) {octets : List UInt8}
    {elements : List Element} (parsed : Dump.parseElements none octets = .ok elements)
    {tables : Tables} (converted : Tables.ofElements kind elements = .ok tables) :
    kind.contentOf octets = .ok (.tables tables) := by
  rw [contentOf_eq notJson, parsed]
  change (Tables.ofElements kind elements >>= _) = _
  rw [converted]
  rfl

/-- Of a dump that was accepted something is stored in each encoding, and it can be opened. -/
theorem Encoding.contentOf_opens {limit : Option Nat} {octets : List UInt8} {dump : Dump}
    (accepted : Dump.parse limit octets = .ok dump) (kind : Encoding) (path : String) :
    ∃ content source, kind.contentOf octets = .ok content ∧
      kind.openContent path content = .ok source := by
  obtain ⟨elements, parsed, built⟩ := Dump.elements_of_parse accepted
  by_cases isJson : kind = .json
  · subst isJson
    refine ⟨.octets octets, .ofDump dump, rfl, ?_⟩
    have whole : Dump.parse none octets = .ok dump := by
      unfold Dump.parse
      rw [parsed]
      exact built
    change Source.ofOctets octets = _
    unfold Source.ofOctets
    rw [whole]
    rfl
  · have converted : ∃ tables, Tables.ofElements kind elements = .ok tables := by
      unfold Tables.ofElements
      rw [built]
      cases kind with
      | json => exact absurd rfl isJson
      | graph => exact ⟨_, rfl⟩
      | blob => exact ⟨_, rfl⟩
    obtain ⟨tables, converted⟩ := converted
    exact ⟨.tables tables, .tables tables, contentOf_tables isJson parsed converted,
      openContent_tables isJson (Tables.ofElements_kind converted isJson) path⟩

/-- What is stored of a dump that was accepted can be opened. -/
theorem Encoding.opens_stored {limit : Option Nat} {octets : List UInt8} {dump : Dump}
    (accepted : Dump.parse limit octets = .ok dump) {kind : Encoding} {content : Content}
    (stored : kind.contentOf octets = .ok content) (path : String) :
    ∃ source, kind.openContent path content = .ok source := by
  obtain ⟨_, source, same, opens⟩ := contentOf_opens accepted kind path
  rw [stored] at same
  cases same
  exact ⟨source, opens⟩

theorem Encoding.tables_of_contentOf {kind : Encoding} (notJson : kind ≠ .json)
    {octets : List UInt8} {content : Content} (stored : kind.contentOf octets = .ok content) :
    ∃ elements tables, Dump.parseElements none octets = .ok elements ∧
      Tables.ofElements kind elements = .ok tables ∧ content = .tables tables := by
  rw [contentOf_eq notJson] at stored
  cases parsed : Dump.parseElements none octets with
  | error failure =>
      rw [parsed] at stored
      cases stored
  | ok elements =>
      rw [parsed] at stored
      change (Tables.ofElements kind elements >>= _) = _ at stored
      cases converted : Tables.ofElements kind elements with
      | error failure =>
          rw [converted] at stored
          cases stored
      | ok tables =>
          rw [converted] at stored
          cases stored
          exact ⟨elements, tables, rfl, converted, rfl⟩

end

/-! ### Loading -/

namespace Loaded

/-- What the file of the first encoding holds gets opened if it can be. -/
theorem firstOf_head {kind : Encoding} {base : String} (others : List Encoding) {files : Files}
    {f : File} {source : Source} (stands : files.find? (kind.path base) = some (.file f))
    (opens : kind.openContent (kind.path base) f.content = .ok source) :
    firstOf base (kind :: others) files =
      (.ok ⟨kind, kind.path base, f.serial, source⟩, files.touchRead (kind.path base)) := by
  have present : files.contains (kind.path base) = true := by
    rw [Files.contains_eq, stands]
    rfl
  have serial : (files.file? (kind.path base)).elim 0 (·.serial) = f.serial := by
    rw [Files.file?_eq_some.mpr stands]
    rfl
  have loads : kind.load (kind.path base) files =
      (.ok ⟨kind, kind.path base, f.serial, source⟩, files.touchRead (kind.path base)) := by
    unfold Encoding.load
    rw [serial, Files.read_file stands]
    dsimp only
    rw [opens]
  unfold firstOf
  rw [bind_ok (get_run files)]
  simp only [present, if_true]
  rw [tryCatch_run, loads]

/-- If all files of the encodings can be opened, the first there is gets opened. -/
theorem firstOf_run {base : String} {kinds : List Encoding} {files : Files}
    (openable : ∀ kind ∈ kinds, files.find? (kind.path base) = none ∨
      ∃ f source, files.find? (kind.path base) = some (.file f) ∧
        kind.openContent (kind.path base) f.content = .ok source)
    (some : ∃ kind ∈ kinds, files.find? (kind.path base) ≠ none) :
    ∃ before kind others f source, kinds = before ++ kind :: others ∧
      (∀ other ∈ before, files.find? (other.path base) = none) ∧
      files.find? (kind.path base) = .some (.file f) ∧
      kind.openContent (kind.path base) f.content = .ok source ∧
      firstOf base kinds files =
        (.ok ⟨kind, kind.path base, f.serial, source⟩, files.touchRead (kind.path base)) := by
  induction kinds with
  | nil =>
      obtain ⟨_, listed, _⟩ := some
      cases listed
  | cons kind rest ih =>
      rcases openable kind List.mem_cons_self with absent | ⟨f, source, stands, opens⟩
      · unfold firstOf
        rw [bind_ok (get_run files)]
        have skips : files.contains (kind.path base) = false := by
          rw [Files.contains_eq, absent]
          rfl
        have others : ∃ other ∈ rest, files.find? (other.path base) ≠ none := by
          obtain ⟨other, listed, present⟩ := some
          rcases List.mem_cons.mp listed with rfl | later
          · exact absurd absent present
          · exact ⟨other, later, present⟩
        obtain ⟨before, first, behind, f, source, split, none, found⟩ :=
          ih (fun other listed => openable other (List.mem_cons_of_mem _ listed)) others
        rw [skips]
        refine ⟨kind :: before, first, behind, f, source, congrArg (kind :: ·) split, ?_, found⟩
        intro other listed
        rcases List.mem_cons.mp listed with rfl | later
        · exact absent
        · exact none other later
      · refine ⟨[], kind, rest, f, source, rfl, ?_, stands, opens, firstOf_head rest stands opens⟩
        intro other listed
        cases listed

end Loaded

end CodeNav
