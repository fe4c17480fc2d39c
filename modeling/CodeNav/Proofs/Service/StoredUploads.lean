/-
Module: CodeNav.Proofs.Service.StoredUploads
Purpose: When an upload that was stored outlasts the housekeeping that follows it.
Main exports:
  Service.Serves, Upload.Stored, Service.upload_survives_iff
-/
import CodeNav.Proofs.Gzip.Stored
import CodeNav.Proofs.Service.Housekeeping
import CodeNav.Proofs.Service.Reachable
import CodeNav.Proofs.Store.Contents

namespace CodeNav

open Stateful
open Http (Parameters Request Response Stream)

/-! ### Conversions -/

namespace Upload

/-- The last encoding is converted to last, if any is converted to. -/
theorem getLast?_enabled (flags : EncodingFlags) :
    (flags.enabled.filter (· ≠ .json)).getLast? = flags.enabled.getLast? ∨
      flags.enabled = [.json] := by
  have all : ∀ json graph blob, let kinds := (EncodingFlags.mk json graph blob).enabled
      (kinds.filter (· ≠ .json)).getLast? = kinds.getLast? ∨ kinds = [.json] := by
    decide
  exact all _ _ _

variable [Gzip.Compressor]

/-- What conversions that succeed leave, if the converter can be relied on: tables at each output,
the last of which is the newest file of all. -/
structure AllConverted (elements : List Element) (list : List (Encoding × String))
    (before after : Files) : Prop where
  others : ∀ path, path ∉ list.map (·.2) → after.find? path = before.find? path
  tables : ∀ p ∈ list, ∃ g tables, after.find? p.2 = some (.file g) ∧
    Tables.ofElements p.1 elements = .ok tables ∧ g.content = .tables tables
  newest : ∀ p, list.getLast? = some p → ∃ g, after.find? p.2 = some (.file g) ∧
    ∀ path h, path ≠ p.2 → after.find? path = some (.file h) → h.times.accessed < g.times.accessed

theorem Conversions.allConverted {converter : Converter} {input : String}
    {list : List (Encoding × String)} {a b : Files}
    (conversions : Conversions converter input list a b) (faithful : converter.Faithful) {f : File}
    {octets : List UInt8} {elements : List Element} (read : f.times.WasRead)
    (content : f.content = .octets octets)
    (parsed : Dump.parseElements none octets = .ok elements) (timely : a.Timely)
    (stands : a.find? input = some (.file f)) (absent : ∀ p ∈ list, a.find? p.2 = none)
    (distinct : (list.map (·.2)).Nodup) : AllConverted elements list a b := by
  induction conversions with
  | done files =>
      refine ⟨fun _ _ => rfl, fun p listed => ?_, fun p last => ?_⟩
      · cases listed
      · cases last
  | @next kind output rest a b c converted others ih =>
      rw [List.map_cons, List.nodup_cons] at distinct
      have free : a.find? output = none := absent (kind, output) List.mem_cons_self
      have besides := faithful.confined input output kind a f stands read free
      rw [converted] at besides
      obtain ⟨g, tables, made, ofKind, holds⟩ := faithful.writes input output kind a b f octets
        elements stands read free content parsed converted
      have inputStays : b.find? input = some (.file f) := by
        rw [besides.elsewhere, stands]
        rintro rfl
        rw [free] at stands
        cases stands
      have restAbsent : ∀ p ∈ rest, b.find? p.2 = none := by
        intro p listed
        rw [besides.elsewhere, absent p (List.mem_cons_of_mem _ listed)]
        intro same
        exact distinct.1 (List.mem_map.mpr ⟨p, listed, same⟩)
      have later := ih (besides.timely timely) inputStays restAbsent distinct.2
      have stays : c.find? output = some (.file g) := by
        rw [later.others output distinct.1, made]
      constructor
      · intro path outside
        rw [List.map_cons, List.mem_cons, not_or] at outside
        rw [later.others path outside.2, besides.elsewhere outside.1]
      · intro p listed
        rcases List.mem_cons.mp listed with rfl | listed
        · exact ⟨g, tables, stays, ofKind, holds⟩
        · exact later.tables p listed
      · intro p last
        cases rest with
        | cons next more =>
            rw [List.getLast?_cons_cons] at last
            exact later.newest p last
        | nil =>
            cases last
            refine ⟨g, stays, ?_⟩
            intro path h differs found
            rw [later.others path (by simp)] at found
            exact besides.newest timely made differs found

/-- What is ready to be moved: every encoding of the dump, the last of which is the newest file. -/
structure Holds (octets : List UInt8) (kinds : List Encoding) (place : Encoding → String)
    (files : Files) : Prop where
  contents : ∀ kind ∈ kinds, ∃ f, files.find? (place kind) = some (.file f) ∧
    kind.contentOf octets = .ok f.content
  newest : ∀ kind, kinds.getLast? = some kind → ∃ f, files.find? (place kind) = some (.file f) ∧
    ∀ path g, path ≠ place kind → files.find? path = some (.file g) →
      g.times.accessed < f.times.accessed

theorem Holds.erased {octets : List UInt8} {kinds : List Encoding} {place : Encoding → String}
    {files : Files} (holds : Holds octets kinds place files) {gone : List String}
    (elsewhere : ∀ kind, place kind ∉ gone) : Holds octets kinds place (files.eraseAll gone) := by
  constructor
  · intro kind listed
    rw [Files.find?_eraseAll, if_neg (elsewhere kind)]
    exact holds.contents kind listed
  · intro kind last
    obtain ⟨f, stands, newest⟩ := holds.newest kind last
    refine ⟨f, ?_, ?_⟩
    · rw [Files.find?_eraseAll, if_neg (elsewhere kind), stands]
    · intro path g differs found
      rw [Files.find?_eraseAll] at found
      split at found
      · cases found
      · exact newest path g differs found

section

variable {s : Service} {target : Target} {octets : List UInt8} {files : Files}

theorem Ready.allConverted (sound : s.Sound) (faithful : s.converter.Faithful)
    {elements : List Element} (parsed : Dump.parseElements none octets = .ok elements)
    (ready : Ready (stagedFile s) octets s.files { s with temporaries := s.temporaries + 1 } files) :
    ∃ seen f, Files.Besides [stagedFile s] s.files seen ∧
      seen.find? (stagedFile s) = some (.file f) ∧ f.content = .octets octets ∧
      AllConverted elements (allOutputs { s with temporaries := s.temporaries + 1 }) seen files := by
  obtain ⟨seen, f, besides, stands, content, read, conversions⟩ := ready.conversions
  refine ⟨seen, f, besides, stands, content, ?_⟩
  refine conversions.allConverted faithful read content parsed (besides.timely sound.timely)
    stands ?_ (nodup_outputs _ _ _)
  intro p listed
  rw [besides.others]
  · obtain ⟨number, low, _, named⟩ := mem_outputs listed
    rw [named]
    exact sound.fresh number p.1 (Nat.le_of_succ_le low)
  · rw [List.mem_singleton]
    intro same
    exact stagedFile_not_output s (same ▸ List.mem_map_of_mem listed)

/-- Each output, and the file received, is where it was put. -/
theorem Ready.contents (sound : s.Sound) (faithful : s.converter.Faithful)
    {elements : List Element} (parsed : Dump.parseElements none octets = .ok elements)
    (ready : Ready (stagedFile s) octets s.files { s with temporaries := s.temporaries + 1 } files)
    {p : Encoding × String} (listed : p ∈ uploadMoves s) :
    ∃ f, files.find? p.2 = some (.file f) ∧ p.1.contentOf octets = .ok f.content := by
  obtain ⟨seen, f, besides, stands, content, converted⟩ := ready.allConverted sound faithful parsed
  rcases List.mem_append.mp listed with output | kept
  · obtain ⟨g, tables, made, ofKind, holds⟩ := converted.tables p output
    have notJson : p.1 ≠ .json := by
      have kinds := map_fst_outputs s.root (s.temporaries + 1) (s.flags.enabled.filter (· ≠ .json))
      have among : p.1 ∈ s.flags.enabled.filter (· ≠ .json) := by
        rw [← kinds]
        exact List.mem_map_of_mem output
      simpa using (List.mem_filter.mp among).2
    refine ⟨g, made, ?_⟩
    rw [holds]
    exact Encoding.contentOf_tables notJson parsed ofKind
  · split at kept
    · rw [List.mem_singleton] at kept
      subst kept
      refine ⟨f, ?_, ?_⟩
      · rw [converted.others _ (stagedFile_not_output s), stands]
      · rw [content]
        rfl
    · cases kept

theorem Ready.newest (sound : s.Sound) (faithful : s.converter.Faithful)
    {elements : List Element} (parsed : Dump.parseElements none octets = .ok elements)
    (ready : Ready (stagedFile s) octets s.files { s with temporaries := s.temporaries + 1 } files)
    {kind : Encoding} (last : s.flags.enabled.getLast? = some kind) :
    ∃ source f, (kind, source) ∈ uploadMoves s ∧ files.find? source = some (.file f) ∧
      ∀ path g, path ≠ source → files.find? path = some (.file g) →
        g.times.accessed < f.times.accessed := by
  obtain ⟨seen, f, besides, stands, content, converted⟩ := ready.allConverted sound faithful parsed
  let outputs := allOutputs { s with temporaries := s.temporaries + 1 }
  rcases getLast?_enabled s.flags with same | onlyJson
  · have isLast : (outputs.map (·.1)).getLast? = some kind := by
      rw [← last, ← same]
      exact congrArg _ (map_fst_outputs _ _ _)
    rw [List.getLast?_map] at isLast
    obtain ⟨p, lastOutput, rfl⟩ := Option.map_eq_some_iff.mp isLast
    obtain ⟨g, made, older⟩ := converted.newest p lastOutput
    exact ⟨p.2, g, List.mem_append_left _ (List.mem_of_getLast? lastOutput), made, older⟩
  · rw [onlyJson] at last
    cases last
    have none : outputs = [] := by
      simp only [outputs, allOutputs, onlyJson]
      rfl
    have unconverted (path : String) : files.find? path = seen.find? path :=
      converted.others path (by
        change path ∉ outputs.map (·.2)
        rw [none]
        exact List.not_mem_nil)
    refine ⟨stagedFile s, f, ?_, ?_, ?_⟩
    · unfold uploadMoves moves
      simp [onlyJson]
    · rw [unconverted, stands]
    · intro path g differs found
      rw [unconverted] at found
      exact besides.newest sound.timely stands differs found

/-- Where a file has been moved to, it is what is stored of the upload. -/
theorem Ready.delivers (sound : s.Sound) (faithful : s.converter.Faithful)
    (flat : '/' ∉ target.commit.toList) {elements : List Element}
    (parsed : Dump.parseElements none octets = .ok elements)
    (ready : Ready (stagedFile s) octets s.files { s with temporaries := s.temporaries + 1 } files)
    {first : List (Encoding × String)} (among : first <+: uploadMoves s) {after : Files}
    (moved : Moves (s.basePath target) first files after) {p : Encoding × String}
    (listed : p ∈ first) :
    ∃ g, after.find? (p.1.path (s.basePath target)) = some (.file g) ∧
      p.1.contentOf octets = .ok g.content := by
  have kinds := (nodup_uploadMoves_kinds s).sublist (among.sublist.map Prod.fst)
  have sources := (nodup_uploadMoves_sources s).sublist (among.sublist.map Prod.snd)
  obtain ⟨f, g, source, arrived, _, content, _⟩ := moved.arrives kinds sources
    (fun p _ q member => uploadMoves_apart flat p.1 (among.subset member)) listed
  obtain ⟨f', source', stored⟩ := ready.contents sound faithful parsed (among.subset listed)
  rw [source] at source'
  cases source'
  exact ⟨g, arrived, content ▸ stored⟩

/-- Behind all moves every encoding has its file, and the last one still is the newest. -/
theorem Ready.holds (sound : s.Sound) (faithful : s.converter.Faithful)
    (flat : '/' ∉ target.commit.toList) {elements : List Element}
    (parsed : Dump.parseElements none octets = .ok elements)
    (ready : Ready (stagedFile s) octets s.files { s with temporaries := s.temporaries + 1 } files)
    {after : Files} (moved : Moves (s.basePath target) (uploadMoves s) files after) :
    Holds octets s.flags.enabled (Service.dumpFile s.root target) after := by
  have arrives := fun p (listed : p ∈ uploadMoves s) => moved.arrives (nodup_uploadMoves_kinds s)
    (nodup_uploadMoves_sources s) (fun p _ q member => uploadMoves_apart flat p.1 member) listed
  constructor
  · intro kind enabled
    obtain ⟨p, listed, rfl⟩ := List.mem_map.mp (mem_uploadMoves_kinds.mpr enabled)
    exact ready.delivers sound faithful flat parsed (List.prefix_refl _) moved listed
  · intro kind last
    obtain ⟨source, f, listed, stands, newest⟩ := ready.newest sound faithful parsed last
    obtain ⟨f', g, found, arrived, _, _, accessed⟩ := arrives (kind, source) listed
    rw [stands] at found
    cases found
    refine ⟨g, arrived, ?_⟩
    intro path h differs there
    rw [accessed]
    by_cases replaced : ∃ q ∈ uploadMoves s, q.1.path (s.basePath target) = path
    · obtain ⟨q, member, rfl⟩ := replaced
      obtain ⟨f', h', before, arrived', _, _, accessed'⟩ := arrives q member
      rw [there] at arrived'
      cases arrived'
      rw [accessed']
      refine newest q.2 f' ?_ before
      intro same
      have one : q = (kind, source) :=
        List.inj_on_of_nodup_map (nodup_uploadMoves_sources s) member listed same
      exact differs (by rw [one]; rfl)
    · have notReplaced : ∀ p ∈ uploadMoves s, p.1.path (s.basePath target) ≠ path :=
        fun p member same => replaced ⟨p, member, same⟩
      have notMoved : path ∉ (uploadMoves s).map (·.2) := by
        intro among
        rw [moved.leaves among notReplaced] at there
        cases there
      rw [moved.others notMoved notReplaced] at there
      refine newest path h ?_ there
      rintro rfl
      exact notMoved (List.mem_map.mpr ⟨(kind, path), listed, rfl⟩)

/-- What a service holds once an upload was accepted. -/
structure Stored (target : Target) (octets : List UInt8) (s t : Service) : Prop where
  accepted : ∃ dump, Dump.parse (some s.limits.maxUploadBytes) octets = .ok dump
  holds : Holds octets s.flags.enabled (Service.dumpFile s.root target) t.files
  notOpen : t.databases.entries.find? target.key = none
  root : t.root = s.root
  flags : t.flags = s.flags
  limits : t.limits = s.limits
  sizes : t.sizes = s.sizes

theorem accept_stored {announced : Option Nat} {body : Stream} {size : Nat} {t : Service}
    (sound : s.Sound) (faithful : s.converter.Faithful) (flat : '/' ∉ target.commit.toList)
    (run : accept target announced body s = (.ok size, t)) :
    size = body.portions.flatten.length ∧ Stored target body.portions.flatten s t := by
  have accepted := accept_run sound target announced body
  rw [run] at accepted
  generalize result : (Except.ok size, t) = outcome at accepted
  cases accepted with
  | turnedDown rejection files temporaries besides later never => cases congrArg Prod.fst result
  | committed size' dump converted ready committed outcome reaches committing =>
      have committing' := commit_run target (stagedFile s) dump converted ready
      rw [committing] at committing'
      cases outcome with
      | error failure => cases congrArg Prod.fst result
      | ok done =>
          cases congrArg Prod.fst result
          obtain rfl : t = { committed with files := committed.files.eraseAll [stagedFile s] } :=
            congrArg Prod.snd result
          obtain ⟨files, length, parsed, rfl, rfl, standing⟩ := reaches.ready sound
          refine ⟨length, ?_⟩
          obtain ⟨elements, read, _⟩ := Dump.elements_of_parse parsed
          cases committing' with
          | ok after index moved usable =>
              have holds := standing.holds sound faithful flat read moved
              refine ⟨⟨dump, parsed⟩, ?_, ?_, rfl, rfl, rfl, rfl⟩
              · refine holds.erased fun kind => ?_
                rw [List.mem_singleton]
                exact Service.dumpFile_ne_temporary flat kind .json s.temporaries
              · exact Service.find?_evictKey target.key _

end

end Upload

/-! ### Serving -/

namespace Service

theorem present_of_hasData {s : Service} {target : Target} (hasData : s.hasData target)
    {parameters : Parameters} (valid : Endpoint.targetOf parameters = .ok target)
    (noFile : parameters.get? "file" = none) :
    (Endpoint.answerPresence parameters s).1 = .ok (.json .ok (.bool true)) := by
  have present : Endpoint.isPresent target none s = (.ok true, s) := by
    unfold Endpoint.isPresent
    rw [bind_ok (get_run s), hasData]
    rfl
  unfold Endpoint.answerPresence
  rw [valid, noFile]
  change ((RequestM.ofService (Endpoint.isPresent target none) >>= fun found =>
    (pure (.json .ok (.bool found)) : RequestM Response)) s).1 = _
  rw [bind_ok (show RequestM.ofService (Endpoint.isPresent target none) s = (.ok true, s) by
    unfold RequestM.ofService
    rw [present]
    rfl)]
  rfl

/-- What was opened from a file that stands is read from, as long as it is not closed. -/
theorem source_stored {s : Service} (database : Database) {f : File}
    (opened : database.handle ∉ s.closed)
    (stands : s.files.find? database.loaded.path = some (.file f))
    (serial : f.serial = database.loaded.serial)
    (opens : database.loaded.kind.openContent database.loaded.path f.content =
      .ok database.loaded.source) :
    ∃ files, source database s = (.ok database.loaded.source, { s with files }) ∧
      ReadOnly s.files files := by
  have notClosed : s.closed.contains database.handle = false := by simpa using opened
  unfold source
  rw [bind_ok (get_run s)]
  simp only [notClosed, Bool.false_eq_true, if_false]
  rcases Encoding.openContent_cases opens with ⟨dump, rows, whole⟩ | ⟨tables, content, same⟩
  · rw [whole]
    exact ⟨s.files, rfl, .refl s.files⟩
  · rw [same]
    refine ⟨s.files.touchRead database.loaded.path, ?_, .touchRead _ _⟩
    change currentTables database tables s = _
    unfold currentTables
    rw [bind_ok (get_run s), Files.file?_eq_some.mpr stands]
    simp only [serial, bne_self_eq_false, Bool.false_eq_true, if_false, content]
    rfl

/-- The data of a target are among the stored files. -/
theorem storedFiles_ne_nil_of_hasData {s : Service} {target : Target}
    (flat : '/' ∉ target.commit.toList)
    (plain : ∀ kind ∈ s.flags.enabled,
      s.files.find? (dumpFile s.root target kind) ≠ some .directory)
    (hasData : s.hasData target) : Quota.storedFiles s.sizes s.files s.root ≠ [] := by
  obtain ⟨kind, enabled, present⟩ := List.any_eq_true.mp hasData
  rw [Files.contains_eq] at present
  obtain ⟨entry, stands⟩ := Option.isSome_iff_exists.mp present
  cases entry with
  | directory => exact absurd stands (plain kind enabled)
  | file f => exact List.ne_nil_of_mem (Quota.dumpFile_stored _ flat stands)

section

variable [Gzip.Compressor]

/-- An uploaded dump is served for a target: there is data, inquiries are told so, and the database
that is opened for the target is one of that dump. -/
structure Serves (s : Service) (target : Target) (octets : List UInt8) : Prop where
  hasData : s.hasData target
  present : ∀ parameters, Endpoint.targetOf parameters = .ok target →
    parameters.get? "file" = none →
    (Endpoint.answerPresence parameters s).1 = .ok (.json .ok (.bool true))
  opens : ∃ database t, openDatabase target s = (.ok database, t) ∧
    ∃ found u, source database t = (.ok found, u) ∧ found.IsOf octets

/-- If all files of a target can be opened, the dump that is served is the one in the first of its
enabled encodings that has a file. -/
theorem serves_first {s : Service} {target : Target} (registered : Registered s.databases s.closed)
    (notOpen : s.databases.entries.find? target.key = none)
    (openable : ∀ kind ∈ s.flags.enabled, s.files.find? (dumpFile s.root target kind) = none ∨
      ∃ f source, s.files.find? (dumpFile s.root target kind) = some (.file f) ∧
        kind.openContent (dumpFile s.root target kind) f.content = .ok source)
    (left : ∃ kind ∈ s.flags.enabled, s.files.find? (dumpFile s.root target kind) ≠ none) :
    ∃ before kind others f, s.flags.enabled = before ++ kind :: others ∧
      (∀ other ∈ before, s.files.find? (dumpFile s.root target other) = none) ∧
      s.files.find? (dumpFile s.root target kind) = some (.file f) ∧
      ∀ octets, kind.contentOf octets = .ok f.content → s.Serves target octets := by
  have hasData : s.hasData target := by
    obtain ⟨kind, enabled, present⟩ := left
    refine List.any_eq_true.mpr ⟨kind, enabled, ?_⟩
    rw [Files.contains_eq]
    exact Option.isSome_iff_ne_none.mpr present
  obtain ⟨before, kind, others, f, found, split, absent, stands, opens, loads⟩ :=
    Loaded.firstOf_run openable left
  refine ⟨before, kind, others, f, split, absent, stands, fun octets stored => ?_⟩
  refine ⟨hasData, fun parameters valid noFile => present_of_hasData hasData valid noFile, ?_⟩
  let loaded : Loaded := ⟨kind, dumpFile s.root target kind, f.serial, found⟩
  let files := s.files.touchRead loaded.path
  have run := openDatabase_miss notOpen loads
  refine ⟨_, _, run, found, ?_⟩
  obtain ⟨g, there, serial, content⟩ := (Files.Alike.touchRead s.files loaded.path).symm.file stands
  obtain ⟨_, reads, _⟩ := source_stored ⟨s.databases.loads.size, target, loaded⟩
    (s := s.withLoad target (.ok loaded) files) (loaded_not_closed registered notOpen loaded files)
    there serial (content ▸ opens)
  exact ⟨_, reads, kind, loaded.path, f.content, stored, opens⟩

/-- A dump is served as long as one of its files is left. -/
theorem serves_of_some {s : Service} {target : Target} {octets : List UInt8} {limit : Option Nat}
    {dump : Dump} (registered : Registered s.databases s.closed)
    (accepted : Dump.parse limit octets = .ok dump)
    (notOpen : s.databases.entries.find? target.key = none)
    (hold : ∀ kind ∈ s.flags.enabled, s.files.find? (dumpFile s.root target kind) = none ∨
      ∃ f, s.files.find? (dumpFile s.root target kind) = some (.file f) ∧
        kind.contentOf octets = .ok f.content)
    (left : ∃ kind ∈ s.flags.enabled, s.files.find? (dumpFile s.root target kind) ≠ none) :
    s.Serves target octets := by
  have openable : ∀ kind ∈ s.flags.enabled, s.files.find? (dumpFile s.root target kind) = none ∨
      ∃ f source, s.files.find? (dumpFile s.root target kind) = some (.file f) ∧
        kind.openContent (dumpFile s.root target kind) f.content = .ok source := by
    intro kind enabled
    rcases hold kind enabled with absent | ⟨f, stands, stored⟩
    · exact .inl absent
    · obtain ⟨source, opens⟩ := Encoding.opens_stored accepted stored (dumpFile s.root target kind)
      exact .inr ⟨f, source, stands, opens⟩
  obtain ⟨before, kind, others, f, split, _, stands, serves⟩ :=
    serves_first registered notOpen openable left
  have enabled : kind ∈ s.flags.enabled := by
    rw [split]
    exact List.mem_append_right _ List.mem_cons_self
  rcases hold kind enabled with absent | ⟨g, there, stored⟩
  · rw [stands] at absent
    cases absent
  · rw [stands] at there
    cases there
    exact serves octets stored

/-- An upload that was stored is kept by the housekeeping behind it if and only if what was written
last, by itself, takes no more than the limit. If it is not kept, no stored dump is. -/
theorem kept_iff {s t after : Service} {target : Target} {octets : List UInt8} {kind : Encoding}
    (flat : '/' ∉ target.commit.toList) (stored : Upload.Stored target octets s t)
    (registered : Registered after.databases after.closed)
    (last : s.flags.enabled.getLast? = some kind) {most : Nat} {report : Quota.Report}
    {metrics : Metrics} {left : Service} (run : Quota.enforce most t = (.ok report, left))
    (counted : after = { left with metrics }) :
    ∃ content, kind.contentOf octets = .ok content ∧
      (after.Serves target octets ↔ content.size s.sizes ≤ most) ∧
      (¬ after.Serves target octets →
        Quota.storedFiles after.sizes after.files after.root = []) := by
  obtain ⟨dump, accepted⟩ := stored.accepted
  obtain ⟨f, stands, newest⟩ := stored.holds.newest kind last
  obtain ⟨f', stands', content⟩ := stored.holds.contents kind (List.mem_of_getLast? last)
  rw [stands] at stands'
  cases stands'
  let file : Quota.StoredFile :=
    ⟨dumpFile s.root target kind, target.key, f.content.size s.sizes, f.times.accessed⟩
  have listed : file ∈ Quota.storedFiles t.sizes t.files t.root := by
    rw [stored.root, stored.sizes]
    exact Quota.dumpFile_stored _ flat stands
  obtain ⟨gone, deleted, outcome⟩ :=
    Quota.enforce_newest run listed (Quota.accessed_lt_of_newest listed newest)
  rw [deleted.frame] at counted outcome
  have root : after.root = s.root := by rw [counted, ← stored.root]
  have flags : after.flags = s.flags := by rw [counted, ← stored.flags]
  have files : after.files = t.files.eraseAll gone := by rw [counted]
  have notOpen : after.databases.entries.find? target.key = none := by
    rw [counted]
    exact deleted.notOpen _ stored.notOpen
  refine ⟨f.content, content, ?_⟩
  by_cases large : most < f.content.size s.sizes
  · rw [if_pos large] at outcome
    have outcome : Quota.storedFiles after.sizes after.files after.root = [] := by
      rw [counted]
      exact outcome
    refine ⟨⟨fun serves => ?_, fun small => absurd large (Nat.not_lt.mpr small)⟩, fun _ => outcome⟩
    refine absurd outcome (storedFiles_ne_nil_of_hasData flat ?_ serves.hasData)
    intro other enabled
    obtain ⟨g, there, _⟩ := stored.holds.contents other (flags ▸ enabled)
    rw [files, Files.find?_eraseAll, root, there]
    split <;> simp
  · rw [if_neg large] at outcome
    have serves : after.Serves target octets := by
      refine serves_of_some registered accepted notOpen ?_ ?_
      · intro other enabled
        rw [root, files, Files.find?_eraseAll]
        split
        · exact .inl rfl
        · exact .inr (stored.holds.contents other (flags ▸ enabled))
      · refine ⟨kind, flags ▸ List.mem_of_getLast? last, ?_⟩
        rw [root, files, Files.find?_eraseAll, if_neg outcome, stands]
        simp
    exact ⟨⟨fun _ => Nat.not_lt.mp large, fun _ => serves⟩, fun none => absurd serves none⟩

/-- An upload that is answered with success is served directly afterwards if and only if what it
has written last, by itself, takes no more than the soft limit less the size of the upload. If it
is not served, housekeeping has left no stored dump at all. -/
theorem upload_survives_iff {s after : Service} (reachable : s.Reachable)
    (faithful : s.converter.Faithful) {request : Request} (upload : IsUpload request)
    (elapsed : Binary64) {response : Response}
    (answered : respond elapsed request s = (response, after)) (success : response.status = .ok)
    {target : Target} (names : Endpoint.NamesTarget request target) {kind : Encoding}
    (last : s.flags.enabled.getLast? = some kind) :
    ∃ content, kind.contentOf request.body.portions.flatten = .ok content ∧
      (after.Serves target request.body.portions.flatten ↔
        content.size s.sizes ≤ s.limits.softMaxBytes - request.body.portions.flatten.length) ∧
      (¬ after.Serves target request.body.portions.flatten →
        Quota.storedFiles after.sizes after.files after.root = []) := by
  have sound : after.Sound := by
    have reached := (reachable.respond elapsed request).sound
    rw [answered] at reached
    exact reached
  rw [respond_upload upload] at answered
  have uploading := Endpoint.upload_answered elapsed request s
  rw [answered] at uploading
  cases uploading with
  | noTarget response metrics unnamed => exact absurd names (unnamed target)
  | rejected other rejection t metrics also run =>
      exact absurd success (Upload.refuses_accept _ _ _ s rejection t run)
  | stored other size t also run =>
      obtain rfl := names.unique also
      obtain ⟨rfl, stored⟩ := Upload.accept_stored reachable.sound faithful names.flat run
      let octets := request.body.portions.flatten
      let u : Service := { t with metrics := t.metrics.addUpload octets.length }
      let most := u.limits.softMaxBytes - octets.length
      obtain ⟨report, v, _, keeps, enforced, _⟩ := Endpoint.houseKeep_run octets.length u
      have most_eq : most = s.limits.softMaxBytes - octets.length :=
        congrArg (fun limits => limits.softMaxBytes - octets.length) stored.limits
      rw [← most_eq]
      have counted : Upload.Stored target octets s u :=
        ⟨stored.accepted, stored.holds, stored.notOpen, stored.root, stored.flags, stored.limits,
          stored.sizes⟩
      exact kept_iff names.flat counted sound.registered last enforced keeps

end

open scoped Gzip

/-- A service that keeps dumps as they are, within a limit. -/
def keeping (softMaxBytes : Nat) : Service :=
  .start "dumps" ⟨true, false, false⟩ ⟨softMaxBytes, 1000, 1000, 1000⟩ (bareTree "dumps")
    (.available .empty) Converter.builtin

/-- The target that the small upload is for. -/
def smallTarget : Target :=
  ⟨"r", "0000000000000000000000000000000000000000"⟩

theorem smallUpload_names : Endpoint.NamesTarget smallUpload smallTarget :=
  ⟨[("repository", "r"), ("commit", "0000000000000000000000000000000000000000")],
    by decide +kernel, by decide +kernel⟩

/-- Within twice its size and more, an upload is kept. -/
theorem keeping_serves :
    (respond (.ofNat 0) smallUpload (keeping 100)).2.Serves smallTarget
      smallUpload.body.portions.flatten := by
  obtain ⟨content, stored, serves, _⟩ := upload_survives_iff (s := keeping 100)
    (reachable_bareTree _ _ _ _) Converter.builtin_faithful isUpload_smallUpload (.ofNat 0) rfl
    (by decide +kernel) smallUpload_names rfl
  cases stored
  exact serves.mpr (by decide +kernel)

/-- An upload may be deleted by its own housekeeping, even though it is smaller than the limit. -/
theorem upload_may_not_survive :
    ¬ ∀ (s : Service) (request : Request) (elapsed : Binary64) (target : Target), s.Reachable →
      s.converter.Faithful → s.flags.enabled ≠ [] → IsUpload request →
      (respond elapsed request s).1.status = .ok → Endpoint.NamesTarget request target →
      (respond elapsed request s).2.Serves target request.body.portions.flatten := by
  intro claim
  have serves := claim (keeping 50) smallUpload (.ofNat 0) smallTarget (reachable_bareTree _ _ _ _)
    Converter.builtin_faithful (by decide) isUpload_smallUpload (by decide +kernel)
    smallUpload_names
  have none : (respond (.ofNat 0) smallUpload (keeping 50)).2.hasData smallTarget = false := by
    decide +kernel
  exact absurd serves.hasData (by rw [none]; decide)

end Service

end CodeNav
