/-
Module: CodeNav.Proofs.Service.LaterQueries
Purpose: When queries that begin behind an upload are answered from the dump that was uploaded.
Main exports:
  Race.Phase, Race.phase_play, Race.servesLater_iff, Service.later_queries_may_be_stale
-/
import CodeNav.Proofs.Service.Invalidation

namespace CodeNav

open Stateful

namespace Race

open Service

/-! ### The upload up to its invalidation -/

/-- A race for a target on a service with the settings and the index of an earlier one. -/
structure Regular (s : Service) (target : Target) (race : Race) : Prop where
  target : race.target = target
  root : race.service.root = s.root
  flags : race.service.flags = s.flags
  index : race.service.index = s.index
  registered : Registered race.service.databases race.service.closed
  knows : race.Knows

section

variable {s : Service} {target : Target} {race : Race} (regular : race.Regular s target)
include regular

theorem Regular.reader [Gzip.Compressor] {number : Nat} {path : String} {stage later : Reader.Stage}
    {service : Service} (stands : race.readers[number]? = some ⟨path, stage⟩)
    (stepped : Reader.Stepped race.target path race.service stage later service) :
    Regular s target
      { race with service, readers := race.readers.set number ⟨path, later⟩ } := by
  have reads := stepped.reads regular.registered
  exact ⟨regular.target, reads.root.trans regular.root, reads.flags.trans regular.flags,
    reads.index.trans regular.index, reads.registered,
    regular.knows.reader regular.registered stands stepped⟩

theorem Regular.arrival (path : String) :
    Regular s target { race with readers := race.readers ++ [⟨path, .begun⟩] } :=
  { regular with knows := regular.knows.arrival path }

theorem Regular.basePath : race.service.basePath target = s.basePath target :=
  congrArg (Files.join · target.key) regular.root

end

variable [Gzip.Compressor]

/-- How far an upload has come. While files are moved, queries change nothing but times; behind the
eviction the target can only be opened with a source. -/
inductive Phase (s : Service) (target : Target) (octets : List UInt8) (file : String)
    (source : Source) (list : List (Encoding × String)) (before : Files) (race : Race) : Prop where
  | moving (regular : race.Regular s target) (done rest : List (Encoding × String)) (files : Files)
      (split : list = done ++ rest)
      (pending : race.pending = UploadStep.inOrder (s.basePath target) rest)
      (moved : Upload.Moves (s.basePath target) done before files)
      (alike : race.service.files.Alike files)
  | evicted (regular : race.Regular s target) (pending : race.pending = [.invalidate, .record])
      (loaded : Loaded) (path : loaded.path = file) (same : loaded.source = source)
      (renewed : race.service.Renewed target octets loaded)
  | forgotten (few : race.pending.length < 2)

section

variable {s : Service} {target : Target} {octets : List UInt8} {kind : Encoding} {source : Source}
  {list : List (Encoding × String)} {before : Files} {race next : Race}
  (first : s.flags.enabled.head? = some kind)
  (complete : ∀ files, Upload.Moves (s.basePath target) list before files →
    ∃ f, files.find? (kind.path (s.basePath target)) = some (.file f) ∧
      kind.contentOf octets = .ok f.content ∧
      kind.openContent (kind.path (s.basePath target)) f.content = .ok source)
include first complete

/-- The first step behind the moves is the eviction, which finds everything in place. -/
theorem Regular.evicted (regular : race.Regular s target) {files : Files} {service : Service}
    (moved : Upload.Moves (s.basePath target) list before files)
    (alike : race.service.files.Alike files)
    (run : UploadStep.evict.run race.target race.dump race.service = (.ok (), service)) :
    Phase s target octets (kind.path (s.basePath target)) source list before
      { race with service, pending := [.invalidate, .record] } := by
  obtain ⟨f, stands, stored, opens⟩ := complete files moved
  obtain ⟨g, there, serial, content⟩ := alike.symm.file stands
  rw [← content] at stored opens
  obtain ⟨found, evicted⟩ := evictKey_ok race.target.key race.service
  have after : service = (evict race.target race.service).2 := by
    have ran : UploadStep.evict.run race.target race.dump race.service =
        (.ok (), (evict race.target race.service).2) := bind_ok evicted
    rw [ran] at run
    cases run
    rfl
  have frame := evictKey_frame race.target.key race.service
  have knows : Knows { race with service, pending := [.invalidate, .record] } := by
    intro reader listed database reads
    obtain ⟨load, loaded, opened⟩ := regular.knows reader listed database reads
    refine ⟨load, ?_, opened⟩
    rw [after, ← loaded]
    exact congrArg (·[database.handle]?) (loads_evictKey race.target.key race.service)
  subst after
  have base := regular.basePath
  refine .evicted ⟨regular.target, ?_, ?_, ?_, ?_, knows⟩ rfl
    ⟨kind, kind.path (s.basePath target), g.serial, source⟩ rfl rfl ?_
  · exact (congrArg Service.root frame).trans regular.root
  · exact (congrArg Service.flags frame).trans regular.flags
  · exact (congrArg Service.index frame).trans regular.index
  · exact registered_evictKey race.target.key _ regular.registered
  · rw [← base] at there opens ⊢
    rw [regular.target]
    exact renewed_evict regular.registered (regular.flags ▸ first) there stored opens

omit first complete in
/-- A step that moves a file moves it in the tree that nobody reads, too. -/
theorem Regular.moved (regular : race.Regular s target) {done rest : List (Encoding × String)}
    {files : Files} {source : String} {moving : Encoding} {service : Service}
    (split : list = done ++ (moving, source) :: rest)
    (moved : Upload.Moves (s.basePath target) done before files)
    (alike : race.service.files.Alike files)
    (run : (UploadStep.move (s.basePath target) source moving).run race.target race.dump
      race.service = (.ok (), service)) {file : String} {dump : Source} :
    Phase s target octets file dump list before
      { race with service, pending := UploadStep.inOrder (s.basePath target) rest } := by
  have placed := Upload.place_run (s.basePath target) source moving race.service
  rw [show Upload.place (s.basePath target) source moving race.service = _ from run] at placed
  cases renamed : race.service.files.rename source (moving.path (s.basePath target)) with
  | mk outcome after =>
      rw [renamed] at placed
      cases outcome with
      | error fault => cases placed
      | ok done' =>
          cases placed
          obtain ⟨other, follows, alike⟩ := alike.rename renamed
          refine .moving { regular with } (done ++ [(moving, source)]) rest other ?_ rfl
            (moved.snoc follows) alike
          rw [split, List.append_assoc]
          rfl

theorem Phase.turned
    (phase : race.Phase s target octets (kind.path (s.basePath target)) source list before)
    (turned : race.Turned next) :
    next.Phase s target octets (kind.path (s.basePath target)) source list before := by
  cases phase with
  | forgotten few =>
      cases turned with
      | upload pending run =>
          rw [pending, List.length_cons] at few
          exact .forgotten (Nat.lt_of_succ_lt few)
      | reader stands stepped => exact .forgotten few
      | arrival path => exact .forgotten few
  | evicted regular pending loaded path same renewed =>
      cases turned with
      | upload pending' run =>
          rw [pending] at pending'
          cases pending'
          exact .forgotten (by simp)
      | reader stands stepped =>
          have reads := regular.target ▸ stepped.reads regular.registered
          exact .evicted (regular.reader stands stepped) pending loaded path same
            (renewed.reads reads)
      | arrival path' => exact .evicted (regular.arrival path') pending loaded path same renewed
  | moving regular done rest files split pending moved alike =>
      cases turned with
      | arrival path =>
          exact .moving (regular.arrival path) done rest files split pending moved alike
      | reader stands stepped =>
          have reads := stepped.reads regular.registered
          exact .moving (regular.reader stands stepped) done rest files split pending moved
            (reads.files.alike.trans alike)
      | @upload step others service pending' run =>
          rw [pending] at pending'
          cases rest with
          | nil =>
              cases pending'
              rw [List.append_nil] at split
              exact regular.evicted first complete (split ▸ moved) alike run
          | cons next rest =>
              cases pending'
              exact regular.moved split moved alike run

end

end Race

/-! ### Whole uploads -/

namespace Race

open Service
open Upload (ReachesMoves stagedFile uploadMoves)

section

variable [Gzip.Compressor] {s : Service} {target : Target} {announced : Option Nat}
  {request : Http.Request} {size : Nat} {dump : Dump} {converted : List (Encoding × String)}
  {ready : Service}

/-- Wherever turns have led, the upload is at the phase that its steps tell. -/
theorem phase_play (reachable : s.Reachable) (faithful : s.converter.Faithful)
    (names : Endpoint.NamesTarget request target) {kind : Encoding}
    (first : s.flags.enabled.head? = some kind)
    (reaches : ReachesMoves announced request.body s size dump converted ready) :
    ∃ content source before, kind.contentOf request.body.portions.flatten = .ok content ∧
      kind.openContent (kind.path (s.basePath target)) content = .ok source ∧
      ∀ turns race, (start target (stagedFile s) dump converted ready).play turns = some race →
        race.Phase s target request.body.portions.flatten (kind.path (s.basePath target)) source
          (uploadMoves s) before := by
  have sound := reachable.sound
  obtain ⟨files, _, parsed, rfl, rfl, standing⟩ := reaches.ready sound
  obtain ⟨elements, read, _⟩ := Dump.elements_of_parse parsed
  obtain ⟨content, source, stored, opens⟩ :=
    Encoding.contentOf_opens parsed kind (kind.path (s.basePath target))
  refine ⟨content, source, files, stored, opens, fun turns race played => ?_⟩
  have complete (after : Files)
      (moved : Upload.Moves (s.basePath target) (uploadMoves s) files after) :
      ∃ f, after.find? (kind.path (s.basePath target)) = some (.file f) ∧
        kind.contentOf request.body.portions.flatten = .ok f.content ∧
        kind.openContent (kind.path (s.basePath target)) f.content = .ok source := by
    have holds := standing.holds sound faithful names.flat read moved
    obtain ⟨f, stands, contents⟩ := holds.contents kind (List.mem_of_head? first)
    rw [stored] at contents
    cases contents
    exact ⟨f, stands, stored, opens⟩
  refine play_keeps (fun _ _ => Phase.turned first complete) ?_ played
  refine .moving ⟨rfl, rfl, rfl, rfl, sound.registered, ?_⟩ [] (uploadMoves s) files rfl rfl
    (.done files) (.refl files)
  intro reader listed
  cases listed

/-- Behind an upload that goes through, all later queries are answered from the dump that was
uploaded if and only if, when the documents of the target are forgotten, no query under way has
fetched a document that differs from the one uploaded without having put it in the cache yet. -/
theorem servesLater_iff (reachable : s.Reachable) (faithful : s.converter.Faithful)
    (names : Endpoint.NamesTarget request target) {kind : Encoding}
    (first : s.flags.enabled.head? = some kind) {index : PackageIndex}
    (usable : s.index = .available index)
    (reaches : ReachesMoves announced request.body s size dump converted ready)
    {turns : List Turn} {race behind : Race}
    (played : (start target (stagedFile s) dump converted ready).play turns = some race)
    (about : race.pending = [.invalidate, .record]) (forgets : race.turn .upload = some behind) :
    ∃ content source, kind.contentOf request.body.portions.flatten = .ok content ∧
      kind.openContent (kind.path (s.basePath target)) content = .ok source ∧
      (behind.ServesLater source ↔
        ∀ reader ∈ race.readers, ¬ reader.HoldsStale (kind.path (s.basePath target)) source) := by
  obtain ⟨content, source, before, stored, opens, phases⟩ :=
    phase_play reachable faithful names first reaches
  refine ⟨content, source, stored, opens, ?_⟩
  cases phases turns race played with
  | forgotten few =>
      rw [about] at few
      exact absurd few (by simp)
  | moving regular done rest files split pending moved alike =>
      have lengths := congrArg List.length (about.symm.trans pending)
      simp [UploadStep.inOrder] at lengths
  | evicted regular pending loaded path same renewed =>
      have ofTarget := regular.target
      subst same ofTarget
      have file : loaded.path ∈ race.service.targetFiles race.target := by
        rw [path, ← regular.basePath]
        exact List.mem_map.mpr ⟨kind, by cases kind <;> decide, rfl⟩
      rw [← path]
      exact invalidated_iff renewed file regular.knows about (regular.index.trans usable) forgets

end

end Race

/-! ### A query that is late -/

namespace Race

open Upload (ReachesMoves stagedFile)

/-- The race for an upload that was received, checked and converted while nobody asked. -/
def ofUpload (target : Target) (body : Http.Stream) (s : Service) : Option Race :=
  let named := { s with temporaries := s.temporaries + 1 }
  match Upload.receive body (stagedFile s) s.limits.maxUploadBytes named with
  | (.error _, _) => none
  | (.ok _, received) =>
    match Upload.prepare (stagedFile s) received with
    | (.error _, _) => none
    | (.ok (dump, converted), ready) => some (start target (stagedFile s) dump converted ready)

theorem ofUpload_reaches {target : Target} {body : Http.Stream} {s : Service} {race : Race}
    (begun : ofUpload target body s = some race) : ∃ size dump converted ready,
      ReachesMoves none body s size dump converted ready ∧
      race = start target (stagedFile s) dump converted ready := by
  unfold ofUpload at begun
  dsimp only at begun
  split at begun
  · cases begun
  · rename_i size received receives
    split at begun
    · cases begun
    · rename_i dump converted ready prepares
      cases begun
      have within : ∀ announced ∈ (none : Option Nat), announced ≤ s.limits.maxUploadBytes :=
        fun _ never => absurd never (Option.not_mem_none _)
      exact ⟨size, dump, converted, ready, ⟨within, received, receives, prepares⟩, rfl⟩

end Race

namespace Service

open scoped Gzip
open Http (Request)
open Upload (ReachesMoves stagedFile)

/-- Tables with one document, which is stored without being compressed. -/
def documentTables : Tables :=
  .blob ⟨none, (∅ : Std.ExtTreeMap String String).insert "p" "d",
    (∅ : Std.ExtTreeMap String (List UInt8)).insert "d"
      (Utf8.encode "\x7b\"ranges\":\x7b\x7d,\"orderedRanges\":[]\x7d"), ⟨∅, ∅⟩⟩

/-- A tree in which those tables are stored. -/
def documentTree : Files :=
  ((bareTree "dumps").write (dumpFile "dumps" smallTarget .blob) (.tables documentTables)).2

/-- A service on that tree. -/
def documentService : Service :=
  .start "dumps" ⟨false, false, true⟩ ⟨1000, 1000, 1000, 1000⟩ documentTree
    (.available .empty) Converter.builtin

theorem reachable_documentService : documentService.Reachable := by
  have absent : (bareTree "dumps").find? (dumpFile "dumps" smallTarget .blob) = none := by
    decide +kernel
  have besides := Files.Besides.write (.tables documentTables) absent
  refine .start _ _ _ _ _ _ _ (besides.timely (bareTree_timely _)) ?_
    Converter.builtin_faithful.confined
  intro number kind
  rw [documentTree, besides.others, bareTree_temporaryFile]
  rw [List.mem_singleton]
  exact fun same => dumpFile_ne_temporary (by decide +kernel) .blob kind number same.symm

/-- The race for the small upload, which holds no document. -/
def documentRace : Option Race :=
  Race.ofUpload smallTarget smallUpload.body documentService

theorem smallUpload_answers : ∃ content source,
    Encoding.contentOf .blob smallUpload.body.portions.flatten = .ok content ∧
      Encoding.openContent .blob (dumpFile "dumps" smallTarget .blob) content = .ok source ∧
      ∀ document, source.answer "p" ≠ .ok document := by
  have opened : (match Encoding.contentOf .blob smallUpload.body.portions.flatten with
      | .ok content =>
        (Encoding.openContent .blob (dumpFile "dumps" smallTarget .blob) content).toOption.any
          fun source => !(source.answer "p").isOk
      | .error _ => false) = true := by
    decide +kernel
  cases stored : Encoding.contentOf .blob smallUpload.body.portions.flatten with
  | error failure =>
      rw [stored] at opened
      cases opened
  | ok content =>
      rw [stored] at opened
      dsimp only at opened
      cases opens : Encoding.openContent .blob (dumpFile "dumps" smallTarget .blob) content with
      | error failure =>
          rw [opens] at opened
          cases opened
      | ok source =>
          rw [opens] at opened
          refine ⟨content, source, rfl, opens, fun document same => ?_⟩
          simp [Except.toOption, same, Except.isOk, Except.toBool] at opened

/-- A query fetches the document before the upload closes what it was read from. -/
def lateTurns : List Race.Turn :=
  [.arrival "p", .reader 0, .reader 0, .reader 0, .upload, .upload]

/-- The documents of the target are about to be forgotten, while a query holds one of them. -/
def holdsDocument (race : Race) : Bool :=
  match race.pending, race.readers with
  | [.invalidate, .record], [⟨path, .fetched database octets⟩] =>
    path == "p" && database.loaded.path == dumpFile "dumps" smallTarget .blob
      && (Document.decode octets).isOk
  | _, _ => false

theorem late_holdsDocument :
    (documentRace.bind (·.play lateTurns)).any holdsDocument = true := by
  decide +kernel

theorem holdsStale_of_holdsDocument {race : Race} {source : Source} (holds : holdsDocument race)
    (differs : ∀ document, source.answer "p" ≠ .ok document) :
    race.pending = [.invalidate, .record] ∧
      ∃ reader ∈ race.readers, reader.HoldsStale (dumpFile "dumps" smallTarget .blob) source := by
  unfold holdsDocument at holds
  split at holds
  · rename_i path database octets pending readers
    simp only [Bool.and_eq_true, beq_iff_eq] at holds
    obtain ⟨⟨rfl, file⟩, decodes⟩ := holds
    refine ⟨pending, ⟨"p", .fetched database octets⟩, by simp [readers], ?_⟩
    cases decoded : Document.decode octets with
    | error failure =>
        rw [decoded] at decodes
        cases decodes
    | ok document =>
        exact ⟨database, octets, document, "p", rfl, decoded, by rw [file], differs document⟩
  · cases holds

/-- Forgetting documents cannot fail. -/
theorem turn_invalidate {race : Race} (about : race.pending = [.invalidate, .record]) :
    ∃ behind, race.turn .upload = some behind := by
  obtain ⟨count, forgotten⟩ := invalidate_run race.target race.service
  exact ⟨_, Race.turn_upload about (bind_ok forgotten)⟩

/-- A query that is late makes later ones be answered from a dump that is stored no more. -/
theorem lateQuery_spoils : ∃ start race behind content source, documentRace = some start ∧
    start.play lateTurns = some race ∧ race.turn .upload = some behind ∧
    Encoding.contentOf .blob smallUpload.body.portions.flatten = .ok content ∧
    Encoding.openContent .blob (dumpFile "dumps" smallTarget .blob) content = .ok source ∧
    ¬ behind.ServesLater source := by
  obtain ⟨race, played, holds⟩ := Option.any_eq_true _ _ |>.mp late_holdsDocument
  obtain ⟨start, begun, played⟩ := Option.bind_eq_some_iff.mp played
  obtain ⟨size, dump, converted, ready, reaches, rfl⟩ := Race.ofUpload_reaches begun
  obtain ⟨content, source, stored, opens, differs⟩ := smallUpload_answers
  obtain ⟨about, stale⟩ := holdsStale_of_holdsDocument holds differs
  obtain ⟨behind, forgets⟩ := turn_invalidate about
  have first : documentService.flags.enabled.head? = some .blob := rfl
  obtain ⟨content', source', stored', opens', serves⟩ :=
    Race.servesLater_iff reachable_documentService Converter.builtin_faithful smallUpload_names
      first rfl reaches played about forgets
  rw [stored] at stored'
  cases stored'
  cases opens.symm.trans opens'
  refine ⟨_, race, behind, content, source, begun, played, forgets, stored, opens, ?_⟩
  intro fresh
  obtain ⟨reader, listed, holdsStale⟩ := stale
  exact serves.mp fresh reader listed holdsStale

/-- The document of the stored dump was answered. -/
def answersDocument (reader : Reader) : Bool :=
  match reader.stage with
  | .answered (.ok _) => reader.path == "p"
  | _ => false

/-- The late query puts its document in the cache, the upload is finished, and another query finds
the document there. -/
theorem documentRace_stale :
    ((documentRace.bind (·.play (lateTurns ++ [.upload, .reader 0, .upload]))).any fun finished =>
      finished.pending.isEmpty && finished.readers.length == 1 &&
        (finished.play [.arrival "p", .reader 1, .reader 1]).any fun final =>
          final.readers[1]?.any answersDocument) = true := by
  decide +kernel

/-- Not every query that begins behind an upload is answered from the dump that was uploaded. -/
theorem later_queries_may_be_stale :
    ¬ ∀ (s ready : Service) (target : Target) (request : Request) (kind : Encoding) (size : Nat)
      (dump : Dump) (converted : List (Encoding × String)) (content : Content) (source : Source),
      s.Reachable → s.converter.Faithful → Endpoint.NamesTarget request target →
      s.flags.enabled.head? = some kind →
      ReachesMoves none request.body s size dump converted ready →
      kind.contentOf request.body.portions.flatten = .ok content →
      kind.openContent (kind.path (s.basePath target)) content = .ok source →
      (Race.start target (stagedFile s) dump converted ready).ServesLater source := by
  intro claim
  obtain ⟨finished, played, last⟩ := Option.any_eq_true _ _ |>.mp documentRace_stale
  obtain ⟨start, begun, played⟩ := Option.bind_eq_some_iff.mp played
  obtain ⟨size, dump, converted, ready, reaches, rfl⟩ := Race.ofUpload_reaches begun
  obtain ⟨content, source, stored, opens, differs⟩ := smallUpload_answers
  simp only [Bool.and_eq_true, List.isEmpty_iff, beq_iff_eq] at last
  obtain ⟨⟨done, one⟩, stale⟩ := last
  obtain ⟨final, more, answered⟩ := Option.any_eq_true _ _ |>.mp stale
  obtain ⟨⟨path, stage⟩, there, answered⟩ := Option.any_eq_true _ _ |>.mp answered
  unfold answersDocument at answered
  split at answered
  · rename_i document isAnswered
    dsimp only at isAnswered
    subst isAnswered
    obtain rfl := beq_iff_eq.mp answered
    have serves := claim documentService ready smallTarget smallUpload .blob size dump converted
      content source reachable_documentService Converter.builtin_faithful smallUpload_names rfl
      reaches stored opens
    exact differs document (serves _ finished _ final 1 "p" (.ok document) played done more
      (Nat.le_of_eq one) there).symm
  · cases answered

end Service

end CodeNav
