/-
Module: CodeNav.Proofs.Service.Invalidation
Purpose: What queries of a target are answered behind the eviction of its database.
Main exports:
  Reader.HoldsStale, Race.ServesLater, Service.Renewed, Race.Settled, Race.invalidated_iff
-/
import CodeNav.Proofs.Service.Races
import CodeNav.Proofs.Service.StoredUploads

namespace CodeNav

open Stateful
open Service (documentKey)

theorem Service.documentKey_inj {file path other : String}
    (same : documentKey file path = documentKey file other) : path = other := by
  unfold documentKey at same
  exact String.append_right_inj _ |>.mp same

variable [Gzip.Compressor]

/-! ### Stale documents -/

/-- What a dump answers to a query for the document of a path. -/
def Source.answer (source : Source) (path : String) : Except Failure Document := do
  Document.decode (← source.document path)

/-- A query is about to put a document in the cache that is not the one of the dump in a file, under
the key of a document of that file. -/
def Reader.HoldsStale (file : String) (source : Source) (reader : Reader) : Prop :=
  ∃ database octets document path, reader.stage = .fetched database octets ∧
    Document.decode octets = .ok document ∧
    documentKey database.loaded.path reader.path = documentKey file path ∧
    source.answer path ≠ .ok document

/-- Whatever turns are taken until the upload is finished and behind that, queries that begin behind
it are answered from a dump. -/
def Race.ServesLater (race : Race) (source : Source) : Prop :=
  ∀ before finished after final number path outcome, race.play before = some finished →
    finished.pending = [] → finished.play after = some final → finished.readers.length ≤ number →
    final.readers[number]? = some ⟨path, .answered outcome⟩ → outcome = source.answer path

/-! ### A target behind the eviction -/

namespace Service

/-- The stored dump is what a target is opened with, and what it was opened with before is
closed. -/
structure Renewed (target : Target) (octets : List UInt8) (loaded : Loaded) (s : Service) :
    Prop where
  registered : Registered s.databases s.closed
  loads : (Loaded.first s.flags (s.basePath target) s.files).1 = .ok loaded
  stands : ∃ f, s.files.find? loaded.path = some (.file f) ∧ f.serial = loaded.serial ∧
    loaded.kind.contentOf octets = .ok f.content ∧
    loaded.kind.openContent loaded.path f.content = .ok loaded.source
  current : ∀ database, s.Opened target database →
    database.handle ∈ s.closed ∨ database.loaded = loaded

namespace Renewed

variable {target : Target} {octets : List UInt8} {loaded : Loaded} {s t : Service}

theorem reads (renewed : Renewed target octets loaded s) (reads : Reads target s t) :
    Renewed target octets loaded t where
  registered := reads.registered
  loads := by
    have same : t.basePath target = s.basePath target :=
      congrArg (Files.join · target.key) reads.root
    rw [reads.flags, same, first_alike reads.files.alike, renewed.loads]
  stands := by
    obtain ⟨f, stands, serial, stored, opens⟩ := renewed.stands
    obtain ⟨g, there, sameSerial, content⟩ := reads.files.alike.symm.file stands
    exact ⟨g, there, sameSerial.trans serial, content ▸ stored, content ▸ opens⟩
  current database opened := by
    rcases reads.recent database opened with before | loads
    · rcases renewed.current database before with closed | same
      · exact .inl (reads.closed _ closed)
      · exact .inr same
    · rw [renewed.loads] at loads
      cases loads
      exact .inr rfl

theorem isOpen (renewed : Renewed target octets loaded s) {database : Database}
    (isOpen : s.IsOpen target database) : database.loaded = loaded :=
  (renewed.current database isOpen.opened).resolve_left (isOpen.not_closed renewed.registered)

/-- The target can be opened, and is opened with the stored dump. -/
theorem opens (renewed : Renewed target octets loaded s) :
    ∃ database t, openDatabase target s = (.ok database, t) ∧ database.loaded = loaded := by
  cases run : openDatabase target s with
  | mk outcome t =>
      have opening := openDatabase_opening renewed.registered run
      obtain ⟨database, rfl⟩ := opening.loads loaded renewed.loads
      exact ⟨database, t, rfl, (renewed.reads opening.reads).isOpen (opening.isOpen database rfl)⟩

/-- What is read from the stored dump is what it holds. -/
theorem fetch_open (renewed : Renewed target octets loaded s) {database : Database}
    (opened : database.handle ∉ s.closed) (same : database.loaded = loaded) (path : String) :
    (fetchDocument database path s).1 = loaded.source.document path := by
  subst same
  obtain ⟨f, stands, serial, _, opens⟩ := renewed.stands
  obtain ⟨_, reads, _⟩ := source_stored database opened stands serial opens
  unfold fetchDocument
  rw [bind_ok reads]
  cases database.loaded.source.document path <;> rfl

/-- Whoever can read at all reads from the stored dump. -/
theorem fetch_ok (renewed : Renewed target octets loaded s) {database : Database}
    (opened : s.Opened target database) {path : String} {document : List UInt8}
    (run : fetchDocument database path s = (.ok document, t)) :
    database.loaded = loaded ∧ loaded.source.document path = .ok document := by
  have notClosed : database.handle ∉ s.closed := by
    intro closed
    have refused : source database s = (.error database.loaded.source.closedFailure, s) := by
      unfold source
      rw [bind_ok (get_run s)]
      simp only [List.contains_iff_mem.mpr closed, if_true]
      rfl
    unfold fetchDocument at run
    rw [bind_error refused] at run
    cases run
  have same := (renewed.current database opened).resolve_left notClosed
  refine ⟨same, ?_⟩
  rw [← renewed.fetch_open notClosed same path, run]

end Renewed

/-- Whatever was open for a target before its eviction is closed behind it. -/
theorem renewed_evict {target : Target} {octets : List UInt8} {s : Service} {kind : Encoding}
    {f : File} {source : Source} (registered : Registered s.databases s.closed)
    (first : s.flags.enabled.head? = some kind)
    (stands : s.files.find? (kind.path (s.basePath target)) = some (.file f))
    (stored : kind.contentOf octets = .ok f.content)
    (opens : kind.openContent (kind.path (s.basePath target)) f.content = .ok source) :
    (evict target s).2.Renewed target octets
      ⟨kind, kind.path (s.basePath target), f.serial, source⟩ := by
  have registered := registered_evictKey target.key s registered
  have frame := evictKey_frame target.key s
  constructor
  · exact registered
  · obtain ⟨others, enabled⟩ := List.head?_eq_some_iff.mp first
    unfold evict
    rw [frame]
    unfold Loaded.first
    rw [enabled]
    exact congrArg Prod.fst (Loaded.firstOf_head others stands opens)
  · refine ⟨f, ?_, rfl, stored, opens⟩
    unfold evict
    rw [frame]
    exact stands
  · rintro database ⟨load, loaded, ok, key⟩
    left
    rcases registered.resident _ load database loaded ok with closed | ⟨e, listed, _, sameKey⟩
    · exact closed
    · have none := find?_evictKey target.key s
      rw [WeightedCache.find?_eq_none] at none
      exact absurd (sameKey.trans key) (none e listed)

/-- Documents of a stored dump that are in the cache are what the dump holds. -/
def Clean (loaded : Loaded) (s : Service) : Prop :=
  ∀ entry ∈ s.documents.entries, ∀ path, entry.key = documentKey loaded.path path →
    loaded.source.answer path = .ok entry.value

theorem Clean.documents {loaded : Loaded} {s t : Service} (clean : s.Clean loaded)
    (same : t.documents = s.documents) : t.Clean loaded := by
  unfold Clean
  rw [same]
  exact clean

end Service

/-! ### Queries behind the invalidation -/

namespace Reader

open Service

/-- What a query is about to answer is what the dump that was stored holds. -/
def Current (target : Target) (loaded : Loaded) (s : Service) (path : String) : Stage → Prop
  | .begun => True
  | .opened database | .missed database => s.IsOpen target database
  | .fetched database octets =>
    database.loaded = loaded ∧ loaded.source.document path = .ok octets
  | .answered outcome => outcome = loaded.source.answer path

theorem Current.reads {target : Target} {loaded : Loaded} {s t : Service} {path : String}
    {stage : Stage} (current : Current target loaded s path stage) (reads : Reads target s t) :
    Current target loaded t path stage := by
  cases stage with
  | opened database => exact reads.isOpen database current
  | missed database => exact reads.isOpen database current
  | _ => exact current

theorem Current.recorded {target : Target} {loaded : Loaded} {s : Service} {path : String}
    {stage : Stage} (current : Current target loaded s path stage) (index : IndexState) :
    Current target loaded { s with index } path stage := by
  cases stage with
  | opened database => exact ⟨current.opened, current.resident⟩
  | missed database => exact ⟨current.opened, current.resident⟩
  | _ => exact current

theorem answer_fetched {source : Source} {path : String} {octets : List UInt8}
    (fetched : source.document path = .ok octets) :
    source.answer path = Document.decode octets := by
  unfold Source.answer
  rw [fetched]
  rfl

section

variable {target : Target} {octets : List UInt8} {loaded : Loaded} {path : String} {s t : Service}
  {stage next : Stage} (renewed : s.Renewed target octets loaded)
  (stepped : Stepped target path s stage next t)
include renewed stepped

/-- Nobody who reads now gets hold of anything stale. -/
theorem Stepped.notStale (knows : ∀ database, stage.database? = some database →
    s.Opened target database) : ¬ HoldsStale loaded.path loaded.source ⟨path, next⟩ := by
  rintro ⟨database, octets, document, other, isFetched, decoded, sameKey, stale⟩
  cases stepped with
  | fetched run =>
      cases isFetched
      obtain ⟨same, fetched⟩ := renewed.fetch_ok (knows database rfl) run
      subst same
      obtain rfl := documentKey_inj sameKey
      exact stale ((answer_fetched fetched).trans decoded)
  | done outcome => cases isFetched
  | _ => cases isFetched

omit renewed in
theorem Stepped.clean (registered : Registered s.databases s.closed) (clean : s.Clean loaded)
    (fresh : ¬ HoldsStale loaded.path loaded.source ⟨path, stage⟩) : t.Clean loaded := by
  cases stepped with
  | opened run => exact clean.documents (openDatabase_opening registered run).documents
  | unopened run => exact clean.documents (openDatabase_opening registered run).documents
  | found peek => exact fun entry listed => clean entry (WeightedCache.mem_of_mem_get listed)
  | missed peek => exact fun entry listed => clean entry (WeightedCache.mem_of_mem_get listed)
  | fetched run => exact clean.documents (fetchDocument_reads target registered run).2
  | unfetched run => exact clean.documents (fetchDocument_reads target registered run).2
  | @kept database octets document decoded =>
      intro entry listed other key
      rcases WeightedCache.mem_insert listed with rfl | ⟨before, _⟩
      · by_contra stale
        exact fresh ⟨database, octets, document, other, rfl, decoded, key, stale⟩
      · exact clean entry before other key
  | undecoded refused => exact clean
  | done outcome => exact clean

/-- A query that begins now is going to be answered from the stored dump. -/
theorem Stepped.current (clean : s.Clean loaded) (current : Current target loaded s path stage) :
    Current target loaded t path next := by
  have registered := renewed.registered
  cases stepped with
  | opened run => exact (openDatabase_opening registered run).isOpen _ rfl
  | unopened run =>
      obtain ⟨database, same⟩ := (openDatabase_opening registered run).loads loaded renewed.loads
      cases same
  | @found database document peek =>
      obtain ⟨entry, found, rfl⟩ := Option.map_eq_some_iff.mp peek
      obtain ⟨listed, key⟩ := WeightedCache.mem_of_find? found
      rw [renewed.isOpen current] at key
      exact (clean entry listed path key).symm
  | missed peek =>
      have reads := (Reads.refl target registered).reading (.refl s.files)
      exact (reads _).isOpen _ current
  | fetched run => exact renewed.fetch_ok current.opened run
  | @unfetched database failure t run =>
      have failed :=
        renewed.fetch_open (current.not_closed registered) (renewed.isOpen current) path
      rw [run] at failed
      change .error failure = loaded.source.answer path
      unfold Source.answer
      rw [← failed]
      rfl
  | kept decoded => exact ((answer_fetched current.2).trans decoded).symm
  | undecoded refused => exact ((answer_fetched current.2).trans refused).symm
  | done outcome => exact current

end

end Reader

/-! ### Races -/

namespace Race

open Service

/-- The databases that queries read from were opened for the target. -/
def Knows (race : Race) : Prop :=
  ∀ reader ∈ race.readers, ∀ database, reader.stage.database? = some database →
    race.service.Opened race.target database

section

variable {race : Race} (knows : race.Knows)
include knows

theorem Knows.reader (registered : Registered race.service.databases race.service.closed)
    {number : Nat} {path : String} {stage later : Reader.Stage} {service : Service}
    (stands : race.readers[number]? = some ⟨path, stage⟩)
    (stepped : Reader.Stepped race.target path race.service stage later service) :
    Knows { race with service, readers := race.readers.set number ⟨path, later⟩ } := by
  intro reader listed database reads
  rcases List.mem_or_eq_of_mem_set listed with old | rfl
  · exact (stepped.reads registered).opened database (knows reader old database reads)
  · exact stepped.knows registered (knows _ (List.mem_of_getElem? stands)) reads

omit [Gzip.Compressor] in
theorem Knows.arrival (path : String) :
    Knows { race with readers := race.readers ++ [⟨path, .begun⟩] } := by
  intro reader listed database reads
  rcases List.mem_append.mp listed with old | new
  · exact knows reader old database reads
  · rw [List.mem_singleton.mp new] at reads
    cases reads

end

/-- Behind the invalidation, nothing stale is in the cache or about to be put there, and queries
that have begun since are answered from the stored dump. -/
structure Settled (octets : List UInt8) (loaded : Loaded) (since : Nat) (race : Race) : Prop where
  renewed : race.service.Renewed race.target octets loaded
  pending : race.pending = [.record] ∨ race.pending = []
  knows : race.Knows
  clean : race.service.Clean loaded
  fresh : ∀ reader ∈ race.readers, ¬ reader.HoldsStale loaded.path loaded.source
  many : since ≤ race.readers.length
  later : ∀ number path stage, since ≤ number → race.readers[number]? = some ⟨path, stage⟩ →
    Reader.Current race.target loaded race.service path stage

section

variable {octets : List UInt8} {loaded : Loaded} {since : Nat} {race : Race}
  (settled : race.Settled octets loaded since)
include settled

theorem Settled.recorded {service : Service}
    (run : UploadStep.record.run race.target race.dump race.service = (.ok (), service)) :
    Settled octets loaded since { race with service, pending := [] } := by
  have index : service = { race.service with index := service.index } := by
    rcases Upload.available_or_broken race.service with ⟨index, usable⟩ | ⟨failure, broken⟩
    · have update := Upload.updateIndex_available usable
        (·.record race.target race.dump.provided race.dump.used)
      cases update.symm.trans run
      rfl
    · have update := Upload.updateIndex_broken broken
        (·.record race.target race.dump.provided race.dump.used)
      cases update.symm.trans run
  rw [index]
  exact { settled with
    renewed := { settled.renewed with }
    pending := .inr rfl
    later := fun _ _ _ new there => (settled.later _ _ _ new there).recorded _ }

theorem Settled.reader {number : Nat} {path : String} {stage later : Reader.Stage}
    {service : Service} (stands : race.readers[number]? = some ⟨path, stage⟩)
    (stepped : Reader.Stepped race.target path race.service stage later service) :
    Settled octets loaded since
      { race with service, readers := race.readers.set number ⟨path, later⟩ } := by
  have registered := settled.renewed.registered
  have listed := List.mem_of_getElem? stands
  have reads := stepped.reads registered
  constructor
  · exact settled.renewed.reads reads
  · exact settled.pending
  · exact settled.knows.reader registered stands stepped
  · exact stepped.clean registered settled.clean (settled.fresh _ listed)
  · intro reader among
    rcases List.mem_or_eq_of_mem_set among with old | rfl
    · exact settled.fresh reader old
    · exact stepped.notStale settled.renewed (settled.knows _ listed)
  · exact (List.length_set ..).symm ▸ settled.many
  · intro other otherPath otherStage new there
    by_cases same : number = other
    · subst same
      rw [List.getElem?_set_self (List.getElem?_eq_some_iff.mp stands).1] at there
      cases there
      exact stepped.current settled.renewed settled.clean (settled.later _ _ _ new stands)
    · rw [List.getElem?_set_ne same] at there
      exact (settled.later _ _ _ new there).reads reads

theorem Settled.arrival (path : String) :
    Settled octets loaded since { race with readers := race.readers ++ [⟨path, .begun⟩] } := by
  constructor
  · exact settled.renewed
  · exact settled.pending
  · exact settled.knows.arrival path
  · exact settled.clean
  · intro reader among
    rcases List.mem_append.mp among with old | new
    · exact settled.fresh reader old
    · rw [List.mem_singleton.mp new]
      rintro ⟨_, _, _, _, isFetched, _⟩
      cases isFetched
  · rw [List.length_append]
    exact Nat.le_add_right_of_le settled.many
  · intro other otherPath otherStage new there
    rcases Nat.lt_or_ge other race.readers.length with before | behind
    · rw [List.getElem?_append_left before] at there
      exact settled.later _ _ _ new there
    · rw [List.getElem?_append_right behind] at there
      cases List.mem_singleton.mp (List.mem_of_getElem? there)
      trivial

/-- No turn unsettles a race. -/
theorem Settled.turned {next : Race} (turned : race.Turned next) :
    next.Settled octets loaded since := by
  cases turned with
  | @upload step rest service pending run =>
      rcases settled.pending with last | none
      · rw [last] at pending
        cases pending
        exact settled.recorded run
      · rw [none] at pending
        cases pending
  | reader stands stepped => exact settled.reader stands stepped
  | arrival path => exact settled.arrival path

end

/-- If nothing stale is left, all later queries are answered from the stored dump. -/
theorem Settled.servesLater {octets : List UInt8} {loaded : Loaded} {race : Race}
    (settled : race.Settled octets loaded race.readers.length) :
    race.ServesLater loaded.source := by
  intro before finished after final number path outcome first _ second behind answered
  have atEnd := play_keeps (fun _ _ kept turned => kept.turned turned) settled first
  have atLast := play_keeps (fun _ _ kept turned => kept.turned turned) atEnd second
  exact atLast.later number path _ (Nat.le_trans atEnd.many behind) answered

/-- What is in the cache is what a query gets that begins now. -/
theorem answer_cached {octets : List UInt8} {loaded : Loaded} {race : Race}
    (renewed : race.service.Renewed race.target octets loaded) {path : String} {document : Document}
    (peek : race.service.documents.peek? (documentKey loaded.path path) = some document) :
    ∃ final, race.play
        [.arrival path, .reader race.readers.length, .reader race.readers.length] = some final ∧
      final.readers[race.readers.length]? = some ⟨path, .answered (.ok document)⟩ := by
  let last := race.readers.length
  let begun : Race := { race with readers := race.readers ++ [⟨path, .begun⟩] }
  have begins : race.turn (.arrival path) = some begun := rfl
  obtain ⟨database, t, opens, same⟩ := renewed.opens
  have cached : t.documents.peek? (documentKey database.loaded.path path) = some document := by
    rw [(openDatabase_opening renewed.registered opens).documents, same]
    exact peek
  let opened : Race := { begun with
    service := t
    readers := begun.readers.set last ⟨path, .opened database⟩ }
  have opensDatabase : begun.turn (.reader last) = some opened :=
    turn_reader List.getElem?_concat_length (Reader.step_ok (bind_ok opens))
  have there : opened.readers[last]? = some ⟨path, .opened database⟩ :=
    List.getElem?_set_self (by simp [begun, last])
  obtain ⟨next, u, run, stepped⟩ := Reader.step_stepped race.target path (.opened database) t
  cases stepped with
  | missed missing =>
      rw [cached] at missing
      cases missing
  | found found =>
      rw [cached] at found
      cases found
      let final : Race := { opened with
        service := Reader.looked t (documentKey database.loaded.path path)
        readers := opened.readers.set last ⟨path, .answered (.ok document)⟩ }
      have answers : opened.turn (.reader last) = some final := turn_reader there run
      refine ⟨final, ?_, List.getElem?_set_self (by simp [opened, begun, last])⟩
      simp only [last] at opensDatabase answers
      simp only [play, begins, opensDatabase, answers, Option.bind_some]

/-- A query that holds a stale document can put it in the cache in time for a later one. -/
theorem stale_answer {octets : List UInt8} {loaded : Loaded} {race : Race} {index : PackageIndex}
    (renewed : race.service.Renewed race.target octets loaded) (pending : race.pending = [.record])
    (usable : race.service.index = .available index) {reader : Reader}
    (listed : reader ∈ race.readers)
    (stale : reader.HoldsStale loaded.path loaded.source) : ¬ race.ServesLater loaded.source := by
  intro serves
  obtain ⟨number, stands⟩ := List.getElem?_of_mem listed
  obtain ⟨path, stage⟩ := reader
  obtain ⟨database, octets', document, other, rfl, decoded, key, differs⟩ := stale
  let kept := Reader.withDocument race.service (documentKey database.loaded.path path) document
  let afterKept : Race := { race with
    service := kept
    readers := race.readers.set number ⟨path, .answered (.ok document)⟩ }
  have keeps : race.turn (.reader number) = some afterKept :=
    turn_reader stands (Reader.step_ok (bind_ok (Reader.ofExcept_ok decoded race.service)))
  let finished : Race := { afterKept with
    service := { kept with
      index := .available (index.record race.target race.dump.provided race.dump.used) }
    pending := [] }
  have finishes : afterKept.turn .upload = some finished :=
    turn_upload pending (Upload.updateIndex_available (s := kept) usable _)
  have still : finished.service.Renewed finished.target octets loaded := { renewed with }
  have peek : finished.service.documents.peek? (documentKey loaded.path other) = some document := by
    rw [← key]
    exact congrArg (Option.map _) (WeightedCache.find?_insert _ _ _ _)
  obtain ⟨final, played, answered⟩ := answer_cached still peek
  refine differs (serves [.reader number, .upload] finished _ final _ other (.ok document) ?_ rfl
    played (Nat.le_refl _) answered).symm
  simp only [play, keeps, finishes, Option.bind_some]

/-! ### The invalidation -/

/-- Nothing that stems from the files of a target is in the cache when its documents are
forgotten. -/
theorem clean_forgotten {s : Service} {target : Target} {loaded : Loaded}
    (file : loaded.path ∈ s.targetFiles target) :
    Service.Clean loaded
      { s with documents := forgetFiles s.documents (s.targetFiles target) } := by
  intro entry listed path key
  have other := (mem_forgetFiles.mp listed).2 loaded.path file
  rw [key, isFrom_documentKey] at other
  cases other

/-- All depends on what queries are about to put in the cache when it is invalidated. -/
theorem invalidated_iff {octets : List UInt8} {loaded : Loaded} {race behind : Race}
    {index : PackageIndex} (renewed : race.service.Renewed race.target octets loaded)
    (file : loaded.path ∈ race.service.targetFiles race.target) (knows : race.Knows)
    (about : race.pending = [.invalidate, .record]) (usable : race.service.index = .available index)
    (forgets : race.turn .upload = some behind) :
    behind.ServesLater loaded.source ↔
      ∀ reader ∈ race.readers, ¬ reader.HoldsStale loaded.path loaded.source := by
  obtain ⟨count, forgotten⟩ := invalidate_run race.target race.service
  have run : UploadStep.invalidate.run race.target race.dump race.service = (.ok (), _) :=
    bind_ok forgotten
  rw [turn_upload about run] at forgets
  cases forgets
  let after : Race := { race with
    service := { race.service with
      documents := forgetFiles race.service.documents (race.service.targetFiles race.target) }
    pending := [.record] }
  have still : after.service.Renewed after.target octets loaded := { renewed with }
  change after.ServesLater loaded.source ↔ _
  constructor
  · intro serves reader listed stale
    have pending : after.pending = [.record] := rfl
    exact stale_answer still pending usable listed stale serves
  · intro fresh
    have settled : after.Settled octets loaded race.readers.length := by
      refine ⟨still, .inl rfl, knows, clean_forgotten file, fresh, Nat.le_refl _, ?_⟩
      intro number path stage behind there
      rw [List.getElem?_eq_none behind] at there
      cases there
    exact settled.servesLater

end Race

end CodeNav
