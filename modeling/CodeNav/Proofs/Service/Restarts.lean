/-
Module: CodeNav.Proofs.Service.Restarts
Purpose: Which uploads the stored files of a target come from, whatever encodings a service had
  enabled from one start to the next.
Main exports:
  Exchange, LastWritten, Service.Lived, Service.Lived.represents, Service.stored_since_upload
-/
import CodeNav.Proofs.Service.StoredUploads

namespace CodeNav

open Stateful
open Http (Request Response Stream)

/-! ### One upload -/

/-- What a file of an encoding holds is what is stored of a dump that can be read. -/
structure Encoding.Represents [Gzip.Compressor] (kind : Encoding) (octets : List UInt8)
    (content : Content) : Prop where
  readable : ∃ limit dump, Dump.parse limit octets = .ok dump
  content : kind.contentOf octets = .ok content

/-- A service was set up like another one. -/
structure Service.SetUpLike (u s : Service) : Prop where
  root : s.root = u.root
  flags : s.flags = u.flags
  converter : s.converter = u.converter

namespace Upload

open Service (temporaryFile)

/-- What accepting an upload makes of the file of an encoding of some target: it is as before, or
it holds the upload. -/
inductive Fate [Gzip.Compressor] (target : Target) (octets : List UInt8) (s t : Service)
    (done : Prop) (other : Target) (kind : Encoding) : Prop where
  | kept (same : t.files.find? (Service.dumpFile s.root other kind) =
        s.files.find? (Service.dumpFile s.root other kind))
      (notStored : done → other = target → kind ∉ s.flags.enabled)
  | written (f : File) (own : other = target) (enabled : kind ∈ s.flags.enabled)
      (stands : t.files.find? (Service.dumpFile s.root other kind) = some (.file f))
      (represents : kind.Represents octets f.content)

section

variable {s t : Service} {target : Target}

/-- A file of a target stays as it was if no move goes there. -/
theorem Ready.untouched {octets : List UInt8} {files after : Files}
    (ready : Ready (stagedFile s) octets s.files { s with temporaries := s.temporaries + 1 } files)
    {first : List (Encoding × String)} (among : first <+: uploadMoves s)
    (moved : Moves (s.basePath target) first files after) {other : Target}
    (flat : '/' ∉ other.commit.toList) {kind : Encoding}
    (notReplaced : ∀ p ∈ first,
      p.1.path (s.basePath target) ≠ Service.dumpFile s.root other kind) :
    after.find? (Service.dumpFile s.root other kind) =
      s.files.find? (Service.dumpFile s.root other kind) := by
  have notMoved : Service.dumpFile s.root other kind ∉ first.map (·.2) := by
    intro listed
    obtain ⟨p, member, same⟩ := List.mem_map.mp listed
    obtain ⟨number, _, named⟩ := mem_uploadMoves (among.subset member)
    exact Service.dumpFile_ne_temporary flat kind p.1 number (same.symm.trans named)
  refine (moved.others notMoved notReplaced).trans (ready.besides.others _ fun listed => ?_)
  rcases List.mem_cons.mp listed with staged | output
  · exact Service.dumpFile_ne_temporary flat kind .json s.temporaries staged
  · obtain ⟨p, member, same⟩ := List.mem_map.mp output
    obtain ⟨number, _, _, named⟩ := mem_outputs member
    exact Service.dumpFile_ne_temporary flat kind p.1 number (same.symm.trans named)

variable [Gzip.Compressor]

/-- Moves that were made leave every file of every target as it was, or take the upload there. -/
theorem Ready.fate (sound : s.Sound) (faithful : s.converter.Faithful)
    (commit : Target.isCommit target.commit) {octets : List UInt8} {dump : Dump}
    (accepted : Dump.parse (some s.limits.maxUploadBytes) octets = .ok dump) {files after : Files}
    (ready : Ready (stagedFile s) octets s.files { s with temporaries := s.temporaries + 1 } files)
    {first : List (Encoding × String)} (among : first <+: uploadMoves s)
    (moved : Moves (s.basePath target) first files after) {done : Prop}
    (all : done → first = uploadMoves s) (moves : t.files = after.eraseAll [stagedFile s])
    {other : Target} (commit' : Target.isCommit other.commit) (kind : Encoding) :
    Fate target octets s t done other kind := by
  have flat := Target.slash_not_mem_of_isCommit commit'
  have now : t.files.find? (Service.dumpFile s.root other kind) =
      after.find? (Service.dumpFile s.root other kind) := by
    rw [moves, Files.find?_eraseAll, if_neg]
    rw [List.mem_singleton]
    exact Service.dumpFile_ne_temporary flat kind .json s.temporaries
  by_cases own : other = target ∧ kind ∈ first.map (·.1)
  · obtain ⟨rfl, listed⟩ := own
    obtain ⟨p, member, rfl⟩ := List.mem_map.mp listed
    obtain ⟨elements, parsed, _⟩ := Dump.elements_of_parse accepted
    obtain ⟨f, arrived, stored⟩ := ready.delivers sound faithful flat parsed among moved member
    have enabled : p.1 ∈ s.flags.enabled :=
      mem_uploadMoves_kinds.mp (List.mem_map_of_mem (among.subset member))
    exact .written f rfl enabled (now.trans arrived) ⟨⟨_, dump, accepted⟩, stored⟩
  · have notReplaced : ∀ p ∈ first,
        p.1.path (s.basePath target) ≠ Service.dumpFile s.root other kind := by
      intro p member same
      obtain ⟨rfl, rfl⟩ := Service.dumpFile_injective commit commit' same
      exact own ⟨rfl, List.mem_map_of_mem member⟩
    refine .kept (now.trans (ready.untouched among moved flat notReplaced)) ?_
    rintro isDone rfl enabled
    rw [all isDone] at own
    exact own ⟨rfl, mem_uploadMoves_kinds.mpr enabled⟩

/-- Whether it is stored or not, an upload changes no files of other targets, and none of encodings
that are not enabled. -/
theorem accept_fate (sound : s.Sound) (faithful : s.converter.Faithful)
    (commit : Target.isCommit target.commit) {announced : Option Nat} {body : Stream}
    {outcome : Except Rejection Nat}
    (run : accept target announced body s = (outcome, t)) :
    s.SetUpLike t ∧ ∀ other kind, Target.isCommit other.commit →
      Fate target body.portions.flatten s t (∃ size, outcome = .ok size) other kind := by
  have accepted := accept_run sound target announced body
  rw [run] at accepted
  generalize result : (outcome, t) = pair at accepted
  cases accepted with
  | turnedDown rejection files temporaries besides later never =>
      cases result
      refine ⟨⟨rfl, rfl, rfl⟩, fun other kind _ => .kept ?_ ?_⟩
      · exact besides.others _ List.not_mem_nil
      · rintro ⟨size, stored⟩
        cases stored
  | committed size dump converted ready after committing reaches commits =>
      have committed := commit_run target (stagedFile s) dump converted ready
      rw [commits] at committed
      have frame := committed.frame
      obtain ⟨files, _, parsed, rfl, rfl, standing⟩ := reaches.ready sound
      obtain ⟨rfl, rfl⟩ := Prod.mk.inj result
      refine ⟨⟨by rw [frame], by rw [frame], by rw [frame]⟩, fun other kind commit' => ?_⟩
      cases committed with
      | ok after index moved usable =>
          exact standing.fate sound faithful commit parsed (List.prefix_refl _) moved
            (fun _ => rfl) rfl commit' kind
      | unindexed failure after moved broken =>
          exact standing.fate sound faithful commit parsed (List.prefix_refl _) moved
            (fun _ => rfl) rfl commit' kind
      | stopped fault first rest next after split moved refused =>
          refine standing.fate sound faithful commit parsed ⟨next :: rest, split.symm⟩ moved ?_
            rfl commit' kind
          rintro ⟨size, stored⟩
          cases stored

end

end Upload

/-! ### One request -/

/-- A request that was answered, and the encodings that were enabled at the time. -/
structure Exchange where
  flags : EncodingFlags
  request : Request
  response : Response

namespace Exchange

/-- An upload for a target was sent. -/
structure Brings (e : Exchange) (target : Target) (octets : List UInt8) : Prop where
  upload : Service.IsUpload e.request
  names : Endpoint.NamesTarget e.request target
  body : e.request.body.portions.flatten = octets

/-- An upload for a target was sent, and answered with success. -/
structure Stores (e : Exchange) (target : Target) (octets : List UInt8) : Prop where
  brings : e.Brings target octets
  success : e.response.status = .ok

/-- What becomes of the file of an encoding of a target. Only what the request brings is written,
and what it stores is written in every enabled encoding. -/
inductive Fate [Gzip.Compressor] (e : Exchange) (target : Target) (kind : Encoding)
    (before after : Option Entry) : Prop where
  | deleted (absent : after = none)
  | kept (same : after.map Entry.plain = before.map Entry.plain)
      (notStored : ∀ octets, e.Stores target octets → kind ∉ e.flags.enabled)
  | written (octets : List UInt8) (f : File) (brings : e.Brings target octets)
      (enabled : kind ∈ e.flags.enabled) (stands : after = some (.file f))
      (represents : kind.Represents octets f.content)

end Exchange

namespace Service

variable {s t : Service}

/-- A service was set up like another one, and stores the same. -/
structure OnlyReads (u s : Service) : Prop where
  setUp : u.SetUpLike s
  reads : ReadOnly u.files s.files

theorem OnlyReads.reading {u : Service} (only : u.OnlyReads s) {files : Files}
    (reads : ReadOnly s.files files) : u.OnlyReads { s with files } :=
  ⟨⟨only.setUp.root, only.setUp.flags, only.setUp.converter⟩, only.reads.trans reads⟩

variable [Gzip.Compressor]

theorem OnlyReads.looks (u : Service) : Looks fun s t => s = t ∧ u.OnlyReads s where
  hasData := by
    rintro s t ⟨rfl, _⟩ target
    rfl
  openDatabase target := (keeps_openDatabase (fun _ _ only reads => only.reading reads)
    (fun _ _ _ only => ⟨⟨only.setUp.root, only.setUp.flags, only.setUp.converter⟩, only.reads⟩)
    target).respects
  source database := (keeps_source (fun _ _ only reads => only.reading reads) database).respects
  readDocument database path :=
    (keeps_readDocument (fun _ _ only reads => only.reading reads)
      (fun _ _ only => ⟨⟨only.setUp.root, only.setUp.flags, only.setUp.converter⟩, only.reads⟩)
      database path).respects
  packageIndex := keeps_packageIndex.respects
  count _ := Keeps.respects fun _ only =>
    ⟨⟨only.setUp.root, only.setUp.flags, only.setUp.converter⟩, only.reads⟩

/-- All that is not an upload only reads what is stored. -/
theorem respond_onlyReads (elapsed : Binary64) {request : Request} (noUpload : ¬ IsUpload request)
    (s : Service) : s.OnlyReads (respond elapsed request s).2 := by
  have same : s.OnlyReads s := ⟨⟨rfl, rfl, rfl⟩, .refl s.files⟩
  by_cases lookup : IsLookup request
  · exact (answersAlike_respond (OnlyReads.looks s) elapsed lookup s s ⟨rfl, same⟩).2.2
  · unfold respond
    split
    · exact same
    · cases path : Endpoint.ofPath? request.path with
      | none => exact same
      | some endpoint =>
          dsimp only
          split
          · exact same
          · rename_i accepted
            cases endpoint with
            | ping => split <;> exact same
            | metrics => split <;> exact same
            | upload =>
                have method : request.method = "POST" := by
                  simpa [Endpoint.accepts, Endpoint.isRead] using accepted
                exact absurd ⟨method, path⟩ noUpload
            | presence => exact absurd ⟨_, path, rfl⟩ lookup
            | query => exact absurd ⟨_, path, rfl⟩ lookup

/-- What a request makes of the files of targets. -/
theorem respond_fate (sound : s.Sound) (faithful : s.converter.Faithful) (elapsed : Binary64)
    (request : Request) :
    s.SetUpLike (respond elapsed request s).2 ∧
      ∀ target kind, Target.isCommit target.commit →
        Exchange.Fate ⟨s.flags, request, (respond elapsed request s).1⟩ target kind
          (s.files.find? (dumpFile s.root target kind))
          ((respond elapsed request s).2.files.find? (dumpFile s.root target kind)) := by
  by_cases upload : IsUpload request
  · rw [respond_upload upload]
    have uploading := Endpoint.upload_answered elapsed request s
    generalize Endpoint.upload.answer elapsed request s = answered at uploading
    cases uploading with
    | noTarget response metrics unnamed =>
        refine ⟨⟨rfl, rfl, rfl⟩, fun target kind _ => .kept rfl ?_⟩
        intro octets stores
        exact absurd stores.brings.names (unnamed target)
    | rejected own rejection t metrics names run =>
        have commit := names.isCommit
        obtain ⟨setUp, fate⟩ := Upload.accept_fate sound faithful commit run
        refine ⟨⟨setUp.root, setUp.flags, setUp.converter⟩, fun target kind commit' => ?_⟩
        cases fate target kind commit' with
        | kept same notStored =>
            refine .kept (congrArg _ same) ?_
            intro octets stores
            exact absurd stores.success (Upload.refuses_accept _ _ _ s rejection t run)
        | written f isOwn enabled stands represents =>
            exact .written _ f ⟨upload, isOwn ▸ names, rfl⟩ enabled stands represents
    | stored own size t names run =>
        obtain ⟨setUp, fate⟩ := Upload.accept_fate sound faithful names.isCommit run
        obtain ⟨report, u, gone, keeps, _, deleted⟩ :=
          Endpoint.houseKeep_run size { t with metrics := t.metrics.addUpload size }
        dsimp only
        rw [keeps, deleted.frame]
        refine ⟨⟨setUp.root, setUp.flags, setUp.converter⟩, fun target kind commit' => ?_⟩
        dsimp only
        rw [Files.find?_eraseAll]
        split
        · exact .deleted rfl
        · cases fate target kind commit' with
          | kept same notStored =>
              refine .kept (congrArg _ same) ?_
              intro octets stores
              exact notStored ⟨size, rfl⟩ (stores.brings.names.unique names)
          | written f isOwn enabled stands represents =>
              exact .written _ f ⟨upload, isOwn ▸ names, rfl⟩ enabled stands represents
  · obtain ⟨setUp, reads⟩ := respond_onlyReads elapsed upload s
    refine ⟨setUp, fun target kind _ => .kept (reads.alike _) ?_⟩
    intro octets stores
    exact absurd stores.brings.upload upload

/-- An upload that was stored is answered with success, and if there is room for everything, it is
followed by no deletion. -/
theorem respond_within {s t : Service} {request : Request} (upload : IsUpload request)
    {target : Target} (names : Endpoint.NamesTarget request target) {size : Nat}
    (run : Upload.accept target (Endpoint.announcedSize? request) request.body s = (.ok size, t))
    (within : Quota.totalSize (Quota.storedFiles t.sizes t.files t.root) ≤
      t.limits.softMaxBytes - size)
    (elapsed : Binary64) :
    (respond elapsed request s).1.status = .ok ∧
      (respond elapsed request s).2.files = t.files := by
  obtain ⟨change, idle⟩ := Endpoint.houseKeep_idle
    (s := { t with metrics := t.metrics.addUpload size }) within
  have answered := Endpoint.upload_named names elapsed s
  rw [run] at answered
  rw [respond_upload upload, answered, idle]
  exact ⟨rfl, rfl⟩

/-! ### Histories -/

/-- A service that is stopped, and started again on what it has stored. No name of a temporary
file is given out twice. -/
def restart (s : Service) (flags : EncodingFlags) (limits : Limits) (converter : Converter) :
    Service :=
  { start s.root flags limits s.files s.index converter s.sizes with
    temporaries := s.temporaries }

/-- The states of a service that began without any dump, answered requests one after the other, and
was started again now and then; with the requests that it has answered, the last one first. -/
inductive Lived : List Exchange → Service → Prop where
  | start (root : String) (flags : EncodingFlags) (limits : Limits) (files : Files)
      (index : IndexState) (converter : Converter) (sizes : Sizes) (timely : files.Timely)
      (empty : ∀ number kind, files.find? (temporaryFile root number kind) = none)
      (noDump : ∀ target kind, Target.isCommit target.commit →
        files.find? (dumpFile root target kind) = none) (faithful : converter.Faithful)
      (enabled : flags.enabled ≠ []) :
      Lived [] (.start root flags limits files index converter sizes)
  | respond {past : List Exchange} {s : Service} (elapsed : Binary64) (request : Request)
      (lived : Lived past s) :
      Lived (⟨s.flags, request, (Service.respond elapsed request s).1⟩ :: past)
        (Service.respond elapsed request s).2
  | restart {past : List Exchange} {s : Service} (flags : EncodingFlags) (limits : Limits)
      (converter : Converter) (faithful : converter.Faithful) (enabled : flags.enabled ≠ [])
      (lived : Lived past s) : Lived past (s.restart flags limits converter)

end Service

/-- An upload for a target was the last one that was written in an encoding; it may have failed
after that. -/
inductive LastWritten (target : Target) (kind : Encoding) (octets : List UInt8) :
    List Exchange → Prop where
  | written {e : Exchange} {past : List Exchange} (brings : e.Brings target octets)
      (enabled : kind ∈ e.flags.enabled) : LastWritten target kind octets (e :: past)
  | kept {e : Exchange} {past : List Exchange}
      (notStored : ∀ other, e.Stores target other → kind ∉ e.flags.enabled)
      (before : LastWritten target kind octets past) : LastWritten target kind octets (e :: past)

namespace Service

section

variable [Gzip.Compressor] {past : List Exchange} {s : Service}

theorem sound_restart (sound : s.Sound) (flags : EncodingFlags) (limits : Limits)
    {converter : Converter} (faithful : converter.Faithful) :
    (s.restart flags limits converter).Sound where
  timely := sound.timely
  fresh := sound.fresh
  registered := registered_empty _
  confined := faithful.confined

theorem Lived.sound (lived : Lived past s) : s.Sound ∧ s.converter.Faithful := by
  induction lived with
  | start root flags limits files index converter sizes timely empty noDump faithful enabled =>
      exact ⟨sound_start root flags limits index sizes timely empty faithful.confined, faithful⟩
  | respond elapsed request _ ih =>
      obtain ⟨sound, faithful⟩ := ih
      refine ⟨sound.respond elapsed request, ?_⟩
      rw [(respond_fate sound faithful elapsed request).1.converter]
      exact faithful
  | restart flags limits converter faithful enabled _ ih =>
      exact ⟨sound_restart ih.1 flags limits faithful, faithful⟩

/-- Every file of a target is that of the upload which was last written in its encoding. -/
theorem Lived.represents (lived : Lived past s) {target : Target}
    (commit : Target.isCommit target.commit) (kind : Encoding) :
    s.files.find? (dumpFile s.root target kind) = none ∨
      ∃ f octets, s.files.find? (dumpFile s.root target kind) = some (.file f) ∧
        LastWritten target kind octets past ∧ kind.Represents octets f.content := by
  induction lived with
  | start root flags limits files index converter sizes timely empty noDump faithful enabled =>
      exact .inl (noDump target kind commit)
  | @respond past s elapsed request lived ih =>
      obtain ⟨sound, faithful⟩ := lived.sound
      obtain ⟨setUp, fate⟩ := respond_fate sound faithful elapsed request
      rw [setUp.root]
      cases fate target kind commit with
      | deleted absent => exact .inl absent
      | written octets f brings enabled stands represents =>
          exact .inr ⟨f, octets, stands, .written brings enabled, represents⟩
      | kept same notStored =>
          rcases ih with absent | ⟨f, octets, stands, last, represents⟩
          · left
            rw [absent] at same
            exact Option.map_eq_none_iff.mp same
          · rw [stands] at same
            obtain ⟨g, there, _, content⟩ := Entry.file_of_plain same
            exact .inr ⟨g, octets, there, .kept notStored last, content ▸ represents⟩
  | restart flags limits converter faithful enabled _ ih => exact ih

end

end Service

/-! ### Behind an upload that was stored -/

/-- What the file of an encoding of a target may come from, behind an upload that was stored and
later ones that were not: from that upload if the encoding was enabled; if it was not, from the one
that had been written last in the encoding; or from one of the later ones, which failed. -/
inductive MayHold (later : List Exchange) (e : Exchange) (earlier : List Exchange)
    (target : Target) (kind : Encoding) (octets : List UInt8) : Prop where
  | stored (enabled : kind ∈ e.flags.enabled) (stores : e.Stores target octets)
  | disabled (disabled : kind ∉ e.flags.enabled) (last : LastWritten target kind octets earlier)
  | failed (other : Exchange) (listed : other ∈ later) (brings : other.Brings target octets)
      (failed : other.response.status ≠ .ok)

theorem LastWritten.mayHold {later earlier : List Exchange} {e : Exchange} {target : Target}
    {kind : Encoding} {octets own : List UInt8} (stores : e.Stores target own)
    (last : LastWritten target kind octets (later ++ e :: earlier))
    (none : ∀ other ∈ later, ∀ octets, ¬ other.Stores target octets) :
    MayHold later e earlier target kind octets := by
  induction later with
  | nil =>
      cases last with
      | written brings enabled => exact .stored enabled ⟨brings, stores.success⟩
      | kept notStored before => exact .disabled (notStored own stores) before
  | cons next rest ih =>
      cases last with
      | written brings enabled =>
          refine .failed next List.mem_cons_self brings fun success => ?_
          exact none next List.mem_cons_self octets ⟨brings, success⟩
      | kept notStored before =>
          cases ih before fun other listed => none other (List.mem_cons_of_mem _ listed) with
          | stored enabled stores => exact .stored enabled stores
          | disabled disabled last => exact .disabled disabled last
          | failed other listed brings failed =>
              exact .failed other (List.mem_cons_of_mem _ listed) brings failed

namespace Service

section

variable [Gzip.Compressor]

/-- Once a service is started again, a target that has a dump is served from the first enabled
encoding that has a file, and so from the upload that was last written in that encoding. -/
theorem Lived.serves {past : List Exchange} {s : Service} (lived : Lived past s) {target : Target}
    (commit : Target.isCommit target.commit) (flags : EncodingFlags) (limits : Limits)
    (converter : Converter) (hasData : (s.restart flags limits converter).hasData target) :
    ∃ before kind others octets, flags.enabled = before ++ kind :: others ∧
      (∀ other ∈ before, s.files.find? (dumpFile s.root target other) = none) ∧
      LastWritten target kind octets past ∧
      (s.restart flags limits converter).Serves target octets := by
  let t := s.restart flags limits converter
  have openable : ∀ kind ∈ t.flags.enabled, t.files.find? (dumpFile t.root target kind) = none ∨
      ∃ f source, t.files.find? (dumpFile t.root target kind) = some (.file f) ∧
        kind.openContent (dumpFile t.root target kind) f.content = .ok source := by
    intro kind _
    rcases lived.represents commit kind with absent | ⟨f, octets, stands, _, represents⟩
    · exact .inl absent
    · obtain ⟨limit, dump, readable⟩ := represents.readable
      obtain ⟨source, opens⟩ :=
        Encoding.opens_stored readable represents.content (dumpFile t.root target kind)
      exact .inr ⟨f, source, stands, opens⟩
  have left : ∃ kind ∈ t.flags.enabled, t.files.find? (dumpFile t.root target kind) ≠ none := by
    obtain ⟨kind, enabled, present⟩ := List.any_eq_true.mp hasData
    rw [Files.contains_eq] at present
    exact ⟨kind, enabled, Option.isSome_iff_ne_none.mp present⟩
  obtain ⟨before, kind, others, f, split, absent, stands, serves⟩ :=
    serves_first (s := t) (registered_empty _) rfl openable left
  have here : s.files.find? (dumpFile s.root target kind) = some (.file f) := stands
  rcases lived.represents commit kind with missing | ⟨g, octets, there, last, represents⟩
  · rw [here] at missing
    cases missing
  · rw [here] at there
    cases there
    exact ⟨before, kind, others, octets, split, absent, last, serves octets represents.content⟩

/-- Behind an upload that was stored, until another one is, every file of its target in an encoding
that was enabled holds the upload, and the others hold what was last written in their encodings; an
upload that failed since may have been written, too. When the service is started again, whatever
encodings are enabled, the target is served from the first of them that has a file. -/
theorem stored_since_upload {past later earlier : List Exchange} {e : Exchange} {s : Service}
    (lived : Lived past s) (split : past = later ++ e :: earlier) {target : Target}
    {octets : List UInt8} (stores : e.Stores target octets)
    (none : ∀ other ∈ later, ∀ octets, ¬ other.Stores target octets) :
    (∀ kind f, s.files.find? (dumpFile s.root target kind) = some (.file f) →
      ∃ octets, MayHold later e earlier target kind octets ∧
        kind.Represents octets f.content) ∧
    ∀ flags limits converter, (s.restart flags limits converter).hasData target →
      ∃ before kind others octets, flags.enabled = before ++ kind :: others ∧
        (∀ other ∈ before, s.files.find? (dumpFile s.root target other) = .none) ∧
        MayHold later e earlier target kind octets ∧
        (s.restart flags limits converter).Serves target octets := by
  have commit := stores.brings.names.isCommit
  subst split
  constructor
  · intro kind f stands
    rcases lived.represents commit kind with absent | ⟨g, octets, there, last, represents⟩
    · rw [stands] at absent
      cases absent
    · rw [stands] at there
      cases there
      exact ⟨octets, last.mayHold stores none, represents⟩
  · intro flags limits converter hasData
    obtain ⟨before, kind, others, octets, first, absent, last, serves⟩ :=
      lived.serves commit flags limits converter hasData
    exact ⟨before, kind, others, octets, first, absent, last.mayHold stores none, serves⟩

end

open scoped Gzip

/-- A service that keeps dumps as they are begins without any. -/
theorem lived_keeping (softMaxBytes : Nat) : Lived [] (keeping softMaxBytes) :=
  .start _ _ _ _ _ _ _ (bareTree_timely _) (bareTree_temporaryFile _)
    (fun target kind _ => bareTree_noDump _ target kind) Converter.builtin_faithful (by decide)

/-- What was uploaded while dumps were stored as they are is served with all encodings enabled. -/
theorem restarted_serves :
    ((respond (.ofNat 0) smallUpload (keeping 100)).2.restart ⟨true, true, true⟩
      ⟨100, 1000, 1000, 1000⟩ Converter.builtin).Serves smallTarget
      smallUpload.body.portions.flatten := by
  have stores : Exchange.Stores
      ⟨(keeping 100).flags, smallUpload, (respond (.ofNat 0) smallUpload (keeping 100)).1⟩
      smallTarget smallUpload.body.portions.flatten :=
    ⟨⟨isUpload_smallUpload, smallUpload_names, rfl⟩, by decide +kernel⟩
  obtain ⟨_, kind, _, octets, _, _, holds, serves⟩ :=
    (stored_since_upload (.respond (.ofNat 0) smallUpload (lived_keeping 100))
      (show _ = [] ++ _ :: [] from rfl) stores (fun _ listed => by cases listed)).2
      ⟨true, true, true⟩ ⟨100, 1000, 1000, 1000⟩ Converter.builtin (by decide +kernel)
  cases holds with
  | stored enabled stores => exact stores.brings.body ▸ serves
  | disabled disabled last => cases last
  | failed other listed => cases listed

/-- A dump of another vertex, for the same target. -/
def otherUpload : Request :=
  { smallUpload with
    body := ⟨[Utf8.encode "\x7b\"id\":12,\"type\":\"vertex\",\"label\":\"x\"\x7d"], none⟩ }

theorem isUpload_otherUpload : IsUpload otherUpload :=
  isUpload_smallUpload

theorem otherUpload_names : Endpoint.NamesTarget otherUpload smallTarget :=
  smallUpload_names

/-- The service that stores the small upload as it is, started again to store tables of documents
and nothing else. -/
def restarted : Service :=
  (respond (.ofNat 0) smallUpload (keeping 100)).2.restart ⟨false, false, true⟩
    ⟨100000, 1000, 1000, 1000⟩ Converter.builtin

theorem lived_restarted : ∃ past, Lived past restarted :=
  ⟨_, .restart _ _ _ Converter.builtin_faithful (by decide)
    (.respond _ smallUpload (lived_keeping 100))⟩

/-- The other upload is accepted by it, and there is room for both. The small one still stands as it
was. -/
theorem restarted_accepts :
    ∃ t, Upload.accept smallTarget (Endpoint.announcedSize? otherUpload) otherUpload.body
        restarted = (.ok otherUpload.body.portions.flatten.length, t) ∧
      Quota.totalSize (Quota.storedFiles t.sizes t.files t.root) ≤
        t.limits.softMaxBytes - otherUpload.body.portions.flatten.length ∧
      (t.files.find? (dumpFile "dumps" smallTarget .json)).map (Entry.size .paged) =
        some smallUpload.body.portions.flatten.length := by
  have evaluated :
      let result := Upload.accept smallTarget (Endpoint.announcedSize? otherUpload)
        otherUpload.body restarted
      result.1.toOption = some otherUpload.body.portions.flatten.length ∧
        Quota.totalSize (Quota.storedFiles result.2.sizes result.2.files result.2.root) ≤
          result.2.limits.softMaxBytes - otherUpload.body.portions.flatten.length ∧
        (result.2.files.find? (dumpFile "dumps" smallTarget .json)).map (Entry.size .paged) =
          some smallUpload.body.portions.flatten.length := by
    decide +kernel
  generalize Upload.accept smallTarget _ _ restarted = result at evaluated ⊢
  obtain ⟨outcome, t⟩ := result
  obtain ⟨accepted, rest⟩ := evaluated
  cases outcome with
  | error rejection => cases accepted
  | ok size =>
      cases accepted
      exact ⟨t, rfl, rest⟩

/-- A file of an encoding that is not enabled is not replaced, and so the files of a target may
hold different uploads. -/
theorem files_may_differ :
    ¬ ∀ (past earlier : List Exchange) (e : Exchange) (s : Service) (target : Target)
      (octets : List UInt8), Lived past s → past = e :: earlier → e.Stores target octets →
      ∀ kind f, s.files.find? (dumpFile s.root target kind) = some (.file f) →
        kind.Represents octets f.content := by
  intro claim
  obtain ⟨past, lived⟩ := lived_restarted
  obtain ⟨t, run, within, size⟩ := restarted_accepts
  -- two stored files are not put in order by evaluation, hence without the housekeeping
  obtain ⟨success, files⟩ :=
    respond_within isUpload_otherUpload otherUpload_names run within (.ofNat 0)
  have stores : Exchange.Stores
      ⟨restarted.flags, otherUpload, (respond (.ofNat 0) otherUpload restarted).1⟩ smallTarget
      otherUpload.body.portions.flatten :=
    ⟨⟨isUpload_otherUpload, otherUpload_names, rfl⟩, success⟩
  have root : (respond (.ofNat 0) otherUpload restarted).2.root = "dumps" :=
    (respond_fate lived.sound.1 Converter.builtin_faithful (.ofNat 0) otherUpload).1.root.trans
      (respond_fate (lived_keeping 100).sound.1 Converter.builtin_faithful (.ofNat 0)
        smallUpload).1.root
  cases found : t.files.find? (dumpFile "dumps" smallTarget .json) with
  | none =>
      rw [found] at size
      cases size
  | some entry =>
      cases entry with
      | directory =>
          rw [found] at size
          exact absurd size (by decide +kernel)
      | file f =>
          have same := claim _ past _ _ _ _ (.respond (.ofNat 0) otherUpload lived) rfl stores
            .json f (by rw [files, root, found])
          have content : Content.octets otherUpload.body.portions.flatten = f.content :=
            Except.ok.inj same.content
          rw [found, Option.map_some, Entry.size, ← content] at size
          exact absurd size (by decide +kernel)

end Service

end CodeNav
