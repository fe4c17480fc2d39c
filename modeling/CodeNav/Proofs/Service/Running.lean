/-
Module: CodeNav.Proofs.Service.Running
Purpose: The states that a service which converts in process gets into, whatever it deletes on the
  way: what is in memory is what the files hold, and those that can be opened hold dumps.
Main exports:
  Service.Fresh.swept, Service.Fresh.respond, Files.HoldsDumps, Service.Running,
  Service.Running.orderly
-/
import CodeNav.Proofs.Encoding.Locations
import CodeNav.Proofs.Service.Restarts
import CodeNav.Proofs.Service.Transparency
import CodeNav.Proofs.Service.Trimming

namespace CodeNav

open Stateful
open Http (Request)

variable [Gzip.Compressor]

namespace Service

variable {s t : Service}

/-! ### Deletions -/

/-- What is still in memory behind deletions comes from files that are still there. -/
theorem UpToDate.swept (upToDate : s.UpToDate) {gone : List Quota.StoredFile}
    (swept : Quota.Swept gone s t)
    (stored : ∀ file ∈ gone, Quota.IsStored s.sizes s.files s.root file) : t.UpToDate := by
  have root : t.root = s.root := by rw [swept.frame]
  have flags : t.flags = s.flags := by rw [swept.frame]
  have files : t.files = s.files.eraseAll (gone.map (·.path)) := by rw [swept.frame]
  have stays {path : String} (kept : ∀ file ∈ gone, file.path ≠ path) :
      t.files.find? path = s.files.find? path := by
    rw [files, Files.find?_eraseAll, if_neg]
    intro listed
    obtain ⟨file, member, same⟩ := List.mem_map.mp listed
    exact kept file member same
  constructor
  · exact swept.registered upToDate.registered
  · intro e listed load database found ok
    rw [swept.entries, List.mem_filter, decide_eq_true_eq] at listed
    rw [swept.loads] at found
    have first := upToDate.opens e listed.1 load database found ok
    rw [root, flags]
    refine Eq.trans (Loaded.firstOf_congr fun kind _ => congrArg _ (stays ?_)) first
    intro file member same
    obtain ⟨other, named⟩ := (stored file member).named
    rw [named, ← path_join] at same
    exact listed.2 (path_join_inj same ▸ List.mem_map_of_mem member)
  · intro entry listed target kind path commit key
    rw [swept.documents, List.mem_filter, List.all_eq_true] at listed
    rw [root] at key ⊢
    refine (upToDate.documents entry listed.1 target kind path commit key).congr ?_
    refine congrArg _ (stays fun file member same => ?_).symm
    have forgotten := listed.2 file member
    rw [same, key, isFrom_documentKey] at forgotten
    cases forgotten

/-- Deleting stored files leaves nothing behind that was read from them. -/
theorem Fresh.swept (fresh : s.Fresh) (sound : t.Sound) {gone : List Quota.StoredFile}
    (swept : Quota.Swept gone s t)
    (stored : ∀ file ∈ gone, Quota.IsStored s.sizes s.files s.root file) : t.Fresh where
  sound := sound
  upToDate := fresh.upToDate.swept swept stored
  plain target kind commit := by
    rw [swept.frame]
    dsimp only
    rw [Files.find?_eraseAll]
    split
    · exact nofun
    · exact fresh.plain target kind commit

theorem Fresh.houseKeep (fresh : s.Fresh) (size : Nat) : (Endpoint.houseKeep size s).2.Fresh := by
  have sound := Sound.houseKeep size s fresh.sound
  obtain ⟨report, t, _, run, enforced, _⟩ := Endpoint.houseKeep_run size s
  obtain ⟨u, gone, trimmed, split, swept⟩ :=
    Quota.enforce_run (s.limits.softMaxBytes - size) s
  rw [enforced] at trimmed
  obtain rfl : t = u := congrArg Prod.snd trimmed
  have stored : ∀ file ∈ gone, Quota.IsStored s.sizes s.files s.root file := by
    intro file listed
    have sorted : file ∈ Quota.byAccess (Quota.storedFiles s.sizes s.files s.root) := by
      rw [split]
      exact List.mem_append_left _ listed
    exact Quota.mem_storedFiles_iff.mp ((Quota.byAccess_perm _).mem_iff.mp sorted)
  rw [run] at sound ⊢
  have soundBefore : t.Sound := { sound with }
  exact (fresh.swept soundBefore swept stored).figures _

/-! ### Requests -/

theorem respond_metrics {request : Request}
    (named : Endpoint.ofPath? request.path = some .metrics) (elapsed : Binary64) (s : Service) :
    (respond elapsed request s).2 = s := by
  unfold respond
  split
  · rfl
  · rw [named]
    dsimp only
    split
    · rfl
    · split <;> rfl

/-- A service that converts in process and is up to date stores the same as itself. -/
theorem Fresh.mirrors (fresh : s.Fresh) (inProcess : s.converter = Converter.builtin) :
    s.Mirrors s where
  fresh := fresh
  same :=
    { root := rfl
      flags := rfl
      softMaxBytes := rfl
      maxUploadBytes := rfl
      sizes := rfl
      files := .refl s.files
      index := rfl
      temporaries := rfl
      converter := rfl
      inProcess := inProcess }

/-- Whatever a request brings, asks or has deleted, a service stays up to date. -/
theorem Fresh.respond (fresh : s.Fresh) (inProcess : s.converter = Converter.builtin)
    (elapsed : Binary64) (request : Request) : (Service.respond elapsed request s).2.Fresh := by
  by_cases upload : IsUpload request
  · rw [respond_upload upload]
    have faithful : s.converter.Faithful := inProcess ▸ Converter.builtin_faithful
    have uploading := Endpoint.upload_answered elapsed request s
    generalize Endpoint.upload.answer elapsed request s = answered at uploading
    cases uploading with
    | noTarget response metrics unnamed => exact fresh.figures metrics
    | rejected target rejection t metrics names run =>
        have after := Upload.fresh_accept fresh faithful names.isCommit
          (Endpoint.announcedSize? request) request.body
        rw [run] at after
        exact after.figures metrics
    | stored target size t names run =>
        have after := Upload.fresh_accept fresh faithful names.isCommit
          (Endpoint.announcedSize? request) request.body
        rw [run] at after
        exact (after.figures _).houseKeep size
  · by_cases unobserved : Uncached.Unobserved request
    · have mirrored := Uncached.respond_mirrors (fresh.mirrors inProcess) elapsed unobserved
        fun _ _ _ isUpload => absurd isUpload upload
      exact mirrored.2.fresh
    · rw [respond_metrics (not_not.mp unobserved)]
      exact fresh

end Service

/-! ### What files hold -/

/-- Whatever can be opened among the files of targets is a dump, in the encoding of its file. Files
that cannot be opened may hold anything. -/
def Files.HoldsDumps (files : Files) (root : String) : Prop :=
  ∀ target kind f source, Target.isCommit target.commit →
    files.find? (Service.dumpFile root target kind) = some (.file f) →
    kind.openContent (Service.dumpFile root target kind) f.content = .ok source →
    ∃ elements, Source.ofElements kind elements = .ok source

/-- What is stored of a dump is opened as one. -/
theorem Encoding.Represents.opens {kind : Encoding} {octets : List UInt8} {content : Content}
    (represents : kind.Represents octets content) {path : String} {source : Source}
    (opens : kind.openContent path content = .ok source) :
    ∃ elements, Source.ofElements kind elements = .ok source := by
  obtain ⟨limit, dump, readable⟩ := represents.readable
  obtain ⟨elements, parsed, accepted⟩ := Dump.elements_of_parse readable
  refine ⟨elements, ?_⟩
  have stored := represents.content
  by_cases isJson : kind = .json
  · subst isJson
    have whole : Dump.parse none octets = .ok dump := by
      rw [Dump.parse, parsed, Success.ok_bind, accepted]
    cases stored
    rw [openContent_octets whole] at opens
    cases opens
    rw [Source.ofElements, accepted]
    rfl
  · obtain ⟨others, tables, same, converted, rfl⟩ := tables_of_contentOf isJson stored
    rw [parsed] at same
    cases same
    rw [openContent_tables isJson (Tables.ofElements_kind converted isJson)] at opens
    cases opens
    cases kind with
    | json => exact absurd rfl isJson
    | graph => exact congrArg (Except.map Source.tables) converted
    | blob => exact congrArg (Except.map Source.tables) converted

/-! ### Runs -/

namespace Service

variable {s : Service}

/-- A service that converts in process is up to date, and what it stores are dumps. -/
structure Orderly (s : Service) : Prop where
  fresh : s.Fresh
  inProcess : s.converter = Converter.builtin
  dumps : s.files.HoldsDumps s.root

/-- The states of a service that was started on any dumps and damaged files, converts in process,
and has answered some requests. -/
inductive Running : Service → Prop where
  | start (root : String) (flags : EncodingFlags) (limits : Limits) (files : Files)
      (index : IndexState) (sizes : Sizes) (timely : files.Timely)
      (empty : ∀ number kind, files.find? (temporaryFile root number kind) = none)
      (plain : ∀ target kind, Target.isCommit target.commit →
        files.find? (dumpFile root target kind) ≠ some .directory)
      (dumps : files.HoldsDumps root) :
      Running (.start root flags limits files index Converter.builtin sizes)
  | respond {s : Service} (elapsed : Binary64) (request : Request) (running : Running s) :
      Running (Service.respond elapsed request s).2

theorem Orderly.respond (orderly : s.Orderly) (elapsed : Binary64) (request : Request) :
    (Service.respond elapsed request s).2.Orderly := by
  have faithful : s.converter.Faithful := orderly.inProcess ▸ Converter.builtin_faithful
  obtain ⟨setUp, fate⟩ := respond_fate orderly.fresh.sound faithful elapsed request
  refine ⟨orderly.fresh.respond orderly.inProcess elapsed request,
    setUp.converter.trans orderly.inProcess, ?_⟩
  intro target kind f source commit stands opens
  rw [setUp.root] at stands opens
  cases fate target kind commit with
  | deleted absent =>
      rw [absent] at stands
      cases stands
  | kept same _ =>
      rw [stands] at same
      obtain ⟨g, there, _, content⟩ := Entry.file_of_plain same.symm
      exact orderly.dumps target kind g source commit there (content ▸ opens)
  | written octets g _ _ there represents =>
      rw [stands] at there
      cases there
      exact represents.opens opens

theorem Running.orderly (running : s.Running) : s.Orderly := by
  induction running with
  | start root flags limits files index sizes timely empty plain dumps =>
      have mirrors := mirrors_start root flags limits index sizes limits.softMaxMemoryBytes
        limits.blobCacheMaxBytes timely empty plain
      exact ⟨mirrors.fresh, rfl, dumps⟩
  | respond elapsed request _ ih => exact ih.respond elapsed request

end Service

end CodeNav
