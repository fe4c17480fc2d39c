/-
Module: CodeNav.Proofs.Service.Transparency
Purpose: Whatever a service keeps in memory, it answers like one that keeps nothing.
Main exports:
  Service.Mirrors, Uncached.WithinQuota, Uncached.respond_mirrors, Service.replies_eq_uncached
-/
import CodeNav.Proofs.Service.Outcomes
import CodeNav.Proofs.Service.Refreshing

namespace CodeNav

open Stateful
open Http (Parameters Request Response)

/-! ### Housekeeping without deletions -/

namespace Quota

/-- What is stored takes as much in trees that differ in times only. -/
theorem totalSize_alike {a b : Files} (alike : a.Alike b) (sizes : Sizes) (root : String) :
    totalSize (storedFiles sizes a root) = totalSize (storedFiles sizes b root) := by
  let sizeOf (p : String × Option (Nat × Content)) : Option Nat :=
    (Files.nameIn? root p.1).bind fun name =>
      p.2.bind fun (_, content) => (Encoding.splitFileName? name).map fun _ => content.size sizes
  let plain (files : Files) : List (String × Option (Nat × Content)) :=
    files.entries.toList.map fun p => (p.1, p.2.plain)
  have each (files : Files) : (storedFiles sizes files root).map (·.size) =
      (plain files).filterMap sizeOf := by
    rw [storedFiles_eq, List.map_filterMap, List.filterMap_map]
    congr 1
    funext ⟨path, entry⟩
    dsimp only [Function.comp, sizeOf]
    cases Files.nameIn? root path with
    | none => rfl
    | some name =>
        cases entry with
        | directory => rfl
        | file f =>
            simp only [Option.bind_some, storedFile?, Entry.plain]
            cases Encoding.splitFileName? name <;> rfl
  have same : plain a = plain b := by
    have maps : a.entries.map (fun _ => Entry.plain) = b.entries.map fun _ => Entry.plain := by
      apply Std.ExtTreeMap.ext_getElem?
      intro path
      rw [Std.ExtTreeMap.getElem?_map, Std.ExtTreeMap.getElem?_map]
      exact alike path
    have lists := congrArg Std.ExtTreeMap.toList maps
    rwa [Std.ExtTreeMap.toList_map, Std.ExtTreeMap.toList_map] at lists
  unfold totalSize
  rw [each, each, same]

end Quota

/-! ### Services that mirror others -/

/-- A service is up to date with what its files hold, and another one stores the same. -/
structure Service.Mirrors [Gzip.Compressor] (u s : Service) : Prop where
  fresh : s.Fresh
  same : s.SameStore u

namespace Service

variable [Gzip.Compressor] {u s : Service}

/-- Look-ups change nothing that is stored. -/
theorem SameStore.looks (u : Service) : Looks fun s t => s = t ∧ s.SameStore u := by
  have reading (s : Service) (files : Files) (same : s.SameStore u)
      (reads : ReadOnly s.files files) : ({ s with files } : Service).SameStore u :=
    { same with files := reads.matching.trans same.files }
  exact
    { hasData := by
        rintro s t ⟨rfl, _⟩ target
        rfl
      openDatabase := fun target =>
        (keeps_openDatabase reading (fun _ _ _ same => { same with }) target).respects
      source := fun database => (keeps_source reading database).respects
      readDocument := fun database path =>
        (keeps_readDocument reading (fun _ _ same => { same with }) database path).respects
      packageIndex := keeps_packageIndex.respects
      count := fun _ => Keeps.respects fun _ same => { same with } }

namespace Mirrors

theorem figures (mirrors : u.Mirrors s) (metrics other : Metrics) :
    ({ u with metrics } : Service).Mirrors { s with metrics := other } where
  fresh := mirrors.fresh.figures other
  same := { mirrors.same with }

theorem reflects (mirrors : u.Mirrors s) : u.Reflects s where
  upToDate := mirrors.fresh.upToDate
  root := mirrors.same.root
  flags := mirrors.same.flags
  files := mirrors.same.files.alike
  index := mirrors.same.index

/-- What is up to date behind a look-up has not changed. -/
theorem lookUp (mirrors : u.Mirrors s) (elapsed : Binary64) (request : Request)
    {endpoint : Endpoint} (lookup : endpoint.isLookup)
    (reflects : u.Reflects (endpoint.answer elapsed request s).2) :
    u.Mirrors (endpoint.answer elapsed request s).2 := by
  have same := (Endpoint.answersAlike_answer (SameStore.looks u) elapsed request lookup s s
    ⟨rfl, mirrors.same⟩).2.2
  refine ⟨⟨mirrors.fresh.sound.answer elapsed request endpoint, reflects.upToDate, ?_⟩, same⟩
  intro target kind commit
  rw [reflects.root, ← mirrors.same.root]
  exact (mirrors.same.files.alike.trans reflects.files.symm).find?_of_plain
    (mirrors.fresh.plain target kind commit)

end Mirrors

end Service

/-! ### Requests, one at a time -/

namespace Uncached

open Service

theorem settle_run {computation : RequestM Response} {s t : Service}
    {result : Except Rejection Response} (run : computation s = (result, t)) :
    Endpoint.settle computation s = (settle result, t) := by
  unfold Endpoint.settle
  rw [run]
  cases result <;> rfl

variable [Gzip.Compressor]

/-- No upload among some requests makes housekeeping delete anything: whenever one has been
stored, all stored dumps together are within what the quota allows. -/
def WithinQuota : List (Binary64 × Request) → Service → Prop
  | [], _ => True
  | (elapsed, request) :: rest, s =>
    (∀ target size t, IsUpload request → Endpoint.NamesTarget request target →
      Upload.accept target (Endpoint.announcedSize? request) request.body s = (.ok size, t) →
        Quota.totalSize (Quota.storedFiles t.sizes t.files t.root) ≤ t.limits.softMaxBytes - size) ∧
      WithinQuota rest (respond elapsed request s).2

/-- Figures are the only thing that shows what is in memory. -/
def Unobserved (request : Request) : Prop :=
  Endpoint.ofPath? request.path ≠ some .metrics

instance (request : Request) : Decidable (Unobserved request) :=
  inferInstanceAs (Decidable (_ ≠ _))

variable {u s : Service} {request : Request}

theorem receiveUpload_mirrors (mirrors : u.Mirrors s) (parameters : Parameters)
    (request : Request) :
    (Endpoint.receiveUpload parameters request s).1 =
        (Endpoint.receiveUpload parameters request u).1 ∧
      (Endpoint.receiveUpload parameters request u).2.Mirrors
        (Endpoint.receiveUpload parameters request s).2 := by
  unfold Endpoint.receiveUpload
  cases valid : Endpoint.targetOf parameters with
  | error failure => exact ⟨rfl, mirrors⟩
  | ok target =>
      have commit := Target.isCommit_of_validate valid
      have faithful : s.converter.Faithful := by
        rw [mirrors.same.converter, mirrors.same.inProcess]
        exact Converter.builtin_faithful
      have fresh := Upload.fresh_accept mirrors.fresh faithful commit
        (Endpoint.announcedSize? request) request.body
      obtain ⟨same, after⟩ := Upload.alike_accept target (Endpoint.announcedSize? request)
        request.body s u mirrors.same
      exact ⟨same, fresh, after⟩

/-- Uploads are answered alike as long as nothing is deleted for them. -/
theorem upload_mirrors (mirrors : u.Mirrors s) (elapsed : Binary64) (upload : IsUpload request)
    (within : ∀ target size t, Endpoint.NamesTarget request target →
      Upload.accept target (Endpoint.announcedSize? request) request.body u = (.ok size, t) →
        Quota.totalSize (Quota.storedFiles t.sizes t.files t.root) ≤ t.limits.softMaxBytes - size) :
    (Service.respond elapsed request s).1 = (Service.respond elapsed request u).1 ∧
      (Service.respond elapsed request u).2.Mirrors (Service.respond elapsed request s).2 := by
  rw [respond_upload upload, respond_upload upload]
  unfold Endpoint.answer Endpoint.withParameters
  cases read : Parameters.ofQuery [Endpoint.targetNames] request.query with
  | error cause => exact ⟨rfl, mirrors⟩
  | ok parameters =>
      dsimp only
      obtain ⟨same, after⟩ := receiveUpload_mirrors mirrors parameters request
      generalize runS : Endpoint.receiveUpload parameters request s = left at same after
      generalize runU : Endpoint.receiveUpload parameters request u = right at same after
      obtain ⟨outcome, s'⟩ := left
      obtain ⟨other, u'⟩ := right
      cases same
      cases outcome with
      | error rejection =>
          rw [settle_run (Endpoint.answerUpload_rejected runS),
            settle_run (Endpoint.answerUpload_rejected runU)]
          exact ⟨rfl, after.figures _ _⟩
      | ok size =>
          rw [settle_run (Endpoint.answerUpload_stored runS),
            settle_run (Endpoint.answerUpload_stored runU)]
          have small : Quota.totalSize (Quota.storedFiles u'.sizes u'.files u'.root) ≤
              u'.limits.softMaxBytes - size := by
            unfold Endpoint.receiveUpload at runU
            cases valid : Endpoint.targetOf parameters with
            | error failure =>
                rw [valid] at runU
                cases runU
            | ok target =>
                rw [valid] at runU
                exact within target size u' ⟨parameters, read, valid⟩ runU
          have smallToo : Quota.totalSize (Quota.storedFiles s'.sizes s'.files s'.root) ≤
              s'.limits.softMaxBytes - size := by
            rwa [after.same.root, after.same.sizes, after.same.softMaxBytes,
              Quota.totalSize_alike after.same.files.alike]
          obtain ⟨change, idle⟩ := @Endpoint.houseKeep_idle size
            { u' with metrics := u'.metrics.addUpload size } small
          obtain ⟨change', idle'⟩ := @Endpoint.houseKeep_idle size
            { s' with metrics := s'.metrics.addUpload size } smallToo
          rw [idle, idle']
          exact ⟨rfl, after.figures _ _⟩

/-- What neither looks anything up nor brings an upload is answered whatever is stored. -/
theorem other_answered (unobserved : Unobserved request)
    (others : request.method = "POST" → ∀ endpoint, Endpoint.ofPath? request.path = some endpoint →
      endpoint.isRead) (elapsed : Binary64) :
    ∃ response, ∀ s, Service.respond elapsed request s = (response, s) := by
  unfold Service.respond
  split
  · exact ⟨_, fun _ => rfl⟩
  · cases named : Endpoint.ofPath? request.path with
    | none => exact ⟨_, fun _ => rfl⟩
    | some endpoint =>
        dsimp only
        split
        · exact ⟨_, fun _ => rfl⟩
        · rename_i accepted
          cases endpoint with
          | ping => split <;> exact ⟨_, fun _ => rfl⟩
          | metrics => exact absurd named unobserved
          | _ =>
            have post : request.method = "POST" := by
              simpa [Endpoint.accepts, Endpoint.isRead] using accepted
            exact absurd (others post _ named) (by decide)

theorem respond_eq (elapsed : Binary64) (s : Service)
    (noLookup : request.method = "POST" → Endpoint.ofPath? request.path ≠ some .presence ∧
      Endpoint.ofPath? request.path ≠ some .query) :
    respond elapsed request s = Service.respond elapsed request s := by
  unfold respond
  split
  · rename_i post named
    exact absurd named (noLookup post).1
  · rename_i post named
    exact absurd named (noLookup post).2
  · rfl

/-- A service answers a request like one that keeps nothing in memory, and goes on to store the
same as that one. -/
theorem respond_mirrors (mirrors : u.Mirrors s) (elapsed : Binary64)
    (unobserved : Unobserved request)
    (within : ∀ target size t, IsUpload request → Endpoint.NamesTarget request target →
      Upload.accept target (Endpoint.announcedSize? request) request.body u = (.ok size, t) →
        Quota.totalSize (Quota.storedFiles t.sizes t.files t.root) ≤ t.limits.softMaxBytes - size) :
    (Service.respond elapsed request s).1 = (respond elapsed request u).1 ∧
      (respond elapsed request u).2.Mirrors (Service.respond elapsed request s).2 := by
  have other (isOther : request.method = "POST" → ∀ endpoint,
      Endpoint.ofPath? request.path = some endpoint → endpoint.isRead) :
      (Service.respond elapsed request s).1 = (respond elapsed request u).1 ∧
        (respond elapsed request u).2.Mirrors (Service.respond elapsed request s).2 := by
    obtain ⟨response, answered⟩ := other_answered unobserved isOther elapsed
    rw [respond_eq elapsed u, answered, answered]
    · exact ⟨rfl, mirrors⟩
    · intro post
      constructor
      · exact fun named => absurd (isOther post _ named) (by decide)
      · exact fun named => absurd (isOther post _ named) (by decide)
  by_cases post : request.method = "POST"
  · cases named : Endpoint.ofPath? request.path with
    | none => exact other fun _ endpoint some_ => by simp [named] at some_
    | some endpoint =>
        cases endpoint with
        | ping => exact other fun _ endpoint some_ => by simp_all [Endpoint.isRead]
        | metrics => exact absurd named unobserved
        | upload =>
            rw [respond_eq elapsed u fun _ => by simp [named]]
            exact upload_mirrors mirrors elapsed ⟨post, named⟩ fun target size t =>
              within target size t ⟨post, named⟩
        | presence =>
            unfold Service.respond respond
            rw [post, named]
            obtain ⟨same, after⟩ := answer_presence mirrors.reflects elapsed request
            exact ⟨same, mirrors.lookUp elapsed request rfl after⟩
        | query =>
            unfold Service.respond respond
            rw [post, named]
            obtain ⟨same, after⟩ := answer_query mirrors.reflects elapsed request
            exact ⟨same, mirrors.lookUp elapsed request rfl after⟩
  · exact other fun isPost => absurd isPost post

/-- All replies are those of a service that keeps nothing in memory. -/
theorem replies_mirrors {u s : Service} (mirrors : u.Mirrors s)
    {requests : List (Binary64 × Request)} (unobserved : ∀ request ∈ requests, Unobserved request.2)
    (within : WithinQuota requests u) : Service.replies requests s = replies requests u := by
  induction requests generalizing u s with
  | nil => rfl
  | cons request rest ih =>
      obtain ⟨elapsed, request⟩ := request
      obtain ⟨here, later⟩ := within
      obtain ⟨same, next⟩ := respond_mirrors mirrors elapsed
        (unobserved (elapsed, request) List.mem_cons_self) here
      have others := ih next (fun other listed => unobserved other (List.mem_cons_of_mem _ listed))
        later
      calc
        Service.replies ((elapsed, request) :: rest) s =
            (Service.respond elapsed request s).1 ::
              Service.replies rest (Service.respond elapsed request s).2 :=
          rfl
        _ = (respond elapsed request u).1 :: replies rest (respond elapsed request u).2 := by
          rw [same, others]
        _ = replies ((elapsed, request) :: rest) u := rfl

end Uncached

/-! ### From the start -/

namespace Service

section

variable [Gzip.Compressor] (root : String) (flags : EncodingFlags) (limits : Limits)
  {files : Files} (index : IndexState) (sizes : Sizes)

/-- At the start nothing is in memory. -/
theorem mirrors_start (softMaxMemoryBytes blobCacheMaxBytes : Nat) (timely : files.Timely)
    (empty : ∀ number kind, files.find? (temporaryFile root number kind) = none)
    (plain : ∀ target kind, Target.isCommit target.commit →
      files.find? (dumpFile root target kind) ≠ some .directory) :
    (start root flags limits files index Converter.builtin sizes).Mirrors
      (start root flags { limits with softMaxMemoryBytes, blobCacheMaxBytes } files index
        Converter.builtin sizes) where
  fresh :=
    { sound := sound_start root flags _ index sizes timely empty Converter.builtin_faithful.confined
      upToDate := .atStart root flags _ files index Converter.builtin sizes
      plain := plain }
  same :=
    { root := rfl
      flags := rfl
      softMaxBytes := rfl
      maxUploadBytes := rfl
      sizes := rfl
      files := .refl files
      index := rfl
      temporaries := rfl
      converter := rfl
      inProcess := rfl }

/-- A service that is started on any stored dumps replies to uploads and look-ups, one at a time,
as one that opens and decodes everything anew, whatever the bounds of its caches. -/
theorem replies_eq_uncached (softMaxMemoryBytes blobCacheMaxBytes : Nat) (timely : files.Timely)
    (empty : ∀ number kind, files.find? (temporaryFile root number kind) = none)
    (plain : ∀ target kind, Target.isCommit target.commit →
      files.find? (dumpFile root target kind) ≠ some .directory)
    {requests : List (Binary64 × Request)}
    (unobserved : ∀ request ∈ requests, Uncached.Unobserved request.2)
    (within : Uncached.WithinQuota requests
      (start root flags limits files index Converter.builtin sizes)) :
    replies requests
        (start root flags { limits with softMaxMemoryBytes, blobCacheMaxBytes } files index
          Converter.builtin sizes) =
      Uncached.replies requests (start root flags limits files index Converter.builtin sizes) :=
  Uncached.replies_mirrors
    (mirrors_start root flags limits index sizes softMaxMemoryBytes blobCacheMaxBytes timely empty
      plain)
    unobserved within

end

/-- An inquiry whether the target of the small upload is stored. -/
def smallInquiry : Request :=
  { smallUpload with path := "/exists", body := ⟨[], none⟩ }

theorem bareTree_dumpFile (root : String) (target : Target) (kind : Encoding) :
    (bareTree root).find? (dumpFile root target kind) ≠ some .directory := by
  rw [bareTree_noDump]
  exact nofun

/-- Whether the small upload is stored and within the quota. -/
def smallUploadFits (s : Service) : Bool :=
  match Upload.accept smallTarget (Endpoint.announcedSize? smallUpload) smallUpload.body s with
  | (.ok size, t) =>
    decide (Quota.totalSize (Quota.storedFiles t.sizes t.files t.root) ≤
      t.limits.softMaxBytes - size)
  | (.error _, _) => false

theorem within_of_smallUploadFits {s : Service} (fits : smallUploadFits s) (target : Target)
    (size : Nat) (t : Service) (_ : IsUpload smallUpload)
    (names : Endpoint.NamesTarget smallUpload target)
    (run : Upload.accept target (Endpoint.announcedSize? smallUpload) smallUpload.body s =
      (.ok size, t)) :
    Quota.totalSize (Quota.storedFiles t.sizes t.files t.root) ≤ t.limits.softMaxBytes - size := by
  obtain rfl := names.unique smallUpload_names
  unfold smallUploadFits at fits
  rw [run] at fits
  simpa using fits

open scoped Gzip

/-- An upload between two inquiries, after which it is brought again: nothing shows that the caches
hold nothing, or that they hold everything. -/
theorem replies_eq_uncached_sample :
    let requests := [smallInquiry, smallUpload, smallInquiry, smallUpload].map
      fun request => (Binary64.ofNat 0, request)
    let limits : Limits := ⟨100, 1000, 1000, 1000⟩
    let uncached := Uncached.replies requests (start "dumps" ⟨true, false, false⟩ limits
      (bareTree "dumps") (.available .empty) Converter.builtin)
    replies requests (start "dumps" ⟨true, false, false⟩
        { limits with softMaxMemoryBytes := 0, blobCacheMaxBytes := 0 } (bareTree "dumps")
        (.available .empty) Converter.builtin) = uncached ∧
      replies requests (start "dumps" ⟨true, false, false⟩
        { limits with softMaxMemoryBytes := 10000, blobCacheMaxBytes := 10000 } (bareTree "dumps")
        (.available .empty) Converter.builtin) = uncached := by
  intro requests limits uncached
  have notUpload : ¬ IsUpload smallInquiry := by
    rintro ⟨_, path⟩
    revert path
    decide
  have unobserved : ∀ request ∈ requests, Uncached.Unobserved request.2 := by
    intro request listed
    simp only [requests, List.map_cons, List.map_nil, List.mem_cons, List.not_mem_nil, or_false]
      at listed
    rcases listed with rfl | rfl | rfl | rfl <;> decide
  have within : Uncached.WithinQuota requests (start "dumps" ⟨true, false, false⟩ limits
      (bareTree "dumps") (.available .empty) Converter.builtin) := by
    refine ⟨fun _ _ _ upload => absurd upload notUpload, ?_⟩
    refine ⟨within_of_smallUploadFits (by decide +kernel), ?_⟩
    refine ⟨fun _ _ _ upload => absurd upload notUpload, ?_⟩
    exact ⟨within_of_smallUploadFits (by decide +kernel), trivial⟩
  have timely := bareTree_timely "dumps"
  have empty := bareTree_temporaryFile "dumps"
  have plain (target : Target) (kind : Encoding) (_ : Target.isCommit target.commit) :=
    bareTree_dumpFile "dumps" target kind
  exact ⟨replies_eq_uncached _ _ limits _ _ 0 0 timely empty plain unobserved within,
    replies_eq_uncached _ _ limits _ _ 10000 10000 timely empty plain unobserved within⟩

end Service

end CodeNav
