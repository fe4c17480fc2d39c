/-
Module: CodeNav.Proofs.Service.FailedUploads
Purpose: When an upload that fails leaves everything as it was.
Main exports:
  Service.Unchanged, Upload.LeavesTrace, Service.failed_upload_unchanged_iff
-/
import CodeNav.Proofs.Gzip.Stored
import CodeNav.Proofs.Service.Alike
import CodeNav.Proofs.Service.Reachable

namespace CodeNav

open Http (Request Response Stream)

/-- The whole tree and the index are as before, and so are the replies to all look-ups. -/
structure Service.Unchanged [Gzip.Compressor] (before after : Service) : Prop where
  entries : after.files.entries = before.files.entries
  index : after.index = before.index
  replies : ∀ requests : List (Binary64 × Request), (∀ request ∈ requests, IsLookup request.2) →
    Service.replies requests after = Service.replies requests before

/-- Replies depend on the entries, whatever became of the clock, the names and the figures. -/
theorem Service.unchanged_of_entries [Gzip.Compressor] (s : Service) {files : Files}
    (temporaries : Nat) (metrics : Metrics) (entries : files.entries = s.files.entries) :
    s.Unchanged { s with files, temporaries, metrics } where
  entries := entries
  index := rfl
  replies _ lookups := by
    apply Service.Alike.replies _ lookups
    exact ⟨rfl, rfl, rfl, rfl, .of_entries entries, rfl, rfl, rfl, rfl⟩

namespace Upload

/-- An upload leaves a trace if it gets as far as its first move, and this can be made or else the
converter has left an output. -/
def LeavesTrace (target : Target) (announced : Option Nat) (body : Stream) (s : Service) : Prop :=
  ∃ size dump converted ready, ReachesMoves announced body s size dump converted ready ∧
    ((∃ first rest, moves (stagedFile s) s.flags.enabled converted = first :: rest ∧
        (ready.files.rename first.2 (first.1.path (s.basePath target))).1 = .ok ()) ∨
      ∃ output ∈ converted, ready.files.contains output.2)

theorem ReachesMoves.unique {announced : Option Nat} {body : Stream} {s : Service}
    {size size' : Nat}
    {dump dump' : Dump} {converted converted' : List (Encoding × String)} {ready ready' : Service}
    (reaches : ReachesMoves announced body s size dump converted ready)
    (also : ReachesMoves announced body s size' dump' converted' ready') :
    converted' = converted ∧ ready' = ready := by
  obtain ⟨received, receives, prepares⟩ := reaches.run
  obtain ⟨received', receives', prepares'⟩ := also.run
  rw [receives] at receives'
  cases receives'
  rw [prepares] at prepares'
  cases prepares'
  exact ⟨rfl, rfl⟩

section

variable {s : Service} {target : Target} {octets : List UInt8} {files : Files}

/-- Whatever is moved was made after the files of old. -/
theorem Ready.made
    (ready : Ready (stagedFile s) octets s.files { s with temporaries := s.temporaries + 1 } files)
    {p : Encoding × String} (listed : p ∈ uploadMoves s) :
    files.find? p.2 = none ∨ ∃ f, files.find? p.2 = some (.file f) ∧
      s.files.nextSerial ≤ f.serial ∧ s.files.clock < f.times.accessed := by
  apply ready.besides.made
  rcases List.mem_append.mp listed with converted | kept
  · exact List.mem_cons_of_mem _ (List.mem_map_of_mem converted)
  · split at kept
    · rw [List.mem_singleton.mp kept]
      exact List.mem_cons_self
    · cases kept

/-- One file that has been moved into place is enough of a change. -/
theorem moved_changes (sound : s.Sound) (flat : '/' ∉ target.commit.toList)
    (ready : Ready (stagedFile s) octets s.files { s with temporaries := s.temporaries + 1 } files)
    {first : List (Encoding × String)} {after : Files} (among : first <+: uploadMoves s)
    (moved : Moves (s.basePath target) first files after) {p : Encoding × String}
    (listed : p ∈ first) : (after.eraseAll [stagedFile s]).entries ≠ s.files.entries := by
  intro same
  have kinds := (nodup_uploadMoves_kinds s).sublist (among.sublist.map Prod.fst)
  have sources := (nodup_uploadMoves_sources s).sublist (among.sublist.map Prod.snd)
  have apart : ∀ p ∈ first, ∀ q ∈ first, p.1.path (s.basePath target) ≠ q.2 :=
    fun p _ q member => uploadMoves_apart flat p.1 (among.subset member)
  obtain ⟨f, g, source, arrived, serial, _, _⟩ := moved.arrives kinds sources apart listed
  have new : s.files.nextSerial ≤ g.serial := by
    rcases ready.made (among.subset listed) with absent | ⟨h, stands, new, _⟩
    · rw [source] at absent
      cases absent
    · rw [source] at stands
      cases stands
      exact serial ▸ new
  have before : s.files.find? (p.1.path (s.basePath target)) = some (.file g) := by
    have here := congrArg (·[p.1.path (s.basePath target)]?) same
    change (after.eraseAll [stagedFile s]).find? _ = s.files.find? _ at here
    rw [Files.find?_eraseAll, if_neg, arrived] at here
    · exact here.symm
    · rw [List.mem_singleton]
      exact Service.dumpFile_ne_temporary flat p.1 .json s.temporaries
  exact absurd (sound.timely.serial _ g before) (Nat.not_lt.mpr new)

/-- Without the file received, a ready upload shows only in the outputs of the converter. -/
theorem ready_entries_iff (sound : s.Sound)
    (ready : Ready (stagedFile s) octets s.files { s with temporaries := s.temporaries + 1 } files) :
    (files.eraseAll [stagedFile s]).entries = s.files.entries ↔
      ¬ ∃ output ∈ allOutputs { s with temporaries := s.temporaries + 1 },
        files.contains output.2 := by
  have absent : ∀ path ∈ stagedFile s ::
      (allOutputs { s with temporaries := s.temporaries + 1 }).map (·.2),
      s.files.find? path = none := by
    intro path listed
    rcases List.mem_cons.mp listed with rfl | output
    · exact stagedFile_absent sound
    · obtain ⟨p, member, rfl⟩ := List.mem_map.mp output
      obtain ⟨number, low, _, named⟩ := mem_outputs member
      rw [named]
      exact sound.fresh number p.1 (Nat.le_of_succ_le low)
  constructor
  · rintro same ⟨output, listed, present⟩
    have apart : output.2 ∉ [stagedFile s] := by
      rw [List.mem_singleton]
      intro staged
      exact stagedFile_not_output s (staged ▸ List.mem_map_of_mem listed)
    have here : (files.eraseAll [stagedFile s]).find? output.2 = s.files.find? output.2 :=
      congrArg (·[output.2]?) same
    rw [Files.find?_eraseAll, if_neg apart,
      absent _ (List.mem_cons_of_mem _ (List.mem_map_of_mem listed))] at here
    rw [Files.contains_eq, here] at present
    cases present
  · intro none
    apply Files.entries_ext
    intro path
    rw [Files.find?_eraseAll]
    split
    · rename_i staged
      rw [absent path (List.mem_cons.mpr (.inl (List.mem_singleton.mp staged)))]
    · rename_i notStaged
      by_cases output : path ∈ (allOutputs { s with temporaries := s.temporaries + 1 }).map (·.2)
      · rw [absent path (List.mem_cons_of_mem _ output)]
        obtain ⟨p, member, rfl⟩ := List.mem_map.mp output
        cases found : files.find? p.2 with
        | none => rfl
        | some entry =>
            refine absurd ⟨p, member, ?_⟩ none
            rw [Files.contains_eq, found]
            rfl
      · apply ready.besides.others
        rw [List.mem_cons, not_or]
        exact ⟨by simpa using notStaged, output⟩

end

/-- An upload that is ready and of which a file is moved leaves a trace. -/
theorem moved_traces {s ready : Service} {target : Target} {announced : Option Nat} {body : Stream}
    {size : Nat} {dump : Dump} {converted : List (Encoding × String)}
    (reaches : ReachesMoves announced body s size dump converted ready)
    {first : List (Encoding × String)} {before after : Files} (isReady : ready.files = before)
    (among : first <+: moves (stagedFile s) s.flags.enabled converted)
    (moved : Moves (s.basePath target) first before after) (some : first ≠ []) :
    LeavesTrace target announced body s := by
  obtain ⟨more, all⟩ := among
  cases moved with
  | done files => exact absurd rfl some
  | @next kind source rest _ _ _ renamed others =>
      refine ⟨size, dump, converted, ready, reaches,
        .inl ⟨(kind, source), rest ++ more, all.symm, ?_⟩⟩
      rw [isReady, renamed]

/-- If the first move is refused, an upload leaves a trace only if there is an output. -/
theorem refused_traces_iff {s ready : Service} {target : Target} {announced : Option Nat}
    {body : Stream} {size : Nat} {dump : Dump} {converted : List (Encoding × String)}
    (reaches : ReachesMoves announced body s size dump converted ready)
    {next : Encoding × String} {rest : List (Encoding × String)} {fault : SystemFault}
    (list : moves (stagedFile s) s.flags.enabled converted = next :: rest)
    (refused : (ready.files.rename next.2 (next.1.path (s.basePath target))).1 = .error fault) :
    LeavesTrace target announced body s ↔ ∃ output ∈ converted, ready.files.contains output.2 := by
  constructor
  · rintro ⟨_, _, converted', ready', also, reason⟩
    obtain ⟨rfl, rfl⟩ := reaches.unique also
    rcases reason with ⟨first, others, all, made⟩ | left
    · rw [list] at all
      cases all
      rw [refused] at made
      cases made
    · exact left
  · exact fun left => ⟨size, dump, converted, ready, reaches, .inr left⟩

/-- An upload that is turned down leaves everything as it was unless it leaves a trace. -/
theorem accept_unchanged_iff [Gzip.Compressor] {s after : Service} (sound : s.Sound)
    {target : Target} (flat : '/' ∉ target.commit.toList) (enabled : s.flags.enabled ≠ [])
    {announced : Option Nat} {body : Stream} {rejection : Rejection} (metrics : Metrics)
    (run : accept target announced body s = (.error rejection, after)) :
    s.Unchanged { after with metrics } ↔ ¬ LeavesTrace target announced body s := by
  have accepted := accept_run sound target announced body
  rw [run] at accepted
  generalize result : (Except.error rejection, after) = outcome at accepted
  cases accepted with
  | turnedDown rejection files temporaries besides later never =>
      cases result
      constructor
      · rintro - ⟨size, dump, converted, ready, reaches, _⟩
        exact never size dump converted ready reaches
      · intro _
        exact s.unchanged_of_entries temporaries metrics besides.entries
  | committed size dump converted ready committed outcome reaches committing =>
      have committing' := commit_run target (stagedFile s) dump converted ready
      rw [committing] at committing'
      cases outcome with
      | ok done => cases congrArg Prod.fst result
      | error failure =>
          obtain rfl :
              after = { committed with files := committed.files.eraseAll [stagedFile s] } :=
            congrArg Prod.snd result
          obtain ⟨files, _, _, rfl, rfl, standing⟩ := reaches.ready sound
          rcases committing'.error_cases (uploadMoves_ne_nil enabled) with
            ⟨first, some, among, moved⟩ | ⟨fault, next, rest, list, rfl, refused⟩
          · have traces := moved_traces reaches rfl among moved some
            refine ⟨fun unchanged => ?_, fun none => absurd traces none⟩
            obtain ⟨p, listed⟩ := List.exists_mem_of_ne_nil first some
            exact absurd unchanged.entries (moved_changes sound flat standing among moved listed)
          · rw [refused_traces_iff reaches list (congrArg Prod.fst refused),
              ← ready_entries_iff sound standing]
            exact ⟨fun unchanged => unchanged.entries,
              fun entries => s.unchanged_of_entries _ metrics entries⟩

end Upload

namespace Service

/-- The upload that a request brings leaves a trace. -/
def UploadLeavesTrace (request : Request) (s : Service) : Prop :=
  ∃ target, Endpoint.NamesTarget request target ∧
    Upload.LeavesTrace target (Endpoint.announcedSize? request) request.body s

/-- An upload that fails leaves everything as it was, unless a file was moved into place or the
first move was refused while there was output of the converter. -/
theorem failed_upload_unchanged_iff [Gzip.Compressor] {s after : Service} (reachable : s.Reachable)
    (enabled : s.flags.enabled ≠ []) {request : Request} (upload : IsUpload request)
    (elapsed : Binary64) {response : Response}
    (answered : respond elapsed request s = (response, after)) (failed : response.status ≠ .ok) :
    s.Unchanged after ↔ ¬ UploadLeavesTrace request s := by
  rw [respond_upload upload] at answered
  have uploading := Endpoint.upload_answered elapsed request s
  rw [answered] at uploading
  cases uploading with
  | stored target size t names run => exact absurd rfl failed
  | noTarget response metrics unnamed =>
      constructor
      · rintro - ⟨target, names, _⟩
        exact unnamed target names
      · intro _
        exact s.unchanged_of_entries s.temporaries metrics rfl
  | rejected target rejection t metrics names run =>
      rw [Upload.accept_unchanged_iff reachable.sound names.flat enabled metrics run]
      constructor
      · rintro untraced ⟨other, also, traces⟩
        rw [← names.unique also] at traces
        exact untraced traces
      · intro untraced traces
        exact untraced ⟨target, names, traces⟩

open scoped Gzip

/-- A service whose index of packages cannot be used, and that keeps dumps as they are. -/
def brokenIndex : Service :=
  .start "dumps" ⟨true, false, false⟩ ⟨1000, 1000, 1000, 1000⟩ (bareTree "dumps")
    (.broken .noElements) Converter.builtin

/-- The upload is answered with an error, and yet its dump is stored. -/
theorem brokenIndex_stores :
    (respond (.ofNat 0) smallUpload brokenIndex).1.status ≠ .ok ∧
      (respond (.ofNat 0) smallUpload brokenIndex).2.files.contains
        "dumps/r@0000000000000000000000000000000000000000.lsif" ∧
      ¬ brokenIndex.files.contains "dumps/r@0000000000000000000000000000000000000000.lsif" := by
  decide +kernel

theorem brokenIndex_changes :
    ¬ brokenIndex.Unchanged (respond (.ofNat 0) smallUpload brokenIndex).2 := by
  intro unchanged
  obtain ⟨_, stored, absent⟩ := brokenIndex_stores
  have same := congrArg
    (·.contains "dumps/r@0000000000000000000000000000000000000000.lsif") unchanged.entries
  exact absent (same.symm.trans stored)

/-- An upload leaves a trace if only the index cannot be updated. -/
theorem brokenIndex_leavesTrace : UploadLeavesTrace smallUpload brokenIndex := by
  have reachable : brokenIndex.Reachable := reachable_bareTree _ _ _ _
  have decides :=
    failed_upload_unchanged_iff reachable (by decide) isUpload_smallUpload (.ofNat 0) rfl
    brokenIndex_stores.1
  by_contra untraced
  exact brokenIndex_changes (decides.mpr untraced)

/-- Not every upload that fails leaves everything as it was. -/
theorem failed_upload_may_change :
    ¬ ∀ (s : Service) (request : Request) (elapsed : Binary64), s.Reachable →
      s.flags.enabled ≠ [] → IsUpload request → (respond elapsed request s).1.status ≠ .ok →
      s.Unchanged (respond elapsed request s).2 := by
  intro claim
  exact brokenIndex_changes (claim brokenIndex smallUpload (.ofNat 0) (reachable_bareTree _ _ _ _)
    (by decide) isUpload_smallUpload brokenIndex_stores.1)

end Service

end CodeNav
