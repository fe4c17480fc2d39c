/-
Module: CodeNav.Proofs.Service.Reachable
Purpose: The states that a service gets into by answering requests, all of which are sound.
Main exports:
  Service.Reachable, Service.Reachable.sound
-/
import CodeNav.Proofs.Service.Answering

namespace CodeNav

open Stateful
open Http (Parameters Request Response)

namespace Service

/-! ### Housekeeping -/

namespace Sound

variable {s : Service}

theorem evictKey (key : String) : Keeps Sound (Service.evictKey key) := by
  intro s sound
  have registered := registered_evictKey key s sound.registered
  rw [evictKey_frame]
  exact { sound with registered := registered }

theorem remove (path : String) :
    Keeps Sound (ServiceM.onFiles (FilesM.system (Files.remove path))) := by
  intro s sound
  have run : (ServiceM.onFiles (FilesM.system (Files.remove path)) s).2 =
      { s with files := (s.files.remove path).2 } := by
    unfold ServiceM.onFiles
    rw [Converter.system_run]
  rw [run]
  rcases s.files.remove_cases path with ⟨f, _, removed⟩ | ⟨fault, refused⟩
  · rw [removed]
    refine ⟨sound.timely.erase path, ?_, sound.registered, sound.confined⟩
    intro number kind later
    rw [Files.find?_erase]
    split
    · rfl
    · exact sound.fresh number kind later
  · rw [refused]
    exact sound

theorem delete (file : Quota.StoredFile) : Keeps Sound (Quota.delete file) := by
  refine Keeps.bind (evictKey file.key) fun _ => ?_
  refine Keeps.bind (fun s sound => { sound with }) fun _ => ?_
  exact remove file.path

theorem attempt {α : Type} {c : ServiceM α} (keeps : Keeps Sound c) :
    Keeps Sound (ServiceM.attempt c) :=
  keeps

theorem trim (most total : Nat) (stored : List Quota.StoredFile) :
    Keeps Sound (Quota.trim most total stored) := by
  induction stored generalizing total with
  | nil => exact Keeps.pure _
  | cons file rest ih =>
      unfold Quota.trim
      split
      · exact Keeps.pure _
      · refine Keeps.bind (attempt (delete file)) fun outcome => ?_
        cases outcome with
        | ok done => exact Keeps.bind (ih _) fun _ => Keeps.pure _
        | error failure => exact ih total

theorem count (change : Metrics → Metrics) : Keeps Sound (RequestM.count change) :=
  fun _ sound => { sound with }

theorem ofService {α : Type} {c : ServiceM α} (keeps : Keeps Sound c) :
    Keeps Sound (RequestM.ofService c) :=
  keeps

theorem houseKeep (size : Nat) : Keeps Sound (Endpoint.houseKeep size) := by
  refine Keeps.get_bind fun s sound => ?_
  refine Keeps.bind (ofService ?_) (fun _ => count _) s sound
  exact Keeps.get_bind fun s sound => trim _ _ _ s sound

/-! ### Uploads -/

theorem accept {target : Target} (flat : '/' ∉ target.commit.toList) (announced : Option Nat)
    (body : Http.Stream) : Keeps Sound (Upload.accept target announced body) := by
  intro s sound
  have accepted := Upload.accept_run sound target announced body
  generalize Upload.accept target announced body s = result at accepted ⊢
  cases accepted with
  | turnedDown rejection files temporaries besides later never =>
      refine ⟨besides.timely sound.timely, ?_, sound.registered, sound.confined⟩
      intro number kind high
      rw [besides.others _ List.not_mem_nil]
      exact sound.fresh number kind (Nat.le_trans later high)
  | committed size dump converted ready after outcome reaches run =>
      have committed := Upload.commit_run target (Upload.stagedFile s) dump converted ready
      rw [run] at committed
      obtain ⟨files, _, _, convertedTo, rfl, standing⟩ := reaches.ready sound
      obtain ⟨first, _, moved⟩ := committed.moved
      have registered := committed.registered sound.registered
      have frame := committed.frame
      have root : after.root = s.root := by rw [frame]
      have temporaries : after.temporaries = s.temporaries + 1 + converted.length := by rw [frame]
      have converter : after.converter = s.converter := by rw [frame]
      constructor
      · exact (moved.timely (standing.besides.timely sound.timely)).eraseAll _
      · intro number kind later
        have later : s.temporaries + 1 + converted.length ≤ number := temporaries ▸ later
        change (after.files.eraseAll _).find? (temporaryFile after.root number kind) = none
        rw [root, Files.find?_eraseAll]
        split
        · rfl
        · apply moved.absent
          · rw [convertedTo] at later
            exact standing.fresh sound later
          · intro p _
            exact dumpFile_ne_temporary flat p.1 kind number
      · exact registered
      · change after.converter.Confined
        rw [converter]
        exact sound.confined

theorem receiveUpload (parameters : Parameters) (request : Request) :
    Keeps Sound (Endpoint.receiveUpload parameters request) := by
  unfold Endpoint.receiveUpload
  cases valid : Endpoint.targetOf parameters with
  | error failure => exact fun s sound => sound
  | ok target =>
      have flat := Target.slash_not_mem_commit valid
      exact accept flat _ _

theorem answerUpload (parameters : Parameters) (request : Request) :
    Keeps Sound (Endpoint.answerUpload parameters request) := by
  have attempted : Keeps Sound (RequestM.attempt (Endpoint.receiveUpload parameters request)) :=
    receiveUpload parameters request
  refine Keeps.bind attempted fun outcome => ?_
  cases outcome with
  | error rejection => exact Keeps.bind (count _) fun _ => Keeps.throw rejection
  | ok size =>
      have kept : Keeps Sound (RequestM.attempt (Endpoint.houseKeep size)) := houseKeep size
      exact Keeps.bind (count _) fun _ => Keeps.bind kept fun _ => Keeps.pure _

/-! ### Requests -/

theorem answer [Gzip.Compressor] (sound : s.Sound) (elapsed : Binary64) (request : Request)
    (endpoint : Endpoint) :
    (endpoint.answer elapsed request s).2.Sound := by
  by_cases lookup : endpoint.isLookup
  · exact (Endpoint.answersAlike_answer looks elapsed request lookup s s ⟨rfl, sound⟩).2.2
  · cases endpoint with
    | ping => exact sound
    | metrics => exact sound
    | presence => exact absurd rfl lookup
    | query => exact absurd rfl lookup
    | upload =>
        unfold Endpoint.answer Endpoint.withParameters
        cases Parameters.ofQuery [Endpoint.targetNames] request.query with
        | error cause => exact sound
        | ok parameters =>
            have kept := answerUpload parameters request s sound
            dsimp only
            unfold Endpoint.settle
            generalize Endpoint.answerUpload parameters request s = result at kept ⊢
            obtain ⟨outcome, t⟩ := result
            cases outcome <;> exact kept

theorem respond [Gzip.Compressor] (sound : s.Sound) (elapsed : Binary64) (request : Request) :
    (Service.respond elapsed request s).2.Sound := by
  unfold Service.respond
  split
  · exact sound
  · cases Endpoint.ofPath? request.path with
    | none => exact sound
    | some endpoint =>
        have answered := answer sound elapsed request endpoint
        dsimp only
        split
        · exact sound
        · split
          · exact answered
          · exact answered

end Sound

/-! ### Reachable states -/

/-- The states of a service that was started on a tree without temporary files and has answered
some requests. The converter writes to its output or not at all; whether it reports success is left
open. -/
inductive Reachable [Gzip.Compressor] : Service → Prop where
  | start (root : String) (flags : EncodingFlags) (limits : Limits) (files : Files)
      (index : IndexState) (converter : Converter) (sizes : Sizes) (timely : files.Timely)
      (empty : ∀ number kind, files.find? (temporaryFile root number kind) = none)
      (confined : converter.Confined) :
      Reachable (.start root flags limits files index converter sizes)
  | respond {s : Service} (elapsed : Binary64) (request : Request) (reached : Reachable s) :
      Reachable (Service.respond elapsed request s).2

/-- What holds at the start, and is kept by every answer, holds at any time. -/
theorem Reachable.sound [Gzip.Compressor] {s : Service} (reached : s.Reachable) : s.Sound := by
  induction reached with
  | start root flags limits files index converter sizes timely empty confined =>
      exact sound_start root flags limits index sizes timely empty confined
  | respond elapsed request _ ih => exact ih.respond elapsed request

/-! ### A first state, and an upload -/

/-- A tree with the directories of a service and without files. -/
def bareTree (root : String) : Files :=
  (Files.empty.put root .directory).put (Files.join root temporaryName) .directory

theorem bareTree_find? {root path : String} {entry : Entry}
    (stands : (bareTree root).find? path = some entry) :
    entry = .directory ∧ (path = root ∨ path = Files.join root temporaryName) := by
  unfold bareTree at stands
  rw [Files.find?_put, Files.find?_put] at stands
  split at stands
  · cases stands
    exact ⟨rfl, .inr (Eq.symm ‹_›)⟩
  · split at stands
    · cases stands
      exact ⟨rfl, .inl (Eq.symm ‹_›)⟩
    · simp [Files.empty, Files.find?] at stands

theorem bareTree_timely (root : String) : (bareTree root).Timely := by
  constructor
  · intro path f stands
    cases (bareTree_find? stands).1
  · intro path f stands
    cases (bareTree_find? stands).1

theorem bareTree_temporaryFile (root : String) (number : Nat) (kind : Encoding) :
    (bareTree root).find? (temporaryFile root number kind) = none := by
  cases found : (bareTree root).find? (temporaryFile root number kind) with
  | none => rfl
  | some entry =>
      have longer : (Files.join root temporaryName).toList.length <
          (temporaryFile root number kind).toList.length := by
        unfold temporaryFile
        rw [Files.toList_join _ ("upload-" ++ _ ++ _), List.length_append, List.length_cons]
        omega
      have longest : root.toList.length < (Files.join root temporaryName).toList.length := by
        rw [Files.toList_join, List.length_append, List.length_cons]
        omega
      rcases (bareTree_find? found).2 with same | same
      · rw [same] at longer
        omega
      · rw [same] at longer
        omega

theorem bareTree_noDump (root : String) (target : Target) (kind : Encoding) :
    (bareTree root).find? (dumpFile root target kind) = none := by
  cases found : (bareTree root).find? (dumpFile root target kind) with
  | none => rfl
  | some entry =>
      rw [dumpFile_eq] at found
      rcases (bareTree_find? found).2 with same | same
      · have lengths := congrArg (·.toList.length) same
        simp only [Files.toList_join, List.length_append, List.length_cons] at lengths
        omega
      · have marked : '@' ∈ (target.key ++ kind.extension).toList := by
          unfold Target.key
          simp
        rw [Files.join_injective same] at marked
        exact absurd marked (by decide)

theorem reachable_bareTree [Gzip.Compressor] (root : String) (flags : EncodingFlags)
    (limits : Limits) (index : IndexState) :
    Reachable (.start root flags limits (bareTree root) index Converter.builtin) :=
  .start root flags limits _ index _ _ (bareTree_timely root) (bareTree_temporaryFile root)
    Converter.builtin_faithful.confined

/-- A dump of one vertex, in one portion. -/
def smallUpload : Request where
  method := "POST"
  path := "/upload"
  query := "repository=r&commit=0000000000000000000000000000000000000000"
  headers := []
  body := ⟨[Utf8.encode "\x7b\"id\":1,\"type\":\"vertex\",\"label\":\"x\"\x7d"], none⟩

theorem isUpload_smallUpload : IsUpload smallUpload :=
  ⟨rfl, rfl⟩

end Service

end CodeNav
