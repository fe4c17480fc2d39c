/-
Module: CodeNav.Proofs.Service.SizeLimit
Purpose: The limit on the size of uploads is kept exactly, by dumps as they arrive and expanded.
Main exports:
  Service.SameBut, Upload.accept_within, Upload.accept_divided, Service.KeepsSizeLimit,
  Service.keeps_size_limit
-/
import CodeNav.Proofs.Dump.Expanded
import CodeNav.Proofs.Service.FailedUploads
import CodeNav.Proofs.Service.Receiving
import CodeNav.Proofs.Service.SameStore
import CodeNav.Proofs.Service.StoredUploads

namespace CodeNav

open Stateful
open Http (Request Response Status Stream)

/-! ### Services with other limits or times -/

namespace Service

/-- Services that differ in their limits and, in a way that the converter does not mind, in their
files. -/
structure SameBut (F : Files → Files → Prop) (s t : Service) : Prop where
  state : t = { s with files := t.files, limits := t.limits }
  files : F s.files t.files
  converts : ∀ input output kind, Respects F (s.converter input output kind)

/-- A service with another limit on the size of uploads. -/
def withUploadLimit (s : Service) (limit : Nat) : Service :=
  { s with limits := { s.limits with maxUploadBytes := limit } }

end Service

namespace Upload

open Service (SameBut)

theorem immaterial_sameBut {F : Files → Files → Prop} (insensitive : FilesM.Insensitive F) :
    Immaterial F (SameBut F) where
  insensitive := insensitive
  onFiles := by
    intro α c d related s t same
    obtain ⟨result, files⟩ := related s.files t.files same.files
    refine ⟨result, ?_, files, same.converts⟩
    exact congrArg (fun u : Service => { u with files := (d t.files).2 }) same.state
  converts := by
    intro s t same input output kind
    rw [same.state]
    exact same.converts input output kind
  root same := (congrArg Service.root same.state).symm
  flags same := (congrArg Service.flags same.state).symm
  index same := (congrArg Service.index same.state).symm
  temporaries same := (congrArg Service.temporaries same.state).symm
  indexed same index :=
    { same with state := congrArg (fun u : Service => { u with index }) same.state }
  named same :=
    { same with
      state := congrArg (fun u : Service => { u with temporaries := u.temporaries + 1 })
        same.state }
  forgotten same target :=
    { same with state := congrArg (fun u : Service => u.forgetTarget target) same.state }

theorem reads_octets {s : Service} {path : String} {octets : List UInt8} {f : File}
    (stands : s.files.find? path = some (.file f)) (holds : f.content = .octets octets) :
    (ServiceM.onFiles (FilesM.system (Files.read path)) s).1 = .ok (.octets octets) := by
  unfold ServiceM.onFiles
  rw [Converter.system_run, Files.read_file stands, holds]
  rfl

section

variable {F : Files → Files → Prop} (insensitive : FilesM.Insensitive F)
include insensitive

/-- A dump is checked alike under limits that come to the same for it. -/
theorem validate_sameBut {s t : Service} (same : s.SameBut F t) {path : String}
    {octets : List UInt8} {f : File} (stands : s.files.find? path = some (.file f))
    (holds : f.content = .octets octets)
    (parses : Dump.parse (some s.limits.maxUploadBytes) octets =
      Dump.parse (some t.limits.maxUploadBytes) octets) :
    (validate path s).1 = (validate path t).1 ∧
      (validate path s).2.SameBut F (validate path t).2 := by
  have read := (immaterial_sameBut insensitive).onFiles (insensitive.read path) s t same
  have content := reads_octets stands holds
  rw [validate_read (Prod.ext content rfl), validate_read (Prod.ext (read.1.symm.trans content) rfl),
    parses]
  exact ⟨rfl, read.2⟩

/-- Bodies that are received alike come to the same. -/
theorem receiveAndStore_sameBut {target : Target} {s t u v : Service} {body other : Stream}
    {staged : String} {result : Except Rejection Nat} {octets : List UInt8} {f : File}
    (first : receive body staged s.limits.maxUploadBytes s = (result, u))
    (second : receive other staged t.limits.maxUploadBytes t = (result, v))
    (same : u.SameBut F v) (stands : u.files.find? staged = some (.file f))
    (holds : f.content = .octets octets)
    (parses : Dump.parse (some u.limits.maxUploadBytes) octets =
      Dump.parse (some v.limits.maxUploadBytes) octets) :
    (receiveAndStore target body staged s).1 = (receiveAndStore target other staged t).1 := by
  cases result with
  | error rejection =>
      rw [receiveAndStore_stops first, receiveAndStore_stops second]
  | ok size =>
      have checked := validate_sameBut insensitive same stands holds parses
      have stored : (store target staged u).1 = (store target staged v).1 :=
        (alike_store_from (immaterial_sameBut insensitive) checked).1
      rw [receiveAndStore_fst first, receiveAndStore_fst second, stored]

end

/-! ### What accepting comes to -/

/-- That files are discarded does not show in the result. -/
theorem discard_fst (paths : List String) (s : Service) : (discard paths s).1 = .ok ⟨⟩ := by
  induction paths generalizing s with
  | nil => rfl
  | cons path rest ih => exact ih _

theorem acceptAllowed_fst (target : Target) (body : Stream) (s : Service) :
    (acceptAllowed target body s).1 =
      (receiveAndStore target body (stagedFile s)
        { s with temporaries := s.temporaries + 1 }).1 := by
  let named : Service := { s with temporaries := s.temporaries + 1 }
  generalize run : receiveAndStore target body (stagedFile s) named = result
  obtain ⟨outcome, t⟩ := result
  have names : RequestM.ofService (temporaryPath Encoding.json.extension) s =
      (.ok (stagedFile s), named) := rfl
  have stored : RequestM.attempt (receiveAndStore target body (stagedFile s)) named =
      (.ok outcome, t) := by
    unfold RequestM.attempt
    rw [run]
  have discarded : (RequestM.ofService (discard [stagedFile s]) t).1 = .ok ⟨⟩ :=
    congrArg (Except.mapError Rejection.failure) (discard_fst [stagedFile s] t)
  unfold acceptAllowed
  rw [bind_ok names, bind_ok stored, bind_fst discarded]
  cases outcome <;> rfl

theorem accept_fst (target : Target) {announced : Option Nat} (body : Stream) {s : Service}
    (allowed : ∀ size ∈ announced, size ≤ s.limits.maxUploadBytes) :
    (accept target announced body s).1 =
      (receiveAndStore target body (stagedFile s)
        { s with temporaries := s.temporaries + 1 }).1 := by
  rw [accept_allowed target body allowed, acceptAllowed_fst]

theorem store_refused (target : Target) {s : Service} {staged : String} {octets : List UInt8}
    {f : File} {failure : Failure} (stands : s.files.find? staged = some (.file f))
    (holds : f.content = .octets octets)
    (refused : Dump.parse (some s.limits.maxUploadBytes) octets = .error failure) :
    (store target staged s).1 = .error (blameRequest failure) := by
  have checked := validate_read (Prod.ext (reads_octets stands holds) rfl)
  rw [refused] at checked
  exact congrArg Prod.fst (bind_error (bind_error checked))

theorem failureStatus_ne_contentTooLarge (cause : Failure) :
    Rejection.failureStatus cause ≠ .contentTooLarge := by
  unfold Rejection.failureStatus
  split
  · decide
  · split <;> decide

/-- The response to what accepting an upload comes to. -/
def reply : Except Rejection Nat → Response
  | .ok _ => .text .ok "Upload successful."
  | .error rejection => rejection.response

/-- An upload that announces too much is turned down before any of it arrives. -/
theorem accept_announced (target : Target) {announced : Option Nat} (body : Stream) {s : Service}
    {size : Nat} (states : size ∈ announced) (large : s.limits.maxUploadBytes < size) :
    (reply (accept target announced body s).1).status = .contentTooLarge := by
  rw [accept_tooLarge target body states large]
  rfl

section

variable {s : Service} (sound : s.Sound)
  (staging : s.files.isDirectory (Files.join s.root Service.temporaryName))
  (target : Target) {announced : Option Nat} {body : Stream}
include sound staging

/-- A body beyond the limit is turned down for its size, whatever size was announced. -/
theorem accept_beyond (beyond : s.limits.maxUploadBytes < body.portions.flatten.length) :
    (reply (accept target announced body s).1).status = .contentTooLarge := by
  let named : Service := { s with temporaries := s.temporaries + 1 }
  rcases allowed_or_announced announced s.limits.maxUploadBytes with
    allowed | ⟨size, states, large⟩
  · obtain ⟨absent, inDirectory⟩ := stagedFile_opens sound staging
    obtain ⟨_, _, _, run, _⟩ := receive_beyond absent inDirectory body beyond named rfl
    rw [accept_fst target body allowed, receiveAndStore_stops run]
    rfl
  · exact accept_announced target body states large

/-- What is within the limit is received and goes on to be stored, unless it broke off. -/
theorem accept_within (allowed : ∀ size ∈ announced, size ≤ s.limits.maxUploadBytes)
    (within : body.portions.flatten.length ≤ s.limits.maxUploadBytes) :
    ∃ u f, u.limits = s.limits ∧ u.files.find? (stagedFile s) = some (.file f) ∧
      f.content = .octets body.portions.flatten ∧
      (accept target announced body s).1 =
        (concluded body.broken body.portions.flatten.length >>= fun size =>
          ((store target (stagedFile s) u).1.map fun _ => size).mapError .failure) := by
  let named : Service := { s with temporaries := s.temporaries + 1 }
  obtain ⟨absent, inDirectory⟩ := stagedFile_opens sound staging
  obtain ⟨files, refilled, run⟩ := receive_within absent inDirectory body
  have run := run named s.limits.maxUploadBytes rfl within
  obtain ⟨f, stands, holds⟩ := refilled.holds
  refine ⟨{ named with files }, f, rfl, stands, holds, ?_⟩
  rw [accept_fst target body allowed]
  cases concluding : concluded body.broken body.portions.flatten.length with
  | error rejection =>
      rw [concluding] at run
      rw [receiveAndStore_stops run]
      rfl
  | ok size =>
      rw [concluding] at run
      exact receiveAndStore_fst run

/-- Nothing within the limit is turned down as too large a body. -/
theorem accept_within_status (allowed : ∀ size ∈ announced, size ≤ s.limits.maxUploadBytes)
    (within : body.portions.flatten.length ≤ s.limits.maxUploadBytes) :
    (reply (accept target announced body s).1).status ≠ .contentTooLarge := by
  obtain ⟨u, _, _, _, _, result⟩ := accept_within sound staging target allowed within
  rw [result]
  cases body.broken with
  | some reason => exact nofun
  | none =>
      cases (store target (stagedFile s) u).1 with
      | ok done => exact nofun
      | error failure => exact failureStatus_ne_contentTooLarge failure

/-- A compressed dump that expands past the limit is turned down as invalid. -/
theorem accept_expanded (allowed : ∀ size ∈ announced, size ≤ s.limits.maxUploadBytes)
    (within : body.portions.flatten.length ≤ s.limits.maxUploadBytes)
    (compressed : Gzip.isGzip body.portions.flatten)
    (beyond : s.limits.maxUploadBytes < (Gzip.expanded body.portions.flatten).length) :
    (reply (accept target announced body s).1).status = .badRequest := by
  obtain ⟨u, f, limits, stands, holds, result⟩ := accept_within sound staging target allowed within
  rw [result]
  cases body.broken with
  | some reason => rfl
  | none =>
      rw [← limits] at beyond
      obtain ⟨failure, refused, which⟩ := Dump.parse_beyond compressed beyond
      change (reply (((store target (stagedFile s) u).1.map _).mapError _)).status = _
      rw [store_refused target stands holds refused]
      rcases which with rfl | rfl <;> rfl

/-- A greater limit makes no difference to what is within the limit, expanded or not. -/
theorem accept_limit (allowed : ∀ size ∈ announced, size ≤ s.limits.maxUploadBytes)
    (within : body.portions.flatten.length ≤ s.limits.maxUploadBytes)
    (fits : Gzip.isGzip body.portions.flatten →
      (Gzip.expanded body.portions.flatten).length ≤ s.limits.maxUploadBytes)
    {greater : Nat} (most : s.limits.maxUploadBytes ≤ greater) :
    (accept target announced body (s.withUploadLimit greater)).1 =
      (accept target announced body s).1 := by
  let named : Service := { s with temporaries := s.temporaries + 1 }
  obtain ⟨absent, inDirectory⟩ := stagedFile_opens sound staging
  obtain ⟨files, refilled, run⟩ := receive_within absent inDirectory body
  obtain ⟨f, stands, holds⟩ := refilled.holds
  have first := run named s.limits.maxUploadBytes rfl within
  have second := run (named.withUploadLimit greater) greater rfl (Nat.le_trans within most)
  have same : ({ named with files } : Service).SameBut Eq
      { named.withUploadLimit greater with files } :=
    ⟨rfl, rfl, fun _ _ _ => FilesM.respects_eq _⟩
  have parses : Dump.parse (some s.limits.maxUploadBytes) body.portions.flatten =
      Dump.parse (some greater) body.portions.flatten := by
    rw [Dump.parse_eq_unlimited fits,
      Dump.parse_eq_unlimited fun compressed => Nat.le_trans (fits compressed) most]
  rw [accept_fst target body allowed, accept_fst target body fun size states =>
    Nat.le_trans (allowed size states) most]
  exact (receiveAndStore_sameBut FilesM.insensitive_eq first second same stands holds parses).symm

/-- Bodies that are the same as a whole are answered alike, unless the converter minds times. -/
theorem accept_divided
    (timeless : ∀ input output kind, Respects Files.Matching (s.converter input output kind))
    {portions : List (List UInt8)} (same : portions.flatten = body.portions.flatten) :
    (reply (accept target announced { body with portions } s).1).status =
      (reply (accept target announced body s).1).status := by
  let named : Service := { s with temporaries := s.temporaries + 1 }
  rcases Nat.lt_or_ge s.limits.maxUploadBytes body.portions.flatten.length with beyond | within
  · have also : s.limits.maxUploadBytes < portions.flatten.length := same ▸ beyond
    exact (accept_beyond sound staging target also).trans
      (accept_beyond sound staging target beyond).symm
  rcases allowed_or_announced announced s.limits.maxUploadBytes with
    allowed | ⟨size, states, large⟩
  · obtain ⟨absent, inDirectory⟩ := stagedFile_opens sound staging
    obtain ⟨files, refilled, run⟩ := receive_within absent inDirectory body
    obtain ⟨others, also, runs⟩ := receive_within absent inDirectory { body with portions }
    obtain ⟨f, stands, holds⟩ := refilled.holds
    have first := run named s.limits.maxUploadBytes rfl within
    have second := runs named s.limits.maxUploadBytes rfl (same ▸ within)
    dsimp only at also second
    rw [same] at also second
    have alike : ({ named with files } : Service).SameBut Files.Matching
        { named with files := others } :=
      ⟨rfl, refilled.matching also, timeless⟩
    rw [accept_fst target _ allowed, accept_fst target _ allowed, receiveAndStore_sameBut
      Files.Matching.insensitive first second alike stands holds rfl]
  · rw [accept_announced target _ states large, accept_announced target _ states large]

omit staging in
/-- What does not reach its first move is turned down without a trace. -/
theorem accept_turnedDown (never : ∀ size dump converted ready,
    ¬ ReachesMoves announced body s size dump converted ready) :
    ∃ rejection files temporaries, accept target announced body s =
        (.error rejection, { s with files, temporaries }) ∧
      Files.Besides [] s.files files := by
  have accepted := accept_run sound target announced body
  generalize accept target announced body s = result at accepted
  cases accepted with
  | turnedDown rejection files temporaries besides later _ =>
      exact ⟨rejection, files, temporaries, rfl, besides⟩
  | committed size dump converted ready after outcome reaches run =>
      exact absurd reaches (never size dump converted ready)

end

end Upload

/-! ### Responses -/

namespace Service

section

variable [Gzip.Compressor] {request : Request} {target : Target} (upload : IsUpload request)
  (names : Endpoint.NamesTarget request target) (elapsed : Binary64)
include upload names

theorem respond_reply (s : Service) : (respond elapsed request s).1 =
    Upload.reply
      (Upload.accept target (Endpoint.announcedSize? request) request.body s).1 := by
  rw [respond_upload upload]
  have answered := Endpoint.upload_named names elapsed s
  generalize Upload.accept target (Endpoint.announcedSize? request) request.body s = result
    at answered ⊢
  obtain ⟨outcome, t⟩ := result
  cases outcome with
  | error rejection =>
      obtain ⟨_, answered⟩ := answered
      rw [answered]
      rfl
  | ok size =>
      dsimp only at answered
      rw [answered]
      rfl

/-- An upload that is stored has reached its first move. -/
theorem reachesMoves_of_ok {s : Service} (sound : s.Sound)
    (accepted : (respond elapsed request s).1.status = .ok) :
    ∃ size dump converted ready, Upload.ReachesMoves (Endpoint.announcedSize? request)
      request.body s size dump converted ready := by
  by_contra never
  push Not at never
  obtain ⟨rejection, _, _, run, _⟩ := Upload.accept_turnedDown sound target never
  rw [respond_reply upload names elapsed, run] at accepted
  exact Upload.refuses_accept target _ _ s rejection _ run accepted

/-- An upload that does not reach its first move leaves everything as it was. -/
theorem unchanged_of_never {s : Service} (sound : s.Sound)
    (never : ∀ size dump converted ready, ¬ Upload.ReachesMoves (Endpoint.announcedSize? request)
      request.body s size dump converted ready) :
    s.Unchanged (respond elapsed request s).2 := by
  obtain ⟨rejection, files, temporaries, turnedDown, besides⟩ :=
    Upload.accept_turnedDown sound target never
  have answered := Endpoint.upload_named names elapsed s
  rw [turnedDown] at answered
  obtain ⟨metrics, answered⟩ := answered
  rw [respond_upload upload, answered]
  exact s.unchanged_of_entries temporaries metrics besides.entries

end

/-! ### The limit -/

/-- How an upload fares under the limit on its size: by what it announces, by what arrives of it,
and, if that is compressed, by what comes out of it. -/
structure KeepsSizeLimit [Gzip.Compressor] (elapsed : Binary64) (request : Request) (s : Service)
    (limit : Nat) (octets : List UInt8) : Prop where
  /-- What is stored is within the limit, as it arrives and expanded. -/
  stored : (respond elapsed request s).1.status = .ok → octets.length ≤ limit ∧
    (Gzip.isGzip octets →
      Gzip.decompress none octets = .ok (.content (Gzip.expanded octets)) ∧
        (Gzip.expanded octets).length ≤ limit)
  announced : ∀ size ∈ Endpoint.announcedSize? request, limit < size →
    (respond elapsed request s).1.status = .contentTooLarge ∧
      s.Unchanged (respond elapsed request s).2
  arrived : limit < octets.length →
    (respond elapsed request s).1.status = .contentTooLarge ∧
      s.Unchanged (respond elapsed request s).2
  expanded : (∀ size ∈ Endpoint.announcedSize? request, size ≤ limit) → octets.length ≤ limit →
    Gzip.isGzip octets → limit < (Gzip.expanded octets).length →
    (respond elapsed request s).1.status = .badRequest ∧ s.Unchanged (respond elapsed request s).2
  /-- What is within the limit in all respects is answered as under any greater limit. -/
  within : (∀ size ∈ Endpoint.announcedSize? request, size ≤ limit) → octets.length ≤ limit →
    (Gzip.isGzip octets → (Gzip.expanded octets).length ≤ limit) →
    (respond elapsed request s).1.status ≠ .contentTooLarge ∧
      ∀ greater, limit ≤ greater →
        (respond elapsed request (s.withUploadLimit greater)).1 = (respond elapsed request s).1
  /-- While the body arrives, its file holds the beginning of it, and never more than the limit
  allows. What is left is received from there. -/
  written : ∀ front rest, request.body.portions = front ++ rest →
    (∃ f begun, (Upload.arriving front s).files.find? (Upload.stagedFile s) = some (.file f) ∧
      f.content = .octets begun ∧ begun <+: octets ∧ begun.length ≤ limit) ∧
    (front.flatten.length ≤ limit →
      Upload.receive request.body (Upload.stagedFile s) limit
          { s with temporaries := s.temporaries + 1 } =
        Upload.receiveRest { request.body with portions := rest } (Upload.stagedFile s) limit
          front.flatten (Upload.arriving front s))
  /-- The division into portions does not count, unless the converter goes by times. -/
  divided : (∀ input output kind, Respects Files.Matching (s.converter input output kind)) →
    ∀ portions, portions.flatten = octets →
      (respond elapsed { request with body := { request.body with portions } } s).1.status =
        (respond elapsed request s).1.status

/-- The limit on the size of uploads is kept, and keeps nothing out that is within it. -/
theorem keeps_size_limit [Gzip.Compressor] {s : Service} (reachable : s.Reachable)
    {request : Request} {target : Target} (upload : IsUpload request)
    (names : Endpoint.NamesTarget request target)
    (staging : s.files.isDirectory (Files.join s.root temporaryName)) (elapsed : Binary64) :
    KeepsSizeLimit elapsed request s s.limits.maxUploadBytes request.body.portions.flatten := by
  have sound := reachable.sound
  have response := respond_reply upload names elapsed
  have unchanged := unchanged_of_never upload names elapsed sound
  have large (beyond : s.limits.maxUploadBytes < request.body.portions.flatten.length) :
      (respond elapsed request s).1.status = .contentTooLarge := by
    rw [response]
    exact Upload.accept_beyond sound staging target beyond
  constructor
  case stored =>
    intro accepted
    obtain ⟨_, dump, _, _, reaches⟩ := reachesMoves_of_ok upload names elapsed sound accepted
    obtain ⟨_, _, parsed, _⟩ := reaches.ready sound
    refine ⟨Nat.le_of_not_lt fun beyond => ?_, Dump.expanded_of_parse parsed⟩
    rw [large beyond] at accepted
    cases accepted
  case announced =>
    intro size states beyond
    refine ⟨?_, unchanged fun _ _ _ _ reaches => ?_⟩
    · rw [response]
      exact Upload.accept_announced target _ states beyond
    · exact absurd (reaches.within size states) (Nat.not_le.mpr beyond)
  case arrived =>
    intro beyond
    refine ⟨large beyond, unchanged fun _ _ _ _ reaches => ?_⟩
    obtain ⟨_, receives, _⟩ := reaches.run
    obtain ⟨absent, inDirectory⟩ := Upload.stagedFile_opens sound staging
    obtain ⟨_, _, _, refused, _⟩ := Upload.receive_beyond absent inDirectory request.body beyond
      { s with temporaries := s.temporaries + 1 } rfl
    rw [refused] at receives
    cases receives
  case expanded =>
    intro allowed fits compressed beyond
    refine ⟨?_, unchanged fun _ _ _ _ reaches => ?_⟩
    · rw [response]
      exact Upload.accept_expanded sound staging target allowed fits compressed beyond
    · obtain ⟨_, _, parsed, _⟩ := reaches.ready sound
      exact absurd (Dump.expanded_of_parse parsed compressed).2 (Nat.not_le.mpr beyond)
  case within =>
    intro allowed fits expands
    refine ⟨?_, fun greater most => ?_⟩
    · rw [response]
      exact Upload.accept_within_status sound staging target allowed fits
    · rw [response, response]
      exact congrArg _ (Upload.accept_limit sound staging target allowed fits expands most)
  case written =>
    intro front rest divided
    obtain ⟨f, octets, stands, holds, begun, fits⟩ := Upload.arriving_holds sound staging front
    refine ⟨⟨f, octets, stands, holds, begun.trans ?_, fits⟩, fun keeps => ?_⟩
    · rw [divided, List.flatten_append]
      exact List.prefix_append _ _
    · have whole : request.body = ⟨front ++ rest, request.body.broken⟩ := divided ▸ rfl
      rw [whole]
      exact Upload.receive_arriving sound staging _ keeps
  case divided =>
    intro timeless portions same
    let other : Request := { request with body := { request.body with portions } }
    have again : IsUpload other := upload
    rw [response, respond_reply again names elapsed]
    exact Upload.accept_divided sound staging target timeless same

/-! ### A dump that expands -/

/-- A member of 23 octets, from which 32 blank lines come out. -/
def expandingDump : List UInt8 :=
  [0x1F, 0x8B, 8, 0, 0, 0, 0, 0, 0, 0xFF, 0xE3, 0xE2, 0xC2, 0x0F, 0x00, 0xE5, 0x9E, 0x41, 0x80,
    0x20, 0x00, 0x00, 0x00]

theorem expandingDump_expands : ∃ content,
    Gzip.decompress none expandingDump = .ok (.content content) ∧ 30 < content.length := by
  have read : (Gzip.decompress none expandingDump).toOption =
      some (.content (List.replicate 32 0x0A)) := by
    decide +kernel
  exact ⟨_, Success.toOption_eq_some.mp read, by decide⟩

/-- An upload of that member. -/
def expandingUpload : Request :=
  { smallUpload with body := ⟨[expandingDump], none⟩ }

open scoped Gzip

/-- A service whose limit lies between the two sizes. -/
def narrowService : Service :=
  .start "dumps" ⟨true, true, true⟩ ⟨1000, 30, 1000, 1000⟩ (bareTree "dumps")
    (.available .empty) Converter.builtin

theorem reachable_narrowService : narrowService.Reachable :=
  reachable_bareTree _ _ _ _

/-- The member arrives within the limit, and is turned down for what comes out of it, however it is
divided. -/
theorem keeps_size_limit_expanding :
    (respond (.ofNat 0) expandingUpload narrowService).1.status = .badRequest ∧
      narrowService.Unchanged (respond (.ofNat 0) expandingUpload narrowService).2 ∧
      ∀ portions, portions.flatten = expandingDump →
        (respond (.ofNat 0) { expandingUpload with body := ⟨portions, none⟩ }
          narrowService).1.status = .badRequest := by
  obtain ⟨content, read, beyond⟩ := expandingDump_expands
  have expands : 30 < (Gzip.expanded expandingDump).length := by
    rwa [← Gzip.Outcome.content.inj (Gzip.eq_content_expanded read)]
  have upload : IsUpload expandingUpload := isUpload_smallUpload
  have keeps := keeps_size_limit reachable_narrowService upload smallUpload_names
    (by decide +kernel) (.ofNat 0)
  obtain ⟨invalid, unchanged⟩ := keeps.expanded nofun (by decide) (by decide) expands
  refine ⟨invalid, unchanged, fun portions same => ?_⟩
  exact (keeps.divided Converter.builtin_matching portions same).trans invalid

/-- The same upload with more announced than the limit allows. -/
def boastingUpload : Request :=
  { expandingUpload with headers := [("content-length", "31")] }

/-- Not every compressed dump that arrives within the limit and expands past it is turned down as
invalid. -/
theorem expanding_may_be_too_large :
    ¬ ∀ (s : Service) (request : Request) (target : Target) (elapsed : Binary64), s.Reachable →
      IsUpload request → Endpoint.NamesTarget request target →
      s.files.isDirectory (Files.join s.root temporaryName) →
      request.body.portions.flatten.length ≤ s.limits.maxUploadBytes →
      Gzip.isGzip request.body.portions.flatten →
      (∃ content, Gzip.decompress none request.body.portions.flatten = .ok (.content content) ∧
        s.limits.maxUploadBytes < content.length) →
      (respond elapsed request s).1.status = .badRequest := by
  intro claim
  have upload : IsUpload boastingUpload := isUpload_smallUpload
  have invalid := claim narrowService boastingUpload smallTarget (.ofNat 0)
    reachable_narrowService upload smallUpload_names (by decide +kernel) (by decide) (by decide)
    expandingDump_expands
  have announced : 31 ∈ Endpoint.announcedSize? boastingUpload := by decide +kernel
  rw [respond_reply upload smallUpload_names,
    Upload.accept_announced smallTarget boastingUpload.body announced (by decide)] at invalid
  cases invalid

end Service

end CodeNav
