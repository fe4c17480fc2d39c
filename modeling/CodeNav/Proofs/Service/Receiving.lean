/-
Module: CodeNav.Proofs.Service.Receiving
Purpose: Bodies that arrive in portions: what is written of them, however they are divided.
Main exports:
  Files.Refilled, Upload.receive_within, Upload.receive_beyond, Upload.arriving,
  Upload.arriving_holds, Upload.receive_arriving
-/
import CodeNav.Proofs.Service.Accepting
import CodeNav.Proofs.Store.Matching

namespace CodeNav

open Stateful
open Http (Stream)

/-! ### Files that are written over -/

/-- A tree is like an earlier one, times apart, except for what a file holds by now. -/
structure Files.Refilled (path : String) (octets : List UInt8) (before after : Files) : Prop where
  others : ∀ other, other ≠ path → after.find? other = before.find? other
  stands : ∃ f g, before.find? path = some (.file f) ∧ after.find? path = some (.file g) ∧
    g.serial = f.serial ∧ g.content = .octets octets
  nextSerial : after.nextSerial = before.nextSerial

namespace Files.Refilled

variable {path : String} {octets : List UInt8} {a b c : Files}

theorem refl {f : File} (stands : a.find? path = some (.file f)) (holds : f.content = .octets octets) :
    Refilled path octets a a :=
  ⟨fun _ _ => rfl, ⟨f, f, stands, stands, rfl, holds⟩, rfl⟩

theorem holds (refilled : Refilled path octets a b) :
    ∃ f, b.find? path = some (.file f) ∧ f.content = .octets octets := by
  obtain ⟨_, f, _, stands, _, content⟩ := refilled.stands
  exact ⟨f, stands, content⟩

/-- Writing replaces what the file holds. -/
theorem write (refilled : Refilled path octets a b) (next : List UInt8) :
    ∃ c, b.write path (.octets next) = (.ok (), c) ∧ Refilled path next a c := by
  obtain ⟨f, g, first, now, serial, _⟩ := refilled.stands
  let grown : File := { g with
    content := .octets next
    times := { g.times with modified := b.clock + 1, changed := b.clock + 1 } }
  refine ⟨b.tick.put path (.file grown), write_over now, ?_,
    ⟨f, grown, first, by simp, serial, rfl⟩, refilled.nextSerial⟩
  intro other differs
  rw [find?_put, if_neg (Ne.symm differs)]
  exact refilled.others other differs

/-- It does not matter in how many steps a file came to hold what it holds. -/
theorem matching (one : Refilled path octets a b) (other : Refilled path octets a c) :
    Matching b c := by
  refine ⟨fun at_ => ?_, one.nextSerial.trans other.nextSerial.symm⟩
  by_cases here : at_ = path
  · obtain ⟨f, g, first, now, serial, content⟩ := one.stands
    obtain ⟨f', g', first', now', serial', content'⟩ := other.stands
    rw [first] at first'
    cases first'
    rw [here, now, now']
    simp [Entry.plain, serial, serial', content, content']
  · rw [one.others at_ here, other.others at_ here]

end Files.Refilled

namespace Upload

/-! ### Portions -/

/-- The tree in which a file has been opened for what is to come. -/
def opened (path : String) (files : Files) : Files :=
  (files.write path (.octets [])).2

theorem opens {files : Files} {path : String} (absent : files.find? path = none)
    (inDirectory : files.isDirectory (Files.parent path)) :
    Files.Refilled path [] (opened path files) (opened path files) ∧
      ∀ s : Service, s.files = files → RequestM.ofService (writeOctets path []) s =
        (.ok (), { s with files := opened path files }) := by
  have written : files.write path (.octets []) = _ := Files.write_new absent inDirectory
  unfold opened
  rw [written]
  constructor
  · exact .refl (by simp; rfl) rfl
  · rintro s rfl
    unfold RequestM.ofService
    rw [writeOctets_run, written]
    rfl

/-- Writing leads to a tree that depends on nothing else about the service. -/
theorem writeOctets_refilled {path : String} {octets : List UInt8} {a b : Files}
    (refilled : Files.Refilled path octets a b) (next : List UInt8) :
    ∃ c, Files.Refilled path next a c ∧ ∀ s : Service, s.files = b →
      RequestM.ofService (writeOctets path next) s = (.ok (), { s with files := c }) := by
  obtain ⟨c, run, now⟩ := refilled.write next
  refine ⟨c, now, ?_⟩
  rintro s rfl
  unfold RequestM.ofService
  rw [writeOctets_run, run]
  rfl

theorem receivePortions_cons {path : String} {limit : Nat} {arrived portion : List UInt8}
    (rest : List (List UInt8)) (fits : (arrived ++ portion).length ≤ limit) :
    receivePortions path limit arrived (portion :: rest) =
      RequestM.ofService (writeOctets path (arrived ++ portion)) >>= fun _ =>
        receivePortions path limit (arrived ++ portion) rest := by
  conv => lhs; unfold receivePortions
  dsimp only
  rw [if_neg (Nat.not_lt.mpr fits)]

theorem receivePortions_stops {path : String} {limit : Nat} {arrived portion : List UInt8}
    (rest : List (List UInt8)) (large : limit < (arrived ++ portion).length) :
    receivePortions path limit arrived (portion :: rest) =
      throw (.uploadTooLarge (arrived ++ portion).length limit false) := by
  unfold receivePortions
  dsimp only
  rw [if_pos large]
  rfl

/-- Portions that stay within the limit together are all written, whatever the limit is. -/
theorem receivePortions_within {path : String} {a b : Files} (portions : List (List UInt8))
    (arrived : List UInt8) (refilled : Files.Refilled path arrived a b) :
    ∃ c, Files.Refilled path (arrived ++ portions.flatten) a c ∧
      ∀ (s : Service) (limit : Nat), s.files = b →
        (arrived ++ portions.flatten).length ≤ limit →
        receivePortions path limit arrived portions s =
          (.ok (arrived ++ portions.flatten), { s with files := c }) := by
  induction portions generalizing arrived b with
  | nil =>
      rw [List.flatten_nil, List.append_nil]
      refine ⟨b, refilled, ?_⟩
      rintro s limit rfl -
      rfl
  | cons portion rest ih =>
      obtain ⟨next, now, writes⟩ := writeOctets_refilled refilled (arrived ++ portion)
      obtain ⟨c, all, others⟩ := ih (arrived ++ portion) now
      rw [List.flatten_cons, ← List.append_assoc]
      refine ⟨c, all, fun s limit files within => ?_⟩
      have fits : (arrived ++ portion).length ≤ limit := by
        rw [List.length_append] at within
        omega
      rw [receivePortions_cons rest fits, bind_ok (writes s files)]
      exact others { s with files := next } limit rfl within

/-- Of portions that exceed the limit together, those before the one with which they do are
written. -/
theorem receivePortions_beyond {path : String} {limit : Nat} {a : Files}
    (portions : List (List UInt8)) (arrived : List UInt8) (s : Service)
    (refilled : Files.Refilled path arrived a s.files) (fits : arrived.length ≤ limit)
    (beyond : limit < (arrived ++ portions.flatten).length) :
    ∃ files size octets, receivePortions path limit arrived portions s =
        (.error (.uploadTooLarge size limit false), { s with files }) ∧
      octets <+: arrived ++ portions.flatten ∧ octets.length ≤ limit ∧
      Files.Refilled path octets a files := by
  induction portions generalizing arrived s with
  | nil =>
      rw [List.flatten_nil, List.append_nil] at beyond
      omega
  | cons portion rest ih =>
      rcases Nat.lt_or_ge limit (arrived ++ portion).length with large | still
      · rw [receivePortions_stops rest large]
        exact ⟨s.files, _, arrived, rfl, List.prefix_append _ _, fits, refilled⟩
      · rw [List.flatten_cons, ← List.append_assoc] at beyond ⊢
        obtain ⟨next, now, writes⟩ := writeOctets_refilled refilled (arrived ++ portion)
        rw [receivePortions_cons rest still, bind_ok (writes s rfl)]
        exact ih (arrived ++ portion) { s with files := next } now still beyond

/-- What comes later is received behind what has arrived. -/
theorem receivePortions_append (path : String) (limit : Nat) (arrived : List UInt8)
    (front rest : List (List UInt8)) (s : Service) :
    receivePortions path limit arrived (front ++ rest) s =
      (receivePortions path limit arrived front >>= fun here =>
        receivePortions path limit here rest) s := by
  induction front generalizing arrived s with
  | nil => rfl
  | cons portion others ih =>
      rw [List.cons_append]
      rcases Nat.lt_or_ge limit (arrived ++ portion).length with large | fits
      · rw [receivePortions_stops _ large, receivePortions_stops _ large]
        rfl
      · rw [receivePortions_cons _ fits, receivePortions_cons _ fits, bind_assoc, bind_run,
          bind_run]
        generalize RequestM.ofService (writeOctets path (arrived ++ portion)) s = written
        obtain ⟨result, t⟩ := written
        cases result with
        | error rejection => rfl
        | ok done => exact ih (arrived ++ portion) t

/-! ### Bodies -/

/-- Receives what is left of a body. -/
def receiveRest (body : Stream) (path : String) (limit : Nat) (arrived : List UInt8) :
    RequestM Nat := do
  let all ← receivePortions path limit arrived body.portions
  match body.broken with
  | some reason => throw (.uploadBrokeOff reason)
  | none => return all.length

/-- What receiving comes to once all portions have arrived. -/
def concluded (broken : Option String) (size : Nat) : Except Rejection Nat :=
  match broken with
  | some reason => .error (.uploadBrokeOff reason)
  | none => .ok size

theorem receive_eq (body : Stream) (path : String) (limit : Nat) :
    receive body path limit = RequestM.ofService (writeOctets path []) >>= fun _ =>
      receiveRest body path limit [] :=
  rfl

theorem receiveRest_ok {body : Stream} {path : String} {limit : Nat} {arrived all : List UInt8}
    {s t : Service} (run : receivePortions path limit arrived body.portions s = (.ok all, t)) :
    receiveRest body path limit arrived s = (concluded body.broken all.length, t) := by
  unfold receiveRest concluded
  rw [bind_ok run]
  cases body.broken <;> rfl

/-- What is left of a body may be received in two parts. -/
theorem receiveRest_append {front rest : List (List UInt8)} {broken : Option String}
    {path : String} {limit : Nat} {arrived all : List UInt8} {s t : Service}
    (run : receivePortions path limit arrived front s = (.ok all, t)) :
    receiveRest ⟨front ++ rest, broken⟩ path limit arrived s =
      receiveRest ⟨rest, broken⟩ path limit all t := by
  unfold receiveRest
  rw [bind_run, receivePortions_append, bind_ok run, ← bind_run]

section

variable {files : Files} {path : String} (absent : files.find? path = none)
  (inDirectory : files.isDirectory (Files.parent path))
include absent inDirectory

/-- A body within the limit is written as a whole, and nothing but a break keeps it from being
received. -/
theorem receive_within (body : Stream) :
    ∃ after, Files.Refilled path body.portions.flatten (opened path files) after ∧
      ∀ (s : Service) (limit : Nat), s.files = files → body.portions.flatten.length ≤ limit →
        receive body path limit s =
          (concluded body.broken body.portions.flatten.length, { s with files := after }) := by
  obtain ⟨refilled, opening⟩ := opens absent inDirectory
  obtain ⟨after, now, portions⟩ := receivePortions_within body.portions [] refilled
  refine ⟨after, now, fun s limit same within => ?_⟩
  have portions := portions { s with files := opened path files } limit rfl within
  rw [receive_eq, bind_ok (opening s same)]
  exact receiveRest_ok portions

/-- A body beyond the limit is given up, and no more of it is written than the limit allows. -/
theorem receive_beyond (body : Stream) {limit : Nat} (beyond : limit < body.portions.flatten.length)
    (s : Service) (same : s.files = files) :
    ∃ after size octets, receive body path limit s =
        (.error (.uploadTooLarge size limit false), { s with files := after }) ∧
      octets <+: body.portions.flatten ∧ octets.length ≤ limit ∧
      Files.Refilled path octets (opened path files) after := by
  obtain ⟨refilled, opening⟩ := opens absent inDirectory
  obtain ⟨after, size, octets, portions, begins, fits, now⟩ :=
    receivePortions_beyond body.portions [] { s with files := opened path files } refilled
      (Nat.zero_le limit) beyond
  refine ⟨after, size, octets, ?_, begins, fits, now⟩
  rw [receive_eq, bind_ok (opening s same)]
  exact bind_error portions

/-- As long as the limit is kept, later portions are received from where the first ones lead. -/
theorem receive_append (front rest : List (List UInt8)) (broken : Option String) {limit : Nat}
    (within : front.flatten.length ≤ limit) (s : Service) (same : s.files = files) :
    receive ⟨front ++ rest, broken⟩ path limit s =
      receiveRest ⟨rest, broken⟩ path limit front.flatten (receive ⟨front, none⟩ path limit s).2 := by
  obtain ⟨refilled, opening⟩ := opens absent inDirectory
  obtain ⟨after, _, portions⟩ := receivePortions_within front [] refilled
  have portions := portions { s with files := opened path files } limit rfl within
  have first : receive ⟨front, none⟩ path limit s =
      (.ok front.flatten.length, { s with files := after }) := by
    rw [receive_eq, bind_ok (opening s same)]
    exact receiveRest_ok portions
  rw [first, receive_eq, bind_ok (opening s same), receiveRest_append portions]
  rfl

end

/-! ### Uploads under way -/

/-- A service when some portions of the body of an upload have arrived, and no more as yet. -/
def arriving (front : List (List UInt8)) (s : Service) : Service :=
  (receive ⟨front, none⟩ (stagedFile s) s.limits.maxUploadBytes
    { s with temporaries := s.temporaries + 1 }).2

section

variable {s : Service} (sound : s.Sound)
  (staging : s.files.isDirectory (Files.join s.root Service.temporaryName))
include sound staging

/-- A body is received in a new file. -/
theorem stagedFile_opens : s.files.find? (stagedFile s) = none ∧
    s.files.isDirectory (Files.parent (stagedFile s)) := by
  refine ⟨stagedFile_absent sound, ?_⟩
  rwa [stagedFile, Service.parent_temporaryFile]

/-- While an upload arrives, its file holds the beginning of the body, up to the limit. -/
theorem arriving_holds (front : List (List UInt8)) :
    ∃ f octets, (arriving front s).files.find? (stagedFile s) = some (.file f) ∧
      f.content = .octets octets ∧ octets <+: front.flatten ∧
      octets.length ≤ s.limits.maxUploadBytes := by
  let named : Service := { s with temporaries := s.temporaries + 1 }
  obtain ⟨absent, inDirectory⟩ := stagedFile_opens sound staging
  unfold arriving
  rcases Nat.lt_or_ge s.limits.maxUploadBytes front.flatten.length with beyond | within
  · obtain ⟨files, size, octets, run, begins, fits, refilled⟩ :=
      receive_beyond absent inDirectory ⟨front, none⟩ beyond named rfl
    obtain ⟨f, stands, holds⟩ := refilled.holds
    rw [run]
    exact ⟨f, octets, stands, holds, begins, fits⟩
  · obtain ⟨files, refilled, run⟩ := receive_within absent inDirectory ⟨front, none⟩
    obtain ⟨f, stands, holds⟩ := refilled.holds
    rw [run named _ rfl within]
    exact ⟨f, front.flatten, stands, holds, List.prefix_refl _, within⟩

/-- What is left of the body is received from there. -/
theorem receive_arriving {front rest : List (List UInt8)} (broken : Option String)
    (within : front.flatten.length ≤ s.limits.maxUploadBytes) :
    receive ⟨front ++ rest, broken⟩ (stagedFile s) s.limits.maxUploadBytes
        { s with temporaries := s.temporaries + 1 } =
      receiveRest ⟨rest, broken⟩ (stagedFile s) s.limits.maxUploadBytes front.flatten
        (arriving front s) := by
  obtain ⟨absent, inDirectory⟩ := stagedFile_opens sound staging
  exact receive_append absent inDirectory front rest broken within _ rfl

end

end Upload

end CodeNav
