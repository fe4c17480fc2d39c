/-
Module: CodeNav.Proofs.Service.Headway
Purpose: What one step of an upload does to a service, and what it leaves alone.
Main exports:
  UploadStep.Ran, Uploader.Holds, Uploader.Effect, Uploader.Advanced.effect
-/
import CodeNav.Proofs.Service.Restarts
import CodeNav.Proofs.Service.Uploader

namespace CodeNav

open Stateful
open Http (Stream)
open Service (temporaryFile)

/-! ### Making an upload known -/

/-- The index of packages once a dump was recorded in it, if it can be used. -/
def IndexState.record (target : Target) (dump : Dump) : IndexState → IndexState
  | .available index => .available (index.record target dump.provided dump.used)
  | .broken failure => .broken failure

namespace UploadStep

/-- The file that a step moves, and its encoding. -/
def source? : UploadStep → Option (Encoding × String)
  | move _ source kind => some (kind, source)
  | _ => none

/-- Where a step moves a file to. -/
def goal? : UploadStep → Option String
  | move base _ kind => some (kind.path base)
  | _ => none

/-- Whether a file of an encoding is moved into place. -/
def moves (kind : Encoding) : UploadStep → Bool
  | .move _ _ other => other == kind
  | _ => false

/-- Whether the index of packages is changed. -/
def records : UploadStep → Bool
  | .record => true
  | _ => false

theorem moves_iff {kind : Encoding} {step : UploadStep} :
    step.moves kind ↔ ∃ base source, step = .move base source kind := by
  cases step <;> simp [moves]

theorem records_iff {step : UploadStep} : step.records ↔ step = .record := by
  cases step <;> simp [records]

theorem move_mem_inOrder {base other source : String} {kind : Encoding}
    {list : List (Encoding × String)} (listed : move other source kind ∈ inOrder base list) :
    other = base ∧ (kind, source) ∈ list := by
  rcases List.mem_append.mp listed with moved | behind
  · obtain ⟨⟨_, _⟩, member, same⟩ := List.mem_map.mp moved
    cases same
    exact ⟨rfl, member⟩
  · simp at behind

theorem filterMap_source? (base : String) (list : List (Encoding × String)) :
    (inOrder base list).filterMap source? = list := by
  unfold inOrder
  rw [List.filterMap_append, List.filterMap_map]
  change list.filterMap some ++ [] = list
  rw [List.filterMap_some, List.append_nil]

/-- What a step comes to if it succeeds. -/
inductive Ran (target : Target) (dump : Dump) (s : Service) : UploadStep → Service → Prop where
  | moved {base source : String} {kind : Encoding} {files : Files}
      (run : s.files.rename source (kind.path base) = (.ok (), files)) :
      Ran target dump s (.move base source kind) { s with files }
  | evicted : Ran target dump s .evict (Service.evictKey target.key s).2
  | invalidated : Ran target dump s .invalidate
      { s with documents := Service.forgetFiles s.documents (s.targetFiles target) }
  | recorded {index : PackageIndex} (usable : s.index = .available index) :
      Ran target dump s .record
        { s with index := .available (index.record target dump.provided dump.used) }

theorem ran_of_run {target : Target} {dump : Dump} {s t : Service} {step : UploadStep}
    (run : step.run target dump s = (.ok (), t)) : Ran target dump s step t := by
  cases step with
  | move base source kind =>
      change Upload.place base source kind s = _ at run
      rw [Upload.place_run] at run
      obtain ⟨outcome, rfl⟩ := Prod.mk.inj run
      rcases s.files.rename_cases source (kind.path base) with ⟨f, _, _, _, renamed⟩ | ⟨_, refused⟩
      · exact .moved (by rw [renamed])
      · rw [refused] at outcome
        cases outcome
  | evict =>
      obtain ⟨_, u, evicted, done⟩ := bind_eq_ok.mp run
      cases done
      have same : Service.evictKey target.key s = (_, t) := evicted
      rw [show t = (Service.evictKey target.key s).2 by rw [same]]
      exact .evicted
  | invalidate =>
      cases run
      exact .invalidated
  | record =>
      rcases Upload.available_or_broken s with ⟨index, usable⟩ | ⟨failure, broken⟩
      · change ServiceM.updateIndex _ s = _ at run
        rw [Upload.updateIndex_available usable] at run
        cases run
        exact .recorded usable
      · change ServiceM.updateIndex _ s = _ at run
        rw [Upload.updateIndex_broken broken] at run
        cases run

namespace Ran

variable {target : Target} {dump : Dump} {s t : Service} {step : UploadStep}
  (ran : Ran target dump s step t)
include ran

/-- No step opens a database. -/
theorem notOpen (absent : s.databases.entries.find? target.key = none) :
    t.databases.entries.find? target.key = none := by
  cases ran with
  | evicted => exact Service.find?_evictKey_of_none absent
  | _ => exact absent

/-- No step puts a document into the cache. -/
theorem documents {entry : Weighted String Document} (listed : entry ∈ t.documents.entries) :
    entry ∈ s.documents.entries := by
  cases ran with
  | evicted =>
      rw [Service.evictKey_frame] at listed
      exact listed
  | invalidated => exact (Service.mem_forgetFiles.mp listed).1
  | _ => exact listed

theorem index : t.index = if step.records then s.index.record target dump else s.index := by
  cases ran with
  | evicted =>
      rw [Service.evictKey_frame]
      rfl
  | recorded usable =>
      rw [usable]
      rfl
  | _ => rfl

end Ran

end UploadStep

namespace Uploader

open Upload

/-! ### What an upload has -/

/-- The files that an upload has made and not moved yet, with their encodings. -/
def Stage.made : Stage → List (Encoding × String)
  | .begun | .stored _ => []
  | .received staged _ => [(.json, staged)]
  | .converting staged _ _ made _ => (.json, staged) :: made
  | .committing _ _ _ pending => pending.filterMap UploadStep.source?

/-- The paths of temporary files that an upload uses. -/
def Stage.owned : Stage → List String
  | .begun | .stored _ => []
  | .received staged _ => [staged]
  | .converting staged _ _ made _ => staged :: made.map (·.2)
  | .committing staged _ _ pending => staged :: (pending.filterMap UploadStep.source?).map (·.2)

/-- What an upload is about to make known. -/
def Stage.next? : Stage → Option (Dump × UploadStep)
  | .committing _ _ dump (step :: _) => some (dump, step)
  | _ => none

theorem Stage.owned_committing (staged : String) (size : Nat) (dump : Dump)
    (pending : List UploadStep) :
    owned (.committing staged size dump pending) =
      staged :: (made (.committing staged size dump pending)).map (·.2) :=
  rfl

theorem Stage.mem_owned {stage : Stage} {p : Encoding × String} (listed : p ∈ stage.made) :
    p.2 ∈ stage.owned := by
  cases stage with
  | begun | stored => cases listed
  | received staged size =>
      rw [List.mem_singleton.mp listed]
      exact List.mem_singleton_self _
  | converting staged size dump made left => exact List.mem_map_of_mem listed
  | committing staged size dump pending =>
      exact List.mem_cons_of_mem _ (List.mem_map_of_mem listed)

/-- What is known at a stage of the upload of some octets, of which these steps have been made
known. -/
def Stage.Fits (target : Target) (octets : List UInt8) (s : Service) :
    List UploadStep → Stage → Prop
  | taken, .begun => taken = []
  | taken, .received staged _ =>
    taken = [] ∧ ∀ f, s.files.find? staged = some (.file f) →
      f.times.accessed ≤ f.times.modified ∧ f.times.modified ≤ s.files.clock ∧
        f.times.changed ≤ s.files.clock
  | taken, .converting staged _ dump made left =>
    taken = [] ∧ Dump.parse (some s.limits.maxUploadBytes) octets = .ok dump ∧
      (∀ f, s.files.find? staged = some (.file f) → f.times.WasRead) ∧
      made.reverse.map (·.1) ++ left = s.flags.enabled.filter (· ≠ .json)
  | taken, .committing _ _ dump pending =>
    Dump.parse (some s.limits.maxUploadBytes) octets = .ok dump ∧
      ∃ list, (∀ kind, kind ∈ list.map (·.1) ↔ kind ∈ s.flags.enabled) ∧
        taken ++ pending = UploadStep.inOrder (s.basePath target) list
  | taken, .stored _ =>
    (∃ dump, Dump.parse (some s.limits.maxUploadBytes) octets = .ok dump) ∧
      ∃ list, (∀ kind, kind ∈ list.map (·.1) ↔ kind ∈ s.flags.enabled) ∧
        taken = UploadStep.inOrder (s.basePath target) list

section

variable {staged : String} {made : List (Encoding × String)} {kinds : List Encoding}

/-- Only files that were made are moved. -/
theorem mem_made_of_moves {p : Encoding × String}
    (listed : p ∈ moves staged kinds made.reverse) :
    p ∈ (.json, staged) :: made := by
  rcases List.mem_append.mp listed with converted | kept
  · exact List.mem_cons_of_mem _ (List.mem_reverse.mp converted)
  · split at kept
    · rw [List.mem_singleton.mp kept]
      exact List.mem_cons_self
    · cases kept

/-- Besides the staged dump, all files that were made are moved. -/
theorem mem_moves_paths {path : String} :
    path ∈ staged :: (moves staged kinds made.reverse).map (·.2) ↔
      path ∈ staged :: made.map (·.2) := by
  rw [List.mem_cons, List.mem_cons]
  constructor
  · rintro (rfl | listed)
    · exact .inl rfl
    · obtain ⟨p, member, rfl⟩ := List.mem_map.mp listed
      rcases List.mem_cons.mp (mem_made_of_moves member) with rfl | converted
      · exact .inl rfl
      · exact .inr (List.mem_map_of_mem converted)
  · rintro (rfl | listed)
    · exact .inl rfl
    · obtain ⟨p, member, rfl⟩ := List.mem_map.mp listed
      exact .inr (List.mem_map_of_mem (List.mem_append_left _ (List.mem_reverse.mpr member)))

theorem moves_paths_nodup (distinct : (staged :: made.map (·.2)).Nodup) :
    ((moves staged kinds made.reverse).map (·.2)).Nodup := by
  obtain ⟨stagedNew, others⟩ := List.nodup_cons.mp distinct
  have reversed : (made.reverse.map (·.2)).Nodup := by
    rw [List.map_reverse]
    exact List.nodup_reverse.mpr others
  unfold moves
  rw [List.map_append]
  split
  · refine List.nodup_append.mpr ⟨reversed, List.nodup_singleton _, ?_⟩
    rintro path listed other kept rfl
    rw [List.mem_singleton.mp kept, List.map_reverse, List.mem_reverse] at listed
    exact stagedNew listed
  · simpa using reversed

/-- What an upload was about to make known is made known by its next step. -/
theorem Advanced.ran {target : Target} {announced : Option Nat} {body : Stream}
    {stage next : Stage} {s t : Service}
    (advanced : Advanced target announced body s stage next t) {dump : Dump} {step : UploadStep}
    (about : stage.next? = some (dump, step)) :
    ∃ staged size pending, stage = .committing staged size dump (step :: pending) ∧
      step.Ran target dump s t := by
  cases advanced with
  | committed run =>
      cases about
      exact ⟨_, _, _, rfl, UploadStep.ran_of_run run⟩
  | _ => cases about

end

variable [Gzip.Compressor]

/-- What an upload relies on: its files are where it has put them, under names that were given
out, and hold what is stored of the upload. -/
structure Holds (target : Target) (octets : List UInt8) (taken : List UploadStep) (stage : Stage)
    (s : Service) : Prop where
  named : ∀ path ∈ stage.owned, ∃ number kind, number < s.temporaries ∧
    path = temporaryFile s.root number kind
  distinct : (stage.made.map (·.2)).Nodup
  contents : ∀ p ∈ stage.made, ∃ f, s.files.find? p.2 = some (.file f) ∧
    p.1.contentOf octets = .ok f.content
  plain : ∀ path ∈ stage.owned, s.files.find? path ≠ some .directory
  fits : stage.Fits target octets s taken

/-- A step of an upload touches its own temporary files, and where it moves one of them to. -/
structure Effect (target : Target) (octets : List UInt8) (taken : List UploadStep)
    (stage next : Stage) (s t : Service) : Prop where
  like : s.SetUpLike t
  limits : t.limits = s.limits
  later : s.temporaries ≤ t.temporaries
  clock : s.files.clock ≤ t.files.clock
  timely : t.files.Timely
  registered : Registered t.databases t.closed
  owned : ∀ path ∈ next.owned, path ∈ stage.owned ∨
    ∃ kind, path = temporaryFile s.root s.temporaries kind
  gone : ∀ path ∈ stage.owned, path ∉ next.owned → t.files.find? path = none
  others : ∀ path, path ∉ stage.owned → path ∉ next.owned →
    (∀ deed ∈ stage.next?, deed.2.goal? ≠ some path) →
    t.files.find? path = s.files.find? path
  quiet : stage.next? = none →
    t.databases = s.databases ∧ t.documents = s.documents ∧ t.index = s.index
  holds : Holds target octets (taken ++ (stage.next?.map (·.2)).toList) next t

section

variable {target : Target} {octets : List UInt8} {taken : List UploadStep} {stage : Stage}
  {s t : Service}

/-- What an upload relies on is not touched by what happens elsewhere. -/
theorem Holds.frame (holds : Holds target octets taken stage s) (like : s.SetUpLike t)
    (limits : t.limits = s.limits) (later : s.temporaries ≤ t.temporaries)
    (clock : s.files.clock ≤ t.files.clock)
    (same : ∀ path ∈ stage.owned, t.files.find? path = s.files.find? path) :
    Holds target octets taken stage t := by
  have base : t.basePath target = s.basePath target := by
    unfold Service.basePath
    rw [like.root]
  constructor
  · intro path listed
    obtain ⟨number, kind, earlier, named⟩ := holds.named path listed
    exact ⟨number, kind, Nat.lt_of_lt_of_le earlier later, named.trans (by rw [like.root])⟩
  · exact holds.distinct
  · intro p listed
    rw [same p.2 (Stage.mem_owned listed)]
    exact holds.contents p listed
  · intro path listed
    rw [same path listed]
    exact holds.plain path listed
  · have fits := holds.fits
    cases stage with
    | begun => exact fits
    | received staged size =>
        refine ⟨fits.1, fun f stands => ?_⟩
        rw [same staged List.mem_cons_self] at stands
        obtain ⟨unread, modified, changed⟩ := fits.2 f stands
        exact ⟨unread, Nat.le_trans modified clock, Nat.le_trans changed clock⟩
    | converting staged size dump made left =>
        obtain ⟨nothing, parsed, read, all⟩ := fits
        refine ⟨nothing, limits ▸ parsed, fun f stands => ?_, like.flags ▸ all⟩
        rw [same staged List.mem_cons_self] at stands
        exact read f stands
    | committing staged size dump pending =>
        obtain ⟨parsed, list, kinds, split⟩ := fits
        exact ⟨limits ▸ parsed, list, like.flags ▸ kinds, base ▸ split⟩
    | stored size =>
        obtain ⟨parsed, list, kinds, split⟩ := fits
        exact ⟨limits ▸ parsed, list, like.flags ▸ kinds, base ▸ split⟩

end

/-! ### One step -/

section

variable {target : Target} {octets : List UInt8} {taken : List UploadStep} {s t : Service}
  {staged : String} {size : Nat} {dump : Dump} (sound : s.Sound)
include sound

theorem effect_received {body : Stream}
    (run : receive body (stagedFile s) s.limits.maxUploadBytes
      { s with temporaries := s.temporaries + 1 } = (.ok size, t))
    (holds : Holds target body.portions.flatten taken .begun s) :
    Effect target body.portions.flatten taken .begun (.received (stagedFile s) size) s t := by
  have absent := stagedFile_absent sound
  obtain ⟨files, left, besides, complete⟩ :=
    receive_run { s with temporaries := s.temporaries + 1 } sound.timely absent body
      s.limits.maxUploadBytes
  rw [run] at left complete
  cases left
  obtain ⟨_, arrived⟩ := complete size rfl
  obtain ⟨f, stands, content, unread, modified, changed⟩ := arrived.stands
  refine ⟨⟨rfl, rfl, rfl⟩, rfl, Nat.le_succ _, besides.clock, besides.timely sound.timely,
    sound.registered, ?_, ?_, fun path _ outside _ => besides.others path outside,
    fun _ => ⟨rfl, rfl, rfl⟩, ?_⟩
  · intro path listed
    exact .inr ⟨.json, List.mem_singleton.mp listed⟩
  · intro path listed
    cases listed
  · constructor
    · intro path listed
      exact ⟨s.temporaries, .json, Nat.lt_succ_self _, List.mem_singleton.mp listed⟩
    · exact List.nodup_singleton _
    · intro p listed
      rw [List.mem_singleton.mp listed]
      exact ⟨f, stands, by rw [content]; rfl⟩
    · intro path listed
      exact besides.plain (.inl listed)
    · refine ⟨(List.append_nil taken).trans holds.fits, fun g there => ?_⟩
      rw [stands] at there
      cases there
      exact ⟨unread, modified, changed⟩

theorem effect_validated (run : validate staged s = (.ok dump, t))
    (holds : Holds target octets taken (.received staged size) s) :
    Effect target octets taken (.received staged size)
      (.converting staged size dump [] (t.flags.enabled.filter (· ≠ .json))) s t := by
  obtain ⟨f, stands, stored⟩ := holds.contents (.json, staged) (List.mem_singleton_self _)
  obtain ⟨rfl, times⟩ := holds.fits
  obtain ⟨unread, modified, changed⟩ := times f stands
  have content : f.content = .octets octets := (Except.ok.inj stored).symm
  rw [validate_file stands content unread] at run
  obtain ⟨outcome, rfl⟩ := Prod.mk.inj run
  have parsed : Dump.parse (some s.limits.maxUploadBytes) octets = .ok dump := by
    generalize Dump.parse (some s.limits.maxUploadBytes) octets = result at outcome ⊢
    cases result with
    | error failure => cases outcome
    | ok other =>
        cases outcome
        rfl
  have timely := sound.timely.touchRead staged
  rw [Files.touchRead_written stands unread] at timely
  have now : (s.files.tick.put staged (.file (seen f s.files.clock))).find? staged =
      some (.file (seen f s.files.clock)) := by
    rw [Files.find?_put, if_pos rfl]
  refine ⟨⟨rfl, rfl, rfl⟩, rfl, Nat.le_refl _, Nat.le_succ _, timely, sound.registered,
    fun path listed => .inl listed, fun path listed outside => absurd listed outside, ?_,
    fun _ => ⟨rfl, rfl, rfl⟩, ?_⟩
  · intro path outside _ _
    rw [Files.find?_put, if_neg, Files.find?_tick]
    exact fun same => outside (List.mem_singleton.mpr same.symm)
  · constructor
    · exact holds.named
    · exact List.nodup_singleton _
    · intro p listed
      rw [List.mem_singleton.mp listed]
      exact ⟨_, now, stored⟩
    · intro path listed
      rw [List.mem_singleton.mp listed, now]
      simp
    · refine ⟨rfl, parsed, fun g there => ?_, rfl⟩
      rw [now] at there
      cases there
      exact ⟨Nat.lt_succ_of_le modified, Nat.lt_succ_of_le changed⟩

omit sound in
/-- A file that was converted is what an upload has besides the ones it had. -/
theorem Holds.converted {made : List (Encoding × String)} {kind : Encoding} {left : List Encoding}
    {files : Files} (holds : Holds target octets taken
      (.converting staged size dump made (kind :: left)) s) (clock : s.files.clock ≤ files.clock)
    (same : ∀ path ∈ staged :: made.map (·.2), files.find? path = s.files.find? path)
    (new : temporaryFile s.root s.temporaries kind ∉ staged :: made.map (·.2)) {g : File}
    (there : files.find? (temporaryFile s.root s.temporaries kind) = some (.file g))
    (stored : kind.contentOf octets = .ok g.content) :
    Holds target octets taken
      (.converting staged size dump ((kind, temporaryFile s.root s.temporaries kind) :: made) left)
      { s with files, temporaries := s.temporaries + 1 } := by
  have still : Holds target octets taken (.converting staged size dump made (kind :: left))
      { s with files, temporaries := s.temporaries + 1 } :=
    holds.frame ⟨rfl, rfl, rfl⟩ rfl (Nat.le_succ _) clock same
  have owned : ∀ path, path ∈ Stage.owned (.converting staged size dump
      ((kind, temporaryFile s.root s.temporaries kind) :: made) left) →
      path = temporaryFile s.root s.temporaries kind ∨
        path ∈ Stage.owned (.converting staged size dump made (kind :: left)) := by
    intro path listed
    rcases List.mem_cons.mp listed with rfl | listed
    · exact .inr List.mem_cons_self
    · exact (List.mem_cons.mp listed).imp_right (List.mem_cons_of_mem _)
  constructor
  · intro path listed
    rcases owned path listed with rfl | had
    · exact ⟨s.temporaries, kind, Nat.lt_succ_self _, rfl⟩
    · exact still.named path had
  · have distinct : (staged :: made.map (·.2)).Nodup := holds.distinct
    obtain ⟨stagedNew, others⟩ := List.nodup_cons.mp distinct
    refine List.nodup_cons.mpr ⟨?_, List.nodup_cons.mpr ⟨?_, others⟩⟩
    · intro listed
      rcases List.mem_cons.mp listed with isNew | listed
      · exact new (List.mem_cons.mpr (.inl isNew.symm))
      · exact stagedNew listed
    · exact fun listed => new (List.mem_cons_of_mem _ listed)
  · intro p listed
    rcases List.mem_cons.mp listed with rfl | listed
    · exact still.contents _ List.mem_cons_self
    · rcases List.mem_cons.mp listed with rfl | listed
      · exact ⟨g, there, stored⟩
      · exact still.contents p (List.mem_cons_of_mem _ listed)
  · intro path listed
    rcases owned path listed with rfl | had
    · rw [there]
      simp
    · exact still.plain path had
  · obtain ⟨nothing, parsed, read, all⟩ := still.fits
    refine ⟨nothing, parsed, read, ?_⟩
    rw [← all, List.reverse_cons, List.map_append, List.append_assoc]
    rfl

theorem effect_converted (faithful : s.converter.Faithful) {made : List (Encoding × String)}
    {kind : Encoding} {left : List Encoding} {files : Files}
    (run : s.converter staged (temporaryFile s.root s.temporaries kind) kind s.files =
      (.ok (), files))
    (holds : Holds target octets taken (.converting staged size dump made (kind :: left)) s) :
    Effect target octets taken (.converting staged size dump made (kind :: left))
      (.converting staged size dump ((kind, temporaryFile s.root s.temporaries kind) :: made) left)
      s { s with files, temporaries := s.temporaries + 1 } := by
  obtain ⟨f, stands, stored⟩ := holds.contents (.json, staged) List.mem_cons_self
  obtain ⟨rfl, parsed, read, all⟩ := holds.fits
  have content : f.content = .octets octets := (Except.ok.inj stored).symm
  obtain ⟨elements, readable, _⟩ := Dump.elements_of_parse parsed
  let output := temporaryFile s.root s.temporaries kind
  have absent : s.files.find? output = none := sound.fresh s.temporaries kind (Nat.le_refl _)
  have besides := faithful.confined staged output kind s.files f stands (read f stands) absent
  rw [run] at besides
  obtain ⟨g, tables, there, ofKind, written⟩ := faithful.writes staged output kind s.files files f
    octets elements stands (read f stands) absent content readable run
  have notJson : kind ≠ .json := by
    have listed : kind ∈ s.flags.enabled.filter (· ≠ .json) := by
      rw [← all]
      exact List.mem_append_right _ List.mem_cons_self
    simpa using (List.mem_filter.mp listed).2
  have new : output ∉ staged :: made.map (·.2) := by
    intro listed
    obtain ⟨number, _, earlier, named⟩ := holds.named _ listed
    exact absurd (Service.temporaryFile_inj named).1 (Nat.ne_of_gt earlier)
  refine ⟨⟨rfl, rfl, rfl⟩, rfl, Nat.le_succ _, besides.clock, besides.timely sound.timely,
    sound.registered, ?_, ?_, ?_, fun _ => ⟨rfl, rfl, rfl⟩, ?_⟩
  · intro path listed
    rcases List.mem_cons.mp listed with rfl | listed
    · exact .inl List.mem_cons_self
    · rcases List.mem_cons.mp listed with rfl | listed
      · exact .inr ⟨kind, rfl⟩
      · exact .inl (List.mem_cons_of_mem _ listed)
  · intro path listed outside
    refine absurd ?_ outside
    rcases List.mem_cons.mp listed with rfl | listed
    · exact List.mem_cons_self
    · exact List.mem_cons_of_mem _ (List.mem_cons_of_mem _ listed)
  · intro path _ outside _
    refine besides.elsewhere fun same => outside ?_
    rw [same]
    exact List.mem_cons_of_mem _ List.mem_cons_self
  · refine holds.converted besides.clock (fun path listed => besides.elsewhere ?_) new there ?_
    · rintro rfl
      exact new listed
    · rw [written]
      exact Encoding.contentOf_tables notJson readable ofKind

omit sound in
/-- A step that leaves all files alone. -/
theorem effect_still {stage next : Stage} (sound : s.Sound) (like : s.SetUpLike t)
    (limits : t.limits = s.limits) (temporaries : t.temporaries = s.temporaries)
    (files : t.files = s.files) (registered : Registered t.databases t.closed)
    (owned : ∀ path, path ∈ next.owned ↔ path ∈ stage.owned)
    (quiet : stage.next? = none →
      t.databases = s.databases ∧ t.documents = s.documents ∧ t.index = s.index)
    (holds : Holds target octets (taken ++ (stage.next?.map (·.2)).toList) next t) :
    Effect target octets taken stage next s t where
  like := like
  limits := limits
  later := Nat.le_of_eq temporaries.symm
  clock := Nat.le_of_eq (by rw [files])
  timely := by
    rw [files]
    exact sound.timely
  registered := registered
  owned path listed := .inl ((owned path).mp listed)
  gone path listed outside := absurd ((owned path).mpr listed) outside
  others path _ _ _ := by rw [files]
  quiet := quiet
  holds := holds

theorem effect_ready {made : List (Encoding × String)}
    (holds : Holds target octets taken (.converting staged size dump made []) s) :
    Effect target octets taken (.converting staged size dump made [])
      (.committing staged size dump (UploadStep.inOrder (s.basePath target)
        (moves staged s.flags.enabled made.reverse))) s s := by
  obtain ⟨rfl, parsed, _, all⟩ := holds.fits
  let list := moves staged s.flags.enabled made.reverse
  have madeMoved : Stage.made (.committing staged size dump
      (UploadStep.inOrder (s.basePath target) list)) = list :=
    UploadStep.filterMap_source? _ _
  have owned : ∀ path, path ∈ Stage.owned (.committing staged size dump
      (UploadStep.inOrder (s.basePath target) list)) ↔ path ∈ staged :: made.map (·.2) := by
    intro path
    rw [Stage.owned_committing, madeMoved]
    exact mem_moves_paths
  refine effect_still sound ⟨rfl, rfl, rfl⟩ rfl rfl rfl sound.registered owned
    (fun _ => ⟨rfl, rfl, rfl⟩) ?_
  constructor
  · exact fun path listed => holds.named path ((owned path).mp listed)
  · rw [madeMoved]
    exact moves_paths_nodup holds.distinct
  · rw [madeMoved]
    exact fun p listed => holds.contents p (mem_made_of_moves listed)
  · exact fun path listed => holds.plain path ((owned path).mp listed)
  · refine ⟨parsed, list, fun kind => mem_moves_kinds ?_, rfl⟩
    simpa using all

/-- A step that moves no file. -/
theorem effect_known {step : UploadStep} {pending : List UploadStep}
    (holds : Holds target octets taken (.committing staged size dump (step :: pending)) s)
    (quiet : step.source? = none) (like : s.SetUpLike t) (limits : t.limits = s.limits)
    (temporaries : t.temporaries = s.temporaries) (files : t.files = s.files)
    (registered : Registered t.databases t.closed) :
    Effect target octets taken (.committing staged size dump (step :: pending))
      (.committing staged size dump pending) s t := by
  have made : Stage.made (.committing staged size dump (step :: pending)) =
      Stage.made (.committing staged size dump pending) :=
    List.filterMap_cons_none quiet
  have owned : Stage.owned (.committing staged size dump (step :: pending)) =
      Stage.owned (.committing staged size dump pending) := by
    rw [Stage.owned_committing, made, Stage.owned_committing]
  have still := holds.frame like limits (Nat.le_of_eq temporaries.symm)
    (Nat.le_of_eq (by rw [files])) (fun path _ => by rw [files])
  refine effect_still sound like limits temporaries files registered
    (fun path => by rw [owned]) (fun none => by cases none) ?_
  refine ⟨owned ▸ still.named, made ▸ still.distinct, made ▸ still.contents,
    owned ▸ still.plain, ?_⟩
  obtain ⟨parsed, list, kinds, split⟩ := still.fits
  exact ⟨parsed, list, kinds, (List.append_assoc _ _ _).trans split⟩

/-- A file that is moved into place holds what is stored of the upload. -/
theorem effect_moved {base source : String} {kind : Encoding} {pending : List UploadStep}
    {files : Files} (flat : '/' ∉ target.commit.toList)
    (run : s.files.rename source (kind.path base) = (.ok (), files))
    (holds : Holds target octets taken
      (.committing staged size dump (.move base source kind :: pending)) s) :
    Effect target octets taken (.committing staged size dump (.move base source kind :: pending))
        (.committing staged size dump pending) s { s with files } ∧
      base = s.basePath target ∧ ∃ f, files.find? (kind.path base) = some (.file f) ∧
        kind.contentOf octets = .ok f.content := by
  obtain ⟨parsed, list, kinds, split⟩ := holds.fits
  have among : UploadStep.move base source kind ∈ UploadStep.inOrder (s.basePath target) list := by
    rw [← split]
    exact List.mem_append_right taken List.mem_cons_self
  obtain ⟨rfl, _⟩ := UploadStep.move_mem_inOrder among
  let made := pending.filterMap UploadStep.source?
  have moves : Moves (s.basePath target) [(kind, source)] s.files files := .next run (.done files)
  obtain ⟨notLater, distinct⟩ : source ∉ made.map (·.2) ∧ (made.map (·.2)).Nodup :=
    List.nodup_cons.mp holds.distinct
  -- the file goes where no temporary file is
  have apart : ∀ path ∈ staged :: source :: made.map (·.2), ∀ p ∈ [(kind, source)],
      p.1.path (s.basePath target) ≠ path := by
    intro path listed p moving same
    rw [List.mem_singleton.mp moving] at same
    obtain ⟨number, other, _, named⟩ := holds.named path listed
    exact Service.dumpFile_ne_temporary flat kind other number (same.trans named)
  have fewer : ∀ path ∈ staged :: made.map (·.2), path ∈ staged :: source :: made.map (·.2) := by
    intro path listed
    rcases List.mem_cons.mp listed with rfl | listed
    · exact List.mem_cons_self
    · exact List.mem_cons_of_mem _ (List.mem_cons_of_mem _ listed)
  obtain ⟨f, stands, stored⟩ := holds.contents (kind, source) List.mem_cons_self
  obtain ⟨g, there, moved⟩ := Moves.rename_ok run
  rw [stands] at there
  cases there
  have clock : s.files.clock ≤ files.clock := by
    rw [moved]
    exact Nat.le_succ _
  refine ⟨⟨⟨rfl, rfl, rfl⟩, rfl, Nat.le_refl _, clock, moves.timely sound.timely, sound.registered,
    fun path listed => .inl (fewer path listed), ?_, ?_, (fun none => by cases none), ?_⟩, rfl,
    s.files.renamed f, ?_, stored⟩
  · intro path listed outside
    refine moves.leaves ?_ (apart path listed)
    rcases List.mem_cons.mp listed with rfl | listed
    · exact absurd List.mem_cons_self outside
    · rcases List.mem_cons.mp listed with rfl | listed
      · exact List.mem_cons_self
      · exact absurd (List.mem_cons_of_mem _ listed) outside
  · intro path outside _ notGoal
    refine moves.others (fun moving => outside ?_) fun p moving same => ?_
    · rw [List.mem_singleton.mp moving]
      exact List.mem_cons_of_mem _ List.mem_cons_self
    · rw [List.mem_singleton.mp moving] at same
      exact notGoal _ rfl (congrArg some same)
  · constructor
    · exact fun path listed => holds.named path (fewer path listed)
    · exact distinct
    · intro p listed
      obtain ⟨h, found, holdsOf⟩ := holds.contents p (List.mem_cons_of_mem _ listed)
      refine ⟨h, (moves.others (fun moving => ?_) (apart p.2 ?_)).trans found, holdsOf⟩
      · exact notLater (List.mem_map.mpr ⟨p, listed, List.mem_singleton.mp moving⟩)
      · exact fewer p.2 (List.mem_cons_of_mem _ (List.mem_map_of_mem listed))
    · exact fun path listed => moves.plain (holds.plain path (fewer path listed))
    · exact ⟨parsed, list, kinds, (List.append_assoc _ _ _).trans split⟩
  · rw [moved, Files.find?_put, if_pos rfl]

theorem effect_discarded (run : discard [staged] s = (.ok ⟨⟩, t))
    (holds : Holds target octets taken (.committing staged size dump []) s) :
    Effect target octets taken (.committing staged size dump []) (.stored size) s t := by
  have plain : ∀ path ∈ [staged], s.files.find? path ≠ some .directory := fun path listed =>
    holds.plain path listed
  rw [discard_run s plain] at run
  obtain rfl := (Prod.mk.inj run).2
  obtain ⟨parsed, list, kinds, split⟩ := holds.fits
  refine ⟨⟨rfl, rfl, rfl⟩, rfl, Nat.le_refl _, Nat.le_of_eq (Files.eraseAll_clock _ _).symm,
    sound.timely.eraseAll _, sound.registered, ?_, ?_, ?_, fun _ => ⟨rfl, rfl, rfl⟩, ?_⟩
  · intro path listed
    cases listed
  · intro path listed _
    exact (Files.find?_eraseAll _ _ _).trans (if_pos listed)
  · intro path outside _ _
    exact (Files.find?_eraseAll _ _ _).trans (if_neg outside)
  · constructor
    · intro path listed
      cases listed
    · exact List.nodup_nil
    · intro p listed
      cases listed
    · intro path listed
      cases listed
    · exact ⟨⟨dump, parsed⟩, list, kinds, split⟩

theorem effect_committed {step : UploadStep} {pending : List UploadStep}
    (flat : '/' ∉ target.commit.toList) (ran : step.Ran target dump s t)
    (holds : Holds target octets taken (.committing staged size dump (step :: pending)) s) :
    Effect target octets taken (.committing staged size dump (step :: pending))
      (.committing staged size dump pending) s t := by
  cases ran with
  | moved run => exact (effect_moved sound flat run holds).1
  | evicted =>
      have frame := Service.evictKey_frame target.key s
      refine effect_known sound holds rfl ?_ ?_ ?_ ?_
        (Service.registered_evictKey target.key s sound.registered)
      · exact ⟨by rw [frame], by rw [frame], by rw [frame]⟩
      all_goals rw [frame]
  | invalidated => exact effect_known sound holds rfl ⟨rfl, rfl, rfl⟩ rfl rfl rfl sound.registered
  | recorded usable =>
      exact effect_known sound holds rfl ⟨rfl, rfl, rfl⟩ rfl rfl rfl sound.registered

theorem Advanced.effect (faithful : s.converter.Faithful) (flat : '/' ∉ target.commit.toList)
    {announced : Option Nat} {body : Stream} {stage next : Stage}
    (advanced : Advanced target announced body s stage next t)
    (holds : Holds target body.portions.flatten taken stage s) :
    Effect target body.portions.flatten taken stage next s t := by
  cases advanced with
  | received within run => exact effect_received sound run holds
  | validated run => exact effect_validated sound run holds
  | converted run => exact effect_converted sound faithful run holds
  | ready => exact effect_ready sound holds
  | committed run => exact effect_committed sound flat (UploadStep.ran_of_run run) holds
  | discarded run => exact effect_discarded sound run holds
  | stored =>
      refine effect_still sound ⟨rfl, rfl, rfl⟩ rfl rfl rfl sound.registered (fun _ => .rfl)
        (fun _ => ⟨rfl, rfl, rfl⟩) ?_
      exact (List.append_nil taken).symm ▸ holds

end

section

variable {target : Target} {octets : List UInt8} {taken : List UploadStep} {stage next : Stage}
  {s t : Service}

/-- Files are moved to where those of the target are. -/
theorem Holds.goal (holds : Holds target octets taken stage s) {deed : Dump × UploadStep}
    (about : deed ∈ stage.next?) {path : String} (goal : deed.2.goal? = some path) :
    ∃ source kind, deed.2 = .move (s.basePath target) source kind ∧
      path = Service.dumpFile s.root target kind := by
  unfold Stage.next? at about
  split at about
  · rename_i staged size dump step pending
    cases about
    obtain ⟨_, list, _, split⟩ := holds.fits
    have among : step ∈ UploadStep.inOrder (s.basePath target) list := by
      rw [← split]
      exact List.mem_append_right taken List.mem_cons_self
    cases step with
    | move base source kind =>
        cases goal
        obtain ⟨rfl, _⟩ := UploadStep.move_mem_inOrder among
        exact ⟨source, kind, rfl, rfl⟩
    | _ => cases goal
  · cases about

/-- What was sound is so behind a step. -/
theorem Effect.sound (effect : Effect target octets taken stage next s t)
    (flat : '/' ∉ target.commit.toList) (holds : Holds target octets taken stage s)
    (sound : s.Sound) : t.Sound where
  timely := effect.timely
  registered := effect.registered
  confined := effect.like.converter ▸ sound.confined
  fresh number kind later := by
    rw [effect.like.root, effect.others]
    · exact sound.fresh number kind (Nat.le_trans effect.later later)
    · intro listed
      obtain ⟨given, _, earlier, named⟩ := holds.named _ listed
      have same := (Service.temporaryFile_inj named).1
      have := effect.later
      omega
    · intro listed
      obtain ⟨given, _, earlier, named⟩ := effect.holds.named _ listed
      rw [effect.like.root] at named
      have same := (Service.temporaryFile_inj named).1
      omega
    · intro deed about goal
      obtain ⟨_, other, _, same⟩ := holds.goal about goal
      exact Service.dumpFile_ne_temporary flat other kind number same.symm

end

end Uploader

end CodeNav
