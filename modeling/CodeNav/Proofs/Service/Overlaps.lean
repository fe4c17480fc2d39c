/-
Module: CodeNav.Proofs.Service.Overlaps
Purpose: Two uploads for one target that take turns, and what holds whoever has the turn.
Main exports:
  Overlap, Overlap.play, Overlap.Tidy, Overlap.Told, Overlap.tidy_of_play
-/
import CodeNav.Proofs.Service.Headway

namespace CodeNav

open Stateful
open Http (Stream)
open Service (temporaryFile)

/-! ### Two uploads -/

/-- One of two uploads. -/
inductive Side where
  | left
  | right
deriving Repr, DecidableEq

/-- The other upload. -/
def Side.other : Side → Side
  | left => right
  | right => left

theorem Side.other_other (side : Side) : side.other.other = side := by
  cases side <;> rfl

theorem Side.other_ne (side : Side) : side.other ≠ side := by
  cases side <;> decide

theorem Side.eq_other {side other : Side} (differs : other ≠ side) : other = side.other := by
  cases side <;> cases other <;> simp_all [Side.other]

/-- An upload, and how far it has come. -/
structure Uploader where
  announced : Option Nat
  body : Stream
  stage : Uploader.Stage

/-- The octets that are uploaded. -/
def Uploader.octets (uploader : Uploader) : List UInt8 :=
  uploader.body.portions.flatten

/-- A step of making an upload known that has been carried out. -/
structure Deed where
  side : Side
  dump : Dump
  step : UploadStep

/-- Two uploads for one target that take turns, with all that was made known by them, the last of it
first. -/
structure Overlap where
  target : Target
  service : Service
  uploader : Side → Uploader
  log : List Deed

/-- Whether an upload has been stored. -/
def Uploader.Stage.isStored : Stage → Bool
  | .stored _ => true
  | _ => false

namespace Overlap

/-- Two uploads that begin. -/
def start (target : Target) (service : Service) (announced : Side → Option Nat)
    (body : Side → Stream) : Overlap where
  target := target
  service := service
  uploader side := ⟨announced side, body side, .begun⟩
  log := []

/-- What a step of an upload changes. -/
def after (o : Overlap) (side : Side) (stage : Uploader.Stage) (service : Service) : Overlap :=
  { o with
    service
    uploader := Function.update o.uploader side { o.uploader side with stage }
    log := ((o.uploader side).stage.next?.map fun (dump, step) => ⟨side, dump, step⟩).toList ++
      o.log }

/-- One of the uploads does a step. It has to succeed. -/
def turn (o : Overlap) (side : Side) : Option Overlap :=
  let u := o.uploader side
  match Uploader.advance o.target u.announced u.body u.stage o.service with
  | (.ok stage, service) => some (o.after side stage service)
  | (.error _, _) => none

/-- What turns lead to, one after the other. -/
def play (o : Overlap) : List Side → Option Overlap
  | [] => some o
  | side :: rest => (o.turn side).bind (play · rest)

/-- Both uploads have been stored. -/
def Done (o : Overlap) : Prop :=
  ∀ side, (o.uploader side).stage.isStored

/-- The upload that moved its file of an encoding into place last. -/
def mover? (o : Overlap) (kind : Encoding) : Option Side :=
  (o.log.find? (·.step.moves kind)).map (·.side)

/-- The upload that was recorded last in the index of packages. -/
def recorder? (o : Overlap) : Option Side :=
  (o.log.find? (·.step.records)).map (·.side)

section

variable {o next final : Overlap} {side : Side}

/-- Whether a step of an upload has led from one state to another. -/
def Turned (o : Overlap) (side : Side) (next : Overlap) : Prop :=
  ∃ stage service, Uploader.Advanced o.target (o.uploader side).announced (o.uploader side).body
    o.service (o.uploader side).stage stage service ∧ next = o.after side stage service

theorem turn_eq_some : o.turn side = some next ↔ o.Turned side next := by
  constructor
  · intro led
    unfold turn at led
    dsimp only at led
    split at led
    · rename_i stage service run
      cases led
      exact ⟨stage, service, Uploader.advanced_of_advance run, rfl⟩
    · cases led
  · rintro ⟨stage, service, advanced, rfl⟩
    have run := Uploader.advance_of_advanced advanced
    unfold turn
    simp only [run]

/-- What every turn keeps is kept by all turns together. -/
theorem play_keeps {P : Overlap → Prop}
    (each : ∀ o side next, P o → Turned o side next → P next) {turns : List Side} (holds : P o)
    (played : o.play turns = some final) : P final := by
  induction turns generalizing o with
  | nil =>
      cases played
      exact holds
  | cons side rest ih =>
      obtain ⟨next, led, played⟩ := Option.bind_eq_some_iff.mp played
      exact ih (each o side next holds (turn_eq_some.mp led)) played

theorem play_append {turns others : List Side} (first : o.play turns = some next)
    (second : next.play others = some final) : o.play (turns ++ others) = some final := by
  induction turns generalizing o with
  | nil =>
      cases first
      exact second
  | cons side rest ih =>
      obtain ⟨between, led, played⟩ := Option.bind_eq_some_iff.mp first
      exact Option.bind_eq_some_iff.mpr ⟨between, led, ih played⟩

/-- Steps of one upload in a row are turns of it alone. -/
theorem play_of_runs {target : Target} {announced : Option Nat} {body : Stream}
    {stage last : Uploader.Stage} {s t : Service}
    (runs : Uploader.Runs target announced body stage s last t) {uploader : Side → Uploader}
    (begins : uploader side = ⟨announced, body, stage⟩) (log : List Deed) :
    ∃ turns deeds, (⟨target, s, uploader, log⟩ : Overlap).play turns =
        some ⟨target, t, Function.update uploader side ⟨announced, body, last⟩, deeds ++ log⟩ ∧
      ∀ deed ∈ deeds, deed.side = side := by
  induction runs generalizing uploader log with
  | done stage s =>
      refine ⟨[], [], ?_, fun _ listed => by cases listed⟩
      rw [← begins, Function.update_eq_self]
      rfl
  | @step stage later last s u t advanced others ih =>
      let o : Overlap := ⟨target, s, uploader, log⟩
      have led : o.turn side = some (o.after side later u) := by
        refine turn_eq_some.mpr ⟨later, u, ?_, rfl⟩
        change Uploader.Advanced target (uploader side).announced (uploader side).body s
          (uploader side).stage later u
        rw [begins]
        exact advanced
      have now : (o.after side later u).uploader side = ⟨announced, body, later⟩ := by
        change Function.update uploader side { uploader side with stage := later } side = _
        rw [Function.update_self, begins]
      obtain ⟨turns, deeds, played, own⟩ := ih now (o.after side later u).log
      let next := (stage.next?.map fun (dump, step) => (⟨side, dump, step⟩ : Deed)).toList
      refine ⟨side :: turns, deeds ++ next, ?_, ?_⟩
      · refine Option.bind_eq_some_iff.mpr ⟨o.after side later u, led, played.trans ?_⟩
        simp only [after, Function.update_idem, List.append_assoc, o, begins, next]
      · intro deed listed
        rcases List.mem_append.mp listed with behind | first
        · exact own deed behind
        · obtain ⟨_, _, rfl⟩ := Option.map_eq_some_iff.mp (Option.mem_toList.mp first)
          rfl

end

/-! ### What both uploads keep -/

/-- What an upload has made known, the first of it first. -/
def taken (o : Overlap) (side : Side) : List UploadStep :=
  ((o.log.filter (·.side = side)).map (·.step)).reverse

/-- As far as files are concerned: each upload has what it relies on, the files that have been
moved into place are where they were moved to last, and all other ones stand as before. -/
structure Tidy [Gzip.Compressor] (s : Service) (o : Overlap) : Prop where
  sound : o.service.Sound
  like : s.SetUpLike o.service
  limits : o.service.limits = s.limits
  holds : ∀ side, Uploader.Holds o.target (o.uploader side).octets (o.taken side)
    (o.uploader side).stage o.service
  later : s.temporaries ≤ o.service.temporaries
  new : ∀ side, ∀ path ∈ (o.uploader side).stage.owned, s.files.find? path = none
  apart : ∀ side, ∀ path ∈ (o.uploader side).stage.owned,
    path ∉ (o.uploader side.other).stage.owned
  others : ∀ path, (∀ side, path ∉ (o.uploader side).stage.owned) →
    (∀ deed ∈ o.log, deed.step.goal? ≠ some path) →
    o.service.files.find? path = s.files.find? path
  placed : ∀ kind side, o.mover? kind = some side →
    ∃ f, o.service.files.find? (Service.dumpFile s.root o.target kind) = some (.file f) ∧
      kind.contentOf (o.uploader side).octets = .ok f.content

section

variable {s t : Service} {o : Overlap} {side other : Side} {stage : Uploader.Stage}

theorem uploader_self : (o.after side stage t).uploader side = { o.uploader side with stage } :=
  Function.update_self _ _ _

theorem uploader_other (differs : other ≠ side) :
    (o.after side stage t).uploader other = o.uploader other :=
  Function.update_of_ne differs _ _

theorem octets_after : ((o.after side stage t).uploader other).octets = (o.uploader other).octets := by
  by_cases same : other = side
  · subst same
    rw [uploader_self]
    rfl
  · rw [uploader_other same]

theorem taken_self : (o.after side stage t).taken side =
    o.taken side ++ ((o.uploader side).stage.next?.map (·.2)).toList := by
  unfold taken after
  cases (o.uploader side).stage.next? with
  | none => simp
  | some deed => simp

theorem taken_other (differs : other ≠ side) : (o.after side stage t).taken other = o.taken other := by
  unfold taken after
  cases (o.uploader side).stage.next? with
  | none => simp
  | some deed => simp [Ne.symm differs]

theorem mem_log_after {deed : Deed} : deed ∈ (o.after side stage t).log ↔
    (∃ next ∈ (o.uploader side).stage.next?, deed = ⟨side, next.1, next.2⟩) ∨ deed ∈ o.log := by
  unfold after
  cases (o.uploader side).stage.next? with
  | none => simp
  | some next => simp

theorem log_quiet (quiet : (o.uploader side).stage.next? = none) :
    (o.after side stage t).log = o.log := by
  unfold after
  rw [quiet]
  rfl

theorem log_known {next : Dump × UploadStep} (about : (o.uploader side).stage.next? = some next) :
    (o.after side stage t).log = ⟨side, next.1, next.2⟩ :: o.log := by
  unfold after
  rw [about]
  rfl

theorem mover?_quiet {kind : Encoding}
    (quiet : ∀ next ∈ (o.uploader side).stage.next?, ¬ next.2.moves kind) :
    (o.after side stage t).mover? kind = o.mover? kind := by
  unfold mover?
  cases about : (o.uploader side).stage.next? with
  | none => rw [log_quiet about]
  | some next =>
      have not := quiet next about
      rw [log_known about]
      simp [not]

theorem mover?_moves {kind : Encoding} {next : Dump × UploadStep}
    (about : (o.uploader side).stage.next? = some next) (moves : next.2.moves kind) :
    (o.after side stage t).mover? kind = some side := by
  unfold mover?
  rw [log_known about]
  simp [moves]

theorem mem_taken {step : UploadStep} :
    step ∈ o.taken side ↔ ∃ deed ∈ o.log, deed.side = side ∧ deed.step = step := by
  simp [taken, and_assoc]

/-- Of deeds of which each side has one, there are two. -/
theorem pair_of_single {deeds : List Deed}
    (single : ∀ side, (deeds.filter (·.side = side)).length = 1) :
    ∃ last first, deeds = [last, first] ∧ first.side = last.side.other := by
  cases deeds with
  | nil => cases single .left
  | cons last rest =>
      have own := single last.side
      rw [List.filter_cons_of_pos (by simp), List.length_cons, Nat.add_eq_right,
        List.length_eq_zero_iff, List.filter_eq_nil_iff] at own
      have others : ∀ deed ∈ rest, deed.side = last.side.other := fun deed listed =>
        Side.eq_other (by simpa using own deed listed)
      have other := single last.side.other
      rw [List.filter_cons_of_neg (by simpa using (Side.other_ne last.side).symm),
        List.filter_eq_self.mpr (by simpa using others), List.length_eq_one_iff] at other
      obtain ⟨first, rfl⟩ := other
      exact ⟨last, first, rfl, others first (List.mem_singleton_self _)⟩

theorem tidy_start [Gzip.Compressor] {s : Service} (sound : s.Sound) (target : Target)
    (announced : Side → Option Nat) (body : Side → Stream) :
    Tidy s (start target s announced body) where
  sound := sound
  like := ⟨rfl, rfl, rfl⟩
  limits := rfl
  holds side := by
    refine ⟨?_, List.nodup_nil, ?_, ?_, rfl⟩
    all_goals
      intro _ listed
      cases listed
  later := Nat.le_refl _
  new side path listed := by cases listed
  apart side path listed := by cases listed
  others path _ _ := rfl
  placed kind side moved := by cases moved

/-- Where dumps are stored, no upload has a temporary file. -/
theorem Tidy.dumpFile_not_owned [Gzip.Compressor] (tidy : Tidy s o)
    (flat : '/' ∉ o.target.commit.toList) (kind : Encoding) (side : Side) :
    Service.dumpFile s.root o.target kind ∉ (o.uploader side).stage.owned := by
  intro listed
  obtain ⟨number, other, _, named⟩ := (tidy.holds side).named _ listed
  rw [tidy.like.root] at named
  exact Service.dumpFile_ne_temporary flat kind other number named

end

section

variable [Gzip.Compressor] {s t : Service} {o : Overlap} {side : Side} {stage : Uploader.Stage}
  (tidy : Tidy s o)
  (effect : Uploader.Effect o.target (o.uploader side).octets (o.taken side)
    (o.uploader side).stage stage o.service t)
include tidy effect

/-- A step of one upload does not touch temporary files of the other one. -/
theorem Tidy.other_not_owned {path : String} (listed : path ∈ (o.uploader side.other).stage.owned) :
    path ∉ (o.uploader side).stage.owned ∧ path ∉ stage.owned := by
  have before : path ∉ (o.uploader side).stage.owned := fun own => tidy.apart side path own listed
  refine ⟨before, fun own => ?_⟩
  rcases effect.owned path own with old | ⟨kind, named⟩
  · exact before old
  · obtain ⟨number, other, earlier, known⟩ := (tidy.holds side.other).named path listed
    rw [named] at known
    have same := (Service.temporaryFile_inj known).1
    omega

theorem Tidy.holds_after (flat : '/' ∉ o.target.commit.toList) (other : Side) :
    Uploader.Holds o.target ((o.after side stage t).uploader other).octets
      ((o.after side stage t).taken other) ((o.after side stage t).uploader other).stage t := by
  by_cases same : other = side
  · subst same
    rw [taken_self, octets_after, uploader_self]
    exact effect.holds
  · rw [taken_other same, uploader_other same]
    obtain rfl := Side.eq_other same
    refine (tidy.holds _).frame effect.like effect.limits effect.later effect.clock ?_
    intro path listed
    obtain ⟨before, behind⟩ := tidy.other_not_owned effect listed
    refine effect.others path before behind fun deed about goal => ?_
    obtain ⟨_, kind, _, named⟩ := (tidy.holds side).goal about goal
    rw [tidy.like.root] at named
    exact tidy.dumpFile_not_owned flat kind side.other (named ▸ listed)

theorem Tidy.new_after (begun : s.Sound) (other : Side) {path : String}
    (listed : path ∈ ((o.after side stage t).uploader other).stage.owned) :
    s.files.find? path = none := by
  by_cases same : other = side
  · subst same
    rw [uploader_self] at listed
    rcases effect.owned path listed with old | ⟨kind, named⟩
    · exact tidy.new other path old
    · rw [named, tidy.like.root]
      exact begun.fresh _ kind tidy.later
  · rw [uploader_other same] at listed
    exact tidy.new other path listed

theorem Tidy.apart_after (other : Side) {path : String}
    (listed : path ∈ ((o.after side stage t).uploader other).stage.owned) :
    path ∉ ((o.after side stage t).uploader other.other).stage.owned := by
  intro own
  by_cases same : other = side
  · subst same
    rw [uploader_self] at listed
    rw [uploader_other (Side.other_ne other)] at own
    exact (tidy.other_not_owned effect own).2 listed
  · rw [uploader_other same] at listed
    obtain rfl := Side.eq_other same
    rw [Side.other_other, uploader_self] at own
    exact (tidy.other_not_owned effect listed).2 own

theorem Tidy.others_after {path : String}
    (notOwned : ∀ other, path ∉ ((o.after side stage t).uploader other).stage.owned)
    (notGoal : ∀ deed ∈ (o.after side stage t).log, deed.step.goal? ≠ some path) :
    t.files.find? path = s.files.find? path := by
  have behind : path ∉ stage.owned := by simpa only [uploader_self] using notOwned side
  by_cases before : path ∈ (o.uploader side).stage.owned
  · rw [tidy.new side path before]
    exact effect.gone path before behind
  · refine (effect.others path before behind fun deed about goal => ?_).trans
      (tidy.others path (fun other => ?_) fun deed listed => ?_)
    · exact notGoal ⟨side, deed.1, deed.2⟩ (mem_log_after.mpr (.inl ⟨deed, about, rfl⟩)) goal
    · by_cases same : other = side
      · exact same ▸ before
      · simpa only [uploader_other same] using notOwned other
    · exact notGoal deed (mem_log_after.mpr (.inr listed))

/-- A stored dump stays as it is while nothing is moved to where it is. -/
theorem Tidy.dumpFile_untouched (flat : '/' ∉ o.target.commit.toList) {kind : Encoding}
    (quiet : ∀ next ∈ (o.uploader side).stage.next?, ¬ next.2.moves kind) :
    t.files.find? (Service.dumpFile s.root o.target kind) =
      o.service.files.find? (Service.dumpFile s.root o.target kind) := by
  refine effect.others _ (tidy.dumpFile_not_owned flat kind side) ?_ ?_
  · intro own
    obtain ⟨number, _, _, named⟩ := effect.holds.named _ own
    rw [effect.like.root, tidy.like.root] at named
    exact Service.dumpFile_ne_temporary flat kind _ number named
  · intro deed about goal
    obtain ⟨source, moved, step, same⟩ := (tidy.holds side).goal about goal
    rw [tidy.like.root] at same
    obtain rfl := Encoding.path_injective same
    exact quiet deed about (UploadStep.moves_iff.mpr ⟨_, source, step⟩)

end

section

variable [Gzip.Compressor] {s t : Service} {o : Overlap} {side : Side} {stage : Uploader.Stage}

/-- A file that a step moves into place is what is stored of its upload. -/
theorem Tidy.placed_now (tidy : Tidy s o) (flat : '/' ∉ o.target.commit.toList) {kind : Encoding}
    (advanced : Uploader.Advanced o.target (o.uploader side).announced (o.uploader side).body
      o.service (o.uploader side).stage stage t) {next : Dump × UploadStep}
    (about : (o.uploader side).stage.next? = some next) (moves : next.2.moves kind) :
    ∃ f, t.files.find? (Service.dumpFile s.root o.target kind) = some (.file f) ∧
      kind.contentOf (o.uploader side).octets = .ok f.content := by
  obtain ⟨dump, step⟩ := next
  obtain ⟨base, source, rfl⟩ := UploadStep.moves_iff.mp moves
  obtain ⟨staged, size, pending, begins, ran⟩ := advanced.ran about
  have holds := tidy.holds side
  rw [begins] at holds
  cases ran with
  | moved run =>
      obtain ⟨_, rfl, f, stands, stored⟩ := Uploader.effect_moved tidy.sound flat run holds
      refine ⟨f, ?_, stored⟩
      rw [← tidy.like.root]
      exact stands

theorem Tidy.turned (begun : s.Sound) (faithful : s.converter.Faithful)
    (flat : '/' ∉ o.target.commit.toList) (tidy : Tidy s o) {next : Overlap}
    (turned : o.Turned side next) : Tidy s next := by
  obtain ⟨stage, t, advanced, rfl⟩ := turned
  have effect : Uploader.Effect o.target (o.uploader side).octets (o.taken side)
      (o.uploader side).stage stage o.service t :=
    advanced.effect tidy.sound (tidy.like.converter ▸ faithful) flat (tidy.holds side)
  constructor
  · exact effect.sound flat (tidy.holds side) tidy.sound
  · exact ⟨effect.like.root.trans tidy.like.root, effect.like.flags.trans tidy.like.flags,
      effect.like.converter.trans tidy.like.converter⟩
  · exact effect.limits.trans tidy.limits
  · exact tidy.holds_after effect flat
  · exact Nat.le_trans tidy.later effect.later
  · exact fun other path listed => tidy.new_after effect begun other listed
  · exact fun other path listed => tidy.apart_after effect other listed
  · exact fun path => tidy.others_after effect
  · intro kind other moved
    rw [octets_after]
    by_cases moves : ∃ next ∈ (o.uploader side).stage.next?, next.2.moves kind
    · obtain ⟨next, about, moves⟩ := moves
      rw [mover?_moves about moves] at moved
      cases moved
      exact tidy.placed_now flat advanced about moves
    · have quiet : ∀ next ∈ (o.uploader side).stage.next?, ¬ next.2.moves kind :=
        fun next about does => moves ⟨next, about, does⟩
      rw [mover?_quiet quiet] at moved
      obtain ⟨f, stands, stored⟩ := tidy.placed kind other moved
      exact ⟨f, (tidy.dumpFile_untouched effect flat quiet).trans stands, stored⟩

end

/-- The recordings in the index of packages, the last of them first. -/
def recordings (o : Overlap) : List Deed :=
  o.log.filter (·.step.records)

/-- As far as what is known besides files is concerned: the index has been changed by the
recordings, and by nothing else, and what has been forgotten stays so. -/
structure Told (s : Service) (o : Overlap) : Prop where
  parsed : ∀ deed ∈ o.log, Dump.parse (some s.limits.maxUploadBytes)
    (o.uploader deed.side).octets = .ok deed.dump
  index : o.service.index =
    o.recordings.foldr (fun deed index => index.record o.target deed.dump) s.index
  usable : o.recordings ≠ [] → ∃ index, o.service.index = .available index
  evicted : (∃ deed ∈ o.log, deed.step = .evict) →
    o.service.databases.entries.find? o.target.key = none
  forgotten : (∃ deed ∈ o.log, deed.step = .invalidate) →
    ∀ entry ∈ o.service.documents.entries, ∀ kind,
      Service.isFrom (Service.dumpFile s.root o.target kind) entry.key = false

section

variable {s t : Service} {o : Overlap} {side : Side}

theorem told_start (s : Service) (target : Target) (announced : Side → Option Nat)
    (body : Side → Stream) : Told s (start target s announced body) where
  parsed deed listed := by cases listed
  index := rfl
  usable some := absurd rfl some
  evicted := by
    rintro ⟨deed, listed, _⟩
    cases listed
  forgotten := by
    rintro ⟨deed, listed, _⟩
    cases listed

/-- What is known besides files does not change if nothing is made known. -/
theorem Told.quiet (told : Told s o) {stage : Uploader.Stage}
    (about : (o.uploader side).stage.next? = none) (databases : t.databases = o.service.databases)
    (documents : t.documents = o.service.documents) (index : t.index = o.service.index) :
    Told s (o.after side stage t) := by
  have log : (o.after side stage t).log = o.log := log_quiet about
  constructor
  · intro deed listed
    rw [log] at listed
    rw [octets_after]
    exact told.parsed deed listed
  · unfold recordings
    rw [log]
    exact index.trans told.index
  · unfold recordings
    rw [log]
    exact fun some => index ▸ told.usable some
  · rw [log]
    exact fun evicted => databases ▸ told.evicted evicted
  · rw [log]
    exact fun forgotten => documents ▸ told.forgotten forgotten

variable [Gzip.Compressor]

theorem Told.known (tidy : Tidy s o) (told : Told s o) {stage : Uploader.Stage} {dump : Dump}
    {step : UploadStep} (about : (o.uploader side).stage.next? = some (dump, step))
    (ran : step.Ran o.target dump o.service t)
    (parsed : Dump.parse (some s.limits.maxUploadBytes) (o.uploader side).octets = .ok dump) :
    Told s (o.after side stage t) := by
  let deed : Deed := ⟨side, dump, step⟩
  have log : (o.after side stage t).log = deed :: o.log := log_known about
  have recorded : (o.after side stage t).recordings =
      if step.records then deed :: o.recordings else o.recordings := by
    unfold recordings
    rw [log, List.filter_cons]
  constructor
  · intro other listed
    rw [octets_after]
    rw [log] at listed
    rcases List.mem_cons.mp listed with rfl | listed
    · exact parsed
    · exact told.parsed other listed
  · rw [recorded]
    refine ran.index.trans ?_
    rw [told.index]
    split <;> rfl
  · intro some
    by_cases records : step.records
    · obtain rfl := UploadStep.records_iff.mp records
      cases ran
      exact ⟨_, rfl⟩
    · rw [recorded, if_neg records] at some
      obtain ⟨index, usable⟩ := told.usable some
      exact ⟨index, (ran.index.trans (if_neg records)).trans usable⟩
  · rintro ⟨other, listed, evicts⟩
    rw [log] at listed
    rcases List.mem_cons.mp listed with rfl | listed
    · cases evicts
      cases ran
      exact Service.find?_evictKey o.target.key o.service
    · exact ran.notOpen (told.evicted ⟨other, listed, evicts⟩)
  · rintro ⟨other, listed, forgets⟩ entry kept kind
    rw [log] at listed
    rcases List.mem_cons.mp listed with rfl | listed
    · cases forgets
      cases ran
      refine (Service.mem_forgetFiles.mp kept).2 _ ?_
      rw [← tidy.like.root]
      exact List.mem_map_of_mem (by cases kind <;> decide)
    · exact told.forgotten ⟨other, listed, forgets⟩ entry (ran.documents kept) kind

theorem Told.turned (faithful : s.converter.Faithful) (flat : '/' ∉ o.target.commit.toList)
    (tidy : Tidy s o) (told : Told s o) {next : Overlap} (turned : o.Turned side next) :
    Told s next := by
  obtain ⟨stage, t, advanced, rfl⟩ := turned
  cases about : (o.uploader side).stage.next? with
  | none =>
      have effect : Uploader.Effect o.target (o.uploader side).octets (o.taken side)
          (o.uploader side).stage stage o.service t :=
        advanced.effect tidy.sound (tidy.like.converter ▸ faithful) flat (tidy.holds side)
      obtain ⟨databases, documents, index⟩ := effect.quiet about
      exact told.quiet about databases documents index
  | some deed =>
      obtain ⟨dump, step⟩ := deed
      obtain ⟨staged, size, pending, begins, ran⟩ := advanced.ran about
      have fits := (tidy.holds side).fits
      rw [begins] at fits
      exact told.known tidy about ran (tidy.limits ▸ fits.1)

/-- Whatever turns were taken, files and everything else are as they should be. -/
theorem tidy_of_play (begun : s.Sound) (faithful : s.converter.Faithful) {target : Target}
    (flat : '/' ∉ target.commit.toList) {announced : Side → Option Nat} {body : Side → Stream}
    {turns : List Side} (played : (start target s announced body).play turns = some o) :
    o.target = target ∧ (∀ side, (o.uploader side).octets = (body side).portions.flatten) ∧
      Tidy s o ∧ Told s o := by
  refine play_keeps (P := fun o => o.target = target ∧
    (∀ side, (o.uploader side).octets = (body side).portions.flatten) ∧ Tidy s o ∧ Told s o) ?_
    ⟨rfl, fun _ => rfl, tidy_start begun target announced body,
      told_start s target announced body⟩ played
  rintro o side next ⟨rfl, octets, tidy, told⟩ turned
  refine ⟨?_, fun other => ?_, tidy.turned begun faithful flat turned,
    told.turned faithful flat tidy turned⟩
  · obtain ⟨stage, t, _, rfl⟩ := turned
    rfl
  · obtain ⟨stage, t, _, rfl⟩ := turned
    rw [octets_after, octets]

/-- An upload that was stored has made everything known, and has no temporary file left. -/
theorem Tidy.stored (tidy : Tidy s o) (stored : (o.uploader side).stage.isStored) :
    (o.uploader side).stage.owned = [] ∧
      ∃ list, (∀ kind, kind ∈ list.map (·.1) ↔ kind ∈ s.flags.enabled) ∧
        o.taken side = UploadStep.inOrder (s.basePath o.target) list := by
  have fits := (tidy.holds side).fits
  unfold Uploader.Stage.isStored at stored
  split at stored
  · rename_i size same
    rw [same] at fits ⊢
    obtain ⟨_, list, kinds, taken⟩ := fits
    refine ⟨rfl, list, tidy.like.flags ▸ kinds, ?_⟩
    unfold Service.basePath at taken ⊢
    rw [← tidy.like.root]
    exact taken
  · cases stored

/-- Every dump that was stored can be read. -/
theorem Tidy.readable (tidy : Tidy s o) (done : o.Done) (side : Side) :
    ∃ dump, Dump.parse (some s.limits.maxUploadBytes) (o.uploader side).octets = .ok dump := by
  have fits := (tidy.holds side).fits
  have stored := done side
  unfold Uploader.Stage.isStored at stored
  split at stored
  · rename_i size same
    rw [same] at fits
    exact tidy.limits ▸ fits.1
  · cases stored

theorem Tidy.moved (tidy : Tidy s o) (stored : (o.uploader side).stage.isStored) {kind : Encoding}
    (enabled : kind ∈ s.flags.enabled) :
    ∃ deed ∈ o.log, deed.side = side ∧ deed.step.moves kind := by
  obtain ⟨_, list, kinds, taken⟩ := tidy.stored stored
  obtain ⟨p, listed, rfl⟩ := List.mem_map.mp ((kinds kind).mpr enabled)
  have among : UploadStep.move (s.basePath o.target) p.2 p.1 ∈ o.taken side := by
    rw [taken]
    exact List.mem_append_left _ (List.mem_map.mpr ⟨p, listed, rfl⟩)
  obtain ⟨deed, logged, own, step⟩ := mem_taken.mp among
  exact ⟨deed, logged, own, UploadStep.moves_iff.mpr ⟨_, _, step⟩⟩

/-- Files have been moved to where those of enabled encodings are. -/
theorem Tidy.goal (tidy : Tidy s o) (done : o.Done) {deed : Deed} (logged : deed ∈ o.log)
    {path : String} (goal : deed.step.goal? = some path) :
    ∃ kind ∈ s.flags.enabled, path = Service.dumpFile s.root o.target kind := by
  obtain ⟨_, list, kinds, taken⟩ := tidy.stored (done deed.side)
  have among : deed.step ∈ o.taken deed.side := mem_taken.mpr ⟨deed, logged, rfl, rfl⟩
  rw [taken] at among
  cases step : deed.step with
  | move base source kind =>
      rw [step] at goal among
      cases goal
      obtain ⟨rfl, listed⟩ := UploadStep.move_mem_inOrder among
      exact ⟨kind, (kinds kind).mp (List.mem_map_of_mem listed), rfl⟩
  | _ =>
      rw [step] at goal
      cases goal

theorem Tidy.known (tidy : Tidy s o) (stored : (o.uploader side).stage.isStored)
    (step : UploadStep) (about : step ∈ [.evict, .invalidate, .record]) :
    ∃ deed ∈ o.log, deed.side = side ∧ deed.step = step := by
  obtain ⟨_, list, _, taken⟩ := tidy.stored stored
  refine mem_taken.mp ?_
  rw [taken]
  exact List.mem_append_right _ about

/-- Each upload has been recorded once. -/
theorem Tidy.recordings (tidy : Tidy s o) (done : o.Done) :
    ∃ last first, o.recordings = [last, first] ∧ first.side = last.side.other := by
  refine pair_of_single fun side => ?_
  obtain ⟨_, list, _, taken⟩ := tidy.stored (done side)
  have count : (o.taken side).countP (·.records) = 1 := by
    rw [taken, UploadStep.inOrder, List.countP_append, List.countP_map,
      List.countP_eq_zero.mpr (by simp [UploadStep.records])]
    rfl
  unfold Overlap.recordings
  rw [List.filter_filter, ← count, Overlap.taken, List.countP_reverse, List.countP_map,
    List.countP_filter, List.countP_eq_length_filter]
  refine congrArg List.length (List.filter_congr fun deed _ => ?_)
  exact Bool.and_comm _ _

end

end Overlap

end CodeNav
