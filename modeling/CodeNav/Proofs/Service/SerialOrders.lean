/-
Module: CodeNav.Proofs.Service.SerialOrders
Purpose: How far uploads for one target that overlap leave what they leave one behind the other.
Main exports:
  Overlap.Leaves, Overlap.play_serial, Overlap.overlapping_uploads, Overlap.overlap_may_mix
-/
import CodeNav.Proofs.Service.Overlaps

namespace CodeNav

open Stateful
open Http (Stream)

namespace Overlap

/-! ### What both uploads leave -/

/-- What two uploads for a target leave: the file of every enabled encoding is that of the upload
which came to it last, and so is what the index of packages has of the target. Neither a database
nor documents of the target are in memory, so that it is served from its files. -/
structure Leaves [Gzip.Compressor] (target : Target) (s : Service) (octets : Side → List UInt8)
    (mover : Encoding → Side) (recorder : Side) (t : Service) : Prop where
  files : ∀ kind ∈ s.flags.enabled,
    ∃ f, t.files.find? (Service.dumpFile s.root target kind) = some (.file f) ∧
      kind.contentOf (octets (mover kind)) = .ok f.content
  others : ∀ path, (∀ kind ∈ s.flags.enabled, Service.dumpFile s.root target kind ≠ path) →
    t.files.find? path = s.files.find? path
  notOpen : t.databases.entries.find? target.key = none
  forgotten : ∀ entry ∈ t.documents.entries, ∀ kind,
    Service.isFrom (Service.dumpFile s.root target kind) entry.key = false
  serves : ∀ kind others, s.flags.enabled = kind :: others → t.Serves target (octets (mover kind))
  index : ∃ index before last, s.index = .available index ∧
    Dump.parse (some s.limits.maxUploadBytes) (octets recorder.other) = .ok before ∧
    Dump.parse (some s.limits.maxUploadBytes) (octets recorder) = .ok last ∧
    t.index = (((IndexState.available index).record target before).record target last)

namespace Leaves

variable [Gzip.Compressor] {target : Target} {s t u : Service} {octets : Side → List UInt8}
  {mover other : Encoding → Side} {recorder : Side}

/-- Uploads that came to an encoding in the same order leave the same there. -/
theorem same_file (leaves : Leaves target s octets mover recorder t) {recorder' : Side}
    (leaves' : Leaves target s octets other recorder' u) {kind : Encoding}
    (enabled : kind ∈ s.flags.enabled) (same : mover kind = other kind) :
    ∃ f g, t.files.find? (Service.dumpFile s.root target kind) = some (.file f) ∧
      u.files.find? (Service.dumpFile s.root target kind) = some (.file g) ∧
      f.content = g.content := by
  obtain ⟨f, stands, stored⟩ := leaves.files kind enabled
  obtain ⟨g, there, stored'⟩ := leaves'.files kind enabled
  rw [same, stored'] at stored
  exact ⟨f, g, stands, there, (Except.ok.inj stored).symm⟩

/-- Uploads that were recorded in the same order leave the same index of packages. -/
theorem same_index (leaves : Leaves target s octets mover recorder t)
    (leaves' : Leaves target s octets other recorder u) : t.index = u.index := by
  obtain ⟨index, before, last, usable, parsedBefore, parsedLast, result⟩ := leaves.index
  obtain ⟨index', before', last', usable', parsedBefore', parsedLast', result'⟩ := leaves'.index
  rw [usable] at usable'
  rw [parsedBefore] at parsedBefore'
  rw [parsedLast] at parsedLast'
  cases usable'
  cases parsedBefore'
  cases parsedLast'
  rw [result, result']

/-- Only enabled encodings matter. -/
theorem congr (leaves : Leaves target s octets mover recorder t)
    (same : ∀ kind ∈ s.flags.enabled, mover kind = other kind) :
    Leaves target s octets other recorder t where
  files kind enabled := same kind enabled ▸ leaves.files kind enabled
  others := leaves.others
  notOpen := leaves.notOpen
  forgotten := leaves.forgotten
  serves kind others split := by
    rw [← same kind (split ▸ List.mem_cons_self)]
    exact leaves.serves kind others split
  index := leaves.index

end Leaves

section

variable [Gzip.Compressor] {s : Service} {o : Overlap}

/-- If all enabled encodings of a target hold some dump, the first of them is served. -/
theorem serves_first_file {t : Service} {target : Target}
    (registered : Registered t.databases t.closed)
    (notOpen : t.databases.entries.find? target.key = none) {kind : Encoding}
    {others : List Encoding} (split : t.flags.enabled = kind :: others)
    {octets : Encoding → List UInt8} {limit : Option Nat}
    (readable : ∀ kind, ∃ dump, Dump.parse limit (octets kind) = .ok dump)
    (files : ∀ kind ∈ t.flags.enabled,
      ∃ f, t.files.find? (Service.dumpFile t.root target kind) = some (.file f) ∧
        kind.contentOf (octets kind) = .ok f.content) :
    t.Serves target (octets kind) := by
  have openable : ∀ kind ∈ t.flags.enabled,
      t.files.find? (Service.dumpFile t.root target kind) = none ∨
      ∃ f source, t.files.find? (Service.dumpFile t.root target kind) = some (.file f) ∧
        kind.openContent (Service.dumpFile t.root target kind) f.content = .ok source := by
    intro kind enabled
    obtain ⟨f, stands, stored⟩ := files kind enabled
    obtain ⟨dump, accepted⟩ := readable kind
    obtain ⟨source, opens⟩ :=
      Encoding.opens_stored accepted stored (Service.dumpFile t.root target kind)
    exact .inr ⟨f, source, stands, opens⟩
  have enabled : kind ∈ t.flags.enabled := split ▸ List.mem_cons_self
  obtain ⟨f, stands, stored⟩ := files kind enabled
  obtain ⟨before, first, behind, g, parts, absent, there, serves⟩ :=
    Service.serves_first registered notOpen openable ⟨kind, enabled, by simp [stands]⟩
  rw [split] at parts
  cases before with
  | nil =>
      cases parts
      rw [stands] at there
      cases there
      exact serves (octets kind) stored
  | cons head rest =>
      cases parts
      rw [absent kind List.mem_cons_self] at stands
      cases stands

/-- The upload that came to an encoding last. -/
def mover (o : Overlap) (kind : Encoding) : Side :=
  (o.mover? kind).getD .left

theorem Tidy.mover?_eq (tidy : Tidy s o) (done : o.Done) {kind : Encoding}
    (enabled : kind ∈ s.flags.enabled) : o.mover? kind = some (o.mover kind) := by
  obtain ⟨deed, logged, _, moves⟩ := tidy.moved (done .left) enabled
  have found : (o.log.find? (·.step.moves kind)).isSome :=
    List.find?_isSome.mpr ⟨deed, logged, moves⟩
  unfold mover mover?
  cases first : o.log.find? (·.step.moves kind) with
  | none =>
      rw [first] at found
      cases found
  | some deed => rfl

theorem leaves_of_done (tidy : Tidy s o) (told : Told s o) (done : o.Done) :
    ∃ recorder, o.recorder? = some recorder ∧
      Leaves o.target s (fun side => (o.uploader side).octets) o.mover recorder o.service := by
  obtain ⟨last, first, recordings, before⟩ := tidy.recordings done
  have recorder : o.recorder? = some last.side := by
    unfold recorder?
    rw [← List.head?_filter]
    change (o.recordings.head?).map _ = _
    rw [recordings]
    rfl
  have files : ∀ kind ∈ s.flags.enabled,
      ∃ f, o.service.files.find? (Service.dumpFile s.root o.target kind) = some (.file f) ∧
        kind.contentOf (o.uploader (o.mover kind)).octets = .ok f.content :=
    fun kind enabled => tidy.placed kind _ (tidy.mover?_eq done enabled)
  have notOpen : o.service.databases.entries.find? o.target.key = none := by
    obtain ⟨deed, logged, _, evicts⟩ := tidy.known (done .left) .evict (by simp)
    exact told.evicted ⟨deed, logged, evicts⟩
  refine ⟨last.side, recorder, files, ?_, notOpen, ?_, ?_, ?_⟩
  · intro path elsewhere
    refine tidy.others path (fun side => ?_) fun deed logged goal => ?_
    · rw [(tidy.stored (done side)).1]
      exact List.not_mem_nil
    · obtain ⟨kind, enabled, same⟩ := tidy.goal done logged goal
      exact elsewhere kind enabled same.symm
  · obtain ⟨deed, logged, _, forgets⟩ := tidy.known (done .left) .invalidate (by simp)
    exact told.forgotten ⟨deed, logged, forgets⟩
  · intro kind others split
    have flags := tidy.like.flags
    refine serves_first_file tidy.sound.registered notOpen (flags ▸ split)
      (fun kind => tidy.readable done (o.mover kind)) ?_
    rw [flags, tidy.like.root]
    exact files
  · have listed : ∀ deed ∈ [last, first], deed ∈ o.log := fun deed member =>
      List.mem_of_mem_filter (recordings ▸ member : deed ∈ o.recordings)
    have result := told.index
    obtain ⟨index, usable⟩ := told.usable (by rw [recordings]; exact List.cons_ne_nil _ _)
    rw [recordings] at result
    cases available : s.index with
    | broken failure =>
        rw [available, usable] at result
        cases result
    | available index =>
        refine ⟨index, first.dump, last.dump, rfl, ?_, ?_, available ▸ result⟩
        · rw [← before]
          exact told.parsed first (listed first (by simp))
        · exact told.parsed last (listed last (by simp))

end

/-! ### One behind the other -/

section

variable {s t u : Service} {target : Target} {announced : Side → Option Nat} {body : Side → Stream}
  {last : Side} {first second : Nat}

/-- Uploads that do not overlap are a special case: one takes all its turns before the other. -/
theorem play_serial
    (earlier : Upload.accept target (announced last.other) (body last.other) s = (.ok first, t))
    (later : Upload.accept target (announced last) (body last) t = (.ok second, u)) :
    ∃ turns o deeds others, (start target s announced body).play turns = some o ∧ o.Done ∧
      o.service = u ∧ o.log = deeds ++ others ∧ (∀ deed ∈ deeds, deed.side = last) ∧
      ∀ deed ∈ others, deed.side = last.other := by
  let begins : Side → Uploader := fun side => ⟨announced side, body side, .begun⟩
  obtain ⟨turns, others, played, own⟩ := play_of_runs (Uploader.runs_iff.mpr earlier)
    (show begins last.other = _ from rfl) []
  let between := Function.update begins last.other
    ⟨announced last.other, body last.other, .stored first⟩
  have still : between last = ⟨announced last, body last, .begun⟩ :=
    Function.update_of_ne (Side.other_ne last).symm _ _
  obtain ⟨turns', deeds, played', own'⟩ :=
    play_of_runs (Uploader.runs_iff.mpr later) still (others ++ [])
  refine ⟨turns ++ turns', _, deeds, others ++ [], play_append played played', ?_, rfl, rfl, own',
    by simpa using own⟩
  intro side
  by_cases same : side = last
  · subst same
    change ((Function.update between side _) side).stage.isStored
    rw [Function.update_self]
    rfl
  · obtain rfl := Side.eq_other same
    change ((Function.update between last _) last.other).stage.isStored
    rw [Function.update_of_ne same]
    change ((Function.update begins last.other _) last.other).stage.isStored
    rw [Function.update_self]
    rfl

/-- What one side has done behind all else is what was done last. -/
theorem find?_last {deeds : List Deed} (others : List Deed) (p : Deed → Bool) {side : Side}
    (own : ∀ deed ∈ deeds, deed.side = side) {deed : Deed} (listed : deed ∈ deeds)
    (holds : p deed) : ((deeds ++ others).find? p).map (·.side) = some side := by
  have found : (deeds.find? p).isSome := List.find?_isSome.mpr ⟨deed, listed, holds⟩
  rw [List.find?_append]
  cases first : deeds.find? p with
  | none =>
      rw [first] at found
      cases found
  | some other =>
      exact congrArg some (own other (List.mem_of_find?_eq_some first))

/-- One upload behind the other leaves its own dump everywhere. -/
theorem leaves_of_serial [Gzip.Compressor] (begun : s.Sound) (faithful : s.converter.Faithful)
    (flat : '/' ∉ target.commit.toList)
    (earlier : Upload.accept target (announced last.other) (body last.other) s = (.ok first, t))
    (later : Upload.accept target (announced last) (body last) t = (.ok second, u)) :
    Leaves target s (fun side => (body side).portions.flatten) (fun _ => last) last u := by
  obtain ⟨turns, o, deeds, others, played, done, rfl, log, own, own'⟩ := play_serial earlier later
  obtain ⟨rfl, octets, tidy, told⟩ := tidy_of_play begun faithful flat played
  obtain ⟨recorder, recorded, leaves⟩ := leaves_of_done tidy told done
  have among {deed : Deed} (logged : deed ∈ o.log) (side : deed.side = last) : deed ∈ deeds := by
    rw [log] at logged
    refine (List.mem_append.mp logged).resolve_right fun other => ?_
    exact Side.other_ne last ((own' deed other).symm.trans side)
  have isLast : recorder = last := by
    obtain ⟨deed, logged, side, step⟩ := tidy.known (done last) .record (by simp)
    have found := find?_last others (·.step.records) own (among logged side)
      (UploadStep.records_iff.mpr step)
    rw [← log] at found
    exact Option.some.inj (recorded.symm.trans found)
  rw [isLast, funext octets] at leaves
  refine leaves.congr fun kind enabled => ?_
  obtain ⟨deed, logged, side, moves⟩ := tidy.moved (done last) enabled
  have found := find?_last others (·.step.moves kind) own (among logged side) moves
  rw [← log] at found
  exact Option.some.inj ((tidy.mover?_eq done enabled).symm.trans found)

/-- Uploads for one target that overlap leave each part of what is stored of it as one of the two
serial orders does: the file of an encoding as if the upload that moved its own there last had come
last, and the index of packages as if the one that was recorded last had. Nothing of the target
stays in memory. -/
theorem overlapping_uploads [Gzip.Compressor] (reachable : s.Reachable)
    (faithful : s.converter.Faithful) (commit : Target.isCommit target.commit)
    {turns : List Side} {o : Overlap}
    (played : (start target s announced body).play turns = some o) (done : o.Done) :
    ∃ recorder, o.recorder? = some recorder ∧
      (∀ kind ∈ s.flags.enabled, o.mover? kind = some (o.mover kind)) ∧
      Leaves target s (fun side => (body side).portions.flatten) o.mover recorder o.service ∧
      ∀ last first second t u,
        Upload.accept target (announced last.other) (body last.other) s = (.ok first, t) →
        Upload.accept target (announced last) (body last) t = (.ok second, u) →
        (∀ kind ∈ s.flags.enabled, o.mover kind = last →
          ∃ f g, o.service.files.find? (Service.dumpFile s.root target kind) = some (.file f) ∧
            u.files.find? (Service.dumpFile s.root target kind) = some (.file g) ∧
            f.content = g.content) ∧
        (recorder = last → o.service.index = u.index) ∧
        ∀ path, (∀ kind ∈ s.flags.enabled, Service.dumpFile s.root target kind ≠ path) →
          o.service.files.find? path = u.files.find? path := by
  have flat := Target.slash_not_mem_of_isCommit commit
  obtain ⟨rfl, octets, tidy, told⟩ := tidy_of_play reachable.sound faithful flat played
  obtain ⟨recorder, recorded, leaves⟩ := leaves_of_done tidy told done
  rw [funext octets] at leaves
  refine ⟨recorder, recorded, fun kind => tidy.mover?_eq done, leaves, ?_⟩
  intro last first second t u earlier later
  have serial := leaves_of_serial reachable.sound faithful flat earlier later
  refine ⟨fun kind enabled same => leaves.same_file serial enabled same, ?_, ?_⟩
  · rintro rfl
    exact leaves.same_index serial
  · intro path elsewhere
    exact (leaves.others path elsewhere).trans (serial.others path elsewhere).symm

end

/-! ### A mixture -/

open scoped Gzip

/-- A service that stores dumps as they are and as tables. -/
def mixing : Service :=
  .start "dumps" ⟨true, true, false⟩ ⟨1000, 1000, 1000, 1000⟩ (Service.bareTree "dumps")
    (.available .empty) Converter.builtin

/-- Two small dumps. -/
def smallBodies : Side → Stream
  | .left => Service.smallUpload.body
  | .right => Service.otherUpload.body

/-- The tables come from the upload on the right, and the dump itself from the one on the left. -/
def mixedTurns : List Side :=
  List.replicate 5 .left ++ List.replicate 6 .right ++ List.replicate 5 .left ++
    List.replicate 4 .right

/-- What the turns lead to. -/
def mixed : Option Overlap :=
  (start Service.smallTarget mixing (fun _ => none) smallBodies).play mixedTurns

theorem mixed_done : ∃ o, mixed = some o ∧ o.Done ∧ o.mover? .json = some .left ∧
    o.mover? .graph = some .right ∧ o.recorder? = some .right := by
  have evaluated : (mixed.map fun o => ((o.uploader .left).stage.isStored,
      (o.uploader .right).stage.isStored, o.mover? .json, o.mover? .graph, o.recorder?)) =
      some (true, true, some .left, some .right, some .right) := by
    decide +kernel
  obtain ⟨o, played, same⟩ := Option.map_eq_some_iff.mp evaluated
  simp only [Prod.mk.injEq] at same
  obtain ⟨left, right, json, graph, recorder⟩ := same
  refine ⟨o, played, fun side => ?_, json, graph, recorder⟩
  cases side with
  | left => exact left
  | right => exact right

theorem overlapping_uploads_mixed : ∃ o, mixed = some o ∧
    Leaves Service.smallTarget mixing (fun side => (smallBodies side).portions.flatten)
      (fun kind => if kind = .json then .left else .right) .right o.service := by
  obtain ⟨o, played, done, json, graph, recorder⟩ := mixed_done
  obtain ⟨_, recorded, movers, leaves, _⟩ := overlapping_uploads
    (Service.reachable_bareTree _ _ _ _) Converter.builtin_faithful (by decide) played done
  rw [recorder] at recorded
  cases recorded
  refine ⟨o, played, leaves.congr fun kind enabled => ?_⟩
  have mover := movers kind enabled
  cases kind with
  | json => exact (Option.some.inj (json.symm.trans mover)).symm
  | graph => exact (Option.some.inj (graph.symm.trans mover)).symm
  | blob => exact absurd enabled (by decide)

/-- How much there is of what is stored. -/
def extent : Content → Nat
  | .octets octets => octets.length
  | .tables tables => Sizes.payload tables
  | .index => 0

theorem smallBodies_differ {kind : Encoding} (stored : kind = .json ∨ kind = .graph) :
    kind.contentOf (smallBodies .left).portions.flatten ≠
      kind.contentOf (smallBodies .right).portions.flatten := by
  intro same
  have extents := congrArg (fun content => content.toOption.map extent) same
  rcases stored with rfl | rfl
  · exact absurd extents (by decide +kernel)
  · exact absurd extents (by decide +kernel)

/-- The files of a target may come from two uploads, which no serial order leads to. -/
theorem overlap_may_mix :
    ¬ ∀ (s : Service) (target : Target) (announced : Side → Option Nat) (body : Side → Stream)
      (turns : List Side) (o : Overlap), s.Reachable → s.converter.Faithful →
      Target.isCommit target.commit → (start target s announced body).play turns = some o →
      o.Done → ∃ last first second t u,
        Upload.accept target (announced last.other) (body last.other) s = (.ok first, t) ∧
        Upload.accept target (announced last) (body last) t = (.ok second, u) ∧
        ∀ kind ∈ s.flags.enabled, ∃ f g,
          o.service.files.find? (Service.dumpFile s.root target kind) = some (.file f) ∧
          u.files.find? (Service.dumpFile s.root target kind) = some (.file g) ∧
          f.content = g.content := by
  intro claim
  obtain ⟨o, played, done, json, graph, _⟩ := mixed_done
  have reachable : mixing.Reachable := Service.reachable_bareTree _ _ _ _
  have flat : '/' ∉ Service.smallTarget.commit.toList := by decide
  obtain ⟨last, first, second, t, u, earlier, later, same⟩ := claim mixing Service.smallTarget
    (fun _ => none) smallBodies mixedTurns o reachable Converter.builtin_faithful (by decide) played
    done
  obtain ⟨target, octets, tidy, _⟩ :=
    tidy_of_play reachable.sound Converter.builtin_faithful flat played
  have serial := @leaves_of_serial _ _ _ _ (fun _ => none) smallBodies last _ _ _ reachable.sound
    Converter.builtin_faithful flat earlier later
  have agrees {kind : Encoding} {side : Side} (enabled : kind ∈ mixing.flags.enabled)
      (moved : o.mover? kind = some side) :
      kind.contentOf (smallBodies side).portions.flatten =
        kind.contentOf (smallBodies last).portions.flatten := by
    obtain ⟨f, stands, stored⟩ := tidy.placed kind side moved
    obtain ⟨g, there, stored'⟩ := serial.files kind enabled
    obtain ⟨f', g', stands', there', contents⟩ := same kind enabled
    rw [target, stands'] at stands
    rw [there'] at there
    cases stands
    cases there
    rw [← octets, stored, stored', contents]
  cases last with
  | left => exact smallBodies_differ (.inr rfl) (agrees (by decide) graph).symm
  | right => exact smallBodies_differ (.inl rfl) (agrees (by decide) json)

end Overlap

end CodeNav
