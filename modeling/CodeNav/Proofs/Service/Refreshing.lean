/-
Module: CodeNav.Proofs.Service.Refreshing
Purpose: Uploads leave nothing in memory that is not what the files hold then.
Main exports:
  Service.Fresh, Service.Fresh.renew, Upload.Committed.whole_or_nothing, Upload.fresh_accept
-/
import CodeNav.Proofs.Service.SameStore
import CodeNav.Proofs.Service.UpToDate

namespace CodeNav

open Stateful
open Http (Stream)
open Service (temporaryFile)

/-- A sound service is up to date, and there are no directories where dumps are stored. -/
structure Service.Fresh [Gzip.Compressor] (s : Service) : Prop where
  sound : s.Sound
  upToDate : s.UpToDate
  plain : ∀ target kind, Target.isCommit target.commit →
    s.files.find? (dumpFile s.root target kind) ≠ some .directory

/-! ### Services of which some files have changed -/

namespace Service

/-- Figures do not count. -/
theorem Fresh.figures [Gzip.Compressor] {s : Service} (fresh : s.Fresh) (metrics : Metrics) :
    ({ s with metrics } : Service).Fresh :=
  { fresh with
    sound := { fresh.sound with }
    upToDate := { fresh.upToDate with } }

theorem marked_ne_temporaryFile {root key : String} (marked : '@' ∈ key.toList)
    (kind : Encoding) (number : Nat) (other : Encoding) :
    kind.path (Files.join root key) ≠ temporaryFile root number other := by
  rw [path_join]
  refine join_ne_temporaryFile ?_ number other
  rw [String.toList_append]
  exact List.mem_append_left _ marked

/-- What is open behind an eviction was open before, for another key. -/
theorem mem_evictKey {key : String} {s : Service} {e : Weighted String Nat}
    (listed : e ∈ (evictKey key s).2.databases.entries.entries) :
    e ∈ s.databases.entries.entries ∧ e.key ≠ key := by
  have absent := find?_evictKey key s
  rw [WeightedCache.find?_eq_none] at absent
  refine ⟨?_, absent e listed⟩
  rw [evictKey_run] at listed
  cases found : s.databases.entries.find? key with
  | none =>
      rw [found] at listed
      exact listed
  | some other =>
      rw [found] at listed
      exact (WeightedCache.mem_remove.mp listed).1

/-- What is in memory is up to date as long as nothing stays that stems from files that have
changed. -/
theorem Fresh.renew [Gzip.Compressor] {s t : Service} (fresh : s.Fresh) (touched : String → Prop)
    (sound : t.Sound) (root : t.root = s.root) (flags : t.flags = s.flags)
    (loads : t.databases.loads = s.databases.loads)
    (databases : ∀ e ∈ t.databases.entries.entries,
      e ∈ s.databases.entries.entries ∧ ¬ touched e.key)
    (documents : ∀ entry ∈ t.documents.entries, entry ∈ s.documents.entries ∧
      ∀ target kind path, touched target.key →
        entry.key ≠ documentKey (dumpFile s.root target kind) path)
    (files : ∀ key (kind : Encoding), '@' ∈ key.toList → ¬ touched key →
      t.files.find? (kind.path (Files.join s.root key)) =
        s.files.find? (kind.path (Files.join s.root key)))
    (plain : ∀ target kind, Target.isCommit target.commit →
      t.files.find? (dumpFile s.root target kind) ≠ some .directory) : t.Fresh where
  sound := sound
  upToDate :=
    { registered := sound.registered
      opens := fun e listed load database found ok => by
        obtain ⟨before, untouched⟩ := databases e listed
        rw [loads] at found
        obtain ⟨_, db, _, _, key, _⟩ := fresh.upToDate.registered.entry e before
        have first := fresh.upToDate.opens e before load database found ok
        rw [root, flags]
        refine Eq.trans (Loaded.firstOf_congr fun kind _ => ?_) first
        rw [files e.key kind (key ▸ marked_key db.target) untouched]
      documents := fun entry listed target kind path commit key => by
        obtain ⟨before, others⟩ := documents entry listed
        rw [root] at key ⊢
        refine (fresh.upToDate.documents entry before target kind path commit key).congr ?_
        have untouched : ¬ touched target.key := fun changed => others target kind path changed key
        exact congrArg (Option.map Entry.plain)
          (files target.key kind (marked_key target) untouched).symm }
  plain target kind commit := by
    rw [root]
    exact plain target kind commit

end Service

/-! ### Moves without refusals -/

theorem Files.isDirectory_iff {files : Files} {path : String} :
    files.isDirectory path ↔ files.find? path = some .directory := by
  unfold isDirectory
  split
  · rename_i found
    simp [found]
  · rename_i other
    simp only [Bool.false_eq_true, false_iff]
    exact other

namespace Upload

namespace Moves

variable {base : String} {list : List (Encoding × String)} {a b : Files}

/-- No move takes a directory away. -/
theorem directory (moves : Moves base list a b) {path : String}
    (stands : a.find? path = some .directory) : b.find? path = some .directory := by
  induction moves with
  | done files => exact stands
  | @next kind source _ a b _ moved _ ih =>
      apply ih
      rcases a.rename_cases source (kind.path base) with ⟨f, from_, free, _, run⟩ | ⟨fault, run⟩
      · rw [run] at moved
        cases moved
        have notTarget : kind.path base ≠ path := by
          rintro rfl
          exact free stands
        have notSource : source ≠ path := by
          rintro rfl
          rw [from_] at stands
          cases stands
        rw [Files.find?_put, if_neg notTarget, Files.find?_erase, if_neg notSource,
          Files.find?_tick, stands]
      · rw [run] at moved
        cases moved

/-- Whatever has been moved is in a directory, and so is anything else beside it. -/
theorem inDirectory (moves : Moves base list a b) (some_ : list ≠ []) (kind : Encoding) :
    b.isDirectory (Files.parent (kind.path base)) := by
  have sameParent (kind : Encoding) : Files.parent (kind.path base) = Files.parent base :=
    Files.parent_append kind.slash_not_mem_extension
  cases moves with
  | done files => contradiction
  | @next first source _ _ c _ moved others =>
      rcases a.rename_cases source (first.path base) with ⟨_, _, _, directory, _⟩ | ⟨fault, run⟩
      · rw [sameParent, Files.isDirectory_iff] at directory ⊢
        exact (Moves.next moved others).directory directory
      · rw [run] at moved
        cases moved

end Moves

/-- If all that is to be moved stands there, and nothing is in the way, committing stops before the
first move or makes the upload known. -/
theorem Committed.whole_or_nothing {target : Target} {list : List (Encoding × String)}
    {dump : Dump} {s after : Service} {outcome : Except Failure Unit}
    (committed : Committed target list dump s (outcome, after))
    (sources : ∀ p ∈ list, ∃ f, s.files.find? p.2 = some (.file f))
    (distinct : (list.map (·.2)).Nodup)
    (apart : ∀ p ∈ list, ∀ q ∈ list, p.1.path (s.basePath target) ≠ q.2)
    (plain : ∀ kind : Encoding, s.files.find? (kind.path (s.basePath target)) ≠ some .directory) :
    after = s ∨ ∃ files index, Moves (s.basePath target) list s.files files ∧
      after = { ({ s with files } : Service).forgetTarget target with index } := by
  cases committed with
  | ok files index moved usable => exact .inr ⟨files, _, moved, rfl⟩
  | unindexed failure files moved broken => exact .inr ⟨files, s.index, moved, rfl⟩
  | stopped fault first rest next files split moved refused =>
      cases first with
      | nil =>
          cases moved
          exact .inl rfl
      | cons head others =>
          exfalso
          have listed : next ∈ list := by simp [split]
          obtain ⟨f, stands⟩ := sources next listed
          have notMoved : next.2 ∉ (head :: others).map (·.2) := by
            intro among
            rw [split, List.map_append] at distinct
            exact (List.nodup_append.mp distinct).2.2 _ among _ (by simp) rfl
          have notReplaced : ∀ p ∈ head :: others, p.1.path (s.basePath target) ≠ next.2 :=
            fun p among => apart p (split ▸ List.mem_append_left _ among) next listed
          have still : files.find? next.2 = some (.file f) := by
            rw [moved.others notMoved notReplaced, stands]
          rw [Files.rename_file still (moved.plain (plain next.1))
            (moved.inDirectory (List.cons_ne_nil _ _) next.1)] at refused
          cases refused

/-! ### Uploads -/

/-- A path whose name is marked like those of dumps is not that of a file under way. -/
theorem marked_not_made {s : Service} {key : String} (marked : '@' ∈ key.toList)
    (kind : Encoding) :
    kind.path (Files.join s.root key) ∉
      stagedFile s :: (allOutputs { s with temporaries := s.temporaries + 1 }).map (·.2) := by
  rw [List.mem_cons, not_or]
  refine ⟨Service.marked_ne_temporaryFile marked kind _ _, fun listed => ?_⟩
  obtain ⟨made, output, same⟩ := List.mem_map.mp listed
  obtain ⟨number, _, _, named⟩ := mem_outputs output
  exact Service.marked_ne_temporaryFile marked kind number made.1 (same.symm.trans named)

/-- Behind a commitment only the files of its target have changed. -/
theorem Moves.unmarked {s : Service} {target : Target} {a b : Files}
    (moved : Moves (s.basePath target) (uploadMoves s) a b) {key : String} (kind : Encoding)
    (marked : '@' ∈ key.toList) (other : key ≠ target.key) :
    b.find? (kind.path (Files.join s.root key)) = a.find? (kind.path (Files.join s.root key)) := by
  apply moved.others
  · intro listed
    obtain ⟨p, member, same⟩ := List.mem_map.mp listed
    obtain ⟨number, _, named⟩ := mem_uploadMoves member
    exact Service.marked_ne_temporaryFile marked kind number p.1 (same.symm.trans named)
  · exact fun p _ same => other (Service.path_join_inj same).symm

/-- What was in memory when an upload was committed is up to date behind that. -/
theorem fresh_committed [Gzip.Compressor] {s : Service} (fresh : s.Fresh) {target : Target}
    {before files : Files} {temporaries : Nat} {index : IndexState}
    (sound : ({ ({ s with files := files, temporaries } : Service).forgetTarget target with
      files := files.eraseAll [stagedFile s], index } : Service).Sound)
    (unmoved : ∀ key (kind : Encoding), '@' ∈ key.toList →
      before.find? (kind.path (Files.join s.root key)) =
        s.files.find? (kind.path (Files.join s.root key)))
    (moved : Moves (s.basePath target) (uploadMoves s) before files) :
    ({ ({ s with files := files, temporaries } : Service).forgetTarget target with
      files := files.eraseAll [stagedFile s], index } : Service).Fresh := by
  have erased (key : String) (kind : Encoding) (marked : '@' ∈ key.toList) :
      (files.eraseAll [stagedFile s]).find? (kind.path (Files.join s.root key)) =
        files.find? (kind.path (Files.join s.root key)) := by
    rw [Files.find?_eraseAll, if_neg]
    rw [List.mem_singleton]
    exact Service.marked_ne_temporaryFile marked kind _ _
  refine fresh.renew (· = target.key) sound rfl rfl (Service.loads_evictKey _ _) ?_ ?_ ?_ ?_
  · exact fun e listed => Service.mem_evictKey listed
  · intro entry listed
    obtain ⟨before, others⟩ := Service.mem_forgetFiles.mp listed
    refine ⟨before, fun other kind path touched key => ?_⟩
    have file : Service.dumpFile s.root other kind = kind.path (s.basePath target) := by
      unfold Service.dumpFile Service.basePath
      rw [touched]
    have listed : kind ∈ Encoding.all := by cases kind <;> decide
    have forgotten := others (kind.path (s.basePath target)) (List.mem_map_of_mem listed)
    rw [key, file, Service.isFrom_documentKey] at forgotten
    cases forgotten
  · intro key kind marked untouched
    exact (erased key kind marked).trans
      ((moved.unmarked kind marked untouched).trans (unmoved key kind marked))
  · intro other kind commit
    have marked := Service.marked_key other
    change (files.eraseAll _).find? (kind.path (Files.join s.root other.key)) ≠ _
    rw [erased other.key kind marked]
    refine moved.plain ?_
    rw [unmoved other.key kind marked]
    exact fresh.plain other kind commit

/-- Whether an upload is accepted or turned down, what is in memory is what the files hold then. -/
theorem fresh_accept [Gzip.Compressor] {s : Service} (fresh : s.Fresh)
    (faithful : s.converter.Faithful) {target : Target} (commit : Target.isCommit target.commit)
    (announced : Option Nat) (body : Stream) : (accept target announced body s).2.Fresh := by
  have flat := Target.slash_not_mem_of_isCommit commit
  have sound := Service.Sound.accept flat announced body s fresh.sound
  have accepted := accept_run fresh.sound target announced body
  generalize accept target announced body s = result at accepted sound ⊢
  cases accepted with
  | turnedDown rejection files temporaries besides later never =>
      refine fresh.renew (fun _ => False) sound rfl rfl rfl (fun e listed => ⟨listed, id⟩)
        (fun entry listed => ⟨listed, fun _ _ _ impossible => impossible.elim⟩) ?_ ?_
      · exact fun key kind _ _ => besides.others _ List.not_mem_nil
      · intro other kind commit
        have same := besides.others (Service.dumpFile s.root other kind) List.not_mem_nil
        rw [same]
        exact fresh.plain other kind commit
  | committed size dump converted ready after outcome reaches run =>
      have committed := commit_run target (stagedFile s) dump converted ready
      rw [run] at committed
      obtain ⟨files, _, parsed, rfl, rfl, standing⟩ := reaches.ready fresh.sound
      obtain ⟨elements, read, _⟩ := Dump.elements_of_parse parsed
      have unmoved (key : String) (kind : Encoding) (marked : '@' ∈ key.toList) :
          files.find? (kind.path (Files.join s.root key)) =
            s.files.find? (kind.path (Files.join s.root key)) :=
        standing.besides.others _ (marked_not_made marked kind)
      have free (other : Target) (kind : Encoding) (commit : Target.isCommit other.commit) :
          files.find? (Service.dumpFile s.root other kind) ≠ some .directory := by
        intro taken
        exact fresh.plain other kind commit
          ((unmoved other.key kind (Service.marked_key other)).symm.trans taken)
      have settled := committed.whole_or_nothing
        (fun p listed => by
          obtain ⟨f, stands, _⟩ := standing.contents fresh.sound faithful read listed
          exact ⟨f, stands⟩)
        (nodup_uploadMoves_sources s)
        (fun p _ q member => uploadMoves_apart (s := s) flat p.1 member)
        (fun kind => free target kind commit)
      rcases settled with same | ⟨moved, index, moves, same⟩
      · subst same
        refine fresh.renew (fun _ => False) sound rfl rfl rfl (fun e listed => ⟨listed, id⟩)
          (fun entry listed => ⟨listed, fun _ _ _ impossible => impossible.elim⟩) ?_ ?_
        · intro key kind marked _
          change (files.eraseAll _).find? _ = _
          rw [Files.find?_eraseAll, if_neg]
          · exact unmoved key kind marked
          · rw [List.mem_singleton]
            exact Service.marked_ne_temporaryFile marked kind _ _
        · intro other kind commit
          change (files.eraseAll _).find? _ ≠ _
          rw [Files.find?_eraseAll]
          split
          · exact fun absent => by cases absent
          · exact free other kind commit
      · subst same
        exact fresh_committed fresh sound unmoved moves

end Upload

end CodeNav
