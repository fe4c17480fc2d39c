/-
Module: CodeNav.Proofs.Service.Names
Purpose: The names of stored dumps and of the documents read from them, which never meet.
Main exports:
  Target.isKeyChar, Service.isFrom_iff, Service.count_invalidate, Service.names_never_meet
-/
import CodeNav.Proofs.Gzip.Stored
import CodeNav.Proofs.Service.Housekeeping
import CodeNav.Proofs.Service.UpToDate

namespace CodeNav

open Stateful

/-! ### Characters -/

/-- The characters that keys are made of: letters, digits and some marks. -/
def Target.isKeyChar (c : Char) : Bool :=
  c.isAlphanum || "-_.!~*'()%@".toList.contains c

theorem Text.isKeyChar_percentChars (b : UInt8) : ∀ c ∈ percentChars b, Target.isKeyChar c := by
  have plain : ∀ n : Fin 256, isUnreserved (.ofNat n) → Target.isKeyChar (.ofNat n) := by
    decide +kernel
  have digits : ∀ n : Fin 16, Target.isKeyChar (upperHexDigit n) := by decide +kernel
  have small := b.toNat_lt
  unfold percentChars
  split
  · rename_i unreserved
    intro c listed
    obtain rfl := List.mem_singleton.mp listed
    exact plain ⟨b.toNat, small⟩ (by simpa using unreserved)
  · have sign : Target.isKeyChar '%' := by decide
    have high := digits ⟨b.toNat / 16, by omega⟩
    have low := digits ⟨b.toNat % 16, by omega⟩
    simp [sign, high, low]

theorem Target.isKeyChar_of_mem_key {target : Target} (commit : isCommit target.commit) :
    ∀ c ∈ target.key.toList, isKeyChar c := by
  unfold key Text.percentEncode
  simp only [String.toList_append, String.toList_ofList, List.mem_append, List.mem_flatMap]
  rintro c ((⟨b, _, listed⟩ | sign) | listed)
  · exact Text.isKeyChar_percentChars b c listed
  · obtain rfl := List.mem_singleton.mp sign
    decide
  · simp only [isCommit, Bool.and_eq_true, List.all_eq_true] at commit
    have plain := commit.2 c listed
    rw [Bool.or_eq_true, Bool.and_eq_true, decide_eq_true_eq, decide_eq_true_eq] at plain
    rcases plain with digit | ⟨low, high⟩
    · have alphanumeric : c.isAlphanum = true := Bool.or_eq_true_iff.mpr (.inr digit)
      simp [isKeyChar, alphanumeric]
    · have wider : 'f'.val ≤ 'z'.val := by decide
      have lower : c.isLower = true :=
        Bool.and_eq_true_iff.mpr ⟨decide_eq_true low, decide_eq_true (UInt32.le_trans high wider)⟩
      have alphabetic : c.isAlpha = true := Bool.or_eq_true_iff.mpr (.inr lower)
      have alphanumeric : c.isAlphanum = true := Bool.or_eq_true_iff.mpr (.inl alphabetic)
      simp [isKeyChar, alphanumeric]

namespace Service

/-! ### Paths of dumps -/

/-- A dump has no name of the service's own in its directory. -/
theorem dumpFile_ne_join {root name : String} {target : Target} (unmarked : '@' ∉ name.toList)
    (kind : Encoding) : dumpFile root target kind ≠ Files.join root name := by
  intro same
  rw [dumpFile_eq] at same
  rw [← Files.join_injective same, String.toList_append, List.mem_append] at unmarked
  exact unmarked (.inl (marked_key target))

/-- The name of a dump in its directory tells its encoding and the key of its target. -/
theorem splitFileName?_dumpFile {target : Target} (commit : Target.isCommit target.commit)
    (root : String) (kind : Encoding) :
    Files.nameIn? root (dumpFile root target kind) = some (target.key ++ kind.extension) ∧
      Encoding.splitFileName? (target.key ++ kind.extension) = some (kind, target.key) := by
  constructor
  · rw [dumpFile_eq]
    exact Files.nameIn?_join (slash_not_mem_name (Target.slash_not_mem_of_isCommit commit) kind)
  · refine Encoding.splitFileName?_append (fun nothing => ?_) kind
    have marked := marked_key target
    rw [nothing] at marked
    cases marked

/-! ### Keys of documents -/

/-- The documents read from a file are those whose keys join the file and some path. -/
theorem isFrom_iff {file key : String} : isFrom file key ↔ ∃ path, key = documentKey file path := by
  constructor
  · intro reads
    obtain ⟨rest, all⟩ := List.isPrefixOf_iff_prefix.mp reads
    refine ⟨String.ofList rest, String.toList_inj.mp ?_⟩
    rw [← all]
    simp [documentKey]
  · rintro ⟨path, rfl⟩
    exact isFrom_documentKey file path

/-- Documents that are forgotten are counted. -/
theorem count_invalidate (target : Target) (s : Service) :
    ∃ count, invalidate target s =
        (.ok count, { s with documents := forgetFiles s.documents (s.targetFiles target) }) ∧
      count + (forgetFiles s.documents (s.targetFiles target)).size = s.documents.size := by
  have counted (documents : WeightedCache String Document) (file : String) :
      (documents.removeWhere (isFrom file)).1.length +
        (documents.removeWhere (isFrom file)).2.size = documents.size := by
    unfold WeightedCache.removeWhere WeightedCache.size
    rw [List.length_map]
    exact (List.length_eq_length_filter_add _).symm
  let forget (documents : WeightedCache String Document) (kind : Encoding) :=
    documents.removeWhere (isFrom (kind.path (s.basePath target)))
  let first := forget s.documents .json
  let second := forget first.2 .graph
  let third := forget second.2 .blob
  refine ⟨total [first.1.length, second.1.length, third.1.length], rfl, ?_⟩
  have one := counted s.documents (Encoding.json.path (s.basePath target))
  have two := counted first.2 (Encoding.graph.path (s.basePath target))
  have three := counted second.2 (Encoding.blob.path (s.basePath target))
  change first.1.length + first.2.size = _ at one
  change second.1.length + second.2.size = _ at two
  change third.1.length + third.2.size = _ at three
  change total [first.1.length, second.1.length, third.1.length] + third.2.size = _
  simp only [total_cons, total_nil]
  omega

variable {target other : Target}

/-- A document that is kept for a dump is forgotten with the dump's own target, and with no
other. -/
theorem isFrom_targetFiles (commit : Target.isCommit target.commit)
    (commit' : Target.isCommit other.commit) (s : Service) (kind : Encoding) (path : String) :
    (∃ file ∈ s.targetFiles target, isFrom file (documentKey (dumpFile s.root other kind) path)) ↔
      other = target := by
  constructor
  · rintro ⟨file, listed, reads⟩
    obtain ⟨kind', _, rfl⟩ := List.mem_map.mp listed
    obtain ⟨path', same⟩ := isFrom_iff.mp reads
    change documentKey (dumpFile s.root other kind) path =
      documentKey (dumpFile s.root target kind') path' at same
    obtain ⟨_, keys, _⟩ := documentKey_injective commit' commit same
    exact Target.key_injective commit' commit keys
  · rintro rfl
    refine ⟨_, List.mem_map.mpr ⟨kind, ?_, rfl⟩, isFrom_documentKey _ path⟩
    cases kind <;> simp [Encoding.all]

/-- Names tell what they are made of. Keys tell targets apart and are plain; a dump stands directly
in the root, beside the service's own files, under a name that tells its encoding and its key; the
key of a document tells the file and the path. So what a target's invalidation forgets is what was
read from the files of that target. -/
theorem names_never_meet (commit : Target.isCommit target.commit)
    (commit' : Target.isCommit other.commit) (s : Service) :
    (target.key = other.key → target = other) ∧
    (∀ c ∈ target.key.toList, Target.isKeyChar c) ∧
    (∀ kind,
      Files.nameIn? s.root (dumpFile s.root target kind) = some (target.key ++ kind.extension) ∧
      Encoding.splitFileName? (target.key ++ kind.extension) = some (kind, target.key) ∧
      dumpFile s.root target kind ≠ Files.join s.root indexName ∧
      dumpFile s.root target kind ≠ Files.join s.root temporaryName) ∧
    (∀ kind kind' path path',
      documentKey (dumpFile s.root target kind) path =
        documentKey (dumpFile s.root other kind') path' →
      dumpFile s.root target kind = dumpFile s.root other kind' ∧ path = path') ∧
    ∃ count t, invalidate target s = (.ok count, t) ∧
      count + t.documents.size = s.documents.size ∧ t = { s with documents := t.documents } ∧
      (∀ entry, entry ∈ t.documents.entries ↔ entry ∈ s.documents.entries ∧
        ∀ kind path, entry.key ≠ documentKey (dumpFile s.root target kind) path) ∧
      ∀ entry ∈ s.documents.entries, ∀ kind path,
        entry.key = documentKey (dumpFile s.root other kind) path →
        (entry ∈ t.documents.entries ↔ other ≠ target) := by
  obtain ⟨count, run, counted⟩ := count_invalidate target s
  refine ⟨Target.key_injective commit commit', Target.isKeyChar_of_mem_key commit, ?_, ?_,
    count, _, run, counted, rfl, ?_, ?_⟩
  · intro kind
    obtain ⟨named, split⟩ := splitFileName?_dumpFile commit s.root kind
    exact ⟨named, split, dumpFile_ne_join (by decide) kind, dumpFile_ne_join (by decide) kind⟩
  · intro kind kind' path path' same
    obtain ⟨rfl, keys, paths⟩ := documentKey_injective commit commit' same
    exact ⟨by rw [dumpFile, dumpFile, keys], paths⟩
  · intro entry
    rw [mem_forgetFiles]
    refine and_congr_right fun _ => ⟨fun others kind path same => ?_, fun others file listed => ?_⟩
    · obtain ⟨file, listed, reads⟩ :=
        (isFrom_targetFiles commit commit s kind path).mpr rfl
      rw [← same, others file listed] at reads
      cases reads
    · obtain ⟨kind, _, rfl⟩ := List.mem_map.mp listed
      rw [Bool.eq_false_iff]
      intro reads
      obtain ⟨path, same⟩ := isFrom_iff.mp reads
      exact others kind path same
  · intro entry listed kind path same
    rw [mem_forgetFiles, ← not_iff_not, not_not, ← isFrom_targetFiles commit commit' s kind path,
      ← same]
    simp [listed]

/-- A target whose repository has a short name. -/
def shortTarget : Target :=
  ⟨"a", "0123456789abcdef0123456789abcdef01234567"⟩

/-- A target whose repository has a name that begins as the short one does, and goes on with what
names are joined with. -/
def nestedTarget : Target :=
  ⟨"a::b@%/c.graph.db", "0123456789abcdef0123456789abcdef01234567"⟩

/-- A document kept for the short name, under a path that looks like the key of a document. -/
def shortEntry : Weighted String Document :=
  ⟨documentKey (dumpFile "r::s" shortTarget .json) "b.lsif::c", .empty, 1⟩

/-- A document kept for the nested name. -/
def nestedEntry : Weighted String Document :=
  ⟨documentKey (dumpFile "r::s" nestedTarget .graph) "c", .empty, 1⟩

open scoped Gzip

/-- A service that keeps both documents. -/
def similarNames : Service :=
  { Service.start "r::s" ⟨true, true, true⟩ ⟨1000, 1000, 1000, 1000⟩ .empty (.available .empty)
      Converter.builtin with
    documents := ⟨1000, [shortEntry, nestedEntry], 2, 0, 2, 0⟩ }

/-- Of the two documents the one of the short name is forgotten. -/
theorem names_never_meet_similar :
    Target.isCommit shortTarget.commit ∧ Target.isCommit nestedTarget.commit ∧
      ∃ count t, invalidate shortTarget similarNames = (.ok count, t) ∧
        shortEntry ∉ t.documents.entries ∧ nestedEntry ∈ t.documents.entries := by
  have commit : Target.isCommit shortTarget.commit := by decide +kernel
  have commit' : Target.isCommit nestedTarget.commit := by decide +kernel
  obtain ⟨_, _, _, _, count, t, run, _, _, exactly, apart⟩ :=
    names_never_meet commit commit' similarNames
  have both : nestedEntry ∈ similarNames.documents.entries := by simp [similarNames]
  refine ⟨commit, commit', count, t, run, ?_, (apart _ both .graph "c" rfl).mpr (by decide)⟩
  exact fun stays => ((exactly _).mp stays).2 .json "b.lsif::c" rfl

end Service

end CodeNav
