/-
Module: CodeNav.Proofs.Service.Housekeeping
Purpose: Which stored files are deleted to keep within a size, and which one is the last to go.
Main exports:
  Quota.kept, Quota.kept_eq_nil_iff, Quota.trim_run, Quota.byAccess_getLast
-/
import CodeNav.Proofs.Service.Registry
import CodeNav.Proofs.Store.Converter
import CodeNav.Proofs.Store.Paths
import CodeNav.Service.Endpoint

namespace CodeNav

open Stateful

/-! ### Names of stored files -/

namespace Encoding

theorem stem?_append {base : String} (ending : String) (nonempty : base.toList ≠ []) :
    stem? (base ++ ending) ending = some base := by
  have stem : (base ++ ending).toList.take ((base ++ ending).length - ending.length) =
      base.toList := by
    rw [String.toList_append, String.length_append, Nat.add_sub_cancel, ← String.length_toList,
      List.take_left]
  unfold stem?
  rw [stem]
  simp [nonempty]

/-- What precedes an ending is what the name is made of. -/
theorem append_of_stem? {name base ending : String} (found : stem? name ending = some base) :
    base ++ ending = name ∧ base ≠ "" := by
  unfold stem? at found
  dsimp only at found
  split at found
  · cases found
  · rename_i splits
    rw [Bool.or_eq_true, not_or, List.isEmpty_iff, bne_iff_ne, not_not] at splits
    cases found
    constructor
    · rw [← String.toList_inj, String.toList_append, String.toList_ofList, splits.2]
    · intro nothing
      exact splits.1 (by simpa using congrArg String.toList nothing)

/-- The last four characters tell the endings apart. -/
theorem extension_of_append {front other : List Char} {kind kind' : Encoding}
    (same : front ++ kind.extension.toList = other ++ kind'.extension.toList) : kind = kind' := by
  have ends (front : List Char) (kind : Encoding) :
      (front ++ kind.extension.toList).reverse.take 4 = kind.extension.toList.reverse.take 4 := by
    rw [List.reverse_append, List.take_append_of_le_length]
    cases kind <;> decide
  have lastFour : kind.extension.toList.reverse.take 4 = kind'.extension.toList.reverse.take 4 := by
    rw [← ends front kind, same, ends other kind']
  revert lastFour
  cases kind <;> cases kind' <;> decide

theorem stem?_other {base : String} {kind other : Encoding} (differ : other ≠ kind) :
    stem? (base ++ kind.extension) other.extension = none := by
  unfold stem?
  rw [if_pos]
  rw [Bool.or_eq_true, bne_iff_ne]
  right
  intro same
  rw [String.toList_append] at same
  exact differ (extension_of_append same)

/-- The file of an encoding is taken for what it is. -/
theorem splitFileName?_append {base : String} (nonempty : base.toList ≠ []) (kind : Encoding) :
    splitFileName? (base ++ kind.extension) = some (kind, base) := by
  have own := stem?_append kind.extension nonempty
  have others (other : Encoding) (differ : other ≠ kind) :
      stem? (base ++ kind.extension) other.extension = none := stem?_other differ
  unfold splitFileName? all
  cases kind with
  | json => simp [own]
  | graph =>
      have json := others .json (by decide)
      simp [json, own]
  | blob =>
      have json := others .json (by decide)
      have graph := others .graph (by decide)
      simp [json, graph, own]

/-- A name is split into what it is made of, and no other name is split. -/
theorem splitFileName?_eq_some_iff {name base : String} {kind : Encoding} :
    splitFileName? name = some (kind, base) ↔ name = base ++ kind.extension ∧ base ≠ "" := by
  constructor
  · intro split
    obtain ⟨other, _, found⟩ := List.exists_of_findSome?_eq_some split
    obtain ⟨stem, before, same⟩ := Option.map_eq_some_iff.mp found
    cases same
    exact (append_of_stem? before).imp Eq.symm id
  · rintro ⟨rfl, nonempty⟩
    exact splitFileName?_append (by simpa using nonempty) kind

end Encoding

namespace Service

theorem path_join (kind : Encoding) (root key : String) :
    kind.path (Files.join root key) = Files.join root (key ++ kind.extension) := by
  simp [Encoding.path, Files.join, String.append_assoc]

/-- Files of targets with different keys have different paths. -/
theorem path_join_inj {root key other : String} {kind kind' : Encoding}
    (same : kind.path (Files.join root key) = kind'.path (Files.join root other)) : key = other := by
  rw [path_join, path_join] at same
  have lists := congrArg String.toList (Files.join_injective same)
  rw [String.toList_append, String.toList_append] at lists
  obtain rfl := Encoding.extension_of_append lists
  exact String.toList_inj.mp (List.append_cancel_right lists)

/-- A stored file belongs to one target and one encoding. -/
theorem dumpFile_injective {root : String} {target other : Target} {kind kind' : Encoding}
    (commit : Target.isCommit target.commit) (commit' : Target.isCommit other.commit)
    (same : dumpFile root target kind = dumpFile root other kind') :
    target = other ∧ kind = kind' := by
  obtain rfl := Target.key_injective commit commit' (path_join_inj same)
  exact ⟨rfl, Encoding.path_injective same⟩

end Service

namespace Quota

/-! ### What is kept -/

/-- The files that stay when the first ones are deleted until the rest is small enough. -/
def kept (most : Nat) : Nat → List StoredFile → List StoredFile
  | _, [] => []
  | total, file :: rest => if total ≤ most then file :: rest else kept most (total - file.size) rest

theorem kept_suffix (most total : Nat) (stored : List StoredFile) :
    kept most total stored <:+ stored := by
  induction stored generalizing total with
  | nil => exact List.suffix_refl _
  | cons file rest ih =>
      unfold kept
      split
      · exact List.suffix_refl _
      · exact (ih _).trans (List.suffix_cons file rest)

theorem totalSize_cons (file : StoredFile) (rest : List StoredFile) :
    totalSize (file :: rest) = file.size + totalSize rest :=
  rfl

theorem size_le_totalSize {stored : List StoredFile} {file : StoredFile} (listed : file ∈ stored) :
    file.size ≤ totalSize stored := by
  induction stored with
  | nil => cases listed
  | cons first rest ih =>
      rw [totalSize_cons]
      rcases List.mem_cons.mp listed with rfl | later
      · exact Nat.le_add_right _ _
      · exact Nat.le_trans (ih later) (Nat.le_add_left _ _)

/-- All files are deleted if and only if even the last one is too large by itself. -/
theorem kept_eq_nil_iff (most : Nat) {stored : List StoredFile} {last : StoredFile}
    (isLast : stored.getLast? = some last) :
    kept most (totalSize stored) stored = [] ↔ most < last.size := by
  induction stored with
  | nil => cases isLast
  | cons file rest ih =>
      unfold kept
      cases rest with
      | nil =>
          cases isLast
          simp [kept, totalSize]
      | cons next others =>
          rw [List.getLast?_cons_cons] at isLast
          have among := size_le_totalSize (List.mem_of_getLast? isLast)
          split
          · rename_i small
            rw [totalSize_cons] at small
            constructor
            · intro none
              cases none
            · intro large
              omega
          · rw [totalSize_cons, Nat.add_sub_cancel_left]
            exact ih isLast

theorem byAccess_sorted (stored : List StoredFile) :
    (byAccess stored).Pairwise fun a b => a.accessed ≤ b.accessed := by
  let le (a b : StoredFile) : Bool := decide (a.accessed ≤ b.accessed)
  have transitive (a b c : StoredFile) (first : le a b) (second : le b c) : le a c := by
    simp only [le, decide_eq_true_eq] at first second ⊢
    exact Nat.le_trans first second
  have whole (a b : StoredFile) : le a b || le b a := by
    simpa [le] using Nat.le_total a.accessed b.accessed
  have result := List.pairwise_mergeSort transitive whole stored
  simpa [byAccess, le] using result

/-- If the last file of all is the newest, it is the last in the order of access. -/
theorem byAccess_getLast {stored : List StoredFile} {newest : StoredFile} (listed : newest ∈ stored)
    (older : ∀ file ∈ stored, file ≠ newest → file.accessed < newest.accessed) :
    (byAccess stored).getLast? = some newest := by
  have sorted := byAccess_sorted stored
  have member : newest ∈ byAccess stored := List.mem_mergeSort.mpr listed
  cases found : (byAccess stored).getLast? with
  | none =>
      rw [List.getLast?_eq_none_iff.mp found] at member
      cases member
  | some last =>
      by_cases same : last = newest
      · rw [same]
      · obtain ⟨front, split⟩ := List.getLast?_eq_some_iff.mp found
        have lastStored : last ∈ stored := by
          apply (List.mergeSort_perm stored _).mem_iff.mp
          exact List.mem_of_getLast? found
        have lastOlder := older last lastStored same
        rw [split] at sorted member
        have before : newest ∈ front :=
          (List.mem_append.mp member).resolve_right fun listed =>
            same (List.mem_singleton.mp listed).symm
        have notOlder := (List.pairwise_append.mp sorted).2.2 newest before last
          (List.mem_singleton_self last)
        omega

/-! ### Which files are stored -/

end Quota

/-- A name is what the directory is joined with. -/
theorem Files.join_of_nameIn? {directory path name : String}
    (named : nameIn? directory path = some name) : join directory name = path := by
  unfold nameIn? at named
  split at named
  · rename_i below
    dsimp only at named
    split at named
    · cases named
    · cases named
      obtain ⟨rest, all⟩ := List.isPrefixOf_iff_prefix.mp below
      apply String.toList_inj.mp
      rw [toList_join, ← all, ← String.length_toList]
      simp
  · cases named

theorem Files.slash_not_mem_of_nameIn? {directory path name : String}
    (named : nameIn? directory path = some name) : '/' ∉ name.toList := by
  unfold nameIn? at named
  split at named
  · dsimp only at named
    split at named
    · cases named
    · rename_i flat
      cases named
      simpa using flat
  · cases named

namespace Quota

/-- What stands behind a stored file. -/
theorem storedFile_stands {sizes : Sizes} {files : Files} {root : String} {path : String}
    {entry : Entry} {file : StoredFile} (stands : files.find? path = some entry)
    (stored :
      ((Files.nameIn? root path).bind fun name => storedFile? sizes root name entry) = some file) :
    file.path = path ∧ ∃ f, entry = .file f ∧ f.content.size sizes = file.size ∧
      f.times.accessed = file.accessed := by
  obtain ⟨name, named, stored⟩ := Option.bind_eq_some_iff.mp stored
  cases entry with
  | directory => cases stored
  | file f =>
      obtain ⟨⟨kind, key⟩, _, made⟩ := Option.bind_eq_some_iff.mp stored
      cases made
      exact ⟨Files.join_of_nameIn? named, f, rfl, rfl, rfl⟩

theorem storedFiles_eq (sizes : Sizes) (files : Files) (root : String) :
    storedFiles sizes files root = files.entries.toList.filterMap fun (path, entry) =>
      (Files.nameIn? root path).bind fun name => storedFile? sizes root name entry := by
  unfold storedFiles Files.list
  rw [List.filterMap_filterMap]
  congr 1
  funext ⟨path, entry⟩
  dsimp only
  cases Files.nameIn? root path <;> rfl

theorem mem_storedFiles {sizes : Sizes} {files : Files} {root : String} {file : StoredFile}
    (listed : file ∈ storedFiles sizes files root) :
    ∃ f, files.find? file.path = some (.file f) ∧ f.content.size sizes = file.size ∧
      f.times.accessed = file.accessed := by
  rw [storedFiles_eq] at listed
  obtain ⟨⟨path, entry⟩, member, stored⟩ := List.mem_filterMap.mp listed
  have stands : files.find? path = some entry :=
    Std.ExtTreeMap.mem_toList_iff_getElem?_eq_some.mp member
  obtain ⟨rfl, f, rfl, size, accessed⟩ := storedFile_stands stands stored
  exact ⟨f, stands, size, accessed⟩

theorem nodup_storedFiles (sizes : Sizes) (files : Files) (root : String) :
    ((storedFiles sizes files root).map (·.path)).Nodup := by
  rw [storedFiles_eq]
  apply List.pairwise_map.mpr
  rw [List.pairwise_filterMap]
  refine (files.entries.distinct_keys_toList).imp_of_mem ?_
  rintro ⟨path, entry⟩ ⟨path', entry'⟩ member member' differ file made file' made' same
  have here := (storedFile_stands (Std.ExtTreeMap.mem_toList_iff_getElem?_eq_some.mp member) made).1
  have there :=
    (storedFile_stands (Std.ExtTreeMap.mem_toList_iff_getElem?_eq_some.mp member') made').1
  apply differ
  rw [here, there] at same
  simp [same]

/-- The file of a target in an encoding is stored. -/
theorem dumpFile_stored (sizes : Sizes) {files : Files} {root : String} {target : Target}
    {kind : Encoding} {f : File} (flat : '/' ∉ target.commit.toList)
    (stands : files.find? (Service.dumpFile root target kind) = some (.file f)) :
    ⟨Service.dumpFile root target kind, target.key, f.content.size sizes, f.times.accessed⟩ ∈
      storedFiles sizes files root := by
  rw [storedFiles_eq]
  refine List.mem_filterMap.mpr ⟨(Service.dumpFile root target kind, .file f), ?_, ?_⟩
  · exact Std.ExtTreeMap.mem_toList_iff_getElem?_eq_some.mpr stands
  · have nonempty : target.key.toList ≠ [] := by
      unfold Target.key
      simp
    have name : Files.nameIn? root (Service.dumpFile root target kind) =
        some (target.key ++ kind.extension) := by
      rw [Service.dumpFile_eq]
      exact Files.nameIn?_join (Service.slash_not_mem_name flat kind)
    dsimp only
    rw [name, Option.bind_some]
    unfold storedFile?
    rw [Encoding.splitFileName?_append nonempty, Service.dumpFile_eq]
    rfl

/-- What is stored once some files are gone was stored before. -/
theorem storedFiles_eraseAll {sizes : Sizes} {files : Files} {root : String} {gone : List String}
    {file : StoredFile} (listed : file ∈ storedFiles sizes (files.eraseAll gone) root) :
    file ∈ storedFiles sizes files root ∧ file.path ∉ gone := by
  rw [storedFiles_eq] at listed
  obtain ⟨⟨path, entry⟩, member, stored⟩ := List.mem_filterMap.mp listed
  have stands : (files.eraseAll gone).find? path = some entry :=
    Std.ExtTreeMap.mem_toList_iff_getElem?_eq_some.mp member
  have here := (storedFile_stands stands stored).1
  rw [Files.find?_eraseAll] at stands
  split at stands
  · cases stands
  · rename_i stays
    refine ⟨?_, here ▸ stays⟩
    rw [storedFiles_eq]
    exact List.mem_filterMap.mpr
      ⟨(path, entry), Std.ExtTreeMap.mem_toList_iff_getElem?_eq_some.mpr stands, stored⟩

/-! ### Deleting -/

/-- Some files have been deleted; what was not open still is not. -/
structure Deleted (paths : List String) (s t : Service) : Prop where
  frame : t = { s with
    files := s.files.eraseAll paths
    databases := t.databases
    documents := t.documents
    closed := t.closed }
  notOpen : ∀ key, s.databases.entries.find? key = none → t.databases.entries.find? key = none

theorem Deleted.trans {first second : List String} {s t u : Service} (one : Deleted first s t)
    (two : Deleted second t u) : Deleted (first ++ second) s u where
  frame := by
    rw [two.frame, one.frame]
    unfold Files.eraseAll
    rw [List.foldl_append]
  notOpen key absent := two.notOpen key (one.notOpen key absent)

/-- Files have been deleted, after the databases of their keys were closed and the documents read
from them were forgotten. Other databases and documents stay, in their order. -/
structure Swept (gone : List StoredFile) (s t : Service) : Prop extends
    Deleted (gone.map (·.path)) s t where
  loads : t.databases.loads = s.databases.loads
  entries : t.databases.entries.entries =
    s.databases.entries.entries.filter fun e => e.key ∉ gone.map (·.key)
  documents : t.documents.entries =
    s.documents.entries.filter fun e => gone.all fun file => !Service.isFrom file.path e.key
  registered : Registered s.databases s.closed → Registered t.databases t.closed

theorem Swept.refl (s : Service) : Swept [] s s where
  frame := rfl
  notOpen _ absent := absent
  loads := rfl
  entries := by simp
  documents := by simp
  registered := id

theorem Swept.trans {first second : List StoredFile} {s t u : Service} (one : Swept first s t)
    (two : Swept second t u) : Swept (first ++ second) s u where
  toDeleted := List.map_append ▸ one.toDeleted.trans two.toDeleted
  loads := two.loads.trans one.loads
  entries := by
    rw [two.entries, one.entries, List.filter_filter]
    refine List.filter_congr fun e _ => ?_
    simp only [List.map_append, List.mem_append]
    rw [← Bool.decide_and]
    exact decide_eq_decide.mpr (by tauto)
  documents := by
    rw [two.documents, one.documents, List.filter_filter]
    refine List.filter_congr fun e _ => ?_
    rw [List.all_append, Bool.and_comm]
  registered kept := two.registered (one.registered kept)

theorem delete_run {s : Service} {file : StoredFile} {f : File}
    (stands : s.files.find? file.path = some (.file f)) :
    ∃ t, delete file s = (.ok (), t) ∧ Swept [file] s t := by
  obtain ⟨found, evicted⟩ := Service.evictKey_ok file.key s
  let u := (Service.evictKey file.key s).2
  have frame : u = { s with databases := u.databases, closed := u.closed } :=
    Service.evictKey_frame file.key s
  have files : u.files = s.files := by rw [frame]
  have documents : u.documents = s.documents := by rw [frame]
  let forgotten := (u.documents.removeWhere (Service.isFrom file.path)).2
  refine ⟨{ u with files := u.files.erase file.path, documents := forgotten }, ?_,
    ⟨?_, fun key absent => Service.find?_evictKey_of_none absent⟩,
    Service.loads_evictKey file.key s, ?_, ?_, Service.registered_evictKey file.key s⟩
  · have removed : ServiceM.onFiles (FilesM.system (Files.remove file.path))
        { u with documents := forgotten } =
        (.ok (), { u with files := u.files.erase file.path, documents := forgotten }) := by
      unfold ServiceM.onFiles
      rw [Converter.system_run, Files.remove_file (files ▸ stands)]
      rfl
    exact (bind_ok evicted).trans ((bind_ok rfl).trans removed)
  · rw [files]
    exact congrArg (fun u : Service =>
      { u with files := s.files.erase file.path, documents := forgotten }) frame
  · simpa using Service.entries_evictKey file.key s
  · simp [forgotten, documents, WeightedCache.removeWhere]

/-- Files are deleted in order until those that are left are small enough. -/
theorem trim_run (most total : Nat) (stored : List StoredFile) (s : Service)
    (stand : ∀ file ∈ stored, ∃ f, s.files.find? file.path = some (.file f))
    (distinct : (stored.map (·.path)).Nodup) :
    ∃ t gone, trim most total stored s = (.ok ⟨total - totalSize gone, gone.map (·.path)⟩, t) ∧
      stored = gone ++ kept most total stored ∧ Swept gone s t := by
  induction stored generalizing total s with
  | nil => exact ⟨s, [], rfl, rfl, .refl s⟩
  | cons file rest ih =>
      unfold trim kept
      by_cases small : total ≤ most
      · rw [if_pos small, if_pos small]
        exact ⟨s, [], rfl, rfl, .refl s⟩
      · rw [if_neg small, if_neg small]
        rw [List.map_cons, List.nodup_cons] at distinct
        obtain ⟨f, stands⟩ := stand file List.mem_cons_self
        obtain ⟨t, deleting, deleted⟩ := delete_run stands
        have stillStand : ∀ other ∈ rest, ∃ f, t.files.find? other.path = some (.file f) := by
          intro other listed
          obtain ⟨g, there⟩ := stand other (List.mem_cons_of_mem _ listed)
          refine ⟨g, ?_⟩
          rw [deleted.frame, Files.find?_eraseAll, if_neg, there]
          rw [List.map_singleton, List.mem_singleton]
          intro same
          exact distinct.1 (same ▸ List.mem_map_of_mem listed)
        obtain ⟨u, gone, trimming, split, deletedRest⟩ :=
          ih (total - file.size) t stillStand distinct.2
        have attempted : ServiceM.attempt (delete file) s = (.ok (.ok ()), t) := by
          unfold ServiceM.attempt
          rw [deleting]
        refine ⟨u, file :: gone, ?_, ?_, deleted.trans deletedRest⟩
        · rw [totalSize_cons, ← Nat.sub_sub]
          exact (bind_ok attempted).trans (bind_ok trimming)
        · rw [List.cons_append, ← split]

theorem byAccess_perm (stored : List StoredFile) : (byAccess stored).Perm stored :=
  List.mergeSort_perm stored _

theorem nodup_byAccess (sizes : Sizes) (files : Files) (root : String) :
    ((byAccess (storedFiles sizes files root)).map (·.path)).Nodup :=
  ((byAccess_perm _).map _).nodup_iff.mpr (nodup_storedFiles sizes files root)

/-- Housekeeping deletes files in the order in which they were last read, down to the limit. -/
theorem enforce_run (most : Nat) (s : Service) :
    let sorted := byAccess (storedFiles s.sizes s.files s.root)
    ∃ t gone,
      enforce most s = (.ok ⟨totalSize sorted - totalSize gone, gone.map (·.path)⟩, t) ∧
      sorted = gone ++ kept most (totalSize sorted) sorted ∧ Swept gone s t := by
  intro sorted
  have perm := byAccess_perm (storedFiles s.sizes s.files s.root)
  have sizes : totalSize sorted = totalSize (storedFiles s.sizes s.files s.root) := by
    unfold totalSize
    exact total_perm (perm.map _)
  have stand : ∀ file ∈ sorted, ∃ f, s.files.find? file.path = some (.file f) := by
    intro file listed
    obtain ⟨f, stands, _⟩ := mem_storedFiles (perm.mem_iff.mp listed)
    exact ⟨f, stands⟩
  rw [sizes]
  exact trim_run most _ sorted s stand (nodup_byAccess s.sizes s.files s.root)

/-- Nothing is deleted while there is no more than is allowed. -/
theorem enforce_idle {most : Nat} {s : Service}
    (small : totalSize (storedFiles s.sizes s.files s.root) ≤ most) :
    enforce most s = (.ok ⟨totalSize (storedFiles s.sizes s.files s.root), []⟩, s) := by
  have trimmed (total : Nat) (small : total ≤ most) (stored : List StoredFile) :
      trim most total stored s = (.ok ⟨total, []⟩, s) := by
    cases stored with
    | nil => rfl
    | cons file rest =>
        unfold trim
        rw [if_pos small]
        rfl
  unfold enforce
  rw [bind_ok (get_run s)]
  exact trimmed _ small _

/-- A stored file that is newer than the files under all other paths is the newest stored one. -/
theorem accessed_lt_of_newest {sizes : Sizes} {files : Files} {root : String} {file : StoredFile}
    (listed : file ∈ storedFiles sizes files root)
    (newest : ∀ path f, path ≠ file.path → files.find? path = some (.file f) →
      f.times.accessed < file.accessed) :
    ∀ other ∈ storedFiles sizes files root, other ≠ file → other.accessed < file.accessed := by
  intro other member differs
  obtain ⟨f, there, _, accessed⟩ := mem_storedFiles member
  rw [← accessed]
  refine newest other.path f (fun same => differs ?_) there
  exact List.inj_on_of_nodup_map (nodup_storedFiles sizes files root) member listed same

/-- Housekeeping deletes every stored file if the newest by itself exceeds the limit; otherwise it
leaves that one. -/
theorem enforce_newest {most : Nat} {s t : Service} {report : Report} {newest : StoredFile}
    (run : enforce most s = (.ok report, t)) (listed : newest ∈ storedFiles s.sizes s.files s.root)
    (older : ∀ file ∈ storedFiles s.sizes s.files s.root, file ≠ newest →
      file.accessed < newest.accessed) :
    ∃ gone, Deleted gone s t ∧
      if most < newest.size then storedFiles t.sizes t.files t.root = []
      else newest.path ∉ gone := by
  obtain ⟨t', gone, run', split, deleted⟩ := enforce_run most s
  rw [run] at run'
  cases run'
  refine ⟨gone.map (·.path), deleted.toDeleted, ?_⟩
  have isLast := byAccess_getLast listed older
  have allGone := kept_eq_nil_iff most isLast
  split_ifs with large
  · rw [allGone.mpr large, List.append_nil] at split
    rw [deleted.frame]
    apply List.eq_nil_iff_forall_not_mem.mpr
    intro file stays
    obtain ⟨stored, notGone⟩ := storedFiles_eraseAll stays
    apply notGone
    rw [← split]
    exact List.mem_map_of_mem ((byAccess_perm _).mem_iff.mpr stored)
  · intro deletedToo
    have someKept := mt allGone.mp large
    have paths := nodup_byAccess s.sizes s.files s.root
    rw [split] at isLast paths
    rw [List.getLast?_append_of_ne_nil _ someKept] at isLast
    rw [List.map_append] at paths
    exact (List.nodup_append.mp paths).2.2 _ deletedToo _
      (List.mem_map_of_mem (List.mem_of_getLast? isLast)) rfl

end Quota

namespace Endpoint

theorem ofService_ok {α : Type} {c : ServiceM α} {a : α} {s t : Service} (run : c s = (.ok a, t)) :
    RequestM.ofService c s = (.ok a, t) := by
  unfold RequestM.ofService
  rw [run]
  rfl

/-- Housekeeping behind an upload deletes files, and counts what is left. -/
theorem houseKeep_run (size : Nat) (s : Service) :
    ∃ report t gone, (houseKeep size s).2 =
        { t with metrics := t.metrics.setDiskBytes report.total } ∧
      Quota.enforce (s.limits.softMaxBytes - size) s = (.ok report, t) ∧
      Quota.Deleted gone s t := by
  obtain ⟨t, gone, enforced, _, deleted⟩ :=
    Quota.enforce_run (s.limits.softMaxBytes - size) s
  refine ⟨_, t, gone.map (·.path), ?_, enforced, deleted.toDeleted⟩
  unfold houseKeep
  rw [bind_ok (get_run s), bind_ok (ofService_ok enforced)]
  rfl

/-- Housekeeping that deletes nothing changes figures alone. -/
theorem houseKeep_idle {size : Nat} {s : Service}
    (small : Quota.totalSize (Quota.storedFiles s.sizes s.files s.root) ≤
      s.limits.softMaxBytes - size) :
    ∃ change : Metrics → Metrics, (houseKeep size s).2 = { s with metrics := change s.metrics } := by
  obtain ⟨report, t, gone, run, enforced, _⟩ := houseKeep_run size s
  rw [Quota.enforce_idle small] at enforced
  cases enforced
  exact ⟨(·.setDiskBytes (Quota.totalSize (Quota.storedFiles s.sizes s.files s.root))), run⟩

end Endpoint

end CodeNav
