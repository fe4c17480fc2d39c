/-
Module: CodeNav.Proofs.Store.Paths
Purpose: The paths of stored dumps and of temporary files, and why they do not meet.
Main exports:
  Target.key_injective, Service.temporaryFile, Service.dumpFile, Service.dumpFile_ne_temporary
-/
import CodeNav.Proofs.Text.Utf8
import CodeNav.Service.State

namespace CodeNav

/-! ### Directories -/

namespace Files

theorem toList_join (directory name : String) :
    (join directory name).toList = directory.toList ++ '/' :: name.toList := by
  simp [join]

theorem nameIn?_join {directory name : String} (flat : '/' ∉ name.toList) :
    nameIn? directory (join directory name) = some name := by
  have below : isBelow directory (join directory name) := by
    unfold isBelow
    rw [toList_join, List.isPrefixOf_iff_prefix]
    exact ⟨name.toList, by simp⟩
  have rest : (join directory name).toList.drop (directory.length + 1) = name.toList := by
    have length : directory.length = directory.toList.length := String.length_toList.symm
    rw [toList_join, length, List.drop_append]
    simp
  unfold nameIn?
  rw [if_pos below]
  simp only [rest]
  rw [if_neg (by simpa using flat)]
  simp

theorem join_injective {directory name other : String}
    (same : join directory name = join directory other) : name = other := by
  have lists := congrArg String.toList same
  rw [toList_join, toList_join] at lists
  exact String.toList_inj.mp (List.cons_inj_right _ |>.mp (List.append_cancel_left lists))

theorem parent_append {path ending : String} (flat : '/' ∉ ending.toList) :
    parent (path ++ ending) = parent path := by
  unfold parent
  rw [String.toList_append, List.reverse_append, List.dropWhile_append_of_pos]
  intro c listed
  rw [bne_iff_ne]
  rintro rfl
  exact flat (List.mem_reverse.mp listed)

/-- What a directory is joined with stands in the directory. -/
theorem parent_join {directory name : String} (flat : '/' ∉ name.toList) :
    parent (join directory name) = directory := by
  have apart : join directory name = join directory "" ++ name := by simp [join]
  rw [apart, parent_append flat]
  simp [parent, toList_join]

end Files

/-! ### Names of targets -/

theorem Text.slash_not_mem_percentChars (b : UInt8) : '/' ∉ Text.percentChars b := by
  have all : ∀ n : Fin 256, '/' ∉ Text.percentChars (UInt8.ofNat n) := by decide +kernel
  have this := all ⟨b.toNat, b.toNat_lt⟩
  simpa using this

/-- No directory is named by the key of a target whose commit is well formed. -/
theorem Target.slash_not_mem_key {target : Target} (flat : '/' ∉ target.commit.toList) :
    '/' ∉ target.key.toList := by
  unfold Target.key Text.percentEncode
  simp only [String.toList_append, String.toList_ofList, List.mem_append, List.mem_flatMap]
  rintro ((⟨b, _, listed⟩ | at_) | listed)
  · exact Text.slash_not_mem_percentChars b listed
  · simp at at_
  · exact flat listed

theorem Target.isCommit_of_validate {repository commit : String} {target : Target}
    (valid : Target.validate repository commit = .ok target) : Target.isCommit target.commit := by
  unfold Target.validate at valid
  split at valid
  · cases valid
  · split at valid
    · rename_i isCommit
      cases valid
      exact isCommit
    · cases valid

theorem Target.slash_not_mem_of_isCommit {target : Target}
    (commit : Target.isCommit target.commit) : '/' ∉ target.commit.toList := by
  intro listed
  simp only [Target.isCommit, Bool.and_eq_true, List.all_eq_true] at commit
  have := commit.2 '/' listed
  revert this
  decide

theorem Target.slash_not_mem_commit {repository commit : String} {target : Target}
    (valid : Target.validate repository commit = .ok target) : '/' ∉ target.commit.toList :=
  Target.slash_not_mem_of_isCommit (Target.isCommit_of_validate valid)

/-- What stands for an octet tells it, whatever comes behind. -/
theorem Text.percentChars_cancel {b other : UInt8} {rest rest' : List Char}
    (same : percentChars b ++ rest = percentChars other ++ rest') : b = other ∧ rest = rest' := by
  have notSign : ∀ n : Fin 256, isUnreserved (.ofNat n) → Char.ofNat n ≠ '%' := by decide +kernel
  have digits : ∀ m n : Fin 16, upperHexDigit m = upperHexDigit n → m = n := by decide +kernel
  have codes : ∀ n : Fin 256, (Char.ofNat n).toNat = n := by decide +kernel
  have plain (c : UInt8) (unreserved : isUnreserved c) : Char.ofNat c.toNat ≠ '%' :=
    notSign ⟨c.toNat, c.toNat_lt⟩ (by simpa using unreserved)
  have small := b.toNat_lt
  have small' := other.toNat_lt
  unfold percentChars at same
  split at same <;> split at same
  · obtain ⟨first, behind⟩ := List.cons.inj same
    refine ⟨UInt8.toNat_inj.mp ?_, behind⟩
    have numbers := congrArg Char.toNat first
    rwa [codes ⟨_, small⟩, codes ⟨_, small'⟩] at numbers
  · rename_i unreserved _
    exact absurd (List.cons.inj same).1 (plain b unreserved)
  · rename_i _ unreserved
    exact absurd (List.cons.inj same).1.symm (plain other unreserved)
  · simp only [List.cons_append, List.nil_append, List.cons.injEq, true_and] at same
    obtain ⟨high, low, behind⟩ := same
    have highs := digits ⟨b.toNat / 16, by omega⟩ ⟨other.toNat / 16, by omega⟩ high
    have lows := digits ⟨b.toNat % 16, by omega⟩ ⟨other.toNat % 16, by omega⟩ low
    rw [Fin.mk.injEq] at highs lows
    exact ⟨UInt8.toNat_inj.mp (by omega), behind⟩

theorem Text.percentEncode_injective {s t : String} (same : percentEncode s = percentEncode t) :
    s = t := by
  have octets (l m : List UInt8) (same : l.flatMap percentChars = m.flatMap percentChars) :
      l = m := by
    have nonempty (b : UInt8) (rest : List Char) : [] ≠ percentChars b ++ rest := by
      unfold percentChars
      split <;> simp
    induction l generalizing m with
    | nil =>
        cases m with
        | nil => rfl
        | cons b m => exact absurd same (nonempty b _)
    | cons b l ih =>
        cases m with
        | nil => exact absurd same.symm (nonempty b _)
        | cons c m =>
            obtain ⟨rfl, behind⟩ := percentChars_cancel same
            rw [ih m behind]
  have encoded := octets _ _ (String.ofList_inj.mp same)
  have decoded := Utf8.decode_encode s
  rw [encoded, Utf8.decode_encode] at decoded
  exact (Except.ok.inj decoded).symm

/-- Targets that are well formed have keys of their own. -/
theorem Target.key_injective {target other : Target} (commit : isCommit target.commit)
    (commit' : isCommit other.commit) (same : target.key = other.key) : target = other := by
  have lengths : target.commit.toList.length = other.commit.toList.length := by
    simp only [isCommit, Bool.and_eq_true, beq_iff_eq] at commit commit'
    rw [String.length_toList, String.length_toList, commit.1, commit'.1]
  have lists := congrArg String.toList same
  simp only [key, String.toList_append] at lists
  obtain ⟨names, commits⟩ := List.append_inj' lists lengths
  have repository :=
    Text.percentEncode_injective (String.toList_inj.mp (List.append_cancel_right names))
  have commit := String.toList_inj.mp commits
  cases target
  cases other
  cases repository
  cases commit
  rfl

namespace Encoding

theorem slash_not_mem_extension (kind : Encoding) : '/' ∉ kind.extension.toList := by
  cases kind <;> decide

theorem path_injective {base : String} {kind other : Encoding}
    (same : kind.path base = other.path base) : kind = other := by
  have extensions : kind.extension = other.extension := by
    have lists := congrArg String.toList same
    unfold path at lists
    rw [String.toList_append, String.toList_append] at lists
    exact String.toList_inj.mp (List.append_cancel_left lists)
  revert extensions
  cases kind <;> cases other <;> decide

end Encoding

/-! ### The files of a service -/

namespace Service

/-- The temporary file with a number. -/
def temporaryFile (root : String) (number : Nat) (kind : Encoding) : String :=
  Files.join (Files.join root temporaryName) ("upload-" ++ toString number ++ kind.extension)

/-- The file of a target in an encoding. -/
def dumpFile (root : String) (target : Target) (kind : Encoding) : String :=
  kind.path (Files.join root target.key)

theorem dumpFile_eq (root : String) (target : Target) (kind : Encoding) :
    dumpFile root target kind = Files.join root (target.key ++ kind.extension) := by
  simp [dumpFile, Encoding.path, Files.join, String.append_assoc]

theorem slash_not_mem_name {target : Target} (flat : '/' ∉ target.commit.toList)
    (kind : Encoding) : '/' ∉ (target.key ++ kind.extension).toList := by
  rw [String.toList_append, List.mem_append]
  rintro (listed | listed)
  · exact Target.slash_not_mem_key flat listed
  · exact Encoding.slash_not_mem_extension kind listed

theorem toList_temporaryName (number : Nat) (kind : Encoding) :
    ("upload-" ++ toString number ++ kind.extension).toList =
      "upload-".toList ++ (Nat.toDigits 10 number ++ kind.extension.toList) := by
  simp

theorem parent_temporaryFile (root : String) (number : Nat) (kind : Encoding) :
    Files.parent (temporaryFile root number kind) = Files.join root temporaryName := by
  apply Files.parent_join
  rw [toList_temporaryName, List.mem_append, List.mem_append]
  rintro (listed | digit | listed)
  · exact absurd listed (by decide)
  · exact absurd (Nat.isDigit_of_mem_toDigits (by omega) (by omega) digit) (by decide)
  · exact Encoding.slash_not_mem_extension kind listed

/-- Temporary files have different paths. -/
theorem temporaryFile_inj {root : String} {number other : Nat} {kind kind' : Encoding}
    (same : temporaryFile root number kind = temporaryFile root other kind') :
    number = other ∧ kind = kind' := by
  have digits (n : Nat) (kind : Encoding) :
      (Nat.toDigits 10 n ++ kind.extension.toList).takeWhile Char.isDigit =
        Nat.toDigits 10 n := by
    rw [List.takeWhile_append_of_pos fun c listed =>
      Nat.isDigit_of_mem_toDigits (by omega) (by omega) listed]
    cases kind <;> simp [Encoding.extension]
  have lists := congrArg String.toList (Files.join_injective same)
  rw [toList_temporaryName, toList_temporaryName] at lists
  have rest := List.append_cancel_left lists
  have numbers : Nat.toDigits 10 number = Nat.toDigits 10 other := by
    rw [← digits number kind, ← digits other kind', rest]
  have extensions : kind.extension = kind'.extension := by
    rw [numbers] at rest
    exact String.toList_inj.mp (List.append_cancel_left rest)
  constructor
  · have values := congrArg (Nat.ofDigitChars 10 · 0) numbers
    simpa [Nat.ofDigitChars_ten_toDigits] using values
  · revert extensions
    cases kind <;> cases kind' <;> decide

/-- No dump is stored under the path of a temporary file. -/
theorem dumpFile_ne_temporary {root : String} {target : Target}
    (flat : '/' ∉ target.commit.toList) (kind other : Encoding) (number : Nat) :
    dumpFile root target kind ≠ temporaryFile root number other := by
  intro same
  rw [dumpFile_eq] at same
  have nested : temporaryFile root number other = Files.join root
      (Files.join temporaryName ("upload-" ++ toString number ++ other.extension)) := by
    simp [temporaryFile, Files.join, String.append_assoc]
  rw [nested] at same
  have names := Files.join_injective same
  apply slash_not_mem_name flat kind
  rw [names, Files.toList_join]
  simp

theorem marked_key (target : Target) : '@' ∈ target.key.toList := by
  simp [Target.key]

/-- No temporary file has a sign in its name that the names of all dumps have. -/
theorem join_ne_temporaryFile {root name : String} (marked : '@' ∈ name.toList) (number : Nat)
    (kind : Encoding) : Files.join root name ≠ temporaryFile root number kind := by
  intro same
  have nested : temporaryFile root number kind = Files.join root
      (Files.join temporaryName ("upload-" ++ toString number ++ kind.extension)) := by
    simp [temporaryFile, Files.join, String.append_assoc]
  rw [nested] at same
  rw [Files.join_injective same, Files.toList_join, toList_temporaryName] at marked
  have digit (listed : '@' ∈ Nat.toDigits 10 number) : '@'.isDigit :=
    Nat.isDigit_of_mem_toDigits (by omega) (by omega) listed
  simp only [List.mem_append, List.mem_cons] at marked
  rcases marked with directory | slash | prefix_ | digits | ending
  · revert directory
    decide
  · revert slash
    decide
  · revert prefix_
    decide
  · exact absurd (digit digits) (by decide)
  · revert ending
    cases kind <;> decide

end Service

end CodeNav
