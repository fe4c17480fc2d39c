/-
Module: CodeNav.Proofs.Json.Strings
Purpose: Texts in quotes are read back as they are.
Main exports:
  Json.Quoted.pushAll, Json.readString_quote, Json.readString_append
-/
import CodeNav.Json.Printer
import CodeNav.Json.Reader
import CodeNav.Proofs.Success
import CodeNav.Proofs.Text.Utf8

namespace CodeNav.Json

open String (utf8EncodeChar)

namespace Quoted

/-- Adds octets in their order. -/
def pushAll (q : Quoted) (octets : List UInt8) : Quoted :=
  octets.foldl push q

theorem pushAll_append (q : Quoted) (first second : List UInt8) :
    q.pushAll (first ++ second) = (q.pushAll first).pushAll second :=
  List.foldl_append

theorem pushAll_eq (q : Quoted) (octets : List UInt8) :
    q.pushAll octets = { q with octets := octets.reverse ++ q.octets } := by
  induction octets generalizing q with
  | nil => rfl
  | cons b rest ih =>
      change (q.push b).pushAll rest = _
      rw [ih, List.reverse_cons, List.append_assoc]
      rfl

theorem pushChar_eq (q : Quoted) (c : Char) : q.pushChar c = q.pushAll (utf8EncodeChar c) := by
  rw [pushAll_eq, pushChar, Utf8.encode_eq]
  simp

/-- A text whose octets were all taken over is closed as that text. -/
theorem close_pushAll (s : String) : (pushAll ⟨[], none⟩ (Utf8.encode s)).close = .ok s := by
  rw [pushAll_eq, close]
  simp only [List.append_nil, List.reverse_reverse, Utf8.decode_encode]
  rfl

end Quoted

/-- An octet that stands for itself inside quotes. -/
def isPlain (b : UInt8) : Bool :=
  !(b < 0x20) && b != 0x22 && b != 0x5C

theorem readQuoted_plain {b : UInt8} (plain : isPlain b) (fuel : Nat) (q : Quoted)
    (rest : List UInt8) :
    readQuoted (fuel + 1) q (b :: rest) = readQuoted fuel (q.push b) rest := by
  simp only [isPlain, Bool.and_eq_true, Bool.not_eq_true', decide_eq_false_iff_not, bne_iff_ne,
    ne_eq] at plain
  obtain ⟨⟨printable, noQuote⟩, noEscape⟩ := plain
  simp [readQuoted, noQuote, printable, noEscape]

theorem readQuoted_plains {octets : List UInt8} (plain : ∀ b ∈ octets, isPlain b) (fuel : Nat)
    (q : Quoted) (rest : List UInt8) :
    readQuoted (fuel + octets.length) q (octets ++ rest) =
      readQuoted fuel (q.pushAll octets) rest := by
  induction octets generalizing q with
  | nil => rfl
  | cons b octets ih =>
      rw [List.length_cons, ← Nat.add_assoc, List.cons_append,
        readQuoted_plain (plain b List.mem_cons_self),
        ih fun other member => plain other (List.mem_cons_of_mem b member)]
      rfl

/-- The octets of a character that is not escaped stand for themselves. -/
theorem isPlain_utf8EncodeChar {c : Char} (noQuote : c ≠ '"') (noEscape : c ≠ '\\')
    (printable : ¬ c.toNat < 0x20) : ∀ b ∈ utf8EncodeChar c, isPlain b := by
  have high (x : Nat) (less : x < 256) (large : 128 ≤ x) : isPlain (.ofNat x) := by
    have plain : ∀ y < 128, isPlain (.ofNat (y + 128)) := by decide
    have shifted := plain (x - 128) (by omega)
    rwa [Nat.sub_add_cancel large] at shifted
  have low : ∀ x < 128, 32 ≤ x → x ≠ 34 → x ≠ 92 → isPlain (.ofNat x) := by decide
  have code (other : Char) (different : c ≠ other) : c.toNat ≠ other.toNat :=
    fun same => different (Char.toNat_inj.mp same)
  rw [Utf8.utf8EncodeChar_eq]
  split
  · intro b member
    rw [List.mem_singleton.mp member]
    exact low c.toNat (by omega) (by omega) (code '"' noQuote) (code '\\' noEscape)
  · split
    · simp only [List.forall_mem_cons, List.not_mem_nil, false_implies, implies_true, and_true]
      exact ⟨high _ (by omega) (by omega), high _ (by omega) (by omega)⟩
    · split
      · simp only [List.forall_mem_cons, List.not_mem_nil, false_implies, implies_true, and_true]
        exact ⟨high _ (by omega) (by omega), high _ (by omega) (by omega),
          high _ (by omega) (by omega)⟩
      · simp only [List.forall_mem_cons, List.not_mem_nil, false_implies, implies_true, and_true]
        exact ⟨high _ (by omega) (by omega), high _ (by omega) (by omega),
          high _ (by omega) (by omega), high _ (by omega) (by omega)⟩

theorem readQuoted_unit {s left rest : List UInt8} {unit : Nat} {c : Char}
    (hex : readHex s = .ok (unit, left)) (char : readUnit unit left = .ok (c, rest))
    (fuel : Nat) (q : Quoted) :
    readQuoted (fuel + 1) q (0x5C :: 0x75 :: s) = readQuoted fuel (q.pushChar c) rest := by
  simp [readQuoted, hex, char]

theorem readQuoted_mark (fuel : Nat) (q : Quoted) (rest : List UInt8) :
    readQuoted (fuel + 1) q (0x22 :: rest) = .ok (q.close, rest) := by
  simp [readQuoted]

/-- The four hexadecimal digits of a control character are read as its code. -/
theorem readHex_control {n : Nat} (control : n < 32) (rest : List UInt8) :
    readHex (['0', '0', Nat.digitChar (n / 16), Nat.digitChar (n % 16)].flatMap utf8EncodeChar
      ++ rest) = .ok (n, rest) := by
  have digit : ∀ d < 16, utf8EncodeChar (Nat.digitChar d) = [.ofNat (Nat.digitChar d).toNat] ∧
      hexDigit? (.ofNat (Nat.digitChar d).toNat) = some d := by decide
  obtain ⟨upper, upperValue⟩ := digit (n / 16) (by omega)
  obtain ⟨lower, lowerValue⟩ := digit (n % 16) (by omega)
  have zero : utf8EncodeChar '0' = [0x30] ∧ hexDigit? 0x30 = some 0 := by decide
  simp only [List.flatMap_cons, List.flatMap_nil, upper, lower, zero, List.append_nil,
    List.cons_append, List.nil_append, readHex, upperValue, lowerValue]
  congr 2
  omega

/-- What stands for a character inside quotes is read as the character; no step of the reading
takes less than an octet. -/
theorem readQuoted_escape (c : Char) : ∃ steps ≤ ((escape c).flatMap utf8EncodeChar).length,
    ∀ fuel q rest,
      readQuoted (fuel + steps) q ((escape c).flatMap utf8EncodeChar ++ rest) =
        readQuoted fuel (q.pushAll (utf8EncodeChar c)) rest := by
  unfold escape
  split
  case h_8 noQuote noEscape _ _ _ _ _ =>
    split
    · rename_i control
      refine ⟨1, Nat.le_add_left 1 _, ?_⟩
      intro fuel q rest
      have unit : readUnit c.toNat rest = .ok (c, rest) := by
        have notTrailing : isTrailing c.toNat = false := by
          simp only [isTrailing, Bool.and_eq_false_imp, decide_eq_true_eq]
          omega
        have notLeading : isLeading c.toNat = false := by
          simp only [isLeading, Bool.and_eq_false_imp, decide_eq_true_eq]
          omega
        rw [readUnit, notTrailing, notLeading, Char.ofNat_toNat]
        rfl
      rw [← Quoted.pushChar_eq]
      exact readQuoted_unit (readHex_control control rest) unit fuel q
    · rename_i printable
      refine ⟨_, Nat.le_refl _, ?_⟩
      intro fuel q rest
      rw [List.flatMap_singleton]
      exact readQuoted_plains (isPlain_utf8EncodeChar noQuote noEscape printable) fuel q rest
  all_goals exact ⟨1, by decide, fun fuel q rest => rfl⟩

theorem readQuoted_escapes (chars : List Char) :
    ∃ steps ≤ ((chars.flatMap escape).flatMap utf8EncodeChar).length, ∀ fuel q rest,
      readQuoted (fuel + steps) q ((chars.flatMap escape).flatMap utf8EncodeChar ++ rest) =
        readQuoted fuel (q.pushAll (chars.flatMap utf8EncodeChar)) rest := by
  induction chars with
  | nil => exact ⟨0, Nat.le_refl _, fun _ _ _ => rfl⟩
  | cons c chars ih =>
      obtain ⟨own, few, reads⟩ := readQuoted_escape c
      obtain ⟨others, fewOthers, readsOthers⟩ := ih
      refine ⟨others + own, ?_, ?_⟩
      · rw [List.flatMap_cons, List.flatMap_append, List.length_append]
        omega
      · intro fuel q rest
        rw [List.flatMap_cons, List.flatMap_append, List.append_assoc, ← Nat.add_assoc, reads,
          readsOthers, List.flatMap_cons, Quoted.pushAll_append]

/-- A text in quotes is read up to its closing quote as the text. -/
theorem readString_quote (s : String) (rest : List UInt8) :
    readString ((s.toList.flatMap escape).flatMap utf8EncodeChar ++ 0x22 :: rest) =
      .ok (.ok s, rest) := by
  obtain ⟨steps, few, reads⟩ := readQuoted_escapes s.toList
  unfold readString
  rw [List.length_append, List.length_cons]
  generalize ((s.toList.flatMap escape).flatMap utf8EncodeChar).length = length at few ⊢
  have enough : length + (rest.length + 1) + 1 = length - steps + rest.length + 1 + 1 + steps := by
    omega
  rw [enough, reads, ← Utf8.encode_eq, readQuoted_mark, Quoted.close_pushAll]

/-! ### What follows a closing quote -/

section

variable {s left : List UInt8} {unit : Nat}

theorem readHex_append (found : readHex s = .ok (unit, left)) (rest : List UInt8) :
    readHex (s ++ rest) = .ok (unit, left ++ rest) := by
  rcases s with _ | ⟨a, _ | ⟨b, _ | ⟨c, _ | ⟨d, s⟩⟩⟩⟩
  all_goals try cases found
  simp only [List.cons_append, readHex] at found ⊢
  split at found
  · cases found
    rfl
  · cases found

/-- A unit written as an escape completes a pair or does not. -/
theorem readTrailing_escape (found : readHex s = .ok (unit, left)) :
    readTrailing (0x5C :: 0x75 :: s) =
      if isTrailing unit then .ok (unit, left) else .error .loneSurrogate := by
  rw [readTrailing, found]
  rfl

theorem readTrailing_append (found : readTrailing s = .ok (unit, left)) (rest : List UInt8) :
    readTrailing (s ++ rest) = .ok (unit, left ++ rest) := by
  have whole := found
  unfold readTrailing at found
  split at found
  · rename_i s
    cases hex : readHex s with
    | error cause =>
        rw [hex] at found
        cases found
    | ok read =>
        obtain ⟨second, after⟩ := read
        rw [readTrailing_escape hex] at whole
        rw [List.cons_append, List.cons_append, readTrailing_escape (readHex_append hex rest)]
        split at whole
        · cases whole
          rw [if_pos ‹_›]
        · cases whole
  · cases found
  · cases found
  · cases found

/-- Reading that goes on behind a unit without a proper second one does so whatever follows. -/
theorem readTrailing_refused {cause : Cause} {fuel : Nat} {q : Quoted}
    {result : Except Cause String × List UInt8} (refused : readTrailing s = .error cause)
    (goesOn : readQuoted fuel q s = .ok result) (rest : List UInt8) :
    readTrailing (s ++ rest) = .error cause := by
  have whole := refused
  cases fuel with
  | zero => cases goesOn
  | succ fuel =>
      unfold readTrailing at refused
      split at refused
      · rename_i s
        cases hex : readHex s with
        | error other => simp [readQuoted, hex] at goesOn
        | ok read =>
            obtain ⟨second, after⟩ := read
            rw [readTrailing_escape hex] at whole
            rw [List.cons_append, List.cons_append, readTrailing_escape (readHex_append hex rest)]
            split at whole
            · cases whole
            · rwa [if_neg ‹_›]
      · cases goesOn
      · cases goesOn
      · rename_i noPair noOctet noMark
        cases refused
        rcases s with _ | ⟨b, _ | ⟨c, s⟩⟩
        · exact absurd rfl noOctet
        · have other : b ≠ 0x5C := fun same => noMark (by rw [same])
          rw [List.cons_append, readTrailing]
          · exact fun _ same => other (List.cons.inj same).1
          · exact fun same => by cases same
          · exact fun same => other (List.cons.inj same).1
        · rw [List.cons_append, List.cons_append, readTrailing]
          · rintro more same
            cases same
            exact noPair s rfl
          · exact fun same => by cases same
          · exact fun same => by cases same

theorem readUnit_eq (unit : Nat) (s : List UInt8) :
    readUnit unit s =
      if isTrailing unit then .error .loneSurrogate
      else if isLeading unit then
        (readTrailing s).map fun found => (pair unit found.1, found.2)
      else .ok (Char.ofNat unit, s) := by
  unfold readUnit
  split
  · rfl
  · split
    · cases readTrailing s <;> rfl
    · rfl

theorem readUnit_append {c : Char} (found : readUnit unit s = .ok (c, left)) (rest : List UInt8) :
    readUnit unit (s ++ rest) = .ok (c, left ++ rest) := by
  rw [readUnit_eq] at found ⊢
  by_cases trailing : isTrailing unit = true
  · rw [if_pos trailing] at found
    exact nomatch found
  · rw [if_neg trailing] at found ⊢
    by_cases leading : isLeading unit = true
    · rw [if_pos leading] at found ⊢
      obtain ⟨⟨second, after⟩, read, same⟩ := Success.map_eq_ok.mp found
      obtain ⟨rfl, rfl⟩ := Prod.mk.inj same
      rw [readTrailing_append read rest]
      rfl
    · rw [if_neg leading] at found ⊢
      obtain ⟨rfl, rfl⟩ := Prod.mk.inj (Except.ok.inj found)
      rfl

theorem readUnit_refused {cause : Cause} {fuel : Nat} {q : Quoted}
    {result : Except Cause String × List UInt8} (refused : readUnit unit s = .error cause)
    (goesOn : readQuoted fuel q s = .ok result) (rest : List UInt8) :
    readUnit unit (s ++ rest) = .error cause := by
  rw [readUnit_eq] at refused ⊢
  by_cases trailing : isTrailing unit = true
  · rwa [if_pos trailing] at refused ⊢
  · rw [if_neg trailing] at refused ⊢
    by_cases leading : isLeading unit = true
    · rw [if_pos leading] at refused ⊢
      cases read : readTrailing s with
      | error other =>
          rw [readTrailing_refused read goesOn rest]
          rwa [read] at refused
      | ok found =>
          rw [read] at refused
          exact nomatch refused
    · rw [if_neg leading] at refused
      exact nomatch refused

theorem readQuoted_letter {c : UInt8} (letter : c ≠ 0x75) (fuel : Nat) (q : Quoted)
    (s : List UInt8) :
    readQuoted (fuel + 1) q (0x5C :: c :: s) =
      match letter? c with
      | some b => readQuoted fuel (q.push b) s
      | none => .error (q.stop .invalidEscape) := by
  have escape : ((0x5C : UInt8) == 0x22) = false ∧ ¬ (0x5C : UInt8) < 0x20 ∧
      ((0x5C : UInt8) != 0x5C) = false := by decide
  obtain ⟨noMark, printable, escaped⟩ := escape
  cases found : letter? c <;>
    simp only [readQuoted, noMark, printable, escaped, if_false, Bool.false_eq_true, found]

/-- A string under way is read alike whatever follows its closing quote. -/
theorem readQuoted_append {fuel : Nat} {q : Quoted} {text : Except Cause String}
    (found : readQuoted fuel q s = .ok (text, left)) (more : Nat) (rest : List UInt8) :
    readQuoted (fuel + more) q (s ++ rest) = .ok (text, left ++ rest) := by
  induction fuel generalizing q s with
  | zero => cases found
  | succ fuel ih =>
      rw [Nat.succ_add]
      rcases s with _ | ⟨b, s⟩
      · cases found
      by_cases mark : b = 0x22
      · subst mark
        rw [readQuoted_mark] at found
        rw [List.cons_append, readQuoted_mark]
        cases found
        rfl
      by_cases control : b < 0x20
      · simp [readQuoted, mark, control] at found
      by_cases escaped : b = 0x5C
      · subst escaped
        rcases s with _ | ⟨c, s⟩
        · simp [readQuoted] at found
        by_cases coded : c = 0x75
        · subst coded
          cases hex : readHex s with
          | error cause => simp [readQuoted, hex] at found
          | ok read =>
              obtain ⟨unit, after⟩ := read
              have appended := readHex_append hex rest
              cases char : readUnit unit after with
              | ok read =>
                  obtain ⟨c, after⟩ := read
                  rw [readQuoted_unit hex char] at found
                  exact (readQuoted_unit appended (readUnit_append char rest) _ q).trans (ih found)
              | error cause =>
                  simp only [readQuoted, hex, char] at found
                  have refused := readUnit_refused char found rest
                  simpa [readQuoted, appended, refused] using ih found
        · rw [readQuoted_letter coded] at found
          rw [List.cons_append, List.cons_append, readQuoted_letter coded]
          cases letter : letter? c with
          | none =>
              rw [letter] at found
              cases found
          | some b =>
              rw [letter] at found
              exact ih found
      · have plain : isPlain b := by simp [isPlain, mark, control, escaped]
        rw [readQuoted_plain plain] at found
        rw [List.cons_append, readQuoted_plain plain]
        exact ih found

/-- A string is read alike whatever follows its closing quote. -/
theorem readString_append {text : Except Cause String} (found : readString s = .ok (text, left))
    (rest : List UInt8) : readString (s ++ rest) = .ok (text, left ++ rest) := by
  have longer := readQuoted_append found rest.length rest
  rwa [Nat.add_right_comm, ← List.length_append] at longer

end

end CodeNav.Json
