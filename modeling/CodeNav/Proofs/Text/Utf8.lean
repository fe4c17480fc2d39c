/-
Module: CodeNav.Proofs.Text.Utf8
Purpose: The octets of a text are read back as the text.
Main exports:
  Utf8.encode_eq, Utf8.encode_append, Utf8.step_utf8EncodeChar, Utf8.decode_encode
-/
import CodeNav.Text.Utf8
import Mathlib.Data.List.Basic

namespace CodeNav.Utf8

/-! ### The octets of a text -/

theorem toList_loop (bytes : ByteArray) (i : Nat) (done : List UInt8) :
    ByteArray.toList.loop bytes i done = done.reverse ++ bytes.data.toList.drop i := by
  rw [ByteArray.toList.loop]
  by_cases inside : i < bytes.size
  · have there : i < bytes.data.toList.length := inside
    have octet : bytes.get! i = bytes.data.toList[i] := getElem!_pos bytes.data i inside
    rw [if_pos inside, toList_loop bytes (i + 1), List.drop_eq_getElem_cons there, octet,
      List.reverse_cons, List.append_assoc, List.singleton_append]
  · have beyond : bytes.data.toList.length ≤ i := Nat.le_of_not_lt inside
    rw [if_neg inside, List.drop_eq_nil_of_le beyond, List.append_nil]
termination_by bytes.size - i

/-- A text is encoded character by character. -/
theorem encode_eq (text : String) : encode text = text.toList.flatMap String.utf8EncodeChar := by
  unfold encode ByteArray.toList String.toUTF8
  rw [toList_loop, ← String.utf8Encode_toList]
  simp [List.utf8Encode]

theorem encode_append (first second : String) :
    encode (first ++ second) = encode first ++ encode second := by
  simp [encode_eq]

theorem encode_ofList (chars : List Char) :
    encode (String.ofList chars) = chars.flatMap String.utf8EncodeChar := by
  rw [encode_eq, String.toList_ofList]

theorem encode_empty : encode "" = [] := by
  rw [encode_eq]
  rfl

theorem encode_minus : encode "-" = [0x2D] := by
  rw [encode_eq]
  rfl

theorem encode_point : encode "." = [0x2E] := by
  rw [encode_eq]
  rfl

theorem utf8EncodeChar_eq (c : Char) : String.utf8EncodeChar c =
    if c.toNat ≤ 127 then [.ofNat c.toNat]
    else if c.toNat ≤ 2047 then [.ofNat (c.toNat / 64 % 32 + 192), .ofNat (c.toNat % 64 + 128)]
    else if c.toNat ≤ 65535 then
      [.ofNat (c.toNat / 4096 % 16 + 224), .ofNat (c.toNat / 64 % 64 + 128),
        .ofNat (c.toNat % 64 + 128)]
    else
      [.ofNat (c.toNat / 262144 % 8 + 240), .ofNat (c.toNat / 4096 % 64 + 128),
        .ofNat (c.toNat / 64 % 64 + 128), .ofNat (c.toNat % 64 + 128)] :=
  rfl

/-! ### Characters read off the front -/

theorem tail_octet : ∀ x < 64, isTail (.ofNat (x + 128)) = true ∧
    (UInt8.ofNat (x + 128) &&& 0x3F).toNat = x := by
  decide

theorem push_tail (bits : Nat) {x : Nat} (small : x < 64) :
    push bits (.ofNat (x + 128)) = bits * 64 + x := by
  rw [push, (tail_octet x small).2]

theorem step_one {x : Nat} (small : x < 128) (rest : List UInt8) :
    step (.ofNat x :: rest) = .char (Char.ofNat x) rest := by
  have low : ∀ x < 128, UInt8.ofNat x < 0x80 ∧ (UInt8.ofNat x).toNat = x := by decide
  simp only [step, low x small, if_true]

theorem step_two {x y : Nat} (large : 2 ≤ x) (small : x < 32) (tail : y < 64)
    (rest : List UInt8) :
    step (.ofNat (x + 192) :: .ofNat (y + 128) :: rest) = .char (Char.ofNat (x * 64 + y)) rest := by
  have leading : ∀ x < 32, 2 ≤ x → ¬ UInt8.ofNat (x + 192) < 0x80 ∧
      (0xC2 ≤ UInt8.ofNat (x + 192) && UInt8.ofNat (x + 192) ≤ 0xDF) = true ∧
      (UInt8.ofNat (x + 192) &&& 0x1F).toNat = x := by decide
  obtain ⟨high, isLeading, payload⟩ := leading x small large
  simp only [step, high, isLeading, if_false, if_true, (tail_octet y tail).1, payload,
    push_tail _ tail]

theorem step_three {x y z : Nat} (small : x < 16) (overlong : x = 0 → 32 ≤ y)
    (surrogate : x = 13 → y < 32) (second : y < 64) (third : z < 64) (rest : List UInt8) :
    step (.ofNat (x + 224) :: .ofNat (y + 128) :: .ofNat (z + 128) :: rest) =
      .char (Char.ofNat ((x * 64 + y) * 64 + z)) rest := by
  have leading : ∀ x < 16, ¬ UInt8.ofNat (x + 224) < 0x80 ∧
      (0xC2 ≤ UInt8.ofNat (x + 224) && UInt8.ofNat (x + 224) ≤ 0xDF) = false ∧
      (0xE0 ≤ UInt8.ofNat (x + 224) && UInt8.ofNat (x + 224) ≤ 0xEF) = true ∧
      (UInt8.ofNat (x + 224) &&& 0x0F).toNat = x := by decide
  have follows : ∀ x < 16, ∀ y < 64, (x = 0 → 32 ≤ y) → (x = 13 → y < 32) →
      secondOfThree (.ofNat (x + 224)) (.ofNat (y + 128)) = true := by decide
  obtain ⟨high, notTwo, isLeading, payload⟩ := leading x small
  simp only [step, high, notTwo, isLeading, if_false, if_true, Bool.false_eq_true,
    follows x small y second overlong surrogate, Bool.not_true, (tail_octet z third).1, payload,
    push_tail _ second, push_tail _ third]

theorem step_four {x y z w : Nat} (small : x < 5) (overlong : x = 0 → 16 ≤ y)
    (beyond : x = 4 → y < 16) (second : y < 64) (third : z < 64) (fourth : w < 64)
    (rest : List UInt8) :
    step (.ofNat (x + 240) :: .ofNat (y + 128) :: .ofNat (z + 128) :: .ofNat (w + 128) :: rest) =
      .char (Char.ofNat (((x * 64 + y) * 64 + z) * 64 + w)) rest := by
  have leading : ∀ x < 5, ¬ UInt8.ofNat (x + 240) < 0x80 ∧
      (0xC2 ≤ UInt8.ofNat (x + 240) && UInt8.ofNat (x + 240) ≤ 0xDF) = false ∧
      (0xE0 ≤ UInt8.ofNat (x + 240) && UInt8.ofNat (x + 240) ≤ 0xEF) = false ∧
      (0xF0 ≤ UInt8.ofNat (x + 240) && UInt8.ofNat (x + 240) ≤ 0xF4) = true ∧
      (UInt8.ofNat (x + 240) &&& 0x07).toNat = x := by decide
  have follows : ∀ x < 5, ∀ y < 64, (x = 0 → 16 ≤ y) → (x = 4 → y < 16) →
      secondOfFour (.ofNat (x + 240)) (.ofNat (y + 128)) = true := by decide
  obtain ⟨high, notTwo, notThree, isLeading, payload⟩ := leading x small
  simp only [step, high, notTwo, notThree, isLeading, if_false, if_true, Bool.false_eq_true,
    follows x small y second overlong beyond, Bool.not_true, (tail_octet z third).1,
    (tail_octet w fourth).1, payload, push_tail _ second, push_tail _ third, push_tail _ fourth]

/-- The octets of a character are read as that character, whatever follows them. -/
theorem step_utf8EncodeChar (c : Char) (rest : List UInt8) :
    step (String.utf8EncodeChar c ++ rest) = .char c rest := by
  have same {n : Nat} (n_eq : n = c.toNat) : Step.char (Char.ofNat n) rest = .char c rest := by
    rw [n_eq, Char.ofNat_toNat]
  have valid : c.toNat < 0xD800 ∨ 0xDFFF < c.toNat ∧ c.toNat < 0x110000 := c.valid
  rw [utf8EncodeChar_eq]
  split
  · exact (step_one (by omega) rest).trans (same rfl)
  · split
    · exact (step_two (by omega) (by omega) (by omega) rest).trans (same (by omega))
    · split
      · exact (step_three (by omega) (by omega) (by omega) (by omega) (by omega) rest).trans
          (same (by omega))
      · exact (step_four (by omega) (by omega) (by omega) (by omega) (by omega) (by omega)
          rest).trans (same (by omega))

/-! ### Whole texts -/

theorem go_of_done {octets : List UInt8} (isDone : step octets = .done) (index : Nat)
    (before : List Char) :
    decode.go octets index before = .ok (String.ofList before.reverse) := by
  rw [decode.go]
  split
  · rfl
  all_goals
    rename_i other
    rw [isDone] at other
    cases other

theorem go_of_char {octets rest : List UInt8} {c : Char} (isChar : step octets = .char c rest)
    (index : Nat) (before : List Char) :
    decode.go octets index before = decode.go rest (index + c.utf8Size) (c :: before) := by
  rw [decode.go]
  split
  case h_2 found left other =>
    rw [isChar] at other
    cases other
    rfl
  all_goals
    rename_i other
    rw [isChar] at other
    cases other

theorem go_flatMap (chars : List Char) (index : Nat) (before : List Char) :
    decode.go (chars.flatMap String.utf8EncodeChar) index before =
      .ok (String.ofList (before.reverse ++ chars)) := by
  induction chars generalizing index before with
  | nil =>
      rw [List.append_nil]
      exact go_of_done rfl index before
  | cons c rest ih =>
      rw [List.flatMap_cons, go_of_char (step_utf8EncodeChar c _), ih, List.reverse_cons,
        List.append_assoc, List.singleton_append]

/-- The octets of a text read back as the text. -/
theorem decode_encode (text : String) : decode (encode text) = .ok text := by
  rw [decode, encode_eq, go_flatMap]
  simp

end CodeNav.Utf8
