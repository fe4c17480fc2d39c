/-
Module: CodeNav.Proofs.Text.Order
Purpose: Texts stand in the order of their octets.
Main exports:
  Utf8.encode_lt_encode
-/
import CodeNav.Proofs.Text.Utf8
import Mathlib.Data.String.Basic

namespace CodeNav.Utf8

open String (utf8EncodeChar)

theorem ofNat_lt_ofNat {x y : Nat} (first : x < 256) (second : y < 256) :
    UInt8.ofNat x < UInt8.ofNat y ↔ x < y := by
  rw [UInt8.lt_iff_toNat_lt, UInt8.toNat_ofNat_of_lt' first, UInt8.toNat_ofNat_of_lt' second]

theorem ofNat_eq_ofNat {x y : Nat} (first : x < 256) (second : y < 256) :
    UInt8.ofNat x = UInt8.ofNat y ↔ x = y := by
  rw [← UInt8.toNat_inj, UInt8.toNat_ofNat_of_lt' first, UInt8.toNat_ofNat_of_lt' second]

/-- The octets of a character come before those of a later one, whatever follows either. -/
theorem utf8EncodeChar_append_lt {c d : Char} (before : c < d) (after others : List UInt8) :
    utf8EncodeChar c ++ after < utf8EncodeChar d ++ others := by
  have before : c.toNat < d.toNat := UInt32.lt_iff_toNat_lt.mp (Char.lt_def.mp before)
  have valid : d.toNat < 0x110000 := by
    have := d.valid
    unfold UInt32.isValidChar Nat.isValidChar at this
    change d.val.toNat < _
    omega
  rw [utf8EncodeChar_eq, utf8EncodeChar_eq]
  generalize c.toNat = m at before
  generalize d.toNat = n at before valid
  have leading (k : Nat) (valid : k < 0x110000) : k / 262144 % 8 = k / 262144 :=
    Nat.mod_eq_of_lt (by omega)
  split_ifs <;>
    simp (disch := omega) only [List.cons_append, List.nil_append, List.cons_lt_cons_iff,
      ofNat_lt_ofNat, ofNat_eq_ofNat, leading] <;>
    omega

/-- Encoding keeps the order of texts, which is that of their characters. -/
theorem flatMap_lt_flatMap {cs ds : List Char} (before : cs < ds) :
    cs.flatMap utf8EncodeChar < ds.flatMap utf8EncodeChar := by
  induction cs generalizing ds with
  | nil =>
      cases ds with
      | nil => exact absurd before (List.lt_irrefl [])
      | cons d ds =>
          rw [List.flatMap_cons]
          cases encoded : utf8EncodeChar d with
          | nil => exact absurd encoded (by simp [utf8EncodeChar_eq]; split_ifs <;> simp)
          | cons b rest => exact List.nil_lt_cons _ _
  | cons c cs ih =>
      cases ds with
      | nil => exact absurd before (List.not_lt_nil _)
      | cons d ds =>
          rw [List.flatMap_cons, List.flatMap_cons]
          rcases List.cons_lt_cons_iff.mp before with first | ⟨rfl, rest⟩
          · exact utf8EncodeChar_append_lt first _ _
          · exact List.append_left_lt (ih rest)

/-- One text comes before another exactly if its octets do. -/
theorem encode_lt_encode {s t : String} : encode s < encode t ↔ s < t := by
  have keeps {s t : String} (before : s < t) : encode s < encode t := by
    rw [encode_eq, encode_eq]
    exact flatMap_lt_flatMap (String.lt_iff.mp before)
  refine ⟨fun before => ?_, keeps⟩
  rcases lt_trichotomy s t with less | rfl | greater
  · exact less
  · exact absurd before (List.lt_irrefl _)
  · exact absurd (keeps greater) (List.lt_asymm before)

end CodeNav.Utf8
