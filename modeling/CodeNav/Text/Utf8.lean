/-
Module: CodeNav.Text.Utf8
Purpose: UTF-8 read octet by octet, with the place and kind of the first refusal.
Main exports:
  Utf8.Fault, Utf8.Step, Utf8.step, Utf8.decode, Utf8.decodeLossy, Utf8.encode
-/

namespace CodeNav.Utf8

/-!
A sequence is refused at the shortest stretch of octets that no valid text can begin with.
The leading octet fixes the length of a character and narrows its second octet, so that
overlong forms, surrogates and values past U+10FFFF are refused at the second octet already.
-/

/-- Why a text is not UTF-8: the octet where the refused sequence starts, and its length unless
the text merely ends inside a character. -/
structure Fault where
  index : Nat
  length : Option Nat
deriving Repr, DecidableEq

/-- The wording of a refusal. -/
def Fault.message : Fault → String
  | ⟨index, some length⟩ => s!"invalid utf-8 sequence of {length} bytes from index {index}"
  | ⟨index, none⟩ => s!"incomplete utf-8 byte sequence from index {index}"

/-- What the head of an octet sequence is. -/
inductive Step where
  | done
  | char (c : Char) (rest : List UInt8)
  /-- A refused sequence of the given length. -/
  | refused (length : Nat)
  /-- The octets end inside a character. -/
  | cut
deriving Repr

/-- A continuation octet. -/
def isTail (b : UInt8) : Bool :=
  b &&& 0xC0 == 0x80

/-- Joins the payload of a continuation octet to the bits read before it. -/
def push (bits : Nat) (b : UInt8) : Nat :=
  bits * 64 + (b &&& 0x3F).toNat

/-- The second octets that may follow the leading octet of a three-octet character. -/
def secondOfThree (a b : UInt8) : Bool :=
  if a == 0xE0 then 0xA0 ≤ b && b ≤ 0xBF
  else if a == 0xED then 0x80 ≤ b && b ≤ 0x9F
  else isTail b

/-- The second octets that may follow the leading octet of a four-octet character. -/
def secondOfFour (a b : UInt8) : Bool :=
  if a == 0xF0 then 0x90 ≤ b && b ≤ 0xBF
  else if a == 0xF4 then 0x80 ≤ b && b ≤ 0x8F
  else isTail b

/-- Reads one character off the front. -/
def step : List UInt8 → Step
  | [] => .done
  | a :: s =>
    if a < 0x80 then .char (Char.ofNat a.toNat) s
    else if 0xC2 ≤ a && a ≤ 0xDF then
      match s with
      | [] => .cut
      | b :: s =>
        if isTail b then .char (Char.ofNat (push (a &&& 0x1F).toNat b)) s else .refused 1
    else if 0xE0 ≤ a && a ≤ 0xEF then
      match s with
      | [] => .cut
      | b :: s =>
        if !secondOfThree a b then .refused 1 else
        match s with
        | [] => .cut
        | c :: s =>
          if isTail c then .char (Char.ofNat (push (push (a &&& 0x0F).toNat b) c)) s
          else .refused 2
    else if 0xF0 ≤ a && a ≤ 0xF4 then
      match s with
      | [] => .cut
      | b :: s =>
        if !secondOfFour a b then .refused 1 else
        match s with
        | [] => .cut
        | c :: s =>
          if !isTail c then .refused 2 else
          match s with
          | [] => .cut
          | d :: s =>
            if isTail d then .char (Char.ofNat (push (push (push (a &&& 0x07).toNat b) c) d)) s
            else .refused 3
    else .refused 1

/-- A character read off the front leaves fewer octets. -/
theorem length_of_step {s rest : List UInt8} {c : Char} (h : step s = .char c rest) :
    rest.length < s.length := by
  unfold step at h
  repeat' split at h
  all_goals first
    | (simp only [Step.char.injEq] at h; obtain ⟨-, rfl⟩ := h; simp only [List.length_cons]; omega)
    | simp at h

/-- The text written by the octets, or the first refusal in them. -/
def decode (octets : List UInt8) : Except Fault String :=
  go octets 0 []
where
  /-- Reads on from octet `index`, with the characters read so far in reverse. -/
  go (octets : List UInt8) (index : Nat) (read : List Char) : Except Fault String :=
    match h : step octets with
    | .done => .ok (String.ofList read.reverse)
    | .char c rest =>
      have := length_of_step h
      go rest (index + c.utf8Size) (c :: read)
    | .refused length => .error ⟨index, some length⟩
    | .cut => .error ⟨index, none⟩
  termination_by octets.length

/-- The character that stands in for a refused sequence. -/
def replacement : Char := '\ufffd'

/-- The text written by the octets, with one replacement character for each refused sequence. -/
def decodeLossy (octets : List UInt8) : String :=
  go octets []
where
  /-- Reads on, with the characters read so far in reverse. -/
  go (octets : List UInt8) (read : List Char) : String :=
    match h : step octets with
    | .done => String.ofList read.reverse
    | .char c rest =>
      have := length_of_step h
      go rest (c :: read)
    | .refused length =>
      match octets with
      | [] => String.ofList read.reverse
      | _ :: rest => go (rest.drop (length - 1)) (replacement :: read)
    | .cut => String.ofList (replacement :: read).reverse
  termination_by octets.length
  decreasing_by
    · exact this
    · simp only [List.length_cons, List.length_drop]
      omega

/-- The octets of a text. -/
def encode (text : String) : List UInt8 :=
  text.toUTF8.toList

end CodeNav.Utf8
