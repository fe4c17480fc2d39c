/-
Module: CodeNav.Text.Percent
Purpose: Percent encoding of file names and decoding of query strings.
Main exports:
  Text.percentEncode, Text.formDecode, Text.formPairs
-/
import CodeNav.Text.Utf8

namespace CodeNav.Text

/-- The octets that stand for themselves in file names: letters, digits and `- _ . ! ~ * ' ( )`. -/
def isUnreserved (b : UInt8) : Bool :=
  (0x30 ≤ b && b ≤ 0x39) || (0x41 ≤ b && b ≤ 0x5A) || (0x61 ≤ b && b ≤ 0x7A)
    || [0x2D, 0x5F, 0x2E, 0x21, 0x7E, 0x2A, 0x27, 0x28, 0x29].contains b

/-- An upper-case hexadecimal digit. -/
def upperHexDigit (n : Nat) : Char :=
  (Nat.digitChar n).toUpper

/-- The characters that stand for one octet in a file name. -/
def percentChars (b : UInt8) : List Char :=
  if isUnreserved b then [Char.ofNat b.toNat]
  else ['%', upperHexDigit (b.toNat / 16), upperHexDigit (b.toNat % 16)]

/-- A text as part of a file name. -/
def percentEncode (s : String) : String :=
  String.ofList ((Utf8.encode s).flatMap percentChars)

/-- The value of a hexadecimal digit octet. -/
def hexValue? (b : UInt8) : Option Nat :=
  if 0x30 ≤ b && b ≤ 0x39 then some (b.toNat - 0x30)
  else if 0x41 ≤ b && b ≤ 0x46 then some (b.toNat - 0x37)
  else if 0x61 ≤ b && b ≤ 0x66 then some (b.toNat - 0x57)
  else none

/-- The octets written by a form field: a plus sign is a blank, a percent sign with two digits an
octet, and all else stands for itself. -/
def formOctets : List UInt8 → List UInt8
  | [] => []
  | 0x2B :: s => 0x20 :: formOctets s
  | 0x25 :: high :: low :: s =>
    match hexValue? high, hexValue? low with
    | some h, some l => UInt8.ofNat (16 * h + l) :: formOctets s
    | _, _ => 0x25 :: formOctets (high :: low :: s)
  | b :: s => b :: formOctets s

/-- The text written by a form field. -/
def formDecode (octets : List UInt8) : String :=
  Utf8.decodeLossy (formOctets octets)

/-- Splits octets at each separator. -/
def splitOctets (separator : UInt8) : List UInt8 → List (List UInt8)
  | [] => [[]]
  | b :: rest =>
    if b == separator then [] :: splitOctets separator rest
    else
      match splitOctets separator rest with
      | [] => [[b]]
      | part :: parts => (b :: part) :: parts

/-- The name and the value of a form field; a field without an equals sign has the empty value. -/
def formPair (field : List UInt8) : String × String :=
  (formDecode (field.takeWhile (· != 0x3D)), formDecode ((field.dropWhile (· != 0x3D)).drop 1))

/-- The fields of a query string in order. -/
def formPairs (query : String) : List (String × String) :=
  ((splitOctets 0x26 (Utf8.encode query)).filter (!·.isEmpty)).map formPair

end CodeNav.Text
