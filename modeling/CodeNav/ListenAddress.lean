/-
Module: CodeNav.ListenAddress
Purpose: Which texts are addresses that a service can listen on.
Main exports:
  ListenAddress.skipIpv4?, ListenAddress.skipIpv6?, ListenAddress.isValid
-/
import CodeNav.Decimal.Numeral

namespace CodeNav.ListenAddress

/-- What follows a number of decimal digits below `bound`. -/
def skipDecimal? (bound : Nat) (s : List Char) : Option (List Char) :=
  let digits := s.takeWhile Char.isDigit
  if digits.isEmpty || bound ≤ Decimal.ofDigits digits then none else some (s.drop digits.length)

/-- What follows a character. -/
def skipChar? (c : Char) : List Char → Option (List Char)
  | d :: rest => if c == d then some rest else none
  | [] => none

/-! ### Four octets -/

/-- What follows an octet: up to three digits without a superfluous zero in front. -/
def skipOctet? (s : List Char) : Option (List Char) :=
  let digits := s.takeWhile Char.isDigit
  if 3 < digits.length || (digits.head? == some '0' && digits.length != 1) then none
  else skipDecimal? 256 s

/-- What follows an address of four octets. -/
def skipIpv4? (s : List Char) : Option (List Char) := do
  let s ← skipOctet? s
  let s ← skipOctet? (← skipChar? '.' s)
  let s ← skipOctet? (← skipChar? '.' s)
  skipOctet? (← skipChar? '.' s)

/-! ### Eight groups -/

/-- Whether a character is a hexadecimal digit. -/
def isHexDigit (c : Char) : Bool :=
  c.isDigit || ('a' ≤ c.toLower && c.toLower ≤ 'f')

/-- What follows a group of up to four hexadecimal digits. -/
def skipGroup? (s : List Char) : Option (List Char) :=
  let digits := s.takeWhile isHexDigit
  if digits.isEmpty || 4 < digits.length then none else some (s.drop digits.length)

/-- What follows the colon that stands in front of every group but the first. -/
def skipColon? (first : Bool) (s : List Char) : Option (List Char) :=
  if first then some s else skipChar? ':' s

/-- Groups as far as they go: how many of `room` places are left, whether four octets stand for
the last two, and what follows. -/
def skipGroups : Bool → Nat → List Char → Nat × Bool × List Char
  | _, 0, s => (0, false, s)
  | first, room + 1, s =>
    let octets := if room = 0 then none else (skipColon? first s).bind skipIpv4?
    match octets with
    | some rest => (room - 1, true, rest)
    | none =>
      match (skipColon? first s).bind skipGroup? with
      | some rest => skipGroups false room rest
      | none => (room + 1, false, s)

/-- What follows an address of eight groups, some of which a double colon may stand for. -/
def skipIpv6? (s : List Char) : Option (List Char) :=
  match skipGroups true 8 s with
  | (0, _, rest) => some rest
  | (_, true, _) => none
  | (room, false, rest) => do
    let rest ← skipChar? ':' (← skipChar? ':' rest)
    return (skipGroups true (room - 1) rest).2.2

/-- What follows the number of a zone, if there is one. -/
def skipZone? : List Char → Option (List Char)
  | '%' :: s => skipDecimal? (capacity 32) s
  | s => some s

/-- What follows an address in brackets. -/
def skipBracketed? (s : List Char) : Option (List Char) := do
  let s ← skipIpv6? (← skipChar? '[' s)
  skipChar? ']' (← skipZone? s)

/-- Whether a text is an address with a port. -/
def isValid (text : String) : Bool :=
  let s := text.toList
  ((skipIpv4? s).or (skipBracketed? s)).any fun rest =>
    (skipChar? ':' rest).bind (skipDecimal? (capacity 16)) == some []

/-- The address with a port on a host. -/
def ofHost (host : String) (port : Nat) : String :=
  host ++ ":" ++ toString port

end CodeNav.ListenAddress
