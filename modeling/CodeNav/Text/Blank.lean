/-
Module: CodeNav.Text.Blank
Purpose: Unicode white space and the trimming of texts by it.
Main exports:
  Text.isBlank, Text.trimStart, Text.trim, Text.isBlankText
-/

namespace CodeNav.Text

/-- The closed ranges of code points with the property White_Space (25 characters). -/
def blankRanges : List (Nat × Nat) :=
  [(0x09, 0x0D), (0x20, 0x20), (0x85, 0x85), (0xA0, 0xA0), (0x1680, 0x1680), (0x2000, 0x200A),
   (0x2028, 0x2029), (0x202F, 0x202F), (0x205F, 0x205F), (0x3000, 0x3000)]

/-- Whether a character is white space. -/
def isBlank (c : Char) : Bool :=
  blankRanges.any fun (low, high) => low ≤ c.toNat && c.toNat ≤ high

/-- The characters left after dropping leading blanks. -/
def trimStartList (s : List Char) : List Char :=
  s.dropWhile isBlank

/-- The characters left after dropping trailing blanks. -/
def trimEndList (s : List Char) : List Char :=
  (s.reverse.dropWhile isBlank).reverse

/-- A text without its leading blanks. -/
def trimStart (s : String) : String :=
  String.ofList (trimStartList s.toList)

/-- A text without its leading and trailing blanks. -/
def trim (s : String) : String :=
  String.ofList (trimEndList (trimStartList s.toList))

/-- Whether a text holds blanks only. -/
def isBlankText (s : String) : Bool :=
  s.toList.all isBlank

end CodeNav.Text
