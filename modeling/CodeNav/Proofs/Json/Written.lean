/-
Module: CodeNav.Proofs.Json.Written
Purpose: Texts that write a tree, with blanks wherever they may stand, are read as the tree.
Main exports:
  Json.octets, Json.Spaces, Json.Node.WrittenAs, Json.readNode_written, Json.read_written
-/
import CodeNav.Proofs.Json.Numerals
import CodeNav.Proofs.Json.Strings

namespace CodeNav.Json

open String (utf8EncodeChar)

/-! ### Characters as octets -/

/-- The octets of some characters. -/
def octets (text : List Char) : List UInt8 :=
  text.flatMap utf8EncodeChar

theorem octets_append (first second : List Char) :
    octets (first ++ second) = octets first ++ octets second :=
  List.flatMap_append

theorem octets_cons {c : Char} {b : UInt8} (octet : utf8EncodeChar c = [b]) (text : List Char) :
    octets (c :: text) = b :: octets text := by
  rw [octets, List.flatMap_cons, octet]
  rfl

theorem octets_comma (text : List Char) : octets (',' :: text) = 0x2C :: octets text :=
  octets_cons rfl text

theorem octets_colon (text : List Char) : octets (':' :: text) = 0x3A :: octets text :=
  octets_cons rfl text

theorem octets_quote (text : List Char) : octets ('"' :: text) = 0x22 :: octets text :=
  octets_cons rfl text

/-- The octets of what stands between two marks. -/
theorem octets_between (a b : UInt8) {first last : Char} (opens : utf8EncodeChar first = [a])
    (closes : utf8EncodeChar last = [b]) (body : List Char) :
    octets (first :: (body ++ [last])) = a :: (octets body ++ [b]) := by
  rw [octets_cons opens, octets_append, octets_cons closes]
  rfl

/-- Blanks between tokens. -/
def Spaces (text : List Char) : Prop :=
  ∀ c ∈ text, c = ' ' ∨ c = '\t' ∨ c = '\n' ∨ c = '\r'

theorem spaces_nil : Spaces [] :=
  nofun

theorem Spaces.isSpace {before : List Char} (spaces : Spaces before) :
    ∀ b ∈ octets before, isSpace b = true := by
  intro b listed
  obtain ⟨c, member, among⟩ := List.mem_flatMap.mp listed
  have one {d : UInt8} (octet : utf8EncodeChar c = [d]) : b = d := by
    rw [octet] at among
    exact List.mem_singleton.mp among
  rcases spaces c member with rfl | rfl | rfl | rfl
  · rw [one (d := 0x20) rfl]
    rfl
  · rw [one (d := 0x09) rfl]
    rfl
  · rw [one (d := 0x0A) rfl]
    rfl
  · rw [one (d := 0x0D) rfl]
    rfl

theorem skipSpace_spaces {before : List Char} (spaces : Spaces before) (s : List UInt8) :
    skipSpace (octets before ++ s) = skipSpace s :=
  List.dropWhile_append_of_pos spaces.isSpace

theorem skipSpace_cons {b : UInt8} {rest : List UInt8} (solid : isSpace b = false) :
    skipSpace (b :: rest) = b :: rest := by
  simp [skipSpace, solid]

/-! ### Texts of trees -/

/-- The characters between quotes are those of a key or text. -/
def Quotes (text : Except Cause String) (body : List Char) : Prop :=
  readString (octets body ++ [0x22]) = .ok (text, [])

namespace Node

mutual

/-- A text writes a tree, with blanks wherever they may stand inside. Numerals and strings are
written in any way that is read as the number or text. -/
def WrittenAs : Node → List Char → Prop
  | .null, text => text = ['n', 'u', 'l', 'l']
  | .bool true, text => text = ['t', 'r', 'u', 'e']
  | .bool false, text => text = ['f', 'a', 'l', 's', 'e']
  | .number n, text => ∃ numeral, Numeral.scan (octets text) = .ok (numeral, []) ∧
      numeral.value = n
  | .string s, text => ∃ body, Quotes s body ∧ text = '"' :: (body ++ ['"'])
  | .list items none, text => ∃ body, ItemsWrittenAs items body ∧ text = '[' :: (body ++ [']'])
  | .record members none, text => ∃ body, MembersWrittenAs members body ∧
      text = '\x7b' :: (body ++ ['\x7d'])
  | _, _ => False

/-- A text writes the items between the brackets of a list. -/
def ItemsWrittenAs : List Node → List Char → Prop
  | [], body => Spaces body
  | [item], body => ∃ before own after, Spaces before ∧ item.WrittenAs own ∧ Spaces after ∧
      body = before ++ (own ++ after)
  | item :: next :: rest, body => ∃ before own after more, Spaces before ∧ item.WrittenAs own ∧
      Spaces after ∧ ItemsWrittenAs (next :: rest) more ∧
      body = before ++ (own ++ (after ++ ',' :: more))

/-- A text writes the members between the braces of a record. -/
def MembersWrittenAs : List (Except Cause String × Node) → List Char → Prop
  | [], body => Spaces body
  | [(key, item)], body => ∃ before name between ahead own after, Spaces before ∧
      Quotes key name ∧ Spaces between ∧ Spaces ahead ∧ item.WrittenAs own ∧ Spaces after ∧
      body = before ++ '"' :: (name ++ '"' :: (between ++ ':' :: (ahead ++ (own ++ after))))
  | (key, item) :: next :: rest, body => ∃ before name between ahead own after more,
      Spaces before ∧ Quotes key name ∧ Spaces between ∧ Spaces ahead ∧ item.WrittenAs own ∧
      Spaces after ∧ MembersWrittenAs (next :: rest) more ∧
      body = before ++
        '"' :: (name ++ '"' :: (between ++ ':' :: (ahead ++ (own ++ (after ++ ',' :: more)))))

end

end Node

/-! ### What stands first, and what follows -/

/-- An octet that starts a numeral starts nothing else. -/
theorem starts_numeral {b : UInt8} (starts : (b == 0x2D || (Numeral.digit? b).isSome) = true) :
    isSpace b = false ∧ b ∉ [0x22, 0x5B, 0x5D, 0x66, 0x6E, 0x74, 0x7B] := by
  have all : ∀ n < 256, (UInt8.ofNat n == 0x2D || (Numeral.digit? (.ofNat n)).isSome) = true →
      isSpace (.ofNat n) = false ∧
        UInt8.ofNat n ∉ [0x22, 0x5B, 0x5D, 0x66, 0x6E, 0x74, 0x7B] := by
    decide +kernel
  have known := all b.toNat b.toNat_lt
  rw [UInt8.ofNat_toNat] at known
  exact known starts

/-- The text of a tree starts with an octet that is no blank and closes no array. -/
theorem Node.WrittenAs.head {node : Node} {text : List Char} (written : node.WrittenAs text) :
    ∃ b rest, octets text = b :: rest ∧ isSpace b = false ∧ b ≠ 0x5D := by
  unfold Node.WrittenAs at written
  split at written
  · subst written
    exact ⟨_, _, octets_cons rfl _, rfl, by decide⟩
  · subst written
    exact ⟨_, _, octets_cons rfl _, rfl, by decide⟩
  · subst written
    exact ⟨_, _, octets_cons rfl _, rfl, by decide⟩
  · obtain ⟨numeral, scanned, _⟩ := written
    obtain ⟨b, rest, same, starts⟩ := Numeral.head_of_scan scanned
    obtain ⟨solid, other⟩ := starts_numeral starts
    exact ⟨b, rest, same, solid, fun bracket => other (by simp [bracket])⟩
  · obtain ⟨body, _, rfl⟩ := written
    exact ⟨_, _, octets_cons rfl _, rfl, by decide⟩
  · obtain ⟨body, _, rfl⟩ := written
    exact ⟨_, _, octets_cons rfl _, rfl, by decide⟩
  · obtain ⟨body, _, rfl⟩ := written
    exact ⟨_, _, octets_cons rfl _, rfl, by decide⟩
  · exact written.elim

/-- No numeral goes on with blanks, or with what may stand behind them. -/
theorem endsNumber_spaces {after : List Char} (spaces : Spaces after) {b : UInt8}
    {rest : List UInt8} (ends : b = 0x2C ∨ b = 0x5D ∨ b = 0x7D) :
    EndsNumber (octets after ++ b :: rest) := by
  intro first leads
  cases same : octets after with
  | nil =>
      rw [same] at leads
      cases leads
      exact ends.imp_right (Or.imp_right Or.inl)
  | cons c more =>
      rw [same] at leads
      cases leads
      exact .inr (.inr (.inr (spaces.isSpace first (same ▸ List.mem_cons_self))))

theorem readNode_spaces {before : List Char} (spaces : Spaces before) (fuel : Nat)
    (s : List UInt8) : readNode fuel (octets before ++ s) = readNode fuel s := by
  cases fuel with
  | zero => rfl
  | succ fuel => rw [readNode, readNode, skipSpace_spaces spaces]

theorem exists_fuel {length fuel : Nat} (enough : 4 * (length + 1) ≤ fuel) :
    ∃ more, fuel = more + 4 ∧ 4 * length ≤ more :=
  ⟨fuel - 4, by omega, by omega⟩

/-- A list whose first item is no closing bracket is read item by item. -/
theorem readFirstItem_solid {b : UInt8} {s rest : List UInt8} (first : skipSpace s = b :: rest)
    (opens : b ≠ 0x5D) (fuel : Nat) :
    readFirstItem (fuel + 1) s = readItem fuel [] (skipSpace s) := by
  rw [readFirstItem, first]
  split
  · cases ‹b :: rest = []›
  · rename_i same
    cases same
    exact absurd rfl opens
  · rfl

/-- Behind a comma the next item of a list is read. -/
theorem readNextItem_comma {b : UInt8} {s rest : List UInt8} (first : skipSpace s = b :: rest)
    (opens : b ≠ 0x5D) (fuel : Nat) (items : List Node) :
    readNextItem (fuel + 1) items (0x2C :: s) = readItem fuel items (skipSpace s) := by
  have bracket : ((0x2C : UInt8) == 0x5D) = false := rfl
  have comma : ((0x2C : UInt8) != 0x2C) = false := rfl
  simp only [readNextItem, bracket, comma, Bool.false_eq_true, if_false, first]
  split
  · cases ‹b :: rest = []›
  · rename_i same
    cases same
    exact absurd rfl opens
  · rfl

/-- What an item of a list starts with, blanks apart. -/
theorem skipSpace_items {item : Node} {items : List Node} {body : List Char}
    (written : Node.ItemsWrittenAs (item :: items) body) (s : List UInt8) :
    ∃ b rest, skipSpace (octets body ++ s) = b :: rest ∧ b ≠ 0x5D := by
  have starts {before own : List Char} (spaces : Spaces before) (head : item.WrittenAs own)
      (more : List UInt8) :
      ∃ b rest, skipSpace (octets before ++ (octets own ++ more)) = b :: rest ∧ b ≠ 0x5D := by
    obtain ⟨b, rest, same, solid, opens⟩ := head.head
    refine ⟨b, rest ++ more, ?_, opens⟩
    rw [skipSpace_spaces spaces, same, List.cons_append, skipSpace_cons solid]
  cases items with
  | nil =>
      obtain ⟨before, own, after, spaces, head, _, rfl⟩ := written
      simpa only [octets_append, List.append_assoc] using starts spaces head (octets after ++ s)
  | cons next rest =>
      obtain ⟨before, own, after, more, spaces, head, _, _, rfl⟩ := written
      simpa only [octets_append, List.append_assoc] using
        starts spaces head (octets (after ++ ',' :: more) ++ s)

/-! ### Reading -/

/-- An item is read, and then what follows it. -/
theorem readItem_step {item : Node} {before own : List Char} {fuel : Nat} {rest : List UInt8}
    (spaces : Spaces before) (written : item.WrittenAs own)
    (read : readNode fuel (octets own ++ rest) = ⟨item, some rest⟩) (done : List Node) :
    readItem (fuel + 1) done (skipSpace (octets before ++ (octets own ++ rest))) =
      readNextItem fuel (item :: done) (skipSpace rest) := by
  obtain ⟨b, more, first, solid, _⟩ := written.head
  have stays : skipSpace (octets own ++ rest) = octets own ++ rest := by
    rw [first, List.cons_append, skipSpace_cons solid]
  rw [skipSpace_spaces spaces, stays, readItem, read]

/-- A member whose key has been opened is read, and then what follows it. -/
theorem readMember_step {key : Except Cause String} {item : Node}
    {name between ahead own : List Char} {fuel : Nat} {rest : List UInt8}
    (quotes : Quotes key name) (gap : Spaces between) (wait : Spaces ahead)
    (read : readNode fuel (octets own ++ rest) = ⟨item, some rest⟩)
    (done : List (Except Cause String × Node)) :
    readMember (fuel + 1) done (octets name ++
        0x22 :: (octets between ++ 0x3A :: (octets ahead ++ (octets own ++ rest)))) =
      readNextMember fuel ((key, item) :: done) (skipSpace rest) := by
  have opened := readString_append quotes
    (octets between ++ 0x3A :: (octets ahead ++ (octets own ++ rest)))
  rw [List.append_assoc, List.singleton_append] at opened
  rw [readMember, opened]
  simp only [List.nil_append, skipSpace_spaces gap,
    skipSpace_cons (show isSpace 0x3A = false from rfl), readNode_spaces wait, read]

/-- Behind a comma the next member of a record is read. -/
theorem readNextMember_comma {s opened : List UInt8} (first : skipSpace s = 0x22 :: opened)
    (fuel : Nat) (members : List (Except Cause String × Node)) :
    readNextMember (fuel + 1) members (0x2C :: s) = readMember fuel members opened := by
  have brace : ((0x2C : UInt8) == 0x7D) = false := rfl
  have comma : ((0x2C : UInt8) != 0x2C) = false := rfl
  simp only [readNextMember, brace, comma, Bool.false_eq_true, if_false, first]

mutual

/-- A text that writes a tree is read as the tree, if there is fuel for its octets. -/
theorem readNode_written : ∀ (node : Node) (text : List Char), node.WrittenAs text →
    ∀ (fuel : Nat) (rest : List UInt8), 4 * (octets text).length ≤ fuel → EndsNumber rest →
      readNode fuel (octets text ++ rest) = ⟨node, some rest⟩
  | .null, text, written, fuel, rest, enough, _ => by
    obtain rfl : text = _ := written
    obtain ⟨fuel, rfl, _⟩ := exists_fuel enough
    rfl
  | .bool true, text, written, fuel, rest, enough, _ => by
    obtain rfl : text = _ := written
    obtain ⟨fuel, rfl, _⟩ := exists_fuel enough
    rfl
  | .bool false, text, written, fuel, rest, enough, _ => by
    obtain rfl : text = _ := written
    obtain ⟨fuel, rfl, _⟩ := exists_fuel enough
    rfl
  | .number n, text, written, fuel, rest, enough, ends => by
    obtain ⟨numeral, scanned, rfl⟩ := written
    obtain ⟨b, after, octets, starts⟩ := Numeral.head_of_scan scanned
    obtain ⟨solid, other⟩ := starts_numeral starts
    have whole := Numeral.scan_append scanned ends
    rw [octets] at enough whole ⊢
    obtain ⟨fuel, rfl, _⟩ := exists_fuel enough
    simp only [List.mem_cons, List.not_mem_nil, or_false, not_or] at other
    rw [List.cons_append] at whole ⊢
    rw [readNode, skipSpace_cons solid]
    simp only [beq_iff_eq, other, if_false]
    rw [if_pos starts, whole]
    rfl
  | .string s, text, written, fuel, rest, enough, _ => by
    obtain ⟨body, quotes, rfl⟩ := written
    have whole := readString_append quotes rest
    rw [octets_between 0x22 0x22 rfl rfl] at enough ⊢
    obtain ⟨fuel, rfl, _⟩ := exists_fuel enough
    rw [readNode, List.cons_append, skipSpace_cons rfl]
    simp only [List.append_assoc] at whole ⊢
    change (match readString (octets body ++ ([0x22] ++ rest)) with
      | .ok (text, s) => (⟨.string text, some s⟩ : Step Node)
      | .error fault => ⟨.fault fault, none⟩) = _
    rw [whole]
    rfl
  | .list [] none, text, written, fuel, rest, enough, _ => by
    obtain ⟨body, spaces, rfl⟩ := written
    rw [octets_between 0x5B 0x5D rfl rfl] at enough ⊢
    obtain ⟨fuel, rfl, _⟩ := exists_fuel enough
    rw [readNode, List.cons_append, skipSpace_cons rfl, List.append_assoc]
    change readFirstItem (fuel + 2 + 1) _ = _
    rw [readFirstItem, skipSpace_spaces spaces]
    rfl
  | .list (item :: items) none, text, written, fuel, rest, enough, _ => by
    obtain ⟨body, written, rfl⟩ := written
    rw [octets_between 0x5B 0x5D rfl rfl] at enough ⊢
    obtain ⟨fuel, rfl, left⟩ := exists_fuel enough
    rw [List.length_append] at left
    have read := readItem_written item items body written (fuel + 2) [] rest (by omega)
    obtain ⟨b, more, first, opens⟩ := skipSpace_items written (0x5D :: rest)
    rw [readNode, List.cons_append, skipSpace_cons rfl, List.append_assoc]
    change readFirstItem (fuel + 2 + 1) (octets body ++ 0x5D :: rest) = _
    rw [readFirstItem_solid first opens, read]
    rfl
  | .record [] none, text, written, fuel, rest, enough, _ => by
    obtain ⟨body, spaces, rfl⟩ := written
    rw [octets_between 0x7B 0x7D rfl rfl] at enough ⊢
    obtain ⟨fuel, rfl, _⟩ := exists_fuel enough
    rw [readNode, List.cons_append, skipSpace_cons rfl, List.append_assoc]
    change readFirstMember (fuel + 2 + 1) _ = _
    rw [readFirstMember, skipSpace_spaces spaces]
    rfl
  | .record ((key, item) :: members) none, text, written, fuel, rest, enough, _ => by
    obtain ⟨body, written, rfl⟩ := written
    rw [octets_between 0x7B 0x7D rfl rfl] at enough ⊢
    obtain ⟨fuel, rfl, left⟩ := exists_fuel enough
    rw [List.length_append] at left
    obtain ⟨opened, first, read⟩ :=
      readMember_written key item members body written (fuel + 2) [] rest (by omega)
    rw [readNode, List.cons_append, skipSpace_cons rfl, List.append_assoc]
    change readFirstMember (fuel + 2 + 1) (octets body ++ 0x7D :: rest) = _
    rw [readFirstMember, first]
    exact read
  | .list _ (some _), _, written, _, _, _, _ => by
    simp only [Node.WrittenAs] at written
  | .record _ (some _), _, written, _, _, _, _ => by
    simp only [Node.WrittenAs] at written
  | .fault _, _, written, _, _, _, _ => by
    simp only [Node.WrittenAs] at written
termination_by node => sizeOf node

/-- Written items are read up to the end of the list. -/
theorem readItem_written : ∀ (item : Node) (items : List Node) (body : List Char),
    Node.ItemsWrittenAs (item :: items) body →
      ∀ (fuel : Nat) (done : List Node) (rest : List UInt8), 4 * (octets body).length + 2 ≤ fuel →
        readItem fuel done (skipSpace (octets body ++ 0x5D :: rest)) =
          ⟨.list (done.reverse ++ item :: items) none, some rest⟩
  | item, [], body, written, fuel, done, rest, enough => by
    obtain ⟨before, own, after, spaces, head, last, rfl⟩ := written
    simp only [octets_append, List.length_append] at enough
    obtain ⟨fuel, rfl⟩ : ∃ more, fuel = more + 2 := ⟨fuel - 2, by omega⟩
    have ends : EndsNumber (octets after ++ 0x5D :: rest) :=
      endsNumber_spaces last (.inr (.inl rfl))
    have read := readNode_written item own head (fuel + 1) _ (by omega) ends
    simp only [octets_append, List.append_assoc]
    rw [readItem_step spaces head read, skipSpace_spaces last, skipSpace_cons rfl]
    simp [readNextItem]
  | item, next :: items, body, written, fuel, done, rest, enough => by
    obtain ⟨before, own, after, more, spaces, head, last, written, rfl⟩ := written
    simp only [octets_append, octets_comma, List.length_append,
      List.length_cons] at enough
    obtain ⟨fuel, rfl⟩ : ∃ more, fuel = more + 2 := ⟨fuel - 2, by omega⟩
    have ends : EndsNumber (octets after ++ 0x2C :: (octets more ++ 0x5D :: rest)) :=
      endsNumber_spaces last (.inl rfl)
    have read := readNode_written item own head (fuel + 1) _ (by omega) ends
    have readMore := readItem_written next items more written fuel (item :: done) rest (by omega)
    obtain ⟨b, left, first, opens⟩ := skipSpace_items written (0x5D :: rest)
    simp only [octets_append, octets_comma, List.append_assoc, List.cons_append]
    rw [readItem_step spaces head read, skipSpace_spaces last, skipSpace_cons rfl,
      readNextItem_comma first opens, readMore]
    simp
termination_by item items => sizeOf item + sizeOf items + 1

/-- Written members are read up to the end of the record. -/
theorem readMember_written : ∀ (key : Except Cause String) (item : Node)
    (members : List (Except Cause String × Node)) (body : List Char),
    Node.MembersWrittenAs ((key, item) :: members) body →
      ∀ (fuel : Nat) (done : List (Except Cause String × Node)) (rest : List UInt8),
        4 * (octets body).length + 2 ≤ fuel →
        ∃ opened, skipSpace (octets body ++ 0x7D :: rest) = 0x22 :: opened ∧
          readMember fuel done opened =
            ⟨.record (done.reverse ++ (key, item) :: members) none, some rest⟩
  | key, item, [], body, written, fuel, done, rest, enough => by
    obtain ⟨before, name, between, ahead, own, after, spaces, quotes, gap, wait, head, last,
      rfl⟩ := written
    simp only [octets_append, octets_quote, octets_colon, List.length_append,
      List.length_cons] at enough
    obtain ⟨fuel, rfl⟩ : ∃ more, fuel = more + 2 := ⟨fuel - 2, by omega⟩
    have ends : EndsNumber (octets after ++ 0x7D :: rest) :=
      endsNumber_spaces last (.inr (.inr rfl))
    have read := readNode_written item own head (fuel + 1) _ (by omega) ends
    simp only [octets_append, octets_quote, octets_colon, List.append_assoc, List.cons_append]
    refine ⟨_, (skipSpace_spaces spaces _).trans (skipSpace_cons rfl), ?_⟩
    rw [readMember_step quotes gap wait read, skipSpace_spaces last, skipSpace_cons rfl]
    simp [readNextMember]
  | key, item, (name, next) :: members, body, written, fuel, done, rest, enough => by
    obtain ⟨before, quoted, between, ahead, own, after, more, spaces, quotes, gap, wait, head, last,
      written, rfl⟩ := written
    simp only [octets_append, octets_quote, octets_colon, octets_comma, List.length_append,
      List.length_cons] at enough
    obtain ⟨fuel, rfl⟩ : ∃ more, fuel = more + 2 := ⟨fuel - 2, by omega⟩
    have ends : EndsNumber (octets after ++ 0x2C :: (octets more ++ 0x7D :: rest)) :=
      endsNumber_spaces last (.inl rfl)
    have read := readNode_written item own head (fuel + 1) _ (by omega) ends
    obtain ⟨opened, first, readMore⟩ :=
      readMember_written name next members more written fuel ((key, item) :: done) rest (by omega)
    simp only [octets_append, octets_quote, octets_colon, octets_comma, List.append_assoc,
      List.cons_append]
    refine ⟨_, (skipSpace_spaces spaces _).trans (skipSpace_cons rfl), ?_⟩
    rw [readMember_step quotes gap wait read, skipSpace_spaces last, skipSpace_cons rfl,
      readNextMember_comma first, readMore]
    simp
termination_by _ item members => sizeOf item + sizeOf members + 1

end

/-- A text with nothing but blanks around what writes a tree is read as the tree. -/
theorem read_written {node : Node} {before text after : List Char} (spaces : Spaces before)
    (written : node.WrittenAs text) (last : Spaces after) :
    read (octets (before ++ (text ++ after))) = ⟨node, false⟩ := by
  have ends : EndsNumber (octets after) := fun b leads =>
    .inr (.inr (.inr (last.isSpace b (List.mem_of_head? leads))))
  have whole := readNode_written node text written
    (4 * (octets (before ++ (text ++ after))).length + 4) (octets after)
    (by simp only [octets_append, List.length_append]; omega) ends
  have blank : skipSpace (octets after) = [] := by
    have skipped := skipSpace_spaces last []
    rwa [List.append_nil] at skipped
  rw [read]
  generalize 4 * (octets (before ++ (text ++ after))).length + 4 = fuel at whole ⊢
  rw [octets_append, octets_append, readNode_spaces spaces, whole]
  simp [blank]

end CodeNav.Json
