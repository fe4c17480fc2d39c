/-
Module: CodeNav.Proofs.Dump.Layouts
Purpose: The graph of a dump depends on what its objects state, not on how they are laid out.
Main exports:
  Dump.Lines, Dump.Listed, Dump.Carries, Dump.Presents, Dump.ofObjects?, Dump.parse_presented,
  Dump.same_graph_of_reworded
-/
import CodeNav.Dump.Basic
import CodeNav.Proofs.Dump.Restated
import CodeNav.Proofs.Gzip.Stored
import CodeNav.Proofs.Json.Texts

namespace CodeNav

open Json (Decoder Node Spaces Value)

/-! ### Layouts -/

namespace Dump

/-- Blanks within a line. -/
def Blanks (text : List Char) : Prop :=
  ∀ c ∈ text, Text.isBlank c = true ∧ c ≠ '\n'

instance (text : List Char) : Decidable (Blanks text) :=
  List.decidableBAll _ text

/-- A line holds no object if it is blank, or one object with blanks around it. -/
inductive Line : List Node → List Char → Prop
  | blank {line : List Char} : Blanks line → Line [] line
  | object {members : List (Except Json.Cause String × Node)} {before text after : List Char} :
      Blanks before → (Node.record members none).WrittenAs text → '\n' ∉ text → Blanks after →
      Line [.record members none] (before ++ (text ++ after))

/-- A text holds objects line by line. A carriage return before the end of a line is a blank. -/
inductive Lines : List Node → List Char → Prop
  | last {objects : List Node} {line : List Char} : Line objects line → Lines objects line
  | more {objects rest : List Node} {line text : List Char} : Line objects line →
      Lines rest text → Lines (objects ++ rest) (line ++ '\n' :: text)

/-- A text holds objects as the items of one array. -/
def Listed (objects : List Node) (text : List Char) : Prop :=
  ∃ before array after, Spaces before ∧ (Node.list objects none).WrittenAs array ∧
    Spaces after ∧ text = before ++ (array ++ after)

/-- Octets carry content as it is, or compressed and within the limit. -/
def Carries (limit : Option Nat) (content octets : List UInt8) : Prop :=
  octets = content ∨
    Gzip.isGzip octets = true ∧ Gzip.decompress limit octets = .ok (.content content)

/-- Octets present objects in one of the layouts, compressed or not. -/
def Presents (limit : Option Nat) (objects : List Node) (octets : List UInt8) : Prop :=
  ∃ text, (Lines objects text ∨ Listed objects text) ∧ Carries limit (Json.octets text) octets

/-! ### Lines -/

theorem lines_go_append {line : List Char} (oneLine : '\n' ∉ line) (under : List Char)
    (done : List (List Char)) (text : List Char) :
    lines.go under done (line ++ text) = lines.go (line.reverse ++ under) done text := by
  induction line generalizing under with
  | nil => rfl
  | cons c line ih =>
      obtain ⟨other, oneLine⟩ := not_or.mp (mt List.mem_cons.mpr oneLine)
      have same : (c == '\n') = false := beq_false_of_ne (Ne.symm other)
      rw [List.cons_append, lines.go, same, if_neg (by decide), ih oneLine, List.reverse_cons,
        List.append_assoc, List.singleton_append]

theorem lines_go_done (done : List (List Char)) (text : List Char) (under : List Char) :
    lines.go under done text = done.reverse ++ lines.go under [] text := by
  induction text generalizing under done with
  | nil => simp [lines.go]
  | cons c text ih =>
      rw [lines.go, lines.go]
      split
      · rw [ih, ih [under.reverse], List.reverse_cons, List.append_assoc]
        rfl
      · exact ih done (c :: under)

theorem lines_last {line : List Char} (oneLine : '\n' ∉ line) : lines line = [line] := by
  have read := lines_go_append oneLine [] [] []
  rw [List.append_nil, List.append_nil] at read
  rw [lines, read]
  simp [lines.go]

theorem lines_more {line : List Char} (oneLine : '\n' ∉ line) (text : List Char) :
    lines (line ++ '\n' :: text) = line :: lines text := by
  rw [lines, lines_go_append oneLine, List.append_nil, lines.go, beq_self_eq_true, if_pos rfl,
    List.reverse_reverse, lines_go_done]
  rfl

/-! ### What is found in a row -/

section

variable {α β : Type}

/-- What is found in items one by one, if all can be searched. -/
def gather? (find : α → Option (Option β)) (items : List α) : Option (List β) :=
  (items.mapM find).map (·.filterMap id)

theorem gather?_cons (find : α → Option (Option β)) (a : α) (rest : List α) :
    gather? find (a :: rest) =
      (find a).bind fun found => (gather? find rest).map (found.toList ++ ·) := by
  rw [gather?, gather?, List.mapM_cons]
  cases find a with
  | none => rfl
  | some found =>
      cases rest.mapM find with
      | none => rfl
      | some others => cases found <;> rfl

theorem gather?_append (find : α → Option (Option β)) (first second : List α) :
    gather? find (first ++ second) =
      (gather? find first).bind fun found => (gather? find second).map (found ++ ·) := by
  induction first with
  | nil =>
      change gather? find second = (gather? find second).map ([] ++ ·)
      cases gather? find second <;> rfl
  | cons a rest ih =>
      rw [List.cons_append, gather?_cons, gather?_cons, ih]
      cases find a with
      | none => rfl
      | some found =>
          cases gather? find rest with
          | none => rfl
          | some others => cases gather? find second <;> simp

/-- What is made of results one by one may be made of each result at once. -/
theorem mapM_bind_mapM {γ : Type} (find : α → Option β) (next : β → Option γ) (items : List α) :
    (items.mapM find).bind (·.mapM next) = items.mapM fun a => (find a).bind next := by
  induction items with
  | nil => rfl
  | cons a rest ih =>
      rw [List.mapM_cons, List.mapM_cons, ← ih]
      cases find a with
      | none => rfl
      | some b =>
          cases rest.mapM find with
          | none => cases found : next b <;> simp [found]
          | some others => simp [List.mapM_cons]

end

/-- The element that an object writes, if it can be read. -/
def elementOf? (depth : Nat) (object : Node) : Option (Option Element) :=
  (Value.ofNode depth object).toOption.bind fun value => (Element.ofValue? value).toOption

/-! ### Elements of lines -/

theorem parse_written {node : Node} {text : List Char} (written : node.WrittenAs text) :
    (Value.parse (octetsOf text)).toOption = (Value.ofNode 128 node).toOption := by
  have read : Json.read (octetsOf text) = ⟨node, false⟩ := by
    have whole := Json.read_written Json.spaces_nil written Json.spaces_nil
    rw [List.append_nil, List.nil_append] at whole
    rw [octetsOf, Utf8.encode_ofList]
    exact whole
  rw [Value.parse, read]
  change (Value.ofNode 128 node >>= fun value => pure value).toOption = _
  rw [bind_pure]

theorem trimStart_blanks {before : List Char} (blanks : Blanks before) (text : List Char) :
    Text.trimStartList (before ++ text) = Text.trimStartList text :=
  List.dropWhile_append_of_pos fun c listed => (blanks c listed).1

theorem trimEnd_blanks {after : List Char} (blanks : Blanks after) (text : List Char) :
    Text.trimEndList (text ++ after) = Text.trimEndList text := by
  rw [Text.trimEndList, List.reverse_append, List.dropWhile_append_of_pos fun c listed =>
    (blanks c (List.mem_reverse.mp listed)).1]
  rfl

/-- A record is written between braces. -/
theorem record_written {members : List (Except Json.Cause String × Node)} {text : List Char}
    (written : (Node.record members none).WrittenAs text) :
    ∃ body, text = '\x7b' :: (body ++ ['\x7d']) := by
  cases members with
  | nil =>
      obtain ⟨body, _, same⟩ := written
      exact ⟨body, same⟩
  | cons member rest =>
      obtain ⟨body, _, same⟩ := written
      exact ⟨body, same⟩

/-- Nothing but the blanks around an object is trimmed. -/
theorem trim_object {members : List (Except Json.Cause String × Node)}
    {before text after : List Char} (blanks : Blanks before)
    (written : (Node.record members none).WrittenAs text) (last : Blanks after) :
    Text.trimEndList (Text.trimStartList (before ++ (text ++ after))) = text := by
  obtain ⟨body, rfl⟩ := record_written written
  have opens : Text.isBlank '\x7b' = false := rfl
  have closes : Text.isBlank '\x7d' = false := rfl
  rw [trimStart_blanks blanks, List.cons_append, Text.trimStartList,
    List.dropWhile_cons_of_neg (by simp [opens]), ← List.cons_append, trimEnd_blanks last]
  simp [Text.trimEndList, closes]

theorem elementOfLine_toOption (number other : Nat) (line : List Char) :
    (elementOfLine number line).toOption = (elementOfLine other line).toOption := by
  unfold elementOfLine
  dsimp only
  split
  · rfl
  · rw [Success.toOption_bind, Success.toOption_bind, Success.toOption_mapError,
      Success.toOption_mapError]

/-- The elements of a line are those of the objects that it holds. -/
theorem elementOfLine_held {objects : List Node} {line : List Char} (held : Line objects line)
    (number : Nat) :
    (elementOfLine number line).toOption.map Option.toList = gather? (elementOf? 128) objects := by
  cases held with
  | blank blanks =>
      have nothing : Text.trimEndList (Text.trimStartList line) = [] := by
        have trimmed := trimStart_blanks blanks []
        rw [List.append_nil] at trimmed
        rw [trimmed]
        rfl
      rw [elementOfLine, nothing]
      rfl
  | @object members before text after blanks written oneLine last =>
      have solid : text.isEmpty = false := by
        obtain ⟨body, rfl⟩ := record_written written
        rfl
      rw [elementOfLine, trim_object blanks written last]
      simp only [solid, Bool.false_eq_true, if_false, Success.toOption_bind,
        Success.toOption_mapError, parse_written written]
      rw [gather?_cons, ← elementOf?]
      cases elementOf? 128 (.record members none) with
      | none => rfl
      | some found => cases found <;> rfl

theorem Line.one {objects : List Node} {line : List Char} (held : Line objects line) :
    '\n' ∉ line := by
  cases held with
  | blank blanks => exact fun among => (blanks _ among).2 rfl
  | object blanks written oneLine last =>
      simp only [List.mem_append, not_or]
      exact ⟨fun among => (blanks _ among).2 rfl, oneLine, fun among => (last _ among).2 rfl⟩

/-- The number of a line matters to failures only. -/
theorem elementsOfLines_toOption (text : List Char) : (elementsOfLines text).toOption =
    gather? (fun line => (elementOfLine 0 line).toOption) (lines text) := by
  have numberless :=
    calc (lines text).zipIdx.mapM (fun entry => (elementOfLine (entry.2 + 1) entry.1).toOption)
      _ = (lines text).zipIdx.mapM fun entry => (elementOfLine 0 entry.1).toOption :=
        congrArg (List.mapM · _) (funext fun _ => elementOfLine_toOption _ _ _)
      _ = ((lines text).zipIdx.map Prod.fst).mapM fun line => (elementOfLine 0 line).toOption :=
        (List.mapM_map (f := Prod.fst) (g := fun line => (elementOfLine 0 line).toOption)).symm
      _ = (lines text).mapM fun line => (elementOfLine 0 line).toOption := by
        rw [List.zipIdx_map_fst]
  rw [elementsOfLines, Success.toOption_bind, Success.toOption_mapM, gather?, ← numberless]
  cases (lines text).zipIdx.mapM
    fun entry => (elementOfLine (entry.2 + 1) entry.1).toOption <;> rfl

/-- The elements of a text that holds objects line by line. -/
theorem elementsOfLines_held {objects : List Node} {text : List Char}
    (held : Lines objects text) :
    (elementsOfLines text).toOption = gather? (elementOf? 128) objects := by
  have one {line : List Char} {objects : List Node} (held : Line objects line)
      (others : Option (List Element)) :
      ((elementOfLine 0 line).toOption.bind fun found => others.map (found.toList ++ ·)) =
        (gather? (elementOf? 128) objects).bind fun found => others.map (found ++ ·) := by
    rw [← elementOfLine_held held 0, Option.bind_map]
    rfl
  rw [elementsOfLines_toOption]
  induction held with
  | last held =>
      rw [lines_last held.one, gather?_cons]
      refine (one held (some [])).trans ?_
      cases gather? (elementOf? 128) _ <;> simp
  | more held _ ih =>
      rw [lines_more held.one, gather?_cons, ih, gather?_append]
      exact one held _

/-! ### Elements of an array -/

/-- The elements of a text that holds objects in one array. -/
theorem elementsOfArray_held {objects : List Node} {text : List Char}
    (held : Listed objects text) :
    (elementsOfArray text).toOption = gather? (elementOf? 127) objects := by
  obtain ⟨before, array, after, spaces, written, last, rfl⟩ := held
  have read : Json.read (octetsOf (before ++ (array ++ after))) = ⟨.list objects none, false⟩ := by
    rw [octetsOf, Utf8.encode_ofList]
    exact Json.read_written spaces written last
  have values : (Decoder.parse (Decoder.list Decoder.any)
      (octetsOf (before ++ (array ++ after)))).toOption =
        objects.mapM fun object => (Value.ofNode 127 object).toOption := by
    have items := Decoder.list_toOption Decoder.any 126 false objects
    simp only [Decoder.any, Json.atTop, Success.toOption_mapError] at items
    rw [Decoder.parse, read, ← items]
    change (Decoder.list Decoder.any ⟨128, false⟩ (.list objects none) >>=
      fun values => pure values).toOption = _
    rw [bind_pure]
  have found := mapM_bind_mapM (fun object => (Value.ofNode 127 object).toOption)
    (fun value => (Element.ofValue? value).toOption) objects
  rw [elementsOfArray, Success.toOption_bind, Success.toOption_mapError, values, gather?]
  simp only [Success.toOption_bind, Success.toOption_mapM]
  rw [show objects.mapM (elementOf? 127) = _ from found.symm]
  cases objects.mapM fun object => (Value.ofNode 127 object).toOption with
  | none => rfl
  | some values =>
      simp only [Option.bind_some]
      cases values.mapM fun value => (Element.ofValue? value).toOption <;> rfl

/-! ### Which layout a text has -/

/-- Behind the blanks of a line there is an object, or the next line. -/
theorem Line.start {objects : List Node} {line : List Char} (held : Line objects line)
    (rest : List Char) : (Text.trimStartList (line ++ rest)).head? = some '\x7b' ∨
      Text.trimStartList (line ++ rest) = Text.trimStartList rest := by
  cases held with
  | blank blanks => exact .inr (trimStart_blanks blanks rest)
  | object blanks written _ _ =>
      obtain ⟨body, rfl⟩ := record_written written
      rw [List.append_assoc, trimStart_blanks blanks]
      exact .inl rfl

/-- A text that holds objects line by line starts with one, if there is any. -/
theorem Lines.start {objects : List Node} {text : List Char} (held : Lines objects text) :
    (Text.trimStartList text).head? = some '\x7b' ∨ Text.trimStartList text = [] := by
  induction held with
  | last held =>
      have starts := held.start []
      rwa [List.append_nil] at starts
  | @more _ _ _ text held _ ih =>
      have ends : Text.trimStartList ('\n' :: text) = Text.trimStartList text := rfl
      rcases held.start ('\n' :: text) with object | same
      · exact .inl object
      · rw [same, ends]
        exact ih

theorem Listed.start {objects : List Node} {text : List Char} (held : Listed objects text) :
    (Text.trimStartList text).head? = some '[' := by
  obtain ⟨before, array, after, spaces, written, _, rfl⟩ := held
  have blank : ∀ c ∈ before, Text.isBlank c = true := by
    intro c listed
    rcases spaces c listed with rfl | rfl | rfl | rfl <;> rfl
  rw [Text.trimStartList, List.dropWhile_append_of_pos blank]
  cases objects with
  | nil =>
      obtain ⟨body, _, rfl⟩ := written
      rfl
  | cons object rest =>
      obtain ⟨body, _, rfl⟩ := written
      rfl

/-- The octet that marks a compressed dump stands for itself alone. -/
theorem octets_head {c : Char} {text : List Char}
    (leads : (Json.octets (c :: text)).head? = some 0x1F) : c = '\x1f' := by
  have number {n : Nat} (same : UInt8.ofNat n = 0x1F) : n % 256 = 31 := by
    simpa using congrArg UInt8.toNat same
  rw [Json.octets, List.flatMap_cons, Utf8.utf8EncodeChar_eq] at leads
  split at leads
  · have same := number (Option.some.inj leads)
    have mark : '\x1f'.toNat = 31 := rfl
    exact Char.toNat_inj.mp (by omega)
  · split at leads
    · have same := number (Option.some.inj leads)
      omega
    · split at leads
      all_goals
        have same := number (Option.some.inj leads)
        omega

/-- Content in a layout is not taken for compressed. -/
theorem plain_of_start {text : List Char}
    (starts : (Text.trimStartList text).head? ≠ some '\x1f') :
    Gzip.isGzip (Json.octets text) = false := by
  refine Gzip.isGzip_eq_false fun marked => ?_
  cases text with
  | nil => cases marked
  | cons c rest =>
      obtain rfl := octets_head marked
      exact starts rfl

/-! ### Whole dumps -/

/-- Octets that carry a text hold its content. -/
theorem inflate_carried {limit : Option Nat} {text : List Char} {octets : List UInt8}
    (plain : Gzip.isGzip (Json.octets text) = false)
    (carries : Carries limit (Json.octets text) octets) :
    inflate limit octets = .ok (Json.octets text) := by
  rcases carries with rfl | ⟨marked, content⟩
  · rw [inflate, plain]
    rfl
  · rw [inflate, marked, content]
    rfl

theorem decode_octets (text : List Char) :
    Utf8.decode (Json.octets text) = .ok (String.ofList text) := by
  have written := Utf8.decode_encode (String.ofList text)
  rwa [Utf8.encode_ofList] at written

theorem elementsOfText_toOption (text : List Char) :
    (elementsOfText (String.ofList text)).toOption =
      (if isArray text then elementsOfArray text else elementsOfLines text).toOption.bind
        fun elements => if elements.isEmpty then none else some elements := by
  rw [elementsOfText, String.toList_ofList]
  dsimp only
  split
  · cases elementsOfArray text with
    | error failure => rfl
    | ok elements => cases elements <;> rfl
  · cases elementsOfLines text with
    | error failure => rfl
    | ok elements => cases elements <;> rfl

/-- The elements of a dump are those of its objects; there has to be at least one. -/
theorem parseElements_presented {limit : Option Nat} {objects : List Node} {octets : List UInt8}
    (presents : Presents limit objects octets) :
    ∃ depth ∈ [126, 127], (parseElements limit octets).toOption =
      (gather? (elementOf? (depth + 1)) objects).bind fun elements =>
        if elements.isEmpty then none else some elements := by
  obtain ⟨text, layout, carries⟩ := presents
  have whole (plain : Gzip.isGzip (Json.octets text) = false) :
      (parseElements limit octets).toOption = (elementsOfText (String.ofList text)).toOption := by
    rw [parseElements, inflate_carried plain carries, Success.ok_bind, decode_octets]
    rfl
  rcases layout with held | held
  · have line : isArray text = false := by
      rw [isArray]
      rcases held.start with object | nothing <;> simp [*]
    have plain : Gzip.isGzip (Json.octets text) = false := by
      refine plain_of_start ?_
      rcases held.start with object | nothing <;> simp [*]
    refine ⟨127, by decide, ?_⟩
    rw [whole plain, elementsOfText_toOption, line, ← elementsOfLines_held held]
    rfl
  · have array : isArray text = true := by simp [isArray, held.start]
    have plain : Gzip.isGzip (Json.octets text) = false :=
      plain_of_start (by simp [held.start])
    refine ⟨126, by decide, ?_⟩
    rw [whole plain, elementsOfText_toOption, array, ← elementsOfArray_held held]
    rfl

end Dump

/-! ### Graphs -/

namespace Taken

/-- The graph, if any element has been taken into it. -/
def finish? (taken : Taken) : Option Dump :=
  if taken.nonempty then some taken.dump else none

theorem read?_eq_bind (depth : Nat) (taken : Taken) (object : Node) :
    taken.read? depth object = (Dump.elementOf? depth object).bind fun
      | none => some taken
      | some element => (taken.dump.addElement element).toOption.map (⟨·, true⟩) :=
  (Option.bind_assoc _ _ _).symm

/-- Objects lead to the graph of their elements. -/
theorem readAll?_finish (depth : Nat) (objects : List Node) (taken : Taken) :
    (taken.readAll? depth objects).bind finish? =
      (Dump.gather? (Dump.elementOf? depth) objects).bind fun elements =>
        if !taken.nonempty && elements.isEmpty then none
        else (elements.foldlM Dump.addElement taken.dump).toOption := by
  induction objects generalizing taken with
  | nil =>
      obtain ⟨dump, nonempty⟩ := taken
      cases nonempty <;> rfl
  | cons object rest ih =>
      rw [readAll?_cons, Dump.gather?_cons, read?_eq_bind]
      cases Dump.elementOf? depth object with
      | none => rfl
      | some found =>
          cases found with
          | none =>
              simp only [Option.bind_some, Option.toList_none, List.nil_append, Option.map_id']
              exact ih taken
          | some element =>
              simp only [Option.bind_some, Option.toList_some, Option.bind_map, Function.comp_def,
                List.singleton_append, List.isEmpty_cons, Bool.and_false, Bool.false_eq_true,
                if_false, List.foldlM_cons, Success.toOption_bind]
              cases (taken.dump.addElement element).toOption with
              | none => cases Dump.gather? (Dump.elementOf? depth) rest <;> rfl
              | some dump => exact ih ⟨dump, true⟩

end Taken

namespace Dump

/-- The graph that objects lead to, if all can be read and any of them is an element. -/
def ofObjects? (objects : List Node) : Option Dump :=
  ((Taken.mk empty false).readAll? 127 objects).bind Taken.finish?

/-- A dump is read object by object, whatever its layout, if not with the same depth left. -/
theorem parse_presented {limit : Option Nat} {objects : List Node} {octets : List UInt8}
    (presents : Presents limit objects octets) :
    ∃ depth ∈ [126, 127], (parse limit octets).toOption =
      ((Taken.mk empty false).readAll? (depth + 1) objects).bind Taken.finish? := by
  obtain ⟨depth, among, elements⟩ := parseElements_presented presents
  refine ⟨depth, among, ?_⟩
  rw [parse, Success.toOption_bind, elements, Taken.readAll?_finish]
  cases gather? (elementOf? (depth + 1)) objects with
  | none => rfl
  | some elements => cases elements <;> rfl

/-- Depth does not matter to objects that state the same elements as others that fit. -/
theorem readAll?_finish_of_reworded {objects others : List Node}
    (shallow : ∀ object ∈ objects, object.nesting ≤ 126)
    (reworded : Relation.EqvGen Reworded objects others) {depth : Nat} (deep : 126 ≤ depth) :
    ((Taken.mk empty false).readAll? (depth + 1) others).bind Taken.finish? =
      ofObjects? objects := by
  have fits : ∀ object ∈ objects, object.nesting ≤ min depth 126 := fun object listed =>
    Nat.le_min.mpr ⟨Nat.le_trans (shallow object listed) deep, shallow object listed⟩
  rw [← Taken.readAll?_reworded reworded deep, Taken.readAll?_of_nesting fits]
  rfl

/-- Dumps that present the same objects, or such as state the same elements in other words, lead
to the same graph or are both refused, whichever layouts they have and whether they are compressed
or not. The graph is the one that the objects lead to one by one. -/
theorem same_graph_of_reworded {objects others : List Node}
    (shallow : ∀ object ∈ objects, object.nesting ≤ 126)
    (reworded : Relation.EqvGen Reworded objects others) {limit otherLimit : Option Nat}
    {first second : List UInt8} (presents : Presents limit objects first)
    (presentsToo : Presents otherLimit others second) (dump : Dump) :
    (parse limit first = .ok dump ↔ parse otherLimit second = .ok dump) ∧
      (parse limit first = .ok dump ↔ ofObjects? objects = some dump) := by
  have deep : ∀ depth ∈ [126, 127], 126 ≤ depth := by decide
  obtain ⟨depth, among, graph⟩ := parse_presented presents
  obtain ⟨otherDepth, amongToo, graphToo⟩ := parse_presented presentsToo
  rw [readAll?_finish_of_reworded shallow (.refl objects) (deep depth among)] at graph
  rw [readAll?_finish_of_reworded shallow reworded (deep otherDepth amongToo)] at graphToo
  rw [← Success.toOption_eq_some, ← Success.toOption_eq_some, graph, graphToo]
  exact ⟨Iff.rfl, Iff.rfl⟩

/-- A vertex and an edge on lines of their own, with a blank line between them. -/
def sampleLines : String :=
  "\x7b\"id\":7,\"label\":\"resultSet\",\"type\":\"vertex\"\x7d\r\n \n" ++
    "\x7b\"inV\":7,\"label\":\"next\",\"outV\":8,\"type\":\"edge\"\x7d"

/-- The same in one array: an identifier is a text, the target is listed, and one object is
passed over. -/
def sampleArray : String :=
  "[\x7b\"id\":\"7\",\"label\":\"resultSet\",\"type\":\"vertex\"\x7d,\x7b\"type\":\"note\"\x7d," ++
    "\x7b\"inVs\":[7],\"label\":\"next\",\"outV\":8,\"type\":\"edge\"\x7d]"

theorem same_graph_of_reworded_sample : ∃ dump,
    parse none (Utf8.encode sampleLines) = .ok dump ∧
      parse none (Gzip.storedMember (Utf8.encode sampleArray)) = .ok dump := by
  let vertex (id : Node) : Node := .record [(.ok "id", id),
    (.ok "label", .string (.ok "resultSet")), (.ok "type", .string (.ok "vertex"))] none
  let edge (key : String) (target : Node) : Node := .record [(.ok key, target),
    (.ok "label", .string (.ok "next")), (.ok "outV", numeral 8),
    (.ok "type", .string (.ok "edge"))] none
  let note : Node := .record [(.ok "type", .string (.ok "note"))] none
  let vertexValue (id : Value) : Value :=
    .object [("id", id), ("label", .string "resultSet"), ("type", .string "vertex")]
  let edgeValue (key : String) (target : Value) : Value :=
    .object [(key, target), ("label", .string "next"), ("outV", .nat 8), ("type", .string "edge")]
  have seven : (Json.Number.integer (7 : Nat)).Survives :=
    Json.Number.survives_integer (by decide) (by decide)
  have eight : (Json.Number.integer (8 : Nat)).Survives :=
    Json.Number.survives_integer (by decide) (by decide)
  have readable : (parse none (Utf8.encode sampleLines)).isOk := by decide +kernel
  obtain ⟨dump, read⟩ := Success.isOk_iff.mp readable
  have first : Presents none [vertex (numeral 7), edge "inV" (numeral 7)]
      (Utf8.encode sampleLines) := by
    have text : sampleLines.toList =
        ([] ++ ((vertexValue (.nat 7)).render.toList ++ ['\r'])) ++
          '\n' :: ([' '] ++ '\n' :: ([] ++ ((edgeValue "inV" (.nat 7)).render.toList ++ []))) := by
      decide +kernel
    have line : Line [vertex (numeral 7)]
        ([] ++ ((vertexValue (.nat 7)).render.toList ++ ['\r'])) :=
      .object (by decide)
        (Json.writtenAs_of_survives (vertexValue (.nat 7)) ⟨seven, trivial, trivial, trivial⟩)
        (by decide +kernel) (by decide)
    have last : Line [edge "inV" (numeral 7)]
        ([] ++ ((edgeValue "inV" (.nat 7)).render.toList ++ [])) :=
      .object (by decide)
        (Json.writtenAs_of_survives (edgeValue "inV" (.nat 7))
          ⟨seven, trivial, eight, trivial, trivial⟩)
        (by decide +kernel) (by decide)
    refine ⟨sampleLines.toList, .inl ?_, .inl (Utf8.encode_eq _)⟩
    rw [text]
    exact .more line (.more (.blank (by decide)) (.last last))
  have second : Presents none [vertex (digits 7), note, edge "inVs" (.list [numeral 7] none)]
      (Gzip.storedMember (Utf8.encode sampleArray)) := by
    let array : Value := .array [vertexValue (.string "7"), .object [("type", .string "note")],
      edgeValue "inVs" (.array [.nat 7])]
    have text : sampleArray.toList = [] ++ (array.render.toList ++ []) := by decide +kernel
    have written : (Node.list [vertex (digits 7), note, edge "inVs" (.list [numeral 7] none)]
        none).WrittenAs array.render.toList :=
      Json.writtenAs_of_survives array ⟨⟨trivial, trivial, trivial, trivial⟩, ⟨trivial, trivial⟩,
        ⟨⟨seven, trivial⟩, trivial, eight, trivial, trivial⟩, trivial⟩
    refine ⟨sampleArray.toList, .inr ⟨[], _, [], Json.spaces_nil, written, Json.spaces_nil, text⟩,
      .inr ⟨rfl, ?_⟩⟩
    rw [Utf8.encode_eq]
    exact Gzip.decompress_storedMember _
  have reworded : Relation.EqvGen Reworded [vertex (numeral 7), edge "inV" (numeral 7)]
      [vertex (digits 7), note, edge "inVs" (.list [numeral 7] none)] := by
    refine .trans _ [vertex (digits 7), edge "inV" (numeral 7)] _ (.rel _ _ ?_)
      (.trans _ [vertex (digits 7), edge "inVs" (.list [numeral 7] none)] _ (.rel _ _ ?_)
        (.rel _ _ ?_))
    · exact .object [] _ (.vertexId [] _ none 7 ⟨by decide, by simp⟩)
    · exact .object [_] [] (.target [] _ none ⟨by decide, by simp⟩ (by decide) nofun)
    · have read : Value.ofNode 127 note = .ok (.object [("type", .string "note")]) := rfl
      exact .passedOver [_] [_] (by decide) read (by decide) (by decide)
  have shallow : ∀ object ∈ [vertex (numeral 7), edge "inV" (numeral 7)], object.nesting ≤ 126 := by
    decide
  exact ⟨dump, read, (same_graph_of_reworded shallow reworded first second dump).1.mp read⟩

/-- A target that is null stands for none and cannot be listed, and an object that is passed over
still has to be readable. -/
theorem reworded_refused :
    (parse none (Utf8.encode
      "\x7b\"type\":\"edge\",\"label\":\"next\",\"outV\":2,\"inV\":null\x7d")).isOk = true ∧
    (parse none (Utf8.encode
      "\x7b\"type\":\"edge\",\"label\":\"next\",\"outV\":2,\"inVs\":[null]\x7d")).isOk = false ∧
    (parse none (Utf8.encode
      "\x7b\"type\":\"vertex\",\"id\":1,\"label\":\"resultSet\"\x7d")).isOk = true ∧
    (parse none (Utf8.encode ("\x7b\"type\":\"vertex\",\"id\":1,\"label\":\"resultSet\"\x7d\n" ++
      "\x7b\"type\":\"note\",\"n\":1e9999999999\x7d"))).isOk = false := by
  decide +kernel

end Dump

end CodeNav
