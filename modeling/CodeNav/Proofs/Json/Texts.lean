/-
Module: CodeNav.Proofs.Json.Texts
Purpose: The compact text of a value is read as the value, as far as its doubles are read back.
Main exports:
  Json.Value.Survives, Json.Value.Readable, Json.Value.reread, Json.read_render
-/
import CodeNav.Proofs.Json.Doubles
import CodeNav.Proofs.Json.Written

namespace CodeNav.Json

namespace Value

mutual

/-- Every number of a value has a property. -/
def Numbers (P : Number → Prop) : Value → Prop
  | .number n => P n
  | .array items => NumbersOfItems P items
  | .object fields => NumbersOfFields P fields
  | _ => True

/-- Every number in the items of an array has a property. -/
def NumbersOfItems (P : Number → Prop) : List Value → Prop
  | [] => True
  | item :: rest => item.Numbers P ∧ NumbersOfItems P rest

/-- Every number in the members of an object has a property. -/
def NumbersOfFields (P : Number → Prop) : List (String × Value) → Prop
  | [] => True
  | (_, value) :: rest => value.Numbers P ∧ NumbersOfFields P rest

end

/-- The numbers of a value survive being written and read. -/
def Survives (value : Value) : Prop :=
  value.Numbers Number.Survives

/-- The numbers of a value are numbers that texts write. -/
def Readable (value : Value) : Prop :=
  value.Numbers Number.Readable

section

variable {P Q : Number → Prop}

theorem numbersOfItems_iff {items : List Value} :
    NumbersOfItems P items ↔ ∀ item ∈ items, item.Numbers P := by
  induction items with
  | nil => exact ⟨fun _ => nofun, fun _ => trivial⟩
  | cons item rest ih => rw [NumbersOfItems, ih, List.forall_mem_cons]

theorem numbersOfFields_iff {fields : List (String × Value)} :
    NumbersOfFields P fields ↔ ∀ field ∈ fields, field.2.Numbers P := by
  induction fields with
  | nil => exact ⟨fun _ => nofun, fun _ => trivial⟩
  | cons field rest ih => rw [NumbersOfFields, ih, List.forall_mem_cons]

mutual

theorem Numbers.imp (implies : ∀ n, P n → Q n) : ∀ {value : Value},
    value.Numbers P → value.Numbers Q
  | .null, _ => trivial
  | .bool _, _ => trivial
  | .number n, own => implies n own
  | .string _, _ => trivial
  | .array _, own => NumbersOfItems.imp implies own
  | .object _, own => NumbersOfFields.imp implies own

theorem NumbersOfItems.imp (implies : ∀ n, P n → Q n) : ∀ {items : List Value},
    NumbersOfItems P items → NumbersOfItems Q items
  | [], _ => trivial
  | _ :: _, ⟨own, others⟩ => ⟨own.imp implies, NumbersOfItems.imp implies others⟩

theorem NumbersOfFields.imp (implies : ∀ n, P n → Q n) : ∀ {fields : List (String × Value)},
    NumbersOfFields P fields → NumbersOfFields Q fields
  | [], _ => trivial
  | _ :: _, ⟨own, others⟩ => ⟨own.imp implies, NumbersOfFields.imp implies others⟩

end

end

theorem Survives.readable {value : Value} (survives : value.Survives) : value.Readable :=
  survives.imp fun _ => Number.Survives.readable

/-! ### Values that were written and read -/

mutual

/-- The value with every number as its text is read. -/
def reread : Value → Value
  | .number n => .number n.reread
  | .array items => .array (rereadItems items)
  | .object fields => .object (rereadFields fields)
  | .null => .null
  | .bool b => .bool b
  | .string s => .string s

/-- The items of an array with every number as its text is read. -/
def rereadItems : List Value → List Value
  | [] => []
  | item :: rest => item.reread :: rereadItems rest

/-- The members of an object with every number as its text is read. -/
def rereadFields : List (String × Value) → List (String × Value)
  | [] => []
  | (key, value) :: rest => (key, value.reread) :: rereadFields rest

end

theorem rereadItems_eq (items : List Value) : rereadItems items = items.map reread := by
  induction items with
  | nil => rfl
  | cons item rest ih => rw [rereadItems, ih, List.map_cons]

theorem rereadFields_eq (fields : List (String × Value)) :
    rereadFields fields = fields.map fun field => (field.1, field.2.reread) := by
  induction fields with
  | nil => rfl
  | cons field rest ih => rw [rereadFields, ih, List.map_cons]

mutual

theorem Survives.reread : ∀ {value : Value}, value.Survives → value.reread = value
  | .null, _ => rfl
  | .bool _, _ => rfl
  | .number _, survives => congrArg _ (Number.Survives.reread survives)
  | .string _, _ => rfl
  | .array _, survives => congrArg _ (rereadItems_of_survives survives)
  | .object _, survives => congrArg _ (rereadFields_of_survives survives)

theorem rereadItems_of_survives : ∀ {items : List Value},
    NumbersOfItems Number.Survives items → rereadItems items = items
  | [], _ => rfl
  | _ :: _, ⟨own, others⟩ =>
    congrArg₂ _ (Survives.reread own) (rereadItems_of_survives others)

theorem rereadFields_of_survives : ∀ {fields : List (String × Value)},
    NumbersOfFields Number.Survives fields → rereadFields fields = fields
  | [], _ => rfl
  | (key, _) :: _, ⟨own, others⟩ =>
    congrArg₂ _ (congrArg (key, ·) (Survives.reread own)) (rereadFields_of_survives others)

end

mutual

theorem Readable.reread : ∀ {value : Value}, value.Readable → value.reread.Readable
  | .null, _ => trivial
  | .bool _, _ => trivial
  | .number _, readable => Number.Readable.reread readable
  | .string _, _ => trivial
  | .array _, readable => readable_rereadItems readable
  | .object _, readable => readable_rereadFields readable

theorem readable_rereadItems : ∀ {items : List Value},
    NumbersOfItems Number.Readable items → NumbersOfItems Number.Readable (rereadItems items)
  | [], _ => trivial
  | _ :: _, ⟨own, others⟩ => ⟨Readable.reread own, readable_rereadItems others⟩

theorem readable_rereadFields : ∀ {fields : List (String × Value)},
    NumbersOfFields Number.Readable fields → NumbersOfFields Number.Readable (rereadFields fields)
  | [], _ => trivial
  | _ :: _, ⟨own, others⟩ => ⟨Readable.reread own, readable_rereadFields others⟩

end

end Value

/-! ### Texts of values -/

theorem toList_renderItems (item : Value) (items : List Value) :
    (renderItems false (item :: items)).toList =
      ',' :: (renderItems true (item :: items)).toList := by
  simp [renderItems]

theorem toList_renderFields (field : String × Value) (fields : List (String × Value)) :
    (renderFields false (field :: fields)).toList =
      ',' :: (renderFields true (field :: fields)).toList := by
  simp [renderFields]

theorem toList_quote (s : String) :
    (quote s).toList = '"' :: (s.toList.flatMap escape ++ ['"']) := by
  rw [quote, String.toList_ofList, List.cons_append]

theorem quotes_escape (s : String) : Quotes (.ok s) (s.toList.flatMap escape) :=
  readString_quote s []

mutual

/-- The text of a value writes the tree of the value, with numbers as they are read back. -/
theorem writtenAs_render : ∀ (value : Value), value.Readable →
    (Node.ofValue value.reread).WrittenAs value.render.toList
  | .null, _ => by simp [Value.render, Value.reread, Node.ofValue, Node.WrittenAs]
  | .bool true, _ => by simp [Value.render, Value.reread, Node.ofValue, Node.WrittenAs]
  | .bool false, _ => by simp [Value.render, Value.reread, Node.ofValue, Node.WrittenAs]
  | .number n, readable => by
    obtain ⟨numeral, scanned, written⟩ := Number.Readable.again readable
    rw [Utf8.encode_eq] at scanned
    exact ⟨numeral, scanned, written⟩
  | .string s, _ => ⟨_, quotes_escape s, toList_quote s⟩
  | .array [], _ => ⟨[], spaces_nil, by simp [Value.render, renderItems]⟩
  | .array (item :: items), ⟨own, others⟩ =>
    ⟨_, itemsWrittenAs_render item items own others, by simp [Value.render]⟩
  | .object [], _ => ⟨[], spaces_nil, by simp [Value.render, renderFields]⟩
  | .object ((key, value) :: fields), ⟨own, others⟩ =>
    ⟨_, membersWrittenAs_render key value fields own others, by simp [Value.render]⟩
termination_by value => sizeOf value

theorem itemsWrittenAs_render : ∀ (item : Value) (items : List Value), item.Readable →
    Value.NumbersOfItems Number.Readable items →
      Node.ItemsWrittenAs (Node.ofItems (Value.rereadItems (item :: items)))
        (renderItems true (item :: items)).toList
  | item, [], own, _ =>
    ⟨[], item.render.toList, [], spaces_nil, writtenAs_render item own, spaces_nil,
      by simp [renderItems]⟩
  | item, next :: items, own, ⟨nextOwn, more⟩ =>
    ⟨[], item.render.toList, [], _, spaces_nil, writtenAs_render item own, spaces_nil,
      itemsWrittenAs_render next items nextOwn more, by
        rw [renderItems, String.toList_append, toList_renderItems]
        simp⟩
termination_by item items => sizeOf item + sizeOf items + 1

theorem membersWrittenAs_render : ∀ (key : String) (value : Value)
    (fields : List (String × Value)), value.Readable →
      Value.NumbersOfFields Number.Readable fields →
        Node.MembersWrittenAs (Node.ofFields (Value.rereadFields ((key, value) :: fields)))
          (renderFields true ((key, value) :: fields)).toList
  | key, value, [], own, _ =>
    ⟨[], key.toList.flatMap escape, [], [], value.render.toList, [], spaces_nil, quotes_escape key,
      spaces_nil, spaces_nil, writtenAs_render value own, spaces_nil,
      by simp [renderFields, toList_quote]⟩
  | key, value, (name, next) :: fields, own, ⟨nextOwn, more⟩ =>
    ⟨[], key.toList.flatMap escape, [], [], value.render.toList, [], _, spaces_nil,
      quotes_escape key, spaces_nil, spaces_nil, writtenAs_render value own, spaces_nil,
      membersWrittenAs_render name next fields nextOwn more, by
        rw [renderFields, String.toList_append, toList_renderFields]
        simp [toList_quote]⟩
termination_by _ value fields => sizeOf value + sizeOf fields + 1

end

/-- The text of a value whose numbers survive writes its tree. -/
theorem writtenAs_of_survives (value : Value) (survives : value.Survives) :
    (Node.ofValue value).WrittenAs value.render.toList := by
  have written := writtenAs_render value survives.readable
  rwa [survives.reread] at written

/-- The text of a value is read as the tree of what is read back, and nothing follows it. -/
theorem read_render {value : Value} (readable : value.Readable) :
    read (Utf8.encode value.render) = ⟨.ofValue value.reread, false⟩ := by
  have whole := read_written spaces_nil (writtenAs_render value readable) spaces_nil
  rwa [List.nil_append, List.append_nil, octets, ← Utf8.encode_eq] at whole

/-- The text of an object opens with a brace. -/
theorem head?_render_object (fields : List (String × Value)) :
    (Utf8.encode (Value.object fields).render).head? = some 0x7B := by
  rw [Utf8.encode_eq]
  simp [Value.render]
  rfl

end CodeNav.Json
