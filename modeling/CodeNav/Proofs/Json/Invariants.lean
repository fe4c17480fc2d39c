/-
Module: CodeNav.Proofs.Json.Invariants
Purpose: What is taken over of the tree of a value is as sound as the value.
Main exports:
  Json.Value.Legible, Json.Value.parse_render, Json.Decoder.shape_keeps, Json.Decoder.Follows
-/
import CodeNav.Json.Decoder
import CodeNav.Proofs.Json.Members
import CodeNav.Proofs.Json.Records
import CodeNav.Proofs.Json.Scanned
import CodeNav.Proofs.Success

namespace CodeNav.Json

/-! ### Values -/

namespace Value

/-- A value that some text writes, whatever its nesting. -/
structure Legible (value : Value) : Prop where
  ordered : value.Ordered
  readable : value.Readable

theorem itemsOrdered_iff {items : List Value} :
    ItemsOrdered items ↔ ∀ item ∈ items, item.Ordered := by
  induction items with
  | nil => exact ⟨fun _ => nofun, fun _ => trivial⟩
  | cons item rest ih => rw [ItemsOrdered, ih, List.forall_mem_cons]

mutual

/-- Reading a value back changes no nesting. -/
theorem nesting_reread : ∀ value : Value, value.reread.nesting = value.nesting
  | .null => rfl
  | .bool _ => rfl
  | .number _ => rfl
  | .string _ => rfl
  | .array items => congrArg (· + 1) (nestingOfItems_reread items)
  | .object fields => congrArg (· + 1) (nestingOfFields_reread fields)

theorem nestingOfItems_reread : ∀ items : List Value,
    nestingOfItems (rereadItems items) = nestingOfItems items
  | [] => rfl
  | item :: rest => congrArg₂ max (nesting_reread item) (nestingOfItems_reread rest)

theorem nestingOfFields_reread : ∀ fields : List (String × Value),
    nestingOfFields (rereadFields fields) = nestingOfFields fields
  | [] => rfl
  | (_, value) :: rest => congrArg₂ max (nesting_reread value) (nestingOfFields_reread rest)

end

theorem ascending_rereadFields {fields : Fields} (ascending : Fields.Ascending fields) :
    Fields.Ascending (rereadFields fields) := by
  rw [rereadFields_eq]
  exact List.pairwise_map.mpr ascending

mutual

/-- Reading a value back changes no order. -/
theorem Ordered.reread : ∀ {value : Value}, value.Ordered → value.reread.Ordered
  | .null, _ => trivial
  | .bool _, _ => trivial
  | .number _, _ => trivial
  | .string _, _ => trivial
  | .array _, ordered => itemsOrdered_reread ordered
  | .object _, ordered => ⟨ascending_rereadFields ordered.1, fieldsOrdered_reread ordered.2⟩

theorem itemsOrdered_reread : ∀ {items : List Value},
    ItemsOrdered items → ItemsOrdered (rereadItems items)
  | [], _ => trivial
  | _ :: _, ⟨own, others⟩ => ⟨Ordered.reread own, itemsOrdered_reread others⟩

theorem fieldsOrdered_reread : ∀ {fields : List (String × Value)},
    FieldsOrdered fields → FieldsOrdered (rereadFields fields)
  | [], _ => trivial
  | _ :: _, ⟨own, others⟩ => ⟨Ordered.reread own, fieldsOrdered_reread others⟩

end

theorem Legible.reread {value : Value} (legible : value.Legible) : value.reread.Legible :=
  ⟨legible.ordered.reread, legible.readable.reread⟩

/-- The items of an array, and the values of the members of an object. -/
def parts : Value → List Value
  | .array items => items
  | .object fields => fields.map Prod.snd
  | _ => []

theorem Legible.part {value part : Value} (legible : value.Legible)
    (listed : part ∈ value.parts) : part.Legible := by
  obtain ⟨ordered, readable⟩ := legible
  cases value with
  | array items => exact ⟨itemsOrdered_iff.mp ordered part listed,
      numbersOfItems_iff.mp readable part listed⟩
  | object fields =>
      obtain ⟨field, among, rfl⟩ := List.mem_map.mp listed
      exact ⟨fieldsOrdered_iff.mp ordered.2 field among,
        numbersOfFields_iff.mp readable field among⟩
  | _ => cases listed

/-- The text of a value can be read again, unless the value nests too deep. -/
theorem parse_render {value : Value} (legible : value.Legible) :
    Value.parse (Utf8.encode value.render) =
      if value.nesting ≤ 127 then .ok value.reread else .error .recursionLimit := by
  have tree : ofNode nestingLimit (.ofValue value.reread) = _ :=
    ofNode_ofValue value.reread legible.ordered.reread 127
  rw [Value.parse, read_render legible.readable]
  simp only [tree, nesting_reread]
  split <;> rfl

/-- What a tree of a value in order is read as, if it is read at all, is the value. -/
theorem eq_of_ofNode {value found : Value} (ordered : value.Ordered) {depth : Nat}
    (read : ofNode depth (.ofValue value) = .ok found) : found = value := by
  cases depth with
  | zero =>
      cases value with
      | array items => cases read
      | object fields => cases read
      | _ => cases read; rfl
  | succ depth =>
      rw [ofNode_ofValue value ordered] at read
      split at read
      · cases read
        rfl
      · cases read

end Value

/-! ### Structures -/

theorem Node.length_ofItems (items : List Value) : (ofItems items).length = items.length := by
  induction items with
  | nil => rfl
  | cons item rest ih => exact congrArg (· + 1) ih

/-- Whatever is read of a value can be read of what its text is read as, too, and is related to
it. -/
def Decoder.Follows {α : Type} (decoder : Decoder α) (R : α → α → Prop) : Prop :=
  ∀ r (value : Value) a, value.Legible → decoder r (.ofValue value) = .ok a →
    ∃ b, decoder r (.ofValue value.reread) = .ok b ∧ R a b

section

variable {σ : Type} {R : σ → σ → Prop}

/-- Taking a member over keeps two structures related. -/
def Field.Follows (field : Field σ) (R : σ → σ → Prop) : Prop :=
  ∀ r (value : Value) s t after, value.Legible → R s t →
    field.take r (.ofValue value) s = .ok after →
      ∃ again, field.take r (.ofValue value.reread) t = .ok again ∧ R after again

/-- A member is taken over as its decoder reads it. -/
theorem Field.follows {α : Type} {name : String} {required : Bool} {item : Decoder α}
    {Q : α → α → Prop} {set : σ → α → σ} (reads : item.Follows Q)
    (sets : ∀ s t a b, R s t → Q a b → R (set s a) (set t b)) :
    Field.Follows ⟨name, required, fun r node s => (item r node).map (set s)⟩ R := by
  intro r value s t after legible related taken
  obtain ⟨a, read, rfl⟩ := Success.map_eq_ok.mp taken
  obtain ⟨b, again, same⟩ := reads r value a legible read
  exact ⟨set t b, congrArg (Except.map (set t)) again, sets s t a b related same⟩

/-- A member that is read back as it is. -/
theorem Field.follows_eq {α : Type} {name : String} {required : Bool} {item : Decoder α}
    {set : σ → α → σ} (reads : item.Follows Eq) :
    Field.Follows ⟨name, required, fun r node s => (item r node).map (set s)⟩ Eq :=
  Field.follows reads fun _ _ _ _ related same => congrArg₂ set related same

namespace Shape

variable {shape : Shape σ} (follows : ∀ field ∈ shape.fields, field.Follows R)
include follows

theorem takeMembers_follows {r : Reading} {fields : List (String × Value)}
    (legible : ∀ field ∈ fields, field.2.Legible) {seen names : List String} {s t after : σ}
    (related : R s t)
    (taken : shape.takeMembers r seen s (Node.ofFields fields) = .ok (names, after)) :
    ∃ again, shape.takeMembers r seen t (Node.ofFields (Value.rereadFields fields)) =
      .ok (names, again) ∧ R after again := by
  induction fields generalizing seen s t with
  | nil =>
      cases taken
      exact ⟨t, rfl, related⟩
  | cons member rest ih =>
      obtain ⟨name, value⟩ := member
      obtain ⟨own, others⟩ := List.forall_mem_cons.mp legible
      have key : Decoder.key (.ok name) = pure name := rfl
      rw [Node.ofFields, takeMembers, key, pure_bind] at taken
      rw [Value.rereadFields, Node.ofFields, takeMembers, key, pure_bind]
      cases found : shape.fields.find? (·.name == name) with
      | none =>
          simp only [found] at taken ⊢
          rw [Node.skim_ofValue] at taken ⊢
          exact ih others related taken
      | some field =>
          simp only [found] at taken ⊢
          split at taken
          · cases taken
          · rename_i fresh
            obtain ⟨next, step, taken⟩ := Success.bind_eq_ok.mp taken
            obtain ⟨again, stepped, stillRelated⟩ :=
              follows field (List.mem_of_find?_eq_some found) _ _ _ _ _ own related
                (Success.mapError_eq_ok.mp step)
            rw [if_neg fresh, stepped]
            exact ih others stillRelated taken

theorem takeItems_follows {r : Reading} {total : Nat} {stop : Option Fault} {items : List Value}
    (legible : ∀ item ∈ items, item.Legible) {n : Nat} {fields : List (Field σ)}
    (known : ∀ field ∈ fields, field ∈ shape.fields) {s t after : σ} (related : R s t)
    (taken : shape.takeItems r total stop n fields (Node.ofItems items) s = .ok after) :
    ∃ again, shape.takeItems r total stop n fields (Node.ofItems (Value.rereadItems items)) t =
      .ok again ∧ R after again := by
  induction fields generalizing n items s t with
  | nil =>
      cases items with
      | nil =>
          rw [Node.ofItems, takeItems] at taken
          rw [Value.rereadItems, Node.ofItems, takeItems]
          cases ending : overrun stop with
          | some cause =>
              rw [ending] at taken
              cases taken
          | none =>
              rw [ending] at taken
              cases taken
              exact ⟨t, rfl, related⟩
      | cons item rest =>
          rw [Node.ofItems, takeItems] at taken
          split at taken <;> cases taken
  | cons field fields ih =>
      have knownRest : ∀ other ∈ fields, other ∈ shape.fields :=
        fun other listed => known other (List.mem_cons_of_mem _ listed)
      cases items with
      | nil =>
          rw [Node.ofItems, takeItems] at taken
          rw [Value.rereadItems, Node.ofItems, takeItems]
          obtain ⟨_, complete, taken⟩ := Success.bind_eq_ok.mp taken
          split at taken
          · cases taken
          · rename_i optional
            rw [complete, Success.ok_bind, if_neg optional]
            exact ih legible knownRest related taken
      | cons item rest =>
          obtain ⟨own, others⟩ := List.forall_mem_cons.mp legible
          rw [Node.ofItems, takeItems] at taken
          rw [Value.rereadItems, Node.ofItems, takeItems]
          obtain ⟨next, step, taken⟩ := Success.bind_eq_ok.mp taken
          obtain ⟨again, stepped, stillRelated⟩ :=
            follows field (known field List.mem_cons_self) _ _ _ _ _ own related
              (Success.mapError_eq_ok.mp step)
          rw [stepped]
          exact ih others knownRest stillRelated taken

end Shape

/-- A structure is read of what the text of a value is read as, if it is read of the value and each
member keeps the two related. -/
theorem Decoder.shape_follows {shape : Shape σ} (starts : R shape.start shape.start)
    (follows : ∀ field ∈ shape.fields, field.Follows R) : (Decoder.shape shape).Follows R := by
  intro r value found legible read
  cases value with
  | array items =>
      obtain ⟨inner, entered, read⟩ := Success.bind_eq_ok.mp read
      have length : (Node.ofItems (Value.rereadItems items)).length =
          (Node.ofItems items).length := by
        rw [Value.rereadItems_eq, Node.length_ofItems, Node.length_ofItems, List.length_map]
      obtain ⟨again, taken, related⟩ := Shape.takeItems_follows follows
        (fun item listed => legible.part listed) (fun _ listed => listed) starts read
      refine ⟨again, ?_, related⟩
      rw [Value.reread, Node.ofValue, Decoder.shape, entered, Success.ok_bind, length]
      exact taken
  | object fields =>
      obtain ⟨inner, entered, read⟩ := Success.bind_eq_ok.mp read
      obtain ⟨⟨names, taken⟩, members, read⟩ := Success.bind_eq_ok.mp read
      obtain ⟨_, _, read⟩ := Success.bind_eq_ok.mp read
      obtain ⟨_, complete, read⟩ := Success.bind_eq_ok.mp read
      cases read
      obtain ⟨again, stepped, related⟩ := Shape.takeMembers_follows follows
        (fun field listed => legible.part (List.mem_map_of_mem listed)) starts members
      refine ⟨again, ?_, related⟩
      change Decoder.record shape r (.record (Node.ofFields (Value.rereadFields fields)) none) = _
      rw [Decoder.record, entered, Success.ok_bind, stepped, Success.ok_bind]
      change (shape.checkMissing names >>= fun _ => pure again) = _
      rw [complete]
      rfl
  | null => cases read
  | bool b => cases read
  | number n => cases read
  | string s => cases read

end

/-! ### Parts of structures -/

namespace Decoder

theorem string_follows : string.Follows Eq := by
  intro r value a _ read
  cases value with
  | string s => exact ⟨a, read, rfl⟩
  | _ => cases read

/-- Natural numbers are integers, which are read back as themselves. -/
theorem natural_follows (limit : Nat) (type : String) : (natural limit type).Follows Eq := by
  intro r value a legible read
  cases value with
  | number n =>
      cases n with
      | integer n =>
          refine ⟨a, ?_, rfl⟩
          rw [Value.reread, Number.reread_integer legible.readable]
          exact read
      | real x => cases read
  | _ => cases read

theorem u32_follows : u32.Follows Eq := by
  intro r value a legible read
  obtain ⟨n, own, rfl⟩ := Success.map_eq_ok.mp read
  obtain ⟨_, again, rfl⟩ := natural_follows _ _ r value n legible own
  exact ⟨_, by rw [u32, again]; rfl, rfl⟩

/-- A value that is kept is read back as its text is. -/
theorem any_follows : any.Follows fun a b => a.Legible ∧ b = a.reread := by
  intro r value a legible read
  obtain rfl := Value.eq_of_ofNode legible.ordered (Success.mapError_eq_ok.mp read)
  refine ⟨a.reread, ?_, legible, rfl⟩
  obtain ⟨depth, complete⟩ := r
  cases depth with
  | zero =>
      cases a with
      | array items => cases read
      | object fields => cases read
      | _ => rfl
  | succ depth =>
      rw [any_ofValue legible.ordered] at read
      rw [any_ofValue legible.ordered.reread, Value.nesting_reread]
      split at read
      · rename_i fits
        rw [if_pos fits]
      · cases read

theorem option_follows {α : Type} {item : Decoder α} (follows : item.Follows Eq) :
    (option item).Follows Eq := by
  have present (value : Value) (some : value ≠ .null) (r : Reading) :
      option item r (.ofValue value) = (item r (.ofValue value)).map .some := by
    cases value with
    | null => exact absurd rfl some
    | _ => rfl
  intro r value a legible read
  by_cases absent : value = .null
  · subst absent
    exact ⟨a, read, rfl⟩
  · have absentToo : value.reread ≠ .null := by
      cases value with
      | null => exact absurd rfl absent
      | _ => exact nofun
    rw [present value absent] at read
    obtain ⟨found, own, rfl⟩ := Success.map_eq_ok.mp read
    obtain ⟨_, again, rfl⟩ := follows r value found legible own
    exact ⟨_, by rw [present _ absentToo, again]; rfl, rfl⟩

end Decoder

end CodeNav.Json
