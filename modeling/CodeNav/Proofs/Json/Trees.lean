/-
Module: CodeNav.Proofs.Json.Trees
Purpose: The tree of a value is read as the value, unless it nests too deep.
Main exports:
  Json.Value.nesting, Json.Value.Ordered, Json.Value.ofNode_ofValue
-/
import CodeNav.Json.Node
import CodeNav.Proofs.Success
import Mathlib.Data.List.Induction

namespace CodeNav.Json

namespace Fields

/-- A key beyond all others is bound at the end. -/
theorem insert_eq_append {fields : Fields} {key : String} {value : Value}
    (beyond : ∀ field ∈ fields, compare key field.1 = .gt) :
    insert fields key value = fields ++ [(key, value)] := by
  induction fields with
  | nil => rfl
  | cons field rest ih =>
      obtain ⟨k, v⟩ := field
      have after : compare key k = .gt := beyond (k, v) List.mem_cons_self
      rw [insert, after, List.cons_append,
        ih fun other member => beyond other (List.mem_cons_of_mem _ member)]

/-- The keys of members ascend. -/
def Ascending (fields : Fields) : Prop :=
  fields.Pairwise fun a b => compare a.1 b.1 = .lt

theorem Ascending.beyond {before rest : Fields} {key : String} {value : Value}
    (ascending : Ascending (before ++ (key, value) :: rest)) :
    ∀ field ∈ before, compare key field.1 = .gt := by
  intro field member
  have earlier := (List.pairwise_append.mp ascending).2.2 field member _ List.mem_cons_self
  rw [Std.OrientedOrd.eq_swap, earlier]
  rfl

theorem foldl_insert_eq_append (bindings : List (String × Value)) (fields : Fields)
    (ascending : Ascending (fields ++ bindings)) :
    bindings.foldl (fun fields (key, value) => insert fields key value) fields =
      fields ++ bindings := by
  induction bindings generalizing fields with
  | nil => rw [List.append_nil]; rfl
  | cons binding rest ih =>
      obtain ⟨key, value⟩ := binding
      have next : Ascending ((fields ++ [(key, value)]) ++ rest) := by
        rwa [List.append_assoc, List.singleton_append]
      change rest.foldl (fun fields (key, value) => insert fields key value)
        (insert fields key value) = _
      rw [insert_eq_append ascending.beyond, ih _ next, List.append_assoc, List.singleton_append]

/-- Bindings of ascending keys are the members. -/
theorem ofList_eq {bindings : List (String × Value)} (ascending : Ascending bindings) :
    ofList bindings = bindings :=
  foldl_insert_eq_append bindings [] ascending

theorem mem_insert {fields : Fields} {key : String} {value : Value}
    {field : String × Value} (listed : field ∈ insert fields key value) :
    field = (key, value) ∨ field ∈ fields := by
  induction fields with
  | nil => exact .inl (List.mem_singleton.mp listed)
  | cons first rest ih =>
      obtain ⟨k, v⟩ := first
      rw [insert] at listed
      cases order : compare key k with
      | lt =>
          rw [order] at listed
          exact List.mem_cons.mp listed
      | eq =>
          rw [order] at listed
          exact (List.mem_cons.mp listed).imp_right (List.mem_cons_of_mem _)
      | gt =>
          rw [order] at listed
          rcases List.mem_cons.mp listed with same | later
          · exact .inr (same ▸ List.mem_cons_self)
          · exact (ih later).imp_right (List.mem_cons_of_mem _)

/-- Binding a key keeps the keys ascending. -/
theorem Ascending.insert {fields : Fields} (ascending : Ascending fields) (key : String)
    (value : Value) : Ascending (Fields.insert fields key value) := by
  induction fields with
  | nil => exact List.pairwise_singleton _ _
  | cons field rest ih =>
      obtain ⟨k, v⟩ := field
      obtain ⟨first, later⟩ := List.pairwise_cons.mp ascending
      rw [Fields.insert]
      cases order : compare key k with
      | lt =>
          refine List.pairwise_cons.mpr ⟨fun other member => ?_, ascending⟩
          rcases List.mem_cons.mp member with rfl | member
          · exact order
          · exact Std.TransCmp.lt_trans order (first other member)
      | eq =>
          obtain rfl : key = k := Std.LawfulEqOrd.eq_of_compare order
          exact List.pairwise_cons.mpr ⟨first, later⟩
      | gt =>
          refine List.pairwise_cons.mpr ⟨fun other member => ?_, ih later⟩
          rcases mem_insert member with rfl | member
          · exact Std.OrientedCmp.lt_of_gt order
          · exact first other member

/-- The members of an object are among its bindings. -/
theorem mem_ofList {bindings : List (String × Value)} {field : String × Value}
    (listed : field ∈ ofList bindings) : field ∈ bindings := by
  unfold ofList at listed
  induction bindings using List.reverseRecOn with
  | nil => cases listed
  | append_singleton bindings binding ih =>
      rw [List.foldl_append] at listed
      rcases mem_insert listed with rfl | earlier
      · exact List.mem_append_right _ List.mem_cons_self
      · exact List.mem_append_left _ (ih earlier)

theorem insert_map (f : Value → Value) (fields : Fields) (key : String) (value : Value) :
    insert (fields.map fun field => (field.1, f field.2)) key (f value) =
      (insert fields key value).map fun field => (field.1, f field.2) := by
  induction fields with
  | nil => rfl
  | cons field rest ih =>
      obtain ⟨k, v⟩ := field
      rw [List.map_cons, insert, insert, ih]
      cases compare key k <;> rfl

/-- Changing the values of bindings changes those of the members. -/
theorem ofList_map (f : Value → Value) (bindings : List (String × Value)) :
    (ofList bindings).map (fun field => (field.1, f field.2)) =
      ofList (bindings.map fun field => (field.1, f field.2)) := by
  unfold ofList
  induction bindings using List.reverseRecOn with
  | nil => rfl
  | append_singleton bindings binding ih =>
      rw [List.foldl_append, List.map_append, List.foldl_append, ← ih]
      exact (insert_map f _ binding.1 binding.2).symm

/-- Changing the values of members changes what a key is bound to. -/
theorem get?_map (f : Value → Value) (fields : Fields) (key : String) :
    get? (fields.map fun field => (field.1, f field.2)) key = (get? fields key).map f := by
  unfold get?
  induction fields with
  | nil => rfl
  | cons field rest ih =>
      obtain ⟨k, v⟩ := field
      rw [List.map_cons, List.lookup_cons, List.lookup_cons, ih]
      cases key == k <;> rfl

end Fields

namespace Value

mutual

/-- How many arrays and objects are open at once. -/
def nesting : Value → Nat
  | .array items => nestingOfItems items + 1
  | .object fields => nestingOfFields fields + 1
  | _ => 0

/-- How many arrays and objects are open at once in the items of an array. -/
def nestingOfItems : List Value → Nat
  | [] => 0
  | item :: rest => max item.nesting (nestingOfItems rest)

/-- How many arrays and objects are open at once in the members of an object. -/
def nestingOfFields : List (String × Value) → Nat
  | [] => 0
  | (_, value) :: rest => max value.nesting (nestingOfFields rest)

end

mutual

/-- The members of all objects are in the order of their keys, as inserting them leaves them. -/
def Ordered : Value → Prop
  | .array items => ItemsOrdered items
  | .object fields => Fields.Ascending fields ∧ FieldsOrdered fields
  | _ => True

/-- The items of an array are in order. -/
def ItemsOrdered : List Value → Prop
  | [] => True
  | item :: rest => item.Ordered ∧ ItemsOrdered rest

/-- The members of an object are in order. -/
def FieldsOrdered : List (String × Value) → Prop
  | [] => True
  | (_, value) :: rest => value.Ordered ∧ FieldsOrdered rest

end

mutual

/-- The tree of a value is read as the value if it nests within the limit, and refused if not. -/
theorem ofNode_ofValue : ∀ (value : Value), value.Ordered → ∀ (depth : Nat),
    ofNode (depth + 1) (.ofValue value) =
      if value.nesting ≤ depth then .ok value else .error .recursionLimit
  | .null, _, _ => rfl
  | .bool _, _, _ => rfl
  | .number _, _, _ => rfl
  | .string _, _, _ => rfl
  | .array items, _, 0 => rfl
  | .array items, ordered, depth + 1 => by
    have read := ofItems_ofItems items ordered depth
    rw [Node.ofValue, ofNode, read, nesting]
    · by_cases fits : nestingOfItems items ≤ depth
      · rw [if_pos fits, if_pos (Nat.succ_le_succ fits)]
        rfl
      · rw [if_neg fits, if_neg fun more => fits (Nat.le_of_succ_le_succ more)]
        rfl
    · exact Nat.succ_ne_zero depth
  | .object fields, _, 0 => rfl
  | .object fields, ordered, depth + 1 => by
    have read := ofMembers_ofFields fields ordered.2 depth [] ordered.1
    rw [Node.ofValue, ofNode, read, nesting]
    · by_cases fits : nestingOfFields fields ≤ depth
      · rw [if_pos fits, if_pos (Nat.succ_le_succ fits)]
        rfl
      · rw [if_neg fits, if_neg fun more => fits (Nat.le_of_succ_le_succ more)]
        rfl
    · exact Nat.succ_ne_zero depth

/-- The trees of items are read as the items. -/
theorem ofItems_ofItems : ∀ (items : List Value), ItemsOrdered items → ∀ (depth : Nat),
    ofItems (depth + 1) (Node.ofItems items) =
      if nestingOfItems items ≤ depth then .ok items else .error .recursionLimit
  | [], _, _ => rfl
  | item :: rest, ⟨own, others⟩, depth => by
    rw [Node.ofItems, ofItems, ofNode_ofValue item own depth, ofItems_ofItems rest others depth,
      nestingOfItems]
    by_cases fits : item.nesting ≤ depth
    · by_cases more : nestingOfItems rest ≤ depth
      · rw [if_pos fits, if_pos more, if_pos (Nat.max_le.mpr ⟨fits, more⟩)]
        rfl
      · rw [if_pos fits, if_neg more, if_neg fun both => more (Nat.max_le.mp both).2]
        rfl
    · rw [if_neg fits, if_neg fun both => fits (Nat.max_le.mp both).1]
      rfl

/-- The trees of members are read as the members, behind those before them. -/
theorem ofMembers_ofFields : ∀ (fields : Fields), FieldsOrdered fields → ∀ (depth : Nat)
    (before : Fields), Fields.Ascending (before ++ fields) →
      ofMembers (depth + 1) before (Node.ofFields fields) =
        if nestingOfFields fields ≤ depth then .ok (before ++ fields) else .error .recursionLimit
  | [], _, _, before, _ => by
    rw [List.append_nil]
    rfl
  | (key, value) :: rest, ⟨own, others⟩, depth, before, ascending => by
    have beyond := Fields.Ascending.beyond ascending
    rw [← List.singleton_append, ← List.append_assoc] at ascending
    have read := ofMembers_ofFields rest others depth (before ++ [(key, value)]) ascending
    rw [List.append_assoc, List.singleton_append] at read
    rw [Node.ofFields, ofMembers, nestingOfFields]
    simp only [ofNode_ofValue value own depth]
    by_cases fits : value.nesting ≤ depth
    · rw [if_pos fits]
      change ofMembers (depth + 1) (Fields.insert before key value) _ = _
      rw [Fields.insert_eq_append beyond, read]
      by_cases more : nestingOfFields rest ≤ depth
      · rw [if_pos more, if_pos (Nat.max_le.mpr ⟨fits, more⟩)]
      · rw [if_neg more, if_neg fun both => more (Nat.max_le.mp both).2]
    · rw [if_neg fits, if_neg fun both => fits (Nat.max_le.mp both).1]
      rfl

end

/-! ### What is read of a tree -/

theorem fieldsOrdered_iff {fields : List (String × Value)} :
    FieldsOrdered fields ↔ ∀ field ∈ fields, field.2.Ordered := by
  induction fields with
  | nil => exact ⟨fun _ => nofun, fun _ => trivial⟩
  | cons field rest ih => rw [FieldsOrdered, ih, List.forall_mem_cons]

theorem nestingOfFields_le_iff {fields : List (String × Value)} {depth : Nat} :
    nestingOfFields fields ≤ depth ↔ ∀ field ∈ fields, field.2.nesting ≤ depth := by
  induction fields with
  | nil => exact ⟨fun _ => nofun, fun _ => Nat.zero_le depth⟩
  | cons field rest ih => rw [nestingOfFields, Nat.max_le, ih, List.forall_mem_cons]

/-- Members in the order of their keys whose values are in order and nest within a limit. -/
structure FieldsWithin (depth : Nat) (fields : Fields) : Prop where
  ascending : Fields.Ascending fields
  ordered : ∀ field ∈ fields, field.2.Ordered
  nesting : ∀ field ∈ fields, field.2.nesting ≤ depth

theorem FieldsWithin.insert {depth : Nat} {fields : Fields} (within : FieldsWithin depth fields)
    (key : String) {value : Value} (ordered : value.Ordered) (nesting : value.nesting ≤ depth) :
    FieldsWithin depth (Fields.insert fields key value) where
  ascending := within.ascending.insert key value
  ordered field listed := by
    rcases Fields.mem_insert listed with rfl | earlier
    · exact ordered
    · exact within.ordered field earlier
  nesting field listed := by
    rcases Fields.mem_insert listed with rfl | earlier
    · exact nesting
    · exact within.nesting field earlier

mutual

/-- What is read of a tree is in order, and nests within the limit. -/
theorem ofNode_within : ∀ (node : Node) {depth : Nat} {value : Value},
    ofNode (depth + 1) node = .ok value → value.Ordered ∧ value.nesting ≤ depth
  | .null, _, _, read => by
    cases read
    exact ⟨trivial, Nat.zero_le _⟩
  | .bool _, _, _, read => by
    cases read
    exact ⟨trivial, Nat.zero_le _⟩
  | .number _, _, _, read => by
    obtain ⟨n, _, rfl⟩ := Success.map_eq_ok.mp read
    exact ⟨trivial, Nat.zero_le _⟩
  | .string _, _, _, read => by
    obtain ⟨s, _, rfl⟩ := Success.map_eq_ok.mp read
    exact ⟨trivial, Nat.zero_le _⟩
  | .list items stop, 0, _, read => by cases read
  | .list items stop, depth + 1, _, read => by
    obtain ⟨values, found, read⟩ := Success.bind_eq_ok.mp read
    obtain ⟨_, _, read⟩ := Success.bind_eq_ok.mp read
    cases read
    obtain ⟨ordered, within⟩ := ofItems_within items found
    exact ⟨ordered, Nat.succ_le_succ within⟩
  | .record members stop, 0, _, read => by cases read
  | .record members stop, depth + 1, _, read => by
    obtain ⟨fields, found, read⟩ := Success.bind_eq_ok.mp read
    obtain ⟨_, _, read⟩ := Success.bind_eq_ok.mp read
    cases read
    have within := ofMembers_within members ⟨List.Pairwise.nil, nofun, nofun⟩ found
    exact ⟨⟨within.ascending, fieldsOrdered_iff.mpr within.ordered⟩,
      Nat.succ_le_succ (nestingOfFields_le_iff.mpr within.nesting)⟩
  | .fault f, _, _, read => by cases read

theorem ofItems_within : ∀ (items : List Node) {depth : Nat} {values : List Value},
    ofItems (depth + 1) items = .ok values → ItemsOrdered values ∧ nestingOfItems values ≤ depth
  | [], _, _, read => by
    cases read
    exact ⟨trivial, Nat.zero_le _⟩
  | item :: rest, _, _, read => by
    obtain ⟨value, found, read⟩ := Success.bind_eq_ok.mp read
    obtain ⟨values, others, read⟩ := Success.bind_eq_ok.mp read
    cases read
    obtain ⟨ordered, within⟩ := ofNode_within item found
    obtain ⟨othersOrdered, othersWithin⟩ := ofItems_within rest others
    exact ⟨⟨ordered, othersOrdered⟩, Nat.max_le.mpr ⟨within, othersWithin⟩⟩

theorem ofMembers_within : ∀ (members : List (Except Cause String × Node)) {depth : Nat}
    {before fields : Fields}, FieldsWithin depth before →
      ofMembers (depth + 1) before members = .ok fields → FieldsWithin depth fields
  | [], _, _, _, within, read => by
    cases read
    exact within
  | (key, item) :: rest, _, _, _, within, read => by
    obtain ⟨name, _, read⟩ := Success.bind_eq_ok.mp read
    obtain ⟨value, found, read⟩ := Success.bind_eq_ok.mp read
    obtain ⟨ordered, nesting⟩ := ofNode_within item found
    exact ofMembers_within rest (within.insert name ordered nesting) read

end

end Value

end CodeNav.Json
