/-
Module: CodeNav.Proofs.Json.Members
Purpose: A sequence is read item by item, and a structure member by member in any order.
Main exports:
  Json.Decoder.list_toOption, Json.Shape.takeAll?, Json.Field.Apart, Json.Shape.Independent,
  Json.Decoder.shape_object_toOption, Json.Decoder.shape_record_toOption
-/
import CodeNav.Proofs.Json.Records
import Mathlib.Data.List.Pairwise

namespace CodeNav.Json

namespace Node

mutual

/-- There is nothing to stop at in the tree of a value. -/
theorem skim_ofValue : ∀ value : Value, skim (.ofValue value) = .ok ()
  | .null => rfl
  | .bool _ => rfl
  | .number _ => rfl
  | .string _ => rfl
  | .array items => by
    rw [ofValue, skim, skimItems_ofItems items]
    rfl
  | .object fields => by
    rw [ofValue, skim, skimMembers_ofFields fields]
    rfl

theorem skimItems_ofItems : ∀ items : List Value, skimItems (ofItems items) = .ok ()
  | [] => rfl
  | item :: rest => by
    rw [ofItems, skimItems, skim_ofValue item, skimItems_ofItems rest]
    rfl

theorem skimMembers_ofFields : ∀ fields : List (String × Value),
    skimMembers (ofFields fields) = .ok ()
  | [] => rfl
  | (_, value) :: rest => by
    rw [ofFields, skimMembers, skim_ofValue value, skimMembers_ofFields rest]
    rfl

end

end Node

/-! ### Items one by one -/

namespace Decoder

variable {α : Type} (item : Decoder α)

theorem items_toOption (r : Reading) (n : Nat) (nodes : List Node) :
    (items item r n nodes).toOption = nodes.mapM fun node => (item r node).toOption := by
  induction nodes generalizing n with
  | nil => rfl
  | cons node rest ih =>
      rw [items, Success.toOption_bind, Success.toOption_mapError, List.mapM_cons]
      refine congrArg _ (funext fun value => ?_)
      rw [Success.toOption_bind, ih]
      rfl

/-- A sequence is read if each of its items is. -/
theorem list_toOption (depth : Nat) (complete : Bool) (nodes : List Node) :
    (list item ⟨depth + 2, complete⟩ (.list nodes none)).toOption =
      nodes.mapM fun node => (item ⟨depth + 1, complete⟩ node).toOption := by
  have enter : Reading.enter ⟨depth + 2, complete⟩ = .ok ⟨depth + 1, complete⟩ := rfl
  have ends : atTop (closed none) = .ok () := rfl
  rw [list, enter, Success.ok_bind, Success.toOption_bind, items_toOption, ends]
  exact Option.bind_fun_some _

end Decoder

/-! ### Members one by one -/

namespace Shape

variable {σ : Type} (shape : Shape σ) (r : Reading)

/-- Takes over a member, if that can be done; an unknown one changes nothing. -/
def take? (s : σ) (member : String × Value) : Option σ :=
  match shape.fields.find? (·.name == member.1) with
  | none => some s
  | some field => (field.take r (.ofValue member.2) s).toOption

/-- Takes over members one by one. -/
def takeAll? (s : σ) (members : List (String × Value)) : Option σ :=
  members.foldlM (shape.take? r) s

/-- Whether there is a field with a name. -/
def knows (name : String) : Bool :=
  (shape.fields.find? (·.name == name)).isSome

variable {shape r}

theorem takeMembers_unknown {name : String} (unknown : shape.fields.find? (·.name == name) = none)
    (seen : List String) (s : σ) (value : Value) (rest : List (Except Cause String × Node)) :
    shape.takeMembers r seen s ((.ok name, .ofValue value) :: rest) =
      shape.takeMembers r seen s rest := by
  have key : Decoder.key (.ok name) = pure name := rfl
  rw [takeMembers, key, pure_bind]
  simp only [unknown, Node.skim_ofValue]
  rfl

theorem takeMembers_known {name : String} {field : Field σ}
    (known : shape.fields.find? (·.name == name) = some field) {seen : List String}
    (fresh : name ∉ seen) (s : σ) (node : Node) (rest : List (Except Cause String × Node)) :
    shape.takeMembers r seen s ((.ok name, node) :: rest) = (do
      let s ← (field.take r node s).mapError (·.below (.key name))
      shape.takeMembers r (name :: seen) s rest) := by
  have key : Decoder.key (.ok name) = pure name := rfl
  have unseen : seen.contains name = false := by simpa using fresh
  rw [takeMembers, key, pure_bind]
  simp only [known, unseen]
  rfl

variable (shape r) in
/-- Members with distinct keys are taken over one by one. -/
theorem takeMembers_toOption (members : List (String × Value)) (seen : List String) (s : σ)
    (nodup : (members.map Prod.fst).Nodup) (fresh : ∀ member ∈ members, member.1 ∉ seen) :
    (shape.takeMembers r seen s (Node.ofFields members)).toOption =
      (shape.takeAll? r s members).map fun t =>
        (((members.map Prod.fst).filter shape.knows).reverse ++ seen, t) := by
  induction members generalizing seen s with
  | nil => rfl
  | cons member rest ih =>
      obtain ⟨name, value⟩ := member
      obtain ⟨own, nodup⟩ := List.nodup_cons.mp nodup
      obtain ⟨unseen, fresh⟩ := List.forall_mem_cons.mp fresh
      rw [Node.ofFields, takeAll?, List.foldlM_cons, List.map_cons]
      cases found : shape.fields.find? (·.name == name) with
      | none =>
          have unknown : ¬ shape.knows name = true := by simp [knows, found]
          have skipped : shape.take? r s (name, value) = some s := by rw [take?, found]
          rw [takeMembers_unknown found, ih seen s nodup fresh, skipped,
            List.filter_cons_of_neg unknown]
          rfl
      | some field =>
          have known : shape.knows name = true := by simp [knows, found]
          have taken : shape.take? r s (name, value) =
              (field.take r (.ofValue value) s).toOption := by
            rw [take?, found]
          have later : ∀ other ∈ rest, other.1 ∉ name :: seen := by
            intro other member same
            rcases List.mem_cons.mp same with same | earlier
            · exact own (List.mem_map.mpr ⟨other, member, same⟩)
            · exact fresh other member earlier
          rw [takeMembers_known found unseen, Success.toOption_bind, Success.toOption_mapError,
            taken, List.filter_cons_of_pos known, List.reverse_cons, List.append_assoc]
          cases (field.take r (.ofValue value) s).toOption with
          | none => rfl
          | some t => exact ih (name :: seen) t nodup later

theorem checkMissing_eq_ok {seen : List String} : shape.checkMissing seen = .ok () ↔
    ∀ field ∈ shape.fields, field.required = true → field.name ∈ seen := by
  unfold checkMissing
  split
  · rename_i complete
    simp only [missing, List.map_eq_nil_iff, List.filter_eq_nil_iff] at complete
    refine iff_of_true rfl fun field listed required => ?_
    simpa [required] using complete field listed
  · rename_i name others lacks
    refine iff_of_false (by rintro ⟨⟩) fun all => ?_
    have first : name ∈ shape.missing seen := lacks ▸ List.mem_cons_self
    obtain ⟨field, absent, _⟩ := List.mem_map.mp first
    obtain ⟨listed, absent⟩ := List.mem_filter.mp absent
    simp only [Bool.and_eq_true, Bool.not_eq_true', List.contains_eq_mem,
      decide_eq_false_iff_not] at absent
    exact absent.2 (all field listed absent.1)

theorem knows_of_mem {field : Field σ} (listed : field ∈ shape.fields) :
    shape.knows field.name = true :=
  List.find?_isSome.mpr ⟨field, listed, beq_self_eq_true field.name⟩

end Shape

/-- An object with distinct keys is read as a structure if all its required members are there and
all that are known can be taken over. -/
theorem Decoder.shape_object_toOption {σ : Type} (shape : Shape σ) (depth : Nat) (complete : Bool)
    {fields : List (String × Value)} (nodup : (fields.map Prod.fst).Nodup) :
    (Decoder.shape shape ⟨depth + 2, complete⟩ (.ofValue (.object fields))).toOption =
      if ∀ field ∈ shape.fields, field.required = true → field.name ∈ fields.map Prod.fst then
        shape.takeAll? ⟨depth + 1, complete⟩ shape.start fields
      else none := by
  have enter : Reading.enter ⟨depth + 2, complete⟩ = .ok ⟨depth + 1, complete⟩ := rfl
  have last : lastKey none = .ok () := rfl
  have taken := Shape.takeMembers_toOption shape ⟨depth + 1, complete⟩ fields [] shape.start nodup
    fun _ _ => List.not_mem_nil
  have seen : (∀ field ∈ shape.fields, field.required = true → field.name ∈
        ((fields.map Prod.fst).filter shape.knows).reverse ++ []) ↔
      ∀ field ∈ shape.fields, field.required = true → field.name ∈ fields.map Prod.fst := by
    refine forall₃_congr fun field listed _ => ?_
    rw [List.append_nil, List.mem_reverse, List.mem_filter,
      and_iff_left (Shape.knows_of_mem listed)]
  rw [Node.ofValue, Decoder.shape]
  · simp only [Decoder.record, enter, last, Success.ok_bind, Success.toOption_bind, taken]
    cases shape.takeAll? ⟨depth + 1, complete⟩ shape.start fields with
    | none => exact (ite_self none).symm
    | some s =>
        have checked := Shape.checkMissing_eq_ok.trans seen
        simp only [Option.map_some, Option.bind_some]
        by_cases all : ∀ field ∈ shape.fields, field.required = true →
            field.name ∈ fields.map Prod.fst
        · rw [if_pos all, checked.mpr all]
          rfl
        · rw [if_neg all]
          cases checks : shape.checkMissing
              (((fields.map Prod.fst).filter shape.knows).reverse ++ []) with
          | error m => rfl
          | ok _ => exact absurd (checked.mp checks) all
  · rintro _ _ ⟨⟩

/-! ### Members in any order -/

namespace Field

variable {σ : Type}

/-- Of two members of a structure either may be taken over first. -/
def Apart (f g : Field σ) : Prop :=
  ∀ r a b s, ((f.take r a s).toOption.bind fun t => (g.take r b t).toOption) =
    (g.take r b s).toOption.bind fun t => (f.take r a t).toOption

instance : Std.Symm (@Apart σ) :=
  ⟨fun _ _ apart r a b s => (apart r b a s).symm⟩

/-- Members that are stored in different places are apart. -/
theorem apart_of_set {α β : Type} {name other : String} {required requiredToo : Bool}
    {item : Decoder α} {itemToo : Decoder β} {set : σ → α → σ} {setToo : σ → β → σ}
    (places : ∀ s a b, setToo (set s a) b = set (setToo s b) a) :
    Apart ⟨name, required, fun r node s => (item r node).map (set s)⟩
      ⟨other, requiredToo, fun r node s => (itemToo r node).map (setToo s)⟩ := by
  intro r x y s
  simp only [Success.toOption_map]
  cases (item r x).toOption with
  | none => cases (itemToo r y).toOption <;> rfl
  | some a =>
      cases (itemToo r y).toOption with
      | none => rfl
      | some b => exact congrArg some (places s a b)

end Field

namespace Shape

variable {σ : Type} {shape : Shape σ} {r : Reading}

/-- The members of a structure may be taken over in any order. -/
def Independent (shape : Shape σ) : Prop :=
  shape.fields.Pairwise Field.Apart

theorem take?_comm (independent : shape.Independent) {a b : String × Value} (other : a.1 ≠ b.1)
    (s : σ) : (shape.take? r s a).bind (shape.take? r · b) =
      (shape.take? r s b).bind (shape.take? r · a) := by
  unfold take?
  cases first : shape.fields.find? (·.name == a.1) with
  | none => simp
  | some f =>
      cases second : shape.fields.find? (·.name == b.1) with
      | none => simp
      | some g =>
          have apart : f ≠ g := by
            rintro rfl
            have own := List.find?_some first
            have same := List.find?_some second
            simp only [beq_iff_eq] at own same
            exact other (own.symm.trans same)
          exact independent.forall (List.mem_of_find?_eq_some first)
            (List.mem_of_find?_eq_some second) apart r _ _ s

/-- Members with distinct keys amount to the same in any order. -/
theorem takeAll?_perm (independent : shape.Independent) {members others : List (String × Value)}
    (perm : members.Perm others) (nodup : (members.map Prod.fst).Nodup) (s : σ) :
    shape.takeAll? r s members = shape.takeAll? r s others := by
  induction perm generalizing s with
  | nil => rfl
  | cons member _ ih =>
      rw [takeAll?, takeAll?, List.foldlM_cons, List.foldlM_cons]
      exact congrArg _ (funext (ih (List.nodup_cons.mp nodup).2))
  | swap a b rest =>
      have other : b.1 ≠ a.1 := fun same => (List.nodup_cons.mp nodup).1 (by simp [same])
      simp only [takeAll?, List.foldlM_cons]
      rw [← bind_assoc, ← bind_assoc]
      exact congrArg (· >>= fun t => rest.foldlM (shape.take? r) t) (take?_comm independent other s)
  | trans first _ ih ihToo =>
      exact (ih nodup s).trans (ihToo ((first.map Prod.fst).nodup_iff.mp nodup) s)

/-- A member that no field knows is passed over. -/
theorem take?_of_unknown {name : String} (unknown : shape.knows name = false) (s : σ)
    (value : Value) : shape.take? r s (name, value) = some s := by
  have none : shape.fields.find? (·.name == name) = none := by simpa [knows] using unknown
  rw [take?, none]

end Shape

/-- An object is read as a structure in the order in which it binds its keys. -/
theorem Decoder.shape_record_toOption {σ : Type} {shape : Shape σ}
    (independent : shape.Independent) (depth : Nat) (complete : Bool)
    {bindings : List (String × Value)} (nodup : (bindings.map Prod.fst).Nodup) :
    (Decoder.shape shape ⟨depth + 2, complete⟩ (.ofValue (.record bindings))).toOption =
      if ∀ field ∈ shape.fields, field.required = true → field.name ∈ bindings.map Prod.fst then
        shape.takeAll? ⟨depth + 1, complete⟩ shape.start bindings
      else none := by
  have perm := Fields.ofList_perm nodup
  have kept : ((Fields.ofList bindings).map Prod.fst).Nodup :=
    (perm.map Prod.fst).nodup_iff.mpr nodup
  rw [Value.record, shape_object_toOption shape depth complete kept,
    Shape.takeAll?_perm independent perm kept]
  simp only [(perm.map Prod.fst).mem_iff]

end CodeNav.Json
