/-
Module: CodeNav.Proofs.Json.Records
Purpose: Structures written as objects are read back, in whatever order their members stand.
Main exports:
  Json.Fields.ofList_perm, Json.Shape.Fills, Json.Decoder.shape_record
-/
import CodeNav.Json.Decoder
import CodeNav.Proofs.Json.Trees
import CodeNav.Proofs.Success
import Mathlib.Data.List.Perm.Basic
import Mathlib.Data.List.Nodup

namespace CodeNav.Json

namespace Fields

/-- A new key is bound somewhere among the others. -/
theorem insert_perm {fields : Fields} {key : String} (fresh : key ∉ fields.map Prod.fst)
    (value : Value) : (insert fields key value).Perm ((key, value) :: fields) := by
  induction fields with
  | nil => exact .refl _
  | cons field rest ih =>
      obtain ⟨k, v⟩ := field
      simp only [List.map_cons, List.mem_cons, not_or] at fresh
      rw [insert]
      cases order : compare key k with
      | lt => exact .refl _
      | eq => exact absurd (Std.LawfulEqOrd.eq_of_compare order) fresh.1
      | gt => exact ((ih fresh.2).cons (k, v)).trans (.swap _ _ _)

theorem foldl_insert_perm (bindings : List (String × Value)) (fields : Fields)
    (nodup : (fields.map Prod.fst ++ bindings.map Prod.fst).Nodup) :
    (bindings.foldl (fun fields (key, value) => insert fields key value) fields).Perm
      (fields ++ bindings) := by
  induction bindings generalizing fields with
  | nil =>
      rw [List.append_nil]
      exact .refl _
  | cons binding rest ih =>
      obtain ⟨key, value⟩ := binding
      rw [List.map_cons] at nodup
      have fresh : key ∉ fields.map Prod.fst := fun member =>
        (List.nodup_append.mp nodup).2.2 key member key List.mem_cons_self rfl
      have inserted := insert_perm fresh value
      have keys : ((insert fields key value).map Prod.fst).Perm (key :: fields.map Prod.fst) :=
        inserted.map Prod.fst
      have next : ((insert fields key value).map Prod.fst ++ rest.map Prod.fst).Nodup := by
        refine ((keys.append_right _).trans ?_).nodup_iff.mpr nodup
        exact List.perm_middle.symm
      exact (ih _ next).trans ((inserted.append_right rest).trans List.perm_middle.symm)

/-- Bindings of distinct keys are kept, in some order. -/
theorem ofList_perm {bindings : List (String × Value)} (nodup : (bindings.map Prod.fst).Nodup) :
    (ofList bindings).Perm bindings :=
  foldl_insert_perm bindings [] nodup

end Fields

/-! ### Members taken over -/

namespace Shape

variable {σ : Type} {shape : Shape σ} {r : Reading} {draft : List String → σ}

/-- Taking over a member leads from what some members amount to, to what they amount to with it. -/
def Fills (shape : Shape σ) (r : Reading) (draft : List String → σ) (member : String × Value) :
    Prop :=
  ∃ field, shape.fields.find? (·.name == member.1) = some field ∧
    ∀ seen, field.take r (.ofValue member.2) (draft seen) = .ok (draft (member.1 :: seen))

/-- A member that a decoder reads and a setter stores fills the structure with it. -/
theorem fills_of_reads {α : Type} {name : String} {value : Value} {item : Decoder α}
    {set : σ → α → σ} {a : α} {required : Bool}
    (found : shape.fields.find? (·.name == name) =
      some ⟨name, required, fun r node s => (item r node).map (set s)⟩)
    (reads : item r (.ofValue value) = .ok a)
    (sets : ∀ seen, set (draft seen) a = draft (name :: seen)) :
    shape.Fills r draft (name, value) := by
  refine ⟨_, found, fun seen => ?_⟩
  change (item r _).map _ = _
  rw [reads, ← sets]
  rfl

/-- A member that fills the structure is taken over, and the others follow. -/
theorem takeMembers_cons {member : String × Value} {seen : List String}
    (fills : shape.Fills r draft member) (unseen : member.1 ∉ seen)
    (rest : List (String × Value)) :
    shape.takeMembers r seen (draft seen) (Node.ofFields (member :: rest)) =
      shape.takeMembers r (member.1 :: seen) (draft (member.1 :: seen)) (Node.ofFields rest) := by
  obtain ⟨name, value⟩ := member
  obtain ⟨field, found, taken⟩ := fills
  have unseen : seen.contains name = false := by simpa using unseen
  have key : Decoder.key (.ok name) = pure name := rfl
  rw [Node.ofFields, takeMembers, key, pure_bind]
  simp only [found, unseen, Bool.false_eq_true, if_false, taken seen]
  rfl

/-- Names that are distinct and were not seen are still not seen behind the first of them. -/
theorem unseen_rest {member : String × Value} {rest : List (String × Value)} {seen : List String}
    (nodup : ((member :: rest).map Prod.fst).Nodup)
    (fresh : ∀ other ∈ member :: rest, other.1 ∉ seen) :
    ∀ other ∈ rest, other.1 ∉ member.1 :: seen := by
  intro other among same
  rcases List.mem_cons.mp same with own | earlier
  · exact (List.nodup_cons.mp nodup).1 (List.mem_map.mpr ⟨other, among, own⟩)
  · exact fresh other (List.mem_cons_of_mem _ among) earlier

theorem takeMembers_fills (members : List (String × Value)) (seen : List String)
    (fills : ∀ member ∈ members, shape.Fills r draft member)
    (nodup : (members.map Prod.fst).Nodup) (fresh : ∀ member ∈ members, member.1 ∉ seen) :
    shape.takeMembers r seen (draft seen) (Node.ofFields members) =
      .ok ((members.map Prod.fst).reverse ++ seen,
        draft ((members.map Prod.fst).reverse ++ seen)) := by
  induction members generalizing seen with
  | nil => rfl
  | cons member rest ih =>
      have first := takeMembers_cons (fills member List.mem_cons_self)
        (fresh member List.mem_cons_self) rest
      have next := ih (member.1 :: seen)
        (fun other among => fills other (List.mem_cons_of_mem _ among))
        (List.nodup_cons.mp nodup).2 (unseen_rest nodup fresh)
      rw [first, next, List.map_cons, List.reverse_cons, List.append_assoc, List.singleton_append]

end Shape

namespace Decoder

variable {σ α : Type}

/-- A structure written as an object is read back if all its members amount to it. -/
theorem shape_record {shape : Shape σ} (draft : List String → σ) {depth : Nat} {complete : Bool}
    {bindings : List (String × Value)} {s : σ} (starts : draft [] = shape.start)
    (fills : ∀ member ∈ bindings, shape.Fills ⟨depth + 1, complete⟩ draft member)
    (nodup : (bindings.map Prod.fst).Nodup)
    (whole : ∀ field ∈ shape.fields, field.required = true → field.name ∈ bindings.map Prod.fst)
    (amounts : ∀ names, (∀ name, name ∈ names ↔ name ∈ bindings.map Prod.fst) →
      draft names = s) :
    Decoder.shape shape ⟨depth + 2, complete⟩ (.ofValue (.record bindings)) = .ok s := by
  have listed := Fields.ofList_perm nodup
  have names := listed.map Prod.fst
  have taken := Shape.takeMembers_fills (Fields.ofList bindings) []
    (fun member among => fills member (listed.mem_iff.mp among)) (names.nodup_iff.mpr nodup)
    fun _ _ => List.not_mem_nil
  rw [List.append_nil, starts, amounts _ fun name => List.mem_reverse.trans names.mem_iff] at taken
  have complete' : shape.missing ((Fields.ofList bindings).map Prod.fst).reverse = [] := by
    rw [Shape.missing, List.map_eq_nil_iff, List.filter_eq_nil_iff]
    intro field member absent
    simp only [Bool.and_eq_true, Bool.not_eq_true', List.contains_eq_mem, decide_eq_false_iff_not,
      List.mem_reverse, names.mem_iff] at absent
    exact absent.2 (whole field member absent.1)
  have enter : Reading.enter ⟨depth + 2, complete⟩ = .ok ⟨depth + 1, complete⟩ := rfl
  have last : lastKey none = .ok () := rfl
  rw [Value.record, Node.ofValue, Decoder.shape]
  · simp only [Decoder.record, enter, taken, last, Success.ok_bind, Shape.checkMissing, complete']
    rfl
  · exact nofun

/-! ### Values, lists and maps -/

variable {r : Reading}

theorem string_ofValue (s : String) : string r (.ofValue (.string s)) = .ok s :=
  rfl

theorem natural_nat {n limit : Nat} (fits : n < limit) (type : String) :
    natural limit type r (.ofValue (.nat n)) = .ok n := by
  have within : (0 ≤ (n : Int) && (n : Int) < limit) = true := by simpa using fits
  change (if (0 ≤ (n : Int) && (n : Int) < limit) = true then pure (n : Int).toNat else _) = _
  rw [if_pos within]
  rfl

theorem u32_nat (n : UInt32) : u32 r (.ofValue (.nat n.toNat)) = .ok n := by
  have fits : n.toNat < capacity 32 := n.toNat_lt
  rw [u32, natural_nat fits]
  change Except.ok (UInt32.ofNat n.toNat) = _
  rw [UInt32.ofNat_toNat]

theorem index_nat (n : UInt64) : index r (.ofValue (.nat n.toNat)) = .ok n := by
  have fits : n.toNat < capacity 64 := n.toNat_lt
  rw [index, natural_nat fits]
  change Except.ok (UInt64.ofNat n.toNat) = _
  rw [UInt64.ofNat_toNat]

theorem any_ofValue {value : Value} (ordered : value.Ordered) {depth : Nat} {complete : Bool} :
    any ⟨depth + 1, complete⟩ (.ofValue value) =
      if value.nesting ≤ depth then .ok value else .error (.of .recursionLimit) := by
  rw [any, Value.ofNode_ofValue value ordered]
  split <;> rfl

theorem items_map {item : Decoder α} {write : α → Value} {values : List α}
    (reads : ∀ a ∈ values, item r (.ofValue (write a)) = .ok a) (n : Nat) :
    items item r n (Node.ofItems (values.map write)) = .ok values := by
  induction values generalizing n with
  | nil => rfl
  | cons a rest ih =>
      rw [List.map_cons, Node.ofItems, items, reads a List.mem_cons_self]
      change (do
        let values ← items item r (n + 1) (Node.ofItems (rest.map write))
        return a :: values) = _
      rw [ih fun b member => reads b (List.mem_cons_of_mem a member)]
      rfl

/-- A list is read back if its items are. -/
theorem list_map {item : Decoder α} {write : α → Value} {values : List α} {depth : Nat}
    {complete : Bool}
    (reads : ∀ a ∈ values, item ⟨depth + 1, complete⟩ (.ofValue (write a)) = .ok a) :
    list item ⟨depth + 2, complete⟩ (.ofValue (.array (values.map write))) = .ok values := by
  change (do
    let values ← items item ⟨depth + 1, complete⟩ 0 (Node.ofItems (values.map write))
    atTop (closed none)
    return values) = _
  rw [items_map reads]
  rfl

theorem bindings_map {item : Decoder α} {write : α → Value} {members : List (String × α)}
    (reads : ∀ member ∈ members, item r (.ofValue (write member.2)) = .ok member.2) :
    bindings item r (Node.ofFields (members.map fun member => (member.1, write member.2))) =
      .ok members := by
  induction members with
  | nil => rfl
  | cons member rest ih =>
      obtain ⟨name, a⟩ := member
      rw [List.map_cons, Node.ofFields, bindings, reads (name, a) List.mem_cons_self]
      change (do
        let values ← bindings item r
          (Node.ofFields (rest.map fun member : String × α => (member.1, write member.2)))
        return (name, a) :: values) = _
      rw [ih fun other among => reads other (List.mem_cons_of_mem _ among)]
      rfl

/-- A map is read back if its values are. -/
theorem map_map {item : Decoder α} {write : α → Value} {members : List (String × α)} {depth : Nat}
    {complete : Bool}
    (reads : ∀ member ∈ members,
      item ⟨depth + 1, complete⟩ (.ofValue (write member.2)) = .ok member.2) :
    map item ⟨depth + 2, complete⟩
        (.ofValue (.object (members.map fun member => (member.1, write member.2)))) =
      .ok members := by
  change (do
    let values ← bindings item ⟨depth + 1, complete⟩
      (Node.ofFields (members.map fun member : String × α => (member.1, write member.2)))
    lastKey none
    return values) = _
  rw [bindings_map reads]
  rfl

/-- A value that may be absent is read back unless it is written as null. -/
theorem option_some {item : Decoder α} {value : Value} {a : α} (present : value ≠ .null)
    (reads : item r (.ofValue value) = .ok a) : option item r (.ofValue value) = .ok (some a) := by
  cases value with
  | null => exact absurd rfl present
  | _ => exact congrArg (Except.map some) reads

end Decoder

end CodeNav.Json
