/-
Module: CodeNav.Proofs.Json.Reordered
Purpose: The value of a tree depends neither on the order of members nor on unused depth.
Main exports:
  Json.Node.nesting, Json.Node.Reordered, Json.Value.ofNode_of_nesting,
  Json.Value.ofNode_record_eq_ok, Json.Node.Reordered.ofNode_iff
-/
import CodeNav.Proofs.Json.Records

namespace CodeNav.Json

/-! ### Members of objects -/

namespace Fields

variable {fields bindings : Fields} {key : String} {value : Value}

theorem ascending_ofList (bindings : List (String × Value)) : Ascending (ofList bindings) := by
  unfold ofList
  induction bindings using List.reverseRecOn with
  | nil => exact List.Pairwise.nil
  | append_singleton bindings binding ih =>
      rw [List.foldl_append]
      exact ih.insert binding.1 binding.2

theorem Ascending.nodup (ascending : Ascending fields) : (fields.map Prod.fst).Nodup := by
  refine List.pairwise_map.mpr (ascending.imp ?_)
  intro a b before same
  rw [same] at before
  exact absurd before (by simp)

/-- Bindings of distinct keys make the same object in any order. -/
theorem ofList_eq_of_perm {others : List (String × Value)} (nodup : (bindings.map Prod.fst).Nodup)
    (perm : bindings.Perm others) : ofList bindings = ofList others := by
  have same : (ofList bindings).Perm (ofList others) :=
    (ofList_perm nodup).trans
      (perm.trans (ofList_perm ((perm.map Prod.fst).nodup_iff.mp nodup)).symm)
  refine same.eq_of_pairwise ?_ (ascending_ofList bindings) (ascending_ofList others)
  intro a b _ _ before after
  exact absurd (Std.TransCmp.lt_trans before after) (by simp)

/-- Of distinct keys each is bound to its own value. -/
theorem get?_eq_some_iff (nodup : (fields.map Prod.fst).Nodup) :
    get? fields key = some value ↔ (key, value) ∈ fields := by
  induction fields with
  | nil => exact ⟨nofun, nofun⟩
  | cons field rest ih =>
      obtain ⟨k, v⟩ := field
      rw [List.map_cons, List.nodup_cons] at nodup
      rw [get?, List.lookup_cons, List.mem_cons, Prod.mk.injEq]
      by_cases own : key = k
      · subst own
        have fresh : (key, value) ∉ rest := fun listed =>
          nodup.1 (List.mem_map.mpr ⟨_, listed, rfl⟩)
        simp [fresh, eq_comm]
      · have other : (key == k) = false := beq_false_of_ne own
        simp only [other, own, false_and, false_or]
        exact ih nodup.2

theorem get?_ofList (nodup : (bindings.map Prod.fst).Nodup) :
    get? (ofList bindings) key = some value ↔ (key, value) ∈ bindings := by
  rw [get?_eq_some_iff (ascending_ofList bindings).nodup]
  exact (ofList_perm nodup).mem_iff

end Fields

/-! ### Depth -/

namespace Node

mutual

/-- How many lists and records of a tree are open at once. -/
def nesting : Node → Nat
  | .list items _ => nestingOfItems items + 1
  | .record members _ => nestingOfMembers members + 1
  | _ => 0

/-- How many lists and records are open at once in the items of a list. -/
def nestingOfItems : List Node → Nat
  | [] => 0
  | item :: rest => max item.nesting (nestingOfItems rest)

/-- How many lists and records are open at once in the members of a record. -/
def nestingOfMembers : List (Except Cause String × Node) → Nat
  | [] => 0
  | (_, item) :: rest => max item.nesting (nestingOfMembers rest)

end

end Node

namespace Value

theorem ofNode_list (depth : Nat) (items : List Node) (stop : Option Fault) :
    ofNode (depth + 2) (.list items stop) = (do
      let values ← ofItems (depth + 1) items
      closed stop
      return .array values) :=
  rfl

theorem ofNode_record (depth : Nat) (members : List (Except Cause String × Node))
    (stop : Option Fault) : ofNode (depth + 2) (.record members stop) = (do
      let fields ← ofMembers (depth + 1) [] members
      closed stop
      return .object fields) :=
  rfl

mutual

/-- Depth that a tree does not use does not matter to its value. -/
theorem ofNode_of_nesting : ∀ (node : Node) {low high : Nat}, node.nesting ≤ low →
    node.nesting ≤ high → ofNode (low + 1) node = ofNode (high + 1) node
  | .null, _, _, _, _ => rfl
  | .bool _, _, _, _, _ => rfl
  | .number _, _, _, _, _ => rfl
  | .string _, _, _, _, _ => rfl
  | .fault _, _, _, _, _ => rfl
  | .list items stop, low + 1, high + 1, fits, fitsToo => by
    rw [ofNode_list, ofNode_list,
      ofItems_of_nesting items (Nat.le_of_succ_le_succ fits) (Nat.le_of_succ_le_succ fitsToo)]
  | .record members stop, low + 1, high + 1, fits, fitsToo => by
    rw [ofNode_record, ofNode_record,
      ofMembers_of_nesting members (Nat.le_of_succ_le_succ fits) (Nat.le_of_succ_le_succ fitsToo)]

theorem ofItems_of_nesting : ∀ (items : List Node) {low high : Nat},
    Node.nestingOfItems items ≤ low → Node.nestingOfItems items ≤ high →
      ofItems (low + 1) items = ofItems (high + 1) items
  | [], _, _, _, _ => rfl
  | item :: rest, _, _, fits, fitsToo => by
    obtain ⟨own, others⟩ := Nat.max_le.mp fits
    obtain ⟨ownToo, othersToo⟩ := Nat.max_le.mp fitsToo
    rw [ofItems, ofItems, ofNode_of_nesting item own ownToo,
      ofItems_of_nesting rest others othersToo]

theorem ofMembers_of_nesting : ∀ (members : List (Except Cause String × Node)) {low high : Nat}
    {fields : Fields}, Node.nestingOfMembers members ≤ low → Node.nestingOfMembers members ≤ high →
      ofMembers (low + 1) fields members = ofMembers (high + 1) fields members
  | [], _, _, _, _, _ => rfl
  | (key, item) :: rest, _, _, _, fits, fitsToo => by
    obtain ⟨own, others⟩ := Nat.max_le.mp fits
    obtain ⟨ownToo, othersToo⟩ := Nat.max_le.mp fitsToo
    rw [ofMembers, ofMembers, ofNode_of_nesting item own ownToo]
    simp only [ofMembers_of_nesting rest others othersToo]

end

/-! ### Values of lists and records -/

theorem closed_eq_ok {stop : Option Fault} : closed stop = .ok () ↔ stop = none := by
  cases stop with
  | none => exact ⟨fun _ => rfl, fun _ => rfl⟩
  | some fault => exact ⟨nofun, nofun⟩

theorem ofItems_eq_ok {depth : Nat} {items : List Node} {values : List Value} :
    ofItems depth items = .ok values ↔
      List.Forall₂ (fun item value => ofNode depth item = .ok value) items values := by
  induction items generalizing values with
  | nil => simp [ofItems, eq_comm]
  | cons item rest ih =>
      rw [ofItems]
      simp only [Success.bind_eq_ok, Success.pure_eq_ok, ih, List.forall₂_cons_left_iff]
      constructor
      · rintro ⟨value, own, others, later, rfl⟩
        exact ⟨value, others, own, later, rfl⟩
      · rintro ⟨value, others, own, later, rfl⟩
        exact ⟨value, own, others, later, rfl⟩

/-- A member is read as a binding of its key. -/
def Binds (depth : Nat) (member : Except Cause String × Node) (binding : String × Value) : Prop :=
  member.1 = .ok binding.1 ∧ ofNode depth member.2 = .ok binding.2

theorem ofMembers_eq_ok {depth : Nat} {members : List (Except Cause String × Node)}
    {before fields : Fields} :
    ofMembers depth before members = .ok fields ↔
      ∃ bindings, List.Forall₂ (Binds depth) members bindings ∧
        bindings.foldl (fun fields (key, value) => Fields.insert fields key value) before =
          fields := by
  induction members generalizing before with
  | nil => simp [ofMembers]
  | cons member rest ih =>
      obtain ⟨key, item⟩ := member
      rw [ofMembers]
      simp only [Success.bind_eq_ok, ih]
      constructor
      · rintro ⟨name, rfl, value, own, bindings, later, rfl⟩
        exact ⟨(name, value) :: bindings, .cons ⟨rfl, own⟩ later, rfl⟩
      · rintro ⟨_ | ⟨⟨name, value⟩, bindings⟩, each, rfl⟩
        · cases each
        · obtain ⟨⟨same, own⟩, later⟩ := List.forall₂_cons.mp each
          exact ⟨name, same, value, own, bindings, later, rfl⟩

/-- What a list is read as. -/
theorem ofNode_list_eq_ok {depth : Nat} {items : List Node} {stop : Option Fault} {value : Value} :
    ofNode (depth + 2) (.list items stop) = .ok value ↔ stop = none ∧
      ∃ values, List.Forall₂ (fun item value => ofNode (depth + 1) item = .ok value) items values ∧
        value = .array values := by
  rw [ofNode_list]
  simp only [Success.bind_eq_ok, Success.pure_eq_ok, ofItems_eq_ok]
  constructor
  · rintro ⟨values, each, _, ends, rfl⟩
    exact ⟨closed_eq_ok.mp ends, values, each, rfl⟩
  · rintro ⟨rfl, values, each, rfl⟩
    exact ⟨values, each, (), rfl, rfl⟩

/-- What a record is read as. -/
theorem ofNode_record_eq_ok {depth : Nat} {members : List (Except Cause String × Node)}
    {stop : Option Fault} {value : Value} :
    ofNode (depth + 2) (.record members stop) = .ok value ↔ stop = none ∧
      ∃ bindings, List.Forall₂ (Binds (depth + 1)) members bindings ∧ value = .record bindings := by
  rw [ofNode_record]
  simp only [Success.bind_eq_ok, Success.pure_eq_ok, ofMembers_eq_ok]
  constructor
  · rintro ⟨fields, ⟨bindings, each, rfl⟩, _, ends, rfl⟩
    exact ⟨closed_eq_ok.mp ends, bindings, each, rfl⟩
  · rintro ⟨rfl, bindings, each, rfl⟩
    exact ⟨_, ⟨bindings, each, rfl⟩, (), rfl, rfl⟩

/-- Nothing but null is read as null. -/
theorem eq_null_of_ofNode {depth : Nat} {node : Node} (read : ofNode depth node = .ok .null) :
    node = .null := by
  cases node with
  | null => rfl
  | bool b => cases read
  | number n => cases n <;> cases read
  | string s => cases s <;> cases read
  | fault f => cases read
  | list items stop =>
      rcases depth with _ | _ | depth
      · cases read
      · cases read
      · obtain ⟨_, _, _, same⟩ := ofNode_list_eq_ok.mp read
        cases same
  | record members stop =>
      rcases depth with _ | _ | depth
      · cases read
      · cases read
      · obtain ⟨_, _, _, same⟩ := ofNode_record_eq_ok.mp read
        cases same

end Value

/-! ### Reordered members -/

namespace Node

/-- The keys of members, apart from those that are no text. -/
def keys (members : List (Except Cause String × Node)) : List String :=
  members.filterMap (·.1.toOption)

theorem keys_of_binds {depth : Nat} {members : List (Except Cause String × Node)}
    {bindings : List (String × Value)}
    (each : List.Forall₂ (Value.Binds depth) members bindings) :
    bindings.map Prod.fst = keys members := by
  induction each with
  | nil => rfl
  | cons own _ ih =>
      obtain ⟨key, _⟩ := own
      simp [keys, key, Except.toOption, ih]

theorem binds_mem {depth : Nat} {members : List (Except Cause String × Node)}
    {bindings : List (String × Value)}
    (each : List.Forall₂ (Value.Binds depth) members bindings)
    {member : Except Cause String × Node} (listed : member ∈ members) :
    ∃ binding ∈ bindings, Value.Binds depth member binding := by
  induction each with
  | nil => cases listed
  | cons own _ ih =>
      rcases List.mem_cons.mp listed with rfl | later
      · exact ⟨_, List.mem_cons_self, own⟩
      · obtain ⟨binding, among, binds⟩ := ih later
        exact ⟨binding, List.mem_cons_of_mem _ among, binds⟩

/-- The members of a record, or of one inside it, stand in another order. No key is there twice. -/
inductive Reordered : Node → Node → Prop
  | members {members others : List (Except Cause String × Node)} (stop : Option Fault) :
      (keys members).Nodup → members.Perm others →
      Reordered (.record members stop) (.record others stop)
  | member {a b : Node} (before after : List (Except Cause String × Node))
      (key : Except Cause String) (stop : Option Fault) : Reordered a b →
      Reordered (.record (before ++ (key, a) :: after) stop)
        (.record (before ++ (key, b) :: after) stop)
  | item {a b : Node} (before after : List Node) (stop : Option Fault) : Reordered a b →
      Reordered (.list (before ++ a :: after) stop) (.list (before ++ b :: after) stop)

theorem Reordered.symm {a b : Node} (reordered : Reordered a b) : Reordered b a := by
  induction reordered with
  | members stop nodup perm =>
      exact .members stop ((perm.filterMap _).nodup_iff.mp nodup) perm.symm
  | member before after key stop _ ih => exact .member before after key stop ih
  | item before after stop _ ih => exact .item before after stop ih

/-- What stands for an item may stand for another one in its place. -/
theorem forall₂_replace {α β : Type} {R : α → β → Prop} {x y : α}
    (stands : ∀ b, R x b → R y b) {before after : List α} {l : List β}
    (each : List.Forall₂ R (before ++ x :: after) l) : List.Forall₂ R (before ++ y :: after) l := by
  induction before generalizing l with
  | nil =>
      rcases each with _ | ⟨own, others⟩
      exact .cons (stands _ own) others
  | cons first before ih =>
      rcases each with _ | ⟨own, others⟩
      exact .cons own (ih others)

/-- An item may be exchanged for another one that stands for the same, by some measure. -/
theorem forall₂_exchange {α β γ : Type} {R : α → β → Prop} {x y : α} {g : β → γ}
    (stands : ∀ b, R x b → ∃ c, R y c ∧ g b = g c) {before after : List α} {l : List β}
    (each : List.Forall₂ R (before ++ x :: after) l) :
    ∃ others, List.Forall₂ R (before ++ y :: after) others ∧ l.map g = others.map g := by
  induction before generalizing l with
  | nil =>
      rcases each with _ | ⟨own, rest⟩
      obtain ⟨c, ownToo, same⟩ := stands _ own
      exact ⟨c :: _, .cons ownToo rest, congrArg (· :: _) same⟩
  | cons first before ih =>
      rcases each with _ | ⟨own, rest⟩
      obtain ⟨others, restToo, same⟩ := ih rest
      exact ⟨_ :: others, .cons own restToo, congrArg (_ :: ·) same⟩

theorem Reordered.ofNode_eq_ok {a b : Node} (reordered : Reordered a b) {depth : Nat}
    {value : Value} (read : Value.ofNode depth a = .ok value) :
    Value.ofNode depth b = .ok value := by
  induction reordered generalizing depth value with
  | @members members others stop nodup perm =>
      rcases depth with _ | _ | depth
      · cases read
      · cases read
      · obtain ⟨rfl, bindings, each, rfl⟩ := Value.ofNode_record_eq_ok.mp read
        obtain ⟨moved, eachMoved, same⟩ := List.perm_comp_forall₂ perm.symm each
        refine Value.ofNode_record_eq_ok.mpr ⟨rfl, moved, eachMoved, ?_⟩
        rw [← keys_of_binds each] at nodup
        exact congrArg Value.object (Fields.ofList_eq_of_perm nodup same.symm)
  | member before after key stop _ ih =>
      rcases depth with _ | _ | depth
      · cases read
      · cases read
      · obtain ⟨rfl, bindings, each, rfl⟩ := Value.ofNode_record_eq_ok.mp read
        refine Value.ofNode_record_eq_ok.mpr ⟨rfl, bindings, ?_, rfl⟩
        exact forall₂_replace (fun binding own => ⟨own.1, ih own.2⟩) each
  | item before after stop _ ih =>
      rcases depth with _ | _ | depth
      · cases read
      · cases read
      · obtain ⟨rfl, values, each, rfl⟩ := Value.ofNode_list_eq_ok.mp read
        refine Value.ofNode_list_eq_ok.mpr ⟨rfl, values, ?_, rfl⟩
        exact forall₂_replace (fun value own => ih own) each

/-- Reordered trees are read as the same values. -/
theorem Reordered.ofNode_iff {a b : Node} (reordered : Reordered a b) (depth : Nat)
    (value : Value) : Value.ofNode depth a = .ok value ↔ Value.ofNode depth b = .ok value :=
  ⟨reordered.ofNode_eq_ok, reordered.symm.ofNode_eq_ok⟩

end Node

end CodeNav.Json
