/-
Module: CodeNav.Proofs.Json.Refusals
Purpose: Structures and maps with a part that cannot be read are refused for the cause of the part.
Main exports:
  Json.Fails, Json.Shape.Refuses, Json.Decoder.shape_record_fails, Json.Decoder.map_map_fails
-/
import CodeNav.Proofs.Json.Records

namespace CodeNav.Json

/-- A reading fails for a cause, wherever it was met. -/
def Fails {α : Type} (result : Except Mismatch α) (cause : Cause) : Prop :=
  ∃ path, result = .error ⟨path, cause⟩

namespace Fails

variable {α β : Type} {result : Except Mismatch α} {cause : Cause}

theorem bind (fails : Fails result cause) (next : α → Except Mismatch β) :
    Fails (result >>= next) cause := by
  obtain ⟨path, rfl⟩ := fails
  exact ⟨path, rfl⟩

theorem map (fails : Fails result cause) (f : α → β) : Fails (result.map f) cause := by
  obtain ⟨path, rfl⟩ := fails
  exact ⟨path, rfl⟩

theorem below (fails : Fails result cause) (segment : Segment) :
    Fails (result.mapError (·.below segment)) cause := by
  obtain ⟨path, rfl⟩ := fails
  exact ⟨segment :: path, rfl⟩

end Fails

namespace Shape

variable {σ : Type} {shape : Shape σ} {r : Reading} {draft : List String → σ} {cause : Cause}

/-- A member that cannot be taken over. -/
def Refuses (shape : Shape σ) (r : Reading) (cause : Cause) (member : String × Value) : Prop :=
  ∃ field, shape.fields.find? (·.name == member.1) = some field ∧
    ∀ s, Fails (field.take r (.ofValue member.2) s) cause

theorem refuses_of_fails {α : Type} {name : String} {value : Value} {item : Decoder α}
    {set : σ → α → σ} {required : Bool}
    (found : shape.fields.find? (·.name == name) =
      some ⟨name, required, fun r node s => (item r node).map (set s)⟩)
    (fails : Fails (item r (.ofValue value)) cause) : shape.Refuses r cause (name, value) :=
  ⟨_, found, fun s => fails.map (set s)⟩

theorem Fills.not_refuses {member : String × Value} (fills : shape.Fills r draft member) :
    ¬ shape.Refuses r cause member := by
  rintro ⟨field, found, fails⟩
  obtain ⟨same, again, taken⟩ := fills
  rw [found] at again
  cases again
  obtain ⟨path, refusal⟩ := fails (draft [])
  rw [taken []] at refusal
  cases refusal

/-- If every member either fills the structure or cannot be taken over for one cause, and there is
one that cannot, the structure fails for the cause. -/
theorem takeMembers_fails (members : List (String × Value)) (seen : List String)
    (each : ∀ member ∈ members, shape.Fills r draft member ∨ shape.Refuses r cause member)
    (one : ∃ member ∈ members, shape.Refuses r cause member)
    (nodup : (members.map Prod.fst).Nodup) (fresh : ∀ member ∈ members, member.1 ∉ seen) :
    Fails (shape.takeMembers r seen (draft seen) (Node.ofFields members)) cause := by
  induction members generalizing seen with
  | nil =>
      obtain ⟨_, none, _⟩ := one
      cases none
  | cons member rest ih =>
      have unseen := fresh member List.mem_cons_self
      rcases each member List.mem_cons_self with fills | refused
      · have later : ∃ member ∈ rest, shape.Refuses r cause member := by
          obtain ⟨other, among, refused⟩ := one
          rcases List.mem_cons.mp among with rfl | among
          · exact absurd refused fills.not_refuses
          · exact ⟨other, among, refused⟩
        rw [takeMembers_cons fills unseen]
        exact ih (member.1 :: seen) (fun other among => each other (List.mem_cons_of_mem _ among))
          later (List.nodup_cons.mp nodup).2 (unseen_rest nodup fresh)
      · obtain ⟨name, value⟩ := member
        obtain ⟨field, found, fails⟩ := refused
        have unseen : seen.contains name = false := by simpa using unseen
        have key : Decoder.key (.ok name) = pure name := rfl
        rw [Node.ofFields, takeMembers, key, pure_bind]
        simp only [found, unseen, Bool.false_eq_true, if_false]
        exact ((fails (draft seen)).below _).bind _

end Shape

namespace Decoder

variable {σ α : Type} {cause : Cause} {depth : Nat} {complete : Bool}

/-- A structure written as an object fails for a cause if one of its members does and all others
can be taken over. -/
theorem shape_record_fails {shape : Shape σ} (draft : List String → σ)
    (bindings : List (String × Value)) (starts : draft [] = shape.start)
    (each : ∀ member ∈ bindings, shape.Fills ⟨depth + 1, complete⟩ draft member ∨
      shape.Refuses ⟨depth + 1, complete⟩ cause member)
    (one : ∃ member ∈ bindings, shape.Refuses ⟨depth + 1, complete⟩ cause member)
    (nodup : (bindings.map Prod.fst).Nodup) :
    Fails (Decoder.shape shape ⟨depth + 2, complete⟩ (.ofValue (.record bindings))) cause := by
  have listed := Fields.ofList_perm nodup
  obtain ⟨refused, among, refuses⟩ := one
  have taken := Shape.takeMembers_fails (Fields.ofList bindings) []
    (fun member among => each member (listed.mem_iff.mp among))
    ⟨refused, listed.mem_iff.mpr among, refuses⟩ ((listed.map Prod.fst).nodup_iff.mpr nodup)
    fun _ _ => List.not_mem_nil
  rw [starts] at taken
  exact taken.bind _

theorem bindings_fails {item : Decoder α} {write : α → Value} {members : List (String × α)}
    {r : Reading}
    (each : ∀ member ∈ members, item r (.ofValue (write member.2)) = .ok member.2 ∨
      Fails (item r (.ofValue (write member.2))) cause)
    (one : ∃ member ∈ members, Fails (item r (.ofValue (write member.2))) cause) :
    Fails (bindings item r
      (Node.ofFields (members.map fun member => (member.1, write member.2)))) cause := by
  induction members with
  | nil =>
      obtain ⟨_, none, _⟩ := one
      cases none
  | cons member rest ih =>
      obtain ⟨name, a⟩ := member
      have key : Decoder.key (.ok name) = pure name := rfl
      rw [List.map_cons, Node.ofFields, bindings, key, pure_bind]
      rcases each (name, a) List.mem_cons_self with reads | fails
      · have later : ∃ member ∈ rest, Fails (item r (.ofValue (write member.2))) cause := by
          obtain ⟨other, among, fails⟩ := one
          rcases List.mem_cons.mp among with rfl | among
          · obtain ⟨path, refusal⟩ := fails
            rw [reads] at refusal
            cases refusal
          · exact ⟨other, among, fails⟩
        rw [reads]
        exact (ih (fun other among => each other (List.mem_cons_of_mem _ among)) later).bind _
      · exact (fails.below _).bind _

/-- A map fails for a cause if one of its values does and all others are read back. -/
theorem map_map_fails {item : Decoder α} {write : α → Value} {members : List (String × α)}
    (each : ∀ member ∈ members,
      item ⟨depth + 1, complete⟩ (.ofValue (write member.2)) = .ok member.2 ∨
        Fails (item ⟨depth + 1, complete⟩ (.ofValue (write member.2))) cause)
    (one : ∃ member ∈ members, Fails (item ⟨depth + 1, complete⟩ (.ofValue (write member.2))) cause) :
    Fails (map item ⟨depth + 2, complete⟩
      (.ofValue (.object (members.map fun member => (member.1, write member.2))))) cause :=
  (bindings_fails each one).bind _

end Decoder

end CodeNav.Json
