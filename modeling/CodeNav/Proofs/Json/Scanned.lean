/-
Module: CodeNav.Proofs.Json.Scanned
Purpose: What is read of a text holds no numbers but those that texts write.
Main exports:
  Json.Node.Readable, Json.readable_read, Json.Value.ofNode_readable, Json.Value.Legible
-/
import CodeNav.Json.Reader
import CodeNav.Proofs.Json.Texts
import CodeNav.Proofs.Json.Trees

namespace CodeNav.Json

/-! ### Trees -/

namespace Node

mutual

/-- The numbers of a tree, where they are in range, are numbers that texts write. -/
def Readable : Node → Prop
  | .number n => ∀ number, n = .ok number → number.Readable
  | .list items _ => ItemsReadable items
  | .record members _ => MembersReadable members
  | _ => True

/-- The numbers in the items of a list are numbers that texts write. -/
def ItemsReadable : List Node → Prop
  | [] => True
  | item :: rest => item.Readable ∧ ItemsReadable rest

/-- The numbers in the members of a record are numbers that texts write. -/
def MembersReadable : List (Except Cause String × Node) → Prop
  | [] => True
  | (_, item) :: rest => item.Readable ∧ MembersReadable rest

end

theorem itemsReadable_iff {items : List Node} :
    ItemsReadable items ↔ ∀ item ∈ items, item.Readable := by
  induction items with
  | nil => exact ⟨fun _ => nofun, fun _ => trivial⟩
  | cons item rest ih => rw [ItemsReadable, ih, List.forall_mem_cons]

theorem membersReadable_iff {members : List (Except Cause String × Node)} :
    MembersReadable members ↔ ∀ member ∈ members, member.2.Readable := by
  induction members with
  | nil => exact ⟨fun _ => nofun, fun _ => trivial⟩
  | cons member rest ih => rw [MembersReadable, ih, List.forall_mem_cons]

/-- A list whose items have been read in reverse. -/
theorem readable_list {items : List Node} (all : ItemsReadable items) (stop : Option Fault) :
    (list items.reverse stop).Readable :=
  itemsReadable_iff.mpr fun item listed =>
    itemsReadable_iff.mp all item (List.mem_reverse.mp listed)

/-- A record whose members have been read in reverse. -/
theorem readable_record {members : List (Except Cause String × Node)}
    (all : MembersReadable members) (stop : Option Fault) :
    (record members.reverse stop).Readable :=
  membersReadable_iff.mpr fun member listed =>
    membersReadable_iff.mp all member (List.mem_reverse.mp listed)

end Node

open Node

/-! ### The reader -/

theorem readable_readLiteral {node : Node} (readable : node.Readable) :
    ∀ word s : List UInt8, (readLiteral node word s).part.Readable
  | [], _ => readable
  | _ :: _, [] => trivial
  | w :: word, b :: s => by
    unfold readLiteral
    split
    · exact readable_readLiteral readable word s
    · trivial

mutual

theorem readable_readNode : ∀ (fuel : Nat) (s : List UInt8), (readNode fuel s).part.Readable
  | 0, _ => trivial
  | fuel + 1, s => by
    unfold readNode
    split
    · trivial
    · rename_i b s _
      split
      · exact readable_readLiteral (show Node.null.Readable from trivial) _ s
      split
      · exact readable_readLiteral (show (Node.bool true).Readable from trivial) _ s
      split
      · exact readable_readLiteral (show (Node.bool false).Readable from trivial) _ s
      split
      · split <;> trivial
      split
      · exact readable_readFirstItem fuel s
      split
      · exact readable_readFirstMember fuel s
      split
      · split
        · exact fun _ value => Numeral.value_readable value
        · trivial
      · trivial

theorem readable_readFirstItem : ∀ (fuel : Nat) (s : List UInt8),
    (readFirstItem fuel s).part.Readable
  | 0, _ => trivial
  | fuel + 1, s => by
    unfold readFirstItem
    split
    · trivial
    · trivial
    · exact readable_readItem fuel (show ItemsReadable [] from trivial) _

theorem readable_readItem : ∀ (fuel : Nat) {items : List Node}, ItemsReadable items →
    ∀ s : List UInt8, (readItem fuel items s).part.Readable
  | 0, _, before, _ => readable_list before _
  | fuel + 1, items, before, s => by
    have all : ItemsReadable ((readNode fuel s).part :: items) := ⟨readable_readNode fuel s, before⟩
    unfold readItem
    dsimp only
    split
    · exact readable_list all none
    · exact readable_readNextItem fuel all _

theorem readable_readNextItem : ∀ (fuel : Nat) {items : List Node}, ItemsReadable items →
    ∀ s : List UInt8, (readNextItem fuel items s).part.Readable
  | 0, _, before, _ => readable_list before _
  | _ + 1, _, before, [] => readable_list before _
  | fuel + 1, _, before, b :: s => by
    unfold readNextItem
    split
    · exact readable_list before none
    split
    · exact readable_list before _
    split
    · exact readable_list before _
    · exact readable_list before _
    · exact readable_readItem fuel before _

theorem readable_readFirstMember : ∀ (fuel : Nat) (s : List UInt8),
    (readFirstMember fuel s).part.Readable
  | 0, _ => trivial
  | fuel + 1, s => by
    unfold readFirstMember
    split
    · trivial
    · trivial
    · exact readable_readMember fuel (show MembersReadable [] from trivial) _
    · trivial

theorem readable_readMember : ∀ (fuel : Nat) {members : List (Except Cause String × Node)},
    MembersReadable members → ∀ s : List UInt8, (readMember fuel members s).part.Readable
  | 0, _, before, _ => readable_record before _
  | fuel + 1, members, before, s => by
    unfold readMember
    split
    · exact readable_record before _
    · rename_i key s _
      have alone (fault : Fault) : MembersReadable ((key, .fault fault) :: members) :=
        ⟨trivial, before⟩
      split
      · exact readable_record (alone _) none
      · rename_i s _
        have all : MembersReadable ((key, (readNode fuel s).part) :: members) :=
          ⟨readable_readNode fuel s, before⟩
        dsimp only
        split
        · exact readable_record all none
        · exact readable_readNextMember fuel all _
      · exact readable_record (alone _) none

theorem readable_readNextMember : ∀ (fuel : Nat)
    {members : List (Except Cause String × Node)}, MembersReadable members →
      ∀ s : List UInt8, (readNextMember fuel members s).part.Readable
  | 0, _, before, _ => readable_record before _
  | _ + 1, _, before, [] => readable_record before _
  | fuel + 1, _, before, b :: s => by
    unfold readNextMember
    split
    · exact readable_record before none
    split
    · exact readable_record before _
    split
    · exact readable_record before _
    · exact readable_readMember fuel before _
    · exact readable_record before _
    · exact readable_record before _

end

/-- The tree of a text holds numbers that texts write. -/
theorem readable_read (octets : List UInt8) : (read octets).root.Readable := by
  have root := readable_readNode (4 * octets.length + 4) octets
  unfold read
  dsimp only
  split <;> exact root

/-! ### Values -/

namespace Value

theorem fieldsReadable_insert {fields : Fields} (readable : ∀ field ∈ fields, field.2.Readable)
    (key : String) {value : Value} (own : value.Readable) :
    ∀ field ∈ Fields.insert fields key value, field.2.Readable := by
  intro field listed
  rcases Fields.mem_insert listed with rfl | earlier
  · exact own
  · exact readable field earlier

mutual

/-- What is read of a tree holds numbers that texts write if the tree does. -/
theorem ofNode_readable : ∀ (node : Node), node.Readable → ∀ {depth : Nat} {value : Value},
    ofNode depth node = .ok value → value.Readable
  | .null, _, _, _, read => by
    cases read
    trivial
  | .bool _, _, _, _, read => by
    cases read
    trivial
  | .number _, readable, _, _, read => by
    obtain ⟨n, own, rfl⟩ := Success.map_eq_ok.mp read
    exact readable n own
  | .string _, _, _, _, read => by
    obtain ⟨s, _, rfl⟩ := Success.map_eq_ok.mp read
    trivial
  | .list _ _, _, 0, _, read => by cases read
  | .list _ _, _, 1, _, read => by cases read
  | .list items stop, readable, depth + 2, _, read => by
    obtain ⟨values, found, read⟩ := Success.bind_eq_ok.mp read
    obtain ⟨_, _, read⟩ := Success.bind_eq_ok.mp read
    cases read
    exact ofItems_readable items readable found
  | .record _ _, _, 0, _, read => by cases read
  | .record _ _, _, 1, _, read => by cases read
  | .record members stop, readable, depth + 2, _, read => by
    obtain ⟨fields, found, read⟩ := Success.bind_eq_ok.mp read
    obtain ⟨_, _, read⟩ := Success.bind_eq_ok.mp read
    cases read
    exact numbersOfFields_iff.mpr
      (ofMembers_readable members readable (List.forall_mem_nil _) found)
  | .fault _, _, _, _, read => by cases read

theorem ofItems_readable : ∀ (items : List Node), ItemsReadable items →
    ∀ {depth : Nat} {values : List Value},
      ofItems depth items = .ok values → NumbersOfItems Number.Readable values
  | [], _, _, _, read => by
    cases read
    trivial
  | item :: rest, ⟨own, others⟩, _, _, read => by
    obtain ⟨value, found, read⟩ := Success.bind_eq_ok.mp read
    obtain ⟨values, more, read⟩ := Success.bind_eq_ok.mp read
    cases read
    exact ⟨ofNode_readable item own found, ofItems_readable rest others more⟩

theorem ofMembers_readable : ∀ (members : List (Except Cause String × Node)),
    MembersReadable members → ∀ {depth : Nat} {before fields : Fields},
      (∀ field ∈ before, field.2.Readable) → ofMembers depth before members = .ok fields →
        ∀ field ∈ fields, field.2.Readable
  | [], _, _, _, _, readable, read => by
    cases read
    exact readable
  | (key, item) :: rest, ⟨own, others⟩, _, _, _, readable, read => by
    obtain ⟨name, _, read⟩ := Success.bind_eq_ok.mp read
    obtain ⟨value, found, read⟩ := Success.bind_eq_ok.mp read
    exact ofMembers_readable rest others
      (fieldsReadable_insert readable name (ofNode_readable item own found)) read

end

end Value

end CodeNav.Json
