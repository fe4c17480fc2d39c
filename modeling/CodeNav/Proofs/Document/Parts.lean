/-
Module: CodeNav.Proofs.Document.Parts
Purpose: The parts of documents are read back from their trees.
Main exports:
  Hover.decoder_toValue, Moniker.decoder_toValue, ChainNode.decoder_toValue,
  RangeEntry.decoder_toValue, Table.decoder_toValue
-/
import CodeNav.Document.Json
import CodeNav.Proofs.Json.Records
import CodeNav.Proofs.Keyed

namespace CodeNav

open Json (Decoder Fields Node Reading Shape Value)

/-!
For each structure there is what is known of it once the members of some names have been taken
over: the structure itself for all its members, the start of its shape for none.
-/

variable {depth : Nat} {complete : Bool} {r : Reading}

namespace VertexId

theorem decoder_toValue (id : VertexId) : decoder r (.ofValue id.toValue) = .ok id :=
  rfl

theorem option_toValue (id : VertexId) :
    Decoder.option decoder r (.ofValue id.toValue) = .ok (some id) :=
  rfl

end VertexId

/-- Identifiers nest one level deep. -/
theorem nesting_idsValue (ids : List VertexId) : (idsValue ids).nesting = 1 := by
  have flat : Value.nestingOfItems (ids.map VertexId.toValue) = 0 := by
    induction ids with
    | nil => rfl
    | cons id rest ih => rw [List.map_cons, Value.nestingOfItems, ih]; rfl
  rw [idsValue, Value.nesting, flat]

theorem ordered_idsValue (ids : List VertexId) : (idsValue ids).Ordered := by
  change Value.ItemsOrdered (ids.map VertexId.toValue)
  induction ids with
  | nil => trivial
  | cons id rest ih => exact ⟨trivial, ih⟩

theorem idsDecoder_idsValue (ids : List VertexId) :
    idsDecoder ⟨depth + 2, complete⟩ (.ofValue (idsValue ids)) = .ok ids :=
  Decoder.list_map fun id _ => id.decoder_toValue

namespace Position

/-- What is known of a position. -/
def known (p : Position) (names : List String) : Position where
  line := if "line" ∈ names then p.line else 0
  character := if "character" ∈ names then p.character else 0

theorem decoder_toValue (p : Position) :
    decoder ⟨depth + 2, complete⟩ (.ofValue p.toValue) = .ok p := by
  have fills : ∀ member ∈ [("line", Value.nat p.line.toNat),
      ("character", .nat p.character.toNat)], shape.Fills ⟨depth + 1, complete⟩ p.known member := by
    simp only [List.forall_mem_cons, List.not_mem_nil, false_implies, implies_true, and_true]
    exact ⟨Shape.fills_of_reads rfl (Decoder.u32_nat _) fun _ => by simp [known],
      Shape.fills_of_reads rfl (Decoder.u32_nat _) fun _ => by simp [known]⟩
  exact Decoder.shape_record p.known rfl fills (by simp) (by simp [shape, Json.Field.needed])
    fun names listed => by simp [known, listed]

end Position

namespace Range

/-- What is known of a range. -/
def known (range : Range) (names : List String) : Range where
  start := if "start" ∈ names then range.start else default
  stop := if "end" ∈ names then range.stop else default

theorem decoder_toValue (range : Range) :
    decoder ⟨depth + 3, complete⟩ (.ofValue range.toValue) = .ok range := by
  have fills : ∀ member ∈ [("start", range.start.toValue), ("end", range.stop.toValue)],
      shape.Fills ⟨depth + 2, complete⟩ range.known member := by
    simp only [List.forall_mem_cons, List.not_mem_nil, false_implies, implies_true, and_true]
    exact ⟨Shape.fills_of_reads rfl (Position.decoder_toValue _) fun _ => by simp [known],
      Shape.fills_of_reads rfl (Position.decoder_toValue _) fun _ => by simp [known]⟩
  exact Decoder.shape_record range.known rfl fills (by simp) (by simp [shape, Json.Field.needed])
    fun names listed => by simp [known, listed]

end Range

namespace Hover

/-- What is known of a hover. -/
def known (hover : Hover) (names : List String) : Hover where
  contents := if "contents" ∈ names then hover.contents else .null
  range := if "range" ∈ names then hover.range else none

/-- A hover is read back if its contents are in order and do not nest too deep. -/
theorem decoder_toValue (hover : Hover) (ordered : hover.contents.Ordered)
    (shallow : hover.contents.nesting ≤ depth + 2) :
    decoder ⟨depth + 4, complete⟩ (.ofValue hover.toValue) = .ok hover := by
  have contents : Decoder.any ⟨depth + 3, complete⟩ (.ofValue hover.contents) =
      .ok hover.contents := by
    rw [Decoder.any_ofValue ordered, if_pos shallow]
  have members : ∀ member ∈ ("contents", hover.contents)
      :: (hover.range.map fun range => ("range", range.toValue)).toList,
      shape.Fills ⟨depth + 3, complete⟩ hover.known member := by
    intro member listed
    rcases List.mem_cons.mp listed with rfl | listed
    · exact Shape.fills_of_reads rfl contents fun _ => by simp [known]
    · obtain ⟨range, present, rfl⟩ := Option.map_eq_some_iff.mp (Option.mem_toList.mp listed)
      refine Shape.fills_of_reads rfl
        (Decoder.option_some nofun (Range.decoder_toValue range)) fun _ => ?_
      simp [known, present]
  refine Decoder.shape_record hover.known rfl members (by cases hover.range <;> simp)
    (by simp [shape, Json.Field.needed, Json.Field.defaulted]) fun names listed => ?_
  obtain ⟨contents, range⟩ := hover
  cases range <;> simp [known, listed]

end Hover

theorem MonikerKind.decoder_name (kind : MonikerKind) :
    decoder r (.ofValue (.string kind.name)) = .ok kind := by
  cases kind <;> rfl

namespace Moniker

/-- What is known of a moniker. -/
def known (m : Moniker) (names : List String) : Moniker where
  scheme := if "scheme" ∈ names then m.scheme else ""
  identifier := if "identifier" ∈ names then m.identifier else ""
  kind := if "kind" ∈ names then m.kind else .internal
  package := if "packageInformation" ∈ names then m.package else none

theorem decoder_toValue (m : Moniker) :
    decoder ⟨depth + 2, complete⟩ (.ofValue m.toValue) = .ok m := by
  have fills : ∀ member ∈ [("scheme", Value.string m.scheme),
        ("identifier", .string m.identifier), ("kind", .string m.kind.name)]
      ++ (m.package.map fun id => ("packageInformation", id.toValue)).toList,
      shape.Fills ⟨depth + 1, complete⟩ m.known member := by
    simp only [List.forall_mem_append, List.forall_mem_cons, List.not_mem_nil, false_implies,
      implies_true, and_true]
    refine ⟨⟨?_, ?_, ?_⟩, ?_⟩
    · exact Shape.fills_of_reads rfl (Decoder.string_ofValue _) fun _ => by simp [known]
    · exact Shape.fills_of_reads rfl (Decoder.string_ofValue _) fun _ => by simp [known]
    · exact Shape.fills_of_reads rfl m.kind.decoder_name fun _ => by simp [known]
    · intro member listed
      obtain ⟨id, present, rfl⟩ := Option.map_eq_some_iff.mp (Option.mem_toList.mp listed)
      exact Shape.fills_of_reads rfl id.option_toValue fun _ => by simp [known, present]
  refine Decoder.shape_record m.known rfl fills (by cases m.package <;> simp)
    (by simp [shape, Json.Field.needed, Json.Field.defaulted]) fun names listed => ?_
  obtain ⟨scheme, identifier, kind, package⟩ := m
  cases package <;> simp [known, listed]

end Moniker

namespace Package

/-- What is known of a package. -/
def known (p : Package) (names : List String) : Package where
  name := if "name" ∈ names then p.name else ""
  version := if "version" ∈ names then p.version else ""

theorem decoder_toValue (p : Package) :
    decoder ⟨depth + 2, complete⟩ (.ofValue p.toValue) = .ok p := by
  have fills : ∀ member ∈ [("name", Value.string p.name), ("version", .string p.version)],
      shape.Fills ⟨depth + 1, complete⟩ p.known member := by
    simp only [List.forall_mem_cons, List.not_mem_nil, false_implies, implies_true, and_true]
    exact ⟨Shape.fills_of_reads rfl (Decoder.string_ofValue _) fun _ => by simp [known],
      Shape.fills_of_reads rfl (Decoder.string_ofValue _) fun _ => by simp [known]⟩
  exact Decoder.shape_record p.known rfl fills (by simp)
    (by simp [shape, Json.Field.needed, Json.Field.defaulted]) fun names listed => by
      simp [known, listed]

end Package

namespace DefinitionResult

/-- What is known of a definition result. -/
def known (result : DefinitionResult) (names : List String) : DefinitionResult where
  values := if "values" ∈ names then result.values else []

theorem decoder_toValue (result : DefinitionResult) :
    decoder ⟨depth + 3, complete⟩ (.ofValue result.toValue) = .ok result := by
  have fills : ∀ member ∈ [("values", idsValue result.values)],
      shape.Fills ⟨depth + 2, complete⟩ result.known member := by
    simp only [List.forall_mem_cons, List.not_mem_nil, false_implies, implies_true, and_true]
    exact Shape.fills_of_reads rfl (idsDecoder_idsValue _) fun _ => by simp [known]
  exact Decoder.shape_record result.known rfl fills (by simp) (by simp [shape, Json.Field.needed])
    fun names listed => by simp [known, listed]

end DefinitionResult

namespace ReferenceResult

/-- What is known of a reference result. -/
def known (result : ReferenceResult) (names : List String) : ReferenceResult where
  definitions := if "definitions" ∈ names then result.definitions else []
  references := if "references" ∈ names then result.references else []

theorem decoder_toValue (result : ReferenceResult) :
    decoder ⟨depth + 3, complete⟩ (.ofValue result.toValue) = .ok result := by
  have fills : ∀ member ∈ [("definitions", idsValue result.definitions),
      ("references", idsValue result.references)],
      shape.Fills ⟨depth + 2, complete⟩ result.known member := by
    simp only [List.forall_mem_cons, List.not_mem_nil, false_implies, implies_true, and_true]
    exact ⟨Shape.fills_of_reads rfl (idsDecoder_idsValue _) fun _ => by simp [known],
      Shape.fills_of_reads rfl (idsDecoder_idsValue _) fun _ => by simp [known]⟩
  exact Decoder.shape_record result.known rfl fills (by simp)
    (by simp [shape, Json.Field.defaulted]) fun names listed => by
      simp [known, listed]

end ReferenceResult

/-! ### Chain nodes and range entries -/

theorem mem_member? {name : String} {id : Option VertexId} {member : String × Value} :
    member ∈ member? name id ↔ ∃ i, id = some i ∧ (name, i.toValue) = member := by
  rw [member?, Option.mem_toList, Option.map_eq_some_iff]

theorem map_fst_member? (name : String) (id : Option VertexId) :
    (member? name id).map Prod.fst = if id.isSome then [name] else [] := by
  cases id <;> rfl

namespace ChainNode

/-- What is known of a chain node. -/
def known (node : ChainNode) (names : List String) : ChainNode where
  next := if "next" ∈ names then node.next else none
  definitionResult := if "definitionResult" ∈ names then node.definitionResult else none
  referenceResult := if "referenceResult" ∈ names then node.referenceResult else none
  hoverResult := if "hoverResult" ∈ names then node.hoverResult else none
  monikers := if "monikers" ∈ names then node.monikers else []

/-- A member of a chain node is an identifier, or the list of monikers. -/
theorem mem_members {node : ChainNode} {member : String × Value} (listed : member ∈ node.members) :
    (∃ id, node.next = some id ∧ ("next", id.toValue) = member) ∨
    (∃ id, node.definitionResult = some id ∧ ("definitionResult", id.toValue) = member) ∨
    (∃ id, node.referenceResult = some id ∧ ("referenceResult", id.toValue) = member) ∨
    (∃ id, node.hoverResult = some id ∧ ("hoverResult", id.toValue) = member) ∨
      member = ("monikers", idsValue node.monikers) := by
  simp only [members, List.mem_append, mem_member?] at listed
  rcases listed with (((next | definition) | reference) | hover) | monikers
  · exact .inl next
  · exact .inr (.inl definition)
  · exact .inr (.inr (.inl reference))
  · exact .inr (.inr (.inr (.inl hover)))
  · split at monikers
    · cases monikers
    · exact .inr (.inr (.inr (.inr (List.mem_singleton.mp monikers))))

theorem fills (node : ChainNode) (member : String × Value) (listed : member ∈ node.members) :
    shape.Fills ⟨depth + 2, complete⟩ node.known member := by
  rcases mem_members listed with ⟨id, present, rfl⟩ | ⟨id, present, rfl⟩ | ⟨id, present, rfl⟩ |
    ⟨id, present, rfl⟩ | rfl
  · exact Shape.fills_of_reads rfl id.option_toValue fun _ => by simp [known, present]
  · exact Shape.fills_of_reads rfl id.option_toValue fun _ => by simp [known, present]
  · exact Shape.fills_of_reads rfl id.option_toValue fun _ => by simp [known, present]
  · exact Shape.fills_of_reads rfl id.option_toValue fun _ => by simp [known, present]
  · exact Shape.fills_of_reads rfl (idsDecoder_idsValue _) fun _ => by simp [known]

/-- The names of the members that are there. -/
theorem map_fst_members (node : ChainNode) : node.members.map Prod.fst =
    (if node.next.isSome then ["next"] else [])
      ++ (if node.definitionResult.isSome then ["definitionResult"] else [])
      ++ (if node.referenceResult.isSome then ["referenceResult"] else [])
      ++ (if node.hoverResult.isSome then ["hoverResult"] else [])
      ++ (if node.monikers.isEmpty then [] else ["monikers"]) := by
  simp only [members, List.map_append, map_fst_member?]
  congr 1
  split <;> rfl

theorem names_sublist (node : ChainNode) : (node.members.map Prod.fst).Sublist
    ["next", "definitionResult", "referenceResult", "hoverResult", "monikers"] := by
  have optional (condition : Bool) (name : String) :
      (if condition then [name] else []).Sublist [name] := by
    cases condition
    · exact List.nil_sublist _
    · exact List.Sublist.refl _
  have monikers : (if node.monikers.isEmpty then [] else ["monikers"]).Sublist ["monikers"] := by
    split
    · exact List.nil_sublist _
    · exact List.Sublist.refl _
  rw [map_fst_members]
  exact ((((optional _ _).append (optional _ _)).append (optional _ _)).append
    (optional _ _)).append monikers

/-- The members amount to the chain node: those left out stand for what is absent or empty. -/
theorem known_members (node : ChainNode) {names : List String}
    (listed : ∀ name, name ∈ names ↔ name ∈ node.members.map Prod.fst) :
    node.known names = node := by
  obtain ⟨next, definitionResult, referenceResult, hoverResult, monikers⟩ := node
  simp only [known, listed, map_fst_members, mk.injEq]
  refine ⟨?_, ?_, ?_, ?_, ?_⟩
  · cases next <;> simp
  · cases definitionResult <;> simp
  · cases referenceResult <;> simp
  · cases hoverResult <;> simp
  · cases monikers <;> simp

theorem decoder_toValue (node : ChainNode) :
    decoder ⟨depth + 3, complete⟩ (.ofValue node.toValue) = .ok node :=
  Decoder.shape_record node.known rfl node.fills (node.names_sublist.nodup (by decide))
    (by simp [shape, Json.Field.defaulted]) fun _ => node.known_members

end ChainNode

namespace RangeEntry

/-- The members of a range entry that are left for its chain node. -/
def isOther (member : String × Value) : Bool :=
  member.1 != "start" && member.1 != "end"

/-- A member is one of the ends of a range, or another one that is sound. -/
def Fits (range : Range) (r : Reading) (member : String × Value) : Prop :=
  member = ("start", range.start.toValue) ∨ member = ("end", range.stop.toValue) ∨
    isOther member ∧ Decoder.sound r (.ofValue member.2) = .ok ()

/-- What the members left for the chain node are kept as. -/
def kept (members : List (String × Value)) : List (String × Node) :=
  (members.filter isOther).map fun member => (member.1, .ofValue member.2)

/-- The ends are taken over wherever they stand, and the other members are kept in order. -/
theorem takeEnds_ofFields {range : Range} {members : List (String × Value)} (draft : Draft)
    (fits : ∀ member ∈ members, Fits range ⟨depth + 2, complete⟩ member)
    (nodup : (members.map Prod.fst).Nodup)
    (noStart : "start" ∈ members.map Prod.fst → draft.start = none)
    (noStop : "end" ∈ members.map Prod.fst → draft.stop = none) :
    ∃ start stop, takeEnds ⟨depth + 2, complete⟩ draft (Node.ofFields members) =
        .ok ⟨start, stop, (kept members).reverse ++ draft.others⟩ ∧
      ("start" ∈ members.map Prod.fst ∨ draft.start = some range.start →
        start = some range.start) ∧
      ("end" ∈ members.map Prod.fst ∨ draft.stop = some range.stop → stop = some range.stop) := by
  induction members generalizing draft with
  | nil => exact ⟨draft.start, draft.stop, rfl, by simp, by simp⟩
  | cons member rest ih =>
      obtain ⟨name, value⟩ := member
      simp only [List.map_cons, List.nodup_cons, List.mem_cons] at nodup noStart noStop ⊢
      have later (draft : Draft) := ih draft
        (fun other among => fits other (List.mem_cons_of_mem _ among)) nodup.2
      have key : Decoder.key (.ok name) = pure name := rfl
      rw [Node.ofFields, takeEnds, key, pure_bind]
      rcases fits (name, value) List.mem_cons_self with isStart | isStop | ⟨other, own⟩
      · obtain ⟨rfl, rfl⟩ := Prod.mk.inj isStart
        obtain ⟨start, stop, taken, starts, stops⟩ := later { draft with start := some range.start }
          (fun again => absurd again nodup.1) fun again => noStop (.inr again)
        refine ⟨start, stop, ?_, fun _ => starts (.inr rfl), ?_⟩
        · have fresh : draft.start = none := noStart (.inl rfl)
          simp only [beq_self_eq_true, if_true, fresh, Option.isSome_none, Bool.false_eq_true,
            if_false, Position.decoder_toValue]
          exact taken
        · rintro ((same | again) | before)
          · exact absurd same (by decide)
          · exact stops (.inl again)
          · exact stops (.inr before)
      · obtain ⟨rfl, rfl⟩ := Prod.mk.inj isStop
        obtain ⟨start, stop, taken, starts, stops⟩ := later { draft with stop := some range.stop }
          (fun again => noStart (.inr again)) fun again => absurd again nodup.1
        refine ⟨start, stop, ?_, ?_, fun _ => stops (.inr rfl)⟩
        · have fresh : draft.stop = none := noStop (.inl rfl)
          simp only [show (("end" : String) == "start") = false from rfl, beq_self_eq_true,
            if_true, fresh, Option.isSome_none, Bool.false_eq_true, if_false,
            Position.decoder_toValue]
          exact taken
        · rintro ((same | again) | before)
          · exact absurd same (by decide)
          · exact starts (.inl again)
          · exact starts (.inr before)
      · have notEnds : name ≠ "start" ∧ name ≠ "end" := by simpa [isOther] using other
        obtain ⟨start, stop, taken, starts, stops⟩ :=
          later { draft with others := (name, .ofValue value) :: draft.others }
            (fun again => noStart (.inr again)) fun again => noStop (.inr again)
        refine ⟨start, stop, ?_, ?_, ?_⟩
        · simp only [beq_iff_eq, notEnds, if_false, own]
          refine taken.trans ?_
          simp [kept, other]
        · rintro ((same | again) | before)
          · exact absurd same.symm notEnds.1
          · exact starts (.inl again)
          · exact starts (.inr before)
        · rintro ((same | again) | before)
          · exact absurd same.symm notEnds.2
          · exact stops (.inl again)
          · exact stops (.inr before)

theorem map_kept (members : List (String × Value)) :
    (kept members).map (fun (name, node) => (Except.ok name, node)) =
      Node.ofFields (members.filter isOther) := by
  unfold kept
  generalize members.filter isOther = others
  induction others with
  | nil => rfl
  | cons member rest ih =>
      rw [List.map_cons, List.map_cons, ih]
      rfl

/-- The ends of a range entry and the members of its chain node. -/
def members (entry : RangeEntry) : List (String × Value) :=
  [("start", entry.range.start.toValue), ("end", entry.range.stop.toValue)] ++ entry.node.members

/-- The members of a chain node are no ends of a range. -/
theorem isOther_of_mem {node : ChainNode} {member : String × Value}
    (listed : member ∈ node.members) : isOther member = true := by
  rcases ChainNode.mem_members listed with ⟨id, _, rfl⟩ | ⟨id, _, rfl⟩ | ⟨id, _, rfl⟩ |
    ⟨id, _, rfl⟩ | rfl <;> rfl

theorem fits_members {entry : RangeEntry} {member : String × Value}
    (listed : member ∈ entry.members) : Fits entry.range ⟨depth + 2, complete⟩ member := by
  have ids (ids : List VertexId) :
      Decoder.sound ⟨depth + 2, complete⟩ (.ofValue (idsValue ids)) = .ok () := by
    have shallow : (idsValue ids).nesting ≤ depth + 1 := by
      rw [nesting_idsValue]
      exact Nat.le_add_left 1 depth
    rw [Decoder.sound, Decoder.any_ofValue (ordered_idsValue ids), if_pos shallow]
    rfl
  rcases List.mem_append.mp listed with ends | own
  · rcases List.mem_cons.mp ends with rfl | ends
    · exact .inl rfl
    · exact .inr (.inl (List.mem_singleton.mp ends))
  · refine .inr (.inr ⟨isOther_of_mem own, ?_⟩)
    rcases ChainNode.mem_members own with ⟨id, _, rfl⟩ | ⟨id, _, rfl⟩ | ⟨id, _, rfl⟩ |
      ⟨id, _, rfl⟩ | rfl
    · rfl
    · rfl
    · rfl
    · rfl
    · exact ids _

theorem nodup_members (entry : RangeEntry) : (entry.members.map Prod.fst).Nodup := by
  have names : (entry.members.map Prod.fst).Sublist ["start", "end", "next", "definitionResult",
      "referenceResult", "hoverResult", "monikers"] := by
    rw [members, List.map_append]
    exact (List.Sublist.refl _).append entry.node.names_sublist
  exact names.nodup (by decide)

theorem filter_members (entry : RangeEntry) :
    entry.members.filter isOther = entry.node.members := by
  rw [members, List.filter_append, List.filter_eq_self.mpr fun _ => isOther_of_mem]
  rfl

/-- A range entry is what its ends and the members beside them amount to. -/
theorem decoder_object {fields : List (String × Value)} {range : Range} {node : ChainNode}
    {seen : List String}
    (ends : takeEnds ⟨depth + 2, complete⟩ ⟨none, none, []⟩ (Node.ofFields fields) =
      .ok ⟨some range.start, some range.stop, (kept fields).reverse⟩)
    (others : ChainNode.shape.takeMembers .value [] .empty
      (Node.ofFields (fields.filter isOther)) = .ok (seen, node)) :
    decoder ⟨depth + 3, complete⟩ (.ofValue (.object fields)) = .ok ⟨range, node⟩ := by
  have enter : Reading.enter ⟨depth + 3, complete⟩ = .ok ⟨depth + 2, complete⟩ := rfl
  have last : Decoder.lastKey none = .ok () := rfl
  have found (name : String) (position : Position) :
      needed name (some position) = .ok position := rfl
  rw [Node.ofValue]
  simp only [decoder, enter, last, ends, found, Success.ok_bind, List.reverse_reverse, map_kept,
    others]
  rfl

/-- A range entry is read back: its ends, and its chain node from the members beside them. -/
theorem decoder_toValue (entry : RangeEntry) :
    decoder ⟨depth + 3, complete⟩ (.ofValue entry.toValue) = .ok entry := by
  have written : entry.toValue = .object (Fields.ofList entry.members) := rfl
  have listed := Fields.ofList_perm entry.nodup_members
  rw [written]
  generalize Fields.ofList entry.members = fields at listed
  have names := listed.map Prod.fst
  have fits : ∀ member ∈ fields, Fits entry.range ⟨depth + 2, complete⟩ member :=
    fun member among => fits_members (listed.mem_iff.mp among)
  obtain ⟨start, stop, taken, starts, stops⟩ := takeEnds_ofFields ⟨none, none, []⟩ fits
    (names.nodup_iff.mpr entry.nodup_members) (fun _ => rfl) fun _ => rfl
  obtain rfl : start = some entry.range.start :=
    starts (.inl (names.mem_iff.mpr (by simp [members])))
  obtain rfl : stop = some entry.range.stop :=
    stops (.inl (names.mem_iff.mpr (by simp [members])))
  have others : (fields.filter isOther).Perm entry.node.members :=
    filter_members entry ▸ listed.filter isOther
  have fills : ∀ member ∈ fields.filter isOther,
      ChainNode.shape.Fills .value entry.node.known member :=
    fun member among => entry.node.fills member (others.mem_iff.mp among)
  have node := Shape.takeMembers_fills (fields.filter isOther) [] fills
    ((others.map Prod.fst).nodup_iff.mpr (entry.node.names_sublist.nodup (by decide)))
    fun _ _ => List.not_mem_nil
  rw [List.append_nil, entry.node.known_members fun name =>
    List.mem_reverse.trans (others.map Prod.fst).mem_iff] at node
  rw [List.append_nil] at taken
  exact decoder_object taken node

end RangeEntry

/-! ### Tables -/

namespace Table

variable {α : Type}

/-- A table is written in the order of its identifiers. -/
theorem toValue_eq (write : α → Value) (table : Table α) :
    toValue write table = .object ((table.toList.map fun entry => (entry.1.text, entry.2)).map
      fun member => (member.1, write member.2)) := by
  have ascending :
      Fields.Ascending (table.toList.map fun entry => (entry.1.text, write entry.2)) := by
    rw [Fields.Ascending, List.pairwise_map]
    exact table.ordered_keys_toList
  have written : toValue write table =
      .record (table.toList.map fun entry => (entry.1.text, write entry.2)) := rfl
  rw [written, Value.record, Fields.ofList_eq ascending, List.map_map]
  rfl

/-- Inserting the entries of a table one by one gives the table. -/
theorem foldl_insert_toList (table : Table α) :
    table.toList.foldl (fun table entry => table.insert entry.1 entry.2) ∅ = table := by
  apply Std.ExtTreeMap.ext_getElem?
  intro id
  cases found : table[id]? with
  | some value =>
      have nodup : (table.toList.map fun entry => entry.1).Nodup := by
        rw [List.Nodup, List.pairwise_map]
        refine table.ordered_keys_toList.imp fun before same => ?_
        rw [same, Std.ReflOrd.compare_self] at before
        cases before
      have listed : (id, value) ∈ table.toList :=
        Std.ExtTreeMap.mem_toList_iff_getElem?_eq_some.mpr found
      exact Keyed.getElem?_foldl_insert_of_mem nodup listed Prod.snd ∅
  | none =>
      have absent : table.toList.filter (fun entry => decide (entry.1 = id)) = [] := by
        rw [List.filter_eq_nil_iff]
        rintro ⟨_, value⟩ listed same
        obtain rfl : _ = id := of_decide_eq_true same
        rw [Std.ExtTreeMap.mem_toList_iff_getElem?_eq_some.mp listed] at found
        cases found
      rw [Keyed.getElem?_foldl_insert (fun entry : VertexId × α => entry.1) table.toList Prod.snd,
        absent]
      rfl

/-- A table is read back if its values are. -/
theorem decoder_toValue {item : Decoder α} {write : α → Value} {table : Table α}
    (reads : ∀ entry ∈ table.toList,
      item ⟨depth + 1, complete⟩ (.ofValue (write entry.2)) = .ok entry.2) :
    decoder item ⟨depth + 2, complete⟩ (.ofValue (toValue write table)) = .ok table := by
  have members : ∀ member ∈ table.toList.map fun entry => (entry.1.text, entry.2),
      item ⟨depth + 1, complete⟩ (.ofValue (write member.2)) = .ok member.2 := by
    intro member listed
    obtain ⟨entry, among, rfl⟩ := List.mem_map.mp listed
    exact reads entry among
  rw [decoder, toValue_eq, Decoder.map_map members]
  change Except.ok (List.foldl _ _ _) = _
  rw [List.foldl_map]
  exact congrArg Except.ok (foldl_insert_toList table)

end Table

end CodeNav
