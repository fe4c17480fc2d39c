/-
Module: CodeNav.Proofs.Document.Codec
Purpose: Stored documents are read back as they were.
Main exports:
  Document.decoder_toValue, Document.reread, Document.toValue_reread,
  Document.decode_encode_of_shallow
-/
import CodeNav.Document.Json
import CodeNav.Proofs.Document.Parts
import CodeNav.Proofs.Gzip.Stored
import CodeNav.Proofs.Json.Invariants

namespace CodeNav

open Json (Decoder Fields Node Number Reading Shape Value)

namespace Document

/-- The members of a document, its hovers apart. -/
def otherMembers (document : Document) : List (String × Value) :=
  [("ranges", Table.toValue (fun index => .nat index.toNat) document.ranges),
   ("orderedRanges", .array (document.orderedRanges.map RangeEntry.toValue)),
   ("resultSets", Table.toValue ChainNode.toValue document.resultSets),
   ("monikers", Table.toValue Moniker.toValue document.monikers),
   ("packageInformation", Table.toValue Package.toValue document.packages),
   ("definitionResults", Table.toValue DefinitionResult.toValue document.definitionResults),
   ("referenceResults", Table.toValue ReferenceResult.toValue document.referenceResults)]

theorem toValue_eq (document : Document) : document.toValue =
    .record (document.otherMembers ++ [("hovers", Table.toValue Hover.toValue document.hovers)]) :=
  rfl

end Document

/-! ### Numbers of written values -/

section

variable {P : Number → Prop}

namespace Json.Value

theorem numbers_record {bindings : List (String × Value)}
    (all : ∀ binding ∈ bindings, binding.2.Numbers P) : (record bindings).Numbers P :=
  numbersOfFields_iff.mpr fun field listed => all field (Fields.mem_ofList listed)

/-- The numbers in the members of an object are read back one by one. -/
theorem reread_record (bindings : List (String × Value)) :
    (record bindings).reread =
      record (bindings.map fun binding => (binding.1, binding.2.reread)) := by
  rw [record, reread, rereadFields_eq, record, Fields.ofList_map]

end Json.Value

theorem numbers_idsValue (ids : List VertexId) : (idsValue ids).Numbers P := by
  refine Value.numbersOfItems_iff.mpr fun item listed => ?_
  obtain ⟨id, _, rfl⟩ := List.mem_map.mp listed
  trivial

theorem Moniker.numbers_toValue (m : Moniker) : m.toValue.Numbers P := by
  apply Value.numbers_record
  simp only [List.forall_mem_append, List.forall_mem_cons, List.not_mem_nil, false_implies,
    implies_true, and_true]
  refine ⟨⟨trivial, trivial, trivial⟩, ?_⟩
  intro member listed
  obtain ⟨id, _, rfl⟩ := Option.map_eq_some_iff.mp (Option.mem_toList.mp listed)
  trivial

theorem Package.numbers_toValue (p : Package) : p.toValue.Numbers P := by
  apply Value.numbers_record
  simp only [List.forall_mem_cons, List.not_mem_nil, false_implies, implies_true, and_true]
  exact ⟨trivial, trivial⟩

theorem ChainNode.numbers_members {node : ChainNode} {member : String × Value}
    (listed : member ∈ node.members) : member.2.Numbers P := by
  rcases mem_members listed with ⟨id, _, rfl⟩ | ⟨id, _, rfl⟩ | ⟨id, _, rfl⟩ | ⟨id, _, rfl⟩ | rfl
  · trivial
  · trivial
  · trivial
  · trivial
  · exact numbers_idsValue node.monikers

theorem DefinitionResult.numbers_toValue (result : DefinitionResult) :
    result.toValue.Numbers P := by
  apply Value.numbers_record
  simp only [List.forall_mem_cons, List.not_mem_nil, false_implies, implies_true, and_true]
  exact numbers_idsValue _

theorem ReferenceResult.numbers_toValue (result : ReferenceResult) : result.toValue.Numbers P := by
  apply Value.numbers_record
  simp only [List.forall_mem_cons, List.not_mem_nil, false_implies, implies_true, and_true]
  exact ⟨numbers_idsValue _, numbers_idsValue _⟩

theorem Table.numbers_toValue {α : Type} {write : α → Value} {table : Table α}
    (all : ∀ entry ∈ table.toList, (write entry.2).Numbers P) :
    (Table.toValue write table).Numbers P := by
  apply Value.numbers_record
  intro member listed
  obtain ⟨entry, among, rfl⟩ := List.mem_map.mp listed
  exact all entry among

/-! Lines, characters and indices are integers of 64 bits. -/

variable (integers : ∀ n : Nat, n < capacity 64 → P (.integer n))
include integers

theorem Position.numbers_toValue (p : Position) : p.toValue.Numbers P := by
  have fits (n : UInt32) : n.toNat < capacity 64 := Nat.lt_trans n.toNat_lt (by decide)
  apply Value.numbers_record
  simp only [List.forall_mem_cons, List.not_mem_nil, false_implies, implies_true, and_true]
  exact ⟨integers _ (fits _), integers _ (fits _)⟩

theorem Range.numbers_toValue (range : Range) : range.toValue.Numbers P := by
  apply Value.numbers_record
  simp only [List.forall_mem_cons, List.not_mem_nil, false_implies, implies_true, and_true]
  exact ⟨range.start.numbers_toValue integers, range.stop.numbers_toValue integers⟩

theorem Hover.numbers_toValue {hover : Hover} (contents : hover.contents.Numbers P) :
    hover.toValue.Numbers P := by
  apply Value.numbers_record
  intro member listed
  rcases List.mem_cons.mp listed with rfl | listed
  · exact contents
  · obtain ⟨range, _, rfl⟩ := Option.map_eq_some_iff.mp (Option.mem_toList.mp listed)
    exact range.numbers_toValue integers

theorem RangeEntry.numbers_toValue (entry : RangeEntry) : entry.toValue.Numbers P := by
  apply Value.numbers_record
  simp only [List.forall_mem_append, List.forall_mem_cons, List.not_mem_nil, false_implies,
    implies_true, and_true]
  exact ⟨⟨entry.range.start.numbers_toValue integers, entry.range.stop.numbers_toValue integers⟩,
    fun member listed => ChainNode.numbers_members listed⟩

namespace Document

theorem numbers_otherMembers (document : Document) :
    ∀ member ∈ document.otherMembers, member.2.Numbers P := by
  simp only [otherMembers, List.forall_mem_cons, List.not_mem_nil, false_implies, implies_true,
    and_true]
  refine ⟨?_, ?_, ?_, ?_, ?_, ?_, ?_⟩
  · exact Table.numbers_toValue fun entry _ => integers _ entry.2.toNat_lt
  · refine Value.numbersOfItems_iff.mpr fun item listed => ?_
    obtain ⟨entry, _, rfl⟩ := List.mem_map.mp listed
    exact entry.numbers_toValue integers
  · exact Table.numbers_toValue fun entry _ =>
      Value.numbers_record fun member listed => ChainNode.numbers_members listed
  · exact Table.numbers_toValue fun entry _ => entry.2.numbers_toValue
  · exact Table.numbers_toValue fun entry _ => entry.2.numbers_toValue
  · exact Table.numbers_toValue fun entry _ => entry.2.numbers_toValue
  · exact Table.numbers_toValue fun entry _ => entry.2.numbers_toValue

/-- The numbers of a document have a property if those of its hovers do. -/
theorem numbers_toValue {document : Document}
    (hovers : ∀ entry ∈ document.hovers.toList, entry.2.contents.Numbers P) :
    document.toValue.Numbers P := by
  rw [toValue_eq]
  apply Value.numbers_record
  rw [List.forall_mem_append, List.forall_mem_singleton]
  exact ⟨document.numbers_otherMembers integers, Table.numbers_toValue fun entry listed =>
    Hover.numbers_toValue integers (hovers entry listed)⟩

end Document

end

/-! ### Documents that were written and read -/

theorem Json.Number.survives_nat {n : Nat} (fits : n < capacity 64) :
    Number.Survives (.integer n) :=
  Number.survives_integer (Int.le_trans (by decide) (Int.natCast_nonneg n)) (Int.ofNat_lt.mpr fits)

/-- The hover with its contents changed. -/
def Hover.mapContents (f : Value → Value) (hover : Hover) : Hover :=
  { hover with contents := f hover.contents }

/-- The hover with its contents as their text is read. -/
def Hover.reread (hover : Hover) : Hover :=
  hover.mapContents Value.reread

theorem Hover.toValue_reread (hover : Hover) : hover.toValue.reread = hover.reread.toValue := by
  have range (range : Range) : range.toValue.reread = range.toValue :=
    Value.Survives.reread (range.numbers_toValue fun _ => Number.survives_nat)
  rw [toValue, Value.reread_record, reread, mapContents, toValue]
  cases hover.range with
  | none => rfl
  | some place =>
      change Value.record [_, ("range", place.toValue.reread)] = _
      rw [range]
      rfl

namespace Document

/-- The document with the contents of its hovers as their text is read. -/
def reread (document : Document) : Document :=
  { document with hovers := document.hovers.map fun _ hover => hover.reread }

theorem toList_hovers_reread (document : Document) : document.reread.hovers.toList =
    document.hovers.toList.map fun entry => (entry.1, entry.2.reread) :=
  Std.ExtTreeMap.toList_map

theorem ordered_reread {document : Document}
    (ordered : ∀ entry ∈ document.hovers.toList, entry.2.contents.Ordered) :
    ∀ entry ∈ document.reread.hovers.toList, entry.2.contents.Ordered := by
  rw [toList_hovers_reread, List.forall_mem_map]
  exact fun entry listed => (ordered entry listed).reread

theorem nesting_reread_iff {document : Document} {limit : Nat} :
    (∀ entry ∈ document.reread.hovers.toList, entry.2.contents.nesting ≤ limit) ↔
      ∀ entry ∈ document.hovers.toList, entry.2.contents.nesting ≤ limit := by
  simp only [toList_hovers_reread, List.forall_mem_map, Hover.reread, Hover.mapContents,
    Value.nesting_reread]

/-- Only the hovers of a document can be read back as something else. -/
theorem toValue_reread (document : Document) :
    document.toValue.reread = document.reread.toValue := by
  have others : document.otherMembers.map (fun member => (member.1, member.2.reread)) =
      document.otherMembers := by
    refine (List.map_congr_left fun member listed => ?_).trans (List.map_id _)
    have survives : member.2.Survives :=
      document.numbers_otherMembers (fun _ => Number.survives_nat) member listed
    rw [survives.reread]
    rfl
  have hovers : (Table.toValue Hover.toValue document.hovers).reread =
      Table.toValue Hover.toValue document.reread.hovers := by
    rw [Table.toValue, Value.reread_record, Table.toValue, toList_hovers_reread, List.map_map,
      List.map_map]
    refine congrArg _ (List.map_congr_left fun entry _ => ?_)
    exact congrArg (entry.1.text, ·) entry.2.toValue_reread
  rw [toValue_eq, Value.reread_record, List.map_append, others, List.map_singleton, hovers]
  rfl

theorem readable_toValue {document : Document}
    (hovers : ∀ entry ∈ document.hovers.toList, entry.2.contents.Readable) :
    document.toValue.Readable :=
  numbers_toValue (fun _ fits => (Number.survives_nat fits).readable) hovers

/-- If the numbers of its hovers survive, a document is read back as it is. -/
theorem reread_of_survives {document : Document}
    (hovers : ∀ entry ∈ document.hovers.toList, entry.2.contents.Survives) :
    document.reread = document := by
  have same : document.hovers.map (fun _ hover => hover.reread) = document.hovers := by
    refine Std.ExtTreeMap.ext_toList (.of_eq ?_)
    rw [Std.ExtTreeMap.toList_map]
    refine (List.map_congr_left fun entry listed => ?_).trans (List.map_id _)
    rw [Hover.reread, Hover.mapContents, (hovers entry listed).reread]
    rfl
  rw [reread, same]

end Document

/-- Reading the text of a value is reading the tree of what is read back. -/
theorem Json.Decoder.parse_render {α : Type} {decoder : Decoder α} {value : Value}
    (readable : value.Readable) :
    Decoder.parse decoder (Utf8.encode value.render) = decoder .text (.ofValue value.reread) := by
  rw [Decoder.parse, read_render readable]
  change (do
    let a ← decoder .text (.ofValue value.reread)
    atTop (.ok ())
    return a) = _
  cases decoder .text (.ofValue value.reread) <;> rfl

namespace Document

variable {depth : Nat} {complete : Bool}

/-! ### The tree of a document -/

/-- What is known of a document. -/
def known (document : Document) (names : List String) : Document where
  ranges := if "ranges" ∈ names then document.ranges else ∅
  orderedRanges := if "orderedRanges" ∈ names then document.orderedRanges else []
  resultSets := if "resultSets" ∈ names then document.resultSets else ∅
  monikers := if "monikers" ∈ names then document.monikers else ∅
  packages := if "packageInformation" ∈ names then document.packages else ∅
  definitionResults := if "definitionResults" ∈ names then document.definitionResults else ∅
  referenceResults := if "referenceResults" ∈ names then document.referenceResults else ∅
  hovers := if "hovers" ∈ names then document.hovers else ∅

theorem fills_otherMembers (document : Document) (member : String × Value)
    (listed : member ∈ document.otherMembers) :
    shape.Fills ⟨depth + 5, complete⟩ document.known member := by
  revert member
  simp only [otherMembers, List.forall_mem_cons, List.not_mem_nil, false_implies, implies_true,
    and_true]
  refine ⟨?_, ?_, ?_, ?_, ?_, ?_, ?_⟩
  · exact Shape.fills_of_reads rfl
      (Table.decoder_toValue fun entry _ => Decoder.index_nat entry.2) fun _ => by simp [known]
  · exact Shape.fills_of_reads rfl
      (Decoder.list_map fun entry _ => entry.decoder_toValue) fun _ => by simp [known]
  · exact Shape.fills_of_reads rfl
      (Table.decoder_toValue fun entry _ => entry.2.decoder_toValue) fun _ => by simp [known]
  · exact Shape.fills_of_reads rfl
      (Table.decoder_toValue fun entry _ => entry.2.decoder_toValue) fun _ => by simp [known]
  · exact Shape.fills_of_reads rfl
      (Table.decoder_toValue fun entry _ => entry.2.decoder_toValue) fun _ => by simp [known]
  · exact Shape.fills_of_reads rfl
      (Table.decoder_toValue fun entry _ => entry.2.decoder_toValue) fun _ => by simp [known]
  · exact Shape.fills_of_reads rfl
      (Table.decoder_toValue fun entry _ => entry.2.decoder_toValue) fun _ => by simp [known]

/-- A document is read back from its tree if the contents of its hovers are in order and do not
nest too deep. -/
theorem decoder_toValue (document : Document)
    (ordered : ∀ entry ∈ document.hovers.toList, entry.2.contents.Ordered)
    (shallow : ∀ entry ∈ document.hovers.toList, entry.2.contents.nesting ≤ depth + 2) :
    decoder ⟨depth + 6, complete⟩ (.ofValue document.toValue) = .ok document := by
  have hovers : shape.Fills ⟨depth + 5, complete⟩ document.known
      ("hovers", Table.toValue Hover.toValue document.hovers) :=
    Shape.fills_of_reads rfl (Table.decoder_toValue fun entry listed =>
      entry.2.decoder_toValue (ordered entry listed) (shallow entry listed))
        fun _ => by simp [known]
  have fills : ∀ member ∈
      document.otherMembers ++ [("hovers", Table.toValue Hover.toValue document.hovers)],
      shape.Fills ⟨depth + 5, complete⟩ document.known member := by
    rw [List.forall_mem_append, List.forall_mem_singleton]
    exact ⟨document.fills_otherMembers, hovers⟩
  rw [toValue_eq]
  exact Decoder.shape_record document.known rfl fills (by simp [otherMembers])
    (by simp [shape, otherMembers, Json.Field.needed, Json.Field.defaulted])
    fun names listed => by simp [known, listed, otherMembers]

/-! ### Stored documents -/

/-- The text of a document is read as its tree, with the contents of its hovers as they are read
back. -/
theorem parse_render (document : Document)
    (readable : ∀ entry ∈ document.hovers.toList, entry.2.contents.Readable) :
    Decoder.parse decoder (Utf8.encode document.toValue.render) =
      decoder .text (.ofValue document.reread.toValue) := by
  rw [Decoder.parse_render (readable_toValue readable), toValue_reread]

/-- The text of a document is read back as the document, as far as its hovers are. -/
theorem ofJson_render (document : Document)
    (legible : ∀ entry ∈ document.hovers.toList, entry.2.contents.Legible)
    (shallow : ∀ entry ∈ document.hovers.toList, entry.2.contents.nesting ≤ 124) :
    ofJson (Utf8.encode document.toValue.render) = .ok document.reread := by
  have decoded : decoder .text (.ofValue document.reread.toValue) = .ok document.reread :=
    document.reread.decoder_toValue
      (ordered_reread fun entry listed => (legible entry listed).ordered)
      (nesting_reread_iff.mpr shallow)
  rw [ofJson, document.parse_render fun entry listed => (legible entry listed).readable, decoded]
  rfl

/-- The text of a document is no compressed data: it opens with a brace. -/
theorem isGzip_render (document : Document) :
    Gzip.isGzip (Utf8.encode document.toValue.render) = false := by
  apply Gzip.isGzip_eq_false
  rw [toValue, Value.record, Json.head?_render_object]
  decide

/-- A stored document is read back, whatever its tables hold, unless a hover nests too deep: from
the octets written for it, from its text alone, and from any other octets that expand to the
text. -/
theorem decode_encode_of_shallow [Gzip.Compressor] (document : Document)
    (ordered : ∀ entry ∈ document.hovers.toList, entry.2.contents.Ordered)
    (numbers : ∀ entry ∈ document.hovers.toList, entry.2.contents.Survives)
    (shallow : ∀ entry ∈ document.hovers.toList, entry.2.contents.nesting ≤ 124) :
    decode document.encode = .ok document ∧
      decode (Utf8.encode document.toValue.render) = .ok document ∧
      ∀ octets, Dump.inflate none octets = .ok (Utf8.encode document.toValue.render) →
        decode octets = .ok document := by
  have expanded (octets : List UInt8)
      (content : Dump.inflate none octets = .ok (Utf8.encode document.toValue.render)) :
      decode octets = .ok document := by
    have read := document.ofJson_render
      (fun entry listed => ⟨ordered entry listed, (numbers entry listed).readable⟩) shallow
    rw [decode, content]
    exact read.trans (congrArg _ (reread_of_survives numbers))
  refine ⟨expanded _ (Dump.inflate_compress _), expanded _ ?_, expanded⟩
  rw [Dump.inflate, document.isGzip_render]
  rfl

open scoped Gzip

/-- A document with a range, its result set, and a moniker, a definition result and a hover that the
result set leads to. -/
def annotated : Document where
  ranges := (∅ : Table UInt64).insert ⟨"7"⟩ 0
  orderedRanges := [⟨⟨⟨0, 4⟩, ⟨0, 9⟩⟩, { ChainNode.empty with next := some ⟨"8"⟩ }⟩]
  resultSets := (∅ : Table ChainNode).insert ⟨"8"⟩
    ⟨none, some ⟨"11"⟩, none, some ⟨"9"⟩, [⟨"10"⟩]⟩
  monikers := (∅ : Table Moniker).insert ⟨"10"⟩ ⟨"npm", "lib:\nrun", .exported, none⟩
  packages := ∅
  definitionResults := (∅ : Table DefinitionResult).insert ⟨"11"⟩ ⟨[⟨"7"⟩]⟩
  referenceResults := ∅
  hovers := (∅ : Table Hover).insert ⟨"9"⟩
    ⟨.array [.object [("kind", .string "markdown"), ("size", .number (.integer (-12)))], .null,
      .number (.real ⟨0x4004000000000000⟩)], some ⟨⟨0, 4⟩, ⟨0, 9⟩⟩⟩

theorem decode_encode_annotated :
    ((∀ entry ∈ annotated.hovers.toList, entry.2.contents.Ordered) ∧
      (∀ entry ∈ annotated.hovers.toList, entry.2.contents.Survives) ∧
      ∀ entry ∈ annotated.hovers.toList, entry.2.contents.nesting ≤ 124) ∧
    decode annotated.encode = .ok annotated ∧
      decode (Utf8.encode annotated.toValue.render) = .ok annotated ∧
      ∀ octets, Dump.inflate none octets = .ok (Utf8.encode annotated.toValue.render) →
        decode octets = .ok annotated := by
  have hovers : annotated.hovers.toList = [(⟨"9"⟩, ⟨.array [.object [("kind", .string "markdown"),
      ("size", .number (.integer (-12)))], .null, .number (.real ⟨0x4004000000000000⟩)],
        some ⟨⟨0, 4⟩, ⟨0, 9⟩⟩⟩)] := rfl
  have real : Number.Survives (.real ⟨0x4004000000000000⟩) := by
    have text : Utf8.encode (Number.render (.real ⟨0x4004000000000000⟩)) = [0x32, 0x2E, 0x35] := by
      decide +kernel
    rw [Number.Survives, text]
    exact ⟨_, rfl, by decide +kernel⟩
  have ordered : ∀ entry ∈ annotated.hovers.toList, entry.2.contents.Ordered := by
    rw [hovers, List.forall_mem_singleton]
    refine ⟨⟨?_, trivial, trivial, trivial⟩, trivial, trivial, trivial⟩
    exact List.pairwise_pair.mpr (by decide)
  have numbers : ∀ entry ∈ annotated.hovers.toList, entry.2.contents.Survives := by
    rw [hovers, List.forall_mem_singleton]
    exact ⟨⟨trivial, Number.survives_integer (by decide) (by decide), trivial⟩, trivial, real,
      trivial⟩
  have shallow : ∀ entry ∈ annotated.hovers.toList, entry.2.contents.nesting ≤ 124 := by
    rw [hovers, List.forall_mem_singleton]
    decide
  exact ⟨⟨ordered, numbers, shallow⟩, decode_encode_of_shallow annotated ordered numbers shallow⟩

end Document

end CodeNav
