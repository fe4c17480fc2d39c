/-
Module: CodeNav.Proofs.Document.Depth
Purpose: A stored document is refused for the nesting of its hovers, and for nothing else.
Main exports:
  Hover.decoder_fails, Document.decoder_fails, Document.decode_encode_eq
-/
import CodeNav.Proofs.Document.Codec
import CodeNav.Proofs.Json.Refusals

namespace CodeNav

open Json (Cause Decoder Fails Shape Value)

/-! ### Hovers -/

variable {depth : Nat} {complete : Bool}

/-- A table fails for a cause if one of its values does and all others are read back. -/
theorem Table.decoder_fails {α : Type} {item : Decoder α} {write : α → Value} {table : Table α}
    {cause : Cause}
    (each : ∀ entry ∈ table.toList,
      item ⟨depth + 1, complete⟩ (.ofValue (write entry.2)) = .ok entry.2 ∨
        Fails (item ⟨depth + 1, complete⟩ (.ofValue (write entry.2))) cause)
    (one : ∃ entry ∈ table.toList,
      Fails (item ⟨depth + 1, complete⟩ (.ofValue (write entry.2))) cause) :
    Fails (decoder item ⟨depth + 2, complete⟩ (.ofValue (toValue write table))) cause := by
  rw [decoder, toValue_eq]
  refine (Decoder.map_map_fails ?_ ?_).bind _
  · intro member listed
    obtain ⟨entry, among, rfl⟩ := List.mem_map.mp listed
    exact each entry among
  · obtain ⟨entry, among, fails⟩ := one
    exact ⟨_, List.mem_map_of_mem among, fails⟩

/-- A hover whose contents nest too deep is refused. -/
theorem Hover.decoder_fails (hover : Hover) (ordered : hover.contents.Ordered)
    (deep : ¬ hover.contents.nesting ≤ depth + 2) :
    Fails (decoder ⟨depth + 4, complete⟩ (.ofValue hover.toValue)) .recursionLimit := by
  have contents : Fails (Decoder.any ⟨depth + 3, complete⟩ (.ofValue hover.contents))
      .recursionLimit := by
    rw [Decoder.any_ofValue ordered, if_neg deep]
    exact ⟨[], rfl⟩
  have refused : shape.Refuses ⟨depth + 3, complete⟩ .recursionLimit ("contents", hover.contents) :=
    Shape.refuses_of_fails rfl contents
  refine Decoder.shape_record_fails hover.known _ rfl ?_ ⟨_, List.mem_cons_self, refused⟩
    (by cases hover.range <;> simp)
  intro member listed
  rcases List.mem_cons.mp listed with rfl | listed
  · exact .inr refused
  · obtain ⟨range, present, rfl⟩ := Option.map_eq_some_iff.mp (Option.mem_toList.mp listed)
    refine .inl (Shape.fills_of_reads rfl
      (Decoder.option_some nofun (Range.decoder_toValue range)) fun _ => ?_)
    simp [known, present]

namespace Document

/-- A document with a hover that nests too deep is refused. -/
theorem decoder_fails (document : Document)
    (ordered : ∀ entry ∈ document.hovers.toList, entry.2.contents.Ordered)
    (deep : ¬ ∀ entry ∈ document.hovers.toList, entry.2.contents.nesting ≤ depth + 2) :
    Fails (decoder ⟨depth + 6, complete⟩ (.ofValue document.toValue)) .recursionLimit := by
  have hovers : Fails (Table.decoder Hover.decoder ⟨depth + 5, complete⟩
      (.ofValue (Table.toValue Hover.toValue document.hovers))) .recursionLimit := by
    apply Table.decoder_fails
    · intro entry listed
      by_cases shallow : entry.2.contents.nesting ≤ depth + 2
      · exact .inl (entry.2.decoder_toValue (ordered entry listed) shallow)
      · exact .inr (entry.2.decoder_fails (ordered entry listed) shallow)
    · simp only [not_forall] at deep
      obtain ⟨entry, listed, deep⟩ := deep
      exact ⟨entry, listed, entry.2.decoder_fails (ordered entry listed) deep⟩
  have refused : shape.Refuses ⟨depth + 5, complete⟩ .recursionLimit
      ("hovers", Table.toValue Hover.toValue document.hovers) :=
    Shape.refuses_of_fails rfl hovers
  rw [toValue_eq]
  refine Decoder.shape_record_fails document.known _ rfl ?_ ⟨_, by simp, refused⟩
    (by simp [otherMembers])
  intro member listed
  rcases List.mem_append.mp listed with other | isHovers
  · exact .inl (document.fills_otherMembers member other)
  · exact .inr (List.mem_singleton.mp isHovers ▸ refused)

/-- Reading a stored document gives the document, with the contents of its hovers as their texts are
read, unless one of its hovers nests too deep. -/
theorem decode_encode_eq [Gzip.Compressor] (document : Document)
    (legible : ∀ entry ∈ document.hovers.toList, entry.2.contents.Legible) :
    decode document.encode =
      if ∀ entry ∈ document.hovers.toList, entry.2.contents.nesting ≤ 124 then .ok document.reread
      else .error (.malformedDocument .recursionLimit) := by
  by_cases shallow : ∀ entry ∈ document.hovers.toList, entry.2.contents.nesting ≤ 124
  · rw [if_pos shallow, decode, encode, Dump.inflate_compress]
    exact document.ofJson_render legible shallow
  · rw [if_neg shallow, decode, encode, Dump.inflate_compress]
    obtain ⟨path, refused⟩ : Fails (decoder .text (.ofValue document.reread.toValue))
        .recursionLimit :=
      document.reread.decoder_fails
        (ordered_reread fun entry listed => (legible entry listed).ordered)
        fun fits => shallow (nesting_reread_iff.mp fits)
    change ofJson _ = _
    rw [ofJson, document.parse_render fun entry listed => (legible entry listed).readable, refused]
    rfl

end Document

end CodeNav
