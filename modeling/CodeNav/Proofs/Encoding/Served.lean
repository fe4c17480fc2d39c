/-
Module: CodeNav.Proofs.Encoding.Served
Purpose: What is served of an accepted dump, in whichever encoding it is stored.
Main exports:
  Source.Serves, Encoding.accepted_served
-/
import CodeNav.Proofs.Document.Depth
import CodeNav.Proofs.Dump.Accepted
import CodeNav.Proofs.Dump.Reach
import CodeNav.Proofs.Encoding.Agreement
import CodeNav.Proofs.Store.Contents

namespace CodeNav

open Element (vertices)
open Json (Value)

/-- A path leads to a document of a dump. -/
def Dump.Locates (dump : Dump) (path : String) (id : VertexId) : Prop :=
  dump.documents[id]? = some ((ProjectRoot.ofOption dump.projectRoot).address path)

/-! ### Documents of a graph -/

/-- Whether the vertex written last under an identifier is a document. -/
def Element.endsAsDocument (elements : List Element) (id : VertexId) : Bool :=
  (lastVertex? elements id).any fun v => VertexLabel.ofName? v.label = some .document

/-- A dump shows a hover, as it is or as its text is read. -/
def Dump.Shows (dump : Dump) (id : VertexId) (hover : Hover) : Prop :=
  ∃ shown, dump.hovers[id]? = some shown ∧ (hover = shown ∨ hover = shown.reread)

/-- The contents of what an accepted dump shows are written by some text. -/
theorem Dump.legible_of_shows {elements : List Element} {dump : Dump}
    (accepted : Dump.ofElements elements = .ok dump) (legible : Element.Legible elements)
    {id : VertexId} {hover : Hover} (shows : dump.Shows id hover) : hover.contents.Legible := by
  obtain ⟨shown, found, rfl | rfl⟩ := shows
  · exact Dump.legible_hovers accepted legible found
  · exact (Dump.legible_hovers accepted legible found).reread

/-- The hovers of a part of a dump are hovers of the dump, with their contents changed in a given
way. -/
def Dump.HoversOf (dump : Dump) (again : Value → Value) (part : Dump) : Prop :=
  ∀ (id : VertexId) hover, part.hovers[id]? = some hover →
    ∃ shown, dump.hovers[id]? = some shown ∧ hover = shown.mapContents again

/-- The hovers of a document are hovers of its dump. -/
theorem Dump.hovers_documentOf {dump : Dump} {id : VertexId} {entry : VertexId × Hover}
    (listed : entry ∈ (dump.documentOf id).hovers.toList) :
    dump.hovers[entry.1]? = some entry.2 := by
  obtain ⟨key, hover⟩ := entry
  rw [Std.ExtTreeMap.mem_toList_iff_getElem?_eq_some] at listed
  rcases Dump.getElem?_foldl_insert listed with absent | ⟨_, found⟩
  · simp at absent
  · exact found

namespace GraphTables

variable {elements : List Element} {dump : Dump}

section

variable {again : Value → Value} (reads : Element.ReadBack elements again) {ids : List VertexId}
  (nodup : ids.Nodup) (stored : ∀ id ∈ ids, id ∈ (ofDump elements dump).vertices) {part : Dump}
  (partAccepted : Dump.ofElements (ids.flatMap (ofDump elements dump).block) = .ok part)
include reads nodup stored partAccepted

/-- A hover among collected elements is the one that counts in the whole dump. -/
theorem hoversOf_collected (accepted : Dump.ofElements elements = .ok dump) :
    dump.HoversOf again part := by
  intro id hover found
  rw [Dump.hovers_ofElements partAccepted, Element.hover?, Element.contentsOf,
    filter_vertices_collected reads nodup stored] at found
  rw [Dump.hovers_ofElements accepted, Element.hover?, Element.contentsOf]
  split at found
  · cases last : Element.lastVertex? elements id with
    | none =>
        rw [last] at found
        cases found
    | some v =>
        have member := (Element.mem_of_lastVertex? last).1
        obtain ⟨held, read⟩ := (Dump.ofElements_isOk_iff elements).mp ⟨dump, accepted⟩ v member
        have readAgain := reads.content v member held read
        rw [last, Option.map_some, Option.toList_some] at found
        simp only [List.filterMap_cons, readAgain, Except.toOption, List.filterMap_nil] at found
        obtain ⟨before, written⟩ := List.getLast?_eq_some_iff.mp last
        rw [written, List.filterMap_append, List.filterMap_append, List.getLast?_append]
        simp only [List.filterMap_cons, read, Except.toOption, List.filterMap_nil]
        cases held with
        | hover shown =>
            cases found
            exact ⟨shown, rfl, rfl⟩
        | _ => cases found
  · cases found

/-- A document is found among collected elements if its vertex is the last one written. -/
theorem documents_collected {id : VertexId} (collected : id ∈ ids) :
    part.documents.contains id = Element.endsAsDocument elements id := by
  have own : (Element.vertices (ids.flatMap (ofDump elements dump).block)).filter (·.id = id) =
      ((Element.lastVertex? elements id).map (·.mapValue again)).toList := by
    rw [filter_vertices_collected reads nodup stored, if_pos collected]
  have among : Element.hasVertex (ids.flatMap (ofDump elements dump).block) .document id =
      ((Element.vertices (ids.flatMap (ofDump elements dump).block)).filter (·.id = id)).any
        fun v => VertexLabel.ofName? v.label = some .document := by
    rw [Element.hasVertex, List.any_filter]
  rw [Dump.documents_contains partAccepted, among, own, Element.endsAsDocument]
  cases Element.lastVertex? elements id <;> simp [Vertex.mapValue]

end

/-- What the graph of a dump serves of a document: part of the dump, unless a vertex that is no
document has been stored in its place. -/
theorem document_eq (accepted : Dump.ofElements elements = .ok dump) {again : Value → Value}
    (reads : Element.ReadBack elements again) {uri : String} {id : VertexId}
    (located : (ofDump elements dump).documents[uri]? = some id)
    (present : id ∈ dump.documents) (path : String) :
    if Element.endsAsDocument elements id then
      ∃ part, dump.HoversOf again part ∧
        (ofDump elements dump).document uri path = .ok (part.documentOf id)
    else (ofDump elements dump).document uri path = .error (.noDocument path) := by
  obtain ⟨ids, result, nodup, stored, started, _⟩ :=
    subgraph_eq_ok (readable_ofDump reads dump) id
  obtain ⟨part, partAccepted⟩ := ofElements_collected reads nodup stored accepted
  have there : dump.vertexFacts id ≠ .none := by
    intro missing
    have absent : dump.documents[id]? = none := congrArg VertexFacts.address missing
    simp [Std.ExtTreeMap.mem_iff_isSome_getElem?, absent] at present
  have collected := started (mem_vertices_of_vertexFacts accepted there)
  have kept := documents_collected reads nodup stored partAccepted collected
  have served : (ofDump elements dump).document uri path =
      if part.documents.contains id then .ok (part.documentOf id)
      else .error (.noDocument path) := by
    unfold document
    simp only [located, result, partAccepted, Dump.document?, Success.ok_bind]
    cases part.documents.contains id <;> rfl
  rw [served, kept]
  cases Element.endsAsDocument elements id with
  | true => exact ⟨part, hoversOf_collected reads nodup stored partAccepted accepted, rfl⟩
  | false => rfl

end GraphTables

/-! ### Sources -/

namespace Source

section

variable [Gzip.Compressor]

/-- A source serves octets for a path that store a document with hovers of the dump. They are read
back as the document, with the contents of its hovers as their texts are read, unless a hover nests
too deep. -/
def Serves (source : Source) (dump : Dump) (path : String) : Prop :=
  ∃ document : Document,
    (∀ entry ∈ document.hovers.toList, dump.Shows entry.1 entry.2) ∧
    source.document path = .ok document.encode ∧
    Document.decode document.encode =
      if ∀ entry ∈ document.hovers.toList, entry.2.contents.nesting ≤ 124 then .ok document.reread
      else .error (.malformedDocument .recursionLimit)

variable {elements : List Element} {dump : Dump}

/-- Octets of a document of a part of the dump are served. -/
theorem serves_of_part (accepted : Dump.ofElements elements = .ok dump)
    (legible : Element.Legible elements) {part : Dump}
    (within : ∀ (id : VertexId) hover, part.hovers[id]? = some hover → dump.Shows id hover)
    {source : Source} {path : String} {id : VertexId}
    (octets : source.document path = .ok (part.documentOf id).encode) :
    source.Serves dump path := by
  have hovers : ∀ entry ∈ (part.documentOf id).hovers.toList, dump.Shows entry.1 entry.2 :=
    fun entry listed => within entry.1 entry.2 (Dump.hovers_documentOf listed)
  exact ⟨part.documentOf id, hovers, octets, Document.decode_encode_eq _
    fun entry listed => Dump.legible_of_shows accepted legible (hovers entry listed)⟩

/-- A dump that is read as a whole serves the first document at an address. -/
theorem document_ofDump {path : String} {id : VertexId}
    (first : dump.documentId? ((ProjectRoot.ofOption dump.projectRoot).address path) = some id) :
    (ofDump dump).document path = .ok (dump.documentOf id).encode := by
  have found := Dump.document?_of_addressed (Dump.addressed_of_documentId? first)
  change (wholeDocument dump ((ProjectRoot.ofOption dump.projectRoot).address path) path).map _ = _
  simp only [wholeDocument, first, Option.bind_some, found]
  rfl

/-- The octets at an address are those of a document. Documents of one digest are stored once, so it
may be another one. -/
theorem document_blob {path : String} {id : VertexId} (located : dump.Locates path id) :
    ∃ same, (tables (.blob (.ofDump dump))).document path = .ok (dump.documentOf same).encode := by
  obtain ⟨last, kept⟩ := Dump.exists_getLast?_documentsAt located
  obtain ⟨same, _, _, found⟩ := BlobTables.octets?_ofDump kept
  refine ⟨same, ?_⟩
  unfold document
  rw [project_blob]
  change BlobTables.document (.ofDump dump) ((ofDump dump).project.address path) path = _
  have found : (BlobTables.ofDump dump).octets? ((ofDump dump).project.address path) =
      some (dump.documentOf same).encode := found
  rw [BlobTables.document, found]

/-- The graph of a dump serves the last document at an address, unless another vertex was written in
its place. -/
theorem document_graph (accepted : Dump.ofElements elements = .ok dump) {again : Value → Value}
    (reads : Element.ReadBack elements again) {path : String} {id : VertexId}
    (kept : (dump.documentsAt ((ProjectRoot.ofOption dump.projectRoot).address path)).getLast? =
      some id) :
    if Element.endsAsDocument elements id then
      ∃ part, dump.HoversOf again part ∧
        (tables (.graph (.ofDump elements dump))).document path = .ok (part.documentOf id).encode
    else (tables (.graph (.ofDump elements dump))).document path = .error (.noDocument path) := by
  have there : dump.Locates path id := Dump.mem_documentsAt.mp (List.mem_of_getLast? kept)
  rw [← GraphTables.documents_eq_getLast? elements] at kept
  have served := GraphTables.document_eq accepted reads kept
    (Dump.mem_documents_of_addressed there) path
  cases ends : Element.endsAsDocument elements id with
  | true =>
      rw [ends] at served
      obtain ⟨part, within, found⟩ := served
      exact ⟨part, within, congrArg (Except.map Document.encode) found⟩
  | false =>
      rw [ends] at served
      exact congrArg (Except.map Document.encode) served

/-- A dump that is read as a whole serves all its documents. -/
theorem serves_whole (accepted : Dump.ofElements elements = .ok dump)
    (legible : Element.Legible elements) {path : String} {id : VertexId}
    (located : dump.Locates path id) :
    (ofDump dump).Serves dump path := by
  obtain ⟨i, first⟩ := Option.isSome_iff_exists.mp
    (Dump.isSome_documentId?_iff.mpr ⟨id, located⟩)
  exact serves_of_part accepted legible (fun _ hover found => ⟨hover, found, .inl rfl⟩)
    (document_ofDump first)

/-- The documents of a dump that are stored by their address are all served. -/
theorem serves_blob (accepted : Dump.ofElements elements = .ok dump)
    (legible : Element.Legible elements) {path : String} {id : VertexId}
    (located : dump.Locates path id) :
    (tables (.blob (.ofDump dump))).Serves dump path := by
  obtain ⟨same, octets⟩ := document_blob located
  exact serves_of_part accepted legible (fun _ hover found => ⟨hover, found, .inl rfl⟩) octets

/-- The graph of a dump serves a document unless another vertex was written in its place. -/
theorem serves_graph (accepted : Dump.ofElements elements = .ok dump)
    (legible : Element.Legible elements) {path : String} {id : VertexId} (located : dump.Locates path id) :
    ∃ i, dump.Locates path i ∧
      if Element.endsAsDocument elements i then
        (tables (.graph (.ofDump elements dump))).Serves dump path
      else (tables (.graph (.ofDump elements dump))).document path = .error (.noDocument path) := by
  obtain ⟨i, kept⟩ := Dump.exists_getLast?_documentsAt located
  have served := document_graph accepted legible.readBack kept
  refine ⟨i, Dump.mem_documentsAt.mp (List.mem_of_getLast? kept), ?_⟩
  cases ends : Element.endsAsDocument elements i with
  | true =>
      rw [ends] at served
      obtain ⟨part, hovers, octets⟩ := served
      refine serves_of_part accepted legible ?_ octets
      intro id hover found
      obtain ⟨shown, known, same⟩ := hovers id hover found
      exact ⟨shown, known, .inr same⟩
  | false =>
      rw [ends] at served
      exact served

end

end Source

/-- Whatever is accepted is converted to each encoding, and what is stored is opened. Every path of
a document is served, and its octets are read back unless a hover of it nests too deep, whatever
numbers it holds: only a double in the contents of a hover may be read back as another one. The
graph alone lacks documents that another vertex was written in place of. -/
theorem Encoding.accepted_served [Gzip.Compressor] {limit : Option Nat} {octets : List UInt8}
    {elements : List Element} {dump : Dump}
    (parsed : Dump.parseElements limit octets = .ok elements)
    (accepted : Dump.ofElements elements = .ok dump) (kind : Encoding) (file : String) :
    ∃ content source, kind.contentOf octets = .ok content ∧
      kind.openContent file content = .ok source ∧
      ∀ path id, dump.Locates path id → ∃ i, dump.Locates path i ∧
        if kind = .graph ∧ Element.endsAsDocument elements i = false then
          source.document path = .error (.noDocument path)
        else source.Serves dump path := by
  have legible := Dump.legible_of_parseElements parsed
  have unlimited := Dump.parseElements_unlimited parsed
  cases kind with
  | json =>
      have whole : Dump.parse none octets = .ok dump := by
        rw [Dump.parse, unlimited, Success.ok_bind, accepted]
      refine ⟨.octets octets, .ofDump dump, rfl, openContent_octets whole file,
        fun path id located => ⟨id, located, ?_⟩⟩
      rw [if_neg fun both => absurd both.1 (by decide)]
      exact Source.serves_whole accepted legible located
  | graph =>
      have notJson : graph ≠ json := by decide
      have converted : Tables.ofElements graph elements = .ok (.graph (.ofDump elements dump)) := by
        rw [Tables.ofElements, accepted]
        rfl
      refine ⟨_, .tables (.graph (.ofDump elements dump)),
        contentOf_tables notJson unlimited converted, openContent_tables notJson rfl file,
        fun path id located => ?_⟩
      obtain ⟨i, there, served⟩ := Source.serves_graph accepted legible located
      refine ⟨i, there, ?_⟩
      cases ends : Element.endsAsDocument elements i <;> simpa [ends] using served
  | blob =>
      have notJson : blob ≠ json := by decide
      have converted : Tables.ofElements blob elements = .ok (.blob (.ofDump dump)) := by
        rw [Tables.ofElements, accepted]
        rfl
      refine ⟨_, .tables (.blob (.ofDump dump)), contentOf_tables notJson unlimited converted,
        openContent_tables notJson rfl file, fun path id located => ⟨id, located, ?_⟩⟩
      rw [if_neg fun both => absurd both.1 (by decide)]
      exact Source.serves_blob accepted legible located

/-! ### A hover that is accepted and cannot be read back -/

namespace NestedHover

/-- Lists in lists, one more than `n`. -/
def lists : Nat → Value
  | 0 => .array []
  | n + 1 => .array [lists n]

/-- A dump of one document with a range whose hover nests as deep as there are brackets. -/
def chars (brackets : Nat) : List Char :=
  -- In short pieces, since evaluation takes a string apart in quadratic time.
  ["\x7b\"id\":1,\"type\":\"vertex\",\"label\":\"document\",", "\"uri\":\"p\"\x7d\n",
   "\x7b\"id\":2,\"type\":\"vertex\",\"label\":\"range\",",
   "\"start\":\x7b\"line\":0,\"character\":0\x7d,",
   "\"end\":\x7b\"line\":0,\"character\":9\x7d\x7d\n",
   "\x7b\"id\":3,\"type\":\"vertex\",\"label\":\"hoverResult\",",
   "\"result\":\x7b\"contents\":"].flatMap String.toList ++
  List.replicate brackets '[' ++ List.replicate brackets ']' ++
  ["\x7d\x7d\n", "\x7b\"id\":4,\"type\":\"edge\",\"label\":\"contains\",",
   "\"outV\":1,\"inVs\":[2]\x7d\n", "\x7b\"id\":5,\"type\":\"edge\",",
   "\"label\":\"textDocument/hover\",", "\"outV\":2,\"inV\":3\x7d"].flatMap String.toList

/-- The octets of the dump. -/
def octets (brackets : Nat) : List UInt8 :=
  Utf8.encode (String.ofList (chars brackets))

/-- The object of the range. -/
def rangeValue : Value :=
  .record [("id", .nat 2), ("type", .string "vertex"), ("label", .string "range"),
    ("start", .record [("line", .nat 0), ("character", .nat 0)]),
    ("end", .record [("line", .nat 0), ("character", .nat 9)])]

/-- What the lines of the dump write. -/
def elements (contents : Value) : List Element :=
  [.vertex ⟨⟨"1"⟩, "document", .record [("id", .nat 1), ("type", .string "vertex"),
     ("label", .string "document"), ("uri", .string "p")]⟩,
   .vertex ⟨⟨"2"⟩, "range", rangeValue⟩,
   .vertex ⟨⟨"3"⟩, "hoverResult", .record [("id", .nat 3), ("type", .string "vertex"),
     ("label", .string "hoverResult"), ("result", .record [("contents", contents)])]⟩,
   .edge ⟨"contains", ⟨"1"⟩, none, [⟨"2"⟩], none, none⟩,
   .edge ⟨"textDocument/hover", ⟨"2"⟩, some ⟨"3"⟩, [], none, none⟩]

/-- With 125 brackets the dump is still within the limit. -/
theorem parseElements_octets :
    Dump.parseElements none (octets 125) = .ok (elements (lists 124)) := by
  have lines : (Dump.elementsOfLines (chars 125)).toOption = some (elements (lists 124)) := by
    -- Octets are found character by character: `Utf8.encode` itself is slow to evaluate.
    simp only [Dump.elementsOfLines, Dump.elementOfLine, Dump.octetsOf, Utf8.encode_ofList]
    decide +kernel
  have noArray : Dump.isArray (chars 125) = false := by decide +kernel
  have plain : Gzip.isGzip (octets 125) = false := by
    rw [octets, Utf8.encode_ofList]
    decide +kernel
  rw [octets, Dump.parseElements_encode plain, Dump.elementsOfText, String.toList_ofList, noArray]
  cases read : Dump.elementsOfLines (chars 125) with
  | error failure =>
      rw [read] at lines
      cases lines
  | ok found =>
      rw [read] at lines
      cases lines
      rfl

/-- What the dump holds. -/
theorem ofElements_elements :
    ∃ dump, Dump.ofElements (elements (lists 124)) = .ok dump ∧ dump.projectRoot = none ∧
      dump.documents.toList = [(⟨"1"⟩, "p")] ∧
      (dump.documentOf ⟨"1"⟩).hovers.toList = [(⟨"3"⟩, ⟨lists 124, none⟩)] := by
  have seen : (Dump.ofElements (elements (lists 124))).toOption.map (fun dump =>
        (dump.projectRoot, dump.documents.toList, (dump.documentOf ⟨"1"⟩).hovers.toList)) =
      some (none, [(⟨"1"⟩, "p")], [(⟨"3"⟩, ⟨lists 124, none⟩)]) := by
    decide +kernel
  cases accepted : Dump.ofElements (elements (lists 124)) with
  | error failure =>
      rw [accepted] at seen
      cases seen
  | ok dump =>
      rw [accepted] at seen
      simp only [Except.toOption, Option.map_some, Option.some.injEq, Prod.mk.injEq] at seen
      exact ⟨dump, rfl, seen⟩

@[simp] theorem nesting_lists (n : Nat) : (lists n).nesting = n + 1 := by
  induction n with
  | zero => rfl
  | succ n ih => simp [lists, Value.nesting, Value.nestingOfItems, ih]

theorem legible_lists (n : Nat) : (lists n).Legible := by
  induction n with
  | zero => exact ⟨trivial, trivial⟩
  | succ n ih => exact ⟨⟨ih.ordered, trivial⟩, ih.readable, trivial⟩

end NestedHover

open scoped Gzip

theorem Encoding.accepted_served_nested :
    ∃ elements dump, Dump.parseElements none (NestedHover.octets 125) = .ok elements ∧
      Dump.ofElements elements = .ok dump ∧
      ∀ (kind : Encoding) (file : String), ∃ content source,
        kind.contentOf (NestedHover.octets 125) = .ok content ∧
        kind.openContent file content = .ok source ∧
        ∀ path id, dump.Locates path id → ∃ i, dump.Locates path i ∧
          if kind = .graph ∧ Element.endsAsDocument elements i = false then
            source.document path = .error (.noDocument path)
          else source.Serves dump path := by
  obtain ⟨dump, accepted, _⟩ := NestedHover.ofElements_elements
  exact ⟨_, dump, NestedHover.parseElements_octets, accepted,
    accepted_served NestedHover.parseElements_octets accepted⟩

/-- A dump can be accepted although octets that are served of it cannot be read back. -/
theorem Encoding.accepted_may_be_unreadable :
    ¬ ∀ (limit : Option Nat) (octets : List UInt8) (dump : Dump) (path : String) (id : VertexId),
      Dump.parse limit octets = .ok dump → dump.Locates path id →
      ∀ (kind : Encoding) (file : String), ∃ content source served document,
        kind.contentOf octets = .ok content ∧ kind.openContent file content = .ok source ∧
        source.document path = .ok served ∧ Document.decode served = .ok document := by
  intro claim
  obtain ⟨dump, accepted, root, documents, hovers⟩ := NestedHover.ofElements_elements
  have parsed : Dump.parse none (NestedHover.octets 125) = .ok dump := by
    rw [Dump.parse, NestedHover.parseElements_octets, Success.ok_bind, accepted]
  have own : (ProjectRoot.ofOption dump.projectRoot).address "p" = "p" := by
    rw [root]
    decide +kernel
  have located : dump.Locates "p" ⟨"1"⟩ := by
    rw [Dump.Locates, own, ← Std.ExtTreeMap.mem_toList_iff_getElem?_eq_some, documents]
    exact List.mem_cons_self
  have first : dump.documentId? ((ProjectRoot.ofOption dump.projectRoot).address "p") =
      some ⟨"1"⟩ := by
    rw [own, Dump.documentId?, documents]
    rfl
  obtain ⟨content, source, served, document, stored, opened, answered, decoded⟩ :=
    claim none _ dump "p" ⟨"1"⟩ parsed located .json ""
  cases stored
  obtain rfl : .ofDump dump = source :=
    Except.ok.inj ((openContent_octets parsed "").symm.trans opened)
  obtain rfl : (dump.documentOf ⟨"1"⟩).encode = served :=
    Except.ok.inj ((Source.document_ofDump first).symm.trans answered)
  have deep : ¬ ∀ entry ∈ (dump.documentOf ⟨"1"⟩).hovers.toList,
      entry.2.contents.nesting ≤ 124 := by
    rw [hovers, List.forall_mem_singleton, NestedHover.nesting_lists]
    decide
  rw [Document.decode_encode_eq, if_neg deep] at decoded
  · cases decoded
  · rw [hovers, List.forall_mem_singleton]
    exact NestedHover.legible_lists 124

end CodeNav
