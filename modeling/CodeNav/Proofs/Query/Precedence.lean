/-
Module: CodeNav.Proofs.Query.Precedence
Purpose: What decides where a symbol is defined: its own document, an imported moniker, or rows.
Main exports:
  Moniker.find?_sort, Document.IsCut, Query.definitions_precedence
-/
import CodeNav.Proofs.Encoding.Cuts
import CodeNav.Proofs.Service.Sound
import CodeNav.Proofs.Service.Surroundings
import Mathlib.Data.List.MinMax
import Mathlib.Data.List.TakeWhile
import Mathlib.Data.Prod.Lex

namespace CodeNav

open Stateful

/-! ### Monikers in order -/

namespace Moniker

/-- Monikers by kind and then by scheme. -/
def precedence (moniker : Moniker) : Nat ×ₗ Nat :=
  toLex moniker.rank

theorem notAfter_iff_le (a b : Moniker) : a.notAfter b = true ↔ a.precedence ≤ b.precedence := by
  rw [notAfter_iff, precedence, precedence, Prod.Lex.toLex_le_toLex]

/-- Sorting and selecting can change places. -/
theorem filter_sort (p : Moniker → Bool) (monikers : List Moniker) :
    (sort monikers).filter p = sort (monikers.filter p) := by
  rw [sort_eq_inOrder, sort_eq_inOrder, inOrder, inOrder, List.filter_flatMap]
  apply List.flatMap_congr
  intro rank _
  rw [List.filter_filter, List.filter_filter]
  apply List.filter_congr
  intro moniker _
  rw [Bool.and_comm]

/-- The first moniker in order is the first of the least ones. -/
theorem head?_sort {κ : Type} [LinearOrder κ] {key : Moniker → κ} {monikers : List Moniker}
    (orders : ∀ a ∈ monikers, ∀ b ∈ monikers, a.notAfter b = true ↔ key a ≤ key b) :
    (sort monikers).head? = monikers.argmin key := by
  induction monikers with
  | nil => simp [sort]
  | cons a monikers ih =>
      have rest := ih fun b listed c other =>
        orders b (List.mem_cons_of_mem a listed) c (List.mem_cons_of_mem a other)
      obtain ⟨before, after, whole, parts, later⟩ :=
        List.mergeSort_cons notAfter_trans notAfter_total a monikers
      rw [sort, parts] at rest
      rw [sort, whole, List.argmin_cons, ← rest]
      have member (b : Moniker) (listed : b ∈ before ++ after) : b ∈ monikers := by
        rw [← parts] at listed
        exact List.mem_mergeSort.mp listed
      cases before with
      | nil =>
          cases after with
          | nil => rfl
          | cons c after =>
              have ordered := List.pairwise_mergeSort notAfter_trans notAfter_total (a :: monikers)
              rw [whole] at ordered
              have first := List.rel_of_pairwise_cons ordered List.mem_cons_self
              have least := (orders a List.mem_cons_self c
                (List.mem_cons_of_mem a (member c List.mem_cons_self))).mp first
              simp [not_lt.mpr least]
      | cons b before =>
          have ahead := later b List.mem_cons_self
          have listed := List.mem_cons_of_mem a (member b List.mem_cons_self)
          have less : key b < key a := by
            rw [← not_le, ← orders a List.mem_cons_self b listed]
            simpa using ahead
          simp [less]

/-- The first moniker in order that meets a condition is the first of the least that meet it. -/
theorem find?_sort {κ : Type} [LinearOrder κ] {key : Moniker → κ} {p : Moniker → Bool}
    {monikers : List Moniker}
    (orders : ∀ a ∈ monikers.filter p, ∀ b ∈ monikers.filter p,
      a.notAfter b = true ↔ key a ≤ key b) :
    (sort monikers).find? p = (monikers.filter p).argmin key := by
  rw [← List.head?_filter, filter_sort, head?_sort orders]

/-- Imported monikers stand before all others. -/
theorem takeWhile_sort {monikers : List Moniker} {moniker : Moniker} (listed : moniker ∈ monikers)
    (imported : moniker.kind = .imported) :
    (sort monikers).takeWhile (·.kind ≠ .imported) = [] := by
  have among : moniker ∈ sort monikers := List.mem_mergeSort.mpr listed
  have ordered := List.pairwise_mergeSort notAfter_trans notAfter_total monikers
  change (sort monikers).Pairwise _ at ordered
  cases sorted : sort monikers with
  | nil => rfl
  | cons first others =>
      rw [sorted] at among ordered
      have lowest : first.kind = .imported := by
        rcases List.mem_cons.mp among with rfl | later
        · exact imported
        · have before := (notAfter_iff _ _).mp (List.rel_of_pairwise_cons ordered later)
          cases kind : first.kind <;>
            simp_all [rank, MonikerKind.preference]
      simp [lowest]

theorem notAfter_of_imported {a b : Moniker} (first : a.kind = .imported)
    (second : b.kind = .imported) :
    a.notAfter b = true ↔ schemeRank a.scheme ≤ schemeRank b.scheme := by
  simp [notAfter_iff, rank, first, second]

end Moniker

theorem Source.firstRows_eq (source : Source) (kind : RowKind) (monikers : List Moniker) :
    source.firstRows kind monikers =
      ((monikers.find? fun m => source.locations kind m.scheme m.identifier ≠ []).map
        fun m => source.locations kind m.scheme m.identifier).getD [] := by
  induction monikers with
  | nil => rfl
  | cons moniker others ih =>
      rw [firstRows, List.find?_cons]
      cases rows : source.locations kind moniker.scheme moniker.identifier <;>
        simp [ih, rows]

/-- The monikers along the chain from a node, in the order of the chain. -/
def Document.monikersAlong (document : Document) (start : ChainNode) : List Moniker :=
  (document.chain start).flatMap fun node =>
    node.monikers.filterMap fun id => document.monikers[id]?

/-! ### Open databases -/

/-- A database can be read, as the dump that it was opened with. -/
def Database.Readable (database : Database) (s : Service) : Prop :=
  (Service.source database s).1 = .ok database.loaded.source

namespace Service

/-- What can be read depends on what has been closed, and on the files. -/
theorem source_congr {s t : Service} (closed : s.closed = t.closed) (files : s.files.Alike t.files)
    (database : Database) : (source database s).1 = (source database t).1 := by
  have same : (source database s).1 = (source database { t with files := s.files }).1 := by
    unfold source
    rw [bind_ok (get_run _), bind_ok (get_run _)]
    dsimp only
    rw [closed]
    split
    · rfl
    · cases database.loaded.source with
      | whole dump rows => rfl
      | tables tables =>
          change (currentTables database tables s).1 = (currentTables database tables _).1
          unfold currentTables
          rw [bind_ok (get_run _), bind_ok (get_run _)]
          dsimp only
          cases s.files.file? database.loaded.path with
          | none => rfl
          | some file =>
              dsimp only
              split
              · rfl
              · cases file.content <;> rfl
  rw [same]
  exact (indifferent_source database { t with files := s.files } t
    ⟨rfl, rfl, rfl, rfl, files, rfl, rfl, rfl, rfl⟩).1

end Service

namespace Database.Readable

variable {database : Database} {s : Service} (readable : database.Readable s)

theorem reading {s : Service} {files : Files} (readable : database.Readable s)
    (reads : Service.ReadOnly s.files files) : database.Readable { s with files } :=
  (Service.source_congr (s := { s with files }) (t := s) rfl reads.alike database).trans readable

theorem documents {s : Service} (readable : database.Readable s)
    (documents : WeightedCache String Document) : database.Readable { s with documents } :=
  (Service.source_congr (s := { s with documents }) (t := s) rfl (.refl _) database).trans readable

include readable

/-- Reading does not hinder reading. -/
theorem source : database.Readable (Service.source database s).2 :=
  Service.keeps_source (fun _ _ holds reads => holds.reading reads) database s readable

/-- If nobody else does anything, it can be read on and on. -/
theorem comes : (Surroundings.alone.comes (.read database) s).1 = .ok database.loaded.source ∧
    database.Readable (Surroundings.alone.comes (.read database) s).2 := by
  have run : (Operation.read database).alone s =
      (.ok (Service.source database s).1, (Service.source database s).2) := rfl
  rw [Surroundings.alone_comes run]
  exact ⟨readable, readable.source⟩

theorem readDocument [Gzip.Compressor] (path : String) :
    database.Readable (Service.readDocument database path s).2 :=
  Service.keeps_readDocument (fun _ _ holds reads => holds.reading reads)
    (fun _ more holds => holds.documents more) database path s readable

/-- The document that is read is the one that the dump answers, if what is in the cache is. -/
theorem answer [Gzip.Compressor] {path : String}
    (known : ∀ document,
      s.documents.peek? (Service.documentKey database.loaded.path path) = some document →
        database.loaded.source.answer path = .ok document) :
    (Service.readDocument database path s).1 = database.loaded.source.answer path := by
  rw [Reader.readDocument_run]
  cases found : s.documents.peek? (Service.documentKey database.loaded.path path) with
  | some document => exact (known document found).symm
  | none =>
      have again : database.Readable
          (Reader.looked s (Service.documentKey database.loaded.path path)) := readable.documents _
      unfold Service.fetchDocument Source.answer
      cases reads : Service.source database (Reader.looked s
          (Service.documentKey database.loaded.path path)) with
      | mk outcome t =>
          obtain rfl : outcome = .ok database.loaded.source :=
            (congrArg Prod.fst reads).symm.trans again
          dsimp only
          rw [bind_assoc, bind_ok reads]
          cases database.loaded.source.document path with
          | error failure => rfl
          | ok octets =>
              change (((ServiceM.ofExcept (Document.decode octets) : ServiceM Document) >>=
                fun document => _) t).1 = Document.decode octets
              cases Document.decode octets <;> rfl

end Database.Readable

/-! ### Definitions -/

/-- What decides where a symbol is defined, from the node at which its chain starts. -/
structure Query.Precedence (source : Source) (document : Document) (path : String)
    (start : ChainNode) (remote : Moniker → Except Failure (Option Location))
    (outcome : Except Failure (Option Definitions)) : Prop where
  /-- An empty list of definitions is no answer. -/
  filled : outcome ≠ .ok (some (.many []))
  /-- A definition result along the chain decides alone, and leads to places in the document. -/
  own : ∀ result, document.definition? start = some result →
    ∃ places, outcome = .ok (some (.many places)) ∧ places ≠ [] ∧ ∀ place ∈ places,
      place.uri = path ∧ ∃ entry ∈ document.orderedRanges, place.range = entry.range
  /-- Or else the first imported moniker does, whether or not its definition can be found. -/
  imported : document.definition? start = none →
    ∀ moniker, ((document.monikersAlong start).filter (·.kind = .imported)).argmin
      (fun m => Moniker.schemeRank m.scheme) = some moniker →
    ∃ far, remote moniker = .ok far ∧ outcome = .ok (far.map .one)
  /-- Or else the first moniker that has rows does, if there is any. -/
  rows : document.definition? start = none →
    (document.monikersAlong start).filter (·.kind = .imported) = [] →
    outcome = .ok ((((document.monikersAlong start).filter fun m =>
      source.locations .definitions m.scheme m.identifier ≠ []).argmin Moniker.precedence).map
        fun m => .many (source.locations .definitions m.scheme m.identifier))

namespace Steps

variable {σ : Type} {w : Surroundings σ} {database : Database} {path : String} {s t : σ}
  {document : Document}

/-- Of the definitions by moniker none is an empty list. -/
theorem amid_monikerDefinitions_ne (monikers : List Moniker) (u : σ) :
    (amid w (monikerDefinitions database document monikers) u).1 ≠ .ok (some (.many [])) := by
  rw [amid_monikerDefinitions, bind_run]
  generalize amid w (firstRows database .definitions _) u = looked
  rcases looked with ⟨_ | found, v⟩
  · exact nofun
  · by_cases none : found.isEmpty
    · simp only [none, if_true]
      cases monikers.find? (·.kind = .imported) with
      | none => exact nofun
      | some moniker =>
          dsimp only
          rw [bind_fst (amid_remoteDefinition w document moniker v)]
          cases w.provided document moniker v <;> exact nofun
    · simp only [none, Bool.false_eq_true, if_false]
      intro empty
      cases empty
      exact none rfl

section

variable {start : ChainNode}

/-- An imported moniker decides alone. -/
theorem amid_monikerDefinitions_imported {moniker : Moniker}
    (least : ((document.monikersAlong start).filter (·.kind = .imported)).argmin
      (fun m => Moniker.schemeRank m.scheme) = some moniker) (u : σ) :
    (amid w (monikerDefinitions database document (document.findMonikers start)) u).1 =
      .ok ((w.provided document moniker u).map .one) := by
  have member := List.mem_filter.mp (List.argmin_mem (Option.mem_def.mpr least))
  have imported : moniker.kind = .imported := by simpa using member.2
  have found : (document.findMonikers start).find? (·.kind = .imported) = some moniker := by
    rw [← least]
    apply Moniker.find?_sort
    intro a listed b other
    have first := (List.mem_filter.mp listed).2
    have second := (List.mem_filter.mp other).2
    simp only [decide_eq_true_eq] at first second
    exact Moniker.notAfter_of_imported first second
  have nobody : (document.findMonikers start).takeWhile (·.kind ≠ .imported) = [] :=
    Moniker.takeWhile_sort member.1 imported
  rw [amid_monikerDefinitions, nobody, found]
  change ((amid w (remoteDefinition document moniker) >>= fun far =>
    pure (far.map Definitions.one)) u).1 = _
  rw [bind_fst (amid_remoteDefinition w document moniker u)]
  rfl

/-- Without imported monikers the first one that has rows decides. -/
theorem amid_monikerDefinitions_rows {source : Source} {P : σ → Prop}
    (ownOnly : (document.monikersAlong start).filter (·.kind = .imported) = [])
    (reads : ∀ u, P u → (w.comes (.read database) u).1 = .ok source ∧
      P (w.comes (.read database) u).2) {u : σ} (holds : P u) :
    (amid w (monikerDefinitions database document (document.findMonikers start)) u).1 =
      .ok ((((document.monikersAlong start).filter fun m =>
        source.locations .definitions m.scheme m.identifier ≠ []).argmin Moniker.precedence).map
          fun m => .many (source.locations .definitions m.scheme m.identifier)) := by
  have others (m : Moniker) (listed : m ∈ document.findMonikers start) : m.kind ≠ .imported := by
    simpa using List.filter_eq_nil_iff.mp ownOnly m (List.mem_mergeSort.mp listed)
  have nobody : (document.findMonikers start).find? (·.kind = .imported) = none := by
    simpa using others
  have everybody : (document.findMonikers start).takeWhile (·.kind ≠ .imported) =
      document.findMonikers start :=
    List.takeWhile_eq_self_iff.mpr fun m listed => decide_eq_true (others m listed)
  have first : (document.findMonikers start).find? (fun m =>
      source.locations .definitions m.scheme m.identifier ≠ []) =
      ((document.monikersAlong start).filter fun m =>
        source.locations .definitions m.scheme m.identifier ≠ []).argmin Moniker.precedence :=
    Moniker.find?_sort fun a _ b _ => Moniker.notAfter_iff_le a b
  have looked := firstRows_ok reads .definitions (document.findMonikers start) holds
  rw [source.firstRows_eq] at looked
  rw [← first, amid_monikerDefinitions, nobody, everybody, bind_fst looked]
  cases found : (document.findMonikers start).find? fun m =>
      source.locations .definitions m.scheme m.identifier ≠ [] with
  | none => rfl
  | some moniker =>
      have rows : source.locations .definitions moniker.scheme moniker.identifier ≠ [] := by
        simpa using List.find?_some found
      have filled : (source.locations .definitions moniker.scheme moniker.identifier).isEmpty =
          false := List.isEmpty_eq_false_iff.mpr rows
      simp only [Option.map_some, Option.getD_some, filled, Bool.false_eq_true, if_false]
      rfl

end

/-- What decides, in whatever surroundings. -/
theorem precedence [Gzip.Compressor]
    (blob : amid w (readDocument database path) s = (.ok document, t)) (cut : document.IsCut)
    {source : Source} {P : σ → Prop}
    (reads : ∀ u, P u → (w.comes (.read database) u).1 = .ok source ∧
      P (w.comes (.read database) u).2) (holds : P t) {position : Position} {entry : RangeEntry}
    (found : document.findRange? position = some entry) :
    Query.Precedence source document path entry.node
      (fun moniker => (amid w (remoteDefinition document moniker) t).1)
      (amid w (definitions database path position) s).1 := by
  rw [amid_definitions blob, found]
  dsimp only
  cases own : document.definition? entry.node with
  | some result =>
      have places := cut.locations_ne_nil own path
      refine ⟨fun empty => ?_, fun other same => ?_, fun absent => ?_, fun absent => ?_⟩
      · exact places (Definitions.many.inj (Option.some.inj (Except.ok.inj empty)))
      · cases own.symm.trans same
        exact ⟨_, rfl, places, fun place => Document.mem_locations⟩
      · cases own.symm.trans absent
      · cases own.symm.trans absent
  | none =>
      refine ⟨amid_monikerDefinitions_ne _ t, fun other same => ?_, fun _ moniker least => ?_,
        fun _ ownOnly => ?_⟩
      · cases own.symm.trans same
      · exact ⟨_, amid_remoteDefinition w document moniker t,
          amid_monikerDefinitions_imported least t⟩
      · exact amid_monikerDefinitions_rows ownOnly reads holds

end Steps

namespace Query

/-- A document that cannot be read has no definitions, either. -/
theorem definitions_error [Gzip.Compressor] {database : Database} {path : String} {s : Service}
    {failure : Failure} (unread : (Service.readDocument database path s).1 = .error failure)
    (position : Position) : (definitions database path position s).1 = .error failure := by
  rw [definitions, bind_error (Prod.ext unread rfl)]

/-- Where a symbol in a stored dump is defined.  Unless its document cannot be read, the first
definition result along the chain that the document keeps decides; or else the first imported
moniker, whether or not its definition can be found; or else the first moniker that has rows. -/
theorem definitions_precedence [Gzip.Compressor] {octets : List UInt8} {elements : List Element}
    {dump : Dump} (parsed : Dump.parseElements none octets = .ok elements)
    (accepted : Dump.ofElements elements = .ok dump) {database : Database}
    (stored : database.loaded.source.IsOf octets) {s : Service} (readable : database.Readable s)
    {path : String} (known : ∀ document,
      s.documents.peek? (Service.documentKey database.loaded.path path) = some document →
        database.loaded.source.answer path = .ok document) (position : Position) :
    let blob := Service.readDocument database path s
    let outcome := (definitions database path position s).1
    blob.1 = database.loaded.source.answer path ∧
    (∀ id, dump.Locates path id →
      (∀ i, dump.Locates path i → Element.endsAsDocument elements i) →
      (∀ (i : VertexId) hover, dump.hovers[i]? = some hover → hover.contents.nesting ≤ 124) →
      ∃ document, blob.1 = .ok document) ∧
    (∀ failure, blob.1 = .error failure → outcome = .error failure) ∧
    ∀ document, blob.1 = .ok document →
      (document.findRange? position = none → outcome = .ok none) ∧
      ∀ entry, document.findRange? position = some entry →
        Precedence database.loaded.source document path entry.node
          (fun moniker => (remoteDefinition document moniker blob.2).1) outcome := by
  intro blob outcome
  have answer : blob.1 = _ := readable.answer known
  refine ⟨answer, fun id located ends shallow => ?_,
    fun failure unread => definitions_error unread position, fun document read => ?_⟩
  · obtain ⟨document, answered⟩ :=
      stored.answers parsed accepted located ends shallow
    exact ⟨document, answer.trans answered⟩
  · have cut := stored.isCut parsed accepted (answer.symm.trans read)
    have run : Steps.amid .alone (Steps.readDocument database path) s = (.ok document, blob.2) := by
      rw [Steps.amid_alone, Steps.inRow_readDocument]
      exact Prod.ext read rfl
    have same : outcome = (Steps.amid .alone (Steps.definitions database path position) s).1 := by
      rw [Steps.amid_alone, Steps.inRow_definitions]
    rw [same]
    refine ⟨fun nothing => ?_, fun entry found => ?_⟩
    · rw [Steps.amid_definitions run, nothing]
    · have decided := Steps.precedence run cut (fun u holds => holds.comes)
        (readable.readDocument path) found
      simpa only [Steps.amid_alone, Steps.inRow_remoteDefinition] using decided

/-! ### Two documents that share a symbol -/

open scoped Gzip

namespace PrecedenceSample

/-- The vertices with their members: in one document a range has an imported moniker, as has the
result set that it inherits from; in another one a range has an exported moniker and a definition
that lies in the first. -/
def vertices : List (Nat × String × List (String × String)) :=
  [(1, "document", [("uri", "a")]), (2, "range", []), (3, "resultSet", []),
   (4, "moniker", [("scheme", "tsc"), ("kind", "import"), ("identifier", "y")]),
   (5, "moniker", [("scheme", "npm"), ("kind", "import"), ("identifier", "l:y")]),
   (6, "document", [("uri", "b")]), (7, "range", []),
   (8, "moniker", [("scheme", "npm"), ("kind", "export"), ("identifier", "l:y")]),
   (9, "definitionResult", [])]

/-- The edges, from a vertex to another one. -/
def edges : List (Nat × String × Nat × Nat) :=
  [(10, "contains", 1, 2), (11, "contains", 6, 7), (12, "next", 2, 3), (13, "moniker", 2, 4),
   (14, "moniker", 3, 5), (15, "moniker", 7, 8), (16, "textDocument/definition", 7, 9),
   (17, "item", 9, 2)]

/-- A line of the dump. -/
def line (type label : String) (id : Nat) (members : List String) : List Char :=
  -- In short pieces, since evaluation takes a string apart in quadratic time.
  (["\x7b\"id\":", toString id, ",\"type\":\"", type, "\",\"label\":\"", label, "\""] ++ members ++
    ["\x7d\n"]).flatMap String.toList

/-- Where all ranges are. -/
def place : List String :=
  [",\"start\":", "\x7b\"line\":", "2,", "\"charac", "ter\":4\x7d",
   ",\"end\":", "\x7b\"line\":", "2,", "\"charac", "ter\":7\x7d"]

/-- The text of the dump. -/
def chars : List Char :=
  vertices.flatMap (fun (id, label, members) => line "vertex" label id
    ((if label = "range" then place else []) ++
      members.flatMap fun (name, word) => [",\"", name, "\":\"", word, "\""])) ++
  edges.flatMap fun (id, label, source, target) => line "edge" label id
    [",\"outV\":", toString source, ",\"inVs\":[", toString target, "]"]

/-- The object of a vertex. -/
def object (id : Nat) (label : String) (members : List (String × String)) : Json.Value :=
  let position (line character : Nat) : Json.Value :=
    .record [("line", .nat line), ("character", .nat character)]
  .record ([("id", .nat id), ("type", .string "vertex"), ("label", .string label)] ++
    (if label = "range" then [("start", position 2 4), ("end", position 2 7)] else []) ++
    members.map fun (name, word) => (name, .string word))

/-- What the text writes. -/
def elements : List Element :=
  vertices.map (fun (id, label, members) =>
    .vertex ⟨⟨toString id⟩, label, object id label members⟩) ++
  edges.map fun (_, label, source, target) =>
    .edge ⟨label, ⟨toString source⟩, none, [⟨toString target⟩], none, none⟩

theorem parseElements_chars :
    Dump.parseElements none (Utf8.encode (String.ofList chars)) = .ok elements := by
  have lines : (Dump.elementsOfLines chars).toOption = some elements := by
    simp only [Dump.elementsOfLines, Dump.elementOfLine, Dump.octetsOf, Utf8.encode_ofList]
    decide +kernel
  have noArray : Dump.isArray chars = false := by decide +kernel
  have plain : Gzip.isGzip (Utf8.encode (String.ofList chars)) = false := by
    rw [Utf8.encode_ofList]
    decide +kernel
  rw [Dump.parseElements_encode plain, Dump.elementsOfText, String.toList_ofList, noArray]
  cases read : Dump.elementsOfLines chars with
  | error failure =>
      rw [read] at lines
      cases lines
  | ok found =>
      rw [read] at lines
      cases lines
      rfl

/-- The dump as an open database. -/
def database (dump : Dump) : Database :=
  ⟨0, ⟨"r", "c"⟩, ⟨.json, "f", 0, .ofDump dump⟩⟩

/-- A service that stores nothing else. -/
def service : Service :=
  .start "dumps" ⟨true, false, false⟩ ⟨1000, 1000, 1000, 1000⟩ .empty (.available .empty) .builtin

theorem known_service {key : String} {answer : Except Failure Document} (document : Document)
    (cached : service.documents.peek? key = some document) : answer = .ok document := by
  cases cached

end PrecedenceSample

open PrecedenceSample in
theorem definitions_precedence_sample :
    ∃ dump, Dump.ofElements elements = .ok dump ∧
      (definitions (database dump) "a" ⟨2, 5⟩ service).1 = .ok none ∧
      (definitions (database dump) "b" ⟨2, 5⟩ service).1 =
        .ok (some (.many [⟨"a", ⟨⟨2, 4⟩, ⟨2, 7⟩⟩⟩])) := by
  have held : (Dump.ofElements elements).toOption.map (fun dump =>
      let along (path : String) :=
        (dump.documentId? ((ProjectRoot.ofOption dump.projectRoot).address path)).map fun id =>
          (id, ((dump.documentOf id).findRange? ⟨2, 5⟩).map fun entry =>
            ((dump.documentOf id).definition? entry.node,
              (dump.documentOf id).monikersAlong entry.node))
      decide (dump.hovers.isEmpty ∧
        along "a" = some (⟨"1"⟩,
          some (none, [⟨"tsc", "y", .imported, none⟩, ⟨"npm", "l:y", .imported, none⟩])) ∧
        along "b" = some (⟨"6"⟩, some (none, [⟨"npm", "l:y", .exported, none⟩])) ∧
        (Source.ofDump dump).locations .definitions "npm" "l:y" =
          [⟨"a", ⟨⟨2, 4⟩, ⟨2, 7⟩⟩⟩])) = some true := by decide +kernel
  obtain ⟨dump, accepted, held⟩ := Success.map_toOption_eq_some.mp held
  obtain ⟨noHovers, first, second, rows⟩ := of_decide_eq_true held
  have nothing (id : VertexId) (entry) (listed : entry ∈ (dump.documentOf id).hovers.toList) :
      False := by
    have shown := Dump.hovers_documentOf listed
    rw [Std.ExtTreeMap.isEmpty_iff.mp noHovers] at shown
    cases shown
  have answer {path : String} {id : VertexId}
      (known : dump.documentId? ((ProjectRoot.ofOption dump.projectRoot).address path) = some id) :
      (database dump).loaded.source.answer path = .ok (dump.documentOf id) := by
    change (Source.ofDump dump).answer path = _
    rw [Source.answer_ofDump known fun entry listed => (nothing id entry listed).elim,
      if_pos fun entry listed => (nothing id entry listed).elim,
      Document.reread_of_survives fun entry listed => (nothing id entry listed).elim]
  have stored : (database dump).loaded.source.IsOf (Utf8.encode (String.ofList chars)) :=
    ⟨.json, "f", _, rfl, Encoding.openContent_octets
      (by rw [Dump.parse, parseElements_chars, Success.ok_bind, accepted]) "f"⟩
  refine ⟨dump, accepted, ?_, ?_⟩
  · obtain ⟨id, known, first⟩ := Option.map_eq_some_iff.mp first
    obtain ⟨entry, found, first⟩ := Option.map_eq_some_iff.mp (Prod.mk.inj first).2
    obtain ⟨noResult, imports⟩ := Prod.mk.inj first
    obtain ⟨blob, _, _, decided⟩ := definitions_precedence parseElements_chars accepted
      stored (s := service) rfl known_service ⟨2, 5⟩
    have chosen := (decided _ (blob.trans (answer known))).2 entry found
    obtain ⟨far, lookedUp, outcome⟩ := chosen.imported noResult ⟨"npm", "l:y", .imported, none⟩
      (by rw [imports]; decide +kernel)
    obtain rfl : none = far := Except.ok.inj lookedUp
    exact outcome
  · obtain ⟨id, known, second⟩ := Option.map_eq_some_iff.mp second
    obtain ⟨entry, found, second⟩ := Option.map_eq_some_iff.mp (Prod.mk.inj second).2
    obtain ⟨noResult, exports⟩ := Prod.mk.inj second
    obtain ⟨blob, _, _, decided⟩ := definitions_precedence parseElements_chars accepted
      stored (s := service) rfl known_service ⟨2, 5⟩
    have chosen := (decided _ (blob.trans (answer known))).2 entry found
    have outcome := chosen.rows noResult (by rw [exports]; rfl)
    have source : (database dump).loaded.source = Source.ofDump dump := rfl
    rw [exports, source] at outcome
    simpa [rows] using outcome

/-- A dump can be accepted although no definitions can be asked for in one of its documents, not
even at a symbol without any. -/
theorem definitions_may_fail :
    ¬ ∀ (octets : List UInt8) (dump : Dump) (database : Database) (s : Service) (path : String)
      (id : VertexId) (position : Position),
      Dump.parse none octets = .ok dump → database.loaded.source.IsOf octets →
      database.Readable s → (∀ key, s.documents.peek? key = none) → dump.Locates path id →
      ∃ found, (definitions database path position s).1 = .ok found := by
  intro claim
  obtain ⟨dump, accepted, root, documents, hovers⟩ := NestedHover.ofElements_elements
  have parsed : Dump.parse none (NestedHover.octets 125) = .ok dump := by
    rw [Dump.parse, NestedHover.parseElements_octets, Success.ok_bind, accepted]
  have own : (ProjectRoot.ofOption dump.projectRoot).address "p" = "p" := by
    rw [root]
    decide +kernel
  have located : dump.Locates "p" ⟨"1"⟩ := by
    rw [Dump.Locates, own, ← Std.ExtTreeMap.mem_toList_iff_getElem?_eq_some, documents]
    exact List.mem_cons_self
  have first : dump.documentId? ((ProjectRoot.ofOption dump.projectRoot).address "p") =
      some ⟨"1"⟩ := by
    rw [own, Dump.documentId?, documents]
    rfl
  have deep : ¬ ∀ entry ∈ (dump.documentOf ⟨"1"⟩).hovers.toList,
      entry.2.contents.nesting ≤ 124 := by
    rw [hovers, List.forall_mem_singleton, NestedHover.nesting_lists]
    decide
  have refused : (Source.ofDump dump).answer "p" = .error (.malformedDocument .recursionLimit) := by
    rw [Source.answer_ofDump first, if_neg deep]
    rw [hovers, List.forall_mem_singleton]
    exact NestedHover.legible_lists 124
  have readable : (PrecedenceSample.database dump).Readable PrecedenceSample.service := rfl
  obtain ⟨found, outcome⟩ := claim _ dump (PrecedenceSample.database dump)
    PrecedenceSample.service "p" ⟨"1"⟩ ⟨0, 3⟩ parsed
    ⟨.json, "f", _, rfl, Encoding.openContent_octets parsed "f"⟩ readable (fun _ => rfl) located
  have unread := (readable.answer PrecedenceSample.known_service).trans refused
  cases outcome.symm.trans (definitions_error unread ⟨0, 3⟩)

end Query

end CodeNav
