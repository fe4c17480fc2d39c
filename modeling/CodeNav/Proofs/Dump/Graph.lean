/-
Module: CodeNav.Proofs.Dump.Graph
Purpose: What the vertices and edges of a dump say, read off their lists.
Main exports:
  Element.hasVertex, Element.named?, Element.targetsOf, Element.linksOf, Element.walk,
  Dump.nodeOf_ofElements, Dump.hovers_ofElements, Dump.moniker?_ofElements
-/
import CodeNav.Proofs.Dump.Facts
import CodeNav.Proofs.Walk
import Mathlib.Data.List.Induction

namespace CodeNav

/-! ### Edges -/

namespace Edge

/-- The edges with a known label, in their order. -/
def labelled (label : EdgeLabel) (es : List Edge) : List Edge :=
  es.filter fun e => EdgeLabel.ofName? e.label = some label

/-- The vertex that edges with a label name: the last of them decides, by its first target. -/
def named? (label : EdgeLabel) (es : List Edge) : Option VertexId :=
  (labelled label es).getLast?.bind fun e => e.targets.head?

/-- The vertices that edges with a label lead to. -/
def targetsOf (label : EdgeLabel) (es : List Edge) : List VertexId :=
  (labelled label es).flatMap targets

/-- The package that edges name: the last one that has a target decides. -/
def package? (es : List Edge) : Option VertexId :=
  ((labelled .package es).filterMap fun e => e.targets.head?).getLast?

/-- The items listed by edges whose property meets a condition. -/
def itemsWith (condition : Option String → Bool) (es : List Edge) : List VertexId :=
  ((labelled .item es).filter (condition ·.property)).flatMap targets

/-- The properties of items that are listed apart. -/
def itemProperties : List String :=
  ["definitions", "references", "referenceResults"]

/-- Whether items are listed without a property of their own. -/
def isPlain (property : Option String) : Bool :=
  property.all (· ∉ itemProperties)

/-- What edges out of one vertex say about the node that it is. -/
def links (es : List Edge) : ChainNode where
  next := named? .next es
  definitionResult := named? .definition es
  referenceResult := named? .references es
  hoverResult := named? .hover es
  monikers := targetsOf .moniker es

end Edge

namespace EdgeFacts

open Edge

/-- What edges out of one vertex amount to. -/
def ofEdges (es : List Edge) : EdgeFacts where
  contents := targetsOf .contains es
  node := links es
  monikerPackage := package? es
  items := ⟨itemsWith isPlain es, itemsWith (· = some "definitions") es,
    itemsWith (· = some "references") es⟩

theorem labelled_snoc (label : EdgeLabel) (es : List Edge) (e : Edge) :
    labelled label (es ++ [e]) =
      labelled label es ++ if EdgeLabel.ofName? e.label = some label then [e] else [] := by
  by_cases known : EdgeLabel.ofName? e.label = some label <;> simp [labelled, known]

theorem itemsWith_snoc (condition : Option String → Bool) (es : List Edge) (e : Edge) :
    itemsWith condition (es ++ [e]) =
      itemsWith condition es ++
        if EdgeLabel.ofName? e.label = some .item ∧ condition e.property then e.targets else [] := by
  by_cases known : EdgeLabel.ofName? e.label = some .item <;>
    by_cases met : condition e.property <;> simp [itemsWith, labelled_snoc, known, met]

/-- Items are listed behind those before them, each under its property. -/
theorem items_snoc (items : Items) (property : Option String) (targets : List VertexId) :
    items.add property targets =
      ⟨items.values ++ if isPlain property then targets else [],
        items.definitions ++ if property = some "definitions" then targets else [],
        items.references ++ if property = some "references" then targets else []⟩ := by
  unfold Items.add
  split
  · simp [isPlain, itemProperties]
  · simp [isPlain, itemProperties]
  · simp [isPlain, itemProperties]
  · rename_i noDefinitions noReferences noResults
    have plain : isPlain property := by
      cases property with
      | none => rfl
      | some name => simp_all [isPlain, itemProperties]
    simp_all

theorem ofEdges_snoc (es : List Edge) (e : Edge) :
    ofEdges (es ++ [e]) = (ofEdges es).add e := by
  unfold add
  cases known : EdgeLabel.ofName? e.label with
  | none =>
      simp [ofEdges, links, named?, targetsOf, package?, itemsWith_snoc, labelled_snoc, known]
  | some label =>
      cases label with
      | item =>
          simp [ofEdges, links, named?, targetsOf, package?, itemsWith_snoc, labelled_snoc, known,
            addTargets, items_snoc]
      | package =>
          cases first : e.targets.head? <;>
            simp [ofEdges, links, named?, targetsOf, package?, itemsWith_snoc, labelled_snoc, known,
              addTargets, first]
      | _ =>
          simp [ofEdges, links, named?, targetsOf, package?, itemsWith_snoc, labelled_snoc, known,
            addTargets]

theorem foldl_add_eq_ofEdges (es : List Edge) : es.foldl add .none = ofEdges es := by
  induction es using List.reverseRecOn with
  | nil => rfl
  | append_singleton es e ih => simp [ih, ofEdges_snoc]

end EdgeFacts

/-! ### Vertices -/

namespace VertexContent

/-- The hover of a hover result. -/
def hover? : VertexContent → Option Hover
  | .hover shown => some shown
  | _ => none

/-- The moniker of a moniker vertex. -/
def moniker? : VertexContent → Option Moniker
  | .moniker plain => some plain
  | _ => none

/-- The address of a document vertex. -/
def address? : VertexContent → Option String
  | .address uri => some uri
  | _ => none

/-- The range of a range vertex. -/
def range? : VertexContent → Option Range
  | .range place => some place
  | _ => none

/-- The package of a package vertex. -/
def package? : VertexContent → Option Package
  | .package published => some published
  | _ => none

/-- The label of the vertices that hold some content. -/
def label? : VertexContent → Option VertexLabel
  | .projectRoot _ => some .metaData
  | .address _ => some .document
  | .range _ => some .range
  | .resultSet => some .resultSet
  | .definitionResult => some .definitionResult
  | .referenceResult => some .referenceResult
  | .hover _ => some .hoverResult
  | .moniker _ => some .moniker
  | .package _ => some .package
  | .nothing => none

end VertexContent

namespace VertexFacts

/-- The vertices that can be read are the ones that count. -/
theorem foldl_add_eq_foldl_put (vs : List Vertex) (facts : VertexFacts) :
    vs.foldl add facts = (vs.filterMap fun v => v.content.toOption).foldl put facts := by
  induction vs generalizing facts with
  | nil => rfl
  | cons v rest ih =>
      cases read : v.content with
      | error failure => simp [add, read, ih, Except.toOption]
      | ok content => simp [add, read, ih, Except.toOption]

/-- Of the vertices with one identifier, the last of a kind counts. -/
theorem last_foldl_put {α : Type} {field : VertexFacts → Option α}
    {pick : VertexContent → Option α} (empty : field .none = Option.none)
    (puts : ∀ facts content, field (put facts content) = (pick content).or (field facts))
    (contents : List VertexContent) :
    field (contents.foldl put .none) = (contents.filterMap pick).getLast? := by
  induction contents using List.reverseRecOn with
  | nil => exact empty
  | append_singleton contents content ih =>
      rw [List.foldl_append, List.foldl_cons, List.foldl_nil, puts, ih, List.filterMap_append]
      cases picked : pick content <;> simp [picked]

/-- A vertex of a kind is there if one of the vertices with its identifier is of that kind. -/
theorem any_foldl_put {field : VertexFacts → Bool} {label : VertexLabel}
    (empty : field .none = false)
    (puts : ∀ facts content,
      field (put facts content) = (decide (content.label? = some label) || field facts))
    (contents : List VertexContent) :
    field (contents.foldl put .none) = contents.any (·.label? = some label) := by
  induction contents using List.reverseRecOn with
  | nil => exact empty
  | append_singleton contents content ih =>
      rw [List.foldl_append, List.foldl_cons, List.foldl_nil, puts, ih, List.any_append,
        Bool.or_comm]
      simp

end VertexFacts

namespace Element

/-- Whether there is a vertex with an identifier and a known label. -/
def hasVertex (elements : List Element) (label : VertexLabel) (id : VertexId) : Bool :=
  (vertices elements).any fun v => v.id = id && VertexLabel.ofName? v.label = some label

/-- What the vertices with an identifier hold, in their order. -/
def contentsOf (elements : List Element) (id : VertexId) : List VertexContent :=
  ((vertices elements).filter (·.id = id)).filterMap fun v => v.content.toOption

/-- The edges out of a vertex, in their order. -/
def edgesFrom (elements : List Element) (id : VertexId) : List Edge :=
  (edges elements).filter (·.source = id)

/-- What the edges out of a vertex say about the node that it is. -/
def linksOf (elements : List Element) (id : VertexId) : ChainNode :=
  Edge.links (edgesFrom elements id)

/-- The hover of the hover result with an identifier. -/
def hover? (elements : List Element) (id : VertexId) : Option Hover :=
  ((contentsOf elements id).filterMap VertexContent.hover?).getLast?

/-- The moniker with an identifier, and its package. -/
def moniker? (elements : List Element) (id : VertexId) : Option Moniker :=
  ((contentsOf elements id).filterMap VertexContent.moniker?).getLast?.map fun moniker =>
    { moniker with package := Edge.package? (edgesFrom elements id) }

/-- The address of the document with an identifier. -/
def address? (elements : List Element) (id : VertexId) : Option String :=
  ((contentsOf elements id).filterMap VertexContent.address?).getLast?

/-- The range with an identifier. -/
def range? (elements : List Element) (id : VertexId) : Option Range :=
  ((contentsOf elements id).filterMap VertexContent.range?).getLast?

/-- The package with an identifier. -/
def package? (elements : List Element) (id : VertexId) : Option Package :=
  ((contentsOf elements id).filterMap VertexContent.package?).getLast?

/-- The ranges that a document contains. -/
def rangesIn (elements : List Element) (document : VertexId) : List VertexId :=
  (Edge.targetsOf .contains (edgesFrom elements document)).filter (hasVertex elements .range)

/-- The result set that a node inherits from. -/
def successor? (elements : List Element) (id : VertexId) : Option VertexId :=
  (linksOf elements id).next.filter (hasVertex elements .resultSet)

/-- The node itself and the result sets that it inherits from, each once. -/
def walk (elements : List Element) (id : VertexId) : List VertexId :=
  Walk.walkFrom (successor? elements) (vertices elements).length [] id

/-- A walk follows links to result sets until there is none, or one met before. -/
theorem isWalk_walk (elements : List Element) (id : VertexId) :
    Walk.IsWalk (successor? elements) id (walk elements id) := by
  have linked (a b : VertexId) (links : successor? elements a = some b) :
      b ∈ (vertices elements).map (·.id) := by
    obtain ⟨_, isSet⟩ := Option.filter_eq_some_iff.mp links
    obtain ⟨v, member, same⟩ := List.any_eq_true.mp isSet
    simp only [Bool.and_eq_true, decide_eq_true_eq] at same
    exact List.mem_map.mpr ⟨v, member, same.1⟩
  simpa [walk] using Walk.isWalk_walkFrom linked id

end Element

/-! ### Graphs -/

/-- A vertex that can be read holds what its label says. -/
theorem Vertex.label?_content {v : Vertex} {held : VertexContent} (read : v.content = .ok held) :
    held.label? = VertexLabel.ofName? v.label := by
  unfold Vertex.content at read
  cases known : VertexLabel.ofName? v.label with
  | none =>
      simp only [known, Except.ok.injEq] at read
      subst read
      rfl
  | some label =>
      simp only [known] at read
      cases label <;>
        simp only [labelledContent, Except.map] at read <;>
        (try split at read) <;>
        simp only [Except.ok.injEq, reduceCtorEq] at read <;>
        subst read <;>
        rfl

namespace Dump

open Element

variable {elements : List Element} {dump : Dump}

section

variable (accepted : ofElements elements = .ok dump)
include accepted

theorem edgeFacts_eq_ofEdges (id : VertexId) :
    dump.edgeFacts id = .ofEdges (edgesFrom elements id) := by
  rw [edgeFacts_ofElements accepted, EdgeFacts.foldl_add_eq_ofEdges]
  rfl

theorem vertexFacts_eq_foldl_put (id : VertexId) :
    dump.vertexFacts id = (contentsOf elements id).foldl VertexFacts.put .none := by
  rw [vertexFacts_ofElements accepted, VertexFacts.foldl_add_eq_foldl_put]
  rfl

theorem nodeOf_ofElements (id : VertexId) : dump.nodeOf id = linksOf elements id :=
  congrArg EdgeFacts.node (edgeFacts_eq_ofEdges accepted id)

theorem items_ofElements (id : VertexId) :
    dump.items.getD id .empty = (EdgeFacts.ofEdges (edgesFrom elements id)).items :=
  congrArg EdgeFacts.items (edgeFacts_eq_ofEdges accepted id)

theorem contents_ofElements (id : VertexId) :
    dump.contents.getD id [] = Edge.targetsOf .contains (edgesFrom elements id) :=
  congrArg EdgeFacts.contents (edgeFacts_eq_ofEdges accepted id)

/-- What a graph holds of a kind under an identifier comes from the last vertex of that kind. -/
theorem last_ofElements {α : Type} (field : VertexFacts → Option α)
    (pick : VertexContent → Option α) (empty : field .none = none)
    (puts : ∀ facts content, field (.put facts content) = (pick content).or (field facts))
    (id : VertexId) :
    field (dump.vertexFacts id) = ((contentsOf elements id).filterMap pick).getLast? := by
  rw [vertexFacts_eq_foldl_put accepted, VertexFacts.last_foldl_put empty puts]

theorem hovers_ofElements (id : VertexId) : dump.hovers[id]? = Element.hover? elements id :=
  last_ofElements accepted VertexFacts.hover VertexContent.hover? rfl
    (fun _ content => by cases content <;> rfl) id

theorem moniker?_ofElements (id : VertexId) :
    dump.moniker? id = Element.moniker? elements id := by
  have plain : dump.monikers[id]? =
      ((contentsOf elements id).filterMap VertexContent.moniker?).getLast? :=
    last_ofElements accepted VertexFacts.moniker VertexContent.moniker? rfl
      (fun _ content => by cases content <;> rfl) id
  have package : dump.monikerPackages[id]? = Edge.package? (edgesFrom elements id) :=
    congrArg EdgeFacts.monikerPackage (edgeFacts_eq_ofEdges accepted id)
  unfold moniker? Element.moniker?
  rw [plain, package]

theorem documents_ofElements (id : VertexId) :
    dump.documents[id]? = Element.address? elements id :=
  last_ofElements accepted VertexFacts.address VertexContent.address? rfl
    (fun _ content => by cases content <;> rfl) id

theorem ranges_ofElements (id : VertexId) : dump.ranges[id]? = Element.range? elements id :=
  last_ofElements accepted VertexFacts.range VertexContent.range? rfl
    (fun _ content => by cases content <;> rfl) id

theorem packages_ofElements (id : VertexId) :
    dump.packages[id]? = Element.package? elements id :=
  last_ofElements accepted VertexFacts.package VertexContent.package? rfl
    (fun _ content => by cases content <;> rfl) id

/-- A kind of vertex is there if there is a vertex with its label. -/
theorem any_label?_contentsOf (label : VertexLabel) (id : VertexId) :
    (contentsOf elements id).any (·.label? = some label) = hasVertex elements label id := by
  rw [Bool.eq_iff_iff]
  simp only [contentsOf, hasVertex, List.any_eq_true, List.mem_filterMap, List.mem_filter,
    Bool.and_eq_true, decide_eq_true_eq]
  constructor
  · rintro ⟨held, ⟨v, ⟨member, same⟩, read⟩, known⟩
    have read : v.content = .ok held := by
      cases found : v.content with
      | error failure => simp [found, Except.toOption] at read
      | ok other => simpa [found, Except.toOption] using read
    exact ⟨v, member, same, (Vertex.label?_content read).symm.trans known⟩
  · rintro ⟨v, member, same, known⟩
    obtain ⟨held, read⟩ := (ofElements_isOk_iff elements).mp ⟨dump, accepted⟩ v member
    exact ⟨held, ⟨v, ⟨member, same⟩, by simp [read, Except.toOption]⟩,
      (Vertex.label?_content read).trans known⟩

/-- A kind of vertex is listed under an identifier if there is a vertex with its label. -/
theorem any_ofElements (field : VertexFacts → Bool) (label : VertexLabel)
    (empty : field .none = false)
    (puts : ∀ facts content,
      field (.put facts content) = (decide (content.label? = some label) || field facts))
    (id : VertexId) : field (dump.vertexFacts id) = hasVertex elements label id := by
  rw [← any_label?_contentsOf accepted, vertexFacts_eq_foldl_put accepted,
    VertexFacts.any_foldl_put empty puts]

theorem resultSets_ofElements (id : VertexId) :
    dump.resultSets.contains id = hasVertex elements .resultSet id :=
  any_ofElements accepted VertexFacts.isResultSet .resultSet rfl
    (fun _ content => by cases content <;> rfl) id

theorem definitionResults_ofElements (id : VertexId) :
    dump.definitionResults.contains id = hasVertex elements .definitionResult id :=
  any_ofElements accepted VertexFacts.isDefinitionResult .definitionResult rfl
    (fun _ content => by cases content <;> rfl) id

theorem referenceResults_ofElements (id : VertexId) :
    dump.referenceResults.contains id = hasVertex elements .referenceResult id :=
  any_ofElements accepted VertexFacts.isReferenceResult .referenceResult rfl
    (fun _ content => by cases content <;> rfl) id

/-- The ranges and documents of a graph are its vertices with those labels. -/
theorem ranges_contains (id : VertexId) :
    dump.ranges[id]?.isSome = hasVertex elements .range id :=
  any_ofElements accepted (·.range.isSome) .range rfl (fun _ content => by cases content <;> rfl) id

theorem documents_contains (id : VertexId) :
    dump.documents.contains id = hasVertex elements .document id := by
  rw [Std.ExtTreeMap.contains_eq_isSome_getElem?]
  exact any_ofElements accepted (·.address.isSome) .document rfl
    (fun _ content => by cases content <;> rfl) id

end

end Dump

end CodeNav
