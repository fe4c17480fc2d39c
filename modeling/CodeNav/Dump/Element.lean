/-
Module: CodeNav.Dump.Element
Purpose: The vertices and edges of which a dump consists.
Main exports:
  Vertex, Edge, Edge.targets, Element, Element.ofValue?
-/
import CodeNav.Failure
import CodeNav.VertexId

namespace CodeNav

open Json (Decoder Shape Value)

/-- A vertex with the object that wrote it, so that it can be stored as it came. -/
structure Vertex where
  id : VertexId
  label : String
  value : Value
deriving DecidableEq, Inhabited

/-- An edge from one vertex to one or several others. -/
structure Edge where
  label : String
  source : VertexId
  target : Option VertexId
  furtherTargets : List VertexId
  document : Option VertexId
  property : Option String
deriving DecidableEq, Inhabited

namespace Edge

/-- The vertices that an edge leads to. -/
def targets (edge : Edge) : List VertexId :=
  edge.target.toList ++ edge.furtherTargets

/-- The members of an edge. -/
def shape : Shape Edge where
  name := "struct Edge"
  start := ⟨"", default, none, [], none, none⟩
  fields :=
    [.needed "label" Decoder.string fun e label => { e with label },
     .needed "outV" VertexId.decoder fun e source => { e with source },
     .defaulted "inV" (Decoder.option VertexId.decoder) fun e target => { e with target },
     .defaulted "inVs" (Decoder.list VertexId.decoder)
       fun e furtherTargets => { e with furtherTargets },
     .defaulted "document" (Decoder.option VertexId.decoder)
       fun e document => { e with document },
     .defaulted "property" (Decoder.option Decoder.string)
       fun e property => { e with property }]

end Edge

/-- An element of a dump. -/
inductive Element where
  | vertex (v : Vertex)
  | edge (e : Edge)
deriving DecidableEq, Inhabited

namespace Element

/-- The text of a member, if it is one. -/
def text? (value : Value) (name : String) : Option String :=
  match value.field? name with
  | some (.string s) => some s
  | _ => none

/-- Reads an element out of a value by a shape; only the first cause is kept. -/
def decode {α : Type} (decoder : Decoder α) (value : Value) : Except Failure α :=
  (Decoder.ofValue decoder value).mapError fun m => .malformedElement m.cause

/-- The vertex that an object writes. -/
def vertexOf (value : Value) : Except Failure Vertex := do
  let some id := value.field? "id" | throw .vertexWithoutId
  let id ← decode VertexId.decoder id
  return ⟨id, (text? value "label").getD "", value⟩

/-- The element that a value writes; a value that is neither vertex nor edge is passed over. -/
def ofValue? (value : Value) : Except Failure (Option Element) := do
  match text? value "type" with
  | some "vertex" =>
    let v ← vertexOf value
    return some (.vertex v)
  | some "edge" =>
    let e ← decode (Decoder.shape Edge.shape) value
    return some (.edge e)
  | _ => return none

end Element

end CodeNav
