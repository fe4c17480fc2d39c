/-
Module: CodeNav.Document.Json
Purpose: Documents as JSON values, read and written, and as octets that are stored.
Main exports:
  ChainNode.decoder, RangeEntry.decoder, Document.decoder, Document.toValue, Document.encode,
  Document.decode
-/
import CodeNav.Document.Basic
import CodeNav.Dump.Text

namespace CodeNav

open Json (Cause Decoder Mismatch Node Reading Shape Value)

/-- A member under a name, unless it is absent. -/
def member? (name : String) (id : Option VertexId) : List (String × Value) :=
  (id.map fun id => (name, id.toValue)).toList

/-- Identifiers as an array. -/
def idsValue (ids : List VertexId) : Value :=
  .array (ids.map VertexId.toValue)

/-- Reads a list of identifiers. -/
def idsDecoder : Decoder (List VertexId) :=
  Decoder.list VertexId.decoder

namespace ChainNode

/-- The members of a chain node, all of them optional. -/
def shape : Shape ChainNode where
  name := "struct ResultSetData"
  start := empty
  fields :=
    [.defaulted "next" (Decoder.option VertexId.decoder) fun n next => { n with next },
     .defaulted "definitionResult" (Decoder.option VertexId.decoder)
       fun n definitionResult => { n with definitionResult },
     .defaulted "referenceResult" (Decoder.option VertexId.decoder)
       fun n referenceResult => { n with referenceResult },
     .defaulted "hoverResult" (Decoder.option VertexId.decoder)
       fun n hoverResult => { n with hoverResult },
     .defaulted "monikers" idsDecoder fun n monikers => { n with monikers }]

/-- Reads a chain node. -/
def decoder : Decoder ChainNode :=
  Decoder.shape shape

/-- The members of a chain node; absent ones are left out. -/
def members (node : ChainNode) : List (String × Value) :=
  member? "next" node.next ++ member? "definitionResult" node.definitionResult
    ++ member? "referenceResult" node.referenceResult ++ member? "hoverResult" node.hoverResult
    ++ (if node.monikers.isEmpty then [] else [("monikers", idsValue node.monikers)])

/-- The chain node as an object. -/
def toValue (node : ChainNode) : Value :=
  .record node.members

end ChainNode

namespace RangeEntry

/-- What has been read of a range entry: its ends, and the members left for its chain node. -/
structure Draft where
  start : Option Position
  stop : Option Position
  others : List (String × Node)

/-- Takes over the ends and keeps all other members, which have to be sound. -/
def takeEnds (r : Reading) (draft : Draft) :
    List (Except Cause String × Node) → Except Mismatch Draft
  | [] => .ok draft
  | (name, node) :: rest => do
    let name ← Decoder.key name
    if name == "start" then
      if draft.start.isSome then throw (.of (.duplicateField name))
      let start ← Position.decoder r node
      takeEnds r { draft with start := some start } rest
    else if name == "end" then
      if draft.stop.isSome then throw (.of (.duplicateField name))
      let stop ← Position.decoder r node
      takeEnds r { draft with stop := some stop } rest
    else
      Decoder.sound r node
      takeEnds r { draft with others := (name, node) :: draft.others } rest

/-- An end that has to be there. -/
def needed (name : String) (position : Option Position) : Except Mismatch Position :=
  match position with
  | some position => .ok position
  | none => .error (.of (.missingField name))

/-- Reads a range entry: an object with the ends of the range beside the members of its chain
node. -/
def decoder : Decoder RangeEntry
  | r, .record members stop => do
    let inner ← r.enter
    let draft ← takeEnds inner ⟨none, none, []⟩ members
    Decoder.lastKey stop
    let start ← needed "start" draft.start
    let stop ← needed "end" draft.stop
    let others := draft.others.reverse.map fun (name, node) => (Except.ok name, node)
    let (_, node) ← ChainNode.shape.takeMembers .value [] .empty others
    return ⟨⟨start, stop⟩, node⟩
  | _, node => Decoder.refuse "struct RangeData" node

/-- The range entry as an object. -/
def toValue (entry : RangeEntry) : Value :=
  .record ([("start", entry.range.start.toValue), ("end", entry.range.stop.toValue)]
    ++ entry.node.members)

end RangeEntry

namespace DefinitionResult

/-- The members of a definition result. -/
def shape : Shape DefinitionResult where
  name := "struct DefinitionResultData"
  start := ⟨[]⟩
  fields := [.needed "values" idsDecoder fun _ values => ⟨values⟩]

/-- Reads a definition result. -/
def decoder : Decoder DefinitionResult :=
  Decoder.shape shape

/-- The definition result as an object. -/
def toValue (result : DefinitionResult) : Value :=
  .record [("values", idsValue result.values)]

end DefinitionResult

namespace ReferenceResult

/-- The members of a reference result. -/
def shape : Shape ReferenceResult where
  name := "struct ReferenceResultData"
  start := ⟨[], []⟩
  fields :=
    [.defaulted "definitions" idsDecoder fun r definitions => { r with definitions },
     .defaulted "references" idsDecoder fun r references => { r with references }]

/-- Reads a reference result. -/
def decoder : Decoder ReferenceResult :=
  Decoder.shape shape

/-- The reference result as an object. -/
def toValue (result : ReferenceResult) : Value :=
  .record [("definitions", idsValue result.definitions),
    ("references", idsValue result.references)]

end ReferenceResult

namespace Document

/-- The members of a document; only the ranges have to be there. -/
def shape : Shape Document where
  name := "struct DocumentBlob"
  start := .empty
  fields :=
    [.needed "ranges" (Table.decoder Decoder.index) fun d ranges => { d with ranges },
     .needed "orderedRanges" (Decoder.list RangeEntry.decoder)
       fun d orderedRanges => { d with orderedRanges },
     .defaulted "resultSets" (Table.decoder ChainNode.decoder)
       fun d resultSets => { d with resultSets },
     .defaulted "monikers" (Table.decoder Moniker.decoder) fun d monikers => { d with monikers },
     .defaulted "packageInformation" (Table.decoder Package.decoder)
       fun d packages => { d with packages },
     .defaulted "definitionResults" (Table.decoder DefinitionResult.decoder)
       fun d definitionResults => { d with definitionResults },
     .defaulted "referenceResults" (Table.decoder ReferenceResult.decoder)
       fun d referenceResults => { d with referenceResults },
     .defaulted "hovers" (Table.decoder Hover.decoder) fun d hovers => { d with hovers }]

/-- Reads a document. -/
def decoder : Decoder Document :=
  Decoder.shape shape

/-- The document as an object, with all its members. -/
def toValue (document : Document) : Value :=
  .record
    [("ranges", Table.toValue (fun index => .nat index.toNat) document.ranges),
     ("orderedRanges", .array (document.orderedRanges.map RangeEntry.toValue)),
     ("resultSets", Table.toValue ChainNode.toValue document.resultSets),
     ("monikers", Table.toValue Moniker.toValue document.monikers),
     ("packageInformation", Table.toValue Package.toValue document.packages),
     ("definitionResults", Table.toValue DefinitionResult.toValue document.definitionResults),
     ("referenceResults", Table.toValue ReferenceResult.toValue document.referenceResults),
     ("hovers", Table.toValue Hover.toValue document.hovers)]

/-! ### Stored documents -/

/-- The octets that store a document: compressed JSON. -/
def encode [Gzip.Compressor] (document : Document) : List UInt8 :=
  Gzip.Compressor.compress (Utf8.encode document.toValue.render)

/-- The document of some JSON octets. -/
def ofJson (octets : List UInt8) : Except Failure Document :=
  (Decoder.parse decoder octets).mapError fun m => .malformedDocument m.cause

/-- The document that octets store; JSON that is not compressed is accepted, too. -/
def decode (octets : List UInt8) : Except Failure Document := do
  let json ← Dump.inflate none octets
  ofJson json

end Document

end CodeNav
