/-
Module: CodeNav.Query.Answer
Purpose: Queries at a position of a document, answered from its own dump and from others.
Main exports:
  Identifier.blankSecond, Definitions, Query.definitions, Query.references, Query.hover,
  Query.answer
-/
import CodeNav.Document.Chain
import CodeNav.Document.Search
import CodeNav.Service.Registry

namespace CodeNav

open Json (Value)

namespace Identifier

/-! ### Identifiers in other dumps -/

/-- The parts of an identifier between its colons. -/
def segments : List Char → List (List Char)
  | [] => [[]]
  | c :: rest =>
    if c == ':' then [] :: segments rest
    else
      match segments rest with
      | [] => [[c]]
      | part :: parts => (c :: part) :: parts

/-- Parts joined by colons. -/
def join : List (List Char) → List Char
  | [] => []
  | [part] => part
  | part :: parts => part ++ ':' :: join parts

/-- Parts with the second one emptied, or with an empty one added if there is only one. -/
def clearSecond : List (List Char) → List (List Char)
  | first :: _ :: rest => first :: [] :: rest
  | parts => parts ++ [[]]

/-- An identifier with its second part emptied. Producers disagree on that part, so it is left
out when an identifier is looked up in another dump: `b:lib/util:bar` is sought as `b::bar`. -/
def blankSecond (identifier : String) : String :=
  String.ofList (join (clearSecond (segments identifier.toList)))

end Identifier

/-- Where a symbol is defined: the one place found in another repository, or places of its own. -/
inductive Definitions where
  | one (location : Location)
  | many (locations : List Location)
deriving Repr, DecidableEq

namespace Definitions

/-- The places as a list. -/
def toList : Definitions → List Location
  | one location => [location]
  | many locations => locations

/-- The places as a value: a single one stands for itself. -/
def toValue : Definitions → Value
  | one location => location.toValue
  | many locations => .array (locations.map Location.toValue)

end Definitions

namespace Query

open Service (monikerLocations openDatabase readDocument)

variable [Gzip.Compressor]

/-! ### Other repositories

Whatever goes wrong in another repository counts as nothing found there. -/

/-- The package of a moniker as it is known across repositories. -/
def packageKey? (document : Document) (moniker : Moniker) : Option PackageKey :=
  (document.packageOf? moniker).map fun p => ⟨moniker.scheme, p.name, p.version⟩

/-- What a computation finds, or nothing if it fails. -/
def orNothing {α : Type} (computation : ServiceM (List α)) : ServiceM (List α) := do
  match ← ServiceM.attempt computation with
  | .ok found => return found
  | .error _ => return []

/-- The locations recorded for a moniker in the dump of another target, addressed from outside. -/
def remoteLocations (target : Target) (kind : RowKind) (moniker : Moniker) :
    ServiceM (List Location) := do
  let database ← openDatabase target
  let found ← monikerLocations database kind moniker.scheme
    (Identifier.blankSecond moniker.identifier)
  return found.map fun l => .remote target.repository target.commit l.uri l.range

/-- The definitions of a moniker by the provider of its package. -/
def providedDefinitions (package : PackageKey) (moniker : Moniker) :
    ServiceM (List Location) := do
  match (← ServiceM.packageIndex).provider? package with
  | none => return []
  | some target => remoteLocations target .definitions moniker

/-- The first definition of a moniker by the provider of its package. -/
def remoteDefinition (document : Document) (moniker : Moniker) : ServiceM (Option Location) := do
  match packageKey? document moniker with
  | none => return none
  | some package => return (← orNothing (providedDefinitions package moniker)).head?

/-- The users of an identifier of a package. -/
def usersOf (package : PackageKey) (moniker : Moniker) : ServiceM (List Target) := do
  return (← ServiceM.packageIndex).users package moniker.identifier

/-- The references to a moniker by the users of its package. -/
def remoteReferences (document : Document) (moniker : Moniker) : ServiceM (List Location) := do
  match packageKey? document moniker with
  | none => return []
  | some package =>
    let targets ← orNothing (usersOf package moniker)
    let found ← targets.mapM fun target => orNothing (remoteLocations target .references moniker)
    return found.flatten

/-! ### Queries -/

/-- The definitions of the first moniker that leads anywhere. An imported moniker decides, even
when its definition cannot be found. -/
def monikerDefinitions (database : Database) (document : Document) :
    List Moniker → ServiceM (Option Definitions)
  | [] => return none
  | moniker :: others => do
    if moniker.kind = .imported then
      return (← remoteDefinition document moniker).map .one
    let found ← monikerLocations database .definitions moniker.scheme moniker.identifier
    if found.isEmpty then monikerDefinitions database document others
    else return some (.many found)

/-- Where the symbol at a position is defined. -/
def definitions (database : Database) (path : String) (position : Position) :
    ServiceM (Option Definitions) := do
  let document ← readDocument database path
  match document.findRange? position with
  | none => return none
  | some entry =>
    match document.definition? entry.node with
    | some result => return some (.many (document.locations path result.values))
    | none => monikerDefinitions database document (document.findMonikers entry.node)

/-- The references of the first moniker that has any in its own dump. -/
def monikerReferences (database : Database) : List Moniker → ServiceM (List Location)
  | [] => return []
  | moniker :: others => do
    let found ← monikerLocations database .references moniker.scheme moniker.identifier
    if found.isEmpty then monikerReferences database others else return found

/-- The references to a symbol in its own dump. -/
def localReferences (database : Database) (document : Document) (path : String)
    (entry : RangeEntry) : ServiceM (List Location) := do
  match document.reference? entry.node with
  | some result =>
    return document.locations path result.definitions
      ++ document.locations path result.references
  | none => monikerReferences database (document.findMonikers entry.node)

/-- Where the symbol at a position is referred to. -/
def references (database : Database) (path : String) (position : Position) :
    ServiceM (Option (List Location)) := do
  let document ← readDocument database path
  match document.findRange? position with
  | none => return none
  | some entry =>
    let found ← localReferences database document path entry
    let exported := (document.findMonikers entry.node).find? (·.kind = .exported)
    match exported with
    | none => return some found
    | some moniker => return some (found ++ (← remoteReferences document moniker))

/-- What is shown for the symbol at a position. -/
def hover (database : Database) (path : String) (position : Position) :
    ServiceM (Option Hover) := do
  let document ← readDocument database path
  return (document.findRange? position).bind fun entry => document.hover? entry.node

/-- A result as a value, with null for none. -/
def valueOf {α : Type} (toValue : α → Value) (result : Option α) : Value :=
  result.elim .null toValue

/-- Locations as an array. -/
def locationsValue (locations : List Location) : Value :=
  .array (locations.map Location.toValue)

/-- The answer to a query of a kind. -/
def answer (database : Database) (method : QueryMethod) (path : String) (position : Position) :
    ServiceM Value :=
  match method with
  | .hover => return valueOf Hover.toValue (← hover database path position)
  | .definitions => return valueOf Definitions.toValue (← definitions database path position)
  | .references => return valueOf locationsValue (← references database path position)

end Query

end CodeNav
