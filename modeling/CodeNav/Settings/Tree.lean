/-
Module: CodeNav.Settings.Tree
Purpose: Configuration values before they are given a type, and how sources are laid over
  each other.
Main exports:
  Tree, Tree.put, Tree.putAll, Tree.putAt, Tree.path?
-/
import CodeNav.Decimal.Binary64

namespace CodeNav

/-- A configuration value. -/
inductive Tree where
  | bool (b : Bool)
  | integer (n : Int)
  | real (x : Binary64)
  | text (s : String)
  | list (items : List Tree)
  | table (fields : List (String × Tree))
deriving Repr, Inhabited

namespace Tree

/-- The fields of a table; any other value has none. -/
def fields : Tree → List (String × Tree)
  | .table fields => fields
  | _ => []

/-- Binds a key in place of what it was bound to. -/
def bind (fields : List (String × Tree)) (key : String) (value : Tree) : List (String × Tree) :=
  (key, value) :: fields.filter (·.1 != key)

mutual

/-- Lays a value over what a key of a table is bound to. Tables are joined; any other value takes
the place of what was there. -/
def put (root : Tree) (key : String) : Tree → Tree
  | .table incoming =>
    let below := (root.fields.lookup key).getD (.table [])
    .table (bind root.fields key (putAll below incoming))
  | .bool b => .table (bind root.fields key (.bool b))
  | .integer n => .table (bind root.fields key (.integer n))
  | .real x => .table (bind root.fields key (.real x))
  | .text s => .table (bind root.fields key (.text s))
  | .list items => .table (bind root.fields key (.list items))

/-- Lays values over those of a table, one after the other. -/
def putAll (root : Tree) : List (String × Tree) → Tree
  | [] => root
  | (key, value) :: rest => putAll (put root key value) rest

end

/-- Lays a value over the one at a path; whatever stands in the way becomes a table. -/
def putAt (root : Tree) : List String → Tree → Tree
  | [], _ => root
  | [key], value => root.put key value
  | key :: path, value =>
    let below := (root.fields.lookup key).getD (.table [])
    .table (bind root.fields key (putAt below path value))

/-- The characters of a name. -/
def isNameChar (c : Char) : Bool :=
  c.isAlphanum || c == '_' || c == '-'

/-- The names between the points of a text. -/
def names : List Char → List (List Char)
  | [] => [[]]
  | c :: rest =>
    if c == '.' then [] :: names rest
    else
      match names rest with
      | [] => [[c]]
      | name :: others => (c :: name) :: others

/-- The path that a text writes: names joined by points. -/
def path? (text : String) : Option (List String) :=
  let parts := names text.toList
  if parts.all fun name => !name.isEmpty && name.all isNameChar then
    some (parts.map String.ofList)
  else none

/-- Lays a value over the one that a text points to; a text that is no path is passed over. -/
def putNamed (root : Tree) (name : String) (value : Tree) : Tree :=
  match path? name with
  | some path => root.putAt path value
  | none => root

/-- Lays a source over a tree. Its outermost keys are paths. -/
def overlay (root : Tree) (source : List (String × Tree)) : Tree :=
  source.foldl (fun root (name, value) => root.putNamed name value) root

end Tree

end CodeNav
