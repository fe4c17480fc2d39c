/-
Module: CodeNav.Toml.Tables
Purpose: The tables of a TOML document while it is read.
Main exports:
  Toml.Entry, Toml.Entries.openTable?, Toml.Entries.appendTable?, Toml.Entries.assign?
-/
import CodeNav.Settings.Tree

namespace CodeNav.Toml

/-- How a table came to be: under a header of its own, on the way to another one, or by a key with
points. -/
inductive Origin where
  | header
  | implied
  | dotted
deriving Repr, DecidableEq

/-- What a key is bound to: a finished value, a table that can still grow, or a list of tables of
which the last can grow, held in reverse. -/
inductive Entry where
  | value (tree : Tree)
  | table (origin : Origin) (entries : List (String × Entry))
  | tables (last : List (String × Entry)) (before : List (List (String × Entry)))

/-- The bindings of a table. -/
abbrev Entries := List (String × Entry)

namespace Entries

/-- Binds a key in place of what it was bound to. -/
def bind (entries : Entries) (key : String) (entry : Entry) : Entries :=
  (key, entry) :: entries.filter (·.1 != key)

/-- Changes the table at a path of headers, making tables on the way. -/
def within (change : Entries → Option Entries) : List String → Entries → Option Entries
  | [], entries => change entries
  | key :: path, entries =>
    match entries.lookup key with
    | none => do
      let made ← within change path []
      return entries.bind key (.table .implied made)
    | some (.table origin below) => do
      let changed ← within change path below
      return entries.bind key (.table origin changed)
    | some (.tables last before) => do
      let changed ← within change path last
      return entries.bind key (.tables changed before)
    | some (.value _) => none

/-- Opens a table under a header; it may not have been opened before. -/
def openHere? (key : String) (entries : Entries) : Option Entries :=
  match entries.lookup key with
  | none => some (entries.bind key (.table .header []))
  | some (.table .implied below) => some (entries.bind key (.table .header below))
  | some _ => none

/-- Appends a table to a list of tables. -/
def appendHere? (key : String) (entries : Entries) : Option Entries :=
  match entries.lookup key with
  | none => some (entries.bind key (.tables [] []))
  | some (.tables last before) => some (entries.bind key (.tables [] (last :: before)))
  | some _ => none

/-- Changes a key of the table at a path. -/
def atLast (change : String → Entries → Option Entries) (path : List String) (entries : Entries) :
    Option Entries := do
  let key ← path.getLast?
  within (change key) path.dropLast entries

/-- Opens the table with a path. -/
def openTable? (path : List String) (entries : Entries) : Option Entries :=
  atLast openHere? path entries

/-- Appends a table to the list with a path. -/
def appendTable? (path : List String) (entries : Entries) : Option Entries :=
  atLast appendHere? path entries

/-- Binds a key with points, in tables made for it. -/
def assignHere? (value : Tree) : List String → Entries → Option Entries
  | [], _ => none
  | [key], entries =>
    if (entries.lookup key).isSome then none else some (entries.bind key (.value value))
  | key :: path, entries =>
    match entries.lookup key with
    | none => do
      let made ← assignHere? value path []
      return entries.bind key (.table .dotted made)
    | some (.table .dotted below) => do
      let changed ← assignHere? value path below
      return entries.bind key (.table .dotted changed)
    | some _ => none

/-- Binds a key in the table under a header. -/
def assign? (header path : List String) (value : Tree) (entries : Entries) : Option Entries :=
  within (assignHere? value path) header entries

mutual

/-- A binding as a value. -/
def treeOf : Entry → Tree
  | .value tree => tree
  | .table _ entries => .table (treesOf entries)
  | .tables last before => .list (tablesOf before [.table (treesOf last)])

/-- Bindings as values. -/
def treesOf : List (String × Entry) → List (String × Tree)
  | [] => []
  | (key, entry) :: rest => (key, treeOf entry) :: treesOf rest

/-- Tables as values, in front of those that came after them. -/
def tablesOf : List (List (String × Entry)) → List Tree → List Tree
  | [], after => after
  | table :: before, after => tablesOf before (.table (treesOf table) :: after)

end

end Entries

end CodeNav.Toml
