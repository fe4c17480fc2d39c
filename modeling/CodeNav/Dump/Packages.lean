/-
Module: CodeNav.Dump.Packages
Purpose: The packages that a dump provides and those that it uses.
Main exports:
  PackageKey, PackageUse, Dump.provided, Dump.used
-/
import CodeNav.Dump.Basic

namespace CodeNav

/-- A package as it is known across repositories. -/
structure PackageKey where
  scheme : String
  name : String
  version : String
deriving Repr, DecidableEq, Hashable, Inhabited

/-- Packages are ordered by scheme, name and version. -/
instance : Ord PackageKey where
  compare a b :=
    ((compare a.scheme b.scheme).then (compare a.name b.name)).then (compare a.version b.version)

/-- A package that is used, with the identifiers used from it. -/
structure PackageUse where
  package : PackageKey
  identifiers : List String
deriving Repr, DecidableEq

/-- The members of a list in ascending order, each once. -/
def ascending {α : Type} [Ord α] [BEq α] (l : List α) : List α :=
  (l.mergeSort fun a b => (compare a b).isLE).eraseDups

namespace Dump

/-- The monikers of a kind that belong to a package, each with its package. -/
def packaged (dump : Dump) (kind : MonikerKind) : List (PackageKey × String) :=
  dump.monikersWithPackages.filterMap fun (moniker, package) =>
    if moniker.kind = kind then
      package.map fun p => (⟨moniker.scheme, p.name, p.version⟩, moniker.identifier)
    else none

/-- The packages that a dump provides, in order. -/
def provided (dump : Dump) : List PackageKey :=
  ascending ((dump.packaged .exported).map (·.1))

/-- The packages that a dump uses, in order, each with the identifiers used from it. -/
def used (dump : Dump) : List PackageUse :=
  let imported := dump.packaged .imported
  (ascending (imported.map (·.1))).map fun package =>
    ⟨package, ascending ((imported.filter (·.1 == package)).map (·.2))⟩

end Dump

end CodeNav
