/-
Module: CodeNav.PackageIndex
Purpose: Which target provides a package, and which ones use it.
Main exports:
  PackageIndex, PackageIndex.record, PackageIndex.provider?, PackageIndex.users
-/
import CodeNav.Dump.Packages
import CodeNav.Target

namespace CodeNav

/-- A package that a target provides. -/
structure Provision where
  package : PackageKey
  target : Target
deriving Repr, DecidableEq

/-- An identifier of a package that a target uses. -/
structure Usage where
  package : PackageKey
  identifier : String
  target : Target
deriving Repr, DecidableEq

/-- What is known of packages across all targets. A package has at most one provider. -/
structure PackageIndex where
  provisions : List Provision
  usages : List Usage
deriving Repr, DecidableEq, Inhabited

/-- Targets are ordered by repository, then by commit. -/
instance : Ord Target where
  compare a b := (compare a.repository b.repository).then (compare a.commit b.commit)

namespace PackageIndex

/-- Nothing is known. -/
def empty : PackageIndex :=
  ⟨[], []⟩

/-- Forgets all that was recorded for a target. -/
def forget (index : PackageIndex) (target : Target) : PackageIndex :=
  ⟨index.provisions.filter (·.target != target), index.usages.filter (·.target != target)⟩

/-- Records a provider in place of any other. -/
def provide (target : Target) (index : PackageIndex) (package : PackageKey) : PackageIndex :=
  { index with
    provisions := index.provisions.filter (·.package != package) ++ [⟨package, target⟩] }

/-- The usages that an entry amounts to, one for each identifier. -/
def usagesOf (target : Target) (use : PackageUse) : List Usage :=
  use.identifiers.map fun identifier => ⟨use.package, identifier, target⟩

/-- Records what a target provides and uses, in place of all that was recorded for it. -/
def record (index : PackageIndex) (target : Target) (provided : List PackageKey)
    (used : List PackageUse) : PackageIndex :=
  let cleared := provided.foldl (provide target) (index.forget target)
  { cleared with usages := cleared.usages ++ used.flatMap (usagesOf target) }

/-- The provider of a package. -/
def provider? (index : PackageIndex) (package : PackageKey) : Option Target :=
  (index.provisions.find? (·.package == package)).map (·.target)

/-- The targets that use an identifier of a package, in order, each once. -/
def users (index : PackageIndex) (package : PackageKey) (identifier : String) : List Target :=
  ascending ((index.usages.filter fun u =>
    u.package == package && u.identifier == identifier).map (·.target))

end PackageIndex

end CodeNav
