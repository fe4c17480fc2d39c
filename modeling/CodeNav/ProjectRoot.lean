/-
Module: CodeNav.ProjectRoot
Purpose: Paths of requests and the addresses of a dump, mapped onto each other.
Main exports:
  ProjectRoot, ProjectRoot.ofText, ProjectRoot.address, ProjectRoot.path
-/

namespace CodeNav

/-- What the addresses of a dump start with, if that is known. -/
structure ProjectRoot where
  root : Option String
deriving Repr, DecidableEq, Inhabited

namespace ProjectRoot

/-- Addresses pass unchanged. -/
def unknown : ProjectRoot :=
  ⟨none⟩

/-- The root that a dump states; slashes at its end do not count. -/
def ofText (text : String) : ProjectRoot :=
  let kept := (text.toList.reverse.dropWhile (· == '/')).reverse
  ⟨if kept.isEmpty then none else some (String.ofList kept)⟩

/-- The root that a dump states, if it states one. -/
def ofOption (text : Option String) : ProjectRoot :=
  (text.map ofText).getD unknown

/-- The address of a path; slashes at its start do not count. -/
def address (project : ProjectRoot) (path : String) : String :=
  match project.root with
  | some root => root ++ "/" ++ String.ofList (path.toList.dropWhile (· == '/'))
  | none => path

/-- The part of an address below a root, if it lies there. -/
def below? (root address : String) : Option String :=
  let stem := root.toList ++ ['/']
  if stem.isPrefixOf address.toList then some (String.ofList (address.toList.drop stem.length))
  else none

/-- The path of an address; one outside of the project is its own path. -/
def path (project : ProjectRoot) (address : String) : String :=
  match project.root with
  | some root => (below? root address).getD address
  | none => address

end ProjectRoot

end CodeNav
