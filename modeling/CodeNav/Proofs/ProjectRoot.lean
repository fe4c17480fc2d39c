/-
Module: CodeNav.Proofs.ProjectRoot
Purpose: Which addresses of a dump their paths lead back to.
Main exports:
  ProjectRoot.Covers, ProjectRoot.below?_eq_some_iff, ProjectRoot.path_outside,
  ProjectRoot.address_path_iff
-/
import CodeNav.ProjectRoot
import Mathlib.Data.List.Basic

namespace CodeNav.ProjectRoot

/-- An address lies in a project: there is no root, or the address is the root, one slash, and a
path that does not begin with another one. -/
def Covers (project : ProjectRoot) (address : String) : Prop :=
  ∀ root, project.root = some root →
    ∃ path : String, address = root ++ "/" ++ path ∧ path.toList.head? ≠ some '/'

/-- What lies below a root is what comes behind it and a slash. -/
theorem below?_eq_some_iff {root address path : String} :
    below? root address = some path ↔ address = root ++ "/" ++ path := by
  have lists : address = root ++ "/" ++ path ↔
      address.toList = root.toList ++ ['/'] ++ path.toList := by
    rw [← String.toList_inj]
    simp
  rw [lists]
  unfold below?
  dsimp only
  constructor
  · intro found
    split at found
    · rename_i below
      cases found
      obtain ⟨rest, all⟩ := List.isPrefixOf_iff_prefix.mp below
      rw [← all, List.drop_left, String.toList_ofList]
    · cases found
  · intro all
    rw [all, if_pos (List.isPrefixOf_iff_prefix.mpr ⟨_, rfl⟩), List.drop_left, String.ofList_toList]

/-- An address outside of a root is its own path. -/
theorem path_outside {project : ProjectRoot} {root address : String}
    (known : project.root = some root) (outside : ∀ path, address ≠ root ++ "/" ++ path) :
    project.path address = address := by
  have nothing : below? root address = none := by
    refine Option.eq_none_iff_forall_ne_some.mpr fun path below => ?_
    exact outside path (below?_eq_some_iff.mp below)
  unfold path
  rw [known]
  exact congrArg (Option.getD · address) nothing

/-- Slashes at the start of a path count for nothing unless there are none. -/
theorem dropWhile_eq_self_iff {path : List Char} :
    path.dropWhile (· == '/') = path ↔ path.head? ≠ some '/' := by
  cases path with
  | nil => simp
  | cons first rest =>
      rw [List.head?_cons, List.dropWhile_cons]
      by_cases slash : first = '/'
      · subst slash
        have shorter := (List.dropWhile_sublist (l := rest) (· == '/')).length_le
        simp only [beq_self_eq_true, if_true, ne_eq, not_true_eq_false, iff_false]
        intro same
        rw [same, List.length_cons] at shorter
        omega
      · simp [slash]

/-- The path of an address leads back to it exactly if the address lies in the project. -/
theorem address_path_iff {project : ProjectRoot} {address : String} :
    project.address (project.path address) = address ↔ project.Covers address := by
  unfold ProjectRoot.address path Covers
  cases project.root with
  | none => simp
  | some root =>
      simp only [Option.some.injEq, forall_eq']
      -- where an address leads to begins with the root, so outside of it there is no way back
      have back (path : String) :
          root ++ "/" ++ String.ofList (path.toList.dropWhile (· == '/')) = root ++ "/" ++ path ↔
            path.toList.head? ≠ some '/' := by
        rw [← dropWhile_eq_self_iff, ← String.toList_inj]
        simp
      cases below : below? root address with
      | none =>
          have outside (path : String) : address ≠ root ++ "/" ++ path := by
            intro inside
            rw [below?_eq_some_iff.mpr inside] at below
            cases below
          rw [Option.getD_none]
          constructor
          · exact fun same => absurd same.symm (outside _)
          · rintro ⟨path, inside, _⟩
            exact absurd inside (outside path)
      | some path =>
          have inside := below?_eq_some_iff.mp below
          rw [Option.getD_some, inside, back]
          constructor
          · exact fun flat => ⟨path, rfl, flat⟩
          · rintro ⟨other, same, flat⟩
            have paths : path = other := by
              rw [← String.toList_inj] at same ⊢
              simpa using same
            exact paths ▸ flat

end CodeNav.ProjectRoot
