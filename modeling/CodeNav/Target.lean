/-
Module: CodeNav.Target
Purpose: A repository at a commit, which is what dumps are stored for.
Main exports:
  Target, Target.validate, Target.key
-/
import CodeNav.Failure
import CodeNav.Text.Percent

namespace CodeNav

/-- A repository at a commit. -/
structure Target where
  repository : String
  commit : String
deriving Repr, DecidableEq, Inhabited

namespace Target

/-- Whether a text is a full commit hash: forty digits and letters from `a` to `f`. -/
def isCommit (commit : String) : Bool :=
  commit.length == 40 && commit.toList.all fun c => c.isDigit || ('a' ≤ c && c ≤ 'f')

/-- The target named by a repository and a commit, if both are well formed. -/
def validate (repository commit : String) : Except Failure Target :=
  if repository.isEmpty then .error .repositoryMissing
  else if isCommit commit then .ok ⟨repository, commit⟩
  else .error (.commitMalformed commit)

/-- The name shared by the files of every encoding, safe for file systems. -/
def key (target : Target) : String :=
  Text.percentEncode target.repository ++ "@" ++ target.commit

/-- The target as it is shown. -/
def display (target : Target) : String :=
  target.repository ++ "@" ++ target.commit

end Target

end CodeNav
