/-
Module: CodeNav.Service.Quota
Purpose: Stored dumps kept within a size, the ones not read for longest leaving first.
Main exports:
  Quota.StoredFile, Quota.storedFiles, Quota.Report, Quota.enforce
-/
import CodeNav.Service.Registry

namespace CodeNav.Quota

open Service (evictKey invalidateFile)

/-- A file of a stored dump. -/
structure StoredFile where
  path : String
  /-- The key of the target that the file belongs to. -/
  key : String
  size : Nat
  accessed : Nat
deriving Repr, DecidableEq

/-- The stored file that an entry of the root is, if its name is that of a dump. -/
def storedFile? (sizes : Sizes) (root name : String) : Entry → Option StoredFile
  | .file f => do
    let (_, key) ← Encoding.splitFileName? name
    return ⟨Files.join root name, key, f.content.size sizes, f.times.accessed⟩
  | .directory => none

/-- The files of dumps that stand directly in the root. -/
def storedFiles (sizes : Sizes) (files : Files) (root : String) : List StoredFile :=
  (files.list root).filterMap fun (name, entry) => storedFile? sizes root name entry

/-- The files in the order in which they were last read. -/
def byAccess (stored : List StoredFile) : List StoredFile :=
  stored.mergeSort fun a b => a.accessed ≤ b.accessed

/-- The size of the files together. -/
def totalSize (stored : List StoredFile) : Nat :=
  total (stored.map (·.size))

/-- What is left, and what was deleted. -/
structure Report where
  total : Nat
  deleted : List String
deriving Repr, DecidableEq

/-- Deletes a file, after closing the database and forgetting the documents read from it. -/
def delete (file : StoredFile) : ServiceM Unit := do
  let _ ← evictKey file.key
  let _ ← invalidateFile file.path
  ServiceM.onFiles (FilesM.system (Files.remove file.path))

/-- Deletes files in order while their total is more than `most`. A file that cannot be deleted
stays counted. -/
def trim (most : Nat) : Nat → List StoredFile → ServiceM Report
  | total, [] => return ⟨total, []⟩
  | total, file :: rest => do
    if total ≤ most then return ⟨total, []⟩
    match ← ServiceM.attempt (delete file) with
    | .ok () =>
      let report ← trim most (total - file.size) rest
      return { report with deleted := file.path :: report.deleted }
    | .error _ => trim most total rest

/-- Deletes the dump files not read for longest until at most `most` octets are left. -/
def enforce (most : Nat) : ServiceM Report := do
  let service ← getThe Service
  let stored := storedFiles service.sizes service.files service.root
  trim most (totalSize stored) (byAccess stored)

end CodeNav.Quota
