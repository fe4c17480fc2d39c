/-
Module: CodeNav.Store.Files
Purpose: The directory tree in which dumps are stored, with the times that files carry.
Main exports:
  Content, Sizes, File, Files, Files.read, Files.write, Files.rename, Files.remove, Files.list
-/
import CodeNav.Count
import CodeNav.Encoding.Source

namespace CodeNav

/-- What a file holds: octets, the tables of a converted dump, or the index of packages. -/
inductive Content where
  | octets (octets : List UInt8)
  | tables (tables : Tables)
  | index

/-! ### Sizes -/

/-- How many octets the store of tables and the system of files need for what a model does not hold
octet by octet. -/
structure Sizes where
  tables : Tables → Nat
  /-- The index of packages. -/
  index : Nat
  /-- A directory, whatever it holds. -/
  directory : Nat

namespace Sizes

/-- The size of a page. -/
def pageSize : Nat := 4096

/-- The pages that tables of an encoding take when they are empty. -/
def basePages : Tables → Nat
  | .graph _ => 13
  | .blob _ => 11

/-- The octets of the larger columns of tables. -/
def payload : Tables → Nat
  | .graph t => total (t.vertices.values.map (·.json.utf8ByteSize)) + 64 * t.edges.length
  | .blob t => total (t.contents.values.map (·.length))

/-- A rough reckoning by the page, to run with. -/
def paged : Sizes where
  tables t := pageSize * (basePages t + payload t / pageSize)
  index := pageSize * 7
  directory := pageSize

end Sizes

/-- The size of what a file holds. -/
def Content.size (sizes : Sizes) : Content → Nat
  | .octets text => text.length
  | .tables t => sizes.tables t
  | .index => sizes.index

/-- When a file was last read, written, and changed in any way including its name. -/
structure FileTimes where
  accessed : Nat
  modified : Nat
  changed : Nat
deriving Repr, DecidableEq, Inhabited

/-- A file. Its serial number tells it apart from any other file that had or will have its name. -/
structure File where
  serial : Nat
  content : Content
  times : FileTimes

/-- An entry of the tree. -/
inductive Entry where
  | file (f : File)
  | directory

/-- The size that is reported for an entry. -/
def Entry.size (sizes : Sizes) : Entry → Nat
  | .file f => f.content.size sizes
  | .directory => sizes.directory

/-- A directory tree by path, a clock that orders the times of files, and the next serial
number. -/
structure Files where
  entries : Std.ExtTreeMap String Entry
  clock : Nat
  nextSerial : Nat

namespace Files

/-- The tree without entries. The clock starts past any time that is set by hand. -/
def empty : Files :=
  ⟨∅, capacity 62, 0⟩

/-- A path below a directory. -/
def join (directory name : String) : String :=
  directory ++ "/" ++ name

/-- The directory of a path. -/
def parent (path : String) : String :=
  String.ofList ((path.toList.reverse.dropWhile (· != '/')).drop 1).reverse

/-- What stands at a path. -/
def find? (files : Files) (path : String) : Option Entry :=
  files.entries[path]?

/-- Whether anything stands at a path. -/
def contains (files : Files) (path : String) : Bool :=
  files.entries.contains path

/-- Whether a directory stands at a path. -/
def isDirectory (files : Files) (path : String) : Bool :=
  match files.find? path with
  | some .directory => true
  | _ => false

/-- The file at a path. -/
def file? (files : Files) (path : String) : Option File :=
  match files.find? path with
  | some (.file f) => some f
  | _ => none

/-- Puts an entry at a path. -/
def put (files : Files) (path : String) (entry : Entry) : Files :=
  { files with entries := files.entries.insert path entry }

/-- A later time than any before. -/
def tick (files : Files) : Files :=
  { files with clock := files.clock + 1 }

/-! ### Reading -/

/-- Marks a file as read. A file that was read since it was last written or changed keeps its
time of access. -/
def touchRead (files : Files) (path : String) : Files :=
  match files.file? path with
  | some f =>
    let times := f.times
    if times.accessed ≤ times.modified || times.accessed ≤ times.changed then
      let files := files.tick
      files.put path (.file { f with times := { times with accessed := files.clock } })
    else files
  | none => files

/-- Reads a file. -/
def read (path : String) (files : Files) : Except SystemFault Content × Files :=
  match files.find? path with
  | none => (.error .missing, files)
  | some .directory => (.error .isDirectory, files)
  | some (.file f) => (.ok f.content, files.touchRead path)

/-! ### Writing -/

/-- Creates a file, or replaces the content of the one at its path. -/
def write (path : String) (content : Content) (files : Files) : Except SystemFault Unit × Files :=
  match files.find? path with
  | some .directory => (.error .isDirectory, files)
  | some (.file f) =>
    let files := files.tick
    let times := { f.times with modified := files.clock, changed := files.clock }
    (.ok (), files.put path (.file { f with content, times }))
  | none =>
    if files.isDirectory (parent path) then
      let files := files.tick
      let now := files.clock
      let file : File := ⟨files.nextSerial, content, ⟨now, now, now⟩⟩
      (.ok (), { files with nextSerial := files.nextSerial + 1 }.put path (.file file))
    else (.error .missing, files)

/-- Sets the times of access and modification of a file. -/
def setTimes (path : String) (time : Nat) (files : Files) : Files :=
  match files.file? path with
  | some f =>
    let files := files.tick
    files.put path (.file { f with times := ⟨time, time, files.clock⟩ })
  | none => files

/-- Removes a file. -/
def remove (path : String) (files : Files) : Except SystemFault Unit × Files :=
  match files.find? path with
  | none => (.error .missing, files)
  | some .directory => (.error .isDirectory, files)
  | some (.file _) => (.ok (), { files with entries := files.entries.erase path })

/-- Gives a file a new name, in place of a file that had it. -/
def rename (source target : String) (files : Files) : Except SystemFault Unit × Files :=
  match files.find? source with
  | none => (.error .missing, files)
  | some .directory => (.error .isDirectory, files)
  | some (.file f) =>
    match files.find? target with
    | some .directory => (.error .isDirectory, files)
    | _ =>
      if files.isDirectory (parent target) then
        let files := files.tick
        let moved := { f with times := { f.times with changed := files.clock } }
        (.ok (), { files with entries := files.entries.erase source }.put target (.file moved))
      else (.error .missing, files)

/-! ### Directories -/

/-- Makes a directory; one that is there stays. -/
def makeDirectory (path : String) (files : Files) : Files :=
  if files.contains path then files else files.put path .directory

/-- Whether a path lies below a directory. -/
def isBelow (directory path : String) : Bool :=
  (directory.toList ++ ['/']).isPrefixOf path.toList

/-- Removes a directory with all that it holds. -/
def removeDirectory (path : String) (files : Files) : Files :=
  { files with entries := files.entries.filter fun p _ => p != path && !isBelow path p }

/-- The name of a path within a directory, if it stands directly there. -/
def nameIn? (directory path : String) : Option String :=
  if isBelow directory path then
    let name := path.toList.drop (directory.length + 1)
    if name.contains '/' then none else some (String.ofList name)
  else none

/-- The entries that stand directly in a directory, by name in order. -/
def list (files : Files) (directory : String) : List (String × Entry) :=
  files.entries.toList.filterMap fun (path, entry) =>
    (nameIn? directory path).map fun name => (name, entry)

end Files

/-- A computation on the directory tree that may fail. -/
abbrev FilesM := ExceptT Failure (StateM Files)

namespace FilesM

/-- Runs an operation of the file system; its refusal is a failure. -/
def system {α : Type} (operation : Files → Except SystemFault α × Files) : FilesM α := fun files =>
  match operation files with
  | (.ok value, files) => (.ok value, files)
  | (.error fault, files) => (.error (.fileSystem fault), files)

/-- Runs an operation that cannot be refused. -/
def change (operation : Files → Files) : FilesM Unit := fun files =>
  (.ok (), operation files)

end FilesM

end CodeNav
