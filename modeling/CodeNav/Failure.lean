/-
Module: CodeNav.Failure
Purpose: Every way in which storing or querying a dump can fail.
Main exports:
  SystemFault, Failure, Failure.Kind, Failure.kind, Failure.message
-/
import CodeNav.Encoding.Kind
import CodeNav.Gzip.Member
import CodeNav.Json.Cause
import CodeNav.Text.Utf8

namespace CodeNav

/-- Why the file system refuses an operation. -/
inductive SystemFault where
  | missing
  | isDirectory
  | notDirectory
  | notEmpty
deriving Repr, DecidableEq

/-- The wording of a refusal. -/
def SystemFault.message : SystemFault → String
  | .missing => "No such file or directory (os error 2)"
  | .isDirectory => "Is a directory (os error 21)"
  | .notDirectory => "Not a directory (os error 20)"
  | .notEmpty => "Directory not empty (os error 39)"

/-- The families of failures. -/
inductive Failure.Kind where
  | io
  | serialization
  | notFound
  | validation
  | decode
  | conversion
  | storage
  | config
deriving Repr, DecidableEq

/-- What the message of a failure of a family starts with. -/
def Failure.Kind.label : Failure.Kind → String
  | .io => "IO error: "
  | .serialization => "Serialization error: "
  | .notFound => "Not found: "
  | .validation => "Validation error: "
  | .decode => "Decode error: "
  | .conversion => "Conversion error: "
  | .storage => "Storage error: "
  | .config => "Configuration error: "

/-- A failure, by its cause. -/
inductive Failure where
  | fileSystem (fault : SystemFault)
  | malformedJson (cause : Json.Cause)
  /-- No enabled encoding of a dump can be loaded. -/
  | noData (base : String)
  | noDocument (path : String)
  | repositoryMissing
  | commitMalformed (commit : String)
  /-- A compressed dump holds more octets than are allowed. -/
  | inflatedTooLarge (limit : Nat)
  /-- An uploaded dump cannot be read. -/
  | invalidDump (cause : Failure)
  | malformedGzip (fault : Gzip.Fault)
  | malformedText (fault : Utf8.Fault)
  | malformedElement (cause : Json.Cause)
  | malformedLine (number : Nat) (cause : Json.Cause)
  | vertexWithoutId
  | documentWithoutUri (id : String)
  | noElements
  | malformedVertex (id : String) (cause : Json.Cause)
  | malformedDocument (cause : Json.Cause)
  /-- The uploaded encoding is not made by conversion. -/
  | notConverted (kind : Encoding)
  | toolNotRun (tool : String) (fault : SystemFault)
  | toolFailed (tool status output : String)
  | dumpClosed
  | tablesClosed
  | cannotOpen (path : String)
  | notTables
  | noTable (name : String)
  | wrongFormat (path format : String)
  | listenAddress
  /-- A failure of a collaborator, in its own words. -/
  | stated (kind : Failure.Kind) (text : String)
  /-- A failure of a load that others were waiting for, too. -/
  | shared (cause : Failure)
deriving Repr, DecidableEq

namespace Failure

/-- The family of a failure. -/
def kind : Failure → Kind
  | fileSystem _ => .io
  | malformedJson _ => .serialization
  | noData _ | noDocument _ => .notFound
  | repositoryMissing | commitMalformed _ | inflatedTooLarge _ | invalidDump _ => .validation
  | malformedGzip _ | malformedText _ | malformedElement _ | malformedLine _ _ | vertexWithoutId
  | documentWithoutUri _ | noElements | malformedVertex _ _ | malformedDocument _ => .decode
  | notConverted _ | toolNotRun _ _ | toolFailed _ _ _ => .conversion
  | dumpClosed | tablesClosed | cannotOpen _ | notTables | noTable _ | wrongFormat _ _ => .storage
  | listenAddress => .config
  | stated kind _ => kind
  | shared cause => cause.kind

/-- Whether an unknown dump or document is the cause. A file that is missing on the server's own
side is not. -/
def isNotFound (failure : Failure) : Bool :=
  failure.kind == .notFound

/-- Whether the request is to blame. -/
def isValidation (failure : Failure) : Bool :=
  failure.kind == .validation

/-- The wording of a failure, with that of its family. -/
def message : Failure → String
  | fileSystem fault => Kind.io.label ++ fault.message
  | malformedJson cause => Kind.serialization.label ++ cause.message
  | noData base => Kind.notFound.label ++ "no LSIF data available for " ++ base
  | noDocument path => Kind.notFound.label ++ "no document " ++ path
  | repositoryMissing =>
    Kind.validation.label
      ++ "Must specify the repository (usually of the form github.com/user/repo)"
  | commitMalformed commit =>
    Kind.validation.label ++ "Must specify the commit as a 40 character hash " ++ commit
  | inflatedTooLarge limit =>
    Kind.validation.label ++ "The decompressed LSIF file exceeds the max of " ++ toString limit
      ++ " bytes"
  | invalidDump cause => Kind.validation.label ++ "Invalid LSIF dump: " ++ cause.message
  | malformedGzip fault => Kind.decode.label ++ "invalid gzip stream: " ++ fault.message
  | malformedText fault => Kind.decode.label ++ "dump is not valid UTF-8: " ++ fault.message
  | malformedElement cause => Kind.decode.label ++ cause.message
  | malformedLine number cause =>
    Kind.decode.label ++ "line " ++ toString number ++ ": " ++ cause.message
  | vertexWithoutId => Kind.decode.label ++ "vertex without an id"
  | documentWithoutUri id => Kind.decode.label ++ "document " ++ id ++ " has no uri"
  | noElements => Kind.decode.label ++ "dump contains no LSIF elements"
  | malformedVertex id cause => Kind.decode.label ++ "vertex " ++ id ++ ": " ++ cause.message
  | malformedDocument cause =>
    Kind.decode.label ++ "malformed document blob: " ++ cause.message
  | notConverted kind =>
    Kind.conversion.label ++ kind.name ++ " is stored as uploaded, not converted"
  | toolNotRun tool fault =>
    Kind.conversion.label ++ "failed to run " ++ tool ++ ": " ++ fault.message
  | toolFailed tool status output =>
    Kind.conversion.label ++ tool ++ " exited with " ++ status ++ ": " ++ output
  | dumpClosed => Kind.storage.label ++ "dump is closed"
  | tablesClosed => Kind.storage.label ++ "database is closed"
  | cannotOpen path => Kind.storage.label ++ "unable to open database file: " ++ path
  | notTables => Kind.storage.label ++ "file is not a database"
  | noTable name => Kind.storage.label ++ "no such table: " ++ name
  | wrongFormat path format =>
    Kind.storage.label ++ path ++ " is not a " ++ format ++ " database"
  | listenAddress =>
    Kind.config.label ++ "invalid listen address: invalid socket address syntax"
  | stated kind text => kind.label ++ text
  | shared cause => cause.message

end Failure

end CodeNav
