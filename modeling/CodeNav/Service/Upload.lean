/-
Module: CodeNav.Service.Upload
Purpose: Dumps received, checked, converted and moved into place.
Main exports:
  Upload.receive, Upload.validate, Upload.store, Upload.accept
-/
import CodeNav.Service.Registry
import CodeNav.Service.Rejection

namespace CodeNav.Upload

open Http (Stream)
open Service (evict invalidate)

/-!
An upload is written to temporary files, which are moved into place once all encodings exist.
-/

/-! ### Temporary files -/

/-- A path for a new temporary file. -/
def temporaryPath (ending : String) : ServiceM String := do
  let service ← getThe Service
  set { service with temporaries := service.temporaries + 1 }
  let directory := Files.join service.root Service.temporaryName
  return Files.join directory ("upload-" ++ toString service.temporaries ++ ending)

/-- Removes temporary files; those that are gone are passed over. -/
def discard (paths : List String) : ServiceM Unit :=
  paths.forM fun path => do
    let _ ← ServiceM.attempt (ServiceM.onFiles (FilesM.system (Files.remove path)))

/-- Writes octets to a file. -/
def writeOctets (path : String) (octets : List UInt8) : ServiceM Unit :=
  ServiceM.onFiles (FilesM.system (Files.write path (.octets octets)))

/-! ### Receiving -/

/-- Appends portions to what has arrived in a file, up to the first that exceeds the limit. -/
def receivePortions (path : String) (limit : Nat) :
    List UInt8 → List (List UInt8) → RequestM (List UInt8)
  | arrived, [] => return arrived
  | arrived, portion :: rest => do
    let arrived := arrived ++ portion
    if limit < arrived.length then throw (.uploadTooLarge arrived.length limit false)
    RequestM.ofService (writeOctets path arrived)
    receivePortions path limit arrived rest

/-- Writes a body to a new file. The result is its size. -/
def receive (body : Stream) (path : String) (limit : Nat) : RequestM Nat := do
  RequestM.ofService (writeOctets path [])
  let arrived ← receivePortions path limit [] body.portions
  match body.broken with
  | some reason => throw (.uploadBrokeOff reason)
  | none => return arrived.length

/-! ### Storing -/

/-- A dump that cannot be read is the fault of the request. -/
def blameRequest (cause : Failure) : Failure :=
  if cause.kind = .decode ∨ cause.kind = .serialization then .invalidDump cause else cause

/-- The dump in a file. It may not expand past the size limit of uploads. -/
def validate (path : String) : ServiceM Dump := do
  let limit := (← getThe Service).limits.maxUploadBytes
  let content ← ServiceM.onFiles (FilesM.system (Files.read path))
  let dump := content.asText.bind (Dump.parse (some limit))
  ServiceM.ofExcept (dump.mapError blameRequest)

/-- Converts a dump to some encodings, each in a temporary file. If one fails, those made before
are discarded, too. -/
def convertAll (input : String) :
    List (Encoding × String) → List Encoding → ServiceM (List (Encoding × String))
  | made, [] => return made.reverse
  | made, kind :: rest => do
    let output ← temporaryPath kind.extension
    let converter := (← getThe Service).converter
    match ← ServiceM.attempt (ServiceM.onFiles (converter input output kind)) with
    | .ok () => convertAll input ((kind, output) :: made) rest
    | .error failure =>
      discard (made.reverse.map (·.2) ++ [output])
      throw failure

/-- Moves a temporary file to its place among the files of a target. -/
def place (base source : String) (kind : Encoding) : ServiceM Unit :=
  ServiceM.onFiles (FilesM.system (Files.rename source (kind.path base)))

/-- Moves the converted files into place, and then the dump itself, if it is kept. -/
def placeAll (base staged : String) (kinds : List Encoding) (converted : List (Encoding × String)) :
    ServiceM Unit := do
  converted.forM fun (kind, output) => place base output kind
  if kinds.contains .json then place base staged .json

/-- Reads the dump in a file and converts it to every enabled encoding but its own. -/
def prepare (staged : String) : ServiceM (Dump × List (Encoding × String)) := do
  let dump ← validate staged
  let kinds := (← getThe Service).flags.enabled
  let converted ← convertAll staged [] (kinds.filter (· ≠ .json))
  return (dump, converted)

/-- Moves the files of a dump into place, and makes known that it is the dump of a target now. -/
def commit (target : Target) (staged : String) (dump : Dump)
    (converted : List (Encoding × String)) : ServiceM Unit := do
  let service ← getThe Service
  placeAll (service.basePath target) staged service.flags.enabled converted
  let _ ← evict target
  let _ ← invalidate target
  ServiceM.updateIndex fun index => index.record target dump.provided dump.used

/-- Stores the dump in a file as the dump of a target in every enabled encoding. -/
def store (target : Target) (staged : String) : ServiceM Unit := do
  let (dump, converted) ← prepare staged
  commit target staged dump converted

/-- Receives a body and stores it as the dump of a target. -/
def receiveAndStore (target : Target) (body : Stream) (staged : String) : RequestM Nat := do
  let limit := (← getThe Service).limits.maxUploadBytes
  let size ← receive body staged limit
  RequestM.ofService (store target staged)
  return size

/-- Accepts an upload for a target, of which a size may be announced. The result is its size; the
received file does not stay behind. -/
def accept (target : Target) (announced : Option Nat) (body : Stream) : RequestM Nat := do
  let limit := (← getThe Service).limits.maxUploadBytes
  if let some size := announced then
    if limit < size then throw (.uploadTooLarge size limit true)
  let staged ← RequestM.ofService (temporaryPath Encoding.json.extension)
  let outcome ← RequestM.attempt (receiveAndStore target body staged)
  RequestM.ofService (discard [staged])
  match outcome with
  | .ok size => return size
  | .error rejection => throw rejection

end CodeNav.Upload
