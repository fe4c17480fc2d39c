/-
Module: CodeNav.Gzip.Member
Purpose: Gzip members read under a limit on what comes out, and written.
Main exports:
  Gzip.crc32, Gzip.Fault, Gzip.isGzip, Gzip.decompress, Gzip.Compressor, Gzip.storedMember
-/
import CodeNav.Count
import CodeNav.Gzip.Inflate

namespace CodeNav.Gzip

/-! ### Checksums -/

/-- One bit of the division by the reflected polynomial. -/
def crcBit (crc : UInt32) : UInt32 :=
  if crc &&& 1 == 1 then (crc >>> 1) ^^^ 0xEDB88320 else crc >>> 1

/-- One octet of the division. -/
def crcByte (crc : UInt32) (b : UInt8) : UInt32 :=
  (List.range 8).foldl (fun crc _ => crcBit crc) (crc ^^^ b.toUInt32)

/-- The cyclic redundancy check of some octets. -/
def crc32 (octets : List UInt8) : UInt32 :=
  octets.foldl crcByte 0xFFFFFFFF ^^^ 0xFFFFFFFF

/-! ### Faults -/

/-- Why a gzip member cannot be read. -/
inductive Fault where
  | header
  | endOfFile
  | fieldTooLong
  | incomplete
  | corrupt
  | checksum
deriving Repr, DecidableEq

/-- The wording of a fault. -/
def Fault.message : Fault → String
  | .header => "invalid gzip header"
  | .endOfFile => "unexpected end of file"
  | .fieldTooLong => "gzip header field too long"
  | .incomplete => "incomplete deflate stream"
  | .corrupt => "corrupt deflate stream"
  | .checksum => "corrupt gzip stream does not have a matching checksum"

/-- Whether octets start as a gzip member does. -/
def isGzip (octets : List UInt8) : Bool :=
  octets.take 2 == [0x1F, 0x8B]

/-- The number written by octets, the first one least significant. -/
def littleEndian (octets : List UInt8) : Nat :=
  octets.foldr (fun b n => b.toNat + 256 * n) 0

/-- A number as `size` octets, the first one least significant. -/
def toLittleEndian : Nat → Nat → List UInt8
  | 0, _ => []
  | size + 1, n => UInt8.ofNat (n % 256) :: toLittleEndian size (n / 256)

/-! ### Reading -/

/-- The first octets, which have to be there, and what follows them. -/
def takeExactly (n : Nat) (s : List UInt8) : Except Fault (List UInt8 × List UInt8) :=
  if s.length < n then .error .endOfFile else .ok (s.splitAt n)

/-- The greatest length of a text in the header. -/
def fieldLimit : Nat := 0xFFFF

/-- Skips a text that a zero octet ends. -/
def skipText (s : List UInt8) : Except Fault (List UInt8) :=
  let text := s.takeWhile (· != 0)
  if fieldLimit < text.length then .error .fieldTooLong
  else
    match s.drop text.length with
    | [] => .error .endOfFile
    | _ :: rest => .ok rest

/-- Skips a part of the header when its flag is set. -/
def skipIf (flags : UInt8) (flag : UInt8) (skip : List UInt8 → Except Fault (List UInt8))
    (s : List UInt8) : Except Fault (List UInt8) :=
  if flags &&& flag == 0 then .ok s else skip s

/-- Skips the extra field. -/
def skipExtra (s : List UInt8) : Except Fault (List UInt8) := do
  let (length, s) ← takeExactly 2 s
  let (_, s) ← takeExactly (littleEndian length) s
  return s

/-- Checks the checksum of the header, which covers all that stands before it. -/
def checkHeader (whole s : List UInt8) : Except Fault (List UInt8) := do
  let (stored, rest) ← takeExactly 2 s
  let covered := whole.take (whole.length - s.length)
  if littleEndian stored == (crc32 covered).toNat % 0x10000 then return rest
  else throw .checksum

/-- Skips the header. -/
def skipHeader (octets : List UInt8) : Except Fault (List UInt8) := do
  let (fixed, s) ← takeExactly 10 octets
  match fixed with
  | 0x1F :: 0x8B :: method :: flags :: _ =>
    if method != 8 || flags &&& 0xE0 != 0 then throw .header
    let s ← skipIf flags 0x04 skipExtra s
    let s ← skipIf flags 0x08 skipText s
    let s ← skipIf flags 0x10 skipText s
    skipIf flags 0x02 (checkHeader octets) s
  | _ => throw .header

/-- What follows from reading a member: its content, or that the content exceeds the limit. -/
inductive Outcome where
  | content (octets : List UInt8)
  | exceeded
deriving Repr, DecidableEq

/-- The size of the portions in which compressed data is expanded. -/
def portion : Nat := 32768

/-- Whether damage met after `produced` octets is seen by a reader that stops past its limit: the
portion in which it lies has to be asked for. -/
def isSeen (produced : Nat) (limit : Option Nat) : Bool :=
  limit.all fun limit => portion * (produced / portion) ≤ limit

/-- Whether content of a size is more than the limit allows. -/
def exceeds (size : Nat) (limit : Option Nat) : Bool :=
  limit.any (· < size)

/-- Checks the trailer of a member against its content. -/
def checkTrailer (content rest : List UInt8) : Except Fault Outcome := do
  let (crc, rest) ← takeExactly 4 rest
  let (size, _) ← takeExactly 4 rest
  if littleEndian crc == (crc32 content).toNat &&
      littleEndian size == content.length % capacity 32 then
    return .content content
  else throw .checksum

/-- Reads the first member; what follows it is ignored. Content past the limit is not read, so
damage there goes unseen. -/
def decompress (limit : Option Nat) (octets : List UInt8) : Except Fault Outcome := do
  let s ← skipHeader octets
  let expansion := inflate s
  let produced := expansion.output.size
  match expansion.rest with
  | .error .corrupt =>
    if isSeen produced limit then throw .corrupt else return .exceeded
  | .error .truncated =>
    if exceeds produced limit then return .exceeded else throw .incomplete
  | .ok rest =>
    if exceeds produced limit then return .exceeded
    else checkTrailer expansion.output.toList rest

/-! ### Writing -/

/-- A way of writing members whose content is read back. -/
class Compressor where
  compress : List UInt8 → List UInt8
  decompress_compress (octets : List UInt8) :
    decompress none (compress octets) = .ok (.content octets)

/-- The greatest length of a stored block. -/
def storedLimit : Nat := 0xFFFF

/-- Stored blocks that hold the octets; the last one is marked. -/
def storedBlocks (octets : List UInt8) : List UInt8 :=
  let length := min octets.length storedLimit
  let block := toLittleEndian 2 length ++ toLittleEndian 2 (0xFFFF - length)
    ++ octets.take storedLimit
  if octets.length ≤ storedLimit then 1 :: block
  else 0 :: block ++ storedBlocks (octets.drop storedLimit)
termination_by octets.length
decreasing_by simp [storedLimit] at *; omega

/-- The fixed start of a member: magic number, method, and no flags. -/
def plainHeader : List UInt8 :=
  [0x1F, 0x8B, 8, 0, 0, 0, 0, 0, 0, 0xFF]

/-- The member that holds the octets as they are. -/
def storedMember (octets : List UInt8) : List UInt8 :=
  plainHeader ++ storedBlocks octets ++ toLittleEndian 4 (crc32 octets).toNat
    ++ toLittleEndian 4 octets.length

end CodeNav.Gzip
