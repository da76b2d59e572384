import TreePath.Gzip.Checksum
import TreePath.Gzip.Inflate

/-! # Gzip members

A member is a header, compressed data, the checksum and the length of the data. The header may hold
extra bytes, a name and a comment, which are skipped, and a checksum of itself, which is held to.
Bytes behind the first member do not matter.

* `magic`: the two bytes that a member starts with.
* `decompress`: the data of the member that bytes start with. -/

namespace TreePath.Gzip

/-- The bytes that a member starts with. -/
def magic : List UInt8 := [0x1f, 0x8b]

/-- The number that bytes denote, the lowest first. -/
def littleEndian : List UInt8 → Nat
  | [] => 0
  | b :: bs => b.toNat + 256 * littleEndian bs

/-- The first `n` bytes, with the bytes behind them. -/
def split? (n : Nat) (bytes : List UInt8) : Option (List UInt8 × List UInt8) :=
  let taken := bytes.take n
  if taken.length = n then some (taken, bytes.drop n) else none

/-- The longest text of a header. -/
def maxTextLength : Nat := 65535

/-- The bytes behind a text that ends with a zero byte. -/
def skipText (bytes : List UInt8) : Option (List UInt8) :=
  let text := bytes.takeWhile (· != 0)
  if text.length > maxTextLength then none
  else
    match bytes.drop text.length with
    | [] => none
    | _ :: rest => some rest

/-- The bytes behind extra bytes, which their number precedes. -/
def skipExtra (bytes : List UInt8) : Option (List UInt8) := do
  let (size, bytes) ← split? 2 bytes
  let (_, bytes) ← split? (littleEndian size) bytes
  return bytes

/-- The bytes behind the checksum of the header, the bytes of `all` before it. -/
def skipHeaderChecksum (all bytes : List UInt8) : Option (List UInt8) := do
  let (stored, rest) ← split? 2 bytes
  let header := all.take (all.length - bytes.length)
  if littleEndian stored = (checksum header).toNat % 0x10000 then return rest else none

/-- The bytes behind the header. The first flag tells nothing, the others what follows: a checksum,
extra bytes, a name and a comment, and no flag beyond these may be set. -/
def skipHeader (all : List UInt8) : Option (List UInt8) := do
  let (header, bytes) ← split? 10 all
  let flags := (header.getD 3 0).toNat
  if header.take 2 ≠ magic || header.getD 2 0 ≠ 8 || flags ≥ 32 then none
  let bytes ← if flags.testBit 2 then skipExtra bytes else some bytes
  let bytes ← if flags.testBit 3 then skipText bytes else some bytes
  let bytes ← if flags.testBit 4 then skipText bytes else some bytes
  if flags.testBit 1 then skipHeaderChecksum all bytes else return bytes

/-- The data of the member that the bytes start with. -/
def decompress (bytes : List UInt8) : Option (List UInt8) := do
  let (data, bits) ← inflate (bitsOf (← skipHeader bytes))
  let (trailer, _) ← takeBytes 8 (alignBits bits)
  let isIntact := littleEndian (trailer.take 4) = (checksum data).toNat &&
    littleEndian (trailer.drop 4) = data.length % 0x100000000
  if isIntact then return data else none

end TreePath.Gzip
