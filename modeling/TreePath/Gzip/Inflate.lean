import TreePath.Gzip.Huffman

/-! # Compressed data

Compressed data is a list of bits, the lowest bit of each byte first. It consists of blocks, the
last of which is marked: bytes as they are, or symbols of two prefix codes, which are fixed or come
with the block. A symbol is a byte, the end of the block, or the length of a copy of bytes before; a
distance tells how far before.

* `inflate`: the bytes of compressed data, with the bits behind it. -/

namespace TreePath.Gzip

/-- Bits of bytes, the lowest first. -/
def bitsOf (bytes : List UInt8) : List Bool :=
  bytes.flatMap fun b => (List.range 8).map fun i => b.toNat.testBit i

/-- The number that bits denote, the lowest first. -/
def bitsValue : List Bool → Nat
  | [] => 0
  | b :: bs => b.toNat + 2 * bitsValue bs

/-- The number of the first `n` bits, with the bits behind them. -/
def takeBits (n : Nat) (bits : List Bool) : Option (Nat × List Bool) :=
  let taken := bits.take n
  if taken.length = n then some (bitsValue taken, bits.drop n) else none

/-- The bits from the next byte on; bits end with a byte. -/
def alignBits (bits : List Bool) : List Bool := bits.drop (bits.length % 8)

/-- The next `n` bytes of aligned bits, with the bits behind them. -/
def takeBytes : Nat → List Bool → Option (List UInt8 × List Bool)
  | 0, bits => some ([], bits)
  | n + 1, bits => do
    let (b, bits) ← takeBits 8 bits
    let (rest, bits) ← takeBytes n bits
    return (UInt8.ofNat b :: rest, bits)

/-! ### Symbols -/

/-- For each symbol of a length, the shortest length and how many bits are added to it. -/
def lengthTable : List (Nat × Nat) :=
  [(3, 0), (4, 0), (5, 0), (6, 0), (7, 0), (8, 0), (9, 0), (10, 0), (11, 1), (13, 1), (15, 1),
    (17, 1), (19, 2), (23, 2), (27, 2), (31, 2), (35, 3), (43, 3), (51, 3), (59, 3), (67, 4),
    (83, 4), (99, 4), (115, 4), (131, 5), (163, 5), (195, 5), (227, 5), (258, 0)]

/-- For each symbol of a distance, the shortest distance and how many bits are added to it. -/
def distanceTable : List (Nat × Nat) :=
  [(1, 0), (2, 0), (3, 0), (4, 0), (5, 1), (7, 1), (9, 2), (13, 2), (17, 3), (25, 3), (33, 4),
    (49, 4), (65, 5), (97, 5), (129, 6), (193, 6), (257, 7), (385, 7), (513, 8), (769, 8),
    (1025, 9), (1537, 9), (2049, 10), (3073, 10), (4097, 11), (6145, 11), (8193, 12), (12289, 12),
    (16385, 13), (24577, 13)]

/-- A number given by a symbol and the bits that follow it. -/
def readExtra (table : List (Nat × Nat)) (symbol : Nat) (bits : List Bool) :
    Option (Nat × List Bool) := do
  let (base, extra) ← table[symbol]?
  let (n, bits) ← takeBits extra bits
  return (base + n, bits)

/-- Appends a copy of `n` bytes that start `distance` before the end, byte by byte. -/
def copyBack (distance : Nat) : Nat → Array UInt8 → Array UInt8
  | 0, out => out
  | n + 1, out => copyBack distance n (out.push (out.getD (out.size - distance) 0))

/-- Reads symbols of a block up to its end, at most `fuel` of them. -/
def readSymbols (literals distances : Code) :
    Nat → Array UInt8 → List Bool → Option (Array UInt8 × List Bool)
  | 0, _, _ => none
  | fuel + 1, out, bits => do
    let (symbol, bits) ← literals.read bits
    if symbol < 256 then readSymbols literals distances fuel (out.push (UInt8.ofNat symbol)) bits
    else if symbol = 256 then return (out, bits)
    else
      let (n, bits) ← readExtra lengthTable (symbol - 257) bits
      let (symbol, bits) ← distances.read bits
      let (distance, bits) ← readExtra distanceTable symbol bits
      if distance > out.size then none
      readSymbols literals distances fuel (copyBack distance n out) bits

/-! ### Codes -/

/-- The lengths of the fixed code for bytes, ends and lengths. -/
def fixedLiteralLengths : List Nat :=
  List.replicate 144 8 ++ List.replicate 112 9 ++ List.replicate 24 7 ++ List.replicate 8 8

/-- The lengths of the fixed code for distances. -/
def fixedDistanceLengths : List Nat := List.replicate 32 5

/-- The order in which lengths of the code for lengths are written. -/
def lengthOrder : List Nat := [16, 17, 18, 0, 8, 7, 9, 6, 10, 5, 11, 4, 12, 3, 13, 2, 14, 1, 15]

/-- Reads `n` numbers of three bits. -/
def readThrees : Nat → List Bool → Option (List Nat × List Bool)
  | 0, bits => some ([], bits)
  | n + 1, bits => do
    let (k, bits) ← takeBits 3 bits
    let (rest, bits) ← readThrees n bits
    return (k :: rest, bits)

/-- Reads symbols of the code for lengths until there are `total` lengths, at most `fuel` of them.
The first sixteen symbols are lengths, and the others repeat the last length or a zero. -/
def readLengths (code : Code) (total : Nat) :
    Nat → List Nat → List Bool → Option (List Nat × List Bool)
  | 0, _, _ => none
  | fuel + 1, lengths, bits =>
    if lengths.length = total then some (lengths, bits)
    else if lengths.length > total then none
    else do
      let (symbol, bits) ← code.read bits
      if symbol < 16 then readLengths code total fuel (lengths ++ [symbol]) bits
      else if symbol = 16 then
        let last ← lengths.getLast?
        let (n, bits) ← takeBits 2 bits
        readLengths code total fuel (lengths ++ List.replicate (n + 3) last) bits
      else if symbol = 17 then
        let (n, bits) ← takeBits 3 bits
        readLengths code total fuel (lengths ++ List.replicate (n + 3) 0) bits
      else
        let (n, bits) ← takeBits 7 bits
        readLengths code total fuel (lengths ++ List.replicate (n + 11) 0) bits

/-- How many symbols for bytes, the end and lengths can have a code. -/
def literalBound : Nat := 286

/-- How many symbols for distances can have a code. -/
def distanceBound : Nat := 30

/-- Reads the two codes of a block. -/
def readCodes (bits : List Bool) : Option ((Code × Code) × List Bool) := do
  let (n, bits) ← takeBits 5 bits
  let (m, bits) ← takeBits 5 bits
  let literalCount := n + 257
  let distanceCount := m + 1
  if literalCount > literalBound ∨ distanceCount > distanceBound then none
  let (lengthCount, bits) ← takeBits 4 bits
  let (threes, bits) ← readThrees (lengthCount + 4) bits
  let written := lengthOrder.zip threes
  let code ← Code.ofLengths? ((List.range 19).map fun i => (written.lookup i).getD 0)
  let total := literalCount + distanceCount
  let (lengths, bits) ← readLengths code total (total + 1) [] bits
  let literals ← Code.ofLengths? (lengths.take literalCount)
  let distances ← Code.ofLengths? (lengths.drop literalCount)
  return ((literals, distances), bits)

/-! ### Blocks -/

/-- Reads bytes as they are: their number, its complement, and the bytes. -/
def readStored (out : Array UInt8) (bits : List Bool) : Option (Array UInt8 × List Bool) := do
  let (n, bits) ← takeBits 16 (alignBits bits)
  let (complement, bits) ← takeBits 16 bits
  if n + complement ≠ 0xFFFF then none
  let (bytes, bits) ← takeBytes n bits
  return (out ++ bytes, bits)

/-- Reads a block behind the bit that tells whether it is the last. A symbol takes at least one bit.
-/
def readBlock (out : Array UInt8) (bits : List Bool) : Option (Array UInt8 × List Bool) := do
  let (kind, bits) ← takeBits 2 bits
  match kind with
  | 0 => readStored out bits
  | 1 =>
    let literals ← Code.ofLengths? fixedLiteralLengths
    let distances ← Code.ofLengths? fixedDistanceLengths
    readSymbols literals distances (bits.length + 1) out bits
  | 2 =>
    let ((literals, distances), bits) ← readCodes bits
    readSymbols literals distances (bits.length + 1) out bits
  | _ => none

/-- Reads blocks up to the last, at most `fuel` of them. -/
def readBlocks : Nat → Array UInt8 → List Bool → Option (Array UInt8 × List Bool)
  | 0, _, _ => none
  | fuel + 1, out, bits => do
    let (isLast, bits) ← takeBits 1 bits
    let (out, bits) ← readBlock out bits
    if isLast = 1 then return (out, bits) else readBlocks fuel out bits

/-- The bytes that bits are compressed data of, with the bits behind it. -/
def inflate (bits : List Bool) : Option (List UInt8 × List Bool) :=
  (readBlocks (bits.length + 1) #[] bits).map fun (out, bits) => (out.toList, bits)

end TreePath.Gzip
