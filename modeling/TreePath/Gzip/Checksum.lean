/-! # The checksum of gzip

The cyclic redundancy check of 32 bits with the reflected polynomial `0xEDB88320`: the register
starts and ends complemented, and bits enter it from the lowest on. -/

namespace TreePath.Gzip

/-- One bit shifted through the register. -/
def shiftRegister (r : UInt32) : UInt32 :=
  if r &&& 1 = 1 then (r >>> 1) ^^^ 0xEDB88320 else r >>> 1

/-- One byte entered into the register. -/
def enterByte (r : UInt32) (b : UInt8) : UInt32 :=
  Nat.repeat shiftRegister 8 (r ^^^ b.toUInt32)

/-- The checksum of bytes. -/
def checksum (bytes : List UInt8) : UInt32 :=
  (bytes.foldl enterByte 0xFFFFFFFF) ^^^ 0xFFFFFFFF

end TreePath.Gzip
