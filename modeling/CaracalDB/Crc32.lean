import Mathlib.Algebra.GroupWithZero.Nat

/-!
# The CRC-32 checksum of zlib

The reflected polynomial `0xEDB88320`, an all-ones start and a final complement.
One byte is mixed into the low eight bits and shifted out bit by bit. The
checksum is a function of the bytes alone and always fits four bytes; no
collision resistance is claimed.
-/

namespace CaracalDB.Crc32

/-- The reflected generator polynomial. -/
def polynomial : BitVec 32 := 0xEDB88320#32

/-- Shift out the low bit; a set bit adds the polynomial. -/
def bitStep (register : BitVec 32) : BitVec 32 :=
  if register.getLsbD 0 then (register >>> 1) ^^^ polynomial else register >>> 1

/-- Shift out a given number of bits. -/
def bitSteps : Nat → BitVec 32 → BitVec 32
  | 0, register => register
  | count + 1, register => bitSteps count (bitStep register)

/-- Mix one byte into the register. -/
def byteStep (register : BitVec 32) (byte : UInt8) : BitVec 32 :=
  bitSteps 8 (register ^^^ byte.toBitVec.setWidth 32)

/-- The checksum of a byte string as an unsigned 32-bit number. -/
def crc32 (bytes : List UInt8) : Nat :=
  (~~~ (bytes.foldl byteStep (BitVec.allOnes 32))).toNat

/-- A checksum fits a four-byte word. -/
theorem crc32_bound (bytes : List UInt8) : crc32 bytes < 256 ^ 4 :=
  (~~~ (bytes.foldl byteStep (BitVec.allOnes 32))).isLt

/-- The standard check value of the nine ASCII digits. -/
example : crc32 [0x31, 0x32, 0x33, 0x34, 0x35, 0x36, 0x37, 0x38, 0x39] = 0xCBF43926 := by
  decide +kernel

end CaracalDB.Crc32
