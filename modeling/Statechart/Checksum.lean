/-!
# Checksums

The cyclic redundancy check CRC-32C, of thirty-two bits and least significant bit first, as eight
hexadecimal digits.
-/

namespace Statechart.Checksum

/-- The polynomial, with the coefficient of the lowest power in the highest bit. -/
def polynomial : UInt32 := 0x82F63B78

/-- Divides `count` bits out of a remainder. -/
def shift (remainder : UInt32) : Nat → UInt32
  | 0 => remainder
  | count + 1 =>
    let next := remainder >>> 1
    shift (if remainder &&& 1 = 1 then next ^^^ polynomial else next) count

/-- Takes one more byte into a remainder. -/
def push (remainder : UInt32) (byte : UInt8) : UInt32 :=
  shift (remainder ^^^ byte.toUInt32) 8

/-- The check of some bytes. -/
def ofBytes (bytes : ByteArray) : UInt32 :=
  bytes.foldl push 0xFFFFFFFF ^^^ 0xFFFFFFFF

/-- The check of a text in UTF-8, as eight hexadecimal digits. -/
def ofText (s : String) : String :=
  let digits := Nat.toDigits 16 (ofBytes s.toUTF8).toNat
  String.ofList (List.replicate (8 - digits.length) '0' ++ digits)

end Statechart.Checksum
