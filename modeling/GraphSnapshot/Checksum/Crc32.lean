/-! The cyclic redundancy check of stored payloads: 32 bits, least significant bit first, started
from all ones and inverted at the end. -/
namespace GraphSnapshot.Crc32

def polynomial : UInt32 := 0xedb88320

def shift (remainder : UInt32) : UInt32 :=
  if remainder &&& 1 = 1 then (remainder >>> 1) ^^^ polynomial else remainder >>> 1

def shifts : Nat → UInt32 → UInt32
  | 0, remainder => remainder
  | count + 1, remainder => shifts count (shift remainder)

def step (remainder : UInt32) (b : UInt8) : UInt32 := shifts 8 (remainder ^^^ b.toUInt32)

def ofBytes (bytes : List UInt8) : UInt32 := bytes.foldl step 0xffffffff ^^^ 0xffffffff

end GraphSnapshot.Crc32
