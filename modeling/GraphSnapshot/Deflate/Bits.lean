import GraphSnapshot.Zlib

/-! A deflate stream as a row of bits, the lowest bit of each byte first. -/
namespace GraphSnapshot.Deflate

/-- What is left of a stream: the rest of a byte that has been started, and the bytes after it. -/
structure Bits where
  started : List Bool
  rest : List UInt8

def bitsOfByte (b : UInt8) : List Bool := (List.range 8).map b.toNat.testBit

namespace Bits

def ofBytes (bytes : List UInt8) : Bits := ⟨[], bytes⟩

def size (s : Bits) : Nat := s.started.length + 8 * s.rest.length

def next : Bits → Except StreamFault (Bool × Bits)
  | ⟨bit :: started, rest⟩ => .ok (bit, ⟨started, rest⟩)
  | ⟨[], b :: rest⟩ => .ok (b.toNat.testBit 0, ⟨(bitsOfByte b).tail, rest⟩)
  | ⟨[], []⟩ => .error .incomplete

/-- The number in the next `count` bits, lowest bit first. -/
def number : Nat → Bits → Except StreamFault (Nat × Bits)
  | 0, s => .ok (0, s)
  | count + 1, s => do
    let (bit, s) ← s.next
    let (high, s) ← number count s
    return (bit.toNat + 2 * high, s)

def align (s : Bits) : Bits := { s with started := [] }

def byte (s : Bits) : Except StreamFault (UInt8 × Bits) :=
  match s.rest with
  | b :: rest => .ok (b, ⟨[], rest⟩)
  | [] => .error .incomplete

end Bits

/-- Bits as bytes, the last one filled up with zeros. -/
def packBits : List Bool → List UInt8
  | b0 :: b1 :: b2 :: b3 :: b4 :: b5 :: b6 :: b7 :: rest =>
    byteOf [b0, b1, b2, b3, b4, b5, b6, b7] :: packBits rest
  | [] => []
  | bits => [byteOf bits]
where
  byteOf (bits : List Bool) : UInt8 :=
    UInt8.ofNat (bits.foldr (fun bit high => bit.toNat + 2 * high) 0)

/-- The lowest `count` bits of a number, lowest first. -/
def bitsOfNat (count n : Nat) : List Bool := (List.range count).map n.testBit

end GraphSnapshot.Deflate
