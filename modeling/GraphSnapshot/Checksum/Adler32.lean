/-! The checksum at the end of a zlib stream: the sum of the bytes and the sum of all the sums on the
way, both modulo the largest prime below 65536. -/
namespace GraphSnapshot.Adler32

def modulus : Nat := 65521

structure Sums where
  bytes : Nat := 1
  sums : Nat := 0

def Sums.add (s : Sums) (b : UInt8) : Sums :=
  let bytes := (s.bytes + b.toNat) % modulus
  ⟨bytes, (s.sums + bytes) % modulus⟩

def ofBytes (data : List UInt8) : Nat :=
  let total := data.foldl Sums.add {}
  total.sums * 65536 + total.bytes

end GraphSnapshot.Adler32
