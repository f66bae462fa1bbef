/-! Zlib streams. How content is compressed is left open: packing is described for every compressor. -/
namespace GraphSnapshot

inductive StreamFault where
  /-- The bytes end before the stream does. -/
  | incomplete
  /-- The stream breaks a rule of its format. -/
  | corrupt
deriving DecidableEq, Repr

def StreamFault.message : StreamFault → String
  | .incomplete => "incomplete deflate stream"
  | .corrupt => "corrupt deflate stream"

/-- What is read one byte after another, and what goes wrong behind the last of them, if anything. -/
structure ByteStream where
  bytes : List UInt8
  fault? : Option StreamFault := none
deriving DecidableEq, Repr

namespace ByteStream

/-- The stream up to a limit. What stands behind the limit is not looked at. -/
def take (limit : Nat) (s : ByteStream) : ByteStream :=
  if limit ≤ s.bytes.length then ⟨s.bytes.take limit, none⟩ else s

def readToEnd (s : ByteStream) : Except StreamFault (List UInt8) :=
  match s.fault? with
  | none => .ok s.bytes
  | some fault => .error fault

end ByteStream

inductive Effort where
  | fast
  | balanced
  | best
deriving DecidableEq, Repr

class Zlib where
  deflate : Effort → List UInt8 → List UInt8
  /-- The content of the stream in front of the data. -/
  inflate : List UInt8 → ByteStream

/-- The method is deflate with a window of at most 32 KiB, no dictionary is preset, and the two bytes
as a number are a multiple of 31. -/
def Zlib.isHeader (method flags : UInt8) : Bool :=
  (method.toNat * 256 + flags.toNat) % 31 = 0 && method.toNat % 16 = 8 && method.toNat / 16 ≤ 7 &&
    !flags.toNat.testBit 5

end GraphSnapshot
