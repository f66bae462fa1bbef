import GraphSnapshot.Bytes
import GraphSnapshot.Checksum.Adler32
import GraphSnapshot.Deflate.Inflate

/-! Zlib streams: two bytes of header, a deflate stream, and the Adler-32 checksum of the content,
highest byte first. -/
namespace GraphSnapshot.Deflate

def readZlib (data : List UInt8) : Inflating Unit := do
  let (method, s) ← (Bits.ofBytes data).byte
  let (flags, s) ← s.byte
  if !Zlib.isHeader method flags then throw .corrupt
  let s ← inflate s
  let (b3, s) ← s.align.byte
  let (b2, s) ← s.byte
  let (b1, s) ← s.byte
  let (b0, _) ← s.byte
  let content := (← get).toList
  if Adler32.ofBytes content ≠ Bytes.toNat [b0, b1, b2, b3] then throw .corrupt

def inflateZlib (data : List UInt8) : ByteStream :=
  match (readZlib data).run.run #[] with
  | (.ok (), out) => ⟨out.toList, none⟩
  | (.error fault, out) => ⟨out.toList, some fault⟩

end GraphSnapshot.Deflate
