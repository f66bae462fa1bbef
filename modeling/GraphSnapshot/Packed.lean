import GraphSnapshot.Bytes
import GraphSnapshot.Fault.Corruption

/-! Packed payloads: the size of the content as a word, then a zlib stream with the content. -/
namespace GraphSnapshot.Packed

def effort (level : Int32) : Effort :=
  if level = 1 then .fast else if level ≤ 5 then .balanced else .best

/-- The packed form, if the level asks for one and it is shorter than the data. -/
def pack [Zlib] (data : List UInt8) (level : Int32) : Option (List UInt8) :=
  if level ≤ 0 || data.isEmpty then none
  else
    let stream := Zlib.deflate (effort level) data
    if data.length ≤ stream.length + 8 then none
    else some (Bytes.ofLength data.length ++ stream)

/-- One byte more than a size, so that reading shows whether there is one. There is no such limit for
the largest word, which stays as it is. -/
def limitFor (size : Nat) : Nat := min (size + 1) (wordLimit - 1)

def unpack [Zlib] (packed : List UInt8) : Except Corruption (List UInt8) := do
  if packed.length < 8 then throw .packedTooShort
  let size := Bytes.toNat (packed.take 8)
  let stream := (Zlib.inflate (packed.drop 8)).take (limitFor size)
  let content ← stream.readToEnd.mapError .stream
  if size < content.length then throw (.inflatesPast size)
  if content.length ≠ size then throw (.inflatesTo content.length size)
  return content

end GraphSnapshot.Packed
