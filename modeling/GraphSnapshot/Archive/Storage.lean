import GraphSnapshot.Archive.Basic
import GraphSnapshot.Packed
import GraphSnapshot.Payload.Decoding

/-! Archives as bytes: a header and then the payload, packed if that was asked for and is shorter. -/
namespace GraphSnapshot.Archive

/-- The header and the stored payload of an archive whose writing is finished. -/
def materialize [Zlib] (a : Archive) : Except Fault (Header × List UInt8) := do
  match a.mode with
  | .reading _ => throw (.misuse .materializeWhileReading)
  | .writing options =>
    if a.depth ≠ 0 then throw (.misuse (.scopesOpen a.depth))
    let payload ← (Payload.encode a.root).mapError .violation
    match Packed.pack payload options.compressionLevel with
    | some packed => return (.forPayload packed true, packed)
    | none => return (.forPayload payload false, payload)

def toBytes [Zlib] (a : Archive) : Except Fault (List UInt8) := do
  let (header, stored) ← a.materialize
  return header.toBytes ++ stored

/-- The payload that the stored bytes behind a header stand for. -/
def payloadOf [Zlib] (header : Header) (stored : List UInt8) : Except Corruption (List UInt8) := do
  let checksum := Crc32.ofBytes stored
  if checksum ≠ header.checksum then throw (.checksumMismatch header.checksum checksum)
  if header.compressed then Packed.unpack stored else return stored

def ofBytes [Zlib] (data : List UInt8) : Except Fault Archive := do
  let header ← Header.parse data
  let some total := header.totalLength? | throw (.corrupt .lengthOverflows)
  if data.length < total then throw (.unexpectedEnd data.length)
  if total < data.length then throw (.corrupt (.trailingBytes (data.length - total)))
  let payload ← (payloadOf header (data.drop Header.size)).mapError .corrupt
  let root ← (Payload.decode payload).mapError .corrupt
  return ⟨.reading header, root, []⟩

end GraphSnapshot.Archive
