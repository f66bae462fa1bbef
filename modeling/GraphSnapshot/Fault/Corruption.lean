import GraphSnapshot.Fault.Violation
import GraphSnapshot.Zlib

/-! Ways in which the bytes of an archive fail to be one. -/
namespace GraphSnapshot

inductive Corruption where
  | unknownFlags (flags : UInt8)
  | reservedNotZero
  | lengthOverflows
  | trailingBytes (count : Nat)
  | checksumMismatch (stated actual : UInt32)
  | packedTooShort
  | stream (fault : StreamFault)
  | inflatesPast (stated : Nat)
  | inflatesTo (actual stated : Nat)
  | recordTooDeep (limit : Nat)
  | tooManyEntries (count remaining : Nat)
  | repeatedKey (key : String)
  | truncated (offset needed : Nat)
  | invalidUtf8 (offset : Nat)
  | unknownElementTag (tag : UInt8)
  | unknownValueTag (tag : UInt8) (offset : Nat)
  | invalidBool (byte : UInt8) (offset : Nat)
  | invalidArray (violation : Violation)
deriving DecidableEq, Repr

open Text in
def Corruption.message : Corruption → String
  | .unknownFlags flags => s!"unknown header flags 0x{paddedHex 2 flags.toNat}"
  | .reservedNotZero => "reserved header bytes are not zero"
  | .lengthOverflows => "payload length overflows"
  | .trailingBytes count => s!"{count} trailing bytes after payload"
  | .checksumMismatch stated actual =>
    s!"checksum mismatch: header 0x{paddedHex 8 stated.toNat}, payload 0x{paddedHex 8 actual.toNat}"
  | .packedTooShort => "compressed payload too short"
  | .stream fault => s!"zlib: {fault.message}"
  | .inflatesPast stated => s!"stream inflates past the recorded size of {stated} bytes"
  | .inflatesTo actual stated => s!"decompressed {actual} bytes, header says {stated}"
  | .recordTooDeep limit => s!"records nested deeper than {limit}"
  | .tooManyEntries count remaining =>
    s!"record claims {count} entries but only {remaining} bytes remain"
  | .repeatedKey key => s!"duplicate key {quoted key} in payload"
  | .truncated offset needed => s!"payload truncated at offset {offset} (need {needed} bytes)"
  | .invalidUtf8 offset => s!"invalid UTF-8 at offset {offset}"
  | .unknownElementTag tag => s!"unknown data type tag {tag.toNat}"
  | .unknownValueTag tag offset => s!"unknown value tag {tag.toNat} at offset {offset}"
  | .invalidBool byte offset => s!"invalid bool byte {byte.toNat} at offset {offset}"
  | .invalidArray violation => s!"Schema violation: {violation.message}"

end GraphSnapshot
