import GraphSnapshot.Bytes
import GraphSnapshot.Checksum.Crc32
import GraphSnapshot.Fault
import GraphSnapshot.Version

/-! The header of an archive: 24 bytes in front of the stored payload.

    0  magic        4 bytes
    4  version      2 bytes
    6  flags        1 byte, bit 0 for a compressed payload
    7  reserved     1 byte
    8  length       8 bytes, of the stored payload
    16 checksum     4 bytes, of the stored payload
    20 reserved     4 bytes
-/
namespace GraphSnapshot

structure Header where
  formatVersion : UInt16
  compressed : Bool
  payloadLength : UInt64
  checksum : UInt32
deriving DecidableEq, Repr

namespace Header

/-- The bytes of the word GRAR. -/
def magic : List UInt8 := [0x47, 0x52, 0x41, 0x52]

def size : Nat := 24

def forPayload (stored : List UInt8) (compressed : Bool) : Header :=
  { formatVersion := currentVersion
    compressed
    payloadLength := UInt64.ofNat stored.length
    checksum := Crc32.ofBytes stored }

/-- The length of header and payload, if it is still a word. -/
def totalLength? (h : Header) : Option Nat :=
  let total := h.payloadLength.toNat + size
  if total < wordLimit then some total else none

def toBytes (h : Header) : List UInt8 :=
  magic ++ Bytes.ofNat 2 h.formatVersion.toNat ++ [if h.compressed then 1 else 0, 0] ++
    Bytes.ofWord h.payloadLength ++ Bytes.ofNat 4 h.checksum.toNat ++ [0, 0, 0, 0]

@[simp] theorem length_toBytes (h : Header) : h.toBytes.length = size := by
  simp [toBytes, magic, size]

/-- The number in the `count` bytes at an offset. -/
def number (data : List UInt8) (offset count : Nat) : Nat :=
  Bytes.toNat ((data.drop offset).take count)

def parse (data : List UInt8) : Except Fault Header := do
  if (data.take size).length < size then throw (.unexpectedEnd data.length)
  if data.take 4 ≠ magic then throw .invalidMagic
  let version := number data 4 2
  if version ≠ currentVersion.toNat then throw (.unsupportedVersion version)
  let flags := number data 6 1
  if 1 < flags then throw (.corrupt (.unknownFlags (UInt8.ofNat flags)))
  if number data 7 1 ≠ 0 ∨ number data 20 4 ≠ 0 then throw (.corrupt .reservedNotZero)
  return {
    formatVersion := UInt16.ofNat version
    compressed := flags = 1
    payloadLength := UInt64.ofNat (number data 8 8)
    checksum := UInt32.ofNat (number data 16 4) }

end Header
end GraphSnapshot
