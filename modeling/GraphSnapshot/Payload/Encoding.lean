import GraphSnapshot.Text.Utf8
import GraphSnapshot.Value

/-! Payloads: the entries of the top record as bytes. A record is its number of entries and then each
key with its value; a value is a tag and then its content. Words are little-endian, and every
text and array states its length in front. -/
namespace GraphSnapshot.Payload

/-- Records stand inside at most this many others. -/
def maxDepth : Nat := 64

def kindTag : Kind → UInt8
  | .bool => 0
  | .int => 1
  | .float => 2
  | .string => 3
  | .array => 4
  | .record => 5

def encodeString (s : String) : List UInt8 :=
  let bytes := Text.utf8 s
  Bytes.ofLength bytes.length ++ bytes

/-- The rank takes one byte. -/
def encodeArray (a : NumericArray) : Except Violation (List UInt8) :=
  if a.shape.rank ≤ 255 then
    .ok (a.elementType.tag :: UInt8.ofNat a.shape.rank ::
      (a.shape.dims.flatMap Bytes.ofWord ++ Bytes.ofLength a.bytes.length ++ a.bytes))
  else .error (.rankTooLarge a.shape.rank)

mutual
/-- A value in a record that may still hold `room` levels of records. -/
def encodeValue (room : Nat) : Value → Except Violation (List UInt8)
  | .bool b => .ok [kindTag .bool, if b then 1 else 0]
  | .int i => .ok (kindTag .int :: Bytes.ofWord i.toUInt64)
  | .float bits => .ok (kindTag .float :: Bytes.ofWord bits)
  | .string s => .ok (kindTag .string :: encodeString s)
  | .array a => do return kindTag .array :: (← encodeArray a)
  | .record entries =>
    match room with
    | 0 => .error (.recordTooDeep maxDepth)
    | room + 1 => do
      let body ← encodeEntries room entries
      return kindTag .record :: (Bytes.ofLength entries.length ++ body)

def encodeEntries (room : Nat) : List (String × Value) → Except Violation (List UInt8)
  | [] => .ok []
  | (key, value) :: rest => do
    let front ← encodeValue room value
    let back ← encodeEntries room rest
    return encodeString key ++ front ++ back
end

def encode (record : Record) : Except Violation (List UInt8) := do
  let body ← encodeEntries maxDepth record
  return Bytes.ofLength record.length ++ body

end GraphSnapshot.Payload
