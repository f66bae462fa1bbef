import GraphSnapshot.Payload.Encoding
import GraphSnapshot.Payload.Reader

/-! Reading payloads. Everything that the encoding could not have written is refused. -/
namespace GraphSnapshot.Payload
open Reader

/-- The bytes of an entry with an empty key and a truth value, the smallest there is. -/
def minEntrySize : Nat := 10

def entriesFit (count remaining : Nat) : Bool := count ≤ remaining / minEntrySize

def readArray : Reader NumericArray := do
  let tag ← byte
  let some elements := ElementType.ofTag? tag | throw (.unknownElementTag tag)
  let rank ← byte
  let dims ← words rank.toNat
  let length ← word
  let bytes ← take length
  match NumericArray.new elements ⟨dims⟩ bytes with
  | .ok a => return a
  | .error violation => throw (.invalidArray violation)

/-- `count` more entries, after those seen already. -/
def readEntries (readValue : Reader Value) : Nat → Record → Reader Record
  | 0, seen => return seen
  | count + 1, seen => do
    let key ← text
    if seen.contains key then throw (.repeatedKey key)
    let value ← readValue
    readEntries readValue count (seen ++ [(key, value)])

/-- A record, given a reader for its values and a check on its number of entries that takes the
number and the remaining bytes. -/
def readRecord (check : Nat → Nat → Bool) (readValue : Reader Value) : Reader Record := do
  let count ← word
  let left ← remaining
  if check count left then readEntries readValue count []
  else throw (.tooManyEntries count left)

/-- A value in a record that may still hold `room` levels of records. -/
def readValue (check : Nat → Nat → Bool) (room : Nat) : Reader Value := do
  let start ← position
  let tag ← byte
  match tag.toNat with
  | 0 =>
    match ← byte with
    | 0 => return .bool false
    | 1 => return .bool true
    | b => throw (.invalidBool b (start + 1))
  | 1 => return .int (UInt64.ofNat (← word)).toInt64
  | 2 => return .float (UInt64.ofNat (← word))
  | 3 => return .string (← text)
  | 4 => return .array (← readArray)
  | 5 =>
    match room with
    | 0 => throw (.recordTooDeep maxDepth)
    | room + 1 => return .record (← readRecord check (readValue check room))
  | _ => throw (.unknownValueTag tag start)

def readAll (check : Nat → Nat → Bool) (data : List UInt8) : Except Corruption Record := do
  let (record, cursor) ← readRecord check (readValue check maxDepth) ⟨data, 0⟩
  if cursor.rest.isEmpty then return record
  else throw (.trailingBytes cursor.rest.length)

def decode (data : List UInt8) : Except Corruption Record := readAll entriesFit data

end GraphSnapshot.Payload
