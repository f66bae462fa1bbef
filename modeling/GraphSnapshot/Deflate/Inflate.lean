import GraphSnapshot.Deflate.Code

/-! Reading deflate streams. The content grows in an array, and what has been read of it stays if the
stream turns out to be faulty. Every step takes bits, so the number of bits bounds the number of
steps. -/
namespace GraphSnapshot.Deflate

abbrev Inflating (α : Type) := ExceptT StreamFault (StateM (Array UInt8)) α

def emit (b : UInt8) : Inflating Unit := modify fun out => out.push b

/-- The byte `distance` back. Zeros stand before the first byte of the content. -/
def lookBack (out : Array UInt8) (distance : Nat) : UInt8 :=
  if distance ≤ out.size then out.getD (out.size - distance) 0 else 0

/-- Appends `length` bytes, each a copy of the one `distance` before it. -/
def copy (distance : Nat) : Nat → Inflating Unit
  | 0 => return
  | length + 1 => do
    modify fun out => out.push (lookBack out distance)
    copy distance length

def inflateStored : Nat → Bits → Inflating Bits
  | 0, s => return s
  | count + 1, s => do
    let (b, s) ← s.byte
    emit b
    inflateStored count s

def ranged (ranges : Array (Nat × Nat)) (symbol : Nat) (s : Bits) :
    Except StreamFault (Nat × Bits) :=
  match ranges[symbol]? with
  | none => .error .corrupt
  | some (least, extra) => do
    let (more, s) ← s.number extra
    return (least + more, s)

/-- Symbols up to the end of the block, at most `fuel` of them. -/
def inflateSymbols (literals distances : Code) : Nat → Bits → Inflating Bits
  | 0, _ => throw .incomplete
  | fuel + 1, s => do
    let (symbol, s) ← literals.decode s
    if symbol < endOfBlock then
      emit (UInt8.ofNat symbol)
      inflateSymbols literals distances fuel s
    else if symbol = endOfBlock then return s
    else
      let (length, s) ← ranged lengthRanges (symbol - (endOfBlock + 1)) s
      let (symbol, s) ← distances.decode s
      let (distance, s) ← ranged distanceRanges symbol s
      copy distance length
      inflateSymbols literals distances fuel s

/-- A list of `total` code lengths, of which some have been read. Three symbols repeat: the length
before, or zero for two ranges of counts. -/
def readLengths (code : Code) (total : Nat) : Nat → Array Nat → Bits →
    Except StreamFault (List Nat × Bits)
  | 0, _, _ => .error .corrupt
  | fuel + 1, lengths, s =>
    if lengths.size = total then .ok (lengths.toList, s)
    else if total < lengths.size then .error .corrupt
    else do
      let (symbol, s) ← code.decode s
      if symbol < 16 then readLengths code total fuel (lengths.push symbol) s
      else if symbol = 16 then
        match lengths.back? with
        | none => throw .corrupt
        | some last =>
          let (more, s) ← s.number 2
          readLengths code total fuel (lengths ++ Array.replicate (3 + more) last) s
      else if symbol = 17 then
        let (more, s) ← s.number 3
        readLengths code total fuel (lengths ++ Array.replicate (3 + more) 0) s
      else
        let (more, s) ← s.number 7
        readLengths code total fuel (lengths ++ Array.replicate (11 + more) 0) s

def readShortLengths : Nat → Bits → Except StreamFault (List Nat × Bits)
  | 0, s => .ok ([], s)
  | count + 1, s => do
    let (first, s) ← s.number 3
    let (others, s) ← readShortLengths count s
    return (first :: others, s)

/-- The literal and the distance code that a block brings with it. -/
def readCodes (s : Bits) : Except StreamFault (Code × Code × Bits) := do
  let (literalCount, s) ← s.number 5
  let (distanceCount, s) ← s.number 5
  let (shortCount, s) ← s.number 4
  let literalCount := literalCount + 257
  let distanceCount := distanceCount + 1
  if 286 < literalCount ∨ 30 < distanceCount then throw .corrupt
  let (short, s) ← readShortLengths (shortCount + 4) s
  let short := (List.range 19).map fun symbol =>
    ((lengthCodeOrder.zip short).lookup symbol).getD 0
  if !Code.isComplete short then throw .corrupt
  let total := literalCount + distanceCount
  let (lengths, s) ← readLengths (.ofLengths short) total (total + 1) #[] s
  let literals := lengths.take literalCount
  let distances := lengths.drop literalCount
  if !(Code.isUsable literals && Code.isUsable distances) then throw .corrupt
  return (.ofLengths literals, .ofLengths distances, s)

/-- One block after its final flag, by its type, with at most `fuel` symbols. -/
def inflateBlock (fuel type : Nat) (s : Bits) : Inflating Bits :=
  match type with
  | 0 => do
    let (length, s) ← s.align.number 16
    let (inverse, s) ← s.number 16
    if length + inverse ≠ 0xffff then throw .corrupt
    inflateStored length s
  | 1 => inflateSymbols fixedLiteralCode fixedDistanceCode fuel s
  | 2 => do
    let (literals, distances, s) ← readCodes s
    inflateSymbols literals distances fuel s
  | _ => throw .corrupt

/-- Blocks up to the final one. As long as the fuel covers the bits that are left, it runs out only
where the bits do. -/
def inflateBlocks : Nat → Bits → Inflating Bits
  | 0, _ => throw .incomplete
  | fuel + 1, s => do
    let (final, s) ← s.next
    let (type, s) ← s.number 2
    let s ← inflateBlock fuel type s
    if final then return s else inflateBlocks fuel s

/-- Reads the stream in front of `s` and gives what follows it. -/
def inflate (s : Bits) : Inflating Bits := inflateBlocks (s.size + 1) s

end GraphSnapshot.Deflate
