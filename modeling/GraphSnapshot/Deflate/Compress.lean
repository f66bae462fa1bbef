import GraphSnapshot.Deflate.CodeLengths
import GraphSnapshot.Deflate.Token
import GraphSnapshot.Deflate.Zlib

/-! Writing zlib streams. The content is one block, with the fixed codes or with codes made for it,
whichever is shorter. -/
namespace GraphSnapshot.Deflate

/-- A symbol and the extra bits after it. -/
structure Coded where
  symbol : Nat
  extra : List Bool

/-- The symbol of the range that a number falls into. -/
def rangeSymbol (ranges : Array (Nat × Nat)) (n : Nat) : Coded :=
  let symbol := (ranges.toList.takeWhile fun range => range.1 ≤ n).length - 1
  let (least, extra) := ranges.getD symbol (0, 0)
  ⟨symbol, bitsOfNat extra (n - least)⟩

namespace Token

def literalSymbol : Token → Coded
  | .literal b => ⟨b.toNat, []⟩
  | .copy length _ =>
    let coded := rangeSymbol lengthRanges length
    { coded with symbol := coded.symbol + endOfBlock + 1 }

def distanceSymbol? : Token → Option Coded
  | .literal _ => none
  | .copy _ distance => some (rangeSymbol distanceRanges distance)

end Token

abbrev Codewords := Array (List Bool)

def Code.table (lengths : List Nat) : Codewords :=
  (Code.ofLengths lengths).codewords.foldl (fun table (symbol, word) => table.setIfInBounds symbol word)
    (Array.replicate lengths.length [])

def Coded.bits (table : Codewords) (coded : Coded) : List Bool :=
  table.getD coded.symbol [] ++ coded.extra

def contentBits (literals distances : Codewords) (tokens : List Token) : List Bool :=
  tokens.flatMap (fun token => token.literalSymbol.bits literals ++
    (match token.distanceSymbol? with
      | some coded => coded.bits distances
      | none => [])) ++
    literals.getD endOfBlock []

def fixedBlock (tokens : List Token) : List Bool :=
  [true, true, false] ++
    contentBits (Code.table fixedLiteralLengths) (Code.table fixedDistanceLengths) tokens

/-- Code lengths as symbols of their own code: runs of one length, and of zeros, are counted. -/
def runSymbols : Nat → List Nat → List Coded
  | steps + 1, length :: rest =>
    let same := (rest.takeWhile (· = length)).length
    if length = 0 ∧ 10 ≤ same then
      let run := min 138 (same + 1)
      ⟨18, bitsOfNat 7 (run - 11)⟩ :: runSymbols steps ((length :: rest).drop run)
    else if length = 0 ∧ 2 ≤ same then
      ⟨17, bitsOfNat 3 (same + 1 - 3)⟩ :: runSymbols steps (rest.drop same)
    else if 3 ≤ same then
      let run := min 6 same
      ⟨length, []⟩ :: ⟨16, bitsOfNat 2 (run - 3)⟩ :: runSymbols steps (rest.drop run)
    else ⟨length, []⟩ :: runSymbols steps rest
  | _, _ => []

/-- The last block, with codes made for its tokens. The code for code lengths takes in two symbols
that may not occur, since it has to have two. -/
def customBlock (tokens : List Token) : List Bool :=
  let literalLengths := boundedLengths maxCodeLength 16
    (frequencies 286 (endOfBlock :: tokens.map fun token => token.literalSymbol.symbol))
  let distanceLengths := boundedLengths maxCodeLength 16
    (frequencies 30 (tokens.filterMap fun token => token.distanceSymbol?.map Coded.symbol))
  let runs := runSymbols 316 (literalLengths ++ distanceLengths)
  let short := boundedLengths 7 16 (frequencies 19 (0 :: 18 :: runs.map Coded.symbol))
  [true, false, true] ++ bitsOfNat 5 (286 - 257) ++ bitsOfNat 5 (30 - 1) ++ bitsOfNat 4 (19 - 4) ++
    lengthCodeOrder.flatMap (fun symbol => bitsOfNat 3 (short.getD symbol 0)) ++
    runs.flatMap (Coded.bits (Code.table short)) ++
    contentBits (Code.table literalLengths) (Code.table distanceLengths) tokens

/-- With at most so many candidates for each copy. -/
def deflate (candidates : Nat) (data : List UInt8) : List UInt8 :=
  let tokens := tokens candidates data.toArray
  let fixed := packBits (fixedBlock tokens)
  let custom := packBits (customBlock tokens)
  if custom.length < fixed.length then custom else fixed

def zlib (candidates : Nat) (data : List UInt8) : List UInt8 :=
  [0x78, 0x9c] ++ deflate candidates data ++ (Bytes.ofNat 4 (Adler32.ofBytes data)).reverse

def candidates : Effort → Nat
  | .fast => 8
  | .balanced => 32
  | .best => 256

instance : Zlib where
  deflate effort data := zlib (candidates effort) data
  inflate := inflateZlib

end GraphSnapshot.Deflate
