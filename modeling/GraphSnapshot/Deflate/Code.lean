import GraphSnapshot.Deflate.Bits

/-! Prefix codes given by the length of each symbol's codeword. Codewords of one length are
consecutive numbers in the order of their symbols, and follow on those of the lengths before. -/
namespace GraphSnapshot.Deflate

def maxCodeLength : Nat := 15

/-- The symbols with codewords of one, two, three and more bits, each in the order of the
codewords, up to the longest codeword. -/
structure Code where
  levels : List (Array Nat)

namespace Code

/-- Even a code without codewords has a level of one bit, so it takes a bit to find that nothing
starts with it. -/
def ofLengths (lengths : List Nat) : Code :=
  ⟨(List.range' 1 (lengths.foldl max 1)).map fun length =>
    (lengths.zipIdx.filterMap fun (l, symbol) => if l = length then some symbol else none).toArray⟩

def weight : List Nat → Nat
  | [] => 0
  | length :: rest =>
    (if length = 0 then 0 else 1 <<< (maxCodeLength - length)) + weight rest

def isComplete (lengths : List Nat) : Bool := weight lengths = 1 <<< maxCodeLength

/-- Whether literal or distance codes may have these lengths: a code that does not use up every
string has no codeword, or a single one of one bit. -/
def isUsable (lengths : List Nat) : Bool :=
  isComplete lengths || lengths.filter (0 < ·) ∈ [[], [1]]

/-- `above` is how far the bits so far stand, as a number, above the codewords of their length.
Below the last level no codeword is left. -/
def walk : List (Array Nat) → Nat → Bits → Except StreamFault (Nat × Bits)
  | [], _, _ => .error .corrupt
  | level :: deeper, above, s => do
    let (bit, s) ← s.next
    let index := 2 * above + bit.toNat
    match level[index]? with
    | some symbol => return (symbol, s)
    | none => walk deeper (index - level.size) s

def decode (code : Code) (s : Bits) : Except StreamFault (Nat × Bits) := walk code.levels 0 s

/-- The codewords of a level that starts with the number `first`, and those below it. -/
def codewordsFrom : Nat → Nat → List (Array Nat) → List (Nat × List Bool)
  | _, _, [] => []
  | length, first, level :: deeper =>
    level.toList.zipIdx.map (fun (symbol, i) => (symbol, (bitsOfNat length (first + i)).reverse)) ++
      codewordsFrom (length + 1) (2 * (first + level.size)) deeper

def codewords (code : Code) : List (Nat × List Bool) := codewordsFrom 1 0 code.levels

end Code

/-- The literal code of blocks that bring none. -/
def fixedLiteralLengths : List Nat :=
  List.replicate 144 8 ++ List.replicate 112 9 ++ List.replicate 24 7 ++ List.replicate 8 8

def fixedDistanceLengths : List Nat := List.replicate 32 5

def fixedLiteralCode : Code := .ofLengths fixedLiteralLengths

def fixedDistanceCode : Code := .ofLengths fixedDistanceLengths

/-- Symbols above this one stand for lengths of copies. -/
def endOfBlock : Nat := 256

/-- The least length and the number of extra bits of each length symbol. -/
def lengthRanges : Array (Nat × Nat) :=
  #[(3, 0), (4, 0), (5, 0), (6, 0), (7, 0), (8, 0), (9, 0), (10, 0), (11, 1), (13, 1), (15, 1),
    (17, 1), (19, 2), (23, 2), (27, 2), (31, 2), (35, 3), (43, 3), (51, 3), (59, 3), (67, 4),
    (83, 4), (99, 4), (115, 4), (131, 5), (163, 5), (195, 5), (227, 5), (258, 0)]

def distanceRanges : Array (Nat × Nat) :=
  #[(1, 0), (2, 0), (3, 0), (4, 0), (5, 1), (7, 1), (9, 2), (13, 2), (17, 3), (25, 3), (33, 4),
    (49, 4), (65, 5), (97, 5), (129, 6), (193, 6), (257, 7), (385, 7), (513, 8), (769, 8),
    (1025, 9), (1537, 9), (2049, 10), (3073, 10), (4097, 11), (6145, 11), (8193, 12), (12289, 12),
    (16385, 13), (24577, 13)]

def lengthCodeOrder : List Nat :=
  [16, 17, 18, 0, 8, 7, 9, 6, 10, 5, 11, 4, 12, 3, 13, 2, 14, 1, 15]

end GraphSnapshot.Deflate
