import GraphSnapshot.Deflate.Code
import Std.Data.HashMap

/-! Content as literals and copies. Each copy repeats what stands up to 32 KiB before it. -/
namespace GraphSnapshot.Deflate

inductive Token where
  | literal (b : UInt8)
  | copy (length distance : Nat)
deriving Repr

def maxCopyLength : Nat := 258

def maxDistance : Nat := 32768

/-- Positions at which three given bytes have been seen, latest first. -/
abbrev Seen := Std.HashMap Nat (List Nat)

def tripleAt (data : Array UInt8) (i : Nat) : Nat :=
  ((data.getD i 0).toNat * 256 + (data.getD (i + 1) 0).toNat) * 256 + (data.getD (i + 2) 0).toNat

def Seen.add (seen : Seen) (data : Array UInt8) (i : Nat) : Seen :=
  seen.alter (tripleAt data i) fun positions => some (i :: positions.getD [])

/-- How far two positions agree, up to a bound. -/
def agreement (data : Array UInt8) : Nat → Nat → Nat → Nat
  | 0, _, _ => 0
  | bound + 1, i, j =>
    if i < data.size && j < data.size && data.getD i 0 == data.getD j 0 then
      agreement data bound (i + 1) (j + 1) + 1
    else 0

def longestOf (data : Array UInt8) (i : Nat) : List Nat → Nat × Nat → Nat × Nat
  | [], best => best
  | j :: rest, best =>
    if best.1 = maxCopyLength then best
    else
      let length := agreement data maxCopyLength j i
      longestOf data i rest (if best.1 < length then (length, i - j) else best)

def longestCopy (data : Array UInt8) (seen : Seen) (effort i : Nat) : Nat × Nat :=
  let candidates := ((seen.getD (tripleAt data i) []).take effort).filter fun j =>
    i - j ≤ maxDistance
  longestOf data i candidates (0, 0)

def tokensFrom (data : Array UInt8) (effort : Nat) : Nat → Nat → Seen → Array Token → Array Token
  | 0, _, _, tokens => tokens
  | fuel + 1, i, seen, tokens =>
    match data[i]? with
    | none => tokens
    | some b =>
      let (length, distance) := longestCopy data seen effort i
      if length < 3 then tokensFrom data effort fuel (i + 1) (seen.add data i) (tokens.push (.literal b))
      else
        let seen := (List.range length).foldl (fun seen step => seen.add data (i + step)) seen
        tokensFrom data effort fuel (i + length) seen (tokens.push (.copy length distance))

/-- The data as tokens. More effort looks at more candidates for each copy. -/
def tokens (effort : Nat) (data : Array UInt8) : List Token :=
  (tokensFrom data effort data.size 0 {} #[]).toList

end GraphSnapshot.Deflate
