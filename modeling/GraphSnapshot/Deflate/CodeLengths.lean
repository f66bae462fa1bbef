import GraphSnapshot.Deflate.Code

/-! Code lengths from how often each symbol occurs. The two rarest groups of symbols are joined again
and again, and each join makes the codewords of both groups one bit longer. -/
namespace GraphSnapshot.Deflate

/-- Symbols with the lengths of their codewords so far, and how often they occur together. -/
structure Group where
  weight : Nat
  members : List (Nat × Nat)

namespace Group

def join (a b : Group) : Group :=
  ⟨a.weight + b.weight, (a.members ++ b.members).map fun (symbol, length) => (symbol, length + 1)⟩

def insert (group : Group) : List Group → List Group
  | [] => [group]
  | first :: rest =>
    if group.weight ≤ first.weight then group :: first :: rest else first :: insert group rest

def joinAll : Nat → List Group → List (Nat × Nat)
  | steps + 1, a :: b :: rest => joinAll steps (insert (join a b) rest)
  | _, groups => groups.flatMap Group.members

end Group

/-- The lengths that use up the fewest bits. A symbol that is alone still gets one bit. -/
def shortestLengths (frequencies : List Nat) : List Nat :=
  let used := frequencies.zipIdx.filter fun (frequency, _) => 0 < frequency
  let groups := used.foldl (fun groups (frequency, symbol) =>
    Group.insert ⟨frequency, [(symbol, 0)]⟩ groups) []
  let lengths := Group.joinAll groups.length groups
  (List.range frequencies.length).map fun symbol =>
    match lengths.lookup symbol with
    | some length => max 1 length
    | none => 0

/-- Lengths of at most `limit` bits. As long as they are too long, rare symbols are taken for less
rare. -/
def boundedLengths (limit : Nat) : Nat → List Nat → List Nat
  | 0, frequencies => shortestLengths frequencies
  | steps + 1, frequencies =>
    let lengths := shortestLengths frequencies
    if lengths.all (· ≤ limit) then lengths
    else boundedLengths limit steps (frequencies.map fun frequency => (frequency + 1) / 2)

def frequencies (count : Nat) (symbols : List Nat) : List Nat :=
  (symbols.foldl (fun table symbol => table.modify symbol (· + 1)) (Array.replicate count 0)).toList

end GraphSnapshot.Deflate
