import GraphSnapshot.Graph.Validity

/-! Graphs from lists of edges, by counting. The number of edges of each source gives its offset, and
then each target goes into the next free place of its source, so the edges of a source keep their
order. Every access to an array is checked, and one outside of it ends the work. -/
namespace GraphSnapshot.Graph

/-- A word as a place in an array. Negative words are places far outside. -/
def placeOf (word : Int64) : Nat := word.toUInt64.toNat

def cellAt (cells : Array Int64) (place : Nat) : Except Violation Int64 :=
  match cells[place]? with
  | some word => .ok word
  | none => .error (.outOfBounds place cells.size)

def setCell (cells : Array Int64) (place : Nat) (word : Int64) :
    Except Violation (Array Int64) :=
  if place < cells.size then .ok (cells.setIfInBounds place word)
  else .error (.outOfBounds place cells.size)

/-- Counts an edge in the place behind that of its source. -/
def countEdge (nodes : Nat) (offsets : Array Int64) (edge : Int64 × Int64) :
    Except Violation (Array Int64) := do
  if !(counts edge.1 nodes && counts edge.2 nodes) then throw (.edgeOutside edge.1 edge.2 nodes)
  let place := placeOf edge.1 + 1
  setCell offsets place ((← cellAt offsets place) + 1)

def sumAt (offsets : Array Int64) (place : Nat) : Except Violation (Array Int64) := do
  let before ← cellAt offsets (place - 1)
  setCell offsets place ((← cellAt offsets place) + before)

/-- Targets put in place so far, and the next free place of each source. -/
structure Placement where
  next : Array Int64
  targets : Array Int64

def Placement.add (p : Placement) (edge : Int64 × Int64) : Except Violation Placement := do
  let place ← cellAt p.next (placeOf edge.1)
  let targets ← setCell p.targets (placeOf place) edge.2
  let next ← setCell p.next (placeOf edge.1) (place + 1)
  return ⟨next, targets⟩

def firstCells (cells : Array Int64) (count : Nat) : Except Violation (Array Int64) :=
  if count ≤ cells.size then .ok (cells.extract 0 count)
  else .error (.outOfBounds count cells.size)

def ofEdges (nodes : Nat) (edges : List (Int64 × Int64)) : Except Violation Graph := do
  let counted ← edges.foldlM (countEdge nodes) (Array.replicate (nodes + 1) 0)
  let offsets ← (List.range' 1 (counted.size - 1)).foldlM sumAt counted
  let next ← firstCells offsets nodes
  let placed ← edges.foldlM Placement.add ⟨next, Array.replicate edges.length 0⟩
  new offsets.toList placed.targets.toList

end GraphSnapshot.Graph
