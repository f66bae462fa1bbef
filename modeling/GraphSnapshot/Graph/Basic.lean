import GraphSnapshot.Graph.Table
import GraphSnapshot.Graph.TypeIds

/-! Sampling graphs in compressed sparse form. The neighbours of a node are the targets from its
offset up to the next one. Node types are contiguous ranges of nodes, edge types stand beside the
targets; both may have names, and both nodes and edges may have attributes. What is absent differs
from what is there and empty. -/
namespace GraphSnapshot

structure Graph where
  offsets : List Int64
  targets : List Int64
  nodeRanges : Option (List Int64)
  edgeTypes : Option (List UInt8)
  nodeTypeIds : Option TypeIds
  edgeTypeIds : Option TypeIds
  nodeTable : Option Table
  edgeTable : Option Table
deriving DecidableEq

namespace Graph

def bare (offsets targets : List Int64) : Graph :=
  ⟨offsets, targets, none, none, none, none, none, none⟩

def empty : Graph := bare [0] []

def nodeCount (g : Graph) : Nat := g.offsets.length - 1

def edgeCount (g : Graph) : Nat := g.targets.length

def isHeterogeneous (g : Graph) : Bool := g.nodeRanges.isSome || g.edgeTypes.isSome

def slice (targets : Array Int64) (first last : Int64) : List Int64 :=
  (targets.extract first.toNatClampNeg last.toNatClampNeg).toList

theorem slice_toArray (targets : List Int64) (first last : Int64) :
    slice targets.toArray first last =
      (targets.drop first.toNatClampNeg).take (last.toNatClampNeg - first.toNatClampNeg) := by
  rw [slice, Array.toList_extract, List.extract_eq_take_drop]

def neighbors? (g : Graph) (node : Nat) : Option (List Int64) :=
  match g.offsets.drop node with
  | first :: last :: _ => some (slice g.targets.toArray first last)
  | _ => none

def spans (g : Graph) : List ((Int64 × Int64) × Nat) := (g.offsets.zip g.offsets.tail).zipIdx

/-- All edges in the order in which they are stored. -/
def edges (g : Graph) : List (Int64 × Int64) :=
  let targets := g.targets.toArray
  g.spans.flatMap fun (span, source) =>
    (slice targets span.1 span.2).map fun target => (Int64.ofNat source, target)

end Graph
end GraphSnapshot
