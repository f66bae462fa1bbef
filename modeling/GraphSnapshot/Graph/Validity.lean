import GraphSnapshot.Graph.Basic

/-! Checks on graphs. Each stops at the first thing that is wrong. -/
namespace GraphSnapshot.Graph

/-- Whether a number counts one of `count` things. -/
def counts (v : Int64) (count : Nat) : Bool := 0 ≤ v.toInt && v.toInt < count

/-- The first place where a list decreases, with the numbers around it. Places count from `index`. -/
def decrease? : Nat → List Int64 → Option (Nat × Int64 × Int64)
  | index, before :: after :: rest =>
    if after < before then some (index, before, after) else decrease? (index + 1) (after :: rest)
  | _, _ => none

/-- Offsets start at zero, never decrease, and end at the total. -/
def checkOffsets (field : Field) (offsets : List Int64) (total : Nat) : Except Violation Unit :=
  match offsets with
  | [] => .error (.offsetsEmpty field)
  | first :: rest =>
    let last := rest.getLastD first
    if first ≠ 0 then .error (.offsetsStart field first)
    else match decrease? 1 offsets with
      | some (index, before, after) => .error (.offsetsDecrease field index before after)
      | none => if last.toInt = total then .ok () else .error (.offsetsEnd field last total)

/-- The ids of `count` names, after the ids seen already, are distinct numbers below the count. -/
def checkIds (field : Field) (count : Nat) (seen : List Int64) :
    List (String × Int64) → Except Violation Unit
  | [] => .ok ()
  | (name, id) :: rest =>
    if !counts id count then .error (.idOutside field id name count)
    else if id ∈ seen then .error (.idRepeated field id name)
    else checkIds field count (id :: seen) rest

def checkTypeIds (field : Field) (ids : TypeIds) : Except Violation Unit :=
  checkIds field ids.size [] ids.pairs

def checkTopology (g : Graph) : Except Violation Unit := do
  checkOffsets .rowOffsets g.offsets g.edgeCount
  let nodes := g.nodeCount
  match g.targets.zipIdx.find? fun (target, _) => !counts target nodes with
  | some (target, index) => throw (.targetOutside index target nodes)
  | none => return

/-- The ranges of node types cover the nodes, one range for each named type. -/
def checkNodeRanges (g : Graph) (ranges : List Int64) : Except Violation Unit := do
  checkOffsets .nodeTypeOffset ranges g.nodeCount
  if let some ids := g.nodeTypeIds then
    if ranges.length ≠ ids.size + 1 then throw (.rangesPerType ranges.length ids.size)

/-- Every edge has a type, and if types are named, a named one. -/
def checkEdgeTypes (g : Graph) (types : List UInt8) : Except Violation Unit := do
  if types.length ≠ g.edgeCount then throw (.typesPerEdge types.length g.edgeCount)
  if let some ids := g.edgeTypeIds then
    let count := ids.size
    if let some type := types.find? fun type => count ≤ type.toNat then
      throw (.edgeTypeOutside type count)

def validate (g : Graph) : Except Violation Unit := do
  g.checkTopology
  g.nodeTypeIds.forM (checkTypeIds .nodeTypeToId)
  g.edgeTypeIds.forM (checkTypeIds .edgeTypeToId)
  g.nodeRanges.forM g.checkNodeRanges
  g.edgeTypes.forM g.checkEdgeTypes
  g.nodeTable.forM fun table => table.checkRows g.nodeCount .node
  g.edgeTable.forM fun table => table.checkRows g.edgeCount .edge

def validated (g : Graph) : Except Violation Graph := do
  g.validate
  return g

def new (offsets targets : List Int64) : Except Violation Graph := do
  let g := bare offsets targets
  g.checkTopology
  return g

def withNodeRanges (g : Graph) (ranges : List Int64) : Except Violation Graph :=
  validated { g with nodeRanges := some ranges }

def withEdgeTypes (g : Graph) (types : List UInt8) : Except Violation Graph :=
  validated { g with edgeTypes := some types }

def withNodeTypeIds (g : Graph) (ids : TypeIds) : Except Violation Graph :=
  validated { g with nodeTypeIds := some ids }

def withEdgeTypeIds (g : Graph) (ids : TypeIds) : Except Violation Graph :=
  validated { g with edgeTypeIds := some ids }

def withNodeTable (g : Graph) (table : Table) : Except Violation Graph :=
  validated { g with nodeTable := some table }

def withEdgeTable (g : Graph) (table : Table) : Except Violation Graph :=
  validated { g with edgeTable := some table }

end GraphSnapshot.Graph
