import GraphSnapshot.Archive.Actions
import GraphSnapshot.Archive.Storage
import GraphSnapshot.Graph.Validity
import GraphSnapshot.Version

/-! Snapshots: graphs as entries of an archive scope. The version, the offsets and the targets are
always there; each other field has an entry exactly if the graph has the field. -/
namespace GraphSnapshot.Snapshot
open Archive (Action write read contains keys within)

def intArray (ints : List Int64) : Value :=
  .array (.ofElements .int64 (ints.map Int64.toBitVec))

def byteArray (bytes : List UInt8) : Value :=
  .array (.ofElements .uint8 (bytes.map UInt8.toBitVec))

def saveTypeIds (field : Field) (ids : TypeIds) : Action Unit :=
  within field.key (ids.pairs.forM fun (name, id) => write name (.int id))

def saveTable (field : Field) (table : Table) : Action Unit :=
  within field.key (table.columns.forM fun (name, column) => write name (.array column))

def save (g : Graph) : Action Unit := do
  write Field.version.key (.int version)
  write Field.rowOffsets.key (intArray g.offsets)
  write Field.colIndices.key (intArray g.targets)
  g.nodeRanges.forM fun ranges => write Field.nodeTypeOffset.key (intArray ranges)
  g.edgeTypes.forM fun types => write Field.typePerEdge.key (byteArray types)
  g.nodeTypeIds.forM (saveTypeIds .nodeTypeToId)
  g.edgeTypeIds.forM (saveTypeIds .edgeTypeToId)
  g.nodeTable.forM (saveTable .nodeAttributes)
  g.edgeTable.forM (saveTable .edgeAttributes)

def loadVector (field : Field) (t : ElementType) : Action (List t.Element) := do
  match ← read field.key with
  | .array a =>
    if a.elementType = t ∧ a.shape.rank = 1 then a.toElements t
    else throw (.violation (.notAVector field t a.elementType a.shape))
  | value => throw (.violation (.notAnArray field value.kind))

def loadInts (field : Field) : Action (List Int64) := do
  return (← loadVector field .int64).map Int64.ofBitVec

def loadBytes (field : Field) : Action (List UInt8) := do
  return (← loadVector field .uint8).map UInt8.ofBitVec

def loadRecord (field : Field) : Action Record :=
  within field.key do
    (← keys).foldlM (fun record name => do record.insert name (← read name)) []

def loadTypeIds (field : Field) : Action TypeIds := do
  (← loadRecord field).foldlM (fun ids (name, value) =>
    match value with
    | .int id => return ids.insert name id
    | value => throw (.violation (.idNotAnInt field name value.kind))) TypeIds.empty

def loadTable (field : Field) (owner : Owner) : Action Table := do
  Table.ofRecord (← loadRecord field) owner

/-- Nothing if the current scope has no such key. -/
def optional {α : Type} (field : Field) (load : Action α) : Action (Option α) := do
  if ← contains field.key then return some (← load) else return none

def load : Action Graph := do
  let stated ← (← read Field.version.key).asInt
  if stated ≠ version then throw (.unsupportedVersion stated.toInt)
  let offsets ← loadInts .rowOffsets
  let targets ← loadInts .colIndices
  let g ← (Graph.new offsets targets).mapError Fault.violation
  let nodeRanges ← optional .nodeTypeOffset (loadInts .nodeTypeOffset)
  let edgeTypes ← optional .typePerEdge (loadBytes .typePerEdge)
  let nodeTypeIds ← optional .nodeTypeToId (loadTypeIds .nodeTypeToId)
  let edgeTypeIds ← optional .edgeTypeToId (loadTypeIds .edgeTypeToId)
  let nodeTable ← optional .nodeAttributes (loadTable .nodeAttributes .node)
  let edgeTable ← optional .edgeAttributes (loadTable .edgeAttributes .edge)
  let full := { g with nodeRanges, edgeTypes, nodeTypeIds, edgeTypeIds, nodeTable, edgeTable }
  full.validated.mapError Fault.violation

/-- Puts the graph of the current scope in the place of another, which stays if loading fails. -/
def loadInto (target : Graph) (a : Archive) : Except Fault Unit × Graph × Archive :=
  match a.perform load with
  | (.ok g, a) => (.ok (), g, a)
  | (.error fault, a) => (.error fault, target, a)

def serialize [Zlib] (g : Graph) (options : WriteOptions) : Except Fault (List UInt8) :=
  match (Archive.writer options).perform (save g) with
  | (.ok (), a) => a.toBytes
  | (.error fault, _) => .error fault

def deserialize [Zlib] (data : List UInt8) : Except Fault Graph := do
  let a ← Archive.ofBytes data
  (a.perform load).1

def getValue [Zlib] (data : List UInt8) (key : String) : Except Fault Value := do
  let a ← Archive.ofBytes data
  (a.perform (read key)).1

end GraphSnapshot.Snapshot
