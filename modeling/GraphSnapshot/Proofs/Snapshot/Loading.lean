import GraphSnapshot.Proofs.Snapshot.Entries
import GraphSnapshot.Proofs.Snapshot.Finding

/-! Loading. A valid graph is loaded from any scope in which the keys of its fields have the values
that it is saved with. -/
namespace GraphSnapshot.Snapshot
open Archive

def loadVersion : Action Unit := do
  let stated ← (← read Field.version.key).asInt
  if stated ≠ version then throw (.unsupportedVersion stated.toInt)

def loadBare : Action Graph := do
  let offsets ← loadInts .rowOffsets
  let targets ← loadInts .colIndices
  (Graph.new offsets targets).mapError Fault.violation

/-- The graph with the other fields, as far as they are there. -/
def loadOptional (g : Graph) : Action Graph := do
  let nodeRanges ← optional .nodeTypeOffset (loadInts .nodeTypeOffset)
  let edgeTypes ← optional .typePerEdge (loadBytes .typePerEdge)
  let nodeTypeIds ← optional .nodeTypeToId (loadTypeIds .nodeTypeToId)
  let edgeTypeIds ← optional .edgeTypeToId (loadTypeIds .edgeTypeToId)
  let nodeTable ← optional .nodeAttributes (loadTable .nodeAttributes .node)
  let edgeTable ← optional .edgeAttributes (loadTable .edgeAttributes .edge)
  return { g with nodeRanges, edgeTypes, nodeTypeIds, edgeTypeIds, nodeTable, edgeTable }

theorem load_eq :
    load = (do
      loadVersion
      let g ← loadOptional (← loadBare)
      g.validated.mapError Fault.violation) := by
  simp only [load, loadVersion, loadBare, loadOptional, bind_assoc, pure_bind]
  congr
  funext v
  congr
  funext stated
  split
  · rfl
  · rfl

namespace Contents
variable {c : Contents} {depth : Nat} {f : Field}

theorem optional_map {α : Type} {find : Except Fault α} {toValue : α → Value} {o : Option α}
    (value : c f = o.map toValue) (finds : ∀ x, c f = some (toValue x) → find = .ok x) :
    c.optional f find = .ok o := by
  refine optional_eq_ok_iff.mpr ⟨?_, ?_⟩
  · rw [value, Option.isSome_map]
  · rintro x rfl
    exact finds x value

/-- The values that a graph is saved with are contents in which the graph is found. -/
theorem has_value? {g : Graph}
    (room : ∀ f entries, value? g f = some (.record entries) → depth < Archive.maxDepth) :
    Has (value? g) depth g := by
  have ids {f : Field} (ids : TypeIds) (found : value? g f = some (.record ids.entries)) :
      typeIds (value? g) depth f = .ok ids :=
    typeIds_eq_ok_iff.mpr ⟨room f _ found, _, .refl _, found⟩
  have table {f : Field} {owner : Owner} (t : Table)
      (found : value? g f = some (.record t.entries)) :
      table (value? g) depth f owner = .ok t := table_eq_ok_iff.mpr ⟨room f _ found, found⟩
  exact {
    version := rfl
    offsets := vector_of_some (fun _ => rfl) rfl
    targets := vector_of_some (fun _ => rfl) rfl
    nodeRanges := optional_map rfl fun _ => vector_of_some fun _ => rfl
    edgeTypes := optional_map rfl fun _ => vector_of_some fun _ => rfl
    nodeTypeIds := optional_map rfl ids
    edgeTypeIds := optional_map rfl ids
    nodeTable := optional_map rfl table
    edgeTable := optional_map rfl table }

end Contents

variable {a : Archive} {g : Graph}

theorem perform_load_of_room (checked : g.validate = .ok ()) (reading : a.isWriting = false)
    (room : HasRoom a g) (found : ∀ f : Field, a.current.get? f.key = value? g f) :
    a.perform load = (.ok g, a) := by
  have same : contents a.current = value? g := funext found
  rw [perform_load_eq reading, same, Contents.graph_eq_ok_iff.mpr]
  exact ⟨checked, Contents.has_value? room⟩

theorem perform_load (checked : g.validate = .ok ()) (reading : a.isWriting = false)
    (shallow : a.depth < Archive.maxDepth)
    (found : ∀ f : Field, a.current.get? f.key = value? g f) : a.perform load = (.ok g, a) :=
  perform_load_of_room checked reading (fun _ _ _ => shallow) found

end GraphSnapshot.Snapshot
