/-! The entries of a graph snapshot. -/
namespace GraphSnapshot

/-- In the order in which they are saved and loaded. -/
inductive Field where
  | version | rowOffsets | colIndices | nodeTypeOffset | typePerEdge | nodeTypeToId | edgeTypeToId
  | nodeAttributes | edgeAttributes
deriving DecidableEq, Repr

namespace Field

def key : Field → String
  | .version => "version"
  | .rowOffsets => "row_offsets"
  | .colIndices => "col_indices"
  | .nodeTypeOffset => "node_type_offset"
  | .typePerEdge => "type_per_edge"
  | .nodeTypeToId => "node_type_to_id"
  | .edgeTypeToId => "edge_type_to_id"
  | .nodeAttributes => "node_attributes"
  | .edgeAttributes => "edge_attributes"

def all : List Field :=
  [.version, .rowOffsets, .colIndices, .nodeTypeOffset, .typePerEdge, .nodeTypeToId, .edgeTypeToId,
   .nodeAttributes, .edgeAttributes]

theorem mem_all (f : Field) : f ∈ all := by cases f <;> decide

theorem nodup_keys : (all.map key).Nodup := by decide

end Field

inductive Owner where
  | node | edge
deriving DecidableEq, Repr

def Owner.name : Owner → String
  | .node => "node"
  | .edge => "edge"

end GraphSnapshot
