import GraphSnapshot.Field
import GraphSnapshot.Kind
import GraphSnapshot.Shape
import GraphSnapshot.Text.Quoted

/-! Ways in which data breaks the rules of its own structure. -/
namespace GraphSnapshot

inductive Violation where
  | shapeOverflows (shape : Shape)
  | byteCount (elements : ElementType) (shape : Shape) (needed actual : Nat)
  | recordTooDeep (limit : Nat)
  | rankTooLarge (rank : Nat)
  | scopeTooDeep (key : String) (limit : Nat)
  | offsetsEmpty (field : Field)
  | offsetsStart (field : Field) (first : Int64)
  | offsetsDecrease (field : Field) (index : Nat) (before after : Int64)
  | offsetsEnd (field : Field) (last : Int64) (total : Nat)
  | targetOutside (index : Nat) (target : Int64) (nodes : Nat)
  | edgeOutside (source target : Int64) (nodes : Nat)
  /-- An access outside of an array, which ends the work that needs it. -/
  | outOfBounds (place size : Nat)
  | idOutside (field : Field) (id : Int64) (name : String) (count : Nat)
  | idRepeated (field : Field) (id : Int64) (name : String)
  | rangesPerType (entries types : Nat)
  | typesPerEdge (entries edges : Nat)
  | edgeTypeOutside (type : UInt8) (types : Nat)
  | rowCount (owner : Owner) (name : String) (shape : Shape) (rows : Nat)
  | notAnArray (field : Field) (actual : Kind)
  | notAVector (field : Field) (wanted actual : ElementType) (shape : Shape)
  | idNotAnInt (field : Field) (name : String) (actual : Kind)
  | columnNotAnArray (owner : Owner) (name : String) (actual : Kind)
deriving DecidableEq, Repr

open Text in
def Violation.message : Violation → String
  | .shapeOverflows shape => s!"array shape {shape.text} overflows"
  | .byteCount elements shape needed actual =>
    s!"{elements.name} array of shape {shape.text} needs {needed} bytes, got {actual}"
  | .recordTooDeep limit => s!"records nested deeper than {limit}"
  | .rankTooLarge rank => s!"array rank {rank} exceeds 255"
  | .scopeTooDeep key limit => s!"scope {quoted key} would nest deeper than {limit}"
  | .offsetsEmpty field => s!"{field.key} is empty"
  | .offsetsStart field first => s!"{field.key} starts at {first.toInt}, expected 0"
  | .offsetsDecrease field index before after =>
    s!"{field.key} decreases at index {index} ({before.toInt} -> {after.toInt})"
  | .offsetsEnd field last total => s!"{field.key} ends at {last.toInt}, expected {total}"
  | .targetOutside index target nodes =>
    s!"{Field.colIndices.key}[{index}] = {target.toInt} outside of {nodes} nodes"
  | .edgeOutside source target nodes =>
    s!"edge ({source.toInt}, {target.toInt}) outside of {nodes} nodes"
  | .outOfBounds place size =>
    s!"index out of bounds: the len is {size} but the index is {place}"
  | .idOutside field id name count =>
    s!"{field.key}: id {id.toInt} of {quoted name} outside of 0..{count}"
  | .idRepeated field id name => s!"{field.key}: id {id.toInt} of {quoted name} is repeated"
  | .rangesPerType entries types =>
    s!"{Field.nodeTypeOffset.key} has {entries} entries for {types} node types"
  | .typesPerEdge entries edges =>
    s!"{Field.typePerEdge.key} has {entries} entries for {edges} edges"
  | .edgeTypeOutside type types => s!"edge type {type.toNat} outside of {types} edge types"
  | .rowCount owner name shape rows =>
    s!"{owner.name} attribute {quoted name} has shape {shape.text}, expected {rows} rows"
  | .notAnArray field actual => s!"{field.key} must be an array, got {actual.name}"
  | .notAVector field wanted actual shape =>
    s!"{field.key} must be a rank-1 {wanted.name} array, got {actual.name} {shape.text}"
  | .idNotAnInt field name actual =>
    s!"{field.key}: id of {quoted name} is a {actual.name}, not an int"
  | .columnNotAnArray owner name actual =>
    s!"{owner.name} attribute {quoted name} is a {actual.name}, not an array"

end GraphSnapshot
