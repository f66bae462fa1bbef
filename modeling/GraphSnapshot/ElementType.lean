/-! Element types of numeric arrays. -/
namespace GraphSnapshot

inductive ElementType where
  | bool | uint8 | int8 | uint16 | int16 | uint32 | int32 | uint64 | int64
  | float16 | float32 | float64
deriving DecidableEq, Repr

namespace ElementType

/-- In the order of their tags. -/
def all : List ElementType :=
  [.bool, .uint8, .int8, .uint16, .int16, .uint32, .int32, .uint64, .int64, .float16, .float32,
   .float64]

def width : ElementType → Nat
  | .bool | .uint8 | .int8 => 1
  | .uint16 | .int16 | .float16 => 2
  | .uint32 | .int32 | .float32 => 4
  | .uint64 | .int64 | .float64 => 8

def name : ElementType → String
  | .bool => "bool"
  | .uint8 => "uint8"
  | .int8 => "int8"
  | .uint16 => "uint16"
  | .int16 => "int16"
  | .uint32 => "uint32"
  | .int32 => "int32"
  | .uint64 => "uint64"
  | .int64 => "int64"
  | .float16 => "float16"
  | .float32 => "float32"
  | .float64 => "float64"

def ofName? (s : String) : Option ElementType := all.find? fun t => t.name == s

def tag : ElementType → UInt8
  | .bool => 0
  | .uint8 => 1
  | .int8 => 2
  | .uint16 => 3
  | .int16 => 4
  | .uint32 => 5
  | .int32 => 6
  | .uint64 => 7
  | .int64 => 8
  | .float16 => 9
  | .float32 => 10
  | .float64 => 11

def ofTag? (tag : UInt8) : Option ElementType := all[tag.toNat]?

/-- An element is the bits it is stored in. -/
abbrev Element (t : ElementType) : Type := BitVec (8 * t.width)

theorem width_pos (t : ElementType) : 0 < t.width := by cases t <;> decide

@[simp] theorem ofTag?_tag (t : ElementType) : ofTag? t.tag = some t := by cases t <;> rfl

theorem tag_of_ofTag? {tag : UInt8} {t : ElementType} (h : ofTag? tag = some t) : t.tag = tag := by
  obtain ⟨bound, same⟩ := List.getElem?_eq_some_iff.mp h
  have small : tag.toNat < 12 := bound
  apply UInt8.toNat_inj.mp
  subst same
  generalize tag.toNat = n at bound small ⊢
  match n, small with
  | 0, _ | 1, _ | 2, _ | 3, _ | 4, _ | 5, _ | 6, _ | 7, _ | 8, _ | 9, _ | 10, _ | 11, _ => rfl

end ElementType

def ElementType.ofBool (b : Bool) : Element .bool := if b then 1 else 0

/-- Every bit pattern but zero counts as true. -/
def ElementType.isTrue (bits : Element .bool) : Bool := bits != 0

end GraphSnapshot
