import GraphSnapshot.Bytes
import GraphSnapshot.Fault

/-! Dense numeric arrays. The elements are stored one after another, each in little-endian order. -/
namespace GraphSnapshot

structure NumericArray where
  elementType : ElementType
  shape : Shape
  bytes : List UInt8
deriving DecidableEq, Repr

namespace NumericArray

/-- The bytes are as many as shape and element type ask for. Every way of making an array and every
way of reading one keeps this. -/
def Sized (a : NumericArray) : Prop := a.shape.byteCount? a.elementType = some a.bytes.length

instance (a : NumericArray) : Decidable a.Sized := inferInstanceAs (Decidable (_ = _))

def new (t : ElementType) (shape : Shape) (bytes : List UInt8) : Except Violation NumericArray :=
  match shape.byteCount? t with
  | none => .error (.shapeOverflows shape)
  | some needed =>
    if bytes.length = needed then .ok ⟨t, shape, bytes⟩
    else .error (.byteCount t shape needed bytes.length)

def elementBytes {t : ElementType} (element : t.Element) : List UInt8 :=
  Bytes.ofNat t.width element.toNat

def ofElements (t : ElementType) (elements : List t.Element) : NumericArray :=
  ⟨t, .vector (UInt64.ofNat elements.length), elements.flatMap elementBytes⟩

def ofShapedElements (t : ElementType) (elements : List t.Element) (shape : Shape) :
    Except Violation NumericArray :=
  new t shape (elements.flatMap elementBytes)

def scalar (t : ElementType) (element : t.Element) : NumericArray :=
  ⟨t, .scalar, elementBytes element⟩

/-- The elements, for a reader that expects them to be of type `t`. -/
def toElements (a : NumericArray) (t : ElementType) : Except Fault (List t.Element) :=
  if t = a.elementType then
    .ok ((Bytes.pieces t.width (a.bytes.length / t.width) a.bytes).map fun piece =>
      BitVec.ofNat _ (Bytes.toNat piece))
  else .error (.elementMismatch t a.elementType)

def size (a : NumericArray) : Nat := a.shape.count

def rows? (a : NumericArray) : Option UInt64 := a.shape.dim? 0

theorem sized_of_new {t : ElementType} {shape : Shape} {bytes : List UInt8} {a : NumericArray}
    (h : new t shape bytes = .ok a) : a.Sized := by
  unfold new at h
  split at h
  · cases h
  · next needed count =>
    split at h
    · next length =>
      cases h
      rw [Sized, count, length]
    · cases h

theorem new_of_sized {a : NumericArray} (h : a.Sized) : new a.elementType a.shape a.bytes = .ok a := by
  rw [Sized] at h
  simp only [new, h, if_pos]

def typeLabel : ElementType → String
  | .bool => "Bool"
  | .uint8 => "Uint8"
  | .int8 => "Int8"
  | .uint16 => "Uint16"
  | .int16 => "Int16"
  | .uint32 => "Uint32"
  | .int32 => "Int32"
  | .uint64 => "Uint64"
  | .int64 => "Int64"
  | .float16 => "Float16"
  | .float32 => "Float32"
  | .float64 => "Float64"

/-- A description for diagnostics, which counts the bytes and does not show them. -/
def describe (a : NumericArray) : String :=
  let dims := String.intercalate ", " (a.shape.dims.map fun size => toString size.toNat)
  "NumericArray \x7b dtype: " ++ typeLabel a.elementType ++ ", shape: Shape \x7b dims: [" ++ dims ++
    "] \x7d, bytes: " ++ toString a.bytes.length ++ " \x7d"

end NumericArray
end GraphSnapshot
