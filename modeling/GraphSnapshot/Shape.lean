import GraphSnapshot.ElementType
import GraphSnapshot.Word

/-! Shapes of numeric arrays. Sizes are words, and so must be every product of sizes. -/
namespace GraphSnapshot

/-- Without dimensions a shape describes one element. -/
structure Shape where
  dims : List UInt64
deriving DecidableEq, Repr

namespace Shape

def scalar : Shape := ⟨[]⟩

def vector (size : UInt64) : Shape := ⟨[size]⟩

def matrix (rows columns : UInt64) : Shape := ⟨[rows, columns]⟩

def rank (s : Shape) : Nat := s.dims.length

def isScalar (s : Shape) : Bool := s.dims.isEmpty

def dim? (s : Shape) (i : Nat) : Option UInt64 := s.dims[i]?

def count (s : Shape) : Nat := (s.dims.map UInt64.toNat).foldl (· * ·) 1

/-- The number of elements, multiplied from the left, unless a product on the way is no word. A
size of zero comes too late for a product that left the words before it. -/
def count? (s : Shape) : Option Nat :=
  s.dims.foldlM (fun product size => wordMul? product size.toNat) 1

theorem foldl_of_foldlM {sizes : List UInt64} {start product : Nat}
    (h : sizes.foldlM (fun product size => wordMul? product size.toNat) start = some product) :
    (sizes.map UInt64.toNat).foldl (· * ·) start = product := by
  induction sizes generalizing start with
  | nil => exact Option.some.inj h
  | cons size rest ih =>
    rw [List.foldlM_cons, Option.bind_eq_bind, Option.bind_eq_some_iff] at h
    obtain ⟨next, step, h⟩ := h
    rw [List.map_cons, List.foldl_cons, (wordMul?_eq_some_iff.mp step).1]
    exact ih h

theorem count_of_count? {s : Shape} {n : Nat} (h : s.count? = some n) : s.count = n :=
  foldl_of_foldlM h

def byteCount? (s : Shape) (t : ElementType) : Option Nat := do wordMul? (← s.count?) t.width

/-- The sizes in brackets, as in `[7 x 3]`. -/
def text (s : Shape) : String :=
  "[" ++ String.intercalate " x " (s.dims.map fun size => toString size.toNat) ++ "]"

end Shape
end GraphSnapshot
