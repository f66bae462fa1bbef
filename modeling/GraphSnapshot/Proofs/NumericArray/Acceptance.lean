import GraphSnapshot.Proofs.NumericArray
import Mathlib.Data.List.TakeWhile

/-! Which arrays are made. The bytes have to be as many as the shape and the element type ask for, and
this alone decides unless a size is zero: then the sizes before it must have a product that is a word. -/
namespace GraphSnapshot

namespace Shape

/-- The sizes in front of the first one that is zero. -/
def beforeZero (s : Shape) : Shape := ⟨s.dims.takeWhile (· ≠ 0)⟩

theorem beforeZero_of_not_mem {s : Shape} (nonzero : 0 ∉ s.dims) : s.beforeZero = s := by
  have all : s.dims.takeWhile (· ≠ 0) = s.dims := by
    rw [List.takeWhile_eq_self_iff]
    intro size member
    exact decide_eq_true (ne_of_mem_of_not_mem member nonzero)
  rw [beforeZero, all]

theorem beforeZero_cons_zero (rest : List UInt64) : beforeZero ⟨0 :: rest⟩ = scalar :=
  rfl

theorem count_beforeZero_cons {size : UInt64} (nonzero : size ≠ 0) (rest : List UInt64) :
    (beforeZero ⟨size :: rest⟩).count = size.toNat * (beforeZero ⟨rest⟩).count := by
  have kept : (size :: rest).takeWhile (· ≠ 0) = size :: rest.takeWhile (· ≠ 0) :=
    List.takeWhile_cons_of_pos (decide_eq_true nonzero)
  exact (congrArg (count ⟨·⟩) kept).trans (count_cons _ _)

theorem count_beforeZero_pos (sizes : List UInt64) : 0 < (beforeZero ⟨sizes⟩).count := by
  induction sizes with
  | nil => exact Nat.one_pos
  | cons size rest ih =>
      by_cases zero : size = 0
      · rw [zero, beforeZero_cons_zero]
        exact Nat.one_pos
      · have positive := UInt64.lt_iff_toNat_lt.mp (UInt64.pos_iff_ne_zero.mpr zero)
        rw [count_beforeZero_cons zero]
        exact Nat.mul_pos positive ih

theorem count_perm {sizes others : List UInt64} (perm : sizes.Perm others) :
    count ⟨sizes⟩ = count ⟨others⟩ := by
  induction perm with
  | nil => rfl
  | cons size _ ih => rw [count_cons, count_cons, ih]
  | swap a b rest => simp only [count_cons, Nat.mul_left_comm]
  | trans _ _ ih ih' => exact ih.trans ih'

/-- The products from the left grow up to the first zero and are zero from there on, so all of them are
words if the one in front of the first zero is. -/
theorem foldlM_eq_some_iff {sizes : List UInt64} {start product : Nat} (word : start < wordLimit) :
    sizes.foldlM (fun product size => wordMul? product size.toNat) start = some product ↔
      start * (beforeZero ⟨sizes⟩).count < wordLimit ∧ start * count ⟨sizes⟩ = product := by
  induction sizes generalizing start with
  | nil =>
      have one : count ⟨[]⟩ = 1 := rfl
      have none : (beforeZero ⟨[]⟩).count = 1 := rfl
      rw [one, none, Nat.mul_one, and_iff_right word]
      exact Option.some_inj
  | cons size rest ih =>
      have step : (size :: rest).foldlM (fun product size => wordMul? product size.toNat) start =
          some product ↔ start * size.toNat < wordLimit ∧
            start * size.toNat * (beforeZero ⟨rest⟩).count < wordLimit ∧
              start * size.toNat * count ⟨rest⟩ = product := by
        rw [List.foldlM_cons, Option.bind_eq_bind, Option.bind_eq_some_iff]
        simp only [wordMul?_eq_some_iff]
        constructor
        · rintro ⟨_, ⟨rfl, small⟩, later⟩
          exact ⟨small, (ih small).mp later⟩
        · rintro ⟨small, later⟩
          exact ⟨_, ⟨rfl, small⟩, (ih small).mpr later⟩
      rw [step, count_cons, Nat.mul_assoc, Nat.mul_assoc]
      by_cases zero : size = 0
      · have positive : 0 < wordLimit := Nat.zero_lt_of_lt word
        have one : scalar.count = 1 := rfl
        simp only [zero, UInt64.toNat_zero, beforeZero_cons_zero, one, Nat.zero_mul, Nat.mul_zero,
          Nat.mul_one, word, positive, true_and]
      · rw [count_beforeZero_cons zero, ← and_assoc]
        refine and_congr_left fun _ => ⟨And.right, fun small => ⟨?_, small⟩⟩
        refine Nat.lt_of_le_of_lt ?_ small
        exact Nat.mul_le_mul_left start (Nat.le_mul_of_pos_right _ (count_beforeZero_pos rest))

theorem count?_eq_some_iff {s : Shape} {n : Nat} :
    s.count? = some n ↔ s.beforeZero.count < wordLimit ∧ s.count = n := by
  have counted := @foldlM_eq_some_iff s.dims 1 n (by decide)
  rwa [Nat.one_mul, Nat.one_mul] at counted

theorem byteCount?_eq_some_iff {s : Shape} {t : ElementType} {n : Nat} :
    s.byteCount? t = some n ↔
      s.beforeZero.count < wordLimit ∧ s.count * t.width = n ∧ n < wordLimit := by
  rw [byteCount?, Option.bind_eq_bind, Option.bind_eq_some_iff]
  simp only [count?_eq_some_iff, wordMul?_eq_some_iff]
  constructor
  · rintro ⟨_, ⟨small, rfl⟩, bytes⟩
    exact ⟨small, bytes⟩
  · rintro ⟨small, bytes⟩
    exact ⟨s.count, ⟨small, rfl⟩, bytes⟩

end Shape

namespace NumericArray
variable {t : ElementType} {shape : Shape} {bytes : List UInt8}

/-- Bytes in memory are fewer than the words, so they cannot be as many as a product that is no word. -/
theorem exists_new_iff (small : bytes.length < wordLimit) :
    (∃ a, new t shape bytes = .ok a) ↔
      bytes.length = shape.count * t.width ∧ shape.beforeZero.count < wordLimit := by
  have sized (a : NumericArray) (same : a = ⟨t, shape, bytes⟩) : a.Sized ↔
      bytes.length = shape.count * t.width ∧ shape.beforeZero.count < wordLimit := by
    rw [same, Sized, Shape.byteCount?_eq_some_iff, and_iff_left small, and_comm, eq_comm]
  constructor
  · rintro ⟨a, made⟩
    obtain ⟨fits, same⟩ := new_eq_ok_iff.mp made
    exact (sized a same).mp fits
  · intro fits
    exact ⟨_, new_eq_ok_iff.mpr ⟨(sized _ rfl).mpr fits, rfl⟩⟩

/-- The shape is refused if a product is no word, and otherwise the bytes if they are not as many. -/
theorem new_eq_error_iff {cause : Violation} :
    new t shape bytes = .error cause ↔
      cause = .shapeOverflows shape ∧
          (wordLimit ≤ shape.beforeZero.count ∨ wordLimit ≤ shape.count * t.width) ∨
        cause = .byteCount t shape (shape.count * t.width) bytes.length ∧
          (shape.beforeZero.count < wordLimit ∧ shape.count * t.width < wordLimit) ∧
            bytes.length ≠ shape.count * t.width := by
  rw [new]
  split
  · next overflows =>
    have past : wordLimit ≤ shape.beforeZero.count ∨ wordLimit ≤ shape.count * t.width := by
      by_contra fits
      obtain ⟨front, product⟩ := not_or.mp fits
      have counted := Shape.byteCount?_eq_some_iff.mpr
        ⟨Nat.lt_of_not_le front, rfl, Nat.lt_of_not_le product⟩
      cases overflows.symm.trans counted
    rw [Except.error.injEq, eq_comm]
    constructor
    · intro same
      exact .inl ⟨same, past⟩
    · rintro (⟨same, _⟩ | ⟨_, ⟨front, product⟩, _⟩)
      · exact same
      · omega
  · next needed counted =>
    obtain ⟨front, rfl, product⟩ := Shape.byteCount?_eq_some_iff.mp counted
    split
    · next same =>
      constructor
      · intro refused
        cases refused
      · rintro (⟨_, past⟩ | ⟨_, _, other⟩)
        · omega
        · exact absurd same other
    · next other =>
      rw [Except.error.injEq, eq_comm]
      constructor
      · intro same
        exact .inr ⟨same, ⟨front, product⟩, other⟩
      · rintro (⟨_, past⟩ | ⟨same, _⟩)
        · omega
        · exact same

/-- An array is made if its bytes are as many as the elements of its shape take, and if the sizes before
the first zero, or all sizes if none is zero, have a product that is a word. If no size is zero, the
number of bytes alone decides, whatever the order of the sizes; and shapes that have the same sizes in
another order differ only by a product before the first zero. Refusals tell which it was. -/
theorem new_accepts (small : bytes.length < wordLimit) :
    ((∃ a, new t shape bytes = .ok a) ↔
      bytes.length = shape.count * t.width ∧ shape.beforeZero.count < wordLimit) ∧
    (0 ∉ shape.dims →
      ((∃ a, new t shape bytes = .ok a) ↔ bytes.length = shape.count * t.width)) ∧
    (∀ other : Shape, other.dims.Perm shape.dims →
      (0 ∈ shape.dims → (other.beforeZero.count < wordLimit ↔ shape.beforeZero.count < wordLimit)) →
      ((∃ a, new t other bytes = .ok a) ↔ ∃ a, new t shape bytes = .ok a)) ∧
    (∀ a, new t shape bytes = .ok a → a = ⟨t, shape, bytes⟩) ∧
    ∀ cause, new t shape bytes = .error cause ↔
      cause = .shapeOverflows shape ∧
          (wordLimit ≤ shape.beforeZero.count ∨ wordLimit ≤ shape.count * t.width) ∨
        cause = .byteCount t shape (shape.count * t.width) bytes.length ∧
          (shape.beforeZero.count < wordLimit ∧ shape.count * t.width < wordLimit) ∧
            bytes.length ≠ shape.count * t.width := by
  refine ⟨exists_new_iff small, ?_, ?_, ?_, fun _ => new_eq_error_iff⟩
  · intro nonzero
    rw [exists_new_iff small, Shape.beforeZero_of_not_mem nonzero, and_iff_left_iff_imp]
    intro fits
    have fewer := Nat.le_mul_of_pos_right shape.count t.width_pos
    omega
  · intro other perm front
    have count : other.count = shape.count := Shape.count_perm perm
    rw [exists_new_iff small, exists_new_iff small, count]
    refine and_congr_right fun _ => ?_
    by_cases zero : 0 ∈ shape.dims
    · exact front zero
    · have zero' : 0 ∉ other.dims := mt perm.mem_iff.mp zero
      rw [Shape.beforeZero_of_not_mem zero, Shape.beforeZero_of_not_mem zero', count]
  · intro a made
    exact (new_eq_ok_iff.mp made).2

/-- A zero behind a product that is a word, and the same sizes in another order. -/
theorem new_accepts_zero :
    let shape : Shape := ⟨[3, 0xffffffff, 0]⟩
    let other : Shape := ⟨[0, 3, 0xffffffff]⟩
    (∃ a, new .float64 shape [] = .ok a) ∧ (∃ a, new .float64 other [] = .ok a) := by
  intro shape other
  obtain ⟨accepts, _, perm, _⟩ := @new_accepts .float64 shape [] (by decide)
  have made := accepts.mpr ⟨rfl, by decide⟩
  exact ⟨made, (perm other (by decide) fun _ => by decide).mpr made⟩

/-- A product that is no word, in front of a zero: there are as many bytes as the shape asks for, namely
none, and still the array is refused. With the zero moved to the front it is made. -/
theorem new_overflow_before_zero :
    let shape : Shape := ⟨[0xffffffffffffffff, 2, 0]⟩
    let moved : Shape := ⟨[0, 0xffffffffffffffff, 2]⟩
    ([] : List UInt8).length = shape.count * ElementType.uint8.width ∧
      new .uint8 shape [] = .error (.shapeOverflows shape) ∧
      moved.dims.Perm shape.dims ∧ new .uint8 moved [] = .ok ⟨.uint8, moved, []⟩ :=
  ⟨rfl, rfl, by decide, rfl⟩

end NumericArray
end GraphSnapshot
