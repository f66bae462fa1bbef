import GraphSnapshot.NumericArray

/-! Arrays and their elements. Arrays that are made have the bytes their shapes ask for, and the
elements that an array is made of are read back from its bytes. -/
namespace GraphSnapshot

theorem Bytes.pieces_flatMap {α β : Type} {size : Nat} {f : β → List α}
    (width : ∀ x, (f x).length = size) (xs : List β) :
    pieces size xs.length (xs.flatMap f) = xs.map f := by
  induction xs with
  | nil => rfl
  | cons x rest ih =>
      rw [List.length_cons, List.flatMap_cons, pieces, List.take_left' (width x),
        List.drop_left' (width x), ih, List.map_cons]

theorem Bytes.length_pieces {α : Type} (size count : Nat) (xs : List α) :
    (pieces size count xs).length = count := by
  induction count generalizing xs with
  | zero => rfl
  | succ count ih => rw [pieces, List.length_cons, ih]

theorem Bytes.flatten_pieces {α : Type} {size count : Nat} {xs : List α}
    (whole : xs.length = count * size) :
    (pieces size count xs).flatten = xs ∧ ∀ piece ∈ pieces size count xs, piece.length = size := by
  induction count generalizing xs with
  | zero =>
      rw [Nat.zero_mul, List.length_eq_zero_iff] at whole
      exact ⟨whole.symm, nofun⟩
  | succ count ih =>
      rw [Nat.succ_mul] at whole
      have rest : (xs.drop size).length = count * size := by
        rw [List.length_drop]
        omega
      obtain ⟨made, sizes⟩ := ih rest
      refine ⟨?_, List.forall_mem_cons.mpr ⟨?_, sizes⟩⟩
      · rw [pieces, List.flatten_cons, made, List.take_append_drop]
      · rw [List.length_take]
        omega

namespace Shape

theorem product_lt_of_foldlM {sizes : List UInt64} {start product : Nat} (small : start < wordLimit)
    (h : sizes.foldlM (fun product size => wordMul? product size.toNat) start = some product) :
    product < wordLimit := by
  induction sizes generalizing start with
  | nil => exact Option.some.inj h ▸ small
  | cons size rest ih =>
      rw [List.foldlM_cons, Option.bind_eq_bind, Option.bind_eq_some_iff] at h
      obtain ⟨next, step, h⟩ := h
      exact ih (wordMul?_eq_some_iff.mp step).2 h

/-- Every product on the way to the number of elements is a word. -/
theorem count_take_lt {s : Shape} {n : Nat} (h : s.count? = some n) (i : Nat) :
    count ⟨s.dims.take i⟩ < wordLimit := by
  rw [count?, ← List.take_append_drop i s.dims, List.foldlM_append, Option.bind_eq_bind,
    Option.bind_eq_some_iff] at h
  obtain ⟨product, front, _⟩ := h
  rw [count, foldl_of_foldlM front]
  exact product_lt_of_foldlM (by decide) front

theorem count_cons (size : UInt64) (rest : List UInt64) :
    count ⟨size :: rest⟩ = size.toNat * count ⟨rest⟩ := by
  rw [count, List.map_cons, List.foldl_cons, Nat.mul_comm, List.foldl_assoc]
  rfl

end Shape

namespace NumericArray

theorem sized_iff {a : NumericArray} : a.Sized ↔ a.shape.count? = some a.size ∧
    a.size * a.elementType.width = a.bytes.length ∧ a.bytes.length < wordLimit := by
  rw [Sized, Shape.byteCount?, Option.bind_eq_bind, Option.bind_eq_some_iff]
  simp only [wordMul?_eq_some_iff]
  constructor
  · rintro ⟨count, counted, bytes, word⟩
    rw [size, Shape.count_of_count? counted]
    exact ⟨counted, bytes, word⟩
  · rintro ⟨counted, bytes, word⟩
    exact ⟨_, counted, bytes, word⟩

theorem Sized.length_lt {a : NumericArray} (sized : a.Sized) : a.bytes.length < wordLimit :=
  (sized_iff.mp sized).2.2

theorem Sized.length_eq {a : NumericArray} (sized : a.Sized) :
    a.bytes.length = a.size * a.elementType.width := (sized_iff.mp sized).2.1.symm

theorem new_eq_ok_iff {t : ElementType} {shape : Shape} {bytes : List UInt8} {a : NumericArray} :
    new t shape bytes = .ok a ↔ a.Sized ∧ a = ⟨t, shape, bytes⟩ := by
  constructor
  · intro h
    refine ⟨sized_of_new h, ?_⟩
    unfold new at h
    split at h
    · cases h
    · split at h
      · exact (Except.ok.inj h).symm
      · cases h
  · rintro ⟨sized, rfl⟩
    exact new_of_sized sized

theorem length_elementBytes {t : ElementType} (element : t.Element) :
    (elementBytes element).length = t.width := Bytes.length_ofNat _ _

theorem length_ofElements (t : ElementType) (elements : List t.Element) :
    (ofElements t elements).bytes.length = elements.length * t.width := by
  change (elements.flatMap elementBytes).length = _
  induction elements with
  | nil => exact (Nat.zero_mul _).symm
  | cons element rest ih =>
      rw [List.flatMap_cons, List.length_append, length_elementBytes, ih, List.length_cons,
        Nat.succ_mul, Nat.add_comm]

theorem sized_ofElements {t : ElementType} {elements : List t.Element}
    (small : (ofElements t elements).bytes.length < wordLimit) : (ofElements t elements).Sized := by
  have product := length_ofElements t elements
  have fewer : elements.length ≤ (ofElements t elements).bytes.length := by
    rw [product]
    exact Nat.le_mul_of_pos_right _ t.width_pos
  have word : elements.length < wordLimit := Nat.lt_of_le_of_lt fewer small
  have toNat : (UInt64.ofNat elements.length).toNat = elements.length :=
    UInt64.toNat_ofNat_of_lt' word
  have count : (Shape.vector (UInt64.ofNat elements.length)).count? = some elements.length := by
    change (wordMul? 1 (UInt64.ofNat elements.length).toNat >>= some) = _
    rw [toNat, wordMul?_eq_some_iff.mpr ⟨Nat.one_mul _, word⟩]
    rfl
  have same : (ofElements t elements).size = elements.length := Shape.count_of_count? count
  refine sized_iff.mpr ⟨count.trans (congrArg some same.symm), ?_, small⟩
  rw [same]
  exact product.symm

theorem toNat_ofNat_width (t : ElementType) (n : Nat) :
    (BitVec.ofNat (8 * t.width) n).toNat = n % Bytes.limit t.width := by
  rw [BitVec.toNat_ofNat]
  cases t <;> rfl

theorem ofNat_toNat_elementBytes {t : ElementType} (element : t.Element) :
    BitVec.ofNat (8 * t.width) (Bytes.toNat (elementBytes element)) = element := by
  apply BitVec.eq_of_toNat_eq
  rw [toNat_ofNat_width, elementBytes, Bytes.toNat_ofNat, Nat.mod_mod, ← toNat_ofNat_width,
    BitVec.ofNat_toNat, BitVec.setWidth_eq]

theorem toElements_ofElements (t : ElementType) (elements : List t.Element) :
    (ofElements t elements).toElements t = .ok elements := by
  have count : (ofElements t elements).bytes.length / t.width = elements.length := by
    rw [length_ofElements]
    exact Nat.mul_div_cancel _ t.width_pos
  have pieces : Bytes.pieces t.width elements.length (ofElements t elements).bytes =
      elements.map elementBytes := Bytes.pieces_flatMap length_elementBytes elements
  have same : t = (ofElements t elements).elementType := rfl
  rw [toElements, if_pos same, count, pieces, List.map_map]
  refine congrArg Except.ok ((List.map_congr_left ?_).trans (List.map_id elements))
  intro element _
  exact ofNat_toNat_elementBytes element

theorem elementBytes_ofNat_toNat {t : ElementType} {piece : List UInt8}
    (length : piece.length = t.width) :
    elementBytes (BitVec.ofNat (8 * t.width) (Bytes.toNat piece)) = piece := by
  have below := Bytes.toNat_lt piece
  have same := Bytes.ofNat_toNat piece
  rw [length] at below same
  rw [elementBytes, toNat_ofNat_width, Nat.mod_eq_of_lt below, same]

theorem Sized.exists_toElements {a : NumericArray} (sized : a.Sized) :
    ∃ elements, a.toElements a.elementType = .ok elements ∧ elements.length = a.size ∧
      elements.flatMap elementBytes = a.bytes := by
  have count : a.bytes.length / a.elementType.width = a.size := by
    rw [sized.length_eq]
    exact Nat.mul_div_cancel _ a.elementType.width_pos
  obtain ⟨made, sizes⟩ := Bytes.flatten_pieces sized.length_eq
  refine ⟨_, if_pos rfl, ?_, ?_⟩
  · rw [List.length_map, count, Bytes.length_pieces]
  · have same := List.map_congr_left fun piece member => elementBytes_ofNat_toNat (sizes piece member)
    rw [count, List.flatMap_map, List.flatMap_def, same, List.map_id', made]

/-- An array with one dimension is the array of its elements. -/
theorem vector_toElements_iff {a : NumericArray} (sized : a.Sized) {t : ElementType}
    {elements : List t.Element} :
    (a.elementType = t ∧ a.shape.rank = 1) ∧ a.toElements t = .ok elements ↔
      a = ofElements t elements := by
  constructor
  · rintro ⟨⟨rfl, vector⟩, h⟩
    obtain ⟨found, same, length, bytes⟩ := sized.exists_toElements
    obtain rfl : found = elements := Except.ok.inj (same.symm.trans h)
    obtain ⟨t, ⟨dims⟩, content⟩ := a
    obtain ⟨size, rfl⟩ := List.length_eq_one_iff.mp vector
    have count : found.length = size.toNat := length.trans (Nat.one_mul _)
    rw [ofElements, bytes, count, UInt64.ofNat_toNat]
    rfl
  · rintro rfl
    exact ⟨⟨rfl, rfl⟩, toElements_ofElements t elements⟩

theorem sized_scalar (t : ElementType) (element : t.Element) : (scalar t element).Sized := by
  have length : (scalar t element).bytes.length = t.width := length_elementBytes element
  refine sized_iff.mpr ⟨rfl, ?_, ?_⟩
  · rw [length]
    exact Nat.one_mul _
  · rw [length]
    cases t <;> decide

/-- Arrays that are made by the operations on arrays. Elements in memory take less than a word of
bytes. -/
inductive Made : NumericArray → Prop
  | new {t : ElementType} {shape : Shape} {bytes : List UInt8} {a : NumericArray} :
      new t shape bytes = .ok a → Made a
  | ofElements (t : ElementType) (elements : List t.Element) :
      elements.length * t.width < wordLimit → Made (ofElements t elements)
  | ofShapedElements {t : ElementType} {elements : List t.Element} {shape : Shape}
      {a : NumericArray} : ofShapedElements t elements shape = .ok a → Made a
  | scalar (t : ElementType) (element : t.Element) : Made (scalar t element)

theorem Made.sized {a : NumericArray} (h : a.Made) : a.Sized := by
  cases h with
  | new made => exact sized_of_new made
  | ofElements t elements small =>
      apply sized_ofElements
      rw [length_ofElements]
      exact small
  | ofShapedElements made => exact sized_of_new made
  | scalar t element => exact sized_scalar t element

/-- All counts of an array are words and agree: the products of its sizes from the left, its bytes, its
elements and its rows. -/
structure Exact (a : NumericArray) : Prop where
  products : ∀ i, Shape.count ⟨a.shape.dims.take i⟩ < wordLimit
  count : a.shape.count? = some a.size
  bytes : a.bytes.length = a.size * a.elementType.width
  word : a.size * a.elementType.width < wordLimit
  elements : ∃ elements, a.toElements a.elementType = .ok elements ∧ elements.length = a.size
  rows : ∀ rows, a.rows? = some rows → rows.toNat * Shape.count ⟨a.shape.dims.tail⟩ = a.size

theorem Sized.exact {a : NumericArray} (sized : a.Sized) : a.Exact := by
  obtain ⟨elements, same, length, _⟩ := sized.exists_toElements
  have bytes := sized.length_eq
  have word := sized.length_lt
  rw [bytes] at word
  have counted := (sized_iff.mp sized).1
  refine ⟨?_, counted, bytes, word, ⟨elements, same, length⟩, ?_⟩
  · exact Shape.count_take_lt counted
  · intro rows first
    obtain ⟨t, ⟨dims⟩, content⟩ := a
    cases dims with
    | nil => cases first
    | cons _ rest =>
        cases first
        exact (Shape.count_cons rows rest).symm

end NumericArray
end GraphSnapshot
