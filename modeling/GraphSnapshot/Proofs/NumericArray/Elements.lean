import GraphSnapshot.Proofs.Archive.Made

/-! Elements and bytes. The elements of an array and its bytes are two forms of the same: what is made of
elements shows them, and what shows elements is made of them. -/
namespace GraphSnapshot.NumericArray

theorem toElements_of_bytes {t : ElementType} {elements : List t.Element} {shape : Shape} :
    (⟨t, shape, elements.flatMap elementBytes⟩ : NumericArray).toElements t = .ok elements :=
  toElements_ofElements t elements

theorem toElements_of_ne {a : NumericArray} {t : ElementType} (other : t ≠ a.elementType) :
    a.toElements t = .error (.elementMismatch t a.elementType) := by
  rw [toElements, if_neg other]

theorem ofShapedElements_eq_ok {t : ElementType} {elements : List t.Element} {shape : Shape}
    (counted : shape.count? = some elements.length) (small : elements.length * t.width < wordLimit) :
    ofShapedElements t elements shape = .ok ⟨t, shape, elements.flatMap elementBytes⟩ := by
  have length : (elements.flatMap elementBytes).length = elements.length * t.width :=
    length_ofElements t elements
  have size : shape.count = elements.length := Shape.count_of_count? counted
  refine new_eq_ok_iff.mpr ⟨sized_iff.mpr ⟨?_, ?_, ?_⟩, rfl⟩
  · exact counted.trans (congrArg some size.symm)
  · rw [length]
    exact congrArg (· * t.width) size
  · rw [length]
    exact small

theorem Sized.exists_ofShapedElements {a : NumericArray} (sized : a.Sized) :
    ∃ elements, a.toElements a.elementType = .ok elements ∧ elements.length = a.size ∧
      ofShapedElements a.elementType elements a.shape = .ok a := by
  obtain ⟨elements, shown, length, bytes⟩ := sized.exists_toElements
  refine ⟨elements, shown, length, ?_⟩
  rw [ofShapedElements, bytes]
  exact new_of_sized sized

/-- Elements and bytes correspond. Whatever elements an array is made of, as a vector or in a shape that
counts as many, are read from it bit for bit. From an array that is made by an operation, or is taken
out of an archive, as many elements are read as its shape counts, and they make the same array again,
with the same bytes; for any other element type nothing is read. -/
theorem elements_correspond [Zlib] :
    (∀ {t : ElementType} (elements : List t.Element),
      (ofElements t elements).toElements t = .ok elements ∧
      ∀ shape : Shape, shape.count? = some elements.length →
        elements.length * t.width < wordLimit →
        ∃ a, ofShapedElements t elements shape = .ok a ∧ a.elementType = t ∧ a.shape = shape ∧
          a.toElements t = .ok elements) ∧
    ∀ {a : NumericArray}, (Value.array a).Made →
      (∃ elements, a.toElements a.elementType = .ok elements ∧ elements.length = a.size ∧
        ofShapedElements a.elementType elements a.shape = .ok a) ∧
      ∀ t, t ≠ a.elementType → a.toElements t = .error (.elementMismatch t a.elementType) := by
  refine ⟨?_, ?_⟩
  · intro t elements
    refine ⟨toElements_ofElements t elements, ?_⟩
    intro shape counted small
    exact ⟨_, ofShapedElements_eq_ok counted small, rfl, rfl, toElements_of_bytes⟩
  · intro a made
    exact ⟨Sized.exists_ofShapedElements made.wellFormed, fun t => toElements_of_ne⟩

/-- Two numbers that are none, of which the second one has other bits, and a truth value that is neither
zero nor one. -/
theorem elements_correspond_bits :
    let numbers : List (ElementType.Element .float32) := [0x7fc00000, 0xffc00001]
    let truths : NumericArray := ⟨.bool, .matrix 1 3, [0, 1, 2]⟩
    (∃ a, ofShapedElements .float32 numbers (.matrix 2 1) = .ok a ∧
      a.toElements .float32 = .ok numbers) ∧
    (∃ elements, truths.toElements .bool = .ok elements ∧
      ofShapedElements .bool elements (.matrix 1 3) = .ok truths) ∧
    truths.toElements .uint8 = .error (.elementMismatch .uint8 .bool) := by
  intro numbers truths
  let _ := Zlib.sample
  obtain ⟨shown, again⟩ := elements_correspond
  obtain ⟨a, made, _, _, same⟩ := (shown numbers).2 (.matrix 2 1) rfl (by decide)
  have truthsMade : (Value.array truths).Made :=
    .array (.new (rfl : new .bool (.matrix 1 3) [0, 1, 2] = _))
  obtain ⟨⟨elements, read, _, written⟩, mismatch⟩ := again truthsMade
  exact ⟨⟨a, made, same⟩, ⟨elements, read, written⟩, mismatch .uint8 (by decide)⟩

end GraphSnapshot.NumericArray
