import GraphSnapshot.Checksum.Crc32

/-! What checksums tell apart. No step of the redundancy check loses anything, so one byte that is
changed changes the checksum of the data around it. -/
namespace GraphSnapshot.Crc32

theorem and_one_eq_one_iff (r : UInt32) : r &&& 1 = 1 ↔ r.toBitVec.getLsbD 0 = true := by
  have odd : r &&& 1 = 1 ↔ r.toNat % 2 = 1 := by
    rw [← UInt32.toNat_inj, UInt32.toNat_and, ← Nat.and_one_is_mod]
    rfl
  rw [odd, ← BitVec.testBit_toNat, UInt32.toNat_toBitVec, Nat.testBit_zero, decide_eq_true_iff]

theorem getLsbD_shift (r : UInt32) (i : Nat) :
    (shift r).toBitVec.getLsbD i =
      (r.toBitVec.getLsbD (i + 1) ^^ (r.toBitVec.getLsbD 0 && polynomial.toBitVec.getLsbD i)) := by
  have moved : (r >>> 1).toBitVec.getLsbD i = r.toBitVec.getLsbD (i + 1) := by
    rw [UInt32.toBitVec_shiftRight]
    exact (BitVec.getLsbD_ushiftRight _ _ _).trans (by rw [Nat.add_comm]; rfl)
  unfold shift
  by_cases low : r &&& 1 = 1
  · rw [if_pos low, UInt32.toBitVec_xor, BitVec.getLsbD_xor, moved,
      (and_one_eq_one_iff r).mp low, Bool.true_and]
  · have bit : r.toBitVec.getLsbD 0 = false :=
      Bool.eq_false_iff.mpr (mt (and_one_eq_one_iff r).mpr low)
    rw [if_neg low, moved, bit, Bool.false_and, Bool.xor_false]

/-- The highest bit tells whether the generator was added. -/
theorem shift_injective : Function.Injective shift := by
  intro r s same
  have bits (i : Nat) : (shift r).toBitVec.getLsbD i = (shift s).toBitVec.getLsbD i := by rw [same]
  have top : polynomial.toBitVec.getLsbD 31 = true := by decide
  have low : r.toBitVec.getLsbD 0 = s.toBitVec.getLsbD 0 := by
    have high := bits 31
    rw [getLsbD_shift, getLsbD_shift, top, BitVec.getLsbD_of_ge _ 32 (Nat.le_refl _),
      BitVec.getLsbD_of_ge _ 32 (Nat.le_refl _)] at high
    simpa only [Bool.false_xor, Bool.and_true] using high
  apply UInt32.toBitVec_inj.mp
  apply BitVec.eq_of_getLsbD_eq
  intro i inside
  cases i with
  | zero => exact low
  | succ i =>
      have next := bits i
      rw [getLsbD_shift, getLsbD_shift, low] at next
      exact Bool.xor_left_inj.mp next

theorem shifts_injective (count : Nat) : Function.Injective (shifts count) := by
  induction count with
  | zero =>
      intro r s same
      exact same
  | succ count ih =>
      intro r s same
      exact shift_injective (ih same)

theorem step_injective (b : UInt8) : Function.Injective fun r => step r b := by
  intro r s same
  exact (UInt32.xor_left_inj _).mp (shifts_injective 8 same)

theorem step_right_injective (r : UInt32) : Function.Injective (step r) := by
  intro b c same
  have wide : b.toUInt32 = c.toUInt32 := (UInt32.xor_right_inj _).mp (shifts_injective 8 same)
  exact UInt8.toUInt32_inj.mp wide

theorem foldl_step_injective (bytes : List UInt8) : Function.Injective (bytes.foldl step) := by
  induction bytes with
  | nil =>
      intro r s same
      exact same
  | cons b rest ih =>
      intro r s same
      exact step_injective b (ih same)

/-- Whatever stands around it, a changed byte changes the checksum. -/
theorem eq_of_ofBytes_append_cons {front back : List UInt8} {b c : UInt8}
    (same : ofBytes (front ++ b :: back) = ofBytes (front ++ c :: back)) : b = c := by
  unfold ofBytes at same
  have folds := (UInt32.xor_left_inj _).mp same
  rw [List.foldl_append, List.foldl_append] at folds
  exact step_right_injective _ (foldl_step_injective back folds)

theorem set_eq_of_ofBytes_eq {data : List UInt8} {i : Nat} {b : UInt8}
    (same : ofBytes (data.set i b) = ofBytes data) : data.set i b = data := by
  by_cases inside : i < data.length
  · have split : data.take i ++ data[i] :: data.drop (i + 1) = data := by
      rw [← List.drop_eq_getElem_cons inside, List.take_append_drop]
    have changed : data.set i b = data.take i ++ b :: data.drop (i + 1) :=
      List.set_eq_take_append_cons_drop.trans (if_pos inside)
    have old : ofBytes (data.take i ++ data[i] :: data.drop (i + 1)) = ofBytes data := by rw [split]
    rw [changed, ← old] at same
    rw [changed, eq_of_ofBytes_append_cons same, split]
  · exact List.set_eq_of_length_le (Nat.not_lt.mp inside)

end GraphSnapshot.Crc32
