import GraphSnapshot.Proofs.Payload.Writing
import Mathlib.Data.List.Perm.Subperm

/-! The bytes that entries take. They take as many in any order, and fewer entries take no more. -/
namespace GraphSnapshot.Payload
variable {room size : Nat} {entries entries' : Record}

/-- The entries can be written, in at most so many bytes. -/
def Fits (room size : Nat) (entries : Record) : Prop :=
  ∃ bytes, encodeEntries room entries = .ok bytes ∧ bytes.length ≤ size

theorem fits_cons_iff {entry : String × Value} {rest : Record} :
    Fits room size (entry :: rest) ↔ ∃ front left, encodeValue room entry.2 = .ok front ∧
      Fits room left rest ∧ (encodeString entry.1).length + front.length + left ≤ size := by
  obtain ⟨key, value⟩ := entry
  simp only [Fits, encodeEntries_cons_eq_ok_iff]
  constructor
  · rintro ⟨_, ⟨front, back, first, others, rfl⟩, small⟩
    rw [List.length_append, List.length_append] at small
    exact ⟨front, back.length, first, ⟨back, others, Nat.le_refl _⟩, small⟩
  · intro ⟨front, left, first, ⟨back, others, fewer⟩, small⟩
    refine ⟨_, ⟨front, back, first, others, rfl⟩, ?_⟩
    rw [List.length_append, List.length_append]
    omega

theorem Fits.mono (fits : Fits room size entries) {larger : Nat} (less : size ≤ larger) :
    Fits room larger entries := by
  obtain ⟨bytes, encoded, small⟩ := fits
  exact ⟨bytes, encoded, Nat.le_trans small less⟩

theorem Fits.perm (fits : Fits room size entries) (moved : entries.Perm entries') :
    Fits room size entries' := by
  induction moved generalizing size with
  | nil => exact fits
  | cons entry moved ih =>
      obtain ⟨front, left, first, others, small⟩ := fits_cons_iff.mp fits
      exact fits_cons_iff.mpr ⟨front, left, first, ih others, small⟩
  | swap entry entry' rest =>
      obtain ⟨front, _, first, fits, small⟩ := fits_cons_iff.mp fits
      obtain ⟨front', left, second, others, small'⟩ := fits_cons_iff.mp fits
      have rest := fits_cons_iff.mpr ⟨front, left, first, others, Nat.le_refl _⟩
      exact fits_cons_iff.mpr ⟨front', _, second, rest, by omega⟩
  | trans _ _ ih ih' => exact ih' (ih fits)

theorem Fits.sublist (fits : Fits room size entries') (fewer : entries.Sublist entries') :
    Fits room size entries := by
  induction fewer generalizing size with
  | slnil => exact fits
  | cons entry fewer ih =>
      obtain ⟨front, left, _, others, small⟩ := fits_cons_iff.mp fits
      exact (ih others).mono (by omega)
  | cons_cons entry fewer ih =>
      obtain ⟨front, left, first, others, small⟩ := fits_cons_iff.mp fits
      exact fits_cons_iff.mpr ⟨front, left, first, ih others, small⟩

theorem Fits.subperm (fits : Fits room size entries') (some : entries.Subperm entries') :
    Fits room size entries := by
  obtain ⟨_, moved, fewer⟩ := some
  exact (fits.sublist fewer).perm moved

theorem exists_encodeValue_of_perm {bytes : List UInt8}
    (h : encodeValue room (.record entries) = .ok bytes) (moved : entries.Perm entries') :
    ∃ bytes', encodeValue room (.record entries') = .ok bytes' ∧ bytes'.length ≤ bytes.length := by
  obtain ⟨inner, body, rfl, encoded, rfl⟩ := encodeValue_record_eq_ok_iff.mp h
  have fits : Fits inner body.length entries := ⟨body, encoded, Nat.le_refl _⟩
  obtain ⟨body', encoded', small⟩ := fits.perm moved
  refine ⟨_, encodeValue_record_eq_ok_iff.mpr ⟨inner, body', rfl, encoded', rfl⟩, ?_⟩
  simp only [List.length_cons, List.length_append, Bytes.length_ofLength]
  omega

end GraphSnapshot.Payload
