import GraphSnapshot.Proofs.Payload.Spelling

/-! The number of entries of a record is compared with the bytes that are left before any entry is
read. This refuses nothing that could have been read, since every entry takes at least
`minEntrySize` bytes: a key takes eight for its length, and a value one for its tag and one more. -/
namespace GraphSnapshot.Payload
open Reader

theorem Cursor.Spans.length_rest {c c' : Cursor} {bytes : List UInt8} (spans : c.Spans c' bytes) :
    c.rest.length = bytes.length + c'.rest.length := by
  rw [spans.1, List.length_append]

/-- Whatever the reader accepts takes at least so many bytes. -/
def Consumes {α : Type} (reader : Reader α) (count : Nat) : Prop :=
  ∀ c x c', reader c = .ok (x, c') → c'.rest.length + count ≤ c.rest.length

theorem consumes_text : Consumes text 8 := by
  intro c s c' h
  have length := (text_eq_ok_iff.mp h).2.length_rest
  rw [length_encodeString] at length
  omega

theorem consumes_readArray : Consumes readArray 1 := by
  intro c a c' h
  obtain ⟨_, bytes, encoded, spans⟩ := readArray_eq_ok_iff.mp h
  obtain ⟨_, rfl⟩ := encodeArray_eq_ok_iff.mp encoded
  have length := spans.length_rest
  rw [List.length_cons] at length
  omega

section Records
variable {check : Nat → Nat → Bool} {reader : Reader Value} {c c' : Cursor} {record : Record}

/-- Entries that have been read one after another have taken their smallest size each. -/
theorem Consumes.readEntries (values : Consumes reader 2) {count : Nat} {seen : Record}
    (h : readEntries reader count seen c = .ok (record, c')) :
    c'.rest.length + count * minEntrySize ≤ c.rest.length := by
  induction count generalizing seen c with
  | zero =>
    rw [Payload.readEntries, Reader.pure_eq_ok_iff] at h
    obtain ⟨_, rfl⟩ := h
    omega
  | succ count ih =>
    obtain ⟨key, c₁, v, c₂, named, _, valued, others⟩ := readEntries_succ_eq_ok_iff.mp h
    have name := consumes_text c key c₁ named
    have value := values c₁ v c₂ valued
    have rest := ih others
    simp only [minEntrySize] at rest ⊢
    omega

theorem Consumes.readRecord (values : Consumes reader 2) : Consumes (readRecord check reader) 1 := by
  intro c record c' h
  simp only [Payload.readRecord, Reader.bind_eq_ok_iff, word_spans_iff, remaining_eq_ok_iff] at h
  obtain ⟨count, c₁, ⟨_, counted⟩, _, _, ⟨rfl, rfl⟩, h⟩ := h
  have length := counted.length_rest
  rw [Bytes.length_ofLength] at length
  split at h
  · have entries := values.readEntries h
    omega
  · exact absurd h throw_ne_ok

end Records

theorem consumes_readContent {check : Nat → Nat → Bool} {room : Nat}
    (inside : ∀ inner, room = inner + 1 → Consumes (readValue check inner) 2) {c c' : Cursor}
    {v : Value} (h : ReadsContent check room c c' v) : c'.rest.length + 1 ≤ c.rest.length := by
  cases v with
  | bool b =>
    have length := Cursor.Spans.length_rest h
    rw [List.length_singleton] at length
    omega
  | int i | float bits =>
    have length := Cursor.Spans.length_rest h
    rw [Bytes.length_ofWord] at length
    omega
  | string s =>
    have text := consumes_text c s c' h
    omega
  | array a => exact consumes_readArray c a c' h
  | record entries =>
    obtain ⟨inner, same, h⟩ := h
    exact (inside inner same).readRecord c entries c' h

/-- A value takes a byte for its tag and at least one for its content, whatever check is made. -/
theorem consumes_readValue (check : Nat → Nat → Bool) (room : Nat) :
    Consumes (readValue check room) 2 := by
  -- Only a record asks for less room, so the room that is left carries the induction.
  have step (room : Nat)
      (inside : ∀ inner, room = inner + 1 → Consumes (readValue check inner) 2) :
      Consumes (readValue check room) 2 := by
    intro c v c' h
    obtain ⟨mid, tagged, content⟩ := readContent_of_readValue h
    have tag := tagged.length_rest
    have rest := consumes_readContent inside content
    rw [List.length_singleton] at tag
    omega
  induction room with
  | zero => exact step 0 nofun
  | succ room ih =>
    apply step
    rintro _ ⟨rfl⟩
    exact ih

/-- A record that lies inside `depth` others. -/
def readRecordAt (check : Nat → Nat → Bool) (depth : Nat) : Reader Record :=
  if maxDepth < depth then throw (.recordTooDeep maxDepth)
  else readRecord check (readValue check (maxDepth - depth))

theorem readAll_eq (check : Nat → Nat → Bool) (data : List UInt8) :
    readAll check data = (do
      let (record, cursor) ← readRecordAt check 0 ⟨data, 0⟩
      if cursor.rest.isEmpty then return record
      else throw (.trailingBytes cursor.rest.length)) := rfl

def anyCount (_ _ : Nat) : Bool := true

theorem lenient_anyCount : Lenient anyCount := fun _ _ _ => rfl

theorem readRecordAt_check_iff {depth : Nat} {c c' : Cursor} {record : Record} :
    readRecordAt entriesFit depth c = .ok (record, c') ↔
      readRecordAt anyCount depth c = .ok (record, c') := by
  simp only [readRecordAt]
  split
  · rfl
  · have checked := faithful_readValue lenient_entriesFit (maxDepth - depth)
    have unchecked := faithful_readValue lenient_anyCount (maxDepth - depth)
    exact (readRecord_eq_ok_iff lenient_entriesFit checked).trans
      (readRecord_eq_ok_iff lenient_anyCount unchecked).symm

theorem readAll_check_iff {data : List UInt8} {record : Record} :
    readAll entriesFit data = .ok record ↔ readAll anyCount data = .ok record := by
  simp only [readAll_eq, bind_eq_ok_iff, Prod.exists, readRecordAt_check_iff]

/-- Too many entries for the bytes that are left cannot be read one after another either. -/
theorem exists_error_of_not_fit {check : Nat → Nat → Bool} {room count : Nat} {seen : Record}
    {c : Cursor} (refused : entriesFit count c.rest.length = false) :
    ∃ cause, readEntries (readValue check room) count seen c = .error cause := by
  cases read : readEntries (readValue check room) count seen c with
  | error cause => exact ⟨cause, rfl⟩
  | ok found =>
    have entries := (consumes_readValue check room).readEntries read
    have enough : count * minEntrySize ≤ c.rest.length := by omega
    rw [lenient_entriesFit count c.rest.length enough] at refused
    cases refused

/-- The check of the number of entries only saves work. With and without it the same records are read
at every depth and up to the same byte, and the same payloads are read. Where it refuses a number of
entries, reading so many one after another fails as well, because an entry of whatever kind, once it
has been read, has taken the smallest size of an entry or more. -/
theorem count_check_redundant :
    (∀ depth c c' record, readRecordAt entriesFit depth c = .ok (record, c') ↔
      readRecordAt anyCount depth c = .ok (record, c')) ∧
    (∀ data record, decode data = .ok record ↔ readAll anyCount data = .ok record) ∧
    (∀ room count (c : Cursor), entriesFit count c.rest.length = false →
      ∃ cause, readEntries (readValue anyCount room) count [] c = .error cause) ∧
    ∀ check room c key c₁ v c₂, text c = .ok (key, c₁) → readValue check room c₁ = .ok (v, c₂) →
      c₂.rest.length + minEntrySize ≤ c.rest.length := by
  refine ⟨?same, ?payloads, ?refused, ?entry⟩
  case same =>
    intro depth c c' record
    exact readRecordAt_check_iff
  case payloads =>
    intro data record
    exact readAll_check_iff
  case refused =>
    intro room count c refused
    exact exists_error_of_not_fit refused
  case entry =>
    intro check room c key c₁ v c₂ named valued
    have name := consumes_text c key c₁ named
    have value := consumes_readValue check room c₁ v c₂ valued
    simp only [minEntrySize]
    omega

/-- Two entries are stated before the smallest entry and nine bytes, one less than another takes. -/
theorem count_check_redundant_boundary :
    ∃ back : List UInt8, ∃ c c₁ c₂ : Cursor,
      back.length = 9 ∧ c.rest = Bytes.ofLength 0 ++ ([kindTag .bool, 1] ++ back) ∧
      text c = .ok ("", c₁) ∧ readValue anyCount maxDepth c₁ = .ok (.bool true, c₂) ∧
      c₂.rest.length + minEntrySize ≤ c.rest.length ∧ entriesFit 2 c.rest.length = false ∧
      ∃ cause, readEntries (readValue anyCount maxDepth) 2 [] c = .error cause := by
  obtain ⟨back, small, unfit⟩ : ∃ back : List UInt8, back.length = 9 ∧
      entriesFit 2 (Bytes.ofLength 0 ++ ([kindTag .bool, 1] ++ back)).length = false :=
    ⟨List.replicate 9 0, rfl, rfl⟩
  have named : text ⟨Bytes.ofLength 0 ++ ([kindTag .bool, 1] ++ back), 8⟩ =
      .ok ("", ⟨[kindTag .bool, 1] ++ back, 16⟩) :=
    text_eq_ok_iff.mpr ⟨by decide, rfl, rfl⟩
  have tagged : Cursor.Spans ⟨[kindTag .bool, 1] ++ back, 16⟩ ⟨1 :: back, 17⟩ [kindTag .bool] :=
    ⟨rfl, rfl⟩
  have content : ReadsContent anyCount maxDepth ⟨1 :: back, 17⟩ ⟨back, 18⟩ (.bool true) :=
    ⟨rfl, rfl⟩
  have valued := readValue_of_readContent tagged content
  obtain ⟨_, _, refused, taken⟩ := count_check_redundant
  exact ⟨back, _, _, _, small, rfl, named, valued, taken _ _ _ _ _ _ _ named valued, unfit,
    refused maxDepth 2 _ unfit⟩

end GraphSnapshot.Payload
