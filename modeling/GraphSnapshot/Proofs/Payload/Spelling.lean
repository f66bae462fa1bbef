import GraphSnapshot.Proofs.NumericArray
import GraphSnapshot.Proofs.Payload.Reading
import GraphSnapshot.Proofs.Payload.Writing
import GraphSnapshot.Proofs.Record

/-! Every payload that is read spells one record, and every record has one spelling. The main
statement is `decode_eq_ok_iff`: decoding accepts exactly what encoding gives. -/
namespace GraphSnapshot

mutual
/-- Every text and every record inside has a length that is a word. -/
def Value.Worded : Value → Prop
  | .string s => (Text.utf8 s).length < wordLimit
  | .record entries => entries.length < wordLimit ∧ WordedEntries entries
  | _ => True

def Value.WordedEntries : List (String × Value) → Prop
  | [] => True
  | (key, v) :: rest => (Text.utf8 key).length < wordLimit ∧ v.Worded ∧ WordedEntries rest
end

namespace Payload
open Reader

section Readers
variable {c c' : Cursor}

theorem readArray_eq_ok_iff {a : NumericArray} :
    readArray c = .ok (a, c') ↔
      a.Sized ∧ ∃ bytes, encodeArray a = .ok bytes ∧ c.Spans c' bytes := by
  simp only [readArray, Reader.bind_eq_ok_iff, byte_spans_iff]
  constructor
  · intro ⟨tag, c₁, tagged, h⟩
    cases known : ElementType.ofTag? tag with
    | none =>
      rw [known] at h
      exact absurd h throw_ne_ok
    | some elements =>
      simp only [known, Reader.bind_eq_ok_iff, byte_spans_iff, words_eq_ok_iff, word_spans_iff,
        take_spans_iff] at h
      obtain ⟨rank, c₂, ranked, dims, c₃, ⟨count, sizes⟩, n, c₄, ⟨_, length⟩, bytes, c₅,
        ⟨rfl, content⟩, h⟩ := h
      cases made : NumericArray.new elements ⟨dims⟩ bytes with
      | error violation =>
        rw [made] at h
        exact absurd h throw_ne_ok
      | ok b =>
        rw [made] at h
        obtain ⟨rfl, rfl⟩ := Reader.pure_eq_ok_iff.mp h
        obtain ⟨sized, rfl⟩ := NumericArray.new_eq_ok_iff.mp made
        have small : dims.length ≤ 255 := by
          have := rank.toNat_lt
          omega
        refine ⟨sized, _, encodeArray_eq_ok_iff.mpr ⟨small, rfl⟩, ?_⟩
        rw [ElementType.tag_of_ofTag? known, Shape.rank, count, UInt8.ofNat_toNat]
        refine Cursor.spans_cons.mpr ⟨c₁, tagged, Cursor.spans_cons.mpr ⟨c₂, ranked, ?_⟩⟩
        exact Cursor.spans_append.mpr ⟨c₄, Cursor.spans_append.mpr ⟨c₃, sizes, length⟩, content⟩
  · intro ⟨sized, bytes, encoded, spans⟩
    obtain ⟨small, rfl⟩ := encodeArray_eq_ok_iff.mp encoded
    obtain ⟨c₁, tagged, spans⟩ := Cursor.spans_cons.mp spans
    obtain ⟨c₂, ranked, spans⟩ := Cursor.spans_cons.mp spans
    obtain ⟨c₄, front, content⟩ := Cursor.spans_append.mp spans
    obtain ⟨c₃, sizes, length⟩ := Cursor.spans_append.mp front
    refine ⟨_, c₁, tagged, ?_⟩
    simp only [ElementType.ofTag?_tag, Reader.bind_eq_ok_iff, byte_spans_iff, words_eq_ok_iff,
      word_spans_iff, take_spans_iff]
    have rank : (UInt8.ofNat a.shape.rank).toNat = a.shape.dims.length := by
      rw [UInt8.toNat_ofNat', Nat.mod_eq_of_lt (by omega), Shape.rank]
    refine ⟨_, c₂, ranked, _, c₃, ⟨rank.symm, sizes⟩, _, c₄, ⟨sized.length_lt, length⟩, _, c',
      ⟨rfl, content⟩, ?_⟩
    rw [NumericArray.new_of_sized sized]
    exact Reader.pure_eq_ok_iff.mpr ⟨rfl, rfl⟩

/-- The reader accepts exactly the values that can be written with so much room, each spelled as it
is written. -/
def Faithful (room : Nat) (reader : Reader Value) : Prop :=
  ∀ v c c', reader c = .ok (v, c') ↔
    (v.WellFormed ∧ v.Worded) ∧ ∃ bytes, encodeValue room v = .ok bytes ∧ c.Spans c' bytes

/-- The check accepts every number of entries for which there are enough bytes. -/
def Lenient (check : Nat → Nat → Bool) : Prop :=
  ∀ count left, count * minEntrySize ≤ left → check count left = true

theorem readEntries_succ_eq_ok_iff {reader : Reader Value} {count : Nat} {seen record : Record} :
    readEntries reader (count + 1) seen c = .ok (record, c') ↔
      ∃ key c₁ value c₂, text c = .ok (key, c₁) ∧ key ∉ seen.keys ∧ reader c₁ = .ok (value, c₂) ∧
        readEntries reader count (seen ++ [(key, value)]) c₂ = .ok (record, c') := by
  simp only [readEntries, Reader.bind_eq_ok_iff]
  constructor
  · intro ⟨key, c₁, named, h⟩
    split at h
    · obtain ⟨_, _, thrown, _⟩ := Reader.bind_eq_ok_iff.mp h
      exact absurd thrown throw_ne_ok
    · next free =>
      obtain ⟨value, c₂, first, others⟩ := Reader.bind_eq_ok_iff.mp h
      exact ⟨key, c₁, value, c₂, named, fun taken => free (Entries.contains_iff.mpr taken), first,
        others⟩
  · intro ⟨key, c₁, value, c₂, named, free, first, others⟩
    refine ⟨key, c₁, named, ?_⟩
    rw [if_neg fun taken => free (Entries.contains_iff.mp taken)]
    exact Reader.bind_eq_ok_iff.mpr ⟨value, c₂, first, others⟩

theorem readEntries_eq_ok_iff {room : Nat} {reader : Reader Value} (faithful : Faithful room reader)
    {count : Nat} {seen record : Record} (distinct : seen.Distinct) :
    readEntries reader count seen c = .ok (record, c') ↔
      ∃ more, more.length = count ∧ record = seen ++ more ∧ record.Distinct ∧
        Value.WellFormedEntries more ∧ Value.WordedEntries more ∧
        ∃ bytes, encodeEntries room more = .ok bytes ∧ c.Spans c' bytes := by
  -- What has been seen grows with each entry, so it is part of the induction.
  induction count generalizing seen c with
  | zero =>
    rw [readEntries, Reader.pure_eq_ok_iff]
    constructor
    · rintro ⟨rfl, rfl⟩
      exact ⟨[], rfl, (List.append_nil seen).symm, distinct, trivial, trivial, [], rfl,
        Cursor.spans_nil.mpr rfl⟩
    · rintro ⟨more, length, rfl, _, _, _, bytes, encoded, spans⟩
      obtain rfl := List.length_eq_zero_iff.mp length
      cases encoded
      exact ⟨(List.append_nil seen).symm, Cursor.spans_nil.mp spans⟩
  | succ count ih =>
    rw [readEntries_succ_eq_ok_iff]
    constructor
    · intro ⟨key, c₁, value, c₂, named, free, first, others⟩
      obtain ⟨small, name⟩ := text_eq_ok_iff.mp named
      obtain ⟨⟨well, worded⟩, front, encoded, content⟩ := (faithful value c₁ c₂).mp first
      have added := Entries.distinct_of_insert distinct
        (Entries.insert_eq_ok_iff.mpr ⟨free, rfl⟩ : seen.insert key value = .ok _)
      obtain ⟨more, rfl, rfl, whole, wells, wordeds, back, encodeds, rest⟩ := (ih added).mp others
      refine ⟨(key, value) :: more, rfl, ?_, whole, ⟨well, wells⟩, ⟨small, worded, wordeds⟩, _,
        encodeEntries_cons_eq_ok_iff.mpr ⟨front, back, encoded, encodeds, rfl⟩, ?_⟩
      · rw [List.append_assoc, List.singleton_append]
      · exact Cursor.spans_append.mpr ⟨c₂, Cursor.spans_append.mpr ⟨c₁, name, content⟩, rest⟩
    · rintro ⟨more, length, rfl, whole, well, worded, bytes, encoded, spans⟩
      cases more with
      | nil => cases length
      | cons entry more =>
        obtain ⟨key, value⟩ := entry
        obtain ⟨front, back, first, others, rfl⟩ := encodeEntries_cons_eq_ok_iff.mp encoded
        obtain ⟨c₂, spans, rest⟩ := Cursor.spans_append.mp spans
        obtain ⟨c₁, name, content⟩ := Cursor.spans_append.mp spans
        have apart := (Entries.distinct_append_iff.mp whole).2.2
        have free : key ∉ seen.keys := fun taken =>
          apart key taken (Entries.mem_keys_of_mem List.mem_cons_self)
        have added := Entries.distinct_of_insert distinct
          (Entries.insert_eq_ok_iff.mpr ⟨free, rfl⟩ : seen.insert key value = .ok _)
        refine ⟨key, c₁, value, c₂, text_eq_ok_iff.mpr ⟨worded.1, name⟩, free,
          (faithful value c₁ c₂).mpr ⟨⟨well.1, worded.2.1⟩, front, first, content⟩,
          (ih added).mpr ⟨more, Nat.succ.inj length, ?_, whole, well.2, worded.2.2, back, others,
            rest⟩⟩
        rw [List.append_assoc, List.singleton_append]

theorem readRecord_eq_ok_iff {check : Nat → Nat → Bool} (lenient : Lenient check) {room : Nat}
    {reader : Reader Value} (faithful : Faithful room reader) {record : Record} :
    readRecord check reader c = .ok (record, c') ↔
      ((Value.record record).WellFormed ∧ (Value.record record).Worded) ∧
        ∃ body, encodeEntries room record = .ok body ∧
          c.Spans c' (Bytes.ofLength record.length ++ body) := by
  simp only [readRecord, Reader.bind_eq_ok_iff, word_spans_iff, remaining_eq_ok_iff]
  constructor
  · rintro ⟨count, c₁, ⟨small, counted⟩, _, _, ⟨rfl, rfl⟩, h⟩
    split at h
    · obtain ⟨more, rfl, rfl, distinct, well, worded, body, encoded, spans⟩ :=
        (readEntries_eq_ok_iff faithful Entries.distinct_nil).mp h
      exact ⟨⟨⟨distinct, well⟩, small, worded⟩, body, encoded,
        Cursor.spans_append.mpr ⟨c₁, counted, spans⟩⟩
    · exact absurd h throw_ne_ok
  · intro ⟨⟨⟨distinct, well⟩, small, worded⟩, body, encoded, spans⟩
    obtain ⟨c₁, counted, spans⟩ := Cursor.spans_append.mp spans
    refine ⟨_, c₁, ⟨small, counted⟩, _, c₁, ⟨rfl, rfl⟩, ?_⟩
    have enough : record.length * minEntrySize ≤ c₁.rest.length := by
      have := minEntrySize_mul_le encoded
      rw [spans.1, List.length_append]
      omega
    rw [if_pos (lenient _ _ enough)]
    exact (readEntries_eq_ok_iff faithful Entries.distinct_nil).mpr
      ⟨record, rfl, rfl, distinct, well, worded, body, encoded, spans⟩

/-- The content of a value is read behind its tag. -/
def ReadsContent (check : Nat → Nat → Bool) (room : Nat) (c c' : Cursor) : Value → Prop
  | .bool b => c.Spans c' [if b then 1 else 0]
  | .int i => c.Spans c' (Bytes.ofWord i.toUInt64)
  | .float bits => c.Spans c' (Bytes.ofWord bits)
  | .string s => text c = .ok (s, c')
  | .array a => readArray c = .ok (a, c')
  | .record entries =>
    ∃ inner, room = inner + 1 ∧ readRecord check (readValue check inner) c = .ok (entries, c')

theorem readContent_of_readValue {check : Nat → Nat → Bool} {room : Nat} {v : Value}
    (h : readValue check room c = .ok (v, c')) :
    ∃ mid, c.Spans mid [kindTag v.kind] ∧ ReadsContent check room mid c' v := by
  unfold readValue at h
  simp only [Reader.bind_eq_ok_iff, position_eq_ok_iff, byte_spans_iff] at h
  obtain ⟨_, _, ⟨rfl, rfl⟩, tag, mid, tagged, h⟩ := h
  have spelled (kind : Kind) (same : tag.toNat = (kindTag kind).toNat) :
      c.Spans mid [kindTag kind] := UInt8.toNat_inj.mp same ▸ tagged
  generalize number : tag.toNat = n at h
  rcases n with _ | _ | _ | _ | _ | _ | n
  · obtain ⟨b, c₁, content, h⟩ := Reader.bind_eq_ok_iff.mp h
    by_cases zero : b = 0
    · subst zero
      obtain ⟨rfl, rfl⟩ := Reader.pure_eq_ok_iff.mp h
      exact ⟨mid, spelled .bool number, byte_spans_iff.mp content⟩
    · by_cases one : b = 1
      · subst one
        obtain ⟨rfl, rfl⟩ := Reader.pure_eq_ok_iff.mp h
        exact ⟨mid, spelled .bool number, byte_spans_iff.mp content⟩
      · simp only at h
        exact absurd h throw_ne_ok
  · obtain ⟨n, c₁, content, h⟩ := Reader.bind_eq_ok_iff.mp h
    obtain ⟨rfl, rfl⟩ := Reader.pure_eq_ok_iff.mp h
    exact ⟨mid, spelled .int number, spans_ofWord_of_word content⟩
  · obtain ⟨n, c₁, content, h⟩ := Reader.bind_eq_ok_iff.mp h
    obtain ⟨rfl, rfl⟩ := Reader.pure_eq_ok_iff.mp h
    exact ⟨mid, spelled .float number, spans_ofWord_of_word content⟩
  · obtain ⟨s, c₁, content, h⟩ := Reader.bind_eq_ok_iff.mp h
    obtain ⟨rfl, rfl⟩ := Reader.pure_eq_ok_iff.mp h
    exact ⟨mid, spelled .string number, content⟩
  · obtain ⟨a, c₁, content, h⟩ := Reader.bind_eq_ok_iff.mp h
    obtain ⟨rfl, rfl⟩ := Reader.pure_eq_ok_iff.mp h
    exact ⟨mid, spelled .array number, content⟩
  · cases room with
    | zero => exact absurd h throw_ne_ok
    | succ room =>
      obtain ⟨entries, c₁, content, h⟩ := Reader.bind_eq_ok_iff.mp h
      obtain ⟨rfl, rfl⟩ := Reader.pure_eq_ok_iff.mp h
      exact ⟨mid, spelled .record number, room, rfl, content⟩
  · exact absurd h throw_ne_ok

theorem readValue_of_readContent {check : Nat → Nat → Bool} {room : Nat} {v : Value} {mid : Cursor}
    (tagged : c.Spans mid [kindTag v.kind]) (content : ReadsContent check room mid c' v) :
    readValue check room c = .ok (v, c') := by
  unfold readValue
  simp only [Reader.bind_eq_ok_iff, position_eq_ok_iff, byte_spans_iff]
  refine ⟨_, c, ⟨rfl, rfl⟩, _, mid, tagged, ?_⟩
  cases v with
  | bool b =>
    refine Reader.bind_eq_ok_iff.mpr ⟨_, c', byte_spans_iff.mpr content, ?_⟩
    cases b with
    | false => exact Reader.pure_eq_ok_iff.mpr ⟨rfl, rfl⟩
    | true => exact Reader.pure_eq_ok_iff.mpr ⟨rfl, rfl⟩
  | int i =>
    refine Reader.bind_eq_ok_iff.mpr ⟨_, c', word_of_spans_ofWord content, ?_⟩
    rw [UInt64.ofNat_toNat]
    exact Reader.pure_eq_ok_iff.mpr ⟨rfl, rfl⟩
  | float bits =>
    refine Reader.bind_eq_ok_iff.mpr ⟨_, c', word_of_spans_ofWord content, ?_⟩
    rw [UInt64.ofNat_toNat]
    exact Reader.pure_eq_ok_iff.mpr ⟨rfl, rfl⟩
  | string s =>
    exact Reader.bind_eq_ok_iff.mpr ⟨s, c', content, Reader.pure_eq_ok_iff.mpr ⟨rfl, rfl⟩⟩
  | array a =>
    exact Reader.bind_eq_ok_iff.mpr ⟨a, c', content, Reader.pure_eq_ok_iff.mpr ⟨rfl, rfl⟩⟩
  | record entries =>
    obtain ⟨inner, rfl, read⟩ := content
    exact Reader.bind_eq_ok_iff.mpr ⟨entries, c', read, Reader.pure_eq_ok_iff.mpr ⟨rfl, rfl⟩⟩

theorem readContent_iff {check : Nat → Nat → Bool} (lenient : Lenient check) {room : Nat}
    (faithful : ∀ inner, room = inner + 1 → Faithful inner (readValue check inner)) {v : Value} :
    ReadsContent check room c c' v ↔ (v.WellFormed ∧ v.Worded) ∧
      ∃ body, encodeValue room v = .ok (kindTag v.kind :: body) ∧ c.Spans c' body := by
  cases v with
  | bool b | int i | float bits =>
    refine ⟨fun spans => ⟨⟨trivial, trivial⟩, _, rfl, spans⟩, ?_⟩
    rintro ⟨_, body, ⟨rfl⟩, spans⟩
    exact spans
  | string s =>
    refine text_eq_ok_iff.trans ⟨fun ⟨small, spans⟩ => ⟨⟨trivial, small⟩, _, rfl, spans⟩, ?_⟩
    rintro ⟨⟨_, small⟩, body, ⟨rfl⟩, spans⟩
    exact ⟨small, spans⟩
  | array a =>
    refine readArray_eq_ok_iff.trans ⟨?_, ?_⟩
    · intro ⟨sized, bytes, encoded, spans⟩
      exact ⟨⟨sized, trivial⟩, bytes, encodeValue_array_eq_ok_iff.mpr ⟨bytes, encoded, rfl⟩, spans⟩
    · intro ⟨⟨sized, _⟩, body, encoded, spans⟩
      obtain ⟨_, array, ⟨rfl⟩⟩ := encodeValue_array_eq_ok_iff.mp encoded
      exact ⟨sized, body, array, spans⟩
  | record entries =>
    constructor
    · rintro ⟨inner, rfl, h⟩
      obtain ⟨sound, body, encoded, spans⟩ := (readRecord_eq_ok_iff lenient (faithful inner rfl)).mp h
      exact ⟨sound, _, encodeValue_record_eq_ok_iff.mpr ⟨inner, body, rfl, encoded, rfl⟩, spans⟩
    · intro ⟨sound, body, encoded, spans⟩
      obtain ⟨inner, back, rfl, inside, ⟨rfl⟩⟩ := encodeValue_record_eq_ok_iff.mp encoded
      exact ⟨inner, rfl, (readRecord_eq_ok_iff lenient (faithful inner rfl)).mpr
        ⟨sound, back, inside, spans⟩⟩

theorem faithful_readValue {check : Nat → Nat → Bool} (lenient : Lenient check) (room : Nat) :
    Faithful room (readValue check room) := by
  -- Only a record asks for less room, so the room that is left carries the induction.
  have step (room : Nat)
      (faithful : ∀ inner, room = inner + 1 → Faithful inner (readValue check inner)) :
      Faithful room (readValue check room) := by
    intro v c c'
    constructor
    · intro h
      obtain ⟨mid, tagged, content⟩ := readContent_of_readValue h
      obtain ⟨sound, body, encoded, spans⟩ := (readContent_iff lenient faithful).mp content
      exact ⟨sound, _, encoded, Cursor.spans_cons.mpr ⟨mid, tagged, spans⟩⟩
    · intro ⟨sound, bytes, encoded, spans⟩
      obtain ⟨body, rfl⟩ := encodeValue_eq_kindTag_cons encoded
      obtain ⟨mid, tagged, spans⟩ := Cursor.spans_cons.mp spans
      exact readValue_of_readContent tagged
        ((readContent_iff lenient faithful).mpr ⟨sound, body, encoded, spans⟩)
  induction room with
  | zero => exact step 0 nofun
  | succ room ih =>
    apply step
    rintro _ ⟨rfl⟩
    exact ih

theorem lenient_entriesFit : Lenient entriesFit := by
  intro count left enough
  rw [entriesFit, decide_eq_true_iff]
  exact (Nat.le_div_iff_mul_le (by decide)).mpr enough

end Readers

theorem readAll_eq_ok_iff {check : Nat → Nat → Bool} (lenient : Lenient check) {data : List UInt8}
    {record : Record} :
    readAll check data = .ok record ↔
      ((Value.record record).WellFormed ∧ (Value.record record).Worded) ∧
        encode record = .ok data := by
  have reads (c' : Cursor) : readRecord check (readValue check maxDepth) ⟨data, 0⟩ =
      .ok (record, c') ↔ _ := readRecord_eq_ok_iff lenient (faithful_readValue lenient maxDepth)
  rw [readAll, encode_eq_ok_iff]
  constructor
  · intro h
    obtain ⟨⟨record', c'⟩, read, h⟩ := bind_eq_ok_iff.mp h
    dsimp only at h
    split at h
    · next done =>
      cases h
      obtain ⟨sound, body, encoded, spans, _⟩ := (reads c').mp read
      refine ⟨sound, body, encoded, ?_⟩
      rw [List.isEmpty_iff.mp done, List.append_nil] at spans
      exact spans.symm
    · exact absurd h GraphSnapshot.throw_ne_ok
  · rintro ⟨sound, body, encoded, rfl⟩
    let finish : Cursor := ⟨[], 0 + (Bytes.ofLength record.length ++ body).length⟩
    have spans : Cursor.Spans ⟨Bytes.ofLength record.length ++ body, 0⟩ finish
        (Bytes.ofLength record.length ++ body) := ⟨(List.append_nil _).symm, rfl⟩
    exact bind_eq_ok_iff.mpr
      ⟨(record, finish), (reads finish).mpr ⟨sound, body, encoded, spans⟩, rfl⟩

theorem decode_eq_ok_iff {data : List UInt8} {record : Record} :
    decode data = .ok record ↔
      ((Value.record record).WellFormed ∧ (Value.record record).Worded) ∧
        encode record = .ok data :=
  readAll_eq_ok_iff lenient_entriesFit

end Payload
end GraphSnapshot
