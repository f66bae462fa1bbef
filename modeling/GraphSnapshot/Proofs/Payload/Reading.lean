import GraphSnapshot.Payload.Decoding
import GraphSnapshot.Proofs.Outcome

/-! What readers accept. Each reader accepts exactly the bytes that its content is written as, and
stops behind them. -/
namespace GraphSnapshot.Payload

/-- These bytes stand between two cursors. -/
def Cursor.Spans (c c' : Cursor) (bytes : List UInt8) : Prop :=
  c.rest = bytes ++ c'.rest ∧ c'.position = c.position + bytes.length

theorem Cursor.spans_nil {c c' : Cursor} : c.Spans c' [] ↔ c = c' := by
  obtain ⟨rest, position⟩ := c
  obtain ⟨rest', position'⟩ := c'
  simp only [Spans, List.nil_append, List.length_nil, Nat.add_zero, Cursor.mk.injEq,
    eq_comm (a := position')]

theorem Cursor.spans_append {c c' : Cursor} {front back : List UInt8} :
    c.Spans c' (front ++ back) ↔ ∃ mid, c.Spans mid front ∧ mid.Spans c' back := by
  simp only [Spans, List.append_assoc, List.length_append]
  constructor
  · intro ⟨rest, position⟩
    refine ⟨⟨back ++ c'.rest, c.position + front.length⟩, ⟨rest, rfl⟩, rfl, ?_⟩
    rw [position, Nat.add_assoc]
  · intro ⟨mid, ⟨rest, position⟩, rest', position'⟩
    exact ⟨by rw [rest, rest'], by omega⟩

theorem Cursor.spans_cons {c c' : Cursor} {b : UInt8} {back : List UInt8} :
    c.Spans c' (b :: back) ↔ ∃ mid, c.Spans mid [b] ∧ mid.Spans c' back := by
  rw [← spans_append, List.singleton_append]

namespace Reader
variable {c c' : Cursor}

theorem throw_ne_ok {α : Type} {fault : Corruption} {x : α} :
    (throw fault : Reader α) c ≠ .ok (x, c') := nofun

theorem position_eq_ok_iff {n : Nat} : position c = .ok (n, c') ↔ n = c.position ∧ c = c' := by
  change Except.ok (c.position, c) = Except.ok (n, c') ↔ _
  rw [Except.ok.injEq, Prod.mk.injEq, eq_comm (a := n)]

theorem remaining_eq_ok_iff {n : Nat} :
    remaining c = .ok (n, c') ↔ n = c.rest.length ∧ c = c' := by
  change Except.ok (c.rest.length, c) = Except.ok (n, c') ↔ _
  rw [Except.ok.injEq, Prod.mk.injEq, eq_comm (a := n)]

theorem take_spans_iff {count : Nat} {front : List UInt8} :
    take count c = .ok (front, c') ↔ front.length = count ∧ c.Spans c' front := by
  rw [take_eq_ok_iff]
  refine and_congr_right ?_
  rintro rfl
  rfl

theorem byte_spans_iff {b : UInt8} : byte c = .ok (b, c') ↔ c.Spans c' [b] := byte_eq_ok_iff

theorem word_spans_iff {n : Nat} :
    word c = .ok (n, c') ↔ n < wordLimit ∧ c.Spans c' (Bytes.ofLength n) := by
  rw [word_eq_ok_iff, Cursor.Spans, Bytes.length_ofLength]

theorem spans_ofWord_of_word {n : Nat} (h : word c = .ok (n, c')) :
    c.Spans c' (Bytes.ofWord (UInt64.ofNat n)) := by
  obtain ⟨small, spans⟩ := word_spans_iff.mp h
  rw [Bytes.ofWord, UInt64.toNat_ofNat_of_lt' small]
  exact spans

theorem word_of_spans_ofWord {w : UInt64} (spans : c.Spans c' (Bytes.ofWord w)) :
    word c = .ok (w.toNat, c') :=
  word_spans_iff.mpr ⟨toNat_lt_wordLimit w, spans⟩

theorem words_eq_ok_iff {count : Nat} {dims : List UInt64} :
    words count c = .ok (dims, c') ↔
      dims.length = count ∧ c.Spans c' (dims.flatMap Bytes.ofWord) := by
  induction count generalizing c c' dims with
  | zero =>
    rw [words, Reader.pure_eq_ok_iff]
    constructor
    · rintro ⟨rfl, rfl⟩
      exact ⟨rfl, Cursor.spans_nil.mpr rfl⟩
    · intro ⟨length, spans⟩
      obtain rfl := List.length_eq_zero_iff.mp length
      exact ⟨rfl, Cursor.spans_nil.mp spans⟩
  | succ count ih =>
    simp only [words, Reader.bind_eq_ok_iff, Reader.pure_eq_ok_iff, ih]
    constructor
    · rintro ⟨n, mid, first, others, _, ⟨length, rest⟩, rfl, rfl⟩
      refine ⟨congrArg Nat.succ length, ?_⟩
      rw [List.flatMap_cons]
      exact Cursor.spans_append.mpr ⟨mid, spans_ofWord_of_word first, rest⟩
    · intro ⟨length, spans⟩
      cases dims with
      | nil => cases length
      | cons first others =>
        rw [List.flatMap_cons] at spans
        obtain ⟨mid, front, rest⟩ := Cursor.spans_append.mp spans
        exact ⟨first.toNat, mid, word_of_spans_ofWord front, others, c',
          ⟨Nat.succ.inj length, rest⟩, by rw [UInt64.ofNat_toNat], rfl⟩

theorem text_eq_ok_iff {s : String} :
    text c = .ok (s, c') ↔ (Text.utf8 s).length < wordLimit ∧ c.Spans c' (encodeString s) := by
  simp only [text, Reader.bind_eq_ok_iff, word_spans_iff, position_eq_ok_iff, take_spans_iff,
    encodeString]
  constructor
  · rintro ⟨n, mid, ⟨small, front⟩, _, _, ⟨rfl, rfl⟩, bytes, mid', ⟨rfl, back⟩, h⟩
    cases spelled : Text.ofUtf8 bytes with
    | error offset =>
      rw [spelled] at h
      exact absurd h throw_ne_ok
    | ok s' =>
      rw [spelled] at h
      obtain ⟨rfl, rfl⟩ := Reader.pure_eq_ok_iff.mp h
      rw [Text.ofUtf8_eq_ok_iff.mp spelled]
      exact ⟨small, Cursor.spans_append.mpr ⟨mid, front, back⟩⟩
  · intro ⟨small, spans⟩
    obtain ⟨mid, front, back⟩ := Cursor.spans_append.mp spans
    refine ⟨_, mid, ⟨small, front⟩, _, mid, ⟨rfl, rfl⟩, _, c', ⟨rfl, back⟩, ?_⟩
    rw [Text.ofUtf8_utf8]
    exact Reader.pure_eq_ok_iff.mpr ⟨rfl, rfl⟩

end Reader
end GraphSnapshot.Payload
