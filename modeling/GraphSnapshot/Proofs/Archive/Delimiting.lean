import GraphSnapshot.Proofs.Archive.Opening

/-! Bytes that show where they end. Reading a payload stops at its last byte whatever follows, so no
payload is the front of another, and an archive states its length in its first bytes. -/
namespace GraphSnapshot

namespace Payload

/-- A payload is read the same way with anything behind it, which is left. -/
theorem readRecord_append {payload : List UInt8} {record : Record} (h : decode payload = .ok record)
    (more : List UInt8) :
    readRecord entriesFit (readValue entriesFit maxDepth) ⟨payload ++ more, 0⟩ =
      .ok (record, ⟨more, payload.length⟩) := by
  obtain ⟨sound, encoded⟩ := decode_eq_ok_iff.mp h
  obtain ⟨body, entries, rfl⟩ := encode_eq_ok_iff.mp encoded
  have faithful := faithful_readValue lenient_entriesFit maxDepth
  exact (readRecord_eq_ok_iff lenient_entriesFit faithful).mpr
    ⟨sound, body, entries, rfl, (Nat.zero_add _).symm⟩

theorem decode_append {payload : List UInt8} {record : Record} (h : decode payload = .ok record)
    {more : List UInt8} (follows : more ≠ []) :
    decode (payload ++ more) = .error (.trailingBytes more.length) := by
  unfold decode readAll
  rw [readRecord_append h more]
  exact if_neg fun none => follows (List.isEmpty_iff.mp none)

/-- No payload is a proper front of another. -/
theorem exists_error_of_take {payload : List UInt8} {record : Record} (h : decode payload = .ok record)
    {count : Nat} (short : count < payload.length) :
    ∃ cause, decode (payload.take count) = .error cause := by
  cases front : decode (payload.take count) with
  | error cause => exact ⟨cause, rfl⟩
  | ok found =>
    -- Were the front a payload, the rest behind it would be noticed.
    have cut : payload.drop count ≠ [] := by
      rw [ne_eq, List.drop_eq_nil_iff]
      omega
    have refused := decode_append front cut
    rw [List.take_append_drop, h] at refused
    cases refused

end Payload

namespace Archive
variable {data : List UInt8} {a : Archive}

theorem exists_total_of_ofBytes [Zlib] (h : ofBytes data = .ok a) :
    ∃ header : Header, header.formatVersion = Header.currentVersion ∧ header.toBytes <+: data ∧
      header.total = data.length ∧ data.length < wordLimit := by
  obtain ⟨header, stored, rfl, current⟩ := exists_header_of_ofBytes h
  obtain ⟨length, small, _⟩ := (ofBytes_append_eq_ok_iff current).mp h
  have whole : (header.toBytes ++ stored).length = stored.length + Header.size := by
    rw [List.length_append, Header.length_toBytes, Nat.add_comm]
  rw [whole]
  exact ⟨header, current, List.prefix_append _ _, congrArg (· + Header.size) length, small⟩

theorem ofBytes_take [Zlib] (h : ofBytes data = .ok a) {count : Nat} (short : count < data.length) :
    ofBytes (data.take count) = .error (.unexpectedEnd count) := by
  obtain ⟨header, current, front, total, small⟩ := exists_total_of_ofBytes h
  have length : (data.take count).length = count := List.length_take_of_le (Nat.le_of_lt short)
  have cut : Unreadable (data.take count) (.unexpectedEnd (data.take count).length) := by
    by_cases inside : count < Header.size
    · exact .header (.short (by rwa [length]))
    · have kept : header.toBytes <+: data.take count := by
        rw [List.prefix_take_iff, Header.length_toBytes]
        exact ⟨front, Nat.not_lt.mp inside⟩
      have parsed := Header.parse_eq_ok_iff_prefix.mpr ⟨current, kept⟩
      exact .short parsed (by rwa [total]) (by rwa [total, length])
  rw [length] at cut
  exact ofBytes_eq_error_iff.mpr cut

theorem ofBytes_append [Zlib] (h : ofBytes data = .ok a) {more : List UInt8} (follows : more ≠ []) :
    ofBytes (data ++ more) = .error (.corrupt (.trailingBytes more.length)) := by
  obtain ⟨header, current, front, total, small⟩ := exists_total_of_ofBytes h
  have parsed := Header.parse_eq_ok_iff_prefix.mpr ⟨current, front.trans (List.prefix_append _ more)⟩
  have positive := List.length_pos_iff.mpr follows
  have length : (data ++ more).length = data.length + more.length := List.length_append
  have long : Unreadable (data ++ more)
      (.corrupt (.trailingBytes ((data ++ more).length - header.total))) :=
    .long parsed (by rwa [total]) (by rw [total, length]; exact Nat.lt_add_of_pos_right positive)
  rw [total, length, Nat.add_sub_cancel_left] at long
  exact ofBytes_eq_error_iff.mpr long

/-- Archives and payloads show where they end. Of an archive that is cut the rest is missed, a payload
that is cut is none, and whatever follows either of them is noticed. -/
theorem self_delimiting [Zlib] :
    (∀ (data : List UInt8) (a : Archive), ofBytes data = .ok a →
      (∀ count < data.length, ofBytes (data.take count) = .error (.unexpectedEnd count)) ∧
      ∀ more ≠ [], ofBytes (data ++ more) = .error (.corrupt (.trailingBytes more.length))) ∧
    ∀ (payload : List UInt8) (record : Record), Payload.decode payload = .ok record →
      (∀ count < payload.length, ∃ cause, Payload.decode (payload.take count) = .error cause) ∧
      ∀ more ≠ [], Payload.decode (payload ++ more) = .error (.trailingBytes more.length) := by
  constructor
  · intro data a h
    exact ⟨fun _ short => ofBytes_take h short, fun _ follows => ofBytes_append h follows⟩
  · intro payload record h
    exact ⟨fun _ short => Payload.exists_error_of_take h short,
      fun _ follows => Payload.decode_append h follows⟩

/-- An archive and the payload in it, each cut and then lengthened by one byte. -/
theorem self_delimiting_single :
    let _ := Zlib.sample
    ∃ payload header, Payload.encode [("k", .bool true)] = .ok payload ∧
      ofBytes (container payload {}) = .ok ⟨.reading header, [("k", .bool true)], []⟩ ∧
      ofBytes ((container payload {}).take 30) = .error (.unexpectedEnd 30) ∧
      ofBytes (container payload {} ++ [0]) = .error (.corrupt (.trailingBytes 1)) ∧
      (∃ cause, Payload.decode (payload.take 18) = .error cause) ∧
      Payload.decode (payload ++ [0]) = .error (.trailingBytes 1) := by
  intro known
  obtain ⟨payload, encoded, length⟩ :
      ∃ payload, Payload.encode [("k", .bool true)] = .ok payload ∧ payload.length = 19 :=
    ⟨_, rfl, rfl⟩
  have well : (Value.record [("k", .bool true)]).WellFormed :=
    Value.wellFormed_record_singleton (v := .bool true) trivial
  have small : payload.length + Header.size < wordLimit := by
    rw [length]
    decide
  have read := ofBytes_container {} nofun well encoded small
  have whole : (container payload {}).length = 43 := by
    rw [container, storedForm_of_not_compresses rfl, List.length_append, Header.length_toBytes, length]
    rfl
  have decoded := Payload.decode_of_encode well encoded (by rw [length]; decide)
  obtain ⟨archives, payloads⟩ := self_delimiting
  obtain ⟨cut, behind⟩ := archives _ _ read
  obtain ⟨inside, after⟩ := payloads _ _ decoded
  have follows : [(0 : UInt8)] ≠ [] := List.cons_ne_nil 0 []
  exact ⟨payload, _, encoded, read, cut 30 (by omega), behind [0] follows, inside 18 (by omega),
    after [0] follows⟩

end Archive
end GraphSnapshot
