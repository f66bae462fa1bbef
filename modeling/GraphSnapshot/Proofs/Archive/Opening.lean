import GraphSnapshot.Proofs.Archive.Storage

/-! Bytes that are no archive. The header is refused for the first thing that is wrong with it, the
length it states may be no word or more than there is, and whatever is wrong behind it is damage. -/
namespace GraphSnapshot

abbrev Header.total (header : Header) : Nat := header.payloadLength.toNat + size

/-- As the entries are read, but each is inserted, and a refusal of the insertion is handed on. -/
def Payload.insertEntries (refused : Fault → Reader Record) (readValue : Reader Value) :
    Nat → Record → Reader Record
  | 0, seen => return seen
  | count + 1, seen => do
    let key ← Reader.text
    if seen.contains key then throw (.repeatedKey key)
    let value ← readValue
    match seen.insert key value with
    | .ok more => insertEntries refused readValue count more
    | .error fault => refused fault

/-- A key that has been looked for first is never refused. -/
theorem Payload.insertEntries_eq (refused : Fault → Reader Record) (readValue : Reader Value) :
    insertEntries refused readValue = readEntries readValue := by
  funext count
  induction count with
  | zero => rfl
  | succ count ih =>
    funext seen
    simp only [insertEntries, readEntries, ih]
    congr
    funext key
    split
    · rfl
    · next free =>
      have inserted (value : Value) : seen.insert key value = .ok (seen ++ [(key, value)]) :=
        if_neg free
      simp only [inserted]

namespace Archive

/-- The first thing that is wrong with bytes that are no archive: with the header, with the length that
it states, with what is stored behind it, or with the payload that this stands for. -/
inductive Unreadable [Zlib] (data : List UInt8) : Fault → Prop
  | header {fault : Fault} : Header.Refused data fault → Unreadable data fault
  | overflow {header : Header} : Header.parse data = .ok header → wordLimit ≤ header.total →
      Unreadable data (.corrupt .lengthOverflows)
  | short {header : Header} : Header.parse data = .ok header → header.total < wordLimit →
      data.length < header.total → Unreadable data (.unexpectedEnd data.length)
  | long {header : Header} : Header.parse data = .ok header → header.total < wordLimit →
      header.total < data.length →
      Unreadable data (.corrupt (.trailingBytes (data.length - header.total)))
  | stored {header : Header} {cause : Corruption} : Header.parse data = .ok header →
      header.total < wordLimit → data.length = header.total →
      payloadOf header (data.drop Header.size) = .error cause → Unreadable data (.corrupt cause)
  | payload {header : Header} {payload : List UInt8} {cause : Corruption} :
      Header.parse data = .ok header → header.total < wordLimit → data.length = header.total →
      payloadOf header (data.drop Header.size) = .ok payload →
      Payload.decode payload = .error cause → Unreadable data (.corrupt cause)

theorem totalLength?_eq_none_iff {header : Header} :
    header.totalLength? = none ↔ wordLimit ≤ header.total := by
  simp only [Header.totalLength?, ite_eq_right_iff, reduceCtorEq, imp_false, Nat.not_lt]

/-- Behind a good header the length is looked at first, and then what is stored. -/
theorem ofBytes_eq_error_iff_of_parse [Zlib] {data : List UInt8} {header : Header}
    (parsed : Header.parse data = .ok header) {fault : Fault} :
    ofBytes data = .error fault ↔
      wordLimit ≤ header.total ∧ .corrupt .lengthOverflows = fault ∨
      header.total < wordLimit ∧ (data.length < header.total ∧ .unexpectedEnd data.length = fault ∨
        header.total ≤ data.length ∧ (header.total < data.length ∧
            .corrupt (.trailingBytes (data.length - header.total)) = fault ∨
          data.length ≤ header.total ∧
            ((∃ cause, payloadOf header (data.drop Header.size) = .error cause ∧
              .corrupt cause = fault) ∨
            ∃ payload, payloadOf header (data.drop Header.size) = .ok payload ∧
              ∃ cause, Payload.decode payload = .error cause ∧ .corrupt cause = fault))) := by
  simp only [ofBytes, parsed, bind_eq_error_iff, reduceCtorEq, false_or, Except.ok.injEq,
    exists_eq_left']
  cases stated : header.totalLength? with
  | none =>
    have beyond := totalLength?_eq_none_iff.mp stated
    rw [and_iff_right beyond, or_iff_left fun fits => Nat.not_lt.mpr beyond fits.1]
    exact ⟨Except.error.inj, congrArg _⟩
  | some total =>
    obtain ⟨small, rfl⟩ := totalLength?_eq_some_iff.mp stated
    rw [or_iff_right fun beyond => Nat.not_lt.mpr beyond.1 small, and_iff_right small]
    simp only [check_eq_error_iff, bind_eq_error_iff, mapError_eq_error_iff, mapError_eq_ok_iff,
      pure_ne_error, and_false, exists_false, or_false, Nat.not_lt]

theorem ofBytes_eq_error_iff [Zlib] {data : List UInt8} {fault : Fault} :
    ofBytes data = .error fault ↔ Unreadable data fault := by
  constructor
  · intro failed
    cases parsed : Header.parse data with
    | error refused =>
      rw [ofBytes, parsed] at failed
      cases failed
      exact .header (Header.parse_eq_error_iff.mp parsed)
    | ok header =>
      rcases (ofBytes_eq_error_iff_of_parse parsed).mp failed with ⟨beyond, rfl⟩ | ⟨fits, ⟨few, rfl⟩ |
        ⟨enough, ⟨many, rfl⟩ | ⟨whole, ⟨cause, damaged, rfl⟩ | ⟨payload, read, cause, bad, rfl⟩⟩⟩⟩
      · exact .overflow parsed beyond
      · exact .short parsed fits few
      · exact .long parsed fits many
      · exact .stored parsed fits (Nat.le_antisymm whole enough) damaged
      · exact .payload parsed fits (Nat.le_antisymm whole enough) read bad
  · intro unreadable
    cases unreadable with
    | header refused =>
      rw [ofBytes, Header.parse_eq_error_iff.mpr refused]
      rfl
    | overflow parsed beyond =>
      exact (ofBytes_eq_error_iff_of_parse parsed).mpr (.inl ⟨beyond, rfl⟩)
    | short parsed fits few =>
      exact (ofBytes_eq_error_iff_of_parse parsed).mpr (.inr ⟨fits, .inl ⟨few, rfl⟩⟩)
    | long parsed fits many =>
      exact (ofBytes_eq_error_iff_of_parse parsed).mpr
        (.inr ⟨fits, .inr ⟨Nat.le_of_lt many, .inl ⟨many, rfl⟩⟩⟩)
    | stored parsed fits length damaged =>
      exact (ofBytes_eq_error_iff_of_parse parsed).mpr
        (.inr ⟨fits, .inr ⟨Nat.le_of_eq length.symm, .inr ⟨Nat.le_of_eq length, .inl
          ⟨_, damaged, rfl⟩⟩⟩⟩)
    | payload parsed fits length read bad =>
      exact (ofBytes_eq_error_iff_of_parse parsed).mpr
        (.inr ⟨fits, .inr ⟨Nat.le_of_eq length.symm, .inr ⟨Nat.le_of_eq length, .inr
          ⟨_, read, _, bad, rfl⟩⟩⟩⟩)

/-- Why bytes are no archive. They end too early exactly if they are shorter than a header or than what a
good header states, they have the wrong magic or version exactly if those bytes are there and others,
and all else is damage, a key that is there twice included: inserting an entry never refuses one. -/
theorem ofBytes_faults_classified [Zlib] (data : List UInt8) :
    (∀ position, ofBytes data = .error (.unexpectedEnd position) ↔ position = data.length ∧
      (data.length < Header.size ∨ ∃ header : Header, header.formatVersion = Header.currentVersion ∧
        header.toBytes <+: data ∧ header.total < wordLimit ∧ data.length < header.total)) ∧
    (ofBytes data = .error .invalidMagic ↔
      Header.size ≤ data.length ∧ data.take 4 ≠ Header.magic) ∧
    (∀ number, ofBytes data = .error (.unsupportedVersion number) ↔
      Header.size ≤ data.length ∧ data.take 4 = Header.magic ∧
        (Header.number data 4 2 : Int) = number ∧ number ≠ 1) ∧
    (∀ fault, ofBytes data = .error fault →
      fault = .unexpectedEnd data.length ∨ fault = .invalidMagic ∨
        (∃ number, fault = .unsupportedVersion number) ∨ ∃ cause, fault = .corrupt cause) ∧
    ∀ refused, Payload.insertEntries refused = Payload.readEntries := by
  simp only [ofBytes_eq_error_iff]
  refine ⟨?short, ?magic, ?version, ?other, ?inserted⟩
  case short =>
    intro position
    constructor
    · intro unreadable
      cases unreadable with
      | header refused =>
        cases refused with
        | short few => exact ⟨rfl, .inl few⟩
      | short parsed fits few =>
        obtain ⟨current, front⟩ := Header.parse_eq_ok_iff_prefix.mp parsed
        exact ⟨rfl, .inr ⟨_, current, front, fits, few⟩⟩
    · rintro ⟨rfl, few | ⟨header, current, front, fits, few⟩⟩
      · exact .header (.short few)
      · exact .short (Header.parse_eq_ok_iff_prefix.mpr ⟨current, front⟩) fits few
  case magic =>
    constructor
    · intro unreadable
      cases unreadable with
      | header refused =>
        cases refused with
        | magic long other => exact ⟨long, other⟩
    · intro ⟨long, other⟩
      exact .header (.magic long other)
  case version =>
    intro number
    constructor
    · intro unreadable
      cases unreadable with
      | header refused =>
        cases refused with
        | version long named other => exact ⟨long, named, rfl, by exact_mod_cast other⟩
    · rintro ⟨long, named, rfl, other⟩
      exact .header (.version long named (by exact_mod_cast other))
  case other =>
    intro fault unreadable
    cases unreadable with
    | header refused =>
      cases refused with
      | short _ => exact .inl rfl
      | magic _ _ => exact .inr (.inl rfl)
      | version _ _ _ => exact .inr (.inr (.inl ⟨_, rfl⟩))
      | flags _ _ _ _ | reserved _ _ _ _ _ => exact .inr (.inr (.inr ⟨_, rfl⟩))
    | short _ _ _ => exact .inl rfl
    | overflow _ _ | long _ _ _ | stored _ _ _ _ | payload _ _ _ _ _ =>
      exact .inr (.inr (.inr ⟨_, rfl⟩))
  case inserted =>
    intro refused
    funext readValue
    exact Payload.insertEntries_eq refused readValue

end Archive
end GraphSnapshot
