import GraphSnapshot.Header
import GraphSnapshot.Proofs.Outcome

/-! Headers and the bytes in front of an archive. Parsing accepts exactly the bytes that a header of
the current version is written as, and finds that header. Other bytes are refused for the first thing
that is wrong with them. -/
namespace GraphSnapshot.Header

/-- A field that stands at an offset, its number, and what stands behind it. -/
theorem number_of_drop {data field back : List UInt8} {offset count : Nat}
    (here : data.drop offset = field ++ back) (width : field.length = count) :
    number data offset count = Bytes.toNat field ∧ data.drop (offset + count) = back := by
  subst width
  refine ⟨?_, ?_⟩
  · rw [number, here, List.take_left]
  · rw [← List.drop_drop, here, List.drop_left]

theorem length_slice {data : List UInt8} {offset count : Nat} (long : offset + count ≤ data.length) :
    ((data.drop offset).take count).length = count := by
  rw [List.length_take, List.length_drop]
  omega

theorem ofNat_number {data : List UInt8} {offset count : Nat} (long : offset + count ≤ data.length) :
    Bytes.ofNat count (number data offset count) = (data.drop offset).take count := by
  have length := length_slice long
  have same := Bytes.ofNat_toNat ((data.drop offset).take count)
  rwa [length] at same

theorem number_lt {data : List UInt8} {offset count : Nat} (long : offset + count ≤ data.length) :
    number data offset count < Bytes.limit count := by
  have below := Bytes.toNat_lt ((data.drop offset).take count)
  rwa [length_slice long] at below

theorem drop_eq_slice_append (data : List UInt8) (offset count : Nat) :
    data.drop offset = (data.drop offset).take count ++ data.drop (offset + count) := by
  rw [← List.drop_drop, List.take_append_drop]

/-- Data that is as long as a header is made of the fields of one and of what follows. -/
theorem eq_fields_append {data : List UInt8} (long : size ≤ data.length) :
    data = data.take 4 ++ (Bytes.ofNat 2 (number data 4 2) ++ (Bytes.ofNat 1 (number data 6 1) ++
      (Bytes.ofNat 1 (number data 7 1) ++ (Bytes.ofNat 8 (number data 8 8) ++
        (Bytes.ofNat 4 (number data 16 4) ++ (Bytes.ofNat 4 (number data 20 4) ++
          data.drop 24)))))) := by
  have enough : 24 ≤ data.length := long
  have slice (offset count : Nat) (inside : offset + count ≤ 24) :
      Bytes.ofNat count (number data offset count) ++ data.drop (offset + count) =
        data.drop offset := by
    rw [ofNat_number (by omega), ← drop_eq_slice_append]
  rw [slice 20 4 (by decide), slice 16 4 (by decide), slice 8 8 (by decide), slice 7 1 (by decide),
    slice 6 1 (by decide), slice 4 2 (by decide), List.take_append_drop]

/-- What the numbers at the offsets of the fields stand for. -/
def ofNumbers (data : List UInt8) : Header where
  formatVersion := UInt16.ofNat (number data 4 2)
  compressed := number data 6 1 = 1
  payloadLength := UInt64.ofNat (number data 8 8)
  checksum := UInt32.ofNat (number data 16 4)

theorem parse_eq_ok_iff_numbers {data : List UInt8} {h : Header} :
    parse data = .ok h ↔ size ≤ data.length ∧ data.take 4 = magic ∧ number data 4 2 = 1 ∧
      number data 6 1 ≤ 1 ∧ number data 7 1 = 0 ∧ number data 20 4 = 0 ∧ ofNumbers data = h := by
  have short : (data.take size).length < size ↔ ¬size ≤ data.length := by
    rw [List.length_take]
    omega
  simp only [parse, check_eq_ok_iff, pure_eq_ok_iff, short, Decidable.not_not, ne_eq, Nat.not_lt,
    not_or]
  constructor
  · intro ⟨long, named, version, flags, ⟨first, last⟩, same⟩
    exact ⟨long, named, version, flags, first, last, same⟩
  · intro ⟨long, named, version, flags, first, last, same⟩
    exact ⟨long, named, version, flags, ⟨first, last⟩, same⟩

theorem toBytes_ofNumbers {data : List UInt8} (long : size ≤ data.length)
    (named : data.take 4 = magic) (flags : number data 6 1 ≤ 1) (first : number data 7 1 = 0)
    (last : number data 20 4 = 0) : data = (ofNumbers data).toBytes ++ data.drop size := by
  have enough : 24 ≤ data.length := long
  have version : (ofNumbers data).formatVersion.toNat = number data 4 2 :=
    Nat.mod_eq_of_lt (number_lt (by omega))
  have length : (ofNumbers data).payloadLength.toNat = number data 8 8 :=
    Nat.mod_eq_of_lt (number_lt (by omega))
  have checksum : (ofNumbers data).checksum.toNat = number data 16 4 :=
    Nat.mod_eq_of_lt (number_lt (by omega))
  have flag : [if (ofNumbers data).compressed then 1 else 0] = Bytes.ofNat 1 (number data 6 1) := by
    simp only [ofNumbers, decide_eq_true_eq]
    generalize number data 6 1 = n at flags
    obtain rfl | rfl : n = 0 ∨ n = 1 := by omega
    · rfl
    · rfl
  -- The reserved fields are zero, which leaves nothing that the header does not say.
  have fields := eq_fields_append long
  rw [named, first, last] at fields
  rw [toBytes, Bytes.ofWord, version, length, checksum]
  refine fields.trans ?_
  rw [← flag]
  simp only [List.append_assoc, List.cons_append, List.nil_append, Bytes.ofNat, size]
  rfl

theorem numbers_toBytes (h : Header) (rest : List UInt8) :
    number (h.toBytes ++ rest) 4 2 = h.formatVersion.toNat ∧
      number (h.toBytes ++ rest) 6 1 = (if h.compressed then 1 else 0) ∧
      number (h.toBytes ++ rest) 7 1 = 0 ∧
      number (h.toBytes ++ rest) 8 8 = h.payloadLength.toNat ∧
      number (h.toBytes ++ rest) 16 4 = h.checksum.toNat ∧
      number (h.toBytes ++ rest) 20 4 = 0 := by
  have fields : (h.toBytes ++ rest).drop 4 = Bytes.ofNat 2 h.formatVersion.toNat ++
      ([if h.compressed then 1 else 0] ++ ([0] ++ (Bytes.ofWord h.payloadLength ++
        (Bytes.ofNat 4 h.checksum.toNat ++ ([0, 0, 0, 0] ++ rest))))) := by
    simp only [toBytes, magic, List.append_assoc]
    rfl
  obtain ⟨version, fields⟩ := number_of_drop fields (Bytes.length_ofNat _ _)
  obtain ⟨flag, fields⟩ := number_of_drop fields rfl
  obtain ⟨first, fields⟩ := number_of_drop fields rfl
  obtain ⟨length, fields⟩ := number_of_drop fields (Bytes.length_ofWord _)
  obtain ⟨checksum, fields⟩ := number_of_drop fields (Bytes.length_ofNat _ _)
  obtain ⟨last, _⟩ := number_of_drop fields rfl
  refine ⟨version.trans ?_, flag.trans ?_, first, length.trans ?_, checksum.trans ?_, last⟩
  · exact (Bytes.toNat_ofNat _ _).trans (Nat.mod_eq_of_lt h.formatVersion.toNat_lt)
  · split <;> rfl
  · exact Bytes.toNat_ofWord _
  · exact (Bytes.toNat_ofNat _ _).trans (Nat.mod_eq_of_lt h.checksum.toNat_lt)

theorem ofNumbers_toBytes (h : Header) (rest : List UInt8) : ofNumbers (h.toBytes ++ rest) = h := by
  obtain ⟨version, flag, _, length, checksum, _⟩ := numbers_toBytes h rest
  rw [ofNumbers, version, flag, length, checksum, UInt16.ofNat_toNat, UInt64.ofNat_toNat,
    UInt32.ofNat_toNat]
  obtain ⟨_, compressed, _, _⟩ := h
  cases compressed <;> rfl

theorem toBytes_injective {h h' : Header} (same : h.toBytes = h'.toBytes) : h = h' := by
  rw [← ofNumbers_toBytes h [], same, ofNumbers_toBytes h' []]

theorem parse_eq_ok_iff {data : List UInt8} {h : Header} :
    parse data = .ok h ↔ h.formatVersion = currentVersion ∧ ∃ rest, data = h.toBytes ++ rest := by
  rw [parse_eq_ok_iff_numbers]
  constructor
  · rintro ⟨long, named, version, flags, first, last, rfl⟩
    refine ⟨?_, _, toBytes_ofNumbers long named flags first last⟩
    rw [ofNumbers, version]
    rfl
  · rintro ⟨version, rest, rfl⟩
    obtain ⟨stated, flag, first, _, _, last⟩ := numbers_toBytes h rest
    refine ⟨?_, rfl, ?_, ?_, first, last, ofNumbers_toBytes h rest⟩
    · rw [List.length_append, length_toBytes]
      exact Nat.le_add_right _ _
    · rw [stated, version]
      rfl
    · rw [flag]
      split <;> decide

theorem parse_eq_ok_iff_prefix {data : List UInt8} {h : Header} :
    parse data = .ok h ↔ h.formatVersion = currentVersion ∧ h.toBytes <+: data := by
  simp only [parse_eq_ok_iff, List.IsPrefix, eq_comm (a := data)]

/-- The first thing that is wrong with bytes that begin with no header. -/
inductive Refused (data : List UInt8) : Fault → Prop
  | short : data.length < size → Refused data (.unexpectedEnd data.length)
  | magic : size ≤ data.length → data.take 4 ≠ magic → Refused data .invalidMagic
  | version : size ≤ data.length → data.take 4 = magic → number data 4 2 ≠ 1 →
      Refused data (.unsupportedVersion (number data 4 2))
  | flags : size ≤ data.length → data.take 4 = magic → number data 4 2 = 1 →
      1 < number data 6 1 → Refused data (.corrupt (.unknownFlags (UInt8.ofNat (number data 6 1))))
  | reserved : size ≤ data.length → data.take 4 = magic → number data 4 2 = 1 →
      number data 6 1 ≤ 1 → number data 7 1 ≠ 0 ∨ number data 20 4 ≠ 0 →
      Refused data (.corrupt .reservedNotZero)

theorem parse_eq_error_iff {data : List UInt8} {fault : Fault} :
    parse data = .error fault ↔ Refused data fault := by
  have short : (data.take size).length < size ↔ data.length < size := by
    rw [List.length_take]
    omega
  simp only [parse, check_eq_error_iff, pure_ne_error, short, Decidable.not_not, ne_eq, Nat.not_lt,
    and_false, or_false]
  constructor
  · rintro (⟨few, rfl⟩ | ⟨long, ⟨other, rfl⟩ | ⟨named, ⟨other, rfl⟩ | ⟨version, ⟨high, rfl⟩ |
      ⟨flags, used, rfl⟩⟩⟩⟩)
    · exact .short few
    · exact .magic long other
    · exact .version long named other
    · exact .flags long named version high
    · exact .reserved long named version flags used
  · intro refused
    cases refused with
    | short few => exact .inl ⟨few, rfl⟩
    | magic long other => exact .inr ⟨long, .inl ⟨other, rfl⟩⟩
    | version long named other => exact .inr ⟨long, .inr ⟨named, .inl ⟨other, rfl⟩⟩⟩
    | flags long named version high =>
      exact .inr ⟨long, .inr ⟨named, .inr ⟨version, .inl ⟨high, rfl⟩⟩⟩⟩
    | reserved long named version flags used =>
      exact .inr ⟨long, .inr ⟨named, .inr ⟨version, .inr ⟨flags, used, rfl⟩⟩⟩⟩

theorem parse_eq_ok_iff_take {data : List UInt8} {h : Header} :
    parse data = .ok h ↔
      h.formatVersion = currentVersion ∧ size ≤ data.length ∧ data.take size = h.toBytes := by
  refine parse_eq_ok_iff_prefix.trans (and_congr_right fun _ => ?_)
  rw [List.prefix_iff_eq_take, length_toBytes]
  constructor
  · intro front
    have length := congrArg List.length front
    rw [length_toBytes, List.length_take] at length
    exact ⟨by omega, front.symm⟩
  · rintro ⟨_, front⟩
    exact front.symm

/-- A header of another version is refused for its version, whatever else it says. -/
theorem parse_of_version_ne {h : Header} (other : h.formatVersion ≠ currentVersion)
    (rest : List UInt8) :
    parse (h.toBytes ++ rest) = .error (.unsupportedVersion h.formatVersion.toNat) := by
  have stated := (numbers_toBytes h rest).1
  have long : size ≤ (h.toBytes ++ rest).length := by
    rw [List.length_append, length_toBytes]
    exact Nat.le_add_right _ _
  have differs : number (h.toBytes ++ rest) 4 2 ≠ 1 := by
    rw [stated]
    exact fun same => other (UInt16.toNat_inj.mp same)
  rw [← stated]
  exact parse_eq_error_iff.mpr (.version long rfl differs)

theorem eq_of_toBytes_append {h h' : Header} {rest rest' : List UInt8}
    (same : h.toBytes ++ rest = h'.toBytes ++ rest') : h = h' ∧ rest = rest' := by
  have lengths : h.toBytes.length = h'.toBytes.length := by rw [length_toBytes, length_toBytes]
  obtain ⟨front, back⟩ := List.append_inj same lengths
  exact ⟨toBytes_injective front, back⟩

/-- Headers and their bytes determine each other. Parsing accepts data exactly if it begins with the
bytes of a header of the current version, and finds that header, whatever follows; so each header has
one spelling that is accepted, and a header of another version is refused for its version. -/
theorem codec_exact :
    (∀ data h, parse data = .ok h ↔
      h.formatVersion = currentVersion ∧ size ≤ data.length ∧ data.take size = h.toBytes) ∧
    (∀ (h : Header) rest, h.formatVersion = currentVersion → parse (h.toBytes ++ rest) = .ok h) ∧
    (∀ (h : Header) rest, h.formatVersion ≠ currentVersion →
      parse (h.toBytes ++ rest) = .error (.unsupportedVersion h.formatVersion.toNat)) ∧
    (∀ data data' h, parse data = .ok h → parse data' = .ok h → data.take size = data'.take size) ∧
    ∀ (h h' : Header) rest rest', h.toBytes ++ rest = h'.toBytes ++ rest' → h = h' ∧ rest = rest' := by
  refine ⟨?exact, ?back, ?version, ?single, ?apart⟩
  case exact =>
    intro data h
    exact parse_eq_ok_iff_take
  case back =>
    intro h rest current
    exact parse_eq_ok_iff.mpr ⟨current, rest, rfl⟩
  case version =>
    intro h rest other
    exact parse_of_version_ne other rest
  case single =>
    intro data data' h parsed parsed'
    rw [(parse_eq_ok_iff_take.mp parsed).2.2, (parse_eq_ok_iff_take.mp parsed').2.2]
  case apart =>
    intro h h' rest rest' same
    exact eq_of_toBytes_append same

/-- The largest header there is, with a byte behind it, and the same header of the next version. -/
theorem codec_exact_largest :
    let largest : Header := ⟨currentVersion, true, -1, -1⟩
    let next : Header := ⟨2, true, -1, -1⟩
    parse (largest.toBytes ++ [7]) = .ok largest ∧
      parse (next.toBytes ++ [7]) = .error (.unsupportedVersion 2) ∧
      (largest.toBytes ++ [7]).take size = (largest.toBytes ++ [8, 9]).take size ∧
      ¬largest.toBytes ++ [7] = next.toBytes ++ [7] := by
  intro largest next
  obtain ⟨_, back, version, single, apart⟩ := codec_exact
  have parsed := back largest [7] rfl
  refine ⟨parsed, version next [7] (by decide), ?_, ?_⟩
  · exact single _ _ _ parsed (back largest [8, 9] rfl)
  · intro same
    exact absurd (apart _ _ _ _ same).1 (by decide)

end GraphSnapshot.Header
