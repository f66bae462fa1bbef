import GraphSnapshot.Packed
import GraphSnapshot.Proofs.Outcome
import Mathlib.Logic.Equiv.Basic

/-! Packing and unpacking. What is packed is shorter than the data, and if the compressor loses nothing
it unpacks to the data. What unpacks does so with no other size in front, whatever the compressor. -/
namespace GraphSnapshot

/-- What was compressed is found again, and nothing behind it. -/
def Zlib.Lossless [Zlib] : Prop :=
  ∀ effort data, inflate (deflate effort data) = ⟨data, none⟩

/-- Nothing is read from behind two bytes that are no header. -/
def Zlib.ChecksHeaders [Zlib] : Prop :=
  ∀ method flags rest, isHeader method flags = false →
    ∃ fault, inflate (method :: flags :: rest) = ⟨[], some fault⟩

theorem ByteStream.readToEnd_take (limit : Nat) (s : ByteStream) :
    (s.take limit).readToEnd =
      if limit ≤ s.bytes.length then .ok (s.bytes.take limit) else s.readToEnd := by
  rw [take]
  split
  · rfl
  · rfl

namespace Packed
variable [Zlib] {data packed content : List UInt8} {level : Int32}

theorem exists_stream_of_pack (h : pack data level = some packed) :
    packed = Bytes.ofLength data.length ++ Zlib.deflate (effort level) data ∧
      (Zlib.deflate (effort level) data).length + 8 < data.length := by
  rw [pack] at h
  split at h
  · cases h
  · dsimp only at h
    split at h
    · cases h
    · next shorter => exact ⟨(Option.some.inj h).symm, Nat.lt_of_not_le shorter⟩

theorem length_lt_of_pack (h : pack data level = some packed) : packed.length < data.length := by
  obtain ⟨rfl, shorter⟩ := exists_stream_of_pack h
  rw [List.length_append, Bytes.length_ofLength]
  omega

theorem pack_eq_none_of_level (off : level ≤ 0) : pack data level = none := by
  rw [pack, if_pos]
  rw [decide_eq_true off, Bool.true_or]

theorem level_pos_of_pack (h : pack data level = some packed) : 0 < level := by
  refine Int32.not_le.mp fun off => ?_
  rw [pack_eq_none_of_level off] at h
  cases h

section Sizes
variable {size stream : List UInt8}

omit [Zlib] in
theorem toNat_lt_of_eight (eight : size.length = 8) : Bytes.toNat size < wordLimit := by
  have small := Bytes.toNat_lt size
  rwa [eight] at small

/-- The stream behind a size is read up to the limit for it, and the content has to have the size. -/
theorem unpack_append (eight : size.length = 8) (stream : List UInt8) :
    unpack (size ++ stream) = (do
      let content ← (((Zlib.inflate stream).take (limitFor (Bytes.toNat size))).readToEnd.mapError
        Corruption.stream)
      if Bytes.toNat size < content.length then throw (.inflatesPast (Bytes.toNat size))
      if content.length ≠ Bytes.toNat size then
        throw (.inflatesTo content.length (Bytes.toNat size))
      return content) := by
  have long : ¬(size ++ stream).length < 8 := by
    rw [List.length_append, eight]
    omega
  simp only [unpack, if_neg long, List.take_left' eight, List.drop_left' eight]

theorem unpack_of_ends (eight : size.length = 8)
    (ends : Zlib.inflate stream = ⟨content, none⟩) (fits : content.length ≤ Bytes.toNat size) :
    unpack (size ++ stream) = if content.length = Bytes.toNat size then .ok content
      else .error (.inflatesTo content.length (Bytes.toNat size)) := by
  have small := toNat_lt_of_eight eight
  have whole : ((Zlib.inflate stream).take (limitFor (Bytes.toNat size))).readToEnd =
      .ok content := by
    rw [ends, ByteStream.readToEnd_take]
    split
    · -- Only the largest size of all is its own limit.
      have all : content.length ≤ limitFor (Bytes.toNat size) := Nat.le_min.mpr (by omega)
      exact congrArg Except.ok (List.take_of_length_le all)
    · rfl
  rw [unpack_append eight, whole]
  change (if _ then _ else if _ then _ else _) = _
  rw [if_neg (Nat.not_lt.mpr fits), ite_not]
  rfl

theorem unpack_append_eq_ok_iff (eight : size.length = 8) :
    unpack (size ++ stream) = .ok content ↔ content.length = Bytes.toNat size ∧
      ((Zlib.inflate stream).take (limitFor content.length)).readToEnd = .ok content := by
  rw [unpack_append eight]
  simp only [bind_eq_ok_iff, mapError_eq_ok_iff, check_eq_ok_iff, pure_eq_ok_iff, ne_eq,
    Decidable.not_not]
  constructor
  · rintro ⟨_, read, _, length, rfl⟩
    exact ⟨length, length ▸ read⟩
  · rintro ⟨length, read⟩
    exact ⟨content, length ▸ read, by omega, length, rfl⟩

end Sizes

theorem unpack_pack (lossless : Zlib.Lossless) (small : data.length < wordLimit)
    (h : pack data level = some packed) : unpack packed = .ok data := by
  obtain ⟨rfl, _⟩ := exists_stream_of_pack h
  have stated := Bytes.toNat_ofLength small
  rw [unpack_of_ends (Bytes.length_ofLength _) (lossless _ data) (Nat.le_of_eq stated.symm),
    if_pos stated.symm]

/-- No stream starts with two bytes that are no header. -/
theorem unpack_ne_ok (checks : Zlib.ChecksHeaders) {size rest : List UInt8} {method flags : UInt8}
    (eight : size.length = 8) (header : Zlib.isHeader method flags = false) :
    unpack (size ++ method :: flags :: rest) ≠ .ok content := by
  obtain ⟨fault, refused⟩ := checks method flags rest header
  have limit : ¬limitFor content.length ≤ ([] : List UInt8).length := by
    rw [limitFor, wordLimit, List.length_nil]
    omega
  rw [ne_eq, unpack_append_eq_ok_iff eight, refused, ByteStream.readToEnd_take]
  rintro ⟨_, read⟩
  rw [if_neg limit] at read
  cases read

end Packed

@[reducible] def Zlib.sample (content body : List UInt8 := []) : Zlib where
  deflate _ data := 0x78 :: 0xda :: Equiv.swap content body data
  inflate
    | method :: flags :: rest =>
      if isHeader method flags then ⟨Equiv.swap content body rest, none⟩ else ⟨[], some .corrupt⟩
    | _ => ⟨[], some .incomplete⟩

theorem Zlib.sample_lossless (content body : List UInt8) : @Lossless (sample content body) := by
  intro _ data
  have header : isHeader 0x78 0xda = true := by decide
  change (if _ then ByteStream.mk _ _ else _) = _
  rw [if_pos header, Equiv.swap_apply_self]

theorem Zlib.sample_checksHeaders (content body : List UInt8) :
    @ChecksHeaders (sample content body) := by
  intro method flags rest header
  refine ⟨.corrupt, if_neg ?_⟩
  rw [header]
  exact Bool.false_ne_true

theorem Packed.pack_sample {content body : List UInt8} {level : Int32} (on : 0 < level)
    (shorter : body.length + 10 < content.length) :
    @pack (Zlib.sample content body) content level =
      some (Bytes.ofLength content.length ++ 0x78 :: 0xda :: body) := by
  have asked : (level ≤ 0 || content.isEmpty) ≠ true := by
    cases content with
    | nil => cases shorter
    | cons byte rest => simpa using Int32.not_le.mpr on
  have stream : @Zlib.deflate (Zlib.sample content body) (effort level) content =
      0x78 :: 0xda :: body := congrArg (0x78 :: 0xda :: ·) (Equiv.swap_apply_left _ _)
  unfold pack
  rw [if_neg asked, stream]
  refine if_neg (Nat.not_le.mpr ?_)
  rw [List.length_cons, List.length_cons]
  omega

end GraphSnapshot
