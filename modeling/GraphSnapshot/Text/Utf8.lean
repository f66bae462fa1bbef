/-! UTF-8 text in byte lists. -/
namespace GraphSnapshot.Text

def utf8 (s : String) : List UInt8 := s.toByteArray.data.toList

def isContinuation (b : UInt8) : Bool := 0x80 ≤ b && b ≤ 0xbf

/-- The second byte of a three-byte character, which rules out overlong forms and surrogates. -/
def isSecondOfThree (lead b : UInt8) : Bool :=
  if lead = 0xe0 then 0xa0 ≤ b && b ≤ 0xbf
  else if lead = 0xed then 0x80 ≤ b && b ≤ 0x9f
  else isContinuation b

/-- The second byte of a four-byte character, which rules out overlong forms and code points
above the last one. -/
def isSecondOfFour (lead b : UInt8) : Bool :=
  if lead = 0xf0 then 0x90 ≤ b && b ≤ 0xbf
  else if lead = 0xf4 then 0x80 ≤ b && b ≤ 0x8f
  else isContinuation b

/-- Length of the longest run of whole characters at the front. -/
def wholeCharacters : List UInt8 → Nat
  | [] => 0
  | a :: rest =>
    if a < 0x80 then wholeCharacters rest + 1
    else match rest with
      | b :: rest =>
        if 0xc2 ≤ a && a ≤ 0xdf && isContinuation b then wholeCharacters rest + 2
        else match rest with
          | c :: rest =>
            if 0xe0 ≤ a && a ≤ 0xef && isSecondOfThree a b && isContinuation c then
              wholeCharacters rest + 3
            else match rest with
              | d :: rest =>
                if 0xf0 ≤ a && a ≤ 0xf4 && isSecondOfFour a b && isContinuation c &&
                    isContinuation d then
                  wholeCharacters rest + 4
                else 0
              | [] => 0
          | [] => 0
      | [] => 0

/-- The text that the bytes spell, or the offset of the first byte that starts no character. -/
def ofUtf8 (bytes : List UInt8) : Except Nat String :=
  match String.fromUTF8? ⟨bytes.toArray⟩ with
  | some s => .ok s
  | none => .error (wholeCharacters bytes)

theorem ofUtf8_utf8 (s : String) : ofUtf8 (utf8 s) = .ok s := by
  have bytes : (⟨(utf8 s).toArray⟩ : ByteArray) = s.toByteArray := rfl
  have found : String.fromUTF8? s.toByteArray = some s := by
    rw [String.fromUTF8?, dif_pos s.isValidUTF8]
    rfl
  rw [ofUtf8, bytes, found]

/-- Reading accepts only what writing produces. -/
theorem ofUtf8_eq_ok_iff {bytes : List UInt8} {s : String} :
    ofUtf8 bytes = .ok s ↔ utf8 s = bytes := by
  constructor
  · intro h
    rw [ofUtf8, String.fromUTF8?] at h
    split at h
    · next found =>
      split at found
      · cases found
        cases h
        rfl
      · cases found
    · cases h
  · rintro rfl
    exact ofUtf8_utf8 s

end GraphSnapshot.Text
