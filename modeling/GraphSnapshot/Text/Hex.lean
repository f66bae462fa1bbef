/-! Lowercase hexadecimal. -/
namespace GraphSnapshot.Text

/-- The digits of `n`, without leading zeros. -/
def hex (n : Nat) : String := String.ofList (Nat.toDigits 16 n)

/-- The digits of `n`, padded with zeros to at least `width`. -/
def paddedHex (width n : Nat) : String :=
  let digits := Nat.toDigits 16 n
  String.ofList (List.replicate (width - digits.length) '0' ++ digits)

end GraphSnapshot.Text
