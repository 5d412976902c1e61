/-! # Digits
Numbers in base sixteen, padded with zeros. -/

namespace SlaveLink.Text

/-- The lower-case digit for `n < 16`. -/
def hexDigit (n : Nat) : Char := Nat.digitChar (n % 16)

/-- Digits of `n` in base sixteen, at least `width` of them. -/
def hexDigits (width n : Nat) : String :=
  let digits := Nat.toDigits 16 n
  String.ofList (List.replicate (width - digits.length) '0' ++ digits)

/-- `hexDigits` behind `0x`. -/
def hexLiteral (width n : Nat) : String := "0x" ++ hexDigits width n

end SlaveLink.Text
