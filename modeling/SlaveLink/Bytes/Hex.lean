import SlaveLink.Bytes
import SlaveLink.Text.Blank
import SlaveLink.Text.Quoted

/-! # Hex dumps
Bytes as pairs of digits. Reading takes blanks and colons between digits, either case, and one `0x`
in front. -/

namespace SlaveLink

inductive HexError where
  | oddDigits (count : Nat)
  | badDigit (byte : UInt8)
deriving DecidableEq, Repr

/-- A byte that is no digit is shown as the character with its number. -/
def HexError.message : HexError → String
  | .oddDigits count => s!"odd number of hex digits ({count})"
  | .badDigit byte => "invalid hex digit " ++ Text.quoteChar (Char.ofNat byte.toNat)

namespace Bytes

/-- Two lower-case digits per byte, high digit first. -/
def hexChars (bs : Bytes) : List Char :=
  bs.flatMap fun b => [Text.hexDigit (b.toNat / 16), Text.hexDigit (b.toNat % 16)]

def hex (bs : Bytes) : String := String.ofList bs.hexChars

/-- The value of a digit given as an ASCII byte. -/
def hexValue? (digit : UInt8) : Option UInt8 :=
  if 48 ≤ digit ∧ digit ≤ 57 then some (digit - 48)
  else if 97 ≤ digit ∧ digit ≤ 102 then some (digit - 87)
  else if 65 ≤ digit ∧ digit ≤ 70 then some (digit - 55)
  else none

/-- ASCII blanks and the colon. -/
def isHexSeparator (b : UInt8) : Bool :=
  b == 32 || b == 9 || b == 10 || b == 12 || b == 13 || b == 58

/-- Drops one `0x` or `0X`. -/
def dropHexMarker : List Char → List Char
  | '0' :: 'x' :: rest => rest
  | '0' :: 'X' :: rest => rest
  | cs => cs

/-- Reads digits two by two; the first byte that is no digit is the error. -/
def ofHexDigits : Bytes → Except HexError Bytes
  | high :: low :: rest =>
    match hexValue? high, hexValue? low with
    | none, _ => .error (.badDigit high)
    | some _, none => .error (.badDigit low)
    | some h, some l => (ofHexDigits rest).map fun bs => (h <<< 4 ||| l) :: bs
  | _ => .ok []

/-- The bytes of a dump that are neither marker nor separator. -/
def hexDigitsOf (text : List Char) : Bytes :=
  ((dropHexMarker (Text.trim text)).flatMap String.utf8EncodeChar).filter (! isHexSeparator ·)

def parseHexChars (text : List Char) : Except HexError Bytes :=
  let digits := hexDigitsOf text
  if digits.length % 2 ≠ 0 then .error (.oddDigits digits.length) else ofHexDigits digits

def parseHex (text : String) : Except HexError Bytes := parseHexChars text.toList

end Bytes
end SlaveLink
