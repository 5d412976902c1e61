/-! # Decimal numbers
Reading numbers written with the digits 0 to 9, with a plus sign in front or without. -/

namespace SlaveLink.Text

def isDigit (c : Char) : Bool := '0' ≤ c && c ≤ '9'

/-- The number that the digits write; nothing without a digit or with anything else among them. -/
def ofDigits? (cs : List Char) : Option Nat :=
  if cs.isEmpty || !cs.all isDigit then none
  else some (cs.foldl (fun n c => 10 * n + (c.toNat - '0'.toNat)) 0)

def dropPlus : List Char → List Char
  | '+' :: cs => cs
  | cs => cs

def natural? (max : Nat) (s : String) : Option Nat :=
  (ofDigits? (dropPlus s.toList)).filter (· ≤ max)

/-- A number that fits a byte. Zero may have a minus sign. -/
def byte? (s : String) : Option UInt8 :=
  match s.toList with
  | '-' :: cs => if ofDigits? cs = some 0 then some 0 else none
  | _ => (natural? 255 s).map UInt8.ofNat

end SlaveLink.Text
