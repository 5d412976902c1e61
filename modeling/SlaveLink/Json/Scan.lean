import SlaveLink.Json.Magnitude

/-! # Scanning JSON text
The parts that a reader of JSON is made of: blanks, literal words, numbers and texts. Text is taken
as its UTF-8 bytes. Each scanner returns what it found and the bytes after it; the first fault met
is the one reported. -/

namespace SlaveLink.Json

/-- What kind of fault ends reading. -/
inductive ReadError where
  | malformed
  /-- The text is JSON so far, but a value has the wrong type, range or shape. -/
  | unexpected
  | truncated
deriving DecidableEq, Repr

def ReadError.category : ReadError → String
  | .malformed => "syntax"
  | .unexpected => "data"
  | .truncated => "eof"

/-- What was found and the bytes after it. -/
abbrev Scanned (α : Type) := Except ReadError (α × Bytes)

namespace Scan

def isBlank (b : UInt8) : Bool := b == 32 || b == 10 || b == 9 || b == 13

def isDigit (b : UInt8) : Bool := 48 ≤ b && b ≤ 57

def skipBlanks (bs : Bytes) : Bytes := bs.dropWhile isBlank

def word : Bytes → Bytes → Scanned Unit
  | [], rest => .ok ((), rest)
  | _ :: _, [] => .error .truncated
  | w :: ws, b :: bs => if w = b then word ws bs else .error .malformed

/-- What follows the first letter of `null`, `true` and `false`. -/
def restOfNull : Bytes := [117, 108, 108]
def restOfTrue : Bytes := [114, 117, 101]
def restOfFalse : Bytes := [97, 108, 115, 101]

def natOfDigits (ds : Bytes) : Nat := ds.foldl (fun n d => 10 * n + (d.toNat - 48)) 0

/-- How strictly a number is read: a value that is wanted, or one that is skipped. A skipped number
may have any size, and one that ends too soon is malformed. -/
inductive Care where
  | wanted | skipped
deriving DecidableEq, Repr

def Care.atEnd : Care → ReadError
  | .wanted => .truncated
  | .skipped => .malformed

/-- The exponent behind `e`, if there is one. -/
def exponent (care : Care) : Bytes → Scanned (Option Int)
  | 101 :: bs | 69 :: bs =>
    let (isNegative, bs) := match bs with
      | 43 :: bs => (false, bs)
      | 45 :: bs => (true, bs)
      | bs => (false, bs)
    match bs with
    | [] => .error care.atEnd
    | b :: _ =>
      if isDigit b then
        let n : Int := natOfDigits (bs.takeWhile isDigit)
        .ok (some (if isNegative then -n else n), bs.dropWhile isDigit)
      else .error .malformed
  | bs => .ok (none, bs)

/-- The digits behind a decimal point, if there is one. -/
def fraction (care : Care) : Bytes → Scanned (Option Bytes)
  | 46 :: bs =>
    match bs.takeWhile isDigit, bs with
    | [], [] => .error care.atEnd
    | [], _ => .error .malformed
    | ds, _ => .ok (some ds, bs.dropWhile isDigit)
  | bs => .ok (none, bs)

/-- An unsigned number. The value is given only for a whole number of at most 64 bits without point
and exponent. -/
def number (care : Care) (bs : Bytes) : Scanned (Option Nat) :=
  let digits := bs.takeWhile isDigit
  match digits with
  | [] => .error (if bs.isEmpty then care.atEnd else .malformed)
  | 48 :: _ :: _ => .error .malformed
  | _ =>
    match fraction care (bs.dropWhile isDigit) with
    | .error e => .error e
    | .ok (frac, bs) =>
      match exponent care bs with
      | .error e => .error e
      | .ok (exp, bs) =>
        let n := natOfDigits digits
        if frac.isNone ∧ exp.isNone ∧ n ≤ maxWord64 then .ok (some n, bs)
        else if care = .wanted ∧ (Magnitude.ofDigits digits (frac.getD []) (exp.getD 0)).isInfinite
        then .error .malformed
        else .ok (none, bs)

def hexValue? (b : UInt8) : Option Nat :=
  if 48 ≤ b ∧ b ≤ 57 then some (b.toNat - 48)
  else if 97 ≤ b ∧ b ≤ 102 then some (b.toNat - 87)
  else if 65 ≤ b ∧ b ≤ 70 then some (b.toNat - 55)
  else none

def hexQuad : Bytes → Except ReadError Nat
  | a :: b :: c :: d :: _ =>
    match hexValue? a, hexValue? b, hexValue? c, hexValue? d with
    | some a, some b, some c, some d => .ok (((a * 16 + b) * 16 + c) * 16 + d)
    | _, _, _, _ => .error .malformed
  | _ => .error .truncated

/-- What follows `\u`: the character's bytes, and how many bytes were used. Surrogates must come in
pairs unless the text is skipped. -/
def unicodeEscape (care : Care) (bs : Bytes) : Except ReadError (Bytes × Nat) :=
  match hexQuad bs with
  | .error e => .error e
  | .ok n =>
    if care = .skipped then .ok ([], 4)
    else if 0xDC00 ≤ n ∧ n ≤ 0xDFFF then .error .malformed
    else if n < 0xD800 ∨ 0xDBFF < n then .ok (String.utf8EncodeChar (Char.ofNat n), 4)
    else match bs.drop 4 with
      | 92 :: 117 :: more =>
        match hexQuad more with
        | .error e => .error e
        | .ok low =>
          if 0xDC00 ≤ low ∧ low ≤ 0xDFFF then
            .ok (String.utf8EncodeChar
              (Char.ofNat (0x10000 + (n - 0xD800) * 0x400 + (low - 0xDC00))), 10)
          else .error .malformed
      | [] | [92] => .error .truncated
      | _ => .error .malformed

/-- What follows a backslash: the character's bytes, and how many bytes were used. -/
def escape (care : Care) : Bytes → Except ReadError (Bytes × Nat)
  | [] => .error .truncated
  | 117 :: bs => (unicodeEscape care bs).map fun (c, n) => (c, n + 1)
  | b :: _ =>
    if b = 34 ∨ b = 92 ∨ b = 47 then .ok ([b], 1)
    else if b = 98 then .ok ([8], 1)
    else if b = 102 then .ok ([12], 1)
    else if b = 110 then .ok ([10], 1)
    else if b = 114 then .ok ([13], 1)
    else if b = 116 then .ok ([9], 1)
    else .error .malformed

/-- A text behind its opening quote, without escapes. -/
def text (care : Care) : Bytes → Scanned Bytes
  | [] => .error .truncated
  | b :: bs =>
    if b = 34 then .ok ([], bs)
    else if b = 92 then
      match escape care bs with
      | .error e => .error e
      | .ok (c, used) => (text care (bs.drop used)).map fun (s, rest) => (c ++ s, rest)
    else if b < 32 then .error .malformed
    else (text care bs).map fun (s, rest) => (b :: s, rest)
termination_by bs => bs.length
decreasing_by all_goals simp only [List.length_drop, List.length_cons]; omega

mutual

/-- Passes over one value of any type. -/
def skipValue : Nat → Bytes → Scanned Unit
  | 0, _ => .error .malformed
  | fuel + 1, bs =>
    match skipBlanks bs with
    | [] => .error .truncated
    | 110 :: bs => word restOfNull bs
    | 116 :: bs => word restOfTrue bs
    | 102 :: bs => word restOfFalse bs
    | 45 :: bs => (number .skipped bs).map fun (_, rest) => ((), rest)
    | 34 :: bs => (text .skipped bs).map fun (_, rest) => ((), rest)
    | 91 :: bs =>
      match skipBlanks bs with
      | 93 :: rest => .ok ((), rest)
      | bs => if bs.isEmpty then .error .truncated else skipItems fuel bs
    | 123 :: bs =>
      match skipBlanks bs with
      | 125 :: rest => .ok ((), rest)
      | bs => skipMembers fuel bs
    | b :: bs =>
      if isDigit b then (number .skipped (b :: bs)).map fun (_, rest) => ((), rest)
      else .error .malformed

def skipItems : Nat → Bytes → Scanned Unit
  | 0, _ => .error .malformed
  | fuel + 1, bs =>
    match skipValue fuel bs with
    | .error e => .error e
    | .ok ((), bs) =>
      match skipBlanks bs with
      | [] => .error .truncated
      | 93 :: rest => .ok ((), rest)
      | 44 :: bs => skipItems fuel bs
      | _ => .error .malformed

def skipMembers : Nat → Bytes → Scanned Unit
  | 0, _ => .error .malformed
  | fuel + 1, bs =>
    match skipBlanks bs with
    | [] => .error .truncated
    | 34 :: bs =>
      match text .skipped bs with
      | .error e => .error e
      | .ok (_, bs) =>
        match skipBlanks bs with
        | [] => .error .truncated
        | 58 :: bs =>
          match skipValue fuel bs with
          | .error e => .error e
          | .ok ((), bs) =>
            match skipBlanks bs with
            | [] => .error .truncated
            | 125 :: rest => .ok ((), rest)
            | 44 :: bs => skipMembers fuel bs
            | _ => .error .malformed
        | _ => .error .malformed
    | _ => .error .malformed

end

/-- Passes over one value; every value is shorter than the text it stands in. -/
def skip (bs : Bytes) : Scanned Unit := skipValue (2 * bs.length + 2) bs

end Scan
end SlaveLink.Json
