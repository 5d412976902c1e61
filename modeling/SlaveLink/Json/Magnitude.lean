import SlaveLink.Bytes

/-! # How large a JSON number is
A number with a point or an exponent, or of more than 64 bits, is a significand times a power of
ten, each of them a binary64. The significand takes as many leading digits as fit into 64 bits. A
number is out of range if the product of the two is infinite; one that is too small is zero. -/

namespace SlaveLink.Json

/-- Appends digits to `n` as long as it keeps to 64 bits, and counts those that were taken. -/
def appendDigits (n : Nat) : Bytes → Nat × Nat
  | [] => (n, 0)
  | d :: ds =>
    let m := 10 * n + (d.toNat - 48)
    if m ≤ maxWord64 then
      let (k, taken) := appendDigits m ds
      (k, taken + 1)
    else (n, 0)

/-- The digits taken so far never make more than 64 bits. -/
theorem appendDigits_fst_le {n : Nat} (h : n ≤ maxWord64) (ds : Bytes) :
    (appendDigits n ds).1 ≤ maxWord64 := by
  induction ds generalizing n with
  | nil => exact h
  | cons d ds ih =>
    simp only [appendDigits]
    split
    · exact ih ‹_›
    · exact h

theorem appendDigits_snd_le (n : Nat) (ds : Bytes) : (appendDigits n ds).2 ≤ ds.length := by
  induction ds generalizing n with
  | nil => exact Nat.le_refl _
  | cons d ds ih =>
    simp only [appendDigits]
    split
    · exact Nat.succ_le_succ (ih _)
    · exact Nat.zero_le _

/-- The nearest number of at most `bits` significant bits; of two, the one with an even last bit. -/
def roundToBits (bits n : Nat) : Nat :=
  let unit := Nat.pow 2 (n.log2 + 1 - bits)
  let q := n / unit
  let r := n % unit
  if 2 * r < unit ∨ 2 * r = unit ∧ q % 2 = 0 then q * unit else (q + 1) * unit

/-- A number that has few bits is kept. -/
theorem roundToBits_eq_self {bits n : Nat} (h : n.log2 < bits) : roundToBits bits n = n := by
  have hunit : n.log2 + 1 - bits = 0 := by omega
  simp [roundToBits, hunit, Nat.mod_one]

structure Magnitude where
  significand : Nat
  exponent : Int
deriving DecidableEq, Repr

namespace Magnitude

/-- The number with the given digits before and behind the point. A digit before the point that is
left out counts as a zero; digits behind the point are only left out at the end. -/
def ofDigits (whole places : Bytes) (exponent : Int) : Magnitude :=
  let (n, wholeTaken) := appendDigits 0 whole
  let (n, placesTaken) := appendDigits n places
  ⟨n, ((whole.length - wholeTaken : Nat) : Int) - placesTaken + exponent⟩

/-- The least number that rounds to infinity. -/
def infinityBound : Nat := Nat.pow 2 1024 - Nat.pow 2 970

/-- Whether the product of the rounded significand and the rounded power of ten is infinite. No
power of ten beyond `10 ^ 308` is finite. -/
def isInfinite (m : Magnitude) : Bool :=
  m.significand != 0 && (308 < m.exponent || (0 ≤ m.exponent &&
    infinityBound ≤ roundToBits 53 m.significand * roundToBits 53 (Nat.pow 10 m.exponent.toNat)))

end Magnitude
end SlaveLink.Json
