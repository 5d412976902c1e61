/-! # Byte strings
Buffers are lists of bytes. Words are kept low byte first, and a sum of bytes wraps at 16 bits. -/

namespace SlaveLink

abbrev Bytes := List UInt8

/-- The largest values of words of 8, 32 and 64 bits. -/
def maxWord8 : Nat := 255
def maxWord32 : Nat := 4294967295
def maxWord64 : Nat := 18446744073709551615

/-- What a word of 64 bits keeps of a number. Arithmetic on sizes is not checked, so it wraps. -/
def wrap64 (n : Nat) : Nat := n % (maxWord64 + 1)

theorem wrap64_of_le {n : Nat} (h : n ≤ maxWord64) : wrap64 n = n :=
  Nat.mod_eq_of_lt (Nat.lt_succ_of_le h)

namespace Bytes

def zeros (n : Nat) : Bytes := List.replicate n 0

/-- The byte at an index, zero past the end. -/
def byteAt (bs : Bytes) (i : Nat) : UInt8 := bs.getD i 0

/-- The two bytes of a word, low byte first. -/
def ofWord16 (w : UInt16) : Bytes :=
  [UInt8.ofNat w.toNat, UInt8.ofNat (w.toNat / 256)]

def word16 (low high : UInt8) : UInt16 :=
  UInt16.ofNat (low.toNat + 256 * high.toNat)

def word16At (bs : Bytes) (i : Nat) : UInt16 := word16 (byteAt bs i) (byteAt bs (i + 1))

def ofWord32 (w : UInt32) : Bytes :=
  [UInt8.ofNat w.toNat, UInt8.ofNat (w.toNat / 256), UInt8.ofNat (w.toNat / 65536),
    UInt8.ofNat (w.toNat / 16777216)]

def word32 (b₀ b₁ b₂ b₃ : UInt8) : UInt32 :=
  UInt32.ofNat (b₀.toNat + 256 * b₁.toNat + 65536 * b₂.toNat + 16777216 * b₃.toNat)

/-- Wrapping 16-bit sum of every byte. -/
def checksum (bs : Bytes) : UInt16 := bs.foldr (fun b sum => b.toUInt16 + sum) 0

/-- Writes `src` over the front of `dst`, as far as it fits. -/
def overwrite (src dst : Bytes) : Bytes := src.take dst.length ++ dst.drop src.length

@[simp] theorem length_overwrite (src dst : Bytes) : (overwrite src dst).length = dst.length := by
  simp only [overwrite, List.length_append, List.length_take, List.length_drop]
  omega

@[simp] theorem length_zeros (n : Nat) : (zeros n).length = n := by simp [zeros]

@[simp] theorem length_ofWord16 (w : UInt16) : (ofWord16 w).length = 2 := rfl

@[simp] theorem length_ofWord32 (w : UInt32) : (ofWord32 w).length = 4 := rfl

theorem checksum_nil : checksum [] = 0 := rfl

theorem checksum_cons (b : UInt8) (bs : Bytes) :
    checksum (b :: bs) = b.toUInt16 + checksum bs := rfl

theorem checksum_append (as bs : Bytes) : checksum (as ++ bs) = checksum as + checksum bs := by
  induction as with
  | nil => simp [checksum_nil]
  | cons a as ih => simp [checksum_cons, ih, UInt16.add_assoc]

/-- A word reads back from its two bytes. -/
theorem word16_ofWord16 (w : UInt16) :
    word16 (UInt8.ofNat w.toNat) (UInt8.ofNat (w.toNat / 256)) = w := by
  apply UInt16.toNat_inj.mp
  have := w.toNat_lt
  simp only [word16, UInt8.toNat_ofNat', UInt16.toNat_ofNat']
  omega

/-- A long word reads back from its four bytes. -/
theorem word32_ofWord32 (w : UInt32) :
    word32 (UInt8.ofNat w.toNat) (UInt8.ofNat (w.toNat / 256)) (UInt8.ofNat (w.toNat / 65536))
      (UInt8.ofNat (w.toNat / 16777216)) = w := by
  apply UInt32.toNat_inj.mp
  have := w.toNat_lt
  simp only [word32, UInt8.toNat_ofNat', UInt32.toNat_ofNat']
  omega

end Bytes

/-- Rounds `length` up to a multiple of `alignment`; an alignment of 0 or 1 changes nothing. -/
def alignUp (length alignment : Nat) : Nat :=
  if alignment ≤ 1 then length else (length + alignment - 1) / alignment * alignment

theorem le_alignUp (length alignment : Nat) : length ≤ alignUp length alignment := by
  unfold alignUp
  split
  · exact Nat.le_refl _
  · have h := Nat.lt_mul_div_succ (length + alignment - 1) (by omega : 0 < alignment)
    rw [Nat.mul_comm] at h
    rw [Nat.add_mul] at h
    omega

theorem alignUp_le_alignUp {shorter longer : Nat} (alignment : Nat) (h : shorter ≤ longer) :
    alignUp shorter alignment ≤ alignUp longer alignment := by
  unfold alignUp
  split
  · exact h
  · apply Nat.mul_le_mul_right
    apply Nat.div_le_div_right
    omega

end SlaveLink
