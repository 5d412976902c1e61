import SlaveLink.Proofs.Frame.Prefix
import SlaveLink.Proofs.Frame.RoundTrip

/-! # Corrupted bytes
The checksum adds up the bytes of a frame, so a byte that changed shows in it. A byte of the length
or of the offset also moves the end of the frame: what is added or lost there goes the same way as
the byte itself, and stays below the modulus as long as the end moves by at most 256 bytes. -/

namespace SlaveLink

namespace Bytes

def total (bs : Bytes) : Nat := bs.foldr (fun b sum => b.toNat + sum) 0

theorem total_cons (b : UInt8) (bs : Bytes) : total (b :: bs) = b.toNat + total bs := rfl

theorem total_append (as bs : Bytes) : total (as ++ bs) = total as + total bs := by
  induction as with
  | nil => simp [total]
  | cons a as ih => simp [total_cons, ih, Nat.add_assoc]

theorem total_le (bs : Bytes) : total bs ≤ 255 * bs.length := by
  induction bs with
  | nil => simp [total]
  | cons b bs ih =>
    have hb := b.toNat_lt
    rw [total_cons, List.length_cons]
    omega

/-- A longer part has a larger sum, by at most 255 for each byte. -/
theorem total_take_le (bs : Bytes) {m n : Nat} (h : m ≤ n) :
    total (bs.take m) ≤ total (bs.take n) ∧
      total (bs.take n) ≤ total (bs.take m) + 255 * (n - m) := by
  have hsplit : bs.take n = bs.take m ++ (bs.drop m).take (n - m) := by
    rw [← List.take_add, Nat.add_sub_cancel' h]
  have hmore := total_le ((bs.drop m).take (n - m))
  have hlength : ((bs.drop m).take (n - m)).length ≤ n - m := List.length_take_le _ _
  rw [hsplit, total_append]
  omega

theorem toNat_checksum (bs : Bytes) : (checksum bs).toNat = total bs % 65536 := by
  induction bs with
  | nil => rfl
  | cons b bs ih =>
    rw [checksum_cons, total_cons, UInt16.toNat_add, ih, UInt8.toNat_toUInt16]
    omega

theorem byteAt_set {bs : Bytes} {i : Nat} (hi : i < bs.length) (v : UInt8) (j : Nat) :
    byteAt (bs.set i v) j = if j = i then v else bs.byteAt j := by
  simp only [byteAt, List.getD_eq_getElem?_getD, List.getElem?_set]
  grind

theorem total_set {bs : Bytes} {i : Nat} (hi : i < bs.length) (v : UInt8) :
    total (bs.set i v) + (bs.byteAt i).toNat = total bs + v.toNat := by
  induction bs generalizing i with
  | nil => simp at hi
  | cons b bs ih =>
    cases i with
    | zero => simp [total_cons, byteAt]; omega
    | succ i =>
      have hset := ih (i := i) (by simpa using hi)
      simp only [total_cons, byteAt, List.set_cons_succ, List.getD_cons_succ] at hset ⊢
      omega

theorem byteAt_take {bs : Bytes} {i n : Nat} (hi : i < n) :
    byteAt (bs.take n) i = bs.byteAt i := by
  simp only [byteAt, List.getD_eq_getElem?_getD, List.getElem?_take_of_lt hi]

theorem toNat_word16At (bs : Bytes) (i : Nat) :
    (bs.word16At i).toNat = (bs.byteAt i).toNat + 256 * (bs.byteAt (i + 1)).toNat := by
  have hlow := (bs.byteAt i).toNat_lt
  have hhigh := (bs.byteAt (i + 1)).toNat_lt
  simp only [word16At, word16, UInt16.toNat_ofNat']
  omega

/-- Two bytes in the middle of a byte string. -/
theorem total_word {bs : Bytes} {i : Nat} (h : i + 1 < bs.length) :
    total ((bs.drop i).take 2) = (bs.byteAt i).toNat + (bs.byteAt (i + 1)).toNat := by
  have hlow : i < bs.length := by omega
  have hword : (bs.drop i).take 2 = [bs.byteAt i, bs.byteAt (i + 1)] := by
    rw [List.drop_eq_getElem_cons hlow, List.drop_eq_getElem_cons h, List.take_succ_cons,
      List.take_succ_cons, List.take_zero]
    simp [byteAt, List.getD_eq_getElem?_getD, hlow, h]
  simp [hword, total]

end Bytes

open Header Bytes

section

variable {c : FrameConfig} {src : Bytes} {h : Header}

/-- What acceptance says about the bytes: where the frame ends, and what they add up to. The
checksum field counts twice, since it is a part of the sum that is then compared with it. -/
structure Header.Accounted (src : Bytes) : Prop where
  start : headerSize ≤ startIn src
  whole : endIn src ≤ src.length
  sum : total (src.take (endIn src)) % 65536 =
    (2 * (src.byteAt 6).toNat + 257 * (src.byteAt 7).toNat) % 65536

theorem fields_of_decodeHeader (hok : decodeHeader c src = .ok h) :
    h.payloadStart = startIn src ∧ h.payloadEnd = endIn src ∧ h.checksum = src.word16At 6 := by
  obtain ⟨hlong, _, hparse, _⟩ := decodeHeader_eq_ok hok
  rw [parse, if_neg (Nat.not_lt.mpr hlong)] at hparse
  simp only at hparse
  split at hparse
  · simp at hparse
  · simp only [Except.ok.injEq] at hparse
    subst hparse
    exact ⟨rfl, rfl, rfl⟩

theorem frameChecksum_of_decodeHeader (hsum : c.checksum = true)
    (hok : decodeHeader c src = .ok h) : frameChecksum (src.take h.payloadEnd) = h.checksum := by
  obtain ⟨hlong, hnonzero, hparse, hstart, hend, hdata⟩ := decodeHeader_eq_ok hok
  have hinside : ¬ (h.payloadStart < headerSize ∨ min src.length c.bufferSize < h.payloadEnd) := by
    omega
  rw [decodeHeader, if_neg (Nat.not_lt.mpr hlong), if_neg hnonzero, hparse] at hok
  simp only [if_neg hinside, hdata, hsum, not_true_eq_false, if_false, true_and] at hok
  split at hok
  · simp at hok
  · next hequal => exact Decidable.not_not.mp hequal

theorem accounted_of_decodeHeader (hsum : c.checksum = true) (hok : decodeHeader c src = .ok h) :
    Accounted src := by
  obtain ⟨_, _, _, hstart, hend, _⟩ := decodeHeader_eq_ok hok
  obtain ⟨hstartIn, hendIn, hfield⟩ := fields_of_decodeHeader hok
  have hcomputed := frameChecksum_of_decodeHeader hsum hok
  rw [hstartIn] at hstart
  rw [hendIn] at hend
  rw [hendIn, hfield] at hcomputed
  have hwhole : endIn src ≤ src.length := by omega
  have hheader : 12 ≤ endIn src := by
    simp only [endIn, headerSize] at hstart ⊢
    omega
  refine ⟨Nat.not_lt.mp hstart, hwhole, ?_⟩
  have hfull : 6 + 1 < (src.take (endIn src)).length := by
    rw [List.length_take]
    omega
  have hword : total (((src.take (endIn src)).drop 6).take 2) =
      (src.byteAt 6).toNat + (src.byteAt 7).toNat := by
    rw [total_word hfull, byteAt_take (by omega), byteAt_take (by omega)]
  have hvalue := congrArg UInt16.toNat hcomputed
  rw [frameChecksum, UInt16.toNat_sub, toNat_checksum, toNat_checksum, hword,
    toNat_word16At] at hvalue
  have hlow := (src.byteAt 6).toNat_lt
  have hhigh := (src.byteAt 7).toNat_lt
  simp only [Nat.reducePow, Nat.reduceAdd] at hvalue hlow hhigh
  omega

end

theorem Header.endIn_eq (src : Bytes) :
    endIn src = (src.byteAt 4).toNat + 256 * (src.byteAt 5).toNat +
      ((src.byteAt 2).toNat + 256 * (src.byteAt 3).toNat) := by
  rw [endIn, startIn, toNat_word16At, toNat_word16At]

/-- No byte but those of the length and of the offset moves the end. -/
theorem Header.endIn_set_of_other {src : Bytes} {i : Nat} (hlength : i < src.length) (v : UInt8)
    (hother : i < 2 ∨ 5 < i) : endIn (src.set i v) = endIn src := by
  rw [endIn_eq, endIn_eq]
  simp only [byteAt_set hlength]
  rw [if_neg (by omega), if_neg (by omega), if_neg (by omega), if_neg (by omega)]

/-- The end moves the way the byte does, and by so little that the bytes in between cannot make up
for a turn of the sum. -/
theorem Header.endIn_set {src : Bytes} {i : Nat} (hlength : i < src.length) {v : UInt8}
    (hhigh : i = 3 ∨ i = 5 →
      v.toNat = (src.byteAt i).toNat + 1 ∨ v.toNat + 1 = (src.byteAt i).toNat) :
    ((src.byteAt i).toNat < v.toNat → endIn src ≤ endIn (src.set i v) ∧
      v.toNat + 255 * (endIn (src.set i v) - endIn src) < (src.byteAt i).toNat + 65536) ∧
    (v.toNat < (src.byteAt i).toNat → endIn (src.set i v) ≤ endIn src ∧
      (src.byteAt i).toNat + 255 * (endIn src - endIn (src.set i v)) < v.toNat + 65536) := by
  have hold := (src.byteAt i).toNat_lt
  have hnew := v.toNat_lt
  by_cases hother : i < 2 ∨ 5 < i
  · rw [endIn_set_of_other hlength v hother]
    omega
  rw [endIn_eq, endIn_eq]
  simp only [byteAt_set hlength]
  by_cases hlow : i = 2 ∨ i = 4
  · rcases hlow with rfl | rfl <;> simp <;> omega
  · have hstep : i = 3 ∨ i = 5 := by omega
    have hone := hhigh hstep
    rcases hstep with rfl | rfl <;> simp <;> omega

/-- A byte within a frame stays within it when it changes. -/
theorem Header.lt_endIn_set {src : Bytes} {i : Nat} (hi : i < endIn src) (hlength : i < src.length)
    {v : UInt8} (hstart : headerSize ≤ startIn (src.set i v)) : i < endIn (src.set i v) := by
  by_cases hheader : i < headerSize
  · rw [endIn]
    omega
  · have hother : 5 < i := by
      simp only [headerSize] at hheader
      omega
    rw [endIn_set_of_other hlength v (.inr hother)]
    exact hi

/-- A change of one byte within a frame is never accepted, as long as a change of the high byte of
its length or its offset is one by one. -/
theorem Header.Accounted.not_set {src : Bytes} (hsrc : Accounted src) {i : Nat} {v : UInt8}
    (hi : i < endIn src) (hv : v ≠ src.byteAt i)
    (hhigh : i = 3 ∨ i = 5 →
      v.toNat = (src.byteAt i).toNat + 1 ∨ v.toNat + 1 = (src.byteAt i).toNat) :
    ¬ Accounted (src.set i v) := by
  intro hset
  have hlength : i < src.length := Nat.lt_of_lt_of_le hi hsrc.whole
  have hold := (src.byteAt i).toNat_lt
  have hnew := v.toNat_lt
  have hchanged : v.toNat ≠ (src.byteAt i).toNat := fun heq => hv (UInt8.toNat_inj.mp heq)
  have hsum := hsrc.sum
  have hsum' := hset.sum
  simp only [byteAt_set hlength] at hsum'
  have hmoved := endIn_set hlength hhigh
  have hkept := lt_endIn_set hi hlength hset.start
  have hshort : i < (src.take (endIn (src.set i v))).length := by
    rw [List.length_take]
    omega
  have htotal := total_set hshort v
  rw [byteAt_take hkept, ← List.take_set] at htotal
  have hlonger : endIn src ≤ endIn (src.set i v) → _ := total_take_le src
  have hshorter : endIn (src.set i v) ≤ endIn src → _ := total_take_le src
  by_cases hfield : i = 6 ∨ i = 7
  · -- The end stays, and the changed field counts once in the frame and again in the comparison.
    rw [endIn_set_of_other hlength v (by omega)] at htotal hsum'
    rcases hfield with rfl | rfl
    · rw [if_pos rfl, if_neg (by decide)] at hsum'
      omega
    · rw [if_neg (by decide), if_pos rfl] at hsum'
      omega
  · rw [if_neg (by omega), if_neg (by omega)] at hsum'
    rcases Nat.lt_or_gt_of_ne hchanged with hless | hmore
    · obtain ⟨hend, hbound⟩ := hmoved.2 hless
      have hlost := hshorter hend
      omega
    · obtain ⟨hend, hbound⟩ := hmoved.1 hmore
      have hgained := hlonger hend
      omega

/-- With checksums on, no change of a single byte of an accepted frame is accepted, except of the
high byte of its length or its offset by more than one. -/
theorem corruption_detected {c : FrameConfig} {src : Bytes} {h : Header} (hsum : c.checksum = true)
    (hok : decodeHeader c src = .ok h) {i : Nat} (hi : i < h.payloadEnd) {v : UInt8}
    (hv : v ≠ src.byteAt i)
    (hhigh : i = 3 ∨ i = 5 →
      v.toNat = (src.byteAt i).toNat + 1 ∨ v.toNat + 1 = (src.byteAt i).toNat) :
    ∃ e, decodeHeader c (src.set i v) = .error e := by
  obtain ⟨_, hend, _⟩ := fields_of_decodeHeader hok
  rw [hend] at hi
  have hsrc := accounted_of_decodeHeader hsum hok
  cases hset : decodeHeader c (src.set i v) with
  | error e => exact ⟨e, rfl⟩
  | ok h' => exact absurd (accounted_of_decodeHeader hsum hset) (hsrc.not_set hi hv hhigh)

/-- The length grows by 256, over bytes that are all as large as they can be. -/
theorem corruption_detected_small :
    let h := (Header.blank .serial 0).sealed {} [7]
    let src := h.encode ++ [7] ++ List.replicate 256 255
    decodeHeader {} src = .ok h.trimmed ∧ ∃ e, decodeHeader {} (src.set 3 1) = .error e := by
  intro h src
  have hok : decodeHeader {} src = .ok h.trimmed :=
    decodeHeader_sealed {} (.blank .serial 0) [7] (List.replicate 256 255) (by decide) (by decide)
      (by decide) rfl
  exact ⟨hok, corruption_detected rfl hok (by decide) (by decide) (by decide)⟩

end SlaveLink
