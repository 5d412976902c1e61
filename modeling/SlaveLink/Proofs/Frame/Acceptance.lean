import Mathlib.Algebra.BigOperators.Intervals
import SlaveLink.Proofs.Frame.Rewriting

/-! # Which buffers are accepted
A buffer comes from outside, and any number in it may be wrong. Reading a header never looks past
the end of the buffer. It is accepted exactly if six things hold of its bytes, and what is returned
then is what stands in the twelve bytes in front. -/

namespace SlaveLink

namespace Bytes

variable {bs : Bytes}

def numberAt (bs : Bytes) (i : Nat) : Nat := (bs.byteAt i).toNat + 256 * (bs.byteAt (i + 1)).toNat

/-- The sum of the first `n` bytes, except for the two of the checksum field. -/
def sumAround (n : Nat) (bs : Bytes) : Nat := ∑ i ∈ Finset.range n \ {6, 7}, (bs.byteAt i).toNat

theorem total_take_eq_sum (bs : Bytes) (n : Nat) :
    total (bs.take n) = ∑ i ∈ Finset.range n, (bs.byteAt i).toNat := by
  induction n with
  | zero => rfl
  | succ n ih =>
    have hnext : total bs[n]?.toList = (bs.byteAt n).toNat := by
      rw [byteAt, List.getD_eq_getElem?_getD]
      cases bs[n]? <;> rfl
    rw [List.take_add_one, total_append, ih, hnext, Finset.sum_range_succ]

/-- The checksum field is a part of every frame. -/
theorem total_take_eq_sumAround {n : Nat} (h : 8 ≤ n) (bs : Bytes) :
    total (bs.take n) = sumAround n bs + ((bs.byteAt 6).toNat + (bs.byteAt 7).toNat) := by
  have hfield : ({6, 7} : Finset Nat) ⊆ Finset.range n := by
    intro i hi
    simp only [Finset.mem_insert, Finset.mem_singleton] at hi
    rw [Finset.mem_range]
    omega
  rw [total_take_eq_sum, sumAround, ← Finset.sum_sdiff hfield, Finset.sum_pair (by decide)]

def slice? (first last : Nat) (bs : Bytes) : Option Bytes :=
  if first ≤ last ∧ last ≤ bs.length then some ((bs.take last).drop first) else none

theorem slice?_zero {n : Nat} (h : n ≤ bs.length) : bs.slice? 0 n = some (bs.take n) := by
  rw [slice?, if_pos ⟨Nat.zero_le _, h⟩, List.drop_zero]

def word16At? (bs : Bytes) (i : Nat) : Option UInt16 := do
  return word16 (← bs[i]?) (← bs[i + 1]?)

theorem getElem?_eq_byteAt {i : Nat} (h : i < bs.length) : bs[i]? = some (bs.byteAt i) := by
  simp [byteAt, List.getD_eq_getElem?_getD, h]

theorem word16At?_eq {i : Nat} (h : i + 1 < bs.length) : bs.word16At? i = some (bs.word16At i) := by
  have hlow : i < bs.length := by omega
  rw [word16At?, getElem?_eq_byteAt hlow, getElem?_eq_byteAt h]
  rfl

end Bytes

open Header Bytes

/-! ## Reading with every access checked -/

def frameChecksum? (frame : Bytes) : Option UInt16 := do
  return checksum frame - checksum (← frame.slice? 6 8)

/-- `parse`, or nothing if a byte is looked at that is not there. -/
def Header.parse? (src : Bytes) : Option (Except FrameError Header) :=
  if src.length < headerSize then some (.error (.bufferTooSmall src.length))
  else do
    let front ← src.slice? 0 headerSize
    let route ← front[0]?
    let code := UInt8.ofNat (route.toNat % 16)
    match Interface.ofCode? code with
    | none => some (.error (.unknownInterface code))
    | some interface =>
      let flags ← front[1]?
      let length ← word16At? front 2
      let offset ← word16At? front 4
      let checksum ← word16At? front 6
      let sequence ← word16At? front 8
      let throttle ← front[10]?
      let packetType ← front[11]?
      some (.ok ⟨interface, UInt8.ofNat (route.toNat / 16), ⟨flags⟩, length, offset, checksum,
        sequence, .ofBits throttle, packetType⟩)

def decodeHeader? (config : FrameConfig) (src : Bytes) : Option (Except FrameError Header) :=
  if src.length < headerSize then some (.error (.bufferTooSmall src.length))
  else do
    let length ← src.word16At? 2
    if length = 0 then some (.error .dummyFrame)
    else
      let parsed ← parse? src
      match parsed with
      | .error e => some (.error e)
      | .ok header =>
        let capacity := min src.length config.bufferSize
        if header.payloadStart < headerSize ∨ capacity < header.payloadEnd then
          some (.error (.malformed header.length.toNat header.payloadStart capacity))
        else if ¬ header.interface.carriesData then
          some (.error (.unknownInterface header.interface.code))
        else if config.checksum then
          let frame ← src.slice? 0 header.payloadEnd
          let computed ← frameChecksum? frame
          if computed ≠ header.checksum then
            some (.error (.checksumMismatch header.checksum computed))
          else some (.ok header)
        else some (.ok header)

section

variable {c : FrameConfig} {src : Bytes} {h h' : Header}

theorem frameChecksum?_eq {frame : Bytes} (hlong : 8 ≤ frame.length) :
    frameChecksum? frame = some (frameChecksum frame) := by
  have hfield : frame.slice? 6 8 = some ((frame.drop 6).take 2) := by
    rw [slice?, if_pos ⟨by decide, hlong⟩, List.drop_take]
  rw [frameChecksum?, hfield]
  rfl

theorem Header.parse?_eq (src : Bytes) : parse? src = some (parse src) := by
  unfold parse? parse
  split
  · rfl
  · next hlong =>
    have hfront : src.slice? 0 headerSize = some (src.take headerSize) :=
      slice?_zero (Nat.not_lt.mp hlong)
    have hlength : (src.take headerSize).length = 12 := by
      rw [List.length_take]
      exact Nat.min_eq_left (Nat.not_lt.mp hlong)
    have hbyte (i : Nat) (hi : i < 12) : (src.take headerSize)[i]? = some (src.byteAt i) := by
      have hfront : byteAt (src.take headerSize) i = src.byteAt i := byteAt_take hi
      rw [getElem?_eq_byteAt (hlength ▸ hi), hfront]
    have hword (i : Nat) (hi : i + 1 < 12) :
        word16At? (src.take headerSize) i = some (src.word16At i) := by
      rw [word16At?, hbyte i (by omega), hbyte (i + 1) hi]
      rfl
    simp only [hfront, hbyte 0 (by decide), Option.bind_eq_bind, Option.bind_some]
    cases Interface.ofCode? (UInt8.ofNat ((src.byteAt 0).toNat % 16)) with
    | none => rfl
    | some interface =>
      simp only [hbyte 1 (by decide), hword 2 (by decide), hword 4 (by decide),
        hword 6 (by decide), hword 8 (by decide), hbyte 10 (by decide), hbyte 11 (by decide),
        Option.bind_some]

/-- No buffer makes the reader look at a byte that is not there. -/
theorem decodeHeader?_eq (c : FrameConfig) (src : Bytes) :
    decodeHeader? c src = some (decodeHeader c src) := by
  unfold decodeHeader? decodeHeader
  split
  · rfl
  · next hlong =>
    have hlong : 12 ≤ src.length := Nat.not_lt.mp hlong
    have hword : src.word16At? 2 = some (src.word16At 2) := word16At?_eq (by omega)
    simp only [hword, parse?_eq, Option.bind_eq_bind, Option.bind_some]
    split
    · rfl
    · cases parse src with
      | error e => rfl
      | ok h =>
        simp only
        split
        · rfl
        · next hinside =>
          have hframe : src.slice? 0 h.payloadEnd = some (src.take h.payloadEnd) :=
            slice?_zero (by omega)
          have hfield : frameChecksum? (src.take h.payloadEnd) =
              some (frameChecksum (src.take h.payloadEnd)) := by
            apply frameChecksum?_eq
            rw [List.length_take]
            simp only [payloadStart, payloadEnd, headerSize] at hinside ⊢
            omega
          simp only [hframe, hfield, Option.bind_some]
          split
          · rfl
          · cases c.checksum <;> simp
            split <;> rfl

end

/-! ## Acceptance -/

structure Acceptable (c : FrameConfig) (src : Bytes) : Prop where
  header : headerSize ≤ src.length
  nonzero : src.numberAt 2 ≠ 0
  interface : 1 ≤ (src.byteAt 0).toNat % 16 ∧ (src.byteAt 0).toNat % 16 ≤ 7
  start : headerSize ≤ src.numberAt 4
  inside : src.numberAt 4 + src.numberAt 2 ≤ min src.length c.bufferSize
  checksum : c.checksum = true →
    sumAround (src.numberAt 4 + src.numberAt 2) src % 65536 = src.numberAt 6

namespace Header

/-- The header says what the bytes say, each field in its place on the wire. -/
structure Describes (src : Bytes) (h : Header) : Prop where
  interface : h.interface.code.toNat = (src.byteAt 0).toNat % 16
  number : h.number.toNat = (src.byteAt 0).toNat / 16
  flags : h.flags.bits = src.byteAt 1
  length : h.length.toNat = src.numberAt 2
  offset : h.offset.toNat = src.numberAt 4
  checksum : h.checksum.toNat = src.numberAt 6
  sequence : h.sequence.toNat = src.numberAt 8
  throttle : h.throttle = .on ↔ (src.byteAt 10).toNat % 4 = 1
  packetType : h.packetType = src.byteAt 11

structure Spans (src : Bytes) (h : Header) : Prop where
  start : headerSize ≤ h.payloadStart
  nonempty : h.payloadStart < h.payloadEnd
  inside : h.payloadEnd ≤ src.length

end Header

theorem Interface.eq_of_code {i j : Interface} (h : i.code = j.code) : i = j := by
  have hi := ofCode?_code i
  rw [h, ofCode?_code] at hi
  exact (Option.some.inj hi).symm

theorem Interface.carriesData_iff (i : Interface) :
    i.carriesData = true ↔ 1 ≤ i.code.toNat ∧ i.code.toNat ≤ 7 := by
  cases i <;> decide

theorem Interface.exists_of_code_lt {code : UInt8} (h : code.toNat < 9) :
    ∃ i, ofCode? code = some i := by
  have hall : ∀ n < 9, (ofCode? (UInt8.ofNat n)).isSome = true := by decide
  have hcode := hall code.toNat h
  rw [UInt8.ofNat_toNat] at hcode
  exact Option.isSome_iff_exists.mp hcode

theorem Interface.ofCode?_eq_none_iff {code : UInt8} : ofCode? code = none ↔ 8 < code.toNat := by
  constructor
  · intro hnone
    by_contra hlow
    have hknown : code.toNat < 9 := by omega
    obtain ⟨i, hi⟩ := exists_of_code_lt hknown
    rw [hnone] at hi
    cases hi
  · intro hhigh
    cases hi : ofCode? code with
    | none => rfl
    | some i =>
      have hlow := i.code_lt
      rw [code_of_ofCode? hi] at hlow
      omega

section

variable {c : FrameConfig} {src : Bytes} {h h' : Header}

/-- There is only one header that says what the bytes say. -/
theorem Header.Describes.unique (hsrc : h.Describes src) (hsrc' : h'.Describes src) : h = h' := by
  obtain ⟨interface, number, ⟨flags⟩, length, offset, checksum, sequence, throttle, packetType⟩ := h
  obtain ⟨interface', number', ⟨flags'⟩, length', offset', checksum', sequence', throttle',
    packetType'⟩ := h'
  obtain rfl : interface = interface' :=
    Interface.eq_of_code (UInt8.toNat_inj.mp (hsrc.interface.trans hsrc'.interface.symm))
  obtain rfl : number = number' := UInt8.toNat_inj.mp (hsrc.number.trans hsrc'.number.symm)
  obtain rfl : flags = flags' := hsrc.flags.trans hsrc'.flags.symm
  obtain rfl : length = length' := UInt16.toNat_inj.mp (hsrc.length.trans hsrc'.length.symm)
  obtain rfl : offset = offset' := UInt16.toNat_inj.mp (hsrc.offset.trans hsrc'.offset.symm)
  obtain rfl : checksum = checksum' :=
    UInt16.toNat_inj.mp (hsrc.checksum.trans hsrc'.checksum.symm)
  obtain rfl : sequence = sequence' :=
    UInt16.toNat_inj.mp (hsrc.sequence.trans hsrc'.sequence.symm)
  obtain rfl : packetType = packetType' := hsrc.packetType.trans hsrc'.packetType.symm
  have hthrottle : throttle = .on ↔ throttle' = .on := hsrc.throttle.trans hsrc'.throttle.symm
  cases throttle <;> cases throttle' <;> simp_all

theorem Header.describes_of_parse (hparse : parse src = .ok h) : h.Describes src := by
  obtain ⟨hcode, hfields⟩ := parse_eq_ok hparse
  have hroute := (src.byteAt 0).toNat_lt
  have hinterface : h.interface.code.toNat = (src.byteAt 0).toNat % 16 := by
    rw [hcode, codeIn, UInt8.toNat_ofNat']
    omega
  have hthrottle : Throttle.ofBits (src.byteAt 10) = .on ↔ (src.byteAt 10).toNat % 4 = 1 := by
    by_cases hbits : (src.byteAt 10).toNat % 4 = 1 <;> simp [Throttle.ofBits, hbits]
  rw [hfields] at hinterface ⊢
  refine ⟨hinterface, ?_, rfl, toNat_word16At src 2, toNat_word16At src 4, toNat_word16At src 6,
    toNat_word16At src 8, hthrottle, rfl⟩
  rw [UInt8.toNat_ofNat']
  omega

theorem toNat_frameChecksum {n : Nat} (hfield : 8 ≤ n) (hn : n ≤ src.length) :
    (frameChecksum (src.take n)).toNat = sumAround n src % 65536 := by
  have hlength : (src.take n).length = n := by
    rw [List.length_take]
    omega
  have hword : total (((src.take n).drop 6).take 2) =
      (src.byteAt 6).toNat + (src.byteAt 7).toNat := by
    rw [total_word (by omega), byteAt_take (by omega), byteAt_take (by omega)]
  rw [frameChecksum, UInt16.toNat_sub, toNat_checksum, toNat_checksum, hword,
    total_take_eq_sumAround hfield]
  have hlow := (src.byteAt 6).toNat_lt
  have hhigh := (src.byteAt 7).toNat_lt
  simp only [Nat.reducePow] at hlow hhigh ⊢
  omega

/-- The checksum in the field is right exactly if the bytes around it add up to it. -/
theorem frameChecksum_eq_iff {n : Nat} (hfield : 8 ≤ n) (hn : n ≤ src.length) :
    frameChecksum (src.take n) = src.word16At 6 ↔ sumAround n src % 65536 = src.numberAt 6 := by
  have hvalue : (src.word16At 6).toNat = src.numberAt 6 := toNat_word16At src 6
  rw [← UInt16.toNat_inj, hvalue, toNat_frameChecksum hfield hn]

theorem acceptable_of_decodeHeader (hok : decodeHeader c src = .ok h) : Acceptable c src := by
  obtain ⟨hlong, hnonzero, hparse, hstart, hend, hdata⟩ := decodeHeader_eq_ok hok
  have hsays := describes_of_parse hparse
  simp only [payloadStart, payloadEnd, hsays.offset, hsays.length] at hstart hend
  refine ⟨hlong, ?_, ?_, Nat.not_lt.mp hstart, hend, ?_⟩
  · intro hzero
    rw [numberAt, ← toNat_word16At] at hzero
    exact hnonzero (UInt16.toNat_inj.mp hzero)
  · rw [← hsays.interface]
    exact (Interface.carriesData_iff _).mp hdata
  · intro hsum
    have hcomputed := frameChecksum_of_decodeHeader hsum hok
    obtain ⟨_, _, hfield⟩ := fields_of_decodeHeader hok
    rw [hfield, payloadEnd, hsays.offset, hsays.length] at hcomputed
    simp only [headerSize] at hstart
    exact (frameChecksum_eq_iff (by omega) (by omega)).mp hcomputed

theorem decodeHeader_of_acceptable (hsrc : Acceptable c src) : ∃ h, decodeHeader c src = .ok h := by
  have hlong : ¬ src.length < headerSize := Nat.not_lt.mpr hsrc.header
  have hnonzero : ¬ src.word16At 2 = 0 := by
    intro hzero
    have hvalue := toNat_word16At src 2
    rw [hzero] at hvalue
    exact hsrc.nonzero hvalue.symm
  have hcode : (codeIn src).toNat = (src.byteAt 0).toNat % 16 := by
    rw [codeIn, UInt8.toNat_ofNat']
    omega
  have hinterface := hsrc.interface
  have hknown : (codeIn src).toNat < 9 := by omega
  obtain ⟨i, hi⟩ := Interface.exists_of_code_lt hknown
  obtain ⟨h, hparse, hsame, -⟩ := parse_of_known hlong hi
  have hsays := describes_of_parse hparse
  have hstart : h.payloadStart = src.numberAt 4 := hsays.offset
  have hend : h.payloadEnd = src.numberAt 4 + src.numberAt 2 := by
    rw [payloadEnd, hsays.offset, hsays.length]
  have hinside : ¬ (h.payloadStart < headerSize ∨ min src.length c.bufferSize < h.payloadEnd) := by
    have hfirst := hsrc.start
    have hlast := hsrc.inside
    omega
  have hdata : h.interface.carriesData = true := by
    rw [Interface.carriesData_iff, hsays.interface]
    exact hinterface
  have hsum : ¬ (c.checksum = true ∧ frameChecksum (src.take h.payloadEnd) ≠ h.checksum) := by
    rintro ⟨hon, hother⟩
    apply hother
    have hfield : h.checksum = src.word16At 6 := congrArg Header.checksum (parse_eq_ok hparse).2
    rw [hfield, hend]
    have hfirst := hsrc.start
    have hlast := hsrc.inside
    simp only [headerSize] at hfirst
    exact (frameChecksum_eq_iff (by omega) (by omega)).mpr (hsrc.checksum hon)
  refine ⟨h, ?_⟩
  rw [decodeHeader, if_neg hlong, if_neg hnonzero, hparse]
  simp only [if_neg hinside, hdata, not_true_eq_false, if_false, if_neg hsum]

end

/-- Reading a header looks at no byte that is not there, whatever the buffer holds. It accepts the
buffer exactly if the bytes are as they have to be, and then returns the header that says what they
say, whose payload lies within the buffer behind the header. -/
theorem header_accepted_iff (c : FrameConfig) (src : Bytes) :
    decodeHeader? c src = some (decodeHeader c src) ∧
      ((∃ h, decodeHeader c src = .ok h) ↔ Acceptable c src) ∧
      ∀ h, decodeHeader c src = .ok h ↔ Acceptable c src ∧ h.Describes src ∧ h.Spans src := by
  have haccepted : (∃ h, decodeHeader c src = .ok h) ↔ Acceptable c src :=
    ⟨fun ⟨_, hok⟩ => acceptable_of_decodeHeader hok, decodeHeader_of_acceptable⟩
  refine ⟨decodeHeader?_eq c src, haccepted, fun h => ⟨fun hok => ?_, ?_⟩⟩
  · obtain ⟨_, _, hparse, hstart, hend, _⟩ := decodeHeader_eq_ok hok
    have hsrc := acceptable_of_decodeHeader hok
    have hsays := describes_of_parse hparse
    refine ⟨hsrc, hsays, Nat.not_lt.mp hstart, ?_, by omega⟩
    have hnonzero := hsrc.nonzero
    rw [payloadStart, payloadEnd, hsays.length]
    omega
  · rintro ⟨hsrc, hsays, _⟩
    obtain ⟨found, hok⟩ := haccepted.mpr hsrc
    obtain ⟨_, _, hparse, _⟩ := decodeHeader_eq_ok hok
    rwa [(describes_of_parse hparse).unique hsays] at hok

end SlaveLink
