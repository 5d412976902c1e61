import Mathlib.Order.Bounds.Basic
import SlaveLink.Proofs.Frame.Rejection

/-! # What a writer does to its buffer
A frame is written into a block that has held other frames. The header, the payload and the padding
are put over what was there, and the rest of the block stays. If one of four conditions does not
hold then nothing is written at all. -/

namespace SlaveLink

open Bytes

/-! ## Padding -/

/-- The least multiple of the alignment that is not below a length. An alignment of 0 or 1 pads
nothing. -/
def IsPadded (alignment length n : Nat) : Prop :=
  if alignment ≤ 1 then n = length else IsLeast {k | alignment ∣ k ∧ length ≤ k} n

theorem isLeast_alignUp {alignment : Nat} (h : ¬ alignment ≤ 1) (length : Nat) :
    IsLeast {k | alignment ∣ k ∧ length ≤ k} (alignUp length alignment) := by
  refine ⟨⟨?_, le_alignUp _ _⟩, ?_⟩
  · rw [alignUp, if_neg h]
    exact Nat.dvd_mul_left _ _
  · rintro _ ⟨⟨q, rfl⟩, hq⟩
    have hceil : (length + alignment - 1) / alignment ≤ q := by
      rw [Nat.div_le_iff_le_mul_add_pred (by omega)]
      omega
    rw [alignUp, if_neg h, Nat.mul_comm]
    exact Nat.mul_le_mul_left _ hceil

theorem isPadded_iff {alignment length n : Nat} :
    IsPadded alignment length n ↔ n = alignUp length alignment := by
  unfold IsPadded
  split
  · next h => rw [alignUp, if_pos h]
  · next h =>
    refine ⟨fun hn => hn.unique (isLeast_alignUp h length), ?_⟩
    rintro rfl
    exact isLeast_alignUp h length

/-! ## Writing in place -/

def Bytes.patch? (dst : Bytes) (start : Nat) (data : Bytes) : Option Bytes :=
  if start + data.length ≤ dst.length then
    some (dst.take start ++ data ++ dst.drop (start + data.length))
  else none

/-- Puts header, payload, padding and checksum into the buffer one after the other, or nothing if a
byte is touched that is not there. -/
def placeFrame? (config : FrameConfig) (header : Header) (payload dst : Bytes) :
    Option (Except FrameError Bytes) :=
  let total := headerSize + payload.length
  let draft := { header with
    length := UInt16.ofNat payload.length
    offset := UInt16.ofNat headerSize
    checksum := 0 }
  match draft.writeTo dst with
  | .error e => some (.error e)
  | .ok dst => do
    let dst ← dst.patch? headerSize payload
    let dst ← dst.patch? total (zeros (paddedSize config payload.length - total))
    if config.checksum then
      let frame ← dst.slice? 0 total
      let dst ← dst.patch? 6 (ofWord16 (Bytes.checksum frame))
      return .ok dst
    else return .ok dst

def encodeFrame? (config : FrameConfig) (header : Header) (payload dst : Bytes) :
    Option (Except FrameError Nat × Bytes) :=
  let padded := paddedSize config payload.length
  if payload.isEmpty then some (.error .emptyPayload, dst)
  else if ¬ header.interface.carriesData then
    some (.error (.unknownInterface header.interface.code), dst)
  else if headerSize + payload.length > config.bufferSize then
    some (.error (.payloadTooLarge payload.length config.maxPayload), dst)
  else if dst.length < padded then some (.error (.bufferTooSmall dst.length), dst)
  else do
    match ← placeFrame? config header payload dst with
    | .error e => return (.error e, dst)
    | .ok out => return (.ok padded, out)

theorem Bytes.patch?_append {front data back : Bytes} {start : Nat} (hstart : front.length = start)
    (hback : data.length ≤ back.length) :
    (front ++ back).patch? start data = some (front ++ (data ++ back.drop data.length)) := by
  subst hstart
  have hroom : front.length + data.length ≤ (front ++ back).length := by
    rw [List.length_append]
    omega
  rw [patch?, if_pos hroom, List.take_left, List.drop_append, List.append_assoc]
  simp

section

variable {c : FrameConfig} {h : Header} {payload dst out : Bytes} {n : Nat} {e : FrameError}

/-- The checksum goes into its field after the rest of the frame. -/
theorem patch?_checksum (h : Header) (sum : UInt16) (rest : Bytes) :
    (h.encode ++ rest).patch? 6 (ofWord16 sum) =
      some ({ h with checksum := sum }.encode ++ rest) := by
  have hsplit : h.encode ++ rest = h.encode.take 6 ++ (h.encode.drop 6 ++ rest) := by
    rw [← List.append_assoc, List.take_append_drop]
  have hfront : (h.encode.take 6).length = 6 := rfl
  have hback : (ofWord16 sum).length ≤ (h.encode.drop 6 ++ rest).length := by
    simp only [length_ofWord16, List.length_append, List.length_drop, Header.length_encode,
      headerSize]
    omega
  rw [hsplit, patch?_append hfront hback]
  rfl

/-- What is left is the frame over the front of the buffer. -/
theorem placeFrame?_eq (hroom : paddedSize c payload.length ≤ dst.length) :
    placeFrame? c h payload dst = some (.ok ((h.sealed c payload).encode ++ payload ++
      zeros (paddedSize c payload.length - (headerSize + payload.length)) ++
      dst.drop (paddedSize c payload.length))) := by
  have hpadded : headerSize + payload.length ≤ paddedSize c payload.length := le_alignUp _ _
  simp only [placeFrame?]
  generalize hdraft : ({ h with
    length := UInt16.ofNat payload.length
    offset := UInt16.ofNat headerSize
    checksum := 0 } : Header) = draft
  have hsealed : h.sealed c payload =
      if c.checksum then { draft with checksum := Bytes.checksum (draft.encode ++ payload) }
      else draft := by
    rw [← hdraft]
    rfl
  have hheader : draft.writeTo dst = .ok (draft.encode ++ dst.drop headerSize) :=
    Header.writeTo_of_room (by omega)
  generalize hzeros : zeros (paddedSize c payload.length - (headerSize + payload.length)) = padding
  have hpadding : padding.length = paddedSize c payload.length - (headerSize + payload.length) := by
    rw [← hzeros, length_zeros]
  have hpayload : (draft.encode ++ dst.drop headerSize).patch? headerSize payload =
      some ((draft.encode ++ payload) ++ dst.drop (headerSize + payload.length)) := by
    rw [patch?_append draft.length_encode (by rw [List.length_drop]; omega), List.drop_drop,
      List.append_assoc]
  have hfill : ((draft.encode ++ payload) ++ dst.drop (headerSize + payload.length)).patch?
      (headerSize + payload.length) padding =
      some ((draft.encode ++ payload) ++ (padding ++ dst.drop (paddedSize c payload.length))) := by
    rw [patch?_append (by simp) (by rw [List.length_drop]; omega), List.drop_drop, hpadding,
      Nat.add_sub_cancel' hpadded]
  have hframe : ((draft.encode ++ payload) ++
      (padding ++ dst.drop (paddedSize c payload.length))).slice? 0 (headerSize + payload.length) =
      some (draft.encode ++ payload) := by
    rw [slice?_zero (by simp), List.take_left' (by simp)]
  simp only [hheader, hpayload, hfill, hframe, hsealed, Option.bind_eq_bind, Option.bind_some]
  rw [List.append_assoc _ payload, patch?_checksum]
  cases c.checksum <;> simp

/-- The writer touches no byte that is not there. -/
theorem encodeFrame?_eq (c : FrameConfig) (h : Header) (payload dst : Bytes) :
    encodeFrame? c h payload dst = some (encodeFrame c h payload dst) := by
  unfold encodeFrame? encodeFrame
  simp only
  split
  · rfl
  split
  · rfl
  split
  · rfl
  split
  · rfl
  next hroom =>
  rw [placeFrame?_eq (Nat.not_lt.mp hroom)]
  rfl

end

/-! ## What is written and what is refused -/

/-- The conditions for a frame of `n` bytes, padding included, in the order in which they are
looked at. -/
def writeChecks (c : FrameConfig) (h : Header) (payload : Bytes) (n : Nat) (dst : Bytes) :
    List (Check FrameError) :=
  [⟨!payload.isEmpty, .emptyPayload⟩,
    ⟨h.interface.carriesData, .unknownInterface h.interface.code⟩,
    ⟨decide (headerSize + payload.length ≤ c.bufferSize),
      .payloadTooLarge payload.length c.maxPayload⟩,
    ⟨decide (n ≤ dst.length), .bufferTooSmall dst.length⟩]

structure Writable (c : FrameConfig) (h : Header) (payload dst : Bytes) (n : Nat) : Prop where
  nonempty : payload ≠ []
  interface : h.interface.carriesData = true
  fits : headerSize + payload.length ≤ c.bufferSize
  padded : IsPadded c.alignment (headerSize + payload.length) n
  room : n ≤ dst.length

/-- What the buffer holds once a frame of `n` bytes is written into it: the header byte by byte, and
then the payload, zeros and the old bytes. -/
structure Written (c : FrameConfig) (h : Header) (payload dst : Bytes) (n : Nat) (out : Bytes) :
    Prop where
  size : out.length = dst.length
  route : (out.byteAt 0).toNat = h.interface.code.toNat + 16 * (h.number.toNat % 16)
  flags : out.byteAt 1 = h.flags.bits
  length : out.numberAt 2 = payload.length
  offset : out.numberAt 4 = headerSize
  checksum : out.numberAt 6 =
    if c.checksum then sumAround (headerSize + payload.length) out % 65536 else 0
  sequence : out.numberAt 8 = h.sequence.toNat
  throttle : out.byteAt 10 = h.throttle.bits
  packetType : out.byteAt 11 = h.packetType
  rest : out.drop headerSize =
    payload ++ zeros (n - (headerSize + payload.length)) ++ dst.drop n

section

variable {c : FrameConfig} {h : Header} {payload dst out : Bytes} {n : Nat} {e : FrameError}

theorem encodeFrame_of_firstFault
    (hfault : firstFault? (writeChecks c h payload (paddedSize c payload.length) dst) = some e) :
    encodeFrame c h payload dst = (.error e, dst) := by
  unfold writeChecks at hfault
  simp only [encodeFrame]
  obtain ⟨hempty, rfl⟩ | ⟨hempty, hfault⟩ := firstFault?_cons_eq_some.mp hfault
  · rw [if_pos (by simpa using hempty)]
  rw [if_neg (by simpa using hempty)]
  obtain ⟨hdata, rfl⟩ | ⟨hdata, hfault⟩ := firstFault?_cons_eq_some.mp hfault
  · rw [if_pos (by simpa using hdata)]
  rw [if_neg (by simpa using hdata)]
  obtain ⟨hfits, rfl⟩ | ⟨hfits, hfault⟩ := firstFault?_cons_eq_some.mp hfault
  · rw [if_pos (by simpa using hfits)]
  rw [if_neg (by simpa using hfits)]
  obtain ⟨hroom, rfl⟩ | ⟨-, hnone⟩ := firstFault?_cons_eq_some.mp hfault
  · rw [if_pos (by simpa using hroom)]
  · cases hnone

theorem writable_iff : Writable c h payload dst n ↔
    n = paddedSize c payload.length ∧ firstFault? (writeChecks c h payload n dst) = none := by
  simp only [firstFault?_eq_none_iff, writeChecks, List.forall_mem_cons, decide_eq_true_eq,
    Bool.not_eq_true', List.isEmpty_eq_false_iff]
  constructor
  · intro hw
    exact ⟨isPadded_iff.mp hw.padded, hw.nonempty, hw.interface, hw.fits, hw.room, by simp⟩
  · rintro ⟨hn, hnonempty, hdata, hfits, hroom, -⟩
    exact ⟨hnonempty, hdata, hfits, isPadded_iff.mpr hn, hroom⟩

theorem encodeFrame_ok_iff :
    (encodeFrame c h payload dst).1 = .ok n ↔ Writable c h payload dst n := by
  constructor
  · intro hok
    obtain ⟨hnonempty, hdata, hfits, hn, hroom, -⟩ := encodeFrame_ok (Prod.ext hok rfl)
    exact ⟨hnonempty, hdata, hfits, isPadded_iff.mpr hn, hroom⟩
  · intro hw
    obtain rfl : n = paddedSize c payload.length := isPadded_iff.mp hw.padded
    obtain ⟨out, hwrite⟩ := encodeFrame_of_room hw.nonempty hw.interface hw.fits hw.room
    rw [hwrite]

theorem firstFault?_of_encodeFrame_error (he : encodeFrame c h payload dst = (.error e, out)) :
    firstFault? (writeChecks c h payload (paddedSize c payload.length) dst) = some e := by
  refine (error_iff_of_firstFault? (fun hnone => ?_) fun e hfault => ?_).mp (congrArg Prod.fst he)
  · exact ⟨_, encodeFrame_ok_iff.mpr (writable_iff.mpr ⟨rfl, hnone⟩)⟩
  · rw [encodeFrame_of_firstFault hfault]

theorem route_of_describes {src : Bytes} (hdescribed : h.Describes src) :
    (src.byteAt 0).toNat = h.interface.code.toNat + 16 * h.number.toNat := by
  have hlow := hdescribed.interface
  have hhigh := hdescribed.number
  omega

theorem toNat_number_trimmed (h : Header) : h.trimmed.number.toNat = h.number.toNat % 16 := by
  rw [Header.trimmed, UInt8.toNat_ofNat']
  omega

theorem describes_of_encodeFrame_ok (he : encodeFrame c h payload dst = (.ok n, out)) :
    (h.sealed c payload).trimmed.Describes out := by
  obtain ⟨-, -, -, -, -, hout⟩ := encodeFrame_ok he
  rw [hout, List.append_assoc]
  exact Header.describes_of_parse (Header.parse_encode_append _ _)

/-- The checksum is that of the frame as it stands in the buffer. -/
theorem checksum_of_encodeFrame_ok (he : encodeFrame c h payload dst = (.ok n, out)) :
    (h.sealed c payload).checksum.toNat =
      if c.checksum then sumAround (headerSize + payload.length) out % 65536 else 0 := by
  cases hon : c.checksum with
  | false =>
    have hdraft : (h.sealed c payload).checksum = 0 := by simp [Header.sealed, hon]
    rw [hdraft]
    rfl
  | true =>
    obtain ⟨-, -, -, -, -, hout⟩ := encodeFrame_ok he
    have hwhole : headerSize + payload.length ≤ out.length := by
      rw [hout]
      simp
    rw [← h.frameChecksum_sealed c payload hon, ← take_of_encodeFrame_ok he,
      toNat_frameChecksum (Nat.le_add_right_of_le (by decide)) hwhole, if_pos rfl]

theorem written_of_encodeFrame_ok (hsize : c.bufferSize ≤ 65535)
    (he : encodeFrame c h payload dst = (.ok n, out)) : Written c h payload dst n out := by
  obtain ⟨-, -, hfits, -, -, hout⟩ := encodeFrame_ok he
  have hlength : (UInt16.ofNat payload.length).toNat = payload.length := by
    rw [UInt16.toNat_ofNat', Nat.mod_eq_of_lt (by omega)]
  have hdescribed := describes_of_encodeFrame_ok he
  have hroute := route_of_describes hdescribed
  rw [toNat_number_trimmed] at hroute
  have hchecksum := checksum_of_encodeFrame_ok he
  have hsealed := h.sealed_eq c payload
  generalize h.sealed c payload = s at *
  rw [List.append_assoc] at hout
  rw [hsealed] at hdescribed hroute
  exact
    { size := length_of_encodeFrame_ok he
      route := hroute
      flags := hdescribed.flags.symm
      length := hdescribed.length.symm.trans hlength
      offset := hdescribed.offset.symm
      checksum := hdescribed.checksum.symm.trans hchecksum
      sequence := hdescribed.sequence.symm
      throttle := by rw [hout, hsealed]; rfl
      packetType := hdescribed.packetType.symm
      rest := by rw [hout, List.drop_left' s.length_encode, List.append_assoc] }

/-- A frame that fits a bus buffer fits a block. -/
theorem encodeFrame_of_block (hblock : dst.length = c.blockSize) (size : Nat) :
    (encodeFrame c h payload dst).1 ≠ .error (.bufferTooSmall size) := by
  intro herror
  have hfault := firstFault?_of_encodeFrame_error (Prod.ext herror rfl)
  unfold writeChecks at hfault
  obtain ⟨-, hother⟩ | ⟨-, hfault⟩ := firstFault?_cons_eq_some.mp hfault
  · cases hother
  obtain ⟨-, hother⟩ | ⟨-, hfault⟩ := firstFault?_cons_eq_some.mp hfault
  · cases hother
  obtain ⟨-, hother⟩ | ⟨hfits, hfault⟩ := firstFault?_cons_eq_some.mp hfault
  · cases hother
  obtain ⟨hunfit, -⟩ | ⟨-, hnone⟩ := firstFault?_cons_eq_some.mp hfault
  · have hroom : paddedSize c payload.length ≤ dst.length := by
      rw [hblock]
      exact alignUp_le_alignUp _ (by simpa using hfits)
    exact absurd hroom (by simpa using hunfit)
  · cases hnone

end

/-- A frame is written exactly if it has a payload, its interface carries data, it fits a bus buffer
and the destination has room for it, padding included. The destination then holds the frame and,
behind it, what was there. Otherwise it is as it was, and the error is that of the first condition
that does not hold. A whole block has room for every frame. -/
theorem frame_written_iff {c : FrameConfig} (hsize : c.bufferSize ≤ 65535) (h : Header)
    (payload dst : Bytes) :
    encodeFrame? c h payload dst = some (encodeFrame c h payload dst) ∧
      (∀ n, (encodeFrame c h payload dst).1 = .ok n ↔ Writable c h payload dst n) ∧
      (∀ n out, encodeFrame c h payload dst = (.ok n, out) → Written c h payload dst n out) ∧
      (∀ e out, encodeFrame c h payload dst = (.error e, out) → out = dst ∧
        ∃ n, IsPadded c.alignment (headerSize + payload.length) n ∧
          firstFault? (writeChecks c h payload n dst) = some e) ∧
      (dst.length = c.blockSize →
        ∀ size, (encodeFrame c h payload dst).1 ≠ .error (.bufferTooSmall size)) := by
  refine ⟨encodeFrame?_eq c h payload dst, fun _ => encodeFrame_ok_iff,
    fun _ _ => written_of_encodeFrame_ok hsize, fun e out he => ?_, encodeFrame_of_block⟩
  exact ⟨encodeFrame_error he, _, isPadded_iff.mpr rfl, firstFault?_of_encodeFrame_error he⟩

/-- An odd alignment, and destinations one byte longer than a block, of a block, and shorter. -/
theorem frame_written_iff_small :
    let config : FrameConfig := ⟨15, 7, true⟩
    let h : Header := ⟨.hci, 0x2F, .wakeup, 0, 0, 0, 513, .on, 4⟩
    ∃ out, encodeFrame config h [9, 8, 7] (List.replicate 22 0xAA) = (.ok 21, out) ∧
      out.drop 12 = [9, 8, 7, 0, 0, 0, 0, 0, 0, 0xAA] ∧ out.numberAt 2 = 3 ∧
      (∀ size, (encodeFrame config h [9, 8, 7] (List.replicate 21 0xAA)).1 ≠
        .error (.bufferTooSmall size)) ∧
      ∃ n, IsPadded 7 15 n ∧
        firstFault? (writeChecks config h [9, 8, 7] n (List.replicate 20 0xAA)) =
          some (.bufferTooSmall 20) := by
  intro config h
  obtain ⟨-, hok, hwritten, -, -⟩ := frame_written_iff (c := config) (by decide) h [9, 8, 7]
    (List.replicate 22 0xAA)
  have hpadded : IsPadded config.alignment 15 21 := isPadded_iff.mpr (by decide)
  have hwrite := (hok 21).mpr ⟨by decide, rfl, by decide, hpadded, by decide⟩
  have hrest := hwritten 21 _ (Prod.ext hwrite rfl)
  obtain ⟨-, -, -, hrefused, -⟩ := frame_written_iff (c := config) (by decide) h [9, 8, 7]
    (List.replicate 20 0xAA)
  obtain ⟨-, n, hn, hfault⟩ :=
    hrefused (.bufferTooSmall 20) (List.replicate 20 0xAA) (by decide)
  obtain ⟨-, -, -, -, hroomy⟩ := frame_written_iff (c := config) (by decide) h [9, 8, 7]
    (List.replicate 21 0xAA)
  exact ⟨_, Prod.ext hwrite rfl, hrest.rest, hrest.length, hroomy (by decide), n, hn, hfault⟩

end SlaveLink
