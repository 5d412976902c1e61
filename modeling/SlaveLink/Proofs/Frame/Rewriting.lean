import SlaveLink.Proofs.Frame.Corruption

/-! # Writing back what was read
A frame that was accepted can be written again, and reads as the same frame. Three things about the
bytes it came from are lost: where the payload began, the throttle bits that do not count, and a
checksum that nobody looked at. Where these are as they are written, so are all the bytes. -/

namespace SlaveLink

namespace Bytes

/-- Two bytes are the bytes of the word that they make up. -/
theorem ofWord16_word16 (low high : UInt8) : ofWord16 (word16 low high) = [low, high] := by
  have hlow := low.toNat_lt
  have hhigh := high.toNat_lt
  have hword : (word16 low high).toNat = low.toNat + 256 * high.toNat := by
    rw [word16, UInt16.toNat_ofNat']
    omega
  have hfirst : UInt8.ofNat (low.toNat + 256 * high.toNat) = low := by
    apply UInt8.toNat_inj.mp
    rw [UInt8.toNat_ofNat']
    omega
  have hsecond : UInt8.ofNat ((low.toNat + 256 * high.toNat) / 256) = high := by
    apply UInt8.toNat_inj.mp
    rw [UInt8.toNat_ofNat']
    omega
  rw [ofWord16, hword, hfirst, hsecond]

theorem take_headerSize {src : Bytes} (h : headerSize ≤ src.length) :
    src.take headerSize = [src.byteAt 0, src.byteAt 1, src.byteAt 2, src.byteAt 3, src.byteAt 4,
      src.byteAt 5, src.byteAt 6, src.byteAt 7, src.byteAt 8, src.byteAt 9, src.byteAt 10,
      src.byteAt 11] := by
  have hlength : 12 ≤ src.length := h
  match src, hlength with
  | _ :: _ :: _ :: _ :: _ :: _ :: _ :: _ :: _ :: _ :: _ :: _ :: _, _ => rfl

end Bytes

theorem Throttle.bits_ofBits {b : UInt8} (h : b = 0 ∨ b = 1) : (ofBits b).bits = b := by
  obtain rfl | rfl := h <;> rfl

theorem Interface.code_of_ofCode? {code : UInt8} {i : Interface} (h : ofCode? code = some i) :
    i.code = code := by
  rw [ofCode?] at h
  exact eq_of_beq (List.find?_some h :)

namespace Header

variable {c : FrameConfig} {src : Bytes} {h : Header}

/-- All that a header says was read off the twelve bytes in front. -/
theorem parse_eq_ok (hparse : parse src = .ok h) :
    h.interface.code = codeIn src ∧ h =
      ⟨h.interface, UInt8.ofNat ((src.byteAt 0).toNat / 16), ⟨src.byteAt 1⟩, src.word16At 2,
        src.word16At 4, src.word16At 6, src.word16At 8, .ofBits (src.byteAt 10),
        src.byteAt 11⟩ := by
  rw [parse] at hparse
  split at hparse
  · simp at hparse
  · simp only at hparse
    split at hparse
    · simp at hparse
    · next hcode =>
      rw [Except.ok.injEq] at hparse
      subst hparse
      exact ⟨Interface.code_of_ofCode? hcode, rfl⟩

theorem routeByte_of_parts {b : UInt8} {i : Interface} (hi : i.code = UInt8.ofNat (b.toNat % 16)) :
    routeByte i (UInt8.ofNat (b.toNat / 16)) = b := by
  have hb := b.toNat_lt
  apply UInt8.toNat_inj.mp
  simp only [routeByte, hi, UInt8.toNat_ofNat']
  omega

theorem trimmed_of_parse (hparse : parse src = .ok h) : h.trimmed = h := by
  obtain ⟨_, hfields⟩ := parse_eq_ok hparse
  have hb := (src.byteAt 0).toNat_lt
  have hnumber : UInt8.ofNat (h.number.toNat % 16) = h.number := by
    apply UInt8.toNat_inj.mp
    rw [hfields]
    simp only [UInt8.toNat_ofNat']
    omega
  rw [trimmed, hnumber]

/-- A header is the twelve bytes it was read from, with the throttle bits that count. -/
theorem encode_of_parse_eq_set (hlong : headerSize ≤ src.length) (hparse : parse src = .ok h) :
    h.encode = (src.take headerSize).set 10 (Throttle.ofBits (src.byteAt 10)).bits := by
  obtain ⟨hcode, hfields⟩ := parse_eq_ok hparse
  rw [hfields, Bytes.take_headerSize hlong, encode]
  simp only [routeByte_of_parts hcode, Bytes.word16At, Bytes.ofWord16_word16]
  rfl

theorem encode_of_parse (hlong : headerSize ≤ src.length) (hparse : parse src = .ok h)
    (hthrottle : src.byteAt 10 = 0 ∨ src.byteAt 10 = 1) : h.encode = src.take headerSize := by
  rw [encode_of_parse_eq_set hlong hparse, Throttle.bits_ofBits hthrottle,
    Bytes.take_headerSize hlong]
  rfl

theorem length_payloadOf (hend : h.payloadEnd ≤ src.length) :
    (h.payloadOf src).length = h.length.toNat := by
  rw [payloadEnd] at hend
  rw [payloadOf, payloadStart, List.length_take, List.length_drop]
  omega

end Header

/-- The payload of an accepted frame is not empty and fits behind a header. -/
theorem payload_of_decodeHeader {c : FrameConfig} {src : Bytes} {h : Header}
    (hok : decodeHeader c src = .ok h) :
    (h.payloadOf src).length = h.length.toNat ∧ h.payloadOf src ≠ [] ∧
      headerSize + (h.payloadOf src).length ≤ c.bufferSize := by
  obtain ⟨_, hnonzero, hparse, hstart, hend, _⟩ := decodeHeader_eq_ok hok
  have hinside : h.payloadEnd ≤ src.length := by omega
  have hlength := Header.length_payloadOf hinside
  have hword : h.length = src.word16At 2 := congrArg Header.length (Header.parse_eq_ok hparse).2
  have hpos : h.length.toNat ≠ 0 := by
    intro hzero
    rw [← hword] at hnonzero
    exact hnonzero (UInt16.toNat_inj.mp hzero)
  refine ⟨hlength, ?_, ?_⟩
  · intro hempty
    rw [hempty] at hlength
    exact hpos hlength.symm
  · simp only [Header.payloadStart, Header.payloadEnd] at hstart hend
    omega

/-- An accepted frame that starts behind its header is that header and its payload. -/
theorem take_of_decodeHeader {c : FrameConfig} {src : Bytes} {h : Header}
    (hok : decodeHeader c src = .ok h) (hoffset : h.payloadStart = headerSize)
    (hthrottle : src.byteAt 10 = 0 ∨ src.byteAt 10 = 1) :
    src.take h.payloadEnd = h.encode ++ h.payloadOf src := by
  obtain ⟨hlong, _, hparse, _⟩ := decodeHeader_eq_ok hok
  have hend : h.payloadEnd = headerSize + h.length.toNat := by
    rw [← hoffset, Header.payloadEnd, Header.payloadStart]
  rw [hend, List.take_add, Header.encode_of_parse hlong hparse hthrottle, Header.payloadOf, hoffset]

/-- Sealing such a frame again gives the header it had, checksum included. -/
theorem sealed_of_decodeHeader {c : FrameConfig} {src : Bytes} {h : Header}
    (hok : decodeHeader c src = .ok h) (hoffset : h.payloadStart = headerSize)
    (hthrottle : src.byteAt 10 = 0 ∨ src.byteAt 10 = 1)
    (hsum : c.checksum = true ∨ h.checksum = 0) :
    (Frame.ofHeader h (h.payloadOf src)).header.sealed c (h.payloadOf src) = h := by
  have hlength : UInt16.ofNat (h.payloadOf src).length = h.length := by
    rw [(payload_of_decodeHeader hok).1, UInt16.ofNat_toNat]
  have hstart : UInt16.ofNat headerSize = h.offset := by
    rw [← hoffset, Header.payloadStart, UInt16.ofNat_toNat]
  have hframe := take_of_decodeHeader hok hoffset hthrottle
  generalize h.payloadOf src = payload at hlength hframe ⊢
  unfold Header.sealed
  simp only [hlength, hstart]
  split
  · next hon =>
    have hchecksum := frameChecksum_of_decodeHeader hon hok
    rw [hframe, frameChecksum_encode] at hchecksum
    exact congrArg (fun sum => { h with checksum := sum }) hchecksum
  · next hoff =>
    obtain hon | hzero := hsum
    · exact absurd hon hoff
    · exact congrArg (fun sum => { h with checksum := sum }) hzero.symm

/-- A frame that was accepted can be written into any destination with room for it, and reads as
itself. It has the very bytes it was read from, unless its payload began further back, its throttle
byte had another value than is written, or its checksum was neither looked at nor zero. -/
theorem accepted_frame_rewrites {c : FrameConfig} {src dst : Bytes} {f : Frame}
    (hdecode : Frame.decode c src = .ok f) (hroom : f.wireSize c ≤ dst.length) :
    ∃ out, f.encode c dst = (.ok (f.wireSize c), out) ∧ out.length = dst.length ∧
      (∀ again, out.take (headerSize + f.payload.length) <+: again →
        Frame.decode c again = .ok f) ∧
      (src.word16At 4 = UInt16.ofNat headerSize → (src.byteAt 10 = 0 ∨ src.byteAt 10 = 1) →
        (c.checksum = true ∨ src.word16At 6 = 0) →
        out.take (headerSize + f.payload.length) = src.take (headerSize + f.payload.length)) := by
  obtain ⟨h, hok, rfl⟩ := Frame.decode_eq_ok hdecode
  obtain ⟨_, _, hparse, _, _, hdata⟩ := decodeHeader_eq_ok hok
  obtain ⟨hlength, hne, hfit⟩ := payload_of_decodeHeader hok
  have hfields := (Header.parse_eq_ok hparse).2
  have hsmall : (h.payloadOf src).length < 65536 := hlength ▸ h.length.toNat_lt
  obtain ⟨out, hencode⟩ :=
    encodeFrame_of_room (h := (Frame.ofHeader h (h.payloadOf src)).header) hne hdata hfit hroom
  refine ⟨out, hencode, length_of_encodeFrame_ok hencode, ?_, ?_⟩
  · intro again hagain
    have hsame : Frame.ofHeader h.trimmed (h.payloadOf src) = .ofHeader h (h.payloadOf src) :=
      congrArg (Frame.ofHeader · _) (Header.trimmed_of_parse hparse)
    exact (decode_of_written hsmall hencode hagain).trans (congrArg Except.ok hsame)
  · intro hoffset hthrottle hsum
    have hchecksum : h.checksum = src.word16At 6 := congrArg Header.checksum hfields
    have hstart : h.payloadStart = headerSize := by
      rw [Header.payloadStart, congrArg Header.offset hfields]
      exact congrArg UInt16.toNat hoffset
    have hend : headerSize + (h.payloadOf src).length = h.payloadEnd := by
      rw [hlength, ← hstart, Header.payloadEnd, Header.payloadStart]
    have hwritten := take_of_encodeFrame_ok hencode
    rw [← hchecksum] at hsum
    rw [sealed_of_decodeHeader hok hstart hthrottle hsum,
      ← take_of_decodeHeader hok hstart hthrottle, ← hend] at hwritten
    exact hwritten

/-- A payload two bytes further back, a throttle byte of 5 and a checksum that nobody looks at. -/
theorem accepted_frame_rewrites_small :
    let c : FrameConfig := ⟨64, 4, false⟩
    let src : Bytes := [0x24, 2, 2, 0, 14, 0, 0xAB, 0xCD, 1, 0, 5, 7, 0xEE, 0xEE, 8, 9, 0xFF]
    let f : Frame := ⟨.hci, 2, .wakeup, 1, .on, 7, [8, 9]⟩
    Frame.decode c src = .ok f ∧
      ∃ out, f.encode c (List.replicate 18 0xAA) = (.ok 16, out) ∧ Frame.decode c out = .ok f := by
  intro c src f
  have hdecode : Frame.decode c src = .ok f := by cbv
  have hroom : f.wireSize c ≤ (List.replicate 18 0xAA : Bytes).length := by decide
  obtain ⟨out, hencode, _, hread, _⟩ := accepted_frame_rewrites hdecode hroom
  have hwire : f.wireSize c = 16 := by decide
  exact ⟨hdecode, out, hwire ▸ hencode, hread out (List.take_prefix _ _)⟩

end SlaveLink
