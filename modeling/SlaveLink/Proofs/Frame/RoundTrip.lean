import SlaveLink.Frame.Codec

/-! # Frame round trip
A frame reads back from the bytes it was written into, whatever follows it in the block. Only the
high bits of the interface number are lost: four bits travel. -/

namespace SlaveLink

namespace Header

/-- The header with as much of its interface number as travels. -/
def trimmed (h : Header) : Header := { h with number := UInt8.ofNat (h.number.toNat % 16) }

theorem routeByte_mod (i : Interface) (n : UInt8) :
    UInt8.ofNat ((routeByte i n).toNat % 16) = i.code := by
  have hi := i.code_lt
  have hn := n.toNat_lt
  apply UInt8.toNat_inj.mp
  simp only [routeByte, UInt8.toNat_ofNat']
  omega

theorem routeByte_div (i : Interface) (n : UInt8) :
    UInt8.ofNat ((routeByte i n).toNat / 16) = UInt8.ofNat (n.toNat % 16) := by
  have hi := i.code_lt
  have hn := n.toNat_lt
  apply UInt8.toNat_inj.mp
  simp only [routeByte, UInt8.toNat_ofNat']
  omega

theorem ofBits_bits (t : Throttle) : Throttle.ofBits t.bits = t := by cases t <;> rfl

/-- A header is parsed from its bytes, whatever follows them. -/
theorem parse_encode_append (h : Header) (rest : Bytes) :
    parse (h.encode ++ rest) = .ok h.trimmed := by
  have hlen : ¬ (h.encode ++ rest).length < headerSize := by simp
  have hroute : (h.encode ++ rest).byteAt 0 = routeByte h.interface h.number := rfl
  have hthrottle : Throttle.ofBits ((h.encode ++ rest).byteAt 10) = h.throttle :=
    ofBits_bits h.throttle
  have hlength : (h.encode ++ rest).word16At 2 = h.length := Bytes.word16_ofWord16 _
  have hoffset : (h.encode ++ rest).word16At 4 = h.offset := Bytes.word16_ofWord16 _
  have hchecksum : (h.encode ++ rest).word16At 6 = h.checksum := Bytes.word16_ofWord16 _
  have hsequence : (h.encode ++ rest).word16At 8 = h.sequence := Bytes.word16_ofWord16 _
  simp only [parse, if_neg hlen, hroute, routeByte_mod, routeByte_div, Interface.ofCode?_code,
    hthrottle, hlength, hoffset, hchecksum, hsequence]
  rfl

theorem writeTo_of_room {h : Header} {dst : Bytes} (hroom : headerSize ≤ dst.length) :
    h.writeTo dst = .ok (h.encode ++ dst.drop headerSize) := by
  rw [writeTo, if_neg (Nat.not_lt.mpr hroom)]

end Header

theorem frameChecksum_encode (h : Header) (payload : Bytes) :
    frameChecksum (h.encode ++ payload) =
      Bytes.checksum ({ h with checksum := 0 }.encode ++ payload) := by
  have hfield : ((h.encode ++ payload).drop 6).take 2 = Bytes.ofWord16 h.checksum := rfl
  have hframe : h.encode ++ payload =
      h.encode.take 6 ++ (Bytes.ofWord16 h.checksum ++ (h.encode.drop 8 ++ payload)) := rfl
  have hblank : { h with checksum := 0 }.encode ++ payload =
      h.encode.take 6 ++ (Bytes.ofWord16 0 ++ (h.encode.drop 8 ++ payload)) := rfl
  have hzero : Bytes.checksum (Bytes.ofWord16 0) = 0 := rfl
  rw [frameChecksum, hfield, hframe, hblank]
  simp only [Bytes.checksum_append, hzero]
  grind

namespace Header

theorem sealed_eq (config : FrameConfig) (h : Header) (payload : Bytes) :
    h.sealed config payload = { h with
      length := UInt16.ofNat payload.length
      offset := UInt16.ofNat headerSize
      checksum := (h.sealed config payload).checksum } := by
  unfold sealed
  split <;> rfl

/-- The checksum of a sealed header is the one that reading computes. -/
theorem frameChecksum_sealed (config : FrameConfig) (h : Header) (payload : Bytes)
    (hon : config.checksum = true) :
    frameChecksum ((h.sealed config payload).encode ++ payload) =
      (h.sealed config payload).checksum := by
  rw [frameChecksum_encode]
  simp only [sealed, if_pos hon]

end Header

/-- What was written is accepted, with the header that was written. -/
theorem decodeHeader_sealed (config : FrameConfig) (h : Header) (payload rest : Bytes)
    (hsmall : payload.length < 65536) (hfit : headerSize + payload.length ≤ config.bufferSize)
    (hne : payload ≠ []) (hdata : h.interface.carriesData = true) :
    decodeHeader config ((h.sealed config payload).encode ++ payload ++ rest) =
      .ok (h.sealed config payload).trimmed := by
  have hpos : 0 < payload.length := List.length_pos_iff.mpr hne
  have heq := h.sealed_eq config payload
  generalize hs : h.sealed config payload = s at heq ⊢
  have hlength : s.length.toNat = payload.length := by
    rw [heq, UInt16.toNat_ofNat', Nat.mod_eq_of_lt hsmall]
  have hoffset : s.offset.toNat = headerSize := by rw [heq]; rfl
  have hinterface : s.interface = h.interface := by rw [heq]
  have hword : (s.encode ++ payload ++ rest).word16At 2 = s.length := Bytes.word16_ofWord16 _
  have hnonzero : s.length ≠ 0 := by
    intro h0
    rw [h0] at hlength
    simp at hlength
    omega
  have hlen : (s.encode ++ payload ++ rest).length = headerSize + payload.length + rest.length := by
    simp only [List.length_append, Header.length_encode]
  have hend : s.trimmed.payloadEnd = headerSize + payload.length := by
    simp only [Header.payloadEnd, Header.trimmed, hlength, hoffset]
  have htake : (s.encode ++ payload ++ rest).take (headerSize + payload.length) =
      s.encode ++ payload := by
    apply List.take_left'
    simp
  have hsum : config.checksum = true → frameChecksum (s.encode ++ payload) = s.checksum := by
    intro hon
    rw [← hs]
    exact Header.frameChecksum_sealed config h payload hon
  unfold decodeHeader
  rw [List.append_assoc] at hword ⊢
  rw [Header.parse_encode_append]
  rw [← List.append_assoc] at hword ⊢
  simp only [hend, htake, hword, hlen, hnonzero, if_false]
  rw [if_neg (by omega), if_neg, if_neg, if_neg]
  · rintro ⟨hon, hbad⟩
    exact hbad (hsum hon)
  · simp [Header.trimmed, hinterface, hdata]
  · simp only [Header.payloadStart, Header.trimmed, hoffset]
    omega

theorem payloadOf_sealed (config : FrameConfig) (h : Header) (payload rest : Bytes)
    (hsmall : payload.length < 65536) :
    (h.sealed config payload).trimmed.payloadOf
      ((h.sealed config payload).encode ++ payload ++ rest) = payload := by
  have heq := h.sealed_eq config payload
  generalize h.sealed config payload = s at heq ⊢
  have hlength : s.length.toNat = payload.length := by
    rw [heq, UInt16.toNat_ofNat', Nat.mod_eq_of_lt hsmall]
  have hoffset : s.offset.toNat = headerSize := by rw [heq]; rfl
  have hdrop : (s.encode ++ (payload ++ rest)).drop headerSize = payload ++ rest :=
    List.drop_left' (Header.length_encode s)
  simp only [Header.payloadOf, Header.payloadStart, Header.trimmed, hlength, hoffset,
    List.append_assoc, hdrop, List.take_left']

theorem encodeFrame_ok {config : FrameConfig} {h : Header} {payload dst out : Bytes} {n : Nat}
    (he : encodeFrame config h payload dst = (.ok n, out)) :
    payload ≠ [] ∧ h.interface.carriesData = true ∧
      headerSize + payload.length ≤ config.bufferSize ∧ n = paddedSize config payload.length ∧
      n ≤ dst.length ∧ out = (h.sealed config payload).encode ++ payload ++
        (Bytes.zeros (n - (headerSize + payload.length)) ++ dst.drop n) := by
  simp only [encodeFrame] at he
  split at he
  · simp at he
  · next hne =>
    split at he
    · simp at he
    · next hdata =>
      split at he
      · simp at he
      · next hfit =>
        split at he
        · simp at he
        · next hroom =>
          simp only [Prod.mk.injEq, Except.ok.injEq] at he
          obtain ⟨rfl, rfl⟩ := he
          refine ⟨by simpa using hne, by simpa using hdata, by omega, rfl, by omega, ?_⟩
          simp only [List.append_assoc]

theorem length_of_encodeFrame_ok {config : FrameConfig} {h : Header} {payload dst out : Bytes}
    {n : Nat} (he : encodeFrame config h payload dst = (.ok n, out)) : out.length = dst.length := by
  obtain ⟨_, _, _, hn, hroom, rfl⟩ := encodeFrame_ok he
  have hle : headerSize + payload.length ≤ n := by rw [hn]; exact le_alignUp _ _
  simp only [List.length_append, Header.length_encode, Bytes.length_zeros, List.length_drop]
  omega

/-- A failed write leaves its destination alone. -/
theorem encodeFrame_error {config : FrameConfig} {h : Header} {payload dst out : Bytes}
    {e : FrameError} (he : encodeFrame config h payload dst = (.error e, out)) : out = dst := by
  simp only [encodeFrame] at he
  split at he
  · exact (Prod.mk.inj he).2.symm
  · split at he
    · exact (Prod.mk.inj he).2.symm
    · split at he
      · exact (Prod.mk.inj he).2.symm
      · split at he
        · exact (Prod.mk.inj he).2.symm
        · simp at he

theorem encodeFrame_of_room {config : FrameConfig} {h : Header} {payload dst : Bytes}
    (hpayload : payload ≠ []) (hdata : h.interface.carriesData = true)
    (hfit : headerSize + payload.length ≤ config.bufferSize)
    (hroom : paddedSize config payload.length ≤ dst.length) : ∃ out,
      encodeFrame config h payload dst = (.ok (paddedSize config payload.length), out) := by
  have hempty : ¬ payload.isEmpty = true := by simpa using hpayload
  simp only [encodeFrame]
  rw [if_neg hempty, if_neg (by simp [hdata]), if_neg (by omega), if_neg (by omega)]
  exact ⟨_, rfl⟩

theorem encodeFrame_of_fit {config : FrameConfig} {h : Header} {payload dst : Bytes}
    (hpayload : payload ≠ []) (hdata : h.interface.carriesData = true)
    (hfit : headerSize + payload.length ≤ config.bufferSize)
    (hdst : dst.length = config.blockSize) : ∃ out,
      encodeFrame config h payload dst = (.ok (paddedSize config payload.length), out) := by
  have hpadded : paddedSize config payload.length ≤ dst.length := by
    rw [hdst]
    exact alignUp_le_alignUp _ hfit
  exact encodeFrame_of_room hpayload hdata hfit hpadded

theorem encodeFrame_of_unfit {config : FrameConfig} {h : Header} {payload : Bytes} (dst : Bytes)
    (hpayload : payload ≠ []) (hdata : h.interface.carriesData = true)
    (hunfit : config.bufferSize < headerSize + payload.length) :
    encodeFrame config h payload dst =
      (.error (.payloadTooLarge payload.length config.maxPayload), dst) := by
  have hempty : ¬ payload.isEmpty = true := by simpa using hpayload
  simp only [encodeFrame]
  rw [if_neg hempty, if_neg (by simp [hdata]), if_pos (by omega)]

/-- The frame that was written is read, whatever follows it, if its length fits the length word. -/
theorem decode_sealed_of_short {config : FrameConfig} {h : Header} {payload : Bytes} (rest : Bytes)
    (hsmall : payload.length < 65536) (hfit : headerSize + payload.length ≤ config.bufferSize)
    (hne : payload ≠ []) (hdata : h.interface.carriesData = true) :
    Frame.decode config ((h.sealed config payload).encode ++ payload ++ rest) =
      .ok (.ofHeader h.trimmed payload) := by
  rw [Frame.decode, decodeHeader_sealed config h payload _ hsmall hfit hne hdata, Except.map,
    payloadOf_sealed config h payload _ hsmall, Header.sealed_eq]
  rfl

theorem decode_sealed {config : FrameConfig} {h : Header} {payload : Bytes} (rest : Bytes)
    (hsize : config.bufferSize ≤ 65535) (hfit : headerSize + payload.length ≤ config.bufferSize)
    (hne : payload ≠ []) (hdata : h.interface.carriesData = true) :
    Frame.decode config ((h.sealed config payload).encode ++ payload ++ rest) =
      .ok (.ofHeader h.trimmed payload) := by
  have hsmall : payload.length < 65536 := by simp only [headerSize] at hfit; omega
  exact decode_sealed_of_short rest hsmall hfit hne hdata

/-- A written frame is the first thing in its destination. -/
theorem take_of_encodeFrame_ok {config : FrameConfig} {h : Header} {payload dst out : Bytes}
    {n : Nat} (he : encodeFrame config h payload dst = (.ok n, out)) :
    out.take (headerSize + payload.length) = (h.sealed config payload).encode ++ payload := by
  obtain ⟨_, _, _, _, _, rfl⟩ := encodeFrame_ok he
  apply List.take_left'
  simp

/-- A written frame reads back from wherever it stands in front. -/
theorem decode_of_written {config : FrameConfig} {h : Header} {payload dst out src : Bytes}
    {n : Nat} (hsmall : payload.length < 65536)
    (he : encodeFrame config h payload dst = (.ok n, out))
    (hsrc : out.take (headerSize + payload.length) <+: src) :
    Frame.decode config src = .ok (.ofHeader h.trimmed payload) := by
  obtain ⟨hne, hdata, hfit, _⟩ := encodeFrame_ok he
  obtain ⟨rest, rfl⟩ := hsrc
  rw [take_of_encodeFrame_ok he]
  exact decode_sealed_of_short rest hsmall hfit hne hdata

/-- A written frame reads back. -/
theorem decode_of_encodeFrame_ok {config : FrameConfig} {h : Header} {payload dst out : Bytes}
    {n : Nat} (hsize : config.bufferSize ≤ 65535)
    (he : encodeFrame config h payload dst = (.ok n, out)) :
    Frame.decode config out = .ok (.ofHeader h.trimmed payload) := by
  obtain ⟨_, _, hfit, _⟩ := encodeFrame_ok he
  have hsmall : payload.length < 65536 := by simp only [headerSize] at hfit; omega
  exact decode_of_written hsmall he (List.take_prefix _ _)

/-- A frame is written whole into any destination with room for it, padding included. What is read
from the destination is that frame with four bits of its number, whatever becomes of the bytes
behind the payload. -/
theorem frame_reads_back {config : FrameConfig} {f : Frame} {dst : Bytes}
    (hsize : config.bufferSize ≤ 65535) (hpayload : f.payload ≠ [])
    (hdata : f.interface.carriesData = true)
    (hfit : headerSize + f.payload.length ≤ config.bufferSize)
    (hroom : f.wireSize config ≤ dst.length) :
    ∃ out, f.encode config dst = (.ok (f.wireSize config), out) ∧ out.length = dst.length ∧
      ∀ src, out.take (headerSize + f.payload.length) <+: src →
        Frame.decode config src = .ok { f with number := UInt8.ofNat (f.number.toNat % 16) } := by
  obtain ⟨out, hencode⟩ := encodeFrame_of_room (h := f.header) hpayload hdata hfit hroom
  refine ⟨out, hencode, length_of_encodeFrame_ok hencode, ?_⟩
  rintro src ⟨rest, rfl⟩
  obtain ⟨_, _, _, _, _, rfl⟩ := encodeFrame_ok hencode
  have htake : (((f.header.sealed config f.payload).encode ++ f.payload) ++
      (Bytes.zeros (paddedSize config f.payload.length - (headerSize + f.payload.length)) ++
        dst.drop (paddedSize config f.payload.length))).take (headerSize + f.payload.length) =
      (f.header.sealed config f.payload).encode ++ f.payload := by
    apply List.take_left'
    simp
  rw [htake]
  exact decode_sealed rest hsize hfit hpayload hdata

/-- A number of more than four bits, an odd alignment and a destination that is not blank. -/
theorem frame_reads_back_small :
    let config : FrameConfig := ⟨15, 7, true⟩
    let f : Frame := ⟨.hci, 0x2F, .wakeup, 513, .on, 4, [9, 8, 7]⟩
    ∃ out, f.encode config (List.replicate 22 0xAA) = (.ok 21, out) ∧
      Frame.decode config (out.take 15 ++ [1, 2]) = .ok { f with number := 0x0F } := by
  intro config f
  have hroom : f.wireSize config ≤ (List.replicate 22 0xAA : Bytes).length := by decide
  obtain ⟨out, hencode, _, hdecode⟩ :=
    frame_reads_back (by decide : config.bufferSize ≤ 65535) (by decide) rfl (by decide) hroom
  have hwire : f.wireSize config = 21 := by decide
  have hnumber : UInt8.ofNat (f.number.toNat % 16) = 0x0F := by decide
  have hread := hdecode (out.take 15 ++ [1, 2]) (List.prefix_append _ _)
  rw [hnumber] at hread
  exact ⟨out, hwire ▸ hencode, hread⟩

/-- A frame that was read is a header that was read, and the payload it describes. -/
theorem Frame.decode_eq_ok {config : FrameConfig} {src : Bytes} {f : Frame}
    (hdecode : Frame.decode config src = .ok f) :
    ∃ h, decodeHeader config src = .ok h ∧ .ofHeader h (h.payloadOf src) = f := by
  unfold Frame.decode at hdecode
  cases hheader : decodeHeader config src with
  | error e => simp [hheader, Except.map] at hdecode
  | ok h =>
    simp only [hheader, Except.map, Except.ok.injEq] at hdecode
    exact ⟨h, rfl, hdecode⟩

/-- A dummy header is read as one, whatever follows it. -/
theorem decode_dummy (config : FrameConfig) (t : Throttle) (rest : Bytes) :
    Frame.decode config ((Header.dummy t).encode ++ rest) = .error .dummyFrame := by
  have hlen : ¬ ((Header.dummy t).encode ++ rest).length < headerSize := by simp
  have hword : ((Header.dummy t).encode ++ rest).word16At 2 = 0 :=
    Bytes.word16_ofWord16 0
  rw [Frame.decode, decodeHeader, if_neg hlen, if_pos hword]
  rfl

end SlaveLink
