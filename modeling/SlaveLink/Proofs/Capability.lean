import SlaveLink.Capability.Event
import SlaveLink.Proofs.Frame.RoundTrip

/-! # Reading the startup event back
Entries are self-delimiting, so a list of them is read back one by one. What the slave tells about
itself is thus what the host reads, and it is short enough for the length byte. That byte says where
the event ends, so that bytes behind it do no harm, and a piece of it is not taken for the whole. -/

namespace SlaveLink

namespace Tlv

theorem head?_encode_append {t : Tlv} (rest : Bytes) (h : t.value.length < 256) :
    head? (t.encode ++ rest) = some (t, rest) := by
  have hlength : (UInt8.ofNat t.value.length).toNat = t.value.length := by
    rw [UInt8.toNat_ofNat', Nat.mod_eq_of_lt h]
  simp [encode, head?, hlength]

theorem split_nil : split [] = ([], []) := by
  rw [split]
  rfl

theorem split_of_head? {data rest : Bytes} {t : Tlv} (h : head? data = some (t, rest)) :
    split data = (t :: (split rest).1, (split rest).2) := by
  rw [split]
  split
  · next hnone => simp [hnone] at h
  · next hsome =>
    obtain ⟨rfl, rfl⟩ := Prod.mk.inj (Option.some.inj (hsome.symm.trans h))
    rfl

/-- Encoded entries are split into themselves, and nothing is left. -/
theorem split_flatMap_encode {ts : List Tlv} (h : ∀ t ∈ ts, t.value.length < 256) :
    split (ts.flatMap encode) = (ts, []) := by
  induction ts with
  | nil => exact split_nil
  | cons t ts ih =>
    have hhead := head?_encode_append (ts.flatMap encode) (h t (List.mem_cons_self ..))
    have htail := ih fun u hu => h u (List.mem_cons_of_mem _ hu)
    rw [List.flatMap_cons, split_of_head? hhead, htail]

end Tlv

namespace Capabilities

variable (c : Capabilities)

theorem length_value_of_mem_entries : ∀ t ∈ c.entries, t.value.length < 256 := by
  cases hextended : c.extended <;> simp [entries, hextended]

/-- The event is as long as its seven or eight entries. -/
theorem length_toEvent :
    c.toEvent.length = if c.extended.isSome then 29 else 23 := by
  cases hextended : c.extended <;> simp [toEvent, entries, Tlv.encode, hextended]

theorem wordOf_ofWord32 (tag : UInt8) (w : UInt32) : wordOf ⟨tag, Bytes.ofWord32 w⟩ = .ok w :=
  congrArg Except.ok (Bytes.word32_ofWord32 w)

theorem putAll_entries : putAll none c.entries = .ok c := by
  obtain ⟨chipId, bits, extended, rawThroughput, rxQueueSize, txQueueSize, firmware⟩ := c
  cases extended <;>
    simp [entries, putAll, put, byteOf, wordOf_ofWord32, Except.map, none, Tag.chipId,
      Tag.capability, Tag.rawThroughput, Tag.rxQueueSize, Tag.txQueueSize, Tag.extended,
      Tag.firmware, FirmwareVersion.ofPacked_packed]

/-- The length byte of the event, which counts the bytes behind it. -/
theorem length_body : (UInt8.ofNat (c.entries.flatMap Tlv.encode).length).toNat =
    (c.entries.flatMap Tlv.encode).length := by
  have hsmall : (c.entries.flatMap Tlv.encode).length < 256 := by
    have hlength := c.length_toEvent
    simp only [toEvent, List.length_cons] at hlength
    split at hlength <;> omega
  rw [UInt8.toNat_ofNat', Nat.mod_eq_of_lt hsmall]

/-- The event is read as far as it goes, whatever follows it. -/
theorem ofEvent_toEvent_append (extra : Bytes) : ofEvent (c.toEvent ++ extra) = .ok c := by
  have hsplit := Tlv.split_flatMap_encode c.length_value_of_mem_entries
  have hroom : ¬ (c.entries.flatMap Tlv.encode ++ extra).length <
      (c.entries.flatMap Tlv.encode).length := by
    rw [List.length_append]
    omega
  simp only [ofEvent, toEvent, List.cons_append, length_body, ne_eq, not_true_eq_false, if_false,
    if_neg hroom, List.take_left', hsplit, putAll_entries, List.isEmpty_nil, if_true]

/-- The host reads what the slave tells about itself. -/
theorem ofEvent_toEvent : ofEvent c.toEvent = .ok c := by
  simpa only [List.append_nil] using c.ofEvent_toEvent_append []

/-- An event that was cut short is told from a whole one by its length byte, or by the lack of it. -/
theorem ofEvent_of_cut {data : Bytes} (hcut : data <+: c.toEvent) (hne : data ≠ c.toEvent) :
    ofEvent data = .error (if data.length < 2 then .headerTruncated else
      .lengthExceeds (UInt8.ofNat (c.toEvent.length - 2)) (data.length - 2)) := by
  match data with
  | [] => rfl
  | [_] => rfl
  | type :: length :: rest =>
    rw [toEvent, List.cons_prefix_cons, List.cons_prefix_cons] at hcut
    obtain ⟨rfl, rfl, hrest⟩ := hcut
    have hshort : rest.length < (c.entries.flatMap Tlv.encode).length := by
      apply Nat.lt_of_le_of_ne hrest.length_le
      intro hlength
      rw [hrest.eq_of_length hlength] at hne
      exact hne rfl
    have hlong : ¬ (initEvent :: UInt8.ofNat (c.entries.flatMap Tlv.encode).length ::
        rest).length < 2 := by
      simp only [List.length_cons]
      omega
    rw [if_neg hlong]
    simp only [ofEvent, ne_eq, not_true_eq_false, if_false, length_body, if_pos hshort]
    rfl

/-- The startup event tells the host all there is to know: alone, with other bytes behind it, and
in a frame of any configuration it fits into. No proper prefix of it is accepted. -/
theorem event_reads_back :
    ofEvent c.toEvent = .ok c ∧ (∀ extra, ofEvent (c.toEvent ++ extra) = .ok c) ∧
      (∀ data, data <+: c.toEvent → data ≠ c.toEvent →
        ofEvent data = .error (if data.length < 2 then .headerTruncated else
          .lengthExceeds (UInt8.ofNat (c.toEvent.length - 2)) (data.length - 2))) ∧
      ∀ (config : FrameConfig) (dst : Bytes), headerSize + c.toEvent.length ≤ config.bufferSize →
        config.bufferSize ≤ 65535 → c.toFrame.wireSize config ≤ dst.length →
        ∃ out, c.toFrame.encode config dst = (.ok (c.toFrame.wireSize config), out) ∧
          ∀ src, out.take (headerSize + c.toEvent.length) <+: src →
            ∃ f, Frame.decode config src = .ok f ∧ f.interface = .internal ∧
              f.packetType = eventPacketType ∧ ofEvent f.payload = .ok c := by
  refine ⟨c.ofEvent_toEvent, c.ofEvent_toEvent_append, fun _ => c.ofEvent_of_cut, ?_⟩
  intro config dst hfit hsize hroom
  have hsmall : c.toEvent.length < 65536 := by omega
  obtain ⟨out, hencode⟩ := encodeFrame_of_room (h := c.toFrame.header)
    (List.cons_ne_nil _ _ : c.toEvent ≠ []) rfl hfit hroom
  refine ⟨out, hencode, ?_⟩
  intro src hsrc
  exact ⟨_, decode_of_written hsmall hencode hsrc, rfl, rfl, c.ofEvent_toEvent⟩

/-- Four bytes of an extended word, in the smallest buffer that holds them. -/
theorem event_reads_back_extended :
    let c : Capabilities := ⟨1, 0xE8, some 0xDEADBEEF, 2, 3, 4, ⟨1, 2, 3⟩⟩
    let config : FrameConfig := ⟨41, 4, true⟩
    ofEvent (c.toEvent.take 28) = .error (.lengthExceeds 27 26) ∧
      ∃ out f, c.toFrame.encode config (Bytes.zeros 44) = (.ok 44, out) ∧
        Frame.decode config out = .ok f ∧ ofEvent f.payload = .ok c := by
  intro c config
  obtain ⟨_, _, hcut, hframe⟩ := event_reads_back c
  have hlength : c.toEvent.length = 29 := by decide
  have hne : c.toEvent.take 28 ≠ c.toEvent := by decide
  obtain ⟨out, hencode, hread⟩ := hframe config (Bytes.zeros 44) (by decide) (by decide) (by decide)
  obtain ⟨f, hdecode, _, _, hevent⟩ := hread out (List.take_prefix _ _)
  have hwire : c.toFrame.wireSize config = 44 := by decide
  exact ⟨hcut _ (List.take_prefix _ _) hne, out, f, hwire ▸ hencode, hdecode, hevent⟩

end Capabilities
end SlaveLink
