import Mathlib.Data.List.Basic
import Mathlib.Data.List.Induction
import SlaveLink.Proofs.Capability

/-! # Which startup events are accepted
The host may be told about more than it knows, in any order and more than once. An event is accepted
if its length byte leaves nothing out, its entries leave nothing over, and the entries with a tag
that is known are of the right length. What counts is then the last entry of each tag. -/

namespace SlaveLink

/-- How long the value of an entry with this tag has to be, if the tag is known. -/
def Tag.size? (tag : UInt8) : Option Nat :=
  if 0x11 ≤ tag.toNat ∧ tag.toNat ≤ 0x15 then some 1
  else if tag.toNat = 0x16 ∨ tag.toNat = 0x17 then some 4
  else none

/-- There are seven tags whose entries are looked at. -/
theorem Tag.mem_of_size? {tag : UInt8} (h : Tag.size? tag ≠ none) :
    tag ∈ [chipId, capability, rawThroughput, rxQueueSize, txQueueSize, extended, firmware] := by
  have hall : ∀ n < 256, Tag.size? (UInt8.ofNat n) ≠ none → UInt8.ofNat n ∈
      [chipId, capability, rawThroughput, rxQueueSize, txQueueSize, extended, firmware] := by
    decide +kernel
  have htag := hall tag.toNat tag.toNat_lt
  rw [UInt8.ofNat_toNat] at htag
  exact htag h

namespace Tlv

/-- The entries stand in the byte string one behind the other, and nothing else does. -/
inductive Lists : List Tlv → Bytes → Prop
  | nil : Lists [] []
  | cons {ts : List Tlv} {tail : Bytes} (tag length : UInt8) (value : Bytes)
      (whole : value.length = length.toNat) (rest : Lists ts tail) :
      Lists (⟨tag, value⟩ :: ts) (tag :: length :: (value ++ tail))

def WellSized (t : Tlv) : Prop := ∀ n, Tag.size? t.tag = some n → t.value.length = n

def lastValue? (tag : UInt8) (ts : List Tlv) : Option Bytes :=
  (ts.filter (·.tag = tag)).getLast?.map (·.value)

/-- The entries with any known tag are the same, in the same order. -/
def Alike (ts ts' : List Tlv) : Prop :=
  ∀ tag, Tag.size? tag ≠ none → ts.filter (·.tag = tag) = ts'.filter (·.tag = tag)

variable {t u : Tlv} {ts ts' : List Tlv} {data : Bytes} {tag : UInt8}

theorem head?_eq_some_iff {rest : Bytes} : head? data = some (t, rest) ↔
    ∃ length : UInt8, t.value.length = length.toNat ∧
      data = t.tag :: length :: (t.value ++ rest) := by
  constructor
  · intro h
    match data with
    | [] => simp [head?] at h
    | [_] => simp [head?] at h
    | tag :: length :: tail =>
      simp only [head?, Option.ite_none_right_eq_some, Option.some.injEq, Prod.mk.injEq] at h
      obtain ⟨hle, rfl, rfl⟩ := h
      exact ⟨length, List.length_take_of_le hle, by rw [List.take_append_drop]⟩
  · rintro ⟨length, hlength, rfl⟩
    have hle : length.toNat ≤ (t.value ++ rest).length := by
      rw [List.length_append]
      omega
    rw [head?, if_pos hle, List.take_left' hlength, List.drop_left' hlength]

theorem split_of_none (h : head? data = none) : split data = ([], data) := by
  rw [split]
  split
  · rfl
  · next hsome => simp [h] at hsome

theorem lists_iff : Lists ts data ↔ split data = (ts, []) := by
  constructor
  · intro h
    induction h with
    | nil => exact split_nil
    | @cons ts tail tag length value whole _ ih =>
      have hhead : head? (tag :: length :: (value ++ tail)) = some (⟨tag, value⟩, tail) :=
        head?_eq_some_iff.mpr ⟨length, whole, rfl⟩
      rw [split_of_head? hhead, ih]
  · intro h
    induction data using split.induct generalizing ts with
    | case1 data hnone =>
      rw [split_of_none hnone] at h
      obtain ⟨rfl, rfl⟩ := Prod.mk.inj h
      exact .nil
    | case2 data t rest hsome _ _ _ _ ih =>
      rw [split_of_head? hsome] at h
      obtain ⟨rfl, htail⟩ := Prod.mk.inj h
      obtain ⟨length, whole, rfl⟩ := head?_eq_some_iff.mp hsome
      exact .cons t.tag length t.value whole (ih (Prod.ext rfl htail))

theorem wellSized_iff {n : Nat} (htag : t.tag = tag) (hsize : Tag.size? tag = some n) :
    t.WellSized ↔ t.value.length = n := by
  simp [WellSized, htag, hsize]

theorem lastValue?_concat : lastValue? tag (ts ++ [t]) =
    if t.tag = tag then some t.value else lastValue? tag ts := by
  by_cases htag : t.tag = tag <;> simp [lastValue?, List.filter_append, htag]

theorem Alike.symm (h : Alike ts ts') : Alike ts' ts := fun tag hknown => (h tag hknown).symm

theorem Alike.trans {ts'' : List Tlv} (h : Alike ts ts') (h' : Alike ts' ts'') : Alike ts ts'' :=
  fun tag hknown => (h tag hknown).trans (h' tag hknown)

theorem alike_of_unknown (before after : List Tlv) (h : Tag.size? t.tag = none) :
    Alike (before ++ t :: after) (before ++ after) := by
  intro tag hknown
  have hother : t.tag ≠ tag := by
    rintro rfl
    exact hknown h
  simp [List.filter_append, hother]

theorem alike_of_swap (before after : List Tlv) (h : t.tag ≠ u.tag) :
    Alike (before ++ t :: u :: after) (before ++ u :: t :: after) := by
  intro tag _
  have hone : ¬ (t.tag = tag ∧ u.tag = tag) := fun ⟨ht, hu⟩ => h (ht.trans hu.symm)
  by_cases ht : t.tag = tag <;> by_cases hu : u.tag = tag <;> simp_all [List.filter_append]

end Tlv

namespace Capabilities

open Tlv

/-- What a list of entries tells: of each tag the last value, and what is not told is none or zero.
Words come low byte first, and the top byte of the firmware version is ignored. -/
def told (ts : List Tlv) : Capabilities where
  chipId := ((lastValue? Tag.chipId ts).getD []).byteAt 0
  bits := ((lastValue? Tag.capability ts).getD []).byteAt 0
  extended := (lastValue? Tag.extended ts).map fun v =>
    Bytes.word32 (v.byteAt 0) (v.byteAt 1) (v.byteAt 2) (v.byteAt 3)
  rawThroughput := ((lastValue? Tag.rawThroughput ts).getD []).byteAt 0
  rxQueueSize := ((lastValue? Tag.rxQueueSize ts).getD []).byteAt 0
  txQueueSize := ((lastValue? Tag.txQueueSize ts).getD []).byteAt 0
  firmware :=
    let v := (lastValue? Tag.firmware ts).getD []
    ⟨v.byteAt 2, v.byteAt 1, v.byteAt 0⟩

variable {c : Capabilities} {t : Tlv} {ts ts' : List Tlv} {data : Bytes}

theorem map_byteOf_eq_ok_iff {f : UInt8 → Capabilities} :
    (byteOf t).map f = .ok c ↔ t.value.length = 1 ∧ c = f (t.value.byteAt 0) := by
  unfold byteOf
  split
  · next b hvalue => simp [hvalue, Bytes.byteAt, Except.map, eq_comm]
  · next hother =>
    have hlength : t.value.length ≠ 1 := by
      intro hlength
      obtain ⟨b, hvalue⟩ := List.length_eq_one_iff.mp hlength
      exact hother b hvalue
    simp [hlength, Except.map]

theorem map_wordOf_eq_ok_iff {f : UInt32 → Capabilities} :
    (wordOf t).map f = .ok c ↔ t.value.length = 4 ∧ c = f (Bytes.word32 (t.value.byteAt 0)
      (t.value.byteAt 1) (t.value.byteAt 2) (t.value.byteAt 3)) := by
  unfold wordOf
  split
  · next b₀ b₁ b₂ b₃ hvalue => simp [hvalue, Bytes.byteAt, Except.map, eq_comm]
  · next hother =>
    have hlength : t.value.length ≠ 4 := by
      intro hlength
      obtain ⟨b₀, rest, hvalue⟩ := List.exists_cons_of_length_eq_add_one hlength
      rw [hvalue, List.length_cons] at hlength
      obtain ⟨b₁, b₂, b₃, rfl⟩ := List.length_eq_three.mp (Nat.succ.inj hlength)
      exact hother b₀ b₁ b₂ b₃ hvalue
    simp [hlength, Except.map]

theorem ofPacked_word32 (b₀ b₁ b₂ b₃ : UInt8) :
    FirmwareVersion.ofPacked (Bytes.word32 b₀ b₁ b₂ b₃) = ⟨b₂, b₁, b₀⟩ := by
  have h₀ := b₀.toNat_lt
  have h₁ := b₁.toNat_lt
  have h₂ := b₂.toNat_lt
  have h₃ := b₃.toNat_lt
  simp only [FirmwareVersion.ofPacked, Bytes.word32, UInt32.toNat_ofNat',
    FirmwareVersion.mk.injEq]
  refine ⟨?_, ?_, ?_⟩ <;> apply UInt8.toNat_inj.mp <;> simp only [UInt8.toNat_ofNat'] <;> omega

/-- One more entry is taken over exactly if it is well sized, and then it counts for its tag. -/
theorem put_told_eq_ok_iff :
    put (told ts) t = .ok c ↔ t.WellSized ∧ c = told (ts ++ [t]) := by
  unfold put
  -- Five tags have a value of one byte, and two have one of four.
  iterate 5
    split
    · next htag =>
      rw [map_byteOf_eq_ok_iff, wellSized_iff htag rfl]
      simp +decide [told, lastValue?_concat, htag]
  iterate 2
    split
    · next htag =>
      rw [map_wordOf_eq_ok_iff, wellSized_iff htag rfl]
      simp +decide [told, lastValue?_concat, htag, ofPacked_word32]
  next hchip hbits hraw hrx htx hextended hfirmware =>
  have hunknown : Tag.size? t.tag = Option.none := by
    by_contra hknown
    simpa [hchip, hbits, hraw, hrx, htx, hextended, hfirmware] using Tag.mem_of_size? hknown
  have hsized : t.WellSized := by simp [WellSized, hunknown]
  have hsame : told (ts ++ [t]) = told ts := by
    simp [told, lastValue?_concat, hchip, hbits, hraw, hrx, htx, hextended, hfirmware]
  simp [hsized, hsame, eq_comm]

theorem putAll_concat {c' : Capabilities} : putAll c (ts ++ [t]) = .ok c' ↔
    ∃ m, putAll c ts = .ok m ∧ put m t = .ok c' := by
  induction ts generalizing c with
  | nil =>
    simp only [List.nil_append, putAll, Except.ok.injEq, exists_eq_left']
    cases put c t <;> simp
  | cons u ts ih =>
    simp only [List.cons_append, putAll]
    cases put c u with
    | error e => simp
    | ok m => exact ih

/-- All entries are taken over exactly if they are well sized, and of each tag the last one counts.
The induction is from the end of the list: the entry that is taken over last prevails. -/
theorem putAll_eq_ok_iff :
    putAll none ts = .ok c ↔ (∀ t ∈ ts, t.WellSized) ∧ c = told ts := by
  induction ts using List.reverseRecOn generalizing c with
  | nil => simp [putAll, told, none, lastValue?, Bytes.byteAt, eq_comm]
  | append_singleton ts t ih =>
    rw [putAll_concat, List.forall_mem_append, List.forall_mem_singleton]
    constructor
    · rintro ⟨m, hbefore, hput⟩
      obtain ⟨hsized, rfl⟩ := ih.mp hbefore
      obtain ⟨ht, rfl⟩ := put_told_eq_ok_iff.mp hput
      exact ⟨⟨hsized, ht⟩, rfl⟩
    · rintro ⟨⟨hsized, ht⟩, rfl⟩
      exact ⟨told ts, ih.mpr ⟨hsized, rfl⟩, put_told_eq_ok_iff.mpr ⟨ht, rfl⟩⟩

/-- The byte string is a startup event with these entries, and perhaps other bytes behind it. -/
def Carries (data : Bytes) (ts : List Tlv) : Prop :=
  ∃ (length : UInt8) (rest : Bytes), data = 0x22 :: length :: rest ∧
    length.toNat ≤ rest.length ∧ Lists ts (rest.take length.toNat)

theorem Carries.unique (h : Carries data ts) (h' : Carries data ts') : ts = ts' := by
  obtain ⟨length, rest, rfl, -, hlists⟩ := h
  obtain ⟨length', rest', heq, -, hlists'⟩ := h'
  simp only [List.cons.injEq, true_and] at heq
  obtain ⟨rfl, rfl⟩ := heq
  exact (Prod.mk.inj ((lists_iff.mp hlists).symm.trans (lists_iff.mp hlists'))).1

theorem not_ne_initEvent : ¬ (0x22 : UInt8) ≠ initEvent := by decide

/-- What stands behind the event makes no difference. -/
theorem ofEvent_take {length : UInt8} {rest : Bytes} (hroom : length.toNat ≤ rest.length) :
    ofEvent (0x22 :: length :: rest) = ofEvent (0x22 :: length :: rest.take length.toNat) := by
  have hwhole : length.toNat ≤ (rest.take length.toNat).length :=
    Nat.le_of_eq (List.length_take_of_le hroom).symm
  rw [ofEvent, ofEvent, if_neg not_ne_initEvent, if_neg not_ne_initEvent,
    if_neg (Nat.not_lt.mpr hroom), if_neg (Nat.not_lt.mpr hwhole), List.take_take, Nat.min_self]

theorem ofEvent_of_room {length : UInt8} {rest : Bytes} (hroom : length.toNat ≤ rest.length) :
    ofEvent (0x22 :: length :: rest) = .ok c ↔
      ∃ ts, split (rest.take length.toNat) = (ts, []) ∧ putAll none ts = .ok c := by
  rw [ofEvent, if_neg not_ne_initEvent, if_neg (Nat.not_lt.mpr hroom)]
  rcases split (rest.take length.toNat) with ⟨entries, tail⟩
  cases hput : putAll none entries with
  | error e => simp +contextual [hput]
  | ok told => cases tail <;> simp [hput]

theorem ofEvent_eq_ok_iff : ofEvent data = .ok c ↔
    ∃ ts, Carries data ts ∧ (∀ t ∈ ts, t.WellSized) ∧ c = told ts := by
  simp only [← putAll_eq_ok_iff]
  constructor
  · intro hok
    match data with
    | [] => simp [ofEvent] at hok
    | [_] => simp [ofEvent] at hok
    | type :: length :: rest =>
      have htype : type = 0x22 := by
        by_contra hother
        simp [ofEvent, initEvent, hother] at hok
      have hroom : length.toNat ≤ rest.length := by
        by_contra hshort
        simp [ofEvent, initEvent, htype, Nat.not_le.mp hshort] at hok
      subst htype
      obtain ⟨ts, hsplit, hput⟩ := (ofEvent_of_room hroom).mp hok
      exact ⟨ts, ⟨length, rest, rfl, hroom, lists_iff.mpr hsplit⟩, hput⟩
  · rintro ⟨ts, ⟨length, rest, rfl, hroom, hlists⟩, hput⟩
    exact (ofEvent_of_room hroom).mpr ⟨ts, lists_iff.mp hlists, hput⟩

theorem lastValue?_of_alike {tag : UInt8} (h : Alike ts ts')
    (hknown : Tag.size? tag ≠ Option.none) : lastValue? tag ts = lastValue? tag ts' := by
  rw [lastValue?, lastValue?, h tag hknown]

theorem told_of_alike (h : Alike ts ts') : told ts = told ts' := by
  have hlast (tag : UInt8) (hknown : Tag.size? tag ≠ Option.none) :=
    lastValue?_of_alike h hknown
  simp only [told, hlast Tag.chipId (by decide), hlast Tag.capability (by decide),
    hlast Tag.rawThroughput (by decide), hlast Tag.rxQueueSize (by decide),
    hlast Tag.txQueueSize (by decide), hlast Tag.extended (by decide),
    hlast Tag.firmware (by decide)]

theorem wellSized_of_alike (h : Alike ts ts') (hsized : ∀ t ∈ ts, t.WellSized) :
    ∀ t ∈ ts', t.WellSized := by
  intro t ht n hn
  have hmem : t ∈ ts'.filter (·.tag = t.tag) := List.mem_filter.mpr ⟨ht, by simp⟩
  rw [← h t.tag (by simp [hn])] at hmem
  exact hsized t (List.mem_filter.mp hmem).1 n hn

/-- An event is read the same if its entries are rearranged, as long as those of each known tag stay
in order. -/
theorem ofEvent_of_alike {data' : Bytes} (hdata : Carries data ts) (hdata' : Carries data' ts')
    (h : Alike ts ts') (hok : ofEvent data = .ok c) : ofEvent data' = .ok c := by
  obtain ⟨us, hus, hsized, rfl⟩ := ofEvent_eq_ok_iff.mp hok
  obtain rfl := hus.unique hdata
  exact ofEvent_eq_ok_iff.mpr ⟨ts', hdata', wellSized_of_alike h hsized, told_of_alike h⟩

/-- A byte string is accepted exactly if it is a startup event whose entries with known tags are of
the right length, and the last entry of each tag is what it tells. Bytes behind the event, entries
with unknown tags and the order of different tags make no difference. -/
theorem event_accepted_iff (data : Bytes) :
    (∀ c, ofEvent data = .ok c ↔
      ∃ ts, Carries data ts ∧ (∀ t ∈ ts, t.WellSized) ∧ c = told ts) ∧
      (∀ length rest, data = 0x22 :: length :: rest → length.toNat ≤ rest.length →
        ofEvent data = ofEvent (0x22 :: length :: rest.take length.toNat)) ∧
      ∀ data' ts ts', Carries data ts → Carries data' ts' → Alike ts ts' →
        ∀ c, ofEvent data = .ok c ↔ ofEvent data' = .ok c := by
  refine ⟨fun _ => ofEvent_eq_ok_iff, ?_, fun data' ts ts' hdata hdata' h c => ?_⟩
  · rintro length rest rfl hroom
    exact ofEvent_take hroom
  · exact ⟨ofEvent_of_alike hdata hdata' h, ofEvent_of_alike hdata' hdata h.symm⟩

/-- An unknown tag in front, a byte behind the event, and two tags that change places. -/
theorem event_accepted_iff_small :
    let data : Bytes := [0x22, 9, 0x7F, 1, 0xAA, 0x12, 1, 5, 0x11, 1, 0xE8, 0xFF]
    let data' : Bytes := [0x22, 6, 0x11, 1, 0xE8, 0x12, 1, 5]
    ofEvent data = .ok { none with chipId := 5, bits := 0xE8 } ∧
      ofEvent data = ofEvent (data.take 11) ∧
      ofEvent data' = .ok { none with chipId := 5, bits := 0xE8 } := by
  intro data data'
  obtain ⟨hread, hcut, halike⟩ := event_accepted_iff data
  have hdata : Carries data [⟨0x7F, [0xAA]⟩, ⟨0x12, [5]⟩, ⟨0x11, [0xE8]⟩] :=
    ⟨9, _, rfl, by decide, .cons 0x7F 1 [0xAA] rfl
      (.cons 0x12 1 [5] rfl (.cons 0x11 1 [0xE8] rfl .nil))⟩
  have hdata' : Carries data' [⟨0x11, [0xE8]⟩, ⟨0x12, [5]⟩] :=
    ⟨6, _, rfl, by decide, .cons 0x11 1 [0xE8] rfl (.cons 0x12 1 [5] rfl .nil)⟩
  have hsame :
      Alike [⟨0x7F, [0xAA]⟩, ⟨0x12, [5]⟩, ⟨0x11, [0xE8]⟩] [⟨0x11, [0xE8]⟩, ⟨0x12, [5]⟩] :=
    (alike_of_unknown [] _ rfl).trans (alike_of_swap [] [] (by decide))
  have hok : ofEvent data = .ok { none with chipId := 5, bits := 0xE8 } :=
    (hread _).mpr ⟨_, hdata, by simp +decide [WellSized, Tag.size?], by decide⟩
  exact ⟨hok, hcut 9 _ rfl (by decide), (halike data' _ _ hdata hdata' hsame _).mp hok⟩

end Capabilities
end SlaveLink
