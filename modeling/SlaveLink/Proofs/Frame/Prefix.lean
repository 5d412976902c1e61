import SlaveLink.Frame.Codec
import SlaveLink.Memory.Basic

/-! # How far a block is read
Twelve bytes say how many bytes of a block decide what is made of it. What follows those bytes, such
as what the block held before, makes no difference. -/

namespace SlaveLink

namespace Bytes

theorem byteAt_append {data : Bytes} {i : Nat} (h : i < data.length) (rest : Bytes) :
    (data ++ rest).byteAt i = data.byteAt i := by
  simp only [byteAt, List.getD_eq_getElem?_getD, List.getElem?_append_left h]

theorem word16At_append {data : Bytes} {i : Nat} (h : i + 1 < data.length) (rest : Bytes) :
    (data ++ rest).word16At i = data.word16At i := by
  have hlow : i < data.length := by omega
  simp only [word16At, byteAt_append hlow, byteAt_append h]

theorem overwrite_of_full {data block : Bytes} {n : Nat} (more : Bytes)
    (h : min n block.length ≤ data.length) :
    overwrite ((data ++ more).take n) block = overwrite (data.take n) block := by
  by_cases hn : n ≤ data.length
  · rw [List.take_append_of_le_length hn]
  · have hblock : block.length ≤ data.length := by omega
    have hshort : data.take n = data := List.take_of_length_le (by omega)
    have hlong : ((data ++ more).take n).length = min n (data.length + more.length) := by simp
    have hdrop : block.drop ((data ++ more).take n).length = [] :=
      List.drop_of_length_le (by omega)
    have hdrop' : block.drop data.length = [] := List.drop_of_length_le hblock
    have hcut : min block.length n ≤ data.length := by omega
    rw [overwrite, overwrite, hshort, hdrop, hdrop', List.take_take,
      List.take_append_of_le_length hcut, Nat.min_eq_left (by omega)]

/-- A transfer that ends early leaves the rest of the block as it was. -/
theorem overwrite_of_short {data block : Bytes} {n : Nat} (hn : data.length ≤ n)
    (h : data.length ≤ block.length) :
    overwrite (data.take n) block = data ++ block.drop data.length := by
  rw [overwrite, List.take_of_length_le hn, List.take_of_length_le h]

/-- More bytes change the block behind the first ones only. -/
theorem overwrite_extended {data block : Bytes} {n : Nat} (more : Bytes) (hn : data.length ≤ n)
    (h : data.length ≤ block.length) :
    ∃ rest, rest.length = (block.drop data.length).length ∧
      overwrite ((data ++ more).take n) block = data ++ rest := by
  have hlong : (data ++ more).take n = data ++ more.take (n - data.length) := by
    rw [List.take_append, List.take_of_length_le hn]
  have hcut : (data ++ more.take (n - data.length)).take block.length =
      data ++ (more.take (n - data.length)).take (block.length - data.length) := by
    rw [List.take_append, List.take_of_length_le h]
  refine ⟨_, ?_, by rw [overwrite, hlong, hcut, List.append_assoc]⟩
  simp only [List.length_append, List.length_take, List.length_drop]
  omega

end Bytes

theorem peekFlags_append {data : Bytes} (h : 1 < data.length) (rest : Bytes) :
    peekFlags (data ++ rest) = peekFlags data := by
  rw [peekFlags, peekFlags, Bytes.byteAt_append h]

namespace Header

def codeIn (src : Bytes) : UInt8 := UInt8.ofNat ((src.byteAt 0).toNat % 16)

def startIn (src : Bytes) : Nat := (src.word16At 4).toNat

def endIn (src : Bytes) : Nat := startIn src + (src.word16At 2).toNat

theorem codeIn_append {data : Bytes} (h : 0 < data.length) (rest : Bytes) :
    codeIn (data ++ rest) = codeIn data := by
  rw [codeIn, codeIn, Bytes.byteAt_append h]

theorem startIn_append {data : Bytes} (h : 5 < data.length) (rest : Bytes) :
    startIn (data ++ rest) = startIn data := by
  rw [startIn, startIn, Bytes.word16At_append h]

theorem endIn_append {data : Bytes} (h : 5 < data.length) (rest : Bytes) :
    endIn (data ++ rest) = endIn data := by
  have hlength : 3 < data.length := by omega
  rw [endIn, endIn, startIn_append h, Bytes.word16At_append hlength]

theorem parse_of_unknown {src : Bytes} (hlong : ¬ src.length < headerSize)
    (hcode : Interface.ofCode? (codeIn src) = none) :
    parse src = .error (.unknownInterface (codeIn src)) := by
  rw [codeIn] at hcode
  rw [parse, if_neg hlong]
  simp only [hcode]
  rfl

theorem parse_of_known {src : Bytes} {i : Interface} (hlong : ¬ src.length < headerSize)
    (hcode : Interface.ofCode? (codeIn src) = some i) :
    ∃ h, parse src = .ok h ∧ h.interface = i ∧ h.length = src.word16At 2 ∧
      h.payloadStart = startIn src ∧ h.payloadEnd = endIn src := by
  rw [codeIn] at hcode
  rw [parse, if_neg hlong]
  simp only [hcode]
  exact ⟨_, rfl, rfl, rfl, rfl, rfl⟩

theorem parse_append {data : Bytes} (h : headerSize ≤ data.length) (rest : Bytes) :
    parse (data ++ rest) = parse data := by
  have hlong : ¬ (data ++ rest).length < headerSize := by
    rw [List.length_append]
    omega
  have hbyte (i : Nat) (hi : i < 12) : (data ++ rest).byteAt i = data.byteAt i :=
    Bytes.byteAt_append (Nat.lt_of_lt_of_le hi h) rest
  have hword (i : Nat) (hi : i + 1 < 12) : (data ++ rest).word16At i = data.word16At i :=
    Bytes.word16At_append (Nat.lt_of_lt_of_le hi h) rest
  rw [parse, parse, if_neg hlong, if_neg (by omega)]
  simp only [hbyte 0 (by omega), hbyte 1 (by omega), hword 2 (by omega), hword 4 (by omega),
    hword 6 (by omega), hword 8 (by omega), hbyte 10 (by omega), hbyte 11 (by omega)]

theorem payloadOf_append {h : Header} {data : Bytes} (hend : h.payloadEnd ≤ data.length)
    (rest : Bytes) : h.payloadOf (data ++ rest) = h.payloadOf data := by
  rw [payloadEnd] at hend
  have hstart : h.payloadStart ≤ data.length := by rw [payloadStart]; omega
  have hlength : h.length.toNat ≤ (data.drop h.payloadStart).length := by
    rw [List.length_drop, payloadStart]
    omega
  rw [payloadOf, payloadOf, List.drop_append_of_le_length hstart,
    List.take_append_of_le_length hlength]

end Header

theorem decodeHeader_eq_ok {c : FrameConfig} {src : Bytes} {h : Header}
    (hok : decodeHeader c src = .ok h) :
    headerSize ≤ src.length ∧ src.word16At 2 ≠ 0 ∧ Header.parse src = .ok h ∧
      ¬ h.payloadStart < headerSize ∧ h.payloadEnd ≤ min src.length c.bufferSize ∧
      h.interface.carriesData = true := by
  unfold decodeHeader at hok
  split at hok
  · simp at hok
  · next hlong =>
    split at hok
    · simp at hok
    · next hnonzero =>
      cases hparse : Header.parse src with
      | error e => simp [hparse] at hok
      | ok h' =>
        simp only [hparse] at hok
        split at hok
        · simp at hok
        · next hinside =>
          split at hok
          · simp at hok
          · next hdata =>
            split at hok
            · simp at hok
            · rw [Except.ok.injEq] at hok
              subst hok
              exact ⟨by omega, hnonzero, rfl, fun hearly => hinside (.inl hearly),
                Nat.not_lt.mp fun hlate => hinside (.inr hlate), by simpa using hdata⟩

section

variable {c : FrameConfig} {src : Bytes} {i : Interface}

theorem decodeHeader_of_dummy (hlong : ¬ src.length < headerSize) (hdummy : src.word16At 2 = 0) :
    decodeHeader c src = .error .dummyFrame := by
  rw [decodeHeader, if_neg hlong, if_pos hdummy]

theorem decodeHeader_of_unknown (hlong : ¬ src.length < headerSize)
    (hnonzero : ¬ src.word16At 2 = 0) (hcode : Interface.ofCode? (Header.codeIn src) = none) :
    decodeHeader c src = .error (.unknownInterface (Header.codeIn src)) := by
  rw [decodeHeader, if_neg hlong, if_neg hnonzero, Header.parse_of_unknown hlong hcode]

theorem decodeHeader_of_outside (hlong : ¬ src.length < headerSize)
    (hnonzero : ¬ src.word16At 2 = 0) (hcode : Interface.ofCode? (Header.codeIn src) = some i)
    (houtside : Header.startIn src < headerSize ∨
      min src.length c.bufferSize < Header.endIn src) :
    decodeHeader c src = .error (.malformed (src.word16At 2).toNat (Header.startIn src)
      (min src.length c.bufferSize)) := by
  obtain ⟨h, hparse, _, hlength, hstart, hend⟩ := Header.parse_of_known hlong hcode
  rw [decodeHeader, if_neg hlong, if_neg hnonzero, hparse]
  simp only [hlength, hstart, hend, if_pos houtside]

theorem decodeHeader_of_dataless (hlong : ¬ src.length < headerSize)
    (hnonzero : ¬ src.word16At 2 = 0) (hcode : Interface.ofCode? (Header.codeIn src) = some i)
    (hinside : ¬ (Header.startIn src < headerSize ∨
      min src.length c.bufferSize < Header.endIn src)) (hdata : i.carriesData = false) :
    decodeHeader c src = .error (.unknownInterface i.code) := by
  obtain ⟨h, hparse, hinterface, _, hstart, hend⟩ := Header.parse_of_known hlong hcode
  rw [decodeHeader, if_neg hlong, if_neg hnonzero, hparse]
  simp only [hinterface, hstart, hend, if_neg hinside, hdata]
  rfl

/-- A whole frame is read in the same way wherever it stands in front. -/
theorem decodeHeader_of_whole {data x y : Bytes} (hlength : (data ++ x).length = (data ++ y).length)
    (hstart : ¬ Header.startIn data < headerSize) (hend : Header.endIn data ≤ data.length) :
    decodeHeader c (data ++ x) = decodeHeader c (data ++ y) := by
  have hheader : headerSize ≤ data.length := by
    rw [Header.endIn] at hend
    omega
  have hword (rest : Bytes) : (data ++ rest).word16At 2 = data.word16At 2 :=
    Bytes.word16At_append (Nat.lt_of_lt_of_le (by decide) hheader) rest
  unfold decodeHeader
  rw [hlength, hword, hword, Header.parse_append hheader, Header.parse_append hheader]
  cases hcode : Interface.ofCode? (Header.codeIn data) with
  | none => rw [Header.parse_of_unknown (Nat.not_lt.mpr hheader) hcode]
  | some i =>
    obtain ⟨h, hparse, _, _, _, hpayload⟩ := Header.parse_of_known (Nat.not_lt.mpr hheader) hcode
    have hcut : h.payloadEnd ≤ data.length := hpayload ▸ hend
    simp only [hparse]
    rw [List.take_append_of_le_length hcut, List.take_append_of_le_length hcut]

end

namespace FrameConfig

variable {c : FrameConfig} {data : Bytes} {i : Interface}

/-- How many bytes of a block that starts with `data` decide what is made of it: those up to the
first that fails a check of the header, or else the whole frame. -/
def extent (c : FrameConfig) (data : Bytes) : Nat :=
  if data.word16At 2 = 0 then 4
  else
    match Interface.ofCode? (Header.codeIn data) with
    | none => 4
    | some i =>
      if Header.startIn data < headerSize ∨ c.bufferSize < Header.endIn data ∨
          i.carriesData = false
      then 6 else Header.endIn data

def Covered (c : FrameConfig) (data : Bytes) : Prop := c.extent data ≤ data.length

instance (c : FrameConfig) (data : Bytes) : Decidable (c.Covered data) :=
  inferInstanceAs (Decidable (_ ≤ _))

theorem six_le_extent (hnonzero : ¬ data.word16At 2 = 0)
    (hcode : Interface.ofCode? (Header.codeIn data) = some i) : 6 ≤ c.extent data := by
  rw [extent, if_neg hnonzero, hcode]
  simp only
  split
  · exact Nat.le_refl 6
  · next hchecked =>
    have hstart : ¬ Header.startIn data < headerSize := fun hearly => hchecked (.inl hearly)
    simp only [Header.endIn, headerSize] at hstart ⊢
    omega

theorem four_le_extent (c : FrameConfig) (data : Bytes) : 4 ≤ c.extent data := by
  by_cases hdummy : data.word16At 2 = 0
  · simp [extent, hdummy]
  · cases hcode : Interface.ofCode? (Header.codeIn data) with
    | none => simp [extent, hdummy, hcode]
    | some i => exact Nat.le_trans (by omega) (six_le_extent hdummy hcode)

theorem extent_of_inside (hnonzero : ¬ data.word16At 2 = 0)
    (hcode : Interface.ofCode? (Header.codeIn data) = some i)
    (hstart : ¬ Header.startIn data < headerSize) (hend : ¬ c.bufferSize < Header.endIn data)
    (hdata : i.carriesData = true) : c.extent data = Header.endIn data := by
  rw [extent, if_neg hnonzero, hcode]
  simp [hstart, hend, hdata]

/-- A whole buffer is always enough. -/
theorem covered_of_full (hheader : headerSize < c.bufferSize) (hfull : c.bufferSize ≤ data.length) :
    c.Covered data := by
  have hlong : 12 < data.length := Nat.lt_of_lt_of_le hheader hfull
  unfold Covered extent
  split
  · omega
  · split
    · omega
    · split
      · omega
      · next hchecked =>
        have hinside : ¬ c.bufferSize < Header.endIn data :=
          fun hlate => hchecked (.inr (.inl hlate))
        omega

theorem Covered.four_le (h : c.Covered data) : 4 ≤ data.length :=
  Nat.le_trans (four_le_extent c data) h

/-- A frame that is accepted from a block that starts with the covered bytes lies within them. -/
theorem Covered.of_ok {h : Header} {rest : Bytes} (hcovered : c.Covered data)
    (hok : decodeHeader c (data ++ rest) = .ok h) :
    Header.parse data = .ok h ∧ h.payloadEnd ≤ data.length := by
  have hfour := hcovered.four_le
  obtain ⟨hlong, hnonzero, hparse, hstart, hend, hdata⟩ := decodeHeader_eq_ok hok
  have hword : (data ++ rest).word16At 2 = data.word16At 2 := Bytes.word16At_append hfour rest
  have hcodeIn : Header.codeIn (data ++ rest) = Header.codeIn data :=
    Header.codeIn_append (by omega) rest
  rw [hword] at hnonzero
  cases hcode : Interface.ofCode? (Header.codeIn data) with
  | none =>
    rw [← hcodeIn] at hcode
    rw [Header.parse_of_unknown (Nat.not_lt.mpr hlong) hcode] at hparse
    cases hparse
  | some i =>
    have hsix : 6 ≤ data.length := Nat.le_trans (six_le_extent hnonzero hcode) hcovered
    rw [← hcodeIn] at hcode
    obtain ⟨h', hparse', hinterface, _, hstart', hend'⟩ :=
      Header.parse_of_known (Nat.not_lt.mpr hlong) hcode
    rw [hparse, Except.ok.injEq] at hparse'
    subst hparse'
    rw [hcodeIn] at hcode
    rw [Header.startIn_append hsix] at hstart'
    rw [Header.endIn_append hsix] at hend'
    have hextent := extent_of_inside (c := c) hnonzero hcode (hstart' ▸ hstart)
      (hend' ▸ (by omega)) (hinterface ▸ hdata)
    have hinside : h.payloadEnd ≤ data.length := by
      rw [hend', ← hextent]
      exact hcovered
    have hheader : headerSize ≤ data.length := by
      simp only [Header.payloadStart, Header.payloadEnd] at hstart hinside
      omega
    rw [Header.parse_append hheader] at hparse
    exact ⟨hparse, hinside⟩

/-- What is made of a block depends on the covered bytes and on the length of the block. -/
theorem Covered.decodeHeader_append (hcovered : c.Covered data) {x y : Bytes}
    (hlength : x.length = y.length) :
    decodeHeader c (data ++ x) = decodeHeader c (data ++ y) := by
  have hfour := hcovered.four_le
  have hsame : (data ++ x).length = (data ++ y).length := by simp [hlength]
  have hword (rest : Bytes) : (data ++ rest).word16At 2 = data.word16At 2 :=
    Bytes.word16At_append hfour rest
  have hcodeIn (rest : Bytes) : Header.codeIn (data ++ rest) = Header.codeIn data :=
    Header.codeIn_append (by omega) rest
  by_cases hshort : (data ++ y).length < headerSize
  · rw [decodeHeader, decodeHeader, hsame, if_pos hshort, if_pos hshort]
  by_cases hdummy : data.word16At 2 = 0
  · rw [decodeHeader_of_dummy (hsame ▸ hshort) ((hword x).trans hdummy),
      decodeHeader_of_dummy hshort ((hword y).trans hdummy)]
  have hnonzero (rest : Bytes) : ¬ (data ++ rest).word16At 2 = 0 := by rwa [hword]
  cases hcode : Interface.ofCode? (Header.codeIn data) with
  | none =>
    have hunknown (rest : Bytes) : Interface.ofCode? (Header.codeIn (data ++ rest)) = none := by
      rw [hcodeIn, hcode]
    rw [decodeHeader_of_unknown (hsame ▸ hshort) (hnonzero x) (hunknown x),
      decodeHeader_of_unknown hshort (hnonzero y) (hunknown y), hcodeIn, hcodeIn]
  | some i =>
    have hsix : 6 ≤ data.length := Nat.le_trans (six_le_extent hdummy hcode) hcovered
    have hknown (rest : Bytes) : Interface.ofCode? (Header.codeIn (data ++ rest)) = some i := by
      rw [hcodeIn, hcode]
    have hstartIn (rest : Bytes) := Header.startIn_append hsix rest
    have hendIn (rest : Bytes) := Header.endIn_append hsix rest
    by_cases houtside : Header.startIn data < headerSize ∨
        min (data ++ y).length c.bufferSize < Header.endIn data
    · rw [decodeHeader_of_outside (hsame ▸ hshort) (hnonzero x) (hknown x)
          (by rwa [hstartIn, hendIn, hsame]),
        decodeHeader_of_outside hshort (hnonzero y) (hknown y) (by rwa [hstartIn, hendIn])]
      rw [hword, hword, hstartIn, hstartIn, hsame]
    · cases hdata : i.carriesData with
      | false =>
        rw [decodeHeader_of_dataless (hsame ▸ hshort) (hnonzero x) (hknown x)
            (by rwa [hstartIn, hendIn, hsame]) hdata,
          decodeHeader_of_dataless hshort (hnonzero y) (hknown y) (by rwa [hstartIn, hendIn]) hdata]
      | true =>
        have hextent := extent_of_inside (c := c) hdummy hcode
          (fun hearly => houtside (.inl hearly))
          (fun hlate => houtside (.inr (Nat.lt_of_le_of_lt (Nat.min_le_right _ _) hlate))) hdata
        exact decodeHeader_of_whole hsame (fun hearly => houtside (.inl hearly))
          (Nat.le_trans (Nat.le_of_eq hextent.symm) hcovered)

/-- Two blocks of which the slave makes the same. -/
structure Agree (c : FrameConfig) (b₁ b₂ : Bytes) : Prop where
  flags : peekFlags b₁ = peekFlags b₂
  header : decodeHeader c b₁ = decodeHeader c b₂
  payload : ∀ h, decodeHeader c b₁ = .ok h → h.payloadOf b₁ = h.payloadOf b₂

theorem agree_refl (c : FrameConfig) (b : Bytes) : c.Agree b b := ⟨rfl, rfl, fun _ _ => rfl⟩

theorem Covered.agree_append (h : c.Covered data) {x y : Bytes} (hlength : x.length = y.length) :
    c.Agree (data ++ x) (data ++ y) where
  flags := by
    have hflags : 1 < data.length := Nat.le_trans (by omega) h.four_le
    rw [peekFlags_append hflags, peekFlags_append hflags]
  header := h.decodeHeader_append hlength
  payload := by
    intro header hok
    obtain ⟨_, hend⟩ := h.of_ok hok
    rw [Header.payloadOf_append hend, Header.payloadOf_append hend]

/-- Once the covered bytes are in a block, more bytes change nothing that matters. -/
theorem Covered.agree_overwrite (h : c.Covered data) (n : Nat) (block more : Bytes) :
    c.Agree (Bytes.overwrite (data.take n) block)
      (Bytes.overwrite ((data ++ more).take n) block) := by
  by_cases hfull : min n block.length ≤ data.length
  · rw [Bytes.overwrite_of_full more hfull]
    exact agree_refl c _
  · have hn : data.length ≤ n := by omega
    have hblock : data.length ≤ block.length := by omega
    obtain ⟨rest, hlength, hrest⟩ := Bytes.overwrite_extended more hn hblock
    rw [Bytes.overwrite_of_short hn hblock, hrest]
    exact h.agree_append hlength.symm

theorem Covered.decode_overwrite {h : Header} {n : Nat} {block : Bytes}
    (hcovered : c.Covered data) (hn : block.length ≤ n)
    (hok : decodeHeader c (Bytes.overwrite (data.take n) block) = .ok h) :
    Header.parse data = .ok h ∧ h.payloadEnd ≤ data.length ∧
      h.payloadOf (Bytes.overwrite (data.take n) block) = h.payloadOf data := by
  -- A full transfer leaves nothing of the block, a short one its old end.
  by_cases hfull : block.length ≤ data.length
  · have hcut : Bytes.overwrite (data.take n) block = data.take block.length := by
      have hdrop : block.drop (data.take n).length = [] := by
        rw [List.length_take]
        exact List.drop_of_length_le (by omega)
      rw [Bytes.overwrite, hdrop, List.append_nil, List.take_take, Nat.min_eq_left hn]
    rw [hcut] at hok ⊢
    obtain ⟨hlong, _, hparse, _, hend, _⟩ := decodeHeader_eq_ok hok
    have hinside : h.payloadEnd ≤ (data.take block.length).length := by omega
    have hsplit : data = data.take block.length ++ data.drop block.length :=
      (List.take_append_drop _ _).symm
    have hdata := Header.parse_append hlong (data.drop block.length)
    have hpayload := Header.payloadOf_append hinside (data.drop block.length)
    rw [← hsplit] at hdata hpayload
    rw [List.length_take] at hinside
    exact ⟨hdata.trans hparse, by omega, hpayload.symm⟩
  · have hblock : data.length ≤ block.length := by omega
    rw [Bytes.overwrite_of_short (Nat.le_trans hblock hn) hblock] at hok ⊢
    obtain ⟨hparse, hend⟩ := hcovered.of_ok hok
    exact ⟨hparse, hend, Header.payloadOf_append hend _⟩

end FrameConfig
end SlaveLink
