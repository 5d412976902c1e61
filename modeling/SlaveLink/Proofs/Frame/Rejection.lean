import SlaveLink.Proofs.Frame.Acceptance

/-! # Why a buffer is refused
A damaged buffer is at fault in several ways as a rule, and the error names one of them: that of the
first check that it does not pass. On the wire the extent of the payload comes before the interface.
A code that names no interface is found earlier, while the header is parsed, and hides an extent
that does not fit. In all other respects the checks are made in the order of the wire. -/

namespace SlaveLink

structure Check (ε : Type) where
  passed : Bool
  error : ε

def firstFault? {ε : Type} : List (Check ε) → Option ε
  | [] => none
  | k :: ks => if k.passed then firstFault? ks else some k.error

section

variable {ε : Type} {k : Check ε} {ks : List (Check ε)} {e : ε}

theorem firstFault?_of_passed (h : k.passed = true) : firstFault? (k :: ks) = firstFault? ks := by
  simp [firstFault?, h]

theorem firstFault?_of_failed (h : k.passed = false) : firstFault? (k :: ks) = some k.error := by
  simp [firstFault?, h]

theorem firstFault?_cons_eq_some : firstFault? (k :: ks) = some e ↔
    k.passed = false ∧ k.error = e ∨ k.passed = true ∧ firstFault? ks = some e := by
  cases h : k.passed <;> simp [firstFault?, h]

theorem exists_of_firstFault? (h : firstFault? ks = some e) :
    ∃ k ∈ ks, k.passed = false ∧ k.error = e := by
  induction ks with
  | nil => cases h
  | cons k ks ih =>
    obtain ⟨hfailed, herror⟩ | ⟨-, hlater⟩ := firstFault?_cons_eq_some.mp h
    · exact ⟨k, List.mem_cons_self .., hfailed, herror⟩
    · obtain ⟨k', hk', hfault⟩ := ih hlater
      exact ⟨k', List.mem_cons_of_mem _ hk', hfault⟩

theorem firstFault?_eq_none_iff : firstFault? ks = none ↔ ∀ k ∈ ks, k.passed = true := by
  induction ks with
  | nil => simp [firstFault?]
  | cons k ks ih => cases h : k.passed <;> simp [firstFault?, h, ih]

/-- What reports the first fault, and succeeds if there is none, fails for no other reason. -/
theorem error_iff_of_firstFault? {α : Type} {r : Except ε α}
    (hnone : firstFault? ks = none → ∃ a, r = .ok a)
    (hsome : ∀ e, firstFault? ks = some e → r = .error e) :
    r = .error e ↔ firstFault? ks = some e := by
  refine ⟨fun herror => ?_, hsome e⟩
  cases hfault : firstFault? ks with
  | none =>
    obtain ⟨a, hok⟩ := hnone hfault
    rw [herror] at hok
    cases hok
  | some e' =>
    have hreported := hsome e' hfault
    rw [herror] at hreported
    rw [Except.error.inj hreported]

end

open Header Bytes

/-! ## The checks of a reader -/

namespace Reading

variable (c : FrameConfig) (src : Bytes)

def room : Check FrameError := ⟨decide (headerSize ≤ src.length), .bufferTooSmall src.length⟩

def length : Check FrameError := ⟨decide (src.numberAt 2 ≠ 0), .dummyFrame⟩

def name : Check FrameError :=
  ⟨decide ((src.byteAt 0).toNat % 16 ≤ 8), .unknownInterface (codeIn src)⟩

def extent : Check FrameError :=
  ⟨decide (headerSize ≤ src.numberAt 4 ∧
      src.numberAt 4 + src.numberAt 2 ≤ min src.length c.bufferSize),
    .malformed (src.numberAt 2) (src.numberAt 4) (min src.length c.bufferSize)⟩

def data : Check FrameError :=
  ⟨decide (1 ≤ (src.byteAt 0).toNat % 16 ∧ (src.byteAt 0).toNat % 16 ≤ 7),
    .unknownInterface (codeIn src)⟩

def checksum : Check FrameError :=
  ⟨!c.checksum ||
      decide (sumAround (src.numberAt 4 + src.numberAt 2) src % 65536 = src.numberAt 6),
    .checksumMismatch (UInt16.ofNat (src.numberAt 6))
      (UInt16.ofNat (sumAround (src.numberAt 4 + src.numberAt 2) src))⟩

/-- In the order in which they are made. -/
def checks : List (Check FrameError) :=
  [room src, length src, name src, extent c src, data src, checksum c src]

/-- In the order of the wire. A code that names no interface carries no data. -/
def wireChecks : List (Check FrameError) :=
  [room src, length src, extent c src, data src, checksum c src]

/-- The buffer holds a frame whose extent does not fit, for an interface that there is not. -/
structure Obscured : Prop where
  room : (room src).passed = true
  length : (length src).passed = true
  name : (name src).passed = false
  extent : (extent c src).passed = false

end Reading

open Reading

section

variable {c : FrameConfig} {src : Bytes} {h : Header} {e : FrameError}

theorem toNat_codeIn (src : Bytes) : (codeIn src).toNat = (src.byteAt 0).toNat % 16 := by
  rw [codeIn, UInt8.toNat_ofNat']
  omega

theorem length_passed : (length src).passed = true ↔ ¬ src.word16At 2 = 0 := by
  have hvalue : (src.word16At 2).toNat = src.numberAt 2 := toNat_word16At src 2
  simp only [Reading.length, decide_eq_true_eq, ← hvalue]
  exact not_congr ⟨fun h => UInt16.toNat_inj.mp h, fun h => by rw [h]; rfl⟩

/-- A code that names an interface is that of an interface. -/
theorem exists_of_named (hname : (name src).passed = true) :
    ∃ i, Interface.ofCode? (codeIn src) = some i ∧ i.code = codeIn src := by
  have hlow : (codeIn src).toNat < 9 := by
    rw [toNat_codeIn]
    simpa [Reading.name, Nat.lt_succ_iff] using hname
  obtain ⟨i, hi⟩ := Interface.exists_of_code_lt hlow
  exact ⟨i, hi, Interface.code_of_ofCode? hi⟩

theorem ofCode?_of_unnamed (hname : (name src).passed = false) :
    Interface.ofCode? (codeIn src) = none := by
  rw [Interface.ofCode?_eq_none_iff, toNat_codeIn]
  simpa [Reading.name] using hname

theorem startIn_eq (src : Bytes) : startIn src = src.numberAt 4 := toNat_word16At src 4

theorem endIn_eq (src : Bytes) : endIn src = src.numberAt 4 + src.numberAt 2 := by
  rw [endIn, startIn_eq]
  exact congrArg (src.numberAt 4 + ·) (toNat_word16At src 2)

theorem extent_passed : (extent c src).passed = true ↔
    ¬ (startIn src < headerSize ∨ min src.length c.bufferSize < endIn src) := by
  simp only [extent, decide_eq_true_eq, startIn_eq, endIn_eq, not_or, Nat.not_lt]

theorem carriesData_of_code {i : Interface} (hcode : i.code = codeIn src) :
    i.carriesData = (data src).passed := by
  rw [Bool.eq_iff_iff, Interface.carriesData_iff, hcode, toNat_codeIn]
  simp only [data, decide_eq_true_eq]

section

variable (hroom : (room src).passed = true) (hlength : (length src).passed = true)
  (hname : (name src).passed = true) (hextent : (extent c src).passed = true)
  (hdata : (data src).passed = true)
include hroom hlength hname hextent hdata

/-- A buffer that passes the other checks is read but for its checksum. -/
theorem decodeHeader_of_named : ∃ h, decodeHeader c src =
      if c.checksum ∧ frameChecksum (src.take (endIn src)) ≠ src.word16At 6 then
        .error (.checksumMismatch (src.word16At 6) (frameChecksum (src.take (endIn src))))
      else .ok h := by
  obtain ⟨i, hi, hcode⟩ := exists_of_named hname
  have hlong : ¬ src.length < headerSize := by simpa [room] using hroom
  obtain ⟨h, hparse, rfl, -, hstart, hend⟩ := parse_of_known hlong hi
  have hinside := extent_passed.mp hextent
  have hcarries := (carriesData_of_code hcode).trans hdata
  have hfield : h.checksum = src.word16At 6 := congrArg Header.checksum (parse_eq_ok hparse).2
  refine ⟨h, ?_⟩
  rw [decodeHeader, if_neg hlong, if_neg (length_passed.mp hlength), hparse]
  simp only [hstart, hend, if_neg hinside, hcarries, not_true_eq_false, if_false, hfield]

theorem decodeHeader_of_mismatch (hsum : (checksum c src).passed = false) :
    decodeHeader c src = .error (checksum c src).error := by
  obtain ⟨h, hread⟩ := decodeHeader_of_named hroom hlength hname hextent hdata
  simp only [extent, decide_eq_true_eq, ← endIn_eq, headerSize] at hextent
  have hfront : 8 ≤ endIn src := by
    rw [endIn_eq]
    omega
  have hcut : endIn src ≤ src.length := by omega
  have hfield : src.word16At 6 = UInt16.ofNat (src.numberAt 6) := rfl
  have hcomputed : frameChecksum (src.take (endIn src)) =
      UInt16.ofNat (sumAround (endIn src) src) := by
    rw [← UInt16.toNat_inj, toNat_frameChecksum hfront hcut, UInt16.toNat_ofNat']
  simp only [Reading.checksum, Bool.or_eq_false_iff, Bool.not_eq_false',
    decide_eq_false_iff_not] at hsum
  rw [← endIn_eq, ← frameChecksum_eq_iff hfront hcut] at hsum
  rw [hread, if_pos hsum, hcomputed, hfield, Reading.checksum, endIn_eq]

end

/-- The reader reports the first fault there is. -/
theorem decodeHeader_of_firstFault (hfault : firstFault? (checks c src) = some e) :
    decodeHeader c src = .error e := by
  unfold checks at hfault
  obtain ⟨hroom, rfl⟩ | ⟨hroom, hfault⟩ := firstFault?_cons_eq_some.mp hfault
  · have hshort : src.length < headerSize := by simpa [room] using hroom
    rw [decodeHeader, if_pos hshort]
    rfl
  have hlong : ¬ src.length < headerSize := by simpa [room] using hroom
  obtain ⟨hlength, rfl⟩ | ⟨hlength, hfault⟩ := firstFault?_cons_eq_some.mp hfault
  · have hdummy : src.word16At 2 = 0 :=
      Decidable.not_not.mp fun hne => by simp [length_passed.mpr hne] at hlength
    exact decodeHeader_of_dummy hlong hdummy
  have hnonzero := length_passed.mp hlength
  obtain ⟨hname, rfl⟩ | ⟨hname, hfault⟩ := firstFault?_cons_eq_some.mp hfault
  · exact decodeHeader_of_unknown hlong hnonzero (ofCode?_of_unnamed hname)
  obtain ⟨i, hi, hcode⟩ := exists_of_named hname
  obtain ⟨hextent, rfl⟩ | ⟨hextent, hfault⟩ := firstFault?_cons_eq_some.mp hfault
  · have houtside : startIn src < headerSize ∨ min src.length c.bufferSize < endIn src :=
      Decidable.not_not.mp fun hin => by simp [extent_passed.mpr hin] at hextent
    rw [decodeHeader_of_outside hlong hnonzero hi houtside, startIn_eq, toNat_word16At]
    rfl
  obtain ⟨hdata, rfl⟩ | ⟨hdata, hfault⟩ := firstFault?_cons_eq_some.mp hfault
  · have hcarries := (carriesData_of_code hcode).trans hdata
    rw [decodeHeader_of_dataless hlong hnonzero hi (extent_passed.mp hextent) hcarries, hcode]
    rfl
  obtain ⟨hsum, rfl⟩ | ⟨-, hnone⟩ := firstFault?_cons_eq_some.mp hfault
  · exact decodeHeader_of_mismatch hroom hlength hname hextent hdata hsum
  · cases hnone

theorem acceptable_iff_faultless : Acceptable c src ↔ firstFault? (checks c src) = none := by
  rw [firstFault?_eq_none_iff]
  simp only [checks, room, Reading.length, name, extent, data, Reading.checksum,
    List.forall_mem_cons, decide_eq_true_eq, Bool.or_eq_true, Bool.not_eq_true']
  constructor
  · intro h
    have hnamed : (src.byteAt 0).toNat % 16 ≤ 8 := Nat.le_succ_of_le h.interface.2
    refine ⟨h.header, h.nonzero, hnamed, ⟨h.start, h.inside⟩, h.interface, ?_, by simp⟩
    cases hon : c.checksum with
    | false => exact .inl rfl
    | true => exact .inr (h.checksum hon)
  · rintro ⟨hheader, hnonzero, -, ⟨hstart, hinside⟩, hinterface, hsum, -⟩
    refine ⟨hheader, hnonzero, hinterface, hstart, hinside, fun hon => ?_⟩
    exact hsum.resolve_left (by simp [hon])

theorem decodeHeader_eq_error_iff :
    decodeHeader c src = .error e ↔ firstFault? (checks c src) = some e := by
  refine error_iff_of_firstFault? (fun hnone => ?_) fun _ => decodeHeader_of_firstFault
  exact decodeHeader_of_acceptable (acceptable_iff_faultless.mpr hnone)

/-! ## The order of the wire -/

/-- A code that names no interface carries no data either. -/
theorem data_failed_of_unnamed (hname : (name src).passed = false) :
    (data src).passed = false := by
  simp only [name, data, decide_eq_false_iff_not] at hname ⊢
  omega

theorem firstFault?_of_clear (hclear : ¬ Obscured c src) :
    firstFault? (wireChecks c src) = firstFault? (checks c src) := by
  unfold wireChecks checks
  cases hroom : (room src).passed with
  | false => rw [firstFault?_of_failed hroom, firstFault?_of_failed hroom]
  | true =>
    rw [firstFault?_of_passed hroom, firstFault?_of_passed hroom]
    cases hlength : (length src).passed with
    | false => rw [firstFault?_of_failed hlength, firstFault?_of_failed hlength]
    | true =>
      rw [firstFault?_of_passed hlength, firstFault?_of_passed hlength]
      cases hname : (name src).passed with
      | true => rw [firstFault?_of_passed hname]
      | false =>
        -- The extent fits, so that the next fault on the wire is that of the interface.
        have hextent : (extent c src).passed = true := by
          cases hfits : (extent c src).passed with
          | true => rfl
          | false => exact absurd ⟨hroom, hlength, hname, hfits⟩ hclear
        rw [firstFault?_of_passed hextent, firstFault?_of_failed hname,
          firstFault?_of_failed (data_failed_of_unnamed hname)]
        rfl

theorem faults_of_obscured (h : Obscured c src) :
    firstFault? (checks c src) = some (.unknownInterface (codeIn src)) ∧
      firstFault? (wireChecks c src) = some (.malformed (src.numberAt 2) (src.numberAt 4)
        (min src.length c.bufferSize)) := by
  unfold checks wireChecks
  rw [firstFault?_of_passed h.room, firstFault?_of_passed h.length, firstFault?_of_failed h.name,
    firstFault?_of_passed h.room, firstFault?_of_passed h.length, firstFault?_of_failed h.extent]
  exact ⟨rfl, rfl⟩

end

/-- A buffer is refused with the error of the first check that it does not pass, in the order in
which the checks are made. This is the order of the wire, except for a buffer whose first byte names
no interface and whose extent does not fit. -/
theorem wire_order_kept_iff (c : FrameConfig) (src : Bytes) :
    (∀ e, decodeHeader c src = .error e ↔ firstFault? (checks c src) = some e) ∧
      ((∀ e, decodeHeader c src = .error e ↔ firstFault? (wireChecks c src) = some e) ↔
        ¬ Obscured c src) := by
  refine ⟨fun _ => decodeHeader_eq_error_iff, fun horder hobscured => ?_, fun hclear e => ?_⟩
  · obtain ⟨hmade, hwire⟩ := faults_of_obscured hobscured
    have hnamed := decodeHeader_of_firstFault hmade
    rw [(horder _).mpr hwire] at hnamed
    cases hnamed
  · rw [firstFault?_of_clear hclear]
    exact decodeHeader_eq_error_iff

/-- Interface 15 and a payload that begins at index 0. -/
theorem interface_hides_extent :
    let src : Bytes := [0x0F, 0, 1, 0, 0, 0, 0, 0, 0, 0, 0, 0]
    decodeHeader {} src = .error (.unknownInterface 15) ∧
      firstFault? (wireChecks {} src) = some (.malformed 1 0 12) ∧
      ¬ ∀ e, decodeHeader {} src = .error e ↔ firstFault? (wireChecks {} src) = some e := by
  intro src
  have hread : decodeHeader {} src = .error (.unknownInterface 15) := by decide
  have hwire : firstFault? (wireChecks {} src) = some (.malformed 1 0 12) := by decide
  refine ⟨hread, hwire, fun horder => ?_⟩
  have hmalformed := (horder _).mpr hwire
  rw [hread] at hmalformed
  cases hmalformed

end SlaveLink
