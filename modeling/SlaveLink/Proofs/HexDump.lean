import Mathlib.Data.List.Induction
import SlaveLink.Bytes.Hex

/-! # Reading hex dumps back
A dump may be broken up by blanks and colons at any place, also within a byte, and be in either
case. Trimming, the marker and the separators are gone before digits are paired, so what is read
depends on the remaining characters alone, one digit value each. Trimming drops more than the
separators do: it takes any blank at the ends. -/

namespace SlaveLink.Bytes

def separators : List Char := [' ', '\t', '\n', '\x0c', '\r', ':']

def hexDigits : List Char :=
  ['0', '1', '2', '3', '4', '5', '6', '7', '8', '9', 'a', 'b', 'c', 'd', 'e', 'f',
    'A', 'B', 'C', 'D', 'E', 'F']

def remaining (text : List Char) : List Char :=
  (dropHexMarker (Text.trim text)).filter (· ∉ separators)

/-- Another way to write the same digits: some letters in upper case, separators anywhere. -/
inductive Respelled : List Char → List Char → Prop
  | nil : Respelled [] []
  | kept (c : Char) {cs ds : List Char} (rest : Respelled cs ds) : Respelled (c :: cs) (c :: ds)
  | upper (c : Char) {cs ds : List Char} (rest : Respelled cs ds) :
      Respelled (c :: cs) (c.toUpper :: ds)
  | separator {s : Char} (hs : s ∈ separators) {cs ds : List Char} (rest : Respelled cs ds) :
      Respelled cs (s :: ds)

structure ReadsDumps (read : String → Except HexError Bytes) : Prop where
  hex : ∀ bs : Bytes, read bs.hex = .ok bs
  /-- Every spelling of the digits that bytes are written with is read as these bytes. -/
  respelled : ∀ (bs : Bytes) (dump : List Char), Respelled bs.hex.toList dump →
    ∀ marker ∈ ["", "0x", "0X"], read (marker ++ String.ofList dump) = .ok bs
  /-- A text is read if an even number of digits remains of it, and not otherwise. -/
  accepts : ∀ text : String, (∃ bs, read text = .ok bs) ↔
    (∀ c ∈ remaining text.toList, c ∈ hexDigits) ∧ (remaining text.toList).length % 2 = 0
  /-- Two digits give one byte. -/
  halves : ∀ (text : String) (bs : Bytes), read text = .ok bs →
    (remaining text.toList).length = 2 * bs.length

def nibbles (bs : Bytes) : List Nat := bs.flatMap fun b => [b.toNat / 16, b.toNat % 16]

def digitValue? (d : UInt8) : Option Nat := (hexValue? d).map UInt8.toNat

def charValue? (c : Char) : Option Nat :=
  if c.toNat ≤ 127 then digitValue? (.ofNat c.toNat) else none

variable {bs : Bytes} {ds cs dump text : List Char} {c : Char} {d : UInt8} {n : Nat}

/-! ## Single digits -/

theorem charValue?_of_ascii (h : c.toNat ≤ 127) : charValue? c = digitValue? (.ofNat c.toNat) :=
  if_pos h

theorem digitValue?_bounds (h : digitValue? d = some n) : n < 16 ∧ d.toNat ≤ 127 := by
  have htable : ∀ k : Fin 256, ∀ n ∈ digitValue? (.ofNat k), n < 16 ∧ k ≤ 127 := by decide +kernel
  have hd : UInt8.ofNat d.toNat = d := UInt8.ofNat_toNat
  have hbounds := htable ⟨d.toNat, d.toNat_lt⟩ n
  rw [hd] at hbounds
  exact hbounds h

theorem charValue?_lt (h : charValue? c = some n) : n < 16 := by
  unfold charValue? at h
  split at h
  · exact (digitValue?_bounds h).1
  · cases h

theorem toNat_of_isHexSeparator (h : isHexSeparator d = true) : d.toNat ≤ 127 := by
  simp only [isHexSeparator, Bool.or_eq_true, beq_iff_eq] at h
  obtain ((((rfl | rfl) | rfl) | rfl) | rfl) | rfl := h <;> decide

theorem isHexSeparator_ofNat (h : c.toNat ≤ 127) :
    isHexSeparator (.ofNat c.toNat) = decide (c ∈ separators) := by
  have htable : ∀ k : Fin 128,
      isHexSeparator (.ofNat k) = decide (Char.ofNat k ∈ separators) := by decide +kernel
  simpa using htable ⟨c.toNat, by omega⟩

theorem charValue?_hexDigit (h : n < 16) : charValue? (Text.hexDigit n) = some n := by
  have htable : ∀ k : Fin 16, charValue? (Text.hexDigit k) = some k.val := by decide
  exact htable ⟨n, h⟩

theorem isSome_charValue?_iff : (charValue? c).isSome = true ↔ c ∈ hexDigits := by
  constructor
  · intro h
    have htable : ∀ k : Fin 128, (charValue? (Char.ofNat k)).isSome = true →
        Char.ofNat k ∈ hexDigits := by decide +kernel
    have hascii : c.toNat ≤ 127 := by
      by_contra hbeyond
      simp [charValue?, hbeyond] at h
    have hc := htable ⟨c.toNat, by omega⟩
    simp only [Char.ofNat_toNat] at hc
    exact hc h
  · intro h
    have htable : hexDigits.all (fun c => (charValue? c).isSome) = true := by decide
    exact List.all_eq_true.1 htable c h

/-! ## Characters and their bytes
A character beyond ASCII is written with bytes beyond ASCII only, so none of them is a digit or a
separator. -/

theorem utf8EncodeChar_of_ascii (h : c.toNat ≤ 127) :
    String.utf8EncodeChar c = [.ofNat c.toNat] := if_pos h

theorem beyond_ofNat {k : Nat} (hk : 128 ≤ k ∧ k < 256) : ¬ (UInt8.ofNat k).toNat ≤ 127 := by
  rw [UInt8.toNat_ofNat_of_lt' hk.2]
  omega

theorem beyond_of_mem_utf8EncodeChar (h : ¬ c.toNat ≤ 127) (hd : d ∈ String.utf8EncodeChar c) :
    ¬ d.toNat ≤ 127 := by
  have hval : ¬ c.val.toNat ≤ 127 := h
  simp only [String.utf8EncodeChar, if_neg hval] at hd
  split at hd
  · simp only [List.mem_cons, List.not_mem_nil, or_false] at hd
    obtain rfl | rfl := hd <;> exact beyond_ofNat (by omega)
  split at hd
  · simp only [List.mem_cons, List.not_mem_nil, or_false] at hd
    obtain rfl | rfl | rfl := hd <;> exact beyond_ofNat (by omega)
  · simp only [List.mem_cons, List.not_mem_nil, or_false] at hd
    obtain rfl | rfl | rfl | rfl := hd <;> exact beyond_ofNat (by omega)

theorem ascii_of_mem_separators (h : c ∈ separators) : c.toNat ≤ 127 := by
  have htable : ∀ c ∈ separators, c.toNat ≤ 127 := by simp [separators]
  exact htable c h

theorem filter_utf8EncodeChar (c : Char) :
    (String.utf8EncodeChar c).filter (! isHexSeparator ·) =
      if c ∈ separators then [] else String.utf8EncodeChar c := by
  by_cases hascii : c.toNat ≤ 127
  · rw [utf8EncodeChar_of_ascii hascii, List.filter_cons, isHexSeparator_ofNat hascii]
    by_cases hc : c ∈ separators <;> simp [hc]
  · have hc : c ∉ separators := fun hmem => hascii (ascii_of_mem_separators hmem)
    rw [if_neg hc, List.filter_eq_self]
    intro d hd
    have hbeyond := beyond_of_mem_utf8EncodeChar hascii hd
    simpa using fun hsep => hbeyond (toNat_of_isHexSeparator hsep)

theorem hexDigitsOf_eq (text : List Char) :
    hexDigitsOf text = (remaining text).flatMap String.utf8EncodeChar := by
  unfold hexDigitsOf remaining
  rw [List.filter_flatMap]
  induction dropHexMarker (Text.trim text) with
  | nil => rfl
  | cons c cs ih =>
    rw [List.flatMap_cons, ih, filter_utf8EncodeChar]
    by_cases hc : c ∈ separators <;> simp [hc]

/-- The bytes of a text are digits with certain values if and only if its characters are. -/
theorem map_digitValue?_iff (cs : List Char) (ns : List Nat) :
    (cs.flatMap String.utf8EncodeChar).map digitValue? = ns.map some ↔
      cs.map charValue? = ns.map some := by
  induction cs generalizing ns with
  | nil => rfl
  | cons c cs ih =>
    rw [List.flatMap_cons, List.map_append, List.map_cons]
    -- No byte of a character beyond ASCII is a digit, so its first byte decides.
    by_cases hascii : c.toNat ≤ 127
    · rw [utf8EncodeChar_of_ascii hascii, charValue?_of_ascii hascii]
      cases ns with
      | nil => simp
      | cons n ns => simp [ih]
    · have hvalue : charValue? c = none := if_neg hascii
      obtain ⟨d, rest, henc⟩ := List.exists_cons_of_ne_nil (String.utf8EncodeChar_ne_nil (c := c))
      have hd : ∀ n, digitValue? d ≠ some n := fun n hn =>
        beyond_of_mem_utf8EncodeChar hascii (henc ▸ List.mem_cons_self) (digitValue?_bounds hn).2
      cases ns with
      | nil => simp [henc]
      | cons n ns => simp [henc, hvalue, hd]

/-! ## Pairs of digits -/

theorem nibbles_cons (b : UInt8) (bs : Bytes) :
    nibbles (b :: bs) = b.toNat / 16 :: b.toNat % 16 :: nibbles bs := rfl

theorem length_nibbles (bs : Bytes) : (nibbles bs).length = 2 * bs.length := by
  induction bs with
  | nil => rfl
  | cons b bs ih =>
    rw [nibbles_cons, List.length_cons, List.length_cons, List.length_cons, ih]
    omega

theorem toNat_join {high low : UInt8} (hhigh : high.toNat < 16) (hlow : low.toNat < 16) :
    (high <<< 4 ||| low).toNat = 16 * high.toNat + low.toNat := by
  have hshift : (high <<< 4).toNat = high.toNat <<< 4 := by
    rw [UInt8.toNat_shiftLeft]
    have : high.toNat <<< 4 < 256 := by rw [Nat.shiftLeft_eq]; omega
    exact Nat.mod_eq_of_lt this
  rw [UInt8.toNat_or, hshift, ← Nat.shiftLeft_add_eq_or_of_lt hlow, Nat.shiftLeft_eq]
  omega

/-- What reading the first two digits takes and gives. -/
theorem ofHexDigits_cons_cons {high low : UInt8} {rest : Bytes} :
    ofHexDigits (high :: low :: rest) = .ok bs ↔ ∃ h l bs', hexValue? high = some h ∧
      hexValue? low = some l ∧ ofHexDigits rest = .ok bs' ∧ (h <<< 4 ||| l) :: bs' = bs := by
  rw [ofHexDigits]
  cases hexValue? high with
  | none => simp
  | some h =>
    cases hexValue? low with
    | none => simp
    | some l => cases ofHexDigits rest <;> simp [Except.map]

theorem digitValue?_eq_some_iff : digitValue? d = some n ↔ ∃ v, hexValue? d = some v ∧ v.toNat = n :=
  Option.map_eq_some_iff

/-- Reading succeeds with these bytes if and only if the digits have their values, two a byte. -/
theorem ofHexDigits_iff (ds bs : Bytes) :
    (ds.length % 2 = 0 ∧ ofHexDigits ds = .ok bs) ↔
      ds.map digitValue? = (nibbles bs).map some := by
  induction ds using List.twoStepInduction generalizing bs with
  | nil => cases bs <;> simp [ofHexDigits, nibbles]
  | singleton d => cases bs <;> simp [nibbles]
  | cons_cons high low rest ih =>
    have hlength : (high :: low :: rest).length % 2 = rest.length % 2 := by
      rw [List.length_cons, List.length_cons]
      omega
    rw [hlength, ofHexDigits_cons_cons]
    constructor
    · rintro ⟨heven, h, l, bs', hhigh, hlow, hrest, rfl⟩
      have hh := digitValue?_eq_some_iff.2 ⟨h, hhigh, rfl⟩
      have hl := digitValue?_eq_some_iff.2 ⟨l, hlow, rfl⟩
      have hlt := (digitValue?_bounds hl).1
      have hjoin := toNat_join (digitValue?_bounds hh).1 hlt
      have hquot : (16 * h.toNat + l.toNat) / 16 = h.toNat := by omega
      have hrem : (16 * h.toNat + l.toNat) % 16 = l.toNat := by omega
      rw [nibbles_cons, hjoin, hquot, hrem]
      simp only [List.map_cons, hh, hl, (ih bs').1 ⟨heven, hrest⟩]
    · intro hmap
      cases bs with
      | nil => simp [nibbles] at hmap
      | cons b bs =>
        rw [nibbles_cons] at hmap
        simp only [List.map_cons, List.cons.injEq] at hmap
        obtain ⟨hhigh, hlow, hmap⟩ := hmap
        obtain ⟨heven, hrest⟩ := (ih bs).2 hmap
        obtain ⟨h, hh, hhval⟩ := digitValue?_eq_some_iff.1 hhigh
        obtain ⟨l, hl, hlval⟩ := digitValue?_eq_some_iff.1 hlow
        have hhlt := (digitValue?_bounds hhigh).1
        have hllt := (digitValue?_bounds hlow).1
        have hjoin := toNat_join (hhval ▸ hhlt) (hlval ▸ hllt)
        have hb : h <<< 4 ||| l = b := UInt8.toNat_inj.1 (by omega)
        exact ⟨heven, h, l, bs, hh, hl, hrest, by rw [hb]⟩

/-- What is read of a text depends on the values of its remaining characters alone. -/
theorem parseHexChars_eq_ok_iff :
    parseHexChars text = .ok bs ↔ (remaining text).map charValue? = (nibbles bs).map some := by
  rw [← map_digitValue?_iff, ← hexDigitsOf_eq, ← ofHexDigits_iff]
  unfold parseHexChars
  by_cases heven : (hexDigitsOf text).length % 2 = 0 <;> simp [heven]

/-- An even number of digits spells some bytes. -/
theorem exists_nibbles (hdigits : ∀ c ∈ cs, c ∈ hexDigits) (heven : cs.length % 2 = 0) :
    ∃ bs, cs.map charValue? = (nibbles bs).map some := by
  induction cs using List.twoStepInduction with
  | nil => exact ⟨[], rfl⟩
  | singleton c => simp at heven
  | cons_cons c c' rest ih =>
    have hrest : rest.length % 2 = 0 := by
      rw [List.length_cons, List.length_cons] at heven
      omega
    obtain ⟨bs, hbs⟩ := ih (fun c hc => hdigits c (by simp [hc])) hrest
    obtain ⟨h, hh⟩ := Option.isSome_iff_exists.1 (isSome_charValue?_iff.2 (hdigits c (by simp)))
    obtain ⟨l, hl⟩ := Option.isSome_iff_exists.1 (isSome_charValue?_iff.2 (hdigits c' (by simp)))
    have hhlt := charValue?_lt hh
    have hllt := charValue?_lt hl
    have hlt : 16 * h + l < 256 := by omega
    have hjoin : (UInt8.ofNat (16 * h + l)).toNat = 16 * h + l := UInt8.toNat_ofNat_of_lt' hlt
    have hquot : (16 * h + l) / 16 = h := by omega
    have hrem : (16 * h + l) % 16 = l := by omega
    refine ⟨.ofNat (16 * h + l) :: bs, ?_⟩
    rw [nibbles_cons, hjoin, hquot, hrem]
    simp only [List.map_cons, hh, hl, hbs]

/-! ## Spellings of the same digits -/

theorem filter_dropWhile {p q : Char → Bool} (h : ∀ c ∈ cs, p c = true → q c = false) :
    (cs.dropWhile p).filter q = cs.filter q := by
  induction cs with
  | nil => rfl
  | cons c cs ih =>
    rw [List.dropWhile_cons]
    split <;> rename_i hp
    · rw [ih fun c hc => h c (List.mem_cons_of_mem _ hc), List.filter_cons,
        h c List.mem_cons_self hp]
      rfl
    · rfl

def IsPlain (dump : List Char) : Prop := ∀ c ∈ dump, c ∈ hexDigits ∨ c ∈ separators

theorem IsPlain.separator_of_isBlank (hplain : IsPlain dump) (hc : c ∈ dump)
    (hblank : Text.isBlank c = true) : c ∈ separators := by
  have htable : hexDigits.all (fun c => !Text.isBlank c) = true := by decide
  obtain hdigit | hsep := hplain c hc
  · have hsolid := List.all_eq_true.1 htable c hdigit
    rw [hblank] at hsolid
    cases hsolid
  · exact hsep

/-- Trimming drops separators only. -/
theorem IsPlain.filter_dropWhile_isBlank (hplain : IsPlain dump) :
    (dump.dropWhile Text.isBlank).filter (· ∉ separators) = dump.filter (· ∉ separators) :=
  filter_dropWhile fun c hc hblank => by simpa using hplain.separator_of_isBlank hc hblank

theorem IsPlain.dropWhile (hplain : IsPlain dump) (p : Char → Bool) : IsPlain (dump.dropWhile p) :=
  fun c hc => hplain c ((List.dropWhile_sublist p).subset hc)

theorem IsPlain.reverse (hplain : IsPlain dump) : IsPlain dump.reverse :=
  fun c hc => hplain c (List.mem_reverse.1 hc)

theorem IsPlain.filter_trimEnd (hplain : IsPlain dump) :
    (dump.reverse.dropWhile Text.isBlank).reverse.filter (· ∉ separators) =
      dump.filter (· ∉ separators) := by
  rw [List.filter_reverse, hplain.reverse.filter_dropWhile_isBlank, List.filter_reverse,
    List.reverse_reverse]

theorem IsPlain.dropHexMarker (hplain : IsPlain dump) : dropHexMarker dump = dump := by
  have hno : ∀ c ∈ hexDigits ++ separators, c ≠ 'x' ∧ c ≠ 'X' := by
    simp [hexDigits, separators]
  have hfree : ∀ c ∈ dump, c ≠ 'x' ∧ c ≠ 'X' :=
    fun c hc => hno c (List.mem_append.2 (hplain c hc))
  unfold Bytes.dropHexMarker
  split
  · exact absurd rfl (hfree 'x' (by simp)).1
  · exact absurd rfl (hfree 'X' (by simp)).2
  · rfl

/-- A marker in front keeps the front from being trimmed. -/
theorem trim_marker {x : Char} (hx : x = 'x' ∨ x = 'X') (dump : List Char) :
    Text.trim ('0' :: x :: dump) = '0' :: x :: (dump.reverse.dropWhile Text.isBlank).reverse := by
  have hzero : Text.isBlank '0' = false := by decide
  have hletter : Text.isBlank x = false := by obtain rfl | rfl := hx <;> decide
  unfold Text.trim
  rw [List.dropWhile_cons_of_neg (by simp [hzero]), List.reverse_cons, List.reverse_cons,
    List.append_assoc, List.dropWhile_append]
  split <;> rename_i hempty
  · simp [List.isEmpty_iff.1 hempty, hletter]
  · simp

theorem IsPlain.remaining (hplain : IsPlain dump) :
    Bytes.remaining dump = dump.filter (· ∉ separators) := by
  have htrimmed : IsPlain (Text.trim dump) := ((hplain.dropWhile _).reverse.dropWhile _).reverse
  have hend := (hplain.dropWhile Text.isBlank).filter_trimEnd
  unfold Bytes.remaining
  rw [htrimmed.dropHexMarker, ← hplain.filter_dropWhile_isBlank]
  exact hend

theorem IsPlain.remaining_marked (hplain : IsPlain dump) {x : Char} (hx : x = 'x' ∨ x = 'X') :
    Bytes.remaining ('0' :: x :: dump) = dump.filter (· ∉ separators) := by
  have hdropped (cs : List Char) : Bytes.dropHexMarker ('0' :: x :: cs) = cs := by
    obtain rfl | rfl := hx <;> rfl
  unfold Bytes.remaining
  rw [trim_marker hx, hdropped]
  exact hplain.filter_trimEnd

theorem remaining_marker {marker : String} (hmarker : marker ∈ ["", "0x", "0X"])
    (hplain : IsPlain dump) :
    remaining (marker.toList ++ dump) = dump.filter (· ∉ separators) := by
  simp only [List.mem_cons, List.not_mem_nil, or_false] at hmarker
  obtain rfl | rfl | rfl := hmarker
  · exact hplain.remaining
  · exact hplain.remaining_marked (.inl rfl)
  · exact hplain.remaining_marked (.inr rfl)

theorem map_charValue?_hexChars (bs : Bytes) :
    bs.hexChars.map charValue? = (nibbles bs).map some := by
  induction bs with
  | nil => rfl
  | cons b bs ih =>
    have hlt := b.toNat_lt
    have hhigh : charValue? (Text.hexDigit (b.toNat / 16)) = some (b.toNat / 16) :=
      charValue?_hexDigit (by omega)
    have hlow : charValue? (Text.hexDigit (b.toNat % 16)) = some (b.toNat % 16) :=
      charValue?_hexDigit (by omega)
    rw [nibbles_cons]
    unfold hexChars at ih ⊢
    rw [List.flatMap_cons, List.map_append, ih]
    simp only [List.map_cons, List.map_nil, hhigh, hlow, List.cons_append, List.nil_append]

theorem mem_hexDigits_of_values {ns : List Nat} (h : cs.map charValue? = ns.map some) :
    ∀ c ∈ cs, c ∈ hexDigits := by
  intro c hc
  have hmem := List.mem_map_of_mem (f := charValue?) hc
  rw [h] at hmem
  obtain ⟨n, -, hn⟩ := List.mem_map.1 hmem
  exact isSome_charValue?_iff.1 (by rw [← hn]; rfl)

/-- Another spelling is made of digits and separators, and its digits have the same values. -/
theorem Respelled.values (h : Respelled cs dump) (hdigits : ∀ c ∈ cs, c ∈ hexDigits) :
    IsPlain dump ∧
      (dump.filter (· ∉ separators)).map charValue? = cs.map charValue? := by
  have hapart : ∀ c ∈ hexDigits, c ∉ separators := by simp [hexDigits, separators]
  have htable : hexDigits.all (fun c => decide (c.toUpper ∈ hexDigits ∧
      charValue? c.toUpper = charValue? c)) = true := by decide
  have hupper (c : Char) (hc : c ∈ hexDigits) := of_decide_eq_true (List.all_eq_true.1 htable c hc)
  induction h with
  | nil => exact ⟨nofun, rfl⟩
  | @kept c cs ds _ ih =>
    obtain ⟨hplain, hvalues⟩ := ih fun c hc => hdigits c (List.mem_cons_of_mem _ hc)
    have hc := hdigits c List.mem_cons_self
    refine ⟨List.forall_mem_cons.2 ⟨.inl hc, hplain⟩, ?_⟩
    rw [List.filter_cons_of_pos (by simpa using hapart c hc), List.map_cons, List.map_cons,
      hvalues]
  | @upper c cs ds _ ih =>
    obtain ⟨hplain, hvalues⟩ := ih fun c hc => hdigits c (List.mem_cons_of_mem _ hc)
    obtain ⟨hc, hvalue⟩ := hupper c (hdigits c List.mem_cons_self)
    refine ⟨List.forall_mem_cons.2 ⟨.inl hc, hplain⟩, ?_⟩
    rw [List.filter_cons_of_pos (by simpa using hapart _ hc), List.map_cons, List.map_cons,
      hvalues, hvalue]
  | separator hs _ ih =>
    obtain ⟨hplain, hvalues⟩ := ih hdigits
    refine ⟨List.forall_mem_cons.2 ⟨.inr hs, hplain⟩, ?_⟩
    rw [List.filter_cons_of_neg (by simpa using hs), hvalues]

theorem Respelled.refl (cs : List Char) : Respelled cs cs := by
  induction cs with
  | nil => exact .nil
  | cons c cs ih => exact .kept c ih

theorem parseHex_respelled (h : Respelled bs.hexChars dump) {marker : String}
    (hmarker : marker ∈ ["", "0x", "0X"]) :
    parseHex (marker ++ String.ofList dump) = .ok bs := by
  have hhex := map_charValue?_hexChars bs
  obtain ⟨hplain, hvalues⟩ := h.values (mem_hexDigits_of_values hhex)
  unfold parseHex
  rw [String.toList_append, String.toList_ofList, parseHexChars_eq_ok_iff,
    remaining_marker hmarker hplain, hvalues, hhex]

theorem length_remaining_of_parseHexChars (h : parseHexChars text = .ok bs) :
    (remaining text).length = 2 * bs.length := by
  have hlength := congrArg List.length (parseHexChars_eq_ok_iff.1 h)
  rwa [List.length_map, List.length_map, length_nibbles] at hlength

theorem exists_parseHexChars_iff (text : List Char) :
    (∃ bs, parseHexChars text = .ok bs) ↔
      (∀ c ∈ remaining text, c ∈ hexDigits) ∧ (remaining text).length % 2 = 0 := by
  constructor
  · rintro ⟨bs, h⟩
    have hlength := length_remaining_of_parseHexChars h
    exact ⟨mem_hexDigits_of_values (parseHexChars_eq_ok_iff.1 h), by omega⟩
  · rintro ⟨hdigits, heven⟩
    obtain ⟨bs, hbs⟩ := exists_nibbles hdigits heven
    exact ⟨bs, parseHexChars_eq_ok_iff.2 hbs⟩

/-- Bytes written as hex are read back however the digits are spelled. Of any text, ASCII or not,
what is read is decided by the characters that remain of it, and two of them give a byte. -/
theorem readsDumps_parseHex : ReadsDumps parseHex where
  hex bs := by
    have hread : parseHex ("" ++ String.ofList bs.hexChars) = .ok bs :=
      parseHex_respelled (.refl bs.hexChars) List.mem_cons_self
    rwa [String.empty_append] at hread
  respelled bs dump hdump marker hmarker := by
    have hchars : bs.hex.toList = bs.hexChars := String.toList_ofList
    exact parseHex_respelled (hchars ▸ hdump) hmarker
  accepts text := exists_parseHexChars_iff text.toList
  halves _ _ h := length_remaining_of_parseHexChars h

/-- A separator may part the digits of a byte, but not the marker. -/
example : parseHex "\x0b0X: d\te:AD\x0b" = .ok [0xde, 0xad] ∧
    parseHex "0 xdead" = .error (.badDigit 120) := by decide

end SlaveLink.Bytes
