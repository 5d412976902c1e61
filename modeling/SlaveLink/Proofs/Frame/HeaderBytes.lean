import SlaveLink.Proofs.Frame.Writing

/-! # Headers and their bytes
A header is put into its twelve bytes field by field and read from them field by field. The one
undoes the other, except for what does not travel: the high bits of the interface number on the way
out, and the throttle bits that do not count on the way in. -/

namespace SlaveLink

namespace Bytes

/-- Copies pieces of data over the bytes from an index on, each behind the one before it, or nothing
if the bytes are not all there. -/
def patchAll? (dst : Bytes) (start : Nat) : List Bytes → Option Bytes
  | [] => some dst
  | piece :: pieces => do
    let dst ← dst.patch? start piece
    dst.patchAll? (start + piece.length) pieces

/-- Pieces that are put one behind the other are put as one. -/
theorem patchAll?_append (front : Bytes) {back : Bytes} {pieces : List Bytes}
    (hroom : pieces.flatten.length ≤ back.length) :
    (front ++ back).patchAll? front.length pieces =
      some (front ++ (pieces.flatten ++ back.drop pieces.flatten.length)) := by
  -- Each piece that was put belongs to the front of those that follow.
  induction pieces generalizing front back with
  | nil => simp [patchAll?]
  | cons piece pieces ih =>
    rw [List.flatten_cons, List.length_append] at hroom
    have hpiece : piece.length ≤ back.length := by omega
    have hrest : pieces.flatten.length ≤ (back.drop piece.length).length := by
      rw [List.length_drop]
      omega
    have hput := ih (front ++ piece) hrest
    rw [List.append_assoc, List.length_append] at hput
    rw [patchAll?, patch?_append rfl hpiece, Option.bind_eq_bind, Option.bind_some, hput,
      List.flatten_cons, List.length_append, List.drop_drop]
    simp only [List.append_assoc]

end Bytes

theorem Throttle.bits_ofBits_eq (b : UInt8) :
    (ofBits b).bits = if b.toNat % 4 = 1 then 1 else 0 := by
  rw [ofBits]
  split <;> rfl

open Bytes

namespace Header

variable {src dst : Bytes} {h : Header} {e : FrameError}

def pieces (h : Header) : List Bytes :=
  [[routeByte h.interface h.number], [h.flags.bits], ofWord16 h.length, ofWord16 h.offset,
    ofWord16 h.checksum, ofWord16 h.sequence, [h.throttle.bits], [h.packetType]]

/-- `writeTo` as it puts one field behind the other into the first twelve bytes, or nothing if a
byte is touched that is not among them. -/
def writeTo? (h : Header) (dst : Bytes) : Option (Except FrameError Bytes) :=
  if dst.length < headerSize then some (.error (.bufferTooSmall dst.length))
  else do
    let front ← dst.slice? 0 headerSize
    let front ← front.patchAll? 0 h.pieces
    let dst ← dst.patch? 0 front
    return .ok dst

theorem flatten_pieces (h : Header) : h.pieces.flatten = h.encode := rfl

/-- The fields fill the twelve bytes, and no more than these. -/
theorem patchAll?_pieces (h : Header) {front : Bytes} (hfront : front.length = headerSize) :
    front.patchAll? 0 h.pieces = some h.encode := by
  have hroom : h.pieces.flatten.length ≤ front.length := by
    rw [flatten_pieces, length_encode, hfront]
  have hput := patchAll?_append [] hroom
  rw [flatten_pieces, length_encode, ← hfront, List.drop_length, List.append_nil] at hput
  exact hput

/-- The writer touches no byte that is not there. -/
theorem writeTo?_eq (h : Header) (dst : Bytes) : h.writeTo? dst = some (h.writeTo dst) := by
  unfold writeTo? writeTo
  split
  · rfl
  · next hshort =>
    have hroom : headerSize ≤ dst.length := Nat.not_lt.mp hshort
    have hslice : dst.slice? 0 headerSize = some (dst.take headerSize) := slice?_zero hroom
    have hfields := h.patchAll?_pieces (List.length_take_of_le hroom)
    have hfront : dst.patch? 0 h.encode = some (h.encode ++ dst.drop headerSize) :=
      patch?_append List.length_nil hroom
    simp only [hslice, hfields, hfront, Option.bind_eq_bind, Option.bind_some]
    rfl

/-- Reading what was written gives the header with as much of its interface number as travels. -/
theorem reads_back (h : Header) (hroom : headerSize ≤ dst.length) :
    ∃ out, h.writeTo dst = .ok out ∧ out.length = dst.length ∧
      out.drop headerSize = dst.drop headerSize ∧ parse out = .ok h.trimmed := by
  refine ⟨_, writeTo_of_room hroom, ?_, List.drop_left' h.length_encode, parse_encode_append h _⟩
  rw [List.length_append, length_encode, List.length_drop, Nat.add_sub_cancel' hroom]

/-- Writing what was read gives the bytes it was read from, with a throttle byte of 1 or 0. -/
theorem rewrites (hlong : headerSize ≤ src.length) (hparse : parse src = .ok h)
    (hroom : headerSize ≤ dst.length) :
    ∃ out, h.writeTo dst = .ok out ∧ out.take headerSize =
      (src.take headerSize).set 10 (if (src.byteAt 10).toNat % 4 = 1 then 1 else 0) := by
  refine ⟨_, writeTo_of_room hroom, ?_⟩
  rw [List.take_left' h.length_encode, encode_of_parse_eq_set hlong hparse, Throttle.bits_ofBits_eq]

/-- A buffer with room for a header is refused for its interface only. -/
theorem parse_eq_error_iff (hlong : headerSize ≤ src.length) :
    parse src = .error e ↔
      8 < (src.byteAt 0).toNat % 16 ∧ e = .unknownInterface (codeIn src) := by
  have hroom : ¬ src.length < headerSize := Nat.not_lt.mpr hlong
  rw [← toNat_codeIn, ← Interface.ofCode?_eq_none_iff]
  cases hcode : Interface.ofCode? (codeIn src) with
  | none =>
    rw [parse_of_unknown hroom hcode, Except.error.injEq]
    exact ⟨fun he => ⟨rfl, he.symm⟩, fun he => he.2.symm⟩
  | some i =>
    obtain ⟨h, hparse, -⟩ := parse_of_known hroom hcode
    simp [hparse]

end Header

open Header

/-- Any header, that of a dummy too, is written into any buffer with room for it. It takes the place
of twelve bytes, and is read from them with four bits of its number. A header that was read is
written as the twelve bytes it was read from, but for the throttle byte, which becomes 1 or 0. Only
a first byte whose low four bits name no interface keeps a header from being read. -/
theorem header_reads_back_and_rewrites {src : Bytes} (hlong : headerSize ≤ src.length) :
    (∀ h : Header, ∃ out, h.writeTo? src = some (.ok out) ∧ h.writeTo src = .ok out ∧
      out.length = src.length ∧ out.drop headerSize = src.drop headerSize ∧
      parse out = .ok { h with number := UInt8.ofNat (h.number.toNat % 16) }) ∧
    (∀ h, parse src = .ok h → ∀ dst : Bytes, headerSize ≤ dst.length →
      ∃ out, h.writeTo dst = .ok out ∧ out.take headerSize =
        (src.take headerSize).set 10 (if (src.byteAt 10).toNat % 4 = 1 then 1 else 0)) ∧
    ∀ e, parse src = .error e ↔
      8 < (src.byteAt 0).toNat % 16 ∧ e = .unknownInterface (codeIn src) := by
  refine ⟨fun h => ?_, fun _ hparse _ => rewrites hlong hparse, fun _ => parse_eq_error_iff hlong⟩
  obtain ⟨out, hwrite, hlength, hrest, hread⟩ := h.reads_back hlong
  exact ⟨out, hwrite ▸ h.writeTo?_eq src, hwrite, hlength, hrest, hread⟩

/-- The header of a dummy with a number of more than four bits, a buffer whose throttle byte is 253,
and one whose first byte names no interface. -/
theorem header_reads_back_and_rewrites_small :
    let h : Header := ⟨.filler, 0x2F, .wakeup, 0, 0, 0xBEEF, 0x0203, .on, 7⟩
    let src : Bytes := [0x98, 2, 0, 0, 12, 0, 1, 2, 3, 4, 0xFD, 9, 0xAA, 0xBB]
    let bad : Bytes := [0x29, 2, 0, 0, 12, 0, 1, 2, 3, 4, 0xFD, 9]
    headerSize ≤ src.length ∧
      (∃ out, h.writeTo src = .ok out ∧ out.drop 12 = [0xAA, 0xBB] ∧
        parse out = .ok { h with number := 0x0F }) ∧
      (∃ found out, parse src = .ok found ∧ found.writeTo bad = .ok out ∧
        out.take 12 = [0x98, 2, 0, 0, 12, 0, 1, 2, 3, 4, 1, 9]) ∧
      parse bad = .error (.unknownInterface 9) := by
  intro h src bad
  have hlong : headerSize ≤ src.length := by decide
  have hlong' : headerSize ≤ bad.length := by decide
  have hparse : parse src = .ok ⟨.filler, 9, .wakeup, 0, 12, 0x0201, 0x0403, .on, 9⟩ := by decide
  obtain ⟨hwrites, hrewrites, -⟩ := header_reads_back_and_rewrites hlong
  obtain ⟨-, -, hrefuses⟩ := header_reads_back_and_rewrites hlong'
  obtain ⟨written, -, hwrite, -, hrest, hread⟩ := hwrites h
  obtain ⟨out, hagain, hfront⟩ := hrewrites _ hparse bad hlong'
  have hnumber : UInt8.ofNat (h.number.toNat % 16) = 0x0F := by decide
  have hbytes : (src.take headerSize).set 10 (if (src.byteAt 10).toNat % 4 = 1 then 1 else 0) =
      [0x98, 2, 0, 0, 12, 0, 1, 2, 3, 4, 1, 9] := by decide
  rw [hnumber] at hread
  rw [hbytes] at hfront
  exact ⟨hlong, ⟨written, hwrite, hrest, hread⟩, ⟨_, out, hparse, hagain, hfront⟩,
    (hrefuses _).mpr (by decide)⟩

end SlaveLink
