import SlaveLink.Bytes

/-! # Firmware versions
Three numbers, packed into the low 24 bits of a word. -/

namespace SlaveLink

structure FirmwareVersion where
  major : UInt8
  minor : UInt8
  patch : UInt8
deriving DecidableEq, Repr, Inhabited

namespace FirmwareVersion

def packed (v : FirmwareVersion) : UInt32 :=
  UInt32.ofNat (v.major.toNat * 65536 + v.minor.toNat * 256 + v.patch.toNat)

/-- The top byte of the word is ignored. -/
def ofPacked (word : UInt32) : FirmwareVersion :=
  ⟨UInt8.ofNat (word.toNat / 65536), UInt8.ofNat (word.toNat / 256), UInt8.ofNat word.toNat⟩

def text (v : FirmwareVersion) : String := s!"{v.major}.{v.minor}.{v.patch}"

theorem ofPacked_packed (v : FirmwareVersion) : ofPacked v.packed = v := by
  obtain ⟨a, b, c⟩ := v
  have ha := a.toNat_lt
  have hb := b.toNat_lt
  have hc := c.toNat_lt
  simp only [ofPacked, packed, UInt32.toNat_ofNat', mk.injEq]
  refine ⟨?_, ?_, ?_⟩ <;> apply UInt8.toNat_inj.mp <;> simp only [UInt8.toNat_ofNat'] <;> omega

end FirmwareVersion
end SlaveLink
