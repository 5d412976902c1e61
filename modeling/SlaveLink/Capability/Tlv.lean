import SlaveLink.Bytes

/-! # Tagged entries
A list of entries, each a tag byte, a length byte and that many bytes of value. Splitting a byte
string yields its leading entries and the tail that is no whole entry; entries and tail together are
the string again. -/

namespace SlaveLink

structure Tlv where
  tag : UInt8
  value : Bytes
deriving DecidableEq, Repr

namespace Tlv

def encode (t : Tlv) : Bytes := t.tag :: UInt8.ofNat t.value.length :: t.value

/-- The entry at the front and what follows it. -/
def head? : Bytes → Option (Tlv × Bytes)
  | tag :: length :: rest =>
    if length.toNat ≤ rest.length then
      some (⟨tag, rest.take length.toNat⟩, rest.drop length.toNat)
    else none
  | _ => none

theorem length_lt_of_head? {data rest : Bytes} {t : Tlv} (h : head? data = some (t, rest)) :
    rest.length < data.length := by
  match data with
  | [] => simp [head?] at h
  | [_] => simp [head?] at h
  | tag :: length :: tail =>
    simp only [head?, Option.ite_none_right_eq_some, Option.some.injEq, Prod.mk.injEq] at h
    obtain ⟨_, _, rfl⟩ := h
    simp only [List.length_drop, List.length_cons]
    omega

theorem eq_append_of_head? {data rest : Bytes} {t : Tlv} (h : head? data = some (t, rest)) :
    data = t.encode ++ rest := by
  match data with
  | [] => simp [head?] at h
  | [_] => simp [head?] at h
  | tag :: length :: tail =>
    simp only [head?, Option.ite_none_right_eq_some, Option.some.injEq, Prod.mk.injEq] at h
    obtain ⟨hle, rfl, rfl⟩ := h
    simp [encode, Nat.min_eq_left hle]

/-- The leading whole entries, and the tail after them. -/
def split (data : Bytes) : List Tlv × Bytes :=
  match h : head? data with
  | none => ([], data)
  | some (t, rest) =>
    have := length_lt_of_head? h
    let (ts, tail) := split rest
    (t :: ts, tail)
termination_by data.length

end Tlv
end SlaveLink
