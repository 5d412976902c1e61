import Mathlib.Data.List.Basic
import SlaveLink.Proofs.Capability.Acceptance

/-! # Going through the entries one by one
An iterator over a byte string remembers what it has not read yet. Each call takes one entry off
the front, and a string that is no whole entry is given up with an error, so that the error comes
once. The entries and the tail it stopped at are the byte string again. -/

namespace SlaveLink.Tlv

/-- A piece of an entry: it ends behind the tag, or before the value does. -/
inductive Cut : Bytes → Prop
  | tag (tag : UInt8) : Cut [tag]
  | value (tag length : UInt8) (value : Bytes) (short : value.length < length.toNat) :
      Cut (tag :: length :: value)

def next (data : Bytes) : Option (Except EventError Tlv) × Bytes :=
  match data with
  | [] => (none, [])
  | _ :: _ =>
    match head? data with
    | some (t, rest) => (some (.ok t), rest)
    | none => (some (.error (.entryTruncated data.length)), [])

def calls : Nat → Bytes → List (Option (Except EventError Tlv))
  | 0, _ => []
  | n + 1, data => (next data).1 :: calls n (next data).2

def answers (ts : List Tlv) (tail : Bytes) : List (Except EventError Tlv) :=
  ts.map .ok ++ if tail = [] then [] else [.error (.entryTruncated tail.length)]

structure Iterates (data : Bytes) (ts : List Tlv) (tail : Bytes) : Prop where
  /-- No byte is skipped or read twice. -/
  whole : data = ts.flatMap encode ++ tail
  short : ∀ t ∈ ts, t.value.length ≤ 255
  left : tail = [] ∨ Cut tail
  /-- However often it is called, it yields the answers in turn and nothing after them. -/
  yields : ∀ n, calls n data =
    ((answers ts tail).map some).take n ++ List.replicate (n - (answers ts tail).length) none

variable {t : Tlv} {ts : List Tlv} {data rest tail : Bytes}

theorem next_nil : next [] = (none, []) := rfl

theorem ne_nil_of_head? (h : head? data = some (t, rest)) : data ≠ [] := by
  rintro rfl
  cases h

theorem next_of_head? (h : head? data = some (t, rest)) : next data = (some (.ok t), rest) := by
  obtain ⟨b, bs, rfl⟩ := List.exists_cons_of_ne_nil (ne_nil_of_head? h)
  simp only [next, h]

theorem next_of_none (hne : data ≠ []) (h : head? data = none) :
    next data = (some (.error (.entryTruncated data.length)), []) := by
  obtain ⟨b, bs, rfl⟩ := List.exists_cons_of_ne_nil hne
  simp only [next, h]

/-- Nothing comes after the end. -/
theorem calls_nil (n : Nat) : calls n [] = List.replicate n none := by
  induction n with
  | zero => rfl
  | succ n ih => rw [calls, next_nil, ih, List.replicate_succ]

theorem answers_cons : answers (t :: ts) tail = .ok t :: answers ts tail := rfl

/-- The calls go through the string as it is split. -/
theorem calls_eq (n : Nat) (data : Bytes) :
    calls n data = ((answers (split data).1 (split data).2).map some).take n ++
      List.replicate (n - (answers (split data).1 (split data).2).length) none := by
  induction n generalizing data with
  | zero => rw [Nat.zero_sub]; rfl
  | succ n ih =>
    cases h : head? data with
    | some p =>
      obtain ⟨t, rest⟩ := p
      rw [calls, next_of_head? h, ih rest, split_of_head? h, answers_cons]
      simp only [List.map_cons, List.take_succ_cons, List.length_cons, Nat.add_sub_add_right,
        List.cons_append]
    | none =>
      rw [split_of_none h]
      by_cases hne : data = []
      · subst hne
        exact calls_nil (n + 1)
      · rw [calls, next_of_none hne h, calls_nil]
        simp [answers, hne]

/-- Where an entry does not begin, there is nothing or a piece of one. -/
theorem head?_eq_none_iff : head? data = none ↔ data = [] ∨ Cut data := by
  constructor
  · intro h
    match data with
    | [] => exact .inl rfl
    | [tag] => exact .inr (.tag tag)
    | tag :: length :: value =>
      have hshort : ¬ length.toNat ≤ value.length := by
        intro hle
        simp [head?, hle] at h
      exact .inr (.value tag length value (by omega))
  · rintro (rfl | ⟨⟩ | ⟨tag, length, value, hshort⟩)
    · rfl
    · rfl
    · exact if_neg (by omega)

theorem length_le_of_head? (h : head? data = some (t, rest)) : t.value.length ≤ 255 := by
  obtain ⟨length, hlength, -⟩ := head?_eq_some_iff.1 h
  have hlt := length.toNat_lt
  omega

/-- Splitting loses nothing, and it goes as far as there are whole entries. -/
theorem split_eq (data : Bytes) :
    data = (split data).1.flatMap encode ++ (split data).2 ∧
      (∀ t ∈ (split data).1, t.value.length ≤ 255) ∧
      ((split data).2 = [] ∨ Cut (split data).2) := by
  induction data using split.induct with
  | case1 data hnone =>
    rw [split_of_none hnone]
    exact ⟨rfl, List.forall_mem_nil _, head?_eq_none_iff.1 hnone⟩
  | case2 data t rest hsome _ _ _ _ ih =>
    obtain ⟨hwhole, hshort, hleft⟩ := ih
    rw [split_of_head? hsome]
    refine ⟨?_, List.forall_mem_cons.2 ⟨length_le_of_head? hsome, hshort⟩, hleft⟩
    rw [List.flatMap_cons, List.append_assoc, ← hwhole]
    exact eq_append_of_head? hsome

theorem iterates_split (data : Bytes) : Iterates data (split data).1 (split data).2 where
  whole := (split_eq data).1
  short := (split_eq data).2.1
  left := (split_eq data).2.2
  yields n := calls_eq n data

/-- Every byte string is gone through to its end without a loss, and a string of entries yields
just these entries. -/
theorem iterates (data : Bytes) :
    Iterates data (split data).1 (split data).2 ∧
      ∀ ts : List Tlv, (∀ t ∈ ts, t.value.length ≤ 255) → Iterates (ts.flatMap encode) ts [] := by
  refine ⟨iterates_split data, fun ts hshort => ?_⟩
  have hsplit := split_flatMap_encode fun t ht => Nat.lt_succ_of_le (hshort t ht)
  have hiterates := iterates_split (ts.flatMap encode)
  rwa [hsplit] at hiterates

/-- An empty value, a whole one, and a third that lacks a byte. -/
theorem iterates_small :
    calls 5 [1, 0, 2, 1, 7, 3, 2, 9] =
        [some (.ok ⟨1, []⟩), some (.ok ⟨2, [7]⟩), some (.error (.entryTruncated 3)), none, none] ∧
      calls 3 (encode ⟨1, []⟩ ++ encode ⟨2, [7]⟩) =
        [some (.ok ⟨1, []⟩), some (.ok ⟨2, [7]⟩), none] := by
  have hsplit : split [1, 0, 2, 1, 7, 3, 2, 9] = ([⟨1, []⟩, ⟨2, [7]⟩], [3, 2, 9]) := by cbv
  obtain ⟨hcut, hentries⟩ := iterates [1, 0, 2, 1, 7, 3, 2, 9]
  have hlist := hentries [⟨1, []⟩, ⟨2, [7]⟩] (by decide)
  rw [hsplit] at hcut
  exact ⟨hcut.yields 5, hlist.yields 3⟩

end SlaveLink.Tlv
