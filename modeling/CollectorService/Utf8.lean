import Mathlib.Data.List.Basic
import Mathlib.Tactic.Common

/-!
# UTF-8

The byte strings that encode characters. A byte below 128 is a character of its own, so a text can
be taken apart at every such byte.

* `append_ascii_iff`: the parts in front of and behind such a byte.
-/

/-- The string encodes a list of characters. -/
def IsUtf8 (s : List UInt8) : Prop := ∃ chars : List Char, s = chars.flatMap String.utf8EncodeChar

namespace IsUtf8

variable {s t : List UInt8} {b : UInt8}

theorem nil : IsUtf8 [] := ⟨[], rfl⟩

theorem append (hs : IsUtf8 s) (ht : IsUtf8 t) : IsUtf8 (s ++ t) := by
  obtain ⟨cs, rfl⟩ := hs
  obtain ⟨ds, rfl⟩ := ht
  exact ⟨cs ++ ds, (List.flatMap_append ..).symm⟩

/-- A byte below 128 in the encoding of a character is all of it. -/
theorem encodeChar_eq_singleton {c : Char} (hb : b ∈ String.utf8EncodeChar c) (hlow : b < 128) :
    String.utf8EncodeChar c = [b] := by
  have hhigh (n : ℕ) (h : 128 ≤ n) (h' : n < 256) : ¬ UInt8.ofNat n < 128 := by
    rw [UInt8.lt_iff_toNat_lt, UInt8.toNat_ofNat_of_lt' h']
    exact Nat.not_lt.mpr h
  unfold String.utf8EncodeChar at hb ⊢
  dsimp only at hb ⊢
  split at hb
  · next hascii =>
    rw [if_pos hascii, List.mem_singleton.mp hb]
  · -- the bytes of the longer encodings have the high bit
    exfalso
    split at hb
    · rcases List.mem_cons.mp hb with rfl | hb
      · exact hhigh _ (by omega) (by omega) hlow
      · rw [List.mem_singleton.mp hb] at hlow
        exact hhigh _ (by omega) (by omega) hlow
    split at hb
    · simp only [List.mem_cons, List.not_mem_nil, or_false] at hb
      rcases hb with rfl | rfl | rfl <;> exact hhigh _ (by omega) (by omega) hlow
    · simp only [List.mem_cons, List.not_mem_nil, or_false] at hb
      rcases hb with rfl | rfl | rfl | rfl <;> exact hhigh _ (by omega) (by omega) hlow

theorem singleton (hlow : b < 128) : IsUtf8 [b] := by
  refine ⟨[Char.ofNat b.toNat], ?_⟩
  have hn : b.toNat < 128 := UInt8.lt_iff_toNat_lt.mp hlow
  have hval : (Char.ofNat b.toNat).val.toNat = b.toNat := by
    have hvalid : b.toNat.isValidChar := .inl (by omega)
    rw [Char.ofNat, dif_pos hvalid]
    rfl
  rw [List.flatMap_cons, List.flatMap_nil, List.append_nil, String.utf8EncodeChar, hval,
    if_pos (by omega), UInt8.ofNat_toNat]

theorem of_ascii (h : ∀ b ∈ s, b < 128) : IsUtf8 s := by
  induction s with
  | nil => exact nil
  | cons b s ih =>
    obtain ⟨hb, hs⟩ := List.forall_mem_cons.mp h
    exact append (singleton hb) (ih hs)

theorem append_ascii (hlow : b < 128) (h : IsUtf8 (s ++ b :: t)) : IsUtf8 s ∧ IsUtf8 t := by
  obtain ⟨chars, h⟩ := h
  induction chars generalizing s with
  | nil => simp at h
  | cons c chars ih =>
    rw [List.flatMap_cons] at h
    rcases List.append_eq_append_iff.mp h with ⟨rest, hc, hrest⟩ | ⟨rest, hs, hrest⟩
    · -- the byte is in the encoding of the first character, or behind it
      cases rest with
      | nil =>
        rw [List.append_nil] at hc
        have ht := @ih [] hrest
        exact ⟨⟨[c], by simp [hc]⟩, ht.2⟩
      | cons x rest =>
        obtain ⟨rfl, htail⟩ := List.cons.inj hrest
        have hsingle := encodeChar_eq_singleton (hc ▸ List.mem_append_right s List.mem_cons_self) hlow
        rw [hsingle] at hc
        have hlength := congrArg List.length hc
        have hs : s = [] := List.length_eq_zero_iff.mp (by simp at hlength; omega)
        have hempty : rest = [] := List.length_eq_zero_iff.mp (by simp at hlength; omega)
        subst hs hempty
        exact ⟨nil, chars, htail⟩
    · obtain ⟨hrest', ht⟩ := ih hrest.symm
      exact ⟨hs ▸ append ⟨[c], by simp⟩ hrest', ht⟩

theorem append_ascii_iff (hlow : b < 128) : IsUtf8 (s ++ b :: t) ↔ IsUtf8 s ∧ IsUtf8 t :=
  ⟨append_ascii hlow, fun h => h.1.append ((singleton hlow).append h.2)⟩

theorem cons_ascii_iff (hlow : b < 128) : IsUtf8 (b :: t) ↔ IsUtf8 t :=
  ⟨fun h => (append_ascii (s := []) hlow h).2, fun h => (singleton hlow).append h⟩

end IsUtf8
