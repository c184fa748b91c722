import Mathlib.Data.List.Basic

/-!
# Text and its bytes

A text is a list of characters, and its bytes are their encodings one after the other.
Every byte of a character outside ASCII is outside ASCII, so a byte that is found to be
ASCII is a character of its own, and the text can be cut on both sides of it
(`exists_of_encode_eq`).
-/

namespace Utf8

open List

/-- A text as its bytes. -/
def encode (text : List Char) : List UInt8 := text.flatMap String.utf8EncodeChar

@[simp] theorem encode_nil : encode [] = [] := rfl

variable {c : Char} {text : List Char}

@[simp] theorem encode_cons :
    encode (c :: text) = String.utf8EncodeChar c ++ encode text := rfl

@[simp] theorem encode_append {text' : List Char} :
    encode (text ++ text') = encode text ++ encode text' := flatMap_append

theorem utf8EncodeChar_of_ascii (ascii : c.toNat < 128) :
    String.utf8EncodeChar c = [UInt8.ofNat c.toNat] :=
  if_pos (Nat.lt_succ_iff.1 ascii)

theorem le_of_mem_utf8EncodeChar (other : 128 ≤ c.toNat) {b : UInt8}
    (mem : b ∈ String.utf8EncodeChar c) : 128 ≤ b.toNat := by
  have at_least : ∀ n, 128 ≤ n → n < 256 → 128 ≤ (UInt8.ofNat n).toNat := by
    intro _ low high
    rw [UInt8.toNat_ofNat_of_lt' high]
    exact low
  have not : ¬c.val.toNat ≤ 127 := by
    have : 128 ≤ c.val.toNat := other
    omega
  unfold String.utf8EncodeChar at mem
  rw [if_neg not] at mem
  split at mem
  · simp only [mem_cons, not_mem_nil, or_false] at mem
    rcases mem with rfl | rfl <;> exact at_least _ (by omega) (by omega)
  split at mem
  · simp only [mem_cons, not_mem_nil, or_false] at mem
    rcases mem with rfl | rfl | rfl <;> exact at_least _ (by omega) (by omega)
  simp only [mem_cons, not_mem_nil, or_false] at mem
  rcases mem with rfl | rfl | rfl | rfl <;> exact at_least _ (by omega) (by omega)

/-- **A byte that is ASCII is a character.** -/
theorem exists_of_encode_eq {before after : List UInt8} {b : UInt8} (ascii : b.toNat < 128)
    (is : encode text = before ++ b :: after) :
    ∃ left c right, text = left ++ c :: right ∧ encode left = before ∧ encode right = after ∧
      String.utf8EncodeChar c = [b] := by
  induction text generalizing before with
  | nil => simp at is
  | cons c text ih =>
    rw [encode_cons] at is
    by_cases own : c.toNat < 128
    · have one := utf8EncodeChar_of_ascii own
      cases before with
      | nil =>
        rw [one, nil_append, singleton_append, cons.injEq] at is
        exact ⟨[], c, text, rfl, rfl, is.2, one.trans (by rw [is.1])⟩
      | cons =>
        rw [one, singleton_append, cons_append, cons.injEq] at is
        obtain ⟨left, d, right, rfl, rfl, rfl, its⟩ := ih is.2
        refine ⟨c :: left, d, right, rfl, ?_, rfl, its⟩
        rw [encode_cons, one, is.1]
        rfl
    -- The byte is not one of the character's.
    rcases append_eq_append_iff.1 is with ⟨rest, rfl, tail⟩ | ⟨rest, whole, tail⟩
    · obtain ⟨left, d, right, rfl, rfl, rfl, its⟩ := ih tail
      exact ⟨c :: left, d, right, rfl, rfl, rfl, its⟩
    cases rest with
    | nil =>
      rw [append_nil] at whole
      obtain ⟨left, d, right, rfl, none, rfl, its⟩ :=
        ih (tail.symm.trans (nil_append _).symm)
      exact ⟨c :: left, d, right, rfl, by rw [encode_cons, none, whole, append_nil],
        rfl, its⟩
    | cons =>
      obtain ⟨rfl, -⟩ := cons.inj tail
      have mem : b ∈ String.utf8EncodeChar c := by simp [whole]
      exact absurd (le_of_mem_utf8EncodeChar (Nat.le_of_not_lt own) mem) (by omega)

/-- A text is cut at a byte offset; there is no result if that is not between two characters. -/
def split : List Char → ℕ → Option (List Char × List Char)
  | text, 0 => some ([], text)
  | [], _ + 1 => none
  | c :: text, n + 1 =>
    if c.utf8Size ≤ n + 1 then
      (split text (n + 1 - c.utf8Size)).map fun both => (c :: both.1, both.2)
    else none

theorem split_encode {left right : List Char} :
    split (left ++ right) (encode left).length = some (left, right) := by
  induction left with
  | nil =>
    cases right <;> rfl
  | cons c left ih =>
    have length : (encode (c :: left)).length = c.utf8Size + (encode left).length := by
      rw [encode_cons, length_append, String.length_utf8EncodeChar]
    obtain ⟨n, is⟩ : ∃ n, (encode (c :: left)).length = n + 1 :=
      Nat.exists_eq_succ_of_ne_zero (by have := c.utf8Size_pos; omega)
    have rest : n + 1 - c.utf8Size = (encode left).length := by omega
    rw [is, cons_append, split, if_pos (by omega), rest, ih]
    rfl

end Utf8
