import Mathlib

/-!
# Decimal text of a fixed width

`padded width n` is `n` in decimal, filled up with zeros from the left, and `value?` reads a
text of digits.  A number with at most `width` digits takes exactly `width` characters, is
read back from them, and is the only reading of them; texts of one width are ordered as the
numbers are.
-/

namespace Decimal

open List

/-- The digits of `n`, with zeros before them up to the width. -/
def padded (width n : ℕ) : List Char :=
  replicate (width - (Nat.toDigits 10 n).length) '0' ++ Nat.toDigits 10 n

/-- The number a text of digits stands for. -/
def value? (text : List Char) : Option ℕ :=
  if text ≠ [] ∧ text.all Char.isDigit then some (Nat.ofDigitChars 10 text 0) else none

variable {width n : ℕ}

theorem isDigit_of_mem_padded {c : Char} (member : c ∈ padded width n) : c.isDigit := by
  rcases mem_append.1 member with zero | digit
  · rw [eq_of_mem_replicate zero]
    decide
  · exact Nat.isDigit_of_mem_toDigits (by decide) (by decide) digit

theorem length_padded (positive : 0 < width) (fits : n < 10 ^ width) :
    (padded width n).length = width := by
  have short : (Nat.toDigits 10 n).length ≤ width :=
    (Nat.length_toDigits_le_iff (by decide) positive).2 fits
  rw [padded, length_append, length_replicate]
  omega

theorem value?_padded : value? (padded width n) = some n := by
  have nonempty : padded width n ≠ [] := by
    intro empty
    exact Nat.toDigits_ne_nil (append_eq_nil_iff.1 empty).2
  have digits : (padded width n).all Char.isDigit = true :=
    all_eq_true.2 fun _ member => isDigit_of_mem_padded member
  rw [value?, if_pos ⟨nonempty, digits⟩, padded, Nat.ofDigitChars_append,
    Nat.ofDigitChars_replicate_zero, Nat.mul_zero, Nat.ofDigitChars_ten_toDigits]

theorem padded_eq_cons (width n : ℕ) : ∃ c cs, padded width n = c :: cs ∧ c.isDigit := by
  cases text : padded width n with
  | nil => exact absurd (append_eq_nil_iff.1 text).2 Nat.toDigits_ne_nil
  | cons c cs =>
    have member : c ∈ padded width n := by
      rw [text]
      exact mem_cons_self
    exact ⟨c, cs, rfl, isDigit_of_mem_padded member⟩

theorem digit_bounds {c : Char} (digit : c.isDigit) : 48 ≤ c.toNat ∧ c.toNat ≤ 57 := by
  simpa [Char.isDigit, UInt32.le_iff_toNat_le] using digit

theorem value_cons (c : Char) (cs : List Char) : Nat.ofDigitChars 10 (c :: cs) 0
    = 10 ^ cs.length * (c.toNat - 48) + Nat.ofDigitChars 10 cs 0 := by
  rw [Nat.ofDigitChars_cons, Nat.ofDigitChars_eq_ofDigitChars_zero, Nat.mul_zero, Nat.zero_add]
  rfl

variable {text : List Char}

theorem value_lt (digits : ∀ c ∈ text, c.isDigit) :
    Nat.ofDigitChars 10 text 0 < 10 ^ text.length := by
  induction text with
  | nil => decide
  | cons c cs ih =>
    obtain ⟨digit, others⟩ := forall_mem_cons.1 digits
    have rest := ih others
    have bound := (digit_bounds digit).2
    rw [value_cons, length_cons, pow_succ]
    calc 10 ^ cs.length * (c.toNat - 48) + Nat.ofDigitChars 10 cs 0
        < 10 ^ cs.length * (c.toNat - 48) + 10 ^ cs.length := Nat.add_lt_add_left rest _
      _ = 10 ^ cs.length * (c.toNat - 48 + 1) := rfl
      _ ≤ 10 ^ cs.length * 10 := Nat.mul_le_mul_left _ (by omega)

variable {a b : List Char}

/-- Texts of digits of one length are ordered as their values are. -/
theorem value_lt_value (same : a.length = b.length) (digits : ∀ c ∈ a, c.isDigit)
    (digits' : ∀ c ∈ b, c.isDigit) (less : a < b) :
    Nat.ofDigitChars 10 a 0 < Nat.ofDigitChars 10 b 0 := by
  induction a generalizing b with
  | nil =>
    cases length_eq_zero_iff.1 same.symm
    exact absurd less (lt_irrefl _)
  | cons c cs ih =>
    obtain ⟨d, ds, rfl⟩ := exists_cons_of_length_eq_add_one same.symm
    obtain ⟨digit, others⟩ := forall_mem_cons.1 digits
    obtain ⟨digit', others'⟩ := forall_mem_cons.1 digits'
    have size : cs.length = ds.length := Nat.succ.inj same
    rw [value_cons, value_cons, size]
    rcases cons_lt_cons_iff.1 less with smaller | ⟨rfl, smaller⟩
    · have step : c.toNat - 48 + 1 ≤ d.toNat - 48 := by
        have := (digit_bounds digit).1
        have : c.toNat < d.toNat := smaller
        omega
      calc 10 ^ ds.length * (c.toNat - 48) + Nat.ofDigitChars 10 cs 0
          < 10 ^ ds.length * (c.toNat - 48) + 10 ^ ds.length :=
            Nat.add_lt_add_left (size ▸ value_lt others) _
        _ = 10 ^ ds.length * (c.toNat - 48 + 1) := rfl
        _ ≤ 10 ^ ds.length * (d.toNat - 48) := Nat.mul_le_mul_left _ step
        _ ≤ _ := Nat.le_add_right _ _
    · exact Nat.add_lt_add_left (ih size others others' smaller) _

theorem value?_eq_some (read : value? text = some n) :
    text ≠ [] ∧ (∀ c ∈ text, c.isDigit) ∧ Nat.ofDigitChars 10 text 0 = n := by
  unfold value? at read
  split at read
  · rename_i digits
    exact ⟨digits.1, all_eq_true.1 digits.2, Option.some.inj read⟩
  · cases read

theorem value_padded (width n : ℕ) : Nat.ofDigitChars 10 (padded width n) 0 = n :=
  (value?_eq_some value?_padded).2.2

theorem padded_lt_padded {m : ℕ} (positive : 0 < width) (less : m < n) (fits : n < 10 ^ width) :
    padded width m < padded width n := by
  have same : (padded width n).length = (padded width m).length := by
    rw [length_padded positive fits, length_padded positive (less.trans fits)]
  by_contra other
  rcases (not_lt.1 other).lt_or_eq with greater | equal
  · have values := value_lt_value same (fun _ => isDigit_of_mem_padded)
      (fun _ => isDigit_of_mem_padded) greater
    rw [value_padded, value_padded] at values
    exact values.not_gt less
  · have value := value_padded width n
    rw [equal, value_padded] at value
    exact less.ne value

/-- A text of digits is its value, filled up to the length of the text. -/
theorem padded_of_value? (read : value? text = some n) :
    n < 10 ^ text.length ∧ padded text.length n = text := by
  obtain ⟨nonempty, digits, rfl⟩ := value?_eq_some read
  have fits := value_lt digits
  have same := length_padded (length_pos_iff.2 nonempty) fits
  have value := value_padded text.length (Nat.ofDigitChars 10 text 0)
  refine ⟨fits, ?_⟩
  rcases lt_trichotomy (padded text.length (Nat.ofDigitChars 10 text 0)) text with
    less | equal | greater
  · exact absurd value (value_lt_value same (fun _ => isDigit_of_mem_padded) digits less).ne
  · exact equal
  · exact absurd value
      (value_lt_value same.symm digits (fun _ => isDigit_of_mem_padded) greater).ne'

theorem append_lt_append (same : a.length = b.length) (less : a < b) (x y : List Char) :
    a ++ x < b ++ y := by
  induction a generalizing b with
  | nil =>
    cases length_eq_zero_iff.1 same.symm
    exact absurd less (lt_irrefl _)
  | cons _ _ ih =>
    obtain ⟨d, ds, rfl⟩ := exists_cons_of_length_eq_add_one same.symm
    rw [cons_append, cons_append, cons_lt_cons_iff]
    exact (cons_lt_cons_iff.1 less).imp_right fun ⟨head, tail⟩ =>
      ⟨head, ih (Nat.succ.inj same) tail⟩

end Decimal
