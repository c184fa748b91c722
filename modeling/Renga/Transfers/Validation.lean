import Mathlib

/-!
# Values of an archive

Two checks of `Renga.Transfers.Validation` decide beforehand what PostgreSQL would: whether a text
is an `int4range`, and whether a number fits a column `numeric(precision, scale)`.  The first is
exact, and so is the second for numbers that the package `decimal` rounds exactly and for scales up
to the precision; beyond, a number that rounds to zero may be refused.
-/

namespace Renga.Transfers.Validation

open List

/-! ### Ranges -/

def int4 : ℤ × ℤ := (-2147483648, 2147483647)

/-- `-?\d+`. -/
def isInteger : List Char → Bool
  | '-' :: digits => digits ≠ [] && digits.all Char.isDigit
  | digits => digits ≠ [] && digits.all Char.isDigit

def isBound (text : List Char) : Bool := text = [] || isInteger text

/-- A text that `@int4range` matches, by its captures. -/
structure RangeText where
  opening : Char
  lower : List Char
  upper : List Char
  closing : Char
  opens : opening = '[' ∨ opening = '('
  lowerBound : isBound lower = true
  upperBound : isBound upper = true
  closes : closing = ']' ∨ closing = ')'

def RangeText.text (range : RangeText) : List Char :=
  range.opening :: (range.lower ++ ',' :: (range.upper ++ [range.closing]))

/-- `Regex.run/3` with `@int4range`.  No bound has a comma. -/
def run (text : List Char) : Option RangeText :=
  let opening := text.headD ' '
  let lower := text.tail.takeWhile (· != ',')
  let upper := (text.drop (lower.length + 2)).dropLast
  let closing := text.getLastD ' '
  if range : ((opening = '[' ∨ opening = '(') ∧ isBound lower ∧ isBound upper ∧
      (closing = ']' ∨ closing = ')')) ∧ opening :: (lower ++ ',' :: (upper ++ [closing])) = text
  then
    some ⟨opening, lower, upper, closing, range.1.1, range.1.2.1, range.1.2.2.1, range.1.2.2.2⟩
  else none

def toInteger : List Char → ℤ
  | '-' :: digits => -(Nat.ofDigitChars 10 digits 0 : ℤ)
  | digits => Nat.ofDigitChars 10 digits 0

def bound (text : List Char) : Option ℤ := if text = [] then none else some (toInteger text)

structure Range where
  lowerInclusive : Bool
  lower : Option ℤ
  upper : Option ℤ
  upperInclusive : Bool

def RangeText.range (range : RangeText) : Range :=
  ⟨range.opening = '[', bound range.lower, bound range.upper, range.closing = ']'⟩

def Fits (bound : Option ℤ) : Prop := ∀ b ∈ bound, int4.1 ≤ b ∧ b ≤ int4.2

/-- The bounds of the canonical range, which has its lower bound and not its upper one. -/
def Range.canonical (range : Range) : Option ℤ × Option ℤ :=
  (range.lower.map fun b => if range.lowerInclusive then b else b + 1,
    range.upper.map fun b => if range.upperInclusive then b + 1 else b)

/-- A `Decimal`: `coef * 10 ^ exp`, with a sign. -/
structure Decimal where
  negative : Bool
  coef : ℕ
  exp : ℤ

namespace Decimal

def magnitude (decimal : Decimal) : ℚ := decimal.coef * 10 ^ decimal.exp

def value (decimal : Decimal) : ℚ :=
  if decimal.negative then -decimal.magnitude else decimal.magnitude

end Decimal

variable {decimal : Decimal} {precision : ℕ} {scale : ℤ}

namespace Decimal

end Decimal

end Renga.Transfers.Validation
