import Mathlib.Data.List.Basic
import Mathlib.Data.List.TakeWhile

/-!
# How SQLite reads a text

The tokens of a text, as SQLite's tokenizer finds them.  The bytes of the tokens are the bytes of
the text; what is not a token is an operator of one byte here.  In single quotes, double quotes
and backticks a quote is escaped by doubling it; in brackets and in a blob literal there is no
escape.
-/

namespace Sqlite

open List

inductive Kind where
  | space
  | comment
  | quoted
  | semicolon
  | parameter
  | number
  | word
  | operator
  deriving DecidableEq

structure Token where
  kind : Kind
  text : List UInt8
  deriving DecidableEq

/-- Tokens the parser skips. -/
def Token.blank (token : Token) : Bool := token.kind = .space ∨ token.kind = .comment

/-- Whether a token begins with the letters of a word, in any case. -/
def Token.startsWith (token : Token) (word : String) : Bool :=
  (token.text.take word.length).map (fun b => (Char.ofUInt8 b).toUpper) = word.toList

def isOf (chars : String) (b : UInt8) : Bool := chars.toList.any (·.toUInt8 = b)

variable (b : UInt8) (l : List UInt8)

def isSpace : Bool := isOf " \t\n\x0c\r" b

def isQuote : Bool := isOf "'\"`" b

def isParameter : Bool := isOf "?:@$#" b

def isDigit : Bool := '0'.toUInt8 ≤ b && b ≤ '9'.toUInt8

def isLetter : Bool :=
  ('a'.toUInt8 ≤ b && b ≤ 'z'.toUInt8) || ('A'.toUInt8 ≤ b && b ≤ 'Z'.toUInt8)

/-- What a name may have.  All bytes outside ASCII count as letters. -/
def isIdChar : Bool := isLetter b || isDigit b || isOf "_$" b || 128 ≤ b

/-- A list through the first occurrence of a terminator, and the rest; all of it if there is
none. -/
def through {α : Type*} [DecidableEq α] (terminator : List α) : List α → List α × List α
  | [] => ([], [])
  | b :: l =>
    if terminator.isPrefixOf (b :: l) then (terminator, (b :: l).drop terminator.length)
    else (b :: (through terminator l).1, (through terminator l).2)

/-- The rest of a quoted text, and what comes after it. -/
def throughQuote (quote : UInt8) : List UInt8 → List UInt8 × List UInt8
  | [] => ([], [])
  | [b] => ([b], [])
  | b :: c :: l =>
    if b = quote then
      if c = quote then (b :: c :: (throughQuote quote l).1, (throughQuote quote l).2)
      else ([b], c :: l)
    else (b :: (throughQuote quote (c :: l)).1, (throughQuote quote (c :: l)).2)

def run (p : UInt8 → Bool) (l : List UInt8) : List UInt8 × List UInt8 :=
  (l.takeWhile p, l.dropWhile p)

/-- At most one byte with `p`. -/
def perhaps (p : UInt8 → Bool) : List UInt8 → List UInt8 × List UInt8
  | [] => ([], [])
  | b :: l => if p b then ([b], l) else ([], b :: l)

/-- The rest of a parameter: a name with `::` in it, and what is in brackets behind it. -/
def throughParameter : ℕ → List UInt8 → List UInt8 × List UInt8
  | 0, l => ([], l)
  | _ + 1, [] => ([], [])
  | n + 1, b :: l =>
    if isIdChar b then (b :: (throughParameter n l).1, (throughParameter n l).2)
    else if b = '('.toUInt8 then (b :: (through [')'.toUInt8] l).1, (through [')'.toUInt8] l).2)
    else if b = ':'.toUInt8 ∧ l.head? = some ':'.toUInt8 then
      (b :: ':'.toUInt8 :: (throughParameter n l.tail).1, (throughParameter n l.tail).2)
    else ([], b :: l)

def isExponent : List UInt8 → Bool
  | e :: s :: l => isOf "eE" e && (isDigit s || (isOf "+-" s && (l.head?.any isDigit)))
  | _ => false

/-- The exponent of a number: its letter, its sign and its digits. -/
def exponent : List UInt8 × List UInt8 :=
  if isExponent l then
    (l.take 2 ++ (l.drop 2).takeWhile isDigit, (l.drop 2).dropWhile isDigit)
  else ([], l)

/-- The operators of several bytes, longest first. -/
def operators : List (List UInt8) :=
  ["->>", "->", "==", "<=", "<>", "<<", ">=", ">>", "!=", "||"].map
    fun text => text.toList.map Char.toUInt8

/-- A number: digits, a fraction, an exponent, and what of a name is stuck to it. -/
def number : List UInt8 × List UInt8 :=
  let whole := run isDigit l
  let point := perhaps (· = '.'.toUInt8) whole.2
  let fraction := run (isDigit · && point.1 ≠ []) point.2
  let power := exponent fraction.2
  let stuck := run isIdChar power.2
  (whole.1 ++ point.1 ++ fraction.1 ++ power.1 ++ stuck.1, stuck.2)

/-- The token at the front, and what is behind it. -/
def token : Token × List UInt8 :=
  if isSpace b then (⟨.space, b :: l.takeWhile isSpace⟩, l.dropWhile isSpace)
  else if b = '-'.toUInt8 ∧ l.head? = some '-'.toUInt8 then
    (⟨.comment, b :: l.takeWhile (· ≠ '\n'.toUInt8)⟩, l.dropWhile (· ≠ '\n'.toUInt8))
  else if b = '/'.toUInt8 ∧ l.head? = some '*'.toUInt8 then
    let closed := through ['*'.toUInt8, '/'.toUInt8] l.tail
    (⟨.comment, b :: '*'.toUInt8 :: closed.1⟩, closed.2)
  else if isQuote b then
    let closed := throughQuote b l
    (⟨.quoted, b :: closed.1⟩, closed.2)
  else if b = '['.toUInt8 then
    let closed := through [']'.toUInt8] l
    (⟨.quoted, b :: closed.1⟩, closed.2)
  else if b = ';'.toUInt8 then (⟨.semicolon, [b]⟩, l)
  else if isParameter b then
    let named := throughParameter l.length l
    (⟨.parameter, b :: named.1⟩, named.2)
  else if isOf "xX" b ∧ l.head? = some '\''.toUInt8 then
    let closed := through ['\''.toUInt8] l.tail
    (⟨.quoted, b :: '\''.toUInt8 :: closed.1⟩, closed.2)
  else if isDigit b ∨ (b = '.'.toUInt8 ∧ l.head?.any isDigit) then
    let digits := number (b :: l)
    (⟨.number, digits.1⟩, digits.2)
  else if isIdChar b then (⟨.word, b :: l.takeWhile isIdChar⟩, l.dropWhile isIdChar)
  else
    match operators.find? (·.isPrefixOf (b :: l)) with
    | some text => (⟨.operator, text⟩, (b :: l).drop text.length)
    | none => (⟨.operator, [b]⟩, l)

def tokensUpTo : ℕ → List UInt8 → List Token
  | 0, _ => []
  | _ + 1, [] => []
  | n + 1, b :: l => (token b l).1 :: tokensUpTo n (token b l).2

/-- The tokens of a text: each one takes a byte at least. -/
def tokens : List Token := tokensUpTo l.length l

/-! ### Bytes -/

variable {p : UInt8 → Bool}

theorem of_isOf {chars : String} {b : UInt8} (is : isOf chars b = true)
    (all : chars.toList.all (fun c => p c.toUInt8) = true) : p b = true := by
  obtain ⟨c, mem, same⟩ := any_eq_true.1 is
  have same : c.toUInt8 = b := by simpa using same
  rw [← same]
  exact all_eq_true.1 all c mem

/-! ### Through a terminator -/

section Through

variable {α : Type*} [DecidableEq α] {terminator l x : List α}

theorem through_append (terminator l : List α) :
    (through terminator l).1 ++ (through terminator l).2 = l := by
  induction l with
  | nil => rfl
  | cons b _ ih =>
    rw [through]
    split
    · rename_i found
      obtain ⟨_, is⟩ := isPrefixOf_iff_prefix.1 found
      rw [← is, drop_left]
    · exact congrArg (b :: ·) ih

theorem through_of_part (some_ : terminator ≠ []) (within : x <+: (through terminator l).2) :
    through terminator ((through terminator l).1 ++ x) = ((through terminator l).1, x) := by
  induction l with
  | nil =>
    obtain rfl := prefix_nil.1 within
    rfl
  | cons b l ih =>
    rw [through] at within ⊢
    split at within
    · rename_i found
      rw [if_pos found]
      cases terminator with
      | nil => exact absurd rfl some_
      | cons t ts =>
        have whole : (t :: ts).isPrefixOf (t :: (ts ++ x)) = true :=
          isPrefixOf_iff_prefix.2 (prefix_append (t :: ts) x)
        rw [cons_append, through, if_pos whole]
        exact congrArg (Prod.mk (t :: ts)) (@drop_left _ (t :: ts) x)
    rename_i not
    rw [if_neg not]
    have still : ¬terminator.isPrefixOf (b :: ((through terminator l).1 ++ x)) = true := by
      intro found
      apply not
      apply isPrefixOf_iff_prefix.2
      have whole := isPrefixOf_iff_prefix.1 found
      refine whole.trans (cons_prefix_cons.2 ⟨rfl, ?_⟩)
      obtain ⟨more, is⟩ := within
      exact ⟨more, by rw [append_assoc, is, through_append]⟩
    rw [cons_append, through, if_neg still, ih within]

theorem through_of_short (short : l.length < terminator.length) :
    (through terminator l).2 = [] := by
  induction l with
  | nil => rfl
  | cons b l ih =>
    have not : ¬terminator.isPrefixOf (b :: l) = true := by
      intro found
      have whole := isPrefixOf_iff_prefix.1 found
      exact absurd whole.length_le (by omega)
    rw [through, if_neg not]
    exact ih (by rw [length_cons] at short; omega)

theorem through_append_right (terminator l x : List α) :
    through terminator (l ++ x) = ((through terminator l).1, (through terminator l).2 ++ x) ∨
      (through terminator l).2 = [] := by
  induction l with
  | nil => exact Or.inr rfl
  | cons b l ih =>
    by_cases found : terminator.isPrefixOf (b :: l) = true
    · left
      have longer : terminator.isPrefixOf (b :: (l ++ x)) = true := by
        have whole := isPrefixOf_iff_prefix.1 found
        exact isPrefixOf_iff_prefix.2 (whole.trans (prefix_append (b :: l) x))
      obtain ⟨_, is⟩ := isPrefixOf_iff_prefix.1 found
      rw [cons_append, through, through, if_pos longer, if_pos found, ← cons_append,
        ← is, append_assoc, drop_left, drop_left]
    by_cases longer : terminator.isPrefixOf (b :: (l ++ x)) = true
    · -- The terminator is longer than the text without its continuation.
      have short : (b :: l).length < terminator.length := by
        refine not_le.1 fun fits => found ?_
        have whole := isPrefixOf_iff_prefix.1 longer
        exact isPrefixOf_iff_prefix.2
          (prefix_of_prefix_length_le whole (prefix_append (b :: l) x) fits)
      exact Or.inr (through_of_short short)
    rw [cons_append, through, through, if_neg longer, if_neg found]
    refine ih.imp (fun is => ?_) id
    rw [is]

theorem through_closed (terminator l : List α) :
    (through terminator l).2 = [] ∨ ∃ front, (through terminator l).1 = front ++ terminator := by
  induction l with
  | nil => exact Or.inl rfl
  | cons b _ ih =>
    rw [through]
    split
    · exact Or.inr ⟨[], rfl⟩
    refine ih.imp_right ?_
    rintro ⟨front, is⟩
    exact ⟨b :: front, congrArg (b :: ·) is⟩

theorem through_singleton {b : α} :
    (through [b] l).2 = (l.dropWhile (· ≠ b)).tail := by
  induction l with
  | nil => rfl
  | cons c l ih =>
    rw [through, dropWhile_cons]
    by_cases same : c = b
    · simp [same]
    have other : ¬[b].isPrefixOf (c :: l) = true := by simp [Ne.symm same]
    rw [if_neg other, if_pos (decide_eq_true same)]
    exact ih

end Through

/-! ### One token -/

theorem cons_tail_of_head? {b : UInt8} {l : List UInt8} (is : l.head? = some b) :
    b :: l.tail = l := by
  cases l with
  | nil => cases is
  | cons _ l => exact congrArg (· :: l) (Option.some.inj is).symm

theorem throughQuote_append {quote : UInt8} {l : List UInt8} :
    (throughQuote quote l).1 ++ (throughQuote quote l).2 = l := by
  fun_induction throughQuote quote l <;> simp_all

theorem run_append {l : List UInt8} : (run p l).1 ++ (run p l).2 = l :=
  takeWhile_append_dropWhile

theorem perhaps_append {l : List UInt8} : (perhaps p l).1 ++ (perhaps p l).2 = l := by
  unfold perhaps
  split
  · rfl
  split <;> rfl

theorem throughParameter_append {n : ℕ} {l : List UInt8} :
    (throughParameter n l).1 ++ (throughParameter n l).2 = l := by
  fun_induction throughParameter n l with
  | case1 | case2 => rfl
  | case3 _ b _ _ ih => exact congrArg (b :: ·) ih
  | case4 _ l => exact congrArg ('('.toUInt8 :: ·) (through_append _ l)
  | case5 _ _ _ _ _ twice ih =>
    rw [twice.1, cons_append, cons_append, ih, cons_tail_of_head? twice.2]
  | case6 => rfl

theorem exponent_append {l : List UInt8} : (exponent l).1 ++ (exponent l).2 = l := by
  unfold exponent
  split
  · rw [append_assoc, takeWhile_append_dropWhile, take_append_drop]
  · rfl

theorem number_append {l : List UInt8} : (number l).1 ++ (number l).2 = l := by
  unfold number
  simp only [append_assoc, run_append, exponent_append, perhaps_append]

theorem number_ne_nil {b : UInt8} {l : List UInt8}
    (starts : isDigit b = true ∨ b = '.'.toUInt8) : (number (b :: l)).1 ≠ [] := by
  intro none
  simp only [number, run, append_eq_nil_iff] at none
  obtain ⟨⟨⟨⟨whole, point⟩, -⟩, -⟩, -⟩ := none
  have not : isDigit b = false := by
    cases is : isDigit b with
    | false => rfl
    | true => rw [takeWhile_cons_of_pos is] at whole; cases whole
  rcases starts with digit | rfl
  · rw [not] at digit
    cases digit
  cases point

structure Starts (b : UInt8) (l : List UInt8) : Prop where
  space : isSpace b = false
  line : ¬(b = '-'.toUInt8 ∧ l.head? = some '-'.toUInt8)
  block : ¬(b = '/'.toUInt8 ∧ l.head? = some '*'.toUInt8)

/-- Nothing starts here in which other bytes are read differently. -/
structure Plain (b : UInt8) (l : List UInt8) : Prop extends Starts b l where
  quote : isQuote b = false
  bracket : b ≠ '['.toUInt8
  semicolon : b ≠ ';'.toUInt8
  parameter : isParameter b = false

variable {x : List UInt8}

theorem head?_of_part {l : List UInt8} {c : UInt8} (within : x <+: l) (is : x.head? = some c) :
    l.head? = some c := by
  obtain ⟨_, rfl⟩ := within
  rw [head?_append, is]
  rfl

theorem Starts.of_part {b : UInt8} {l : List UInt8} (starts : Starts b l) (within : x <+: l) :
    Starts b x where
  space := starts.space
  line := fun both => starts.line ⟨both.1, head?_of_part within both.2⟩
  block := fun both => starts.block ⟨both.1, head?_of_part within both.2⟩

theorem Plain.of_part {b : UInt8} {l : List UInt8} (plain : Plain b l) (within : x <+: l) :
    Plain b x :=
  { plain with toStarts := plain.toStarts.of_part within }

theorem Starts.of_ne {b : UInt8} {l : List UInt8} (starts : Starts b l) (dash : b ≠ '-'.toUInt8)
    (slash : b ≠ '/'.toUInt8) : Starts b x where
  space := starts.space
  line := fun both => dash both.1
  block := fun both => slash both.1

/-- What the first token of a text may be, and the rest. -/
inductive Reads (b : UInt8) (l : List UInt8) : Token → List UInt8 → Prop where
  | space (is : isSpace b = true) :
      Reads b l ⟨.space, b :: l.takeWhile isSpace⟩ (l.dropWhile isSpace)
  | line (is : b = '-'.toUInt8) (twice : l.head? = some '-'.toUInt8) :
      Reads b l ⟨.comment, b :: l.takeWhile (· ≠ '\n'.toUInt8)⟩ (l.dropWhile (· ≠ '\n'.toUInt8))
  | block (is : b = '/'.toUInt8) (opens : l.head? = some '*'.toUInt8) :
      Reads b l ⟨.comment, b :: '*'.toUInt8 :: (through ['*'.toUInt8, '/'.toUInt8] l.tail).1⟩
        (through ['*'.toUInt8, '/'.toUInt8] l.tail).2
  | quoted (starts : Starts b l) (is : isQuote b = true) :
      Reads b l ⟨.quoted, b :: (throughQuote b l).1⟩ (throughQuote b l).2
  | bracket (starts : Starts b l) (is : b = '['.toUInt8) :
      Reads b l ⟨.quoted, b :: (through [']'.toUInt8] l).1⟩ (through [']'.toUInt8] l).2
  | semicolon (starts : Starts b l) (is : b = ';'.toUInt8) : Reads b l ⟨.semicolon, [b]⟩ l
  | parameter (starts : Starts b l) (is : isParameter b = true) :
      Reads b l ⟨.parameter, b :: (throughParameter l.length l).1⟩
        (throughParameter l.length l).2
  | blob (plain : Plain b l) (is : isOf "xX" b = true) (opens : l.head? = some '\''.toUInt8) :
      Reads b l ⟨.quoted, b :: '\''.toUInt8 :: (through ['\''.toUInt8] l.tail).1⟩
        (through ['\''.toUInt8] l.tail).2
  | number (plain : Plain b l) (is : isDigit b = true ∨ b = '.'.toUInt8) :
      Reads b l ⟨.number, (number (b :: l)).1⟩ (number (b :: l)).2
  | word (plain : Plain b l) (is : isIdChar b = true) :
      Reads b l ⟨.word, b :: l.takeWhile isIdChar⟩ (l.dropWhile isIdChar)
  | operator (plain : Plain b l) (text rest : List UInt8) (is : text ∈ operators)
      (starts : text ++ rest = b :: l) : Reads b l ⟨.operator, text⟩ rest
  | single (plain : Plain b l) (not : isIdChar b = false) : Reads b l ⟨.operator, [b]⟩ l

/-- **What the first token is.** -/
theorem token_reads (b : UInt8) (l : List UInt8) : Reads b l (token b l).1 (token b l).2 := by
  rw [token]
  by_cases space : isSpace b = true
  · rw [if_pos space]
    exact .space space
  rw [if_neg space]
  by_cases line : b = '-'.toUInt8 ∧ l.head? = some '-'.toUInt8
  · rw [if_pos line]
    exact .line line.1 line.2
  rw [if_neg line]
  by_cases block : b = '/'.toUInt8 ∧ l.head? = some '*'.toUInt8
  · rw [if_pos block]
    exact .block block.1 block.2
  rw [if_neg block]
  have starts : Starts b l := ⟨Bool.not_eq_true _ ▸ space, line, block⟩
  by_cases quote : isQuote b = true
  · rw [if_pos quote]
    exact .quoted starts quote
  rw [if_neg quote]
  by_cases bracket : b = '['.toUInt8
  · rw [if_pos bracket]
    exact .bracket starts bracket
  rw [if_neg bracket]
  by_cases semicolon : b = ';'.toUInt8
  · rw [if_pos semicolon]
    exact .semicolon starts semicolon
  rw [if_neg semicolon]
  by_cases parameter : isParameter b = true
  · rw [if_pos parameter]
    exact .parameter starts parameter
  rw [if_neg parameter]
  have plain : Plain b l := ⟨starts, Bool.not_eq_true _ ▸ quote, bracket, semicolon,
    Bool.not_eq_true _ ▸ parameter⟩
  by_cases blob : isOf "xX" b = true ∧ l.head? = some '\''.toUInt8
  · rw [if_pos blob]
    exact .blob plain blob.1 blob.2
  rw [if_neg blob]
  by_cases digits : isDigit b = true ∨ (b = '.'.toUInt8 ∧ l.head?.any isDigit = true)
  · rw [if_pos digits]
    exact .number plain (digits.imp_right And.left)
  rw [if_neg digits]
  by_cases word : isIdChar b = true
  · rw [if_pos word]
    exact .word plain word
  rw [if_neg word]
  cases found : operators.find? (·.isPrefixOf (b :: l)) with
  | some text =>
    have within : text.isPrefixOf (b :: l) = true := by simpa using find?_some found
    obtain ⟨_, is⟩ := isPrefixOf_iff_prefix.1 within
    refine .operator plain text _ (mem_of_find?_eq_some found) ?_
    show text ++ (b :: l).drop text.length = b :: l
    rw [← is, drop_left]
  | none => exact .single plain (Bool.not_eq_true _ ▸ word)

variable {b : UInt8} {l rest : List UInt8} {t : Token} (reads : Reads b l t rest)
include reads

theorem Reads.append : t.text ++ rest = b :: l := by
  cases reads with
  | space | line => exact congrArg (b :: ·) takeWhile_append_dropWhile
  | block _ opens =>
    have close := through_append ['*'.toUInt8, '/'.toUInt8] l.tail
    have whole := cons_tail_of_head? opens
    simp only [cons_append, close, whole]
  | quoted => exact congrArg (b :: ·) throughQuote_append
  | bracket => exact congrArg (b :: ·) (through_append _ _)
  | semicolon => rfl
  | parameter => exact congrArg (b :: ·) throughParameter_append
  | blob _ _ opens =>
    have close := through_append ['\''.toUInt8] l.tail
    have whole := cons_tail_of_head? opens
    simp only [cons_append, close, whole]
  | number => exact number_append
  | word => exact congrArg (b :: ·) takeWhile_append_dropWhile
  | operator _ _ _ _ starts => exact starts
  | single => rfl

theorem Reads.text_ne_nil : t.text ≠ [] := by
  cases reads with
  | number _ is => exact number_ne_nil is
  | operator _ _ _ mem =>
    have none : ∀ text ∈ operators, text ≠ [] := by decide
    exact none _ mem
  | _ => exact cons_ne_nil _ _

theorem Reads.length_le : rest.length ≤ l.length := by
  have is := congrArg length reads.append
  have some_ := length_pos_iff.2 reads.text_ne_nil
  rw [length_append, length_cons] at is
  omega

theorem Reads.starts (counts : t.blank = false) : Starts b l := by
  cases reads with
  | quoted starts => exact starts
  | bracket starts => exact starts
  | semicolon starts => exact starts
  | parameter starts => exact starts
  | blob plain => exact plain.toStarts
  | number plain => exact plain.toStarts
  | word plain => exact plain.toStarts
  | operator plain => exact plain.toStarts
  | single plain => exact plain.toStarts
  | _ => cases counts

omit reads

theorem isIdChar_of_isLetter (is : isLetter b = true) : isIdChar b = true := by
  rw [isIdChar, is, Bool.true_or, Bool.true_or, Bool.true_or]

theorem isDigit_of_isLetter (is : isLetter b = true) : isDigit b = false := by
  cases digit : isDigit b with
  | false => rfl
  | true =>
    simp only [isLetter, isDigit, Bool.or_eq_true, Bool.and_eq_true, decide_eq_true_eq,
      UInt8.le_iff_toNat_le] at is digit
    have nine : '9'.toUInt8.toNat = 57 := rfl
    have a : 'a'.toUInt8.toNat = 97 := rfl
    have bigA : 'A'.toUInt8.toNat = 65 := rfl
    omega

theorem Reads.word_of_isLetter (reads : Reads b l t rest) (letter : isLetter b = true)
    (not : isOf "xX" b = false) : t = ⟨.word, b :: l.takeWhile isIdChar⟩ := by
  have excluded : ∀ {chars : String}, chars.toList.all (fun c => !isLetter c.toUInt8) = true →
      isOf chars b = true → False := by
    intro _ none one
    have noLetter := of_isOf one (p := fun b => !isLetter b) none
    rw [letter] at noLetter
    cases noLetter
  cases reads with
  | space is => exact (excluded (by decide) is).elim
  | line is => rw [is] at letter; exact absurd letter (by decide)
  | block is => rw [is] at letter; exact absurd letter (by decide)
  | quoted _ is => exact (excluded (by decide) is).elim
  | bracket _ is => rw [is] at letter; exact absurd letter (by decide)
  | semicolon _ is => rw [is] at letter; exact absurd letter (by decide)
  | parameter _ is => exact (excluded (by decide) is).elim
  | blob _ is => rw [not] at is; cases is
  | number _ is =>
    rcases is with digit | is
    · rw [isDigit_of_isLetter letter] at digit
      cases digit
    rw [is] at letter
    exact absurd letter (by decide)
  | word => rfl
  | operator _ text _ mem starts =>
    have heads : ∀ text ∈ operators, ∀ c ∈ text.head?, isLetter c = false := by
      decide +kernel
    cases text with
    | nil => exact absurd mem (by decide)
    | cons c =>
      obtain ⟨rfl, -⟩ := cons.inj starts
      rw [heads _ mem c rfl] at letter
      cases letter
  | single _ other =>
    rw [isIdChar_of_isLetter letter] at other
    cases other

/-! ### All tokens -/

theorem tokensUpTo_eq {n m : ℕ} (enough : l.length ≤ n) (enough' : l.length ≤ m) :
    tokensUpTo n l = tokensUpTo m l := by
  induction n generalizing m l with
  | zero =>
    obtain rfl := eq_nil_of_length_eq_zero (Nat.le_zero.1 enough)
    cases m <;> rfl
  | succ _ ih =>
    cases l with
    | nil => cases m <;> rfl
    | cons b l =>
      have shorter := (token_reads b l).length_le
      rw [length_cons] at enough enough'
      obtain ⟨m, rfl⟩ : ∃ k, m = k + 1 := Nat.exists_eq_succ_of_ne_zero (by omega)
      rw [tokensUpTo, tokensUpTo, @ih _ m (by omega) (by omega)]

@[simp] theorem tokens_nil : tokens [] = [] := rfl

theorem tokens_cons {l : List UInt8} :
    tokens (b :: l) = (token b l).1 :: tokens (token b l).2 := by
  rw [tokens, length_cons, tokensUpTo, tokens, tokensUpTo_eq (token_reads b l).length_le le_rfl]

/-- **Along the tokens of a text**: what holds of the end, and holds of a text if it holds of what
its first token leaves, holds of every text. -/
theorem tokens_induction {P : List UInt8 → Prop} (nil : P [])
    (cons : ∀ b l t rest, Reads b l t rest → tokens (b :: l) = t :: tokens rest → P rest →
      P (b :: l)) (l : List UInt8) : P l := by
  induction size : l.length using Nat.strong_induction_on generalizing l with
  | h _ ih =>
    cases l with
    | nil => exact nil
    | cons b l =>
      have reads := token_reads b l
      refine cons b l _ _ reads tokens_cons (ih _ ?_ _ rfl)
      rw [← size, length_cons]
      exact Nat.lt_succ_of_le reads.length_le

end Sqlite
