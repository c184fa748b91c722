import Renga.Agent.Queries.Sql

/-!
# What the scanner of `query.sql` sees

The steps of the scanner are put as steps from a text to the rest of it (`step`), and what
it sees on the way is a list of marks: semicolons, parameters, and bytes or quoted texts
that belong to a statement (`marks`).  A text is accepted if its marks are those of one
statement and then semicolons (`scan_open`).
-/

namespace Renga.Agent.Queries.Sql

open List

open Sqlite

inductive Mark where
  | semicolon
  | parameter
  | other
  deriving DecidableEq

/-- A step of the scanner: what it sees, what it passes over after the first byte, and the rest. -/
structure Step where
  mark : Option Mark
  passed : List UInt8
  rest : List UInt8

def Step.over (mark : Option Mark) (opening terminator l : List UInt8) : Step :=
  ⟨mark, opening ++ (through terminator l).1, (through terminator l).2⟩

def step (b : UInt8) (l : List UInt8) : Step :=
  if b = '-'.toUInt8 ∧ l.head? = some '-'.toUInt8 then
    .over none ['-'.toUInt8] ['\n'.toUInt8] l.tail
  else if b = '/'.toUInt8 ∧ l.head? = some '*'.toUInt8 then
    .over none ['*'.toUInt8] ['*'.toUInt8, '/'.toUInt8] l.tail
  else if isQuote b then .over (some .other) [] [b] l
  else if b = '['.toUInt8 then .over (some .other) [] [']'.toUInt8] l
  else if b = ';'.toUInt8 then ⟨some .semicolon, [], l⟩
  else if isParameter b then ⟨some .parameter, [], l⟩
  else ⟨if isSpace b then none else some .other, [], l⟩

inductive Steps (b : UInt8) (l : List UInt8) : Step → Prop where
  | line (is : b = '-'.toUInt8) (twice : l.head? = some '-'.toUInt8) :
      Steps b l (.over none ['-'.toUInt8] ['\n'.toUInt8] l.tail)
  | block (is : b = '/'.toUInt8) (opens : l.head? = some '*'.toUInt8) :
      Steps b l (.over none ['*'.toUInt8] ['*'.toUInt8, '/'.toUInt8] l.tail)
  | quoted (starts : Starts b l) (is : isQuote b = true) :
      Steps b l (.over (some .other) [] [b] l)
  | bracket (starts : Starts b l) (is : b = '['.toUInt8) :
      Steps b l (.over (some .other) [] [']'.toUInt8] l)
  | semicolon (starts : Starts b l) (is : b = ';'.toUInt8) : Steps b l ⟨some .semicolon, [], l⟩
  | parameter (starts : Starts b l) (is : isParameter b = true) :
      Steps b l ⟨some .parameter, [], l⟩
  | space (is : isSpace b = true) : Steps b l ⟨none, [], l⟩
  | plain (plain : Plain b l) : Steps b l ⟨some .other, [], l⟩

variable {b : UInt8} {l x : List UInt8} {s : Step}

/-- A byte that starts no comment, literal, mark or parameter. -/
def loose (b : UInt8) : Bool :=
  b ≠ '-'.toUInt8 ∧ b ≠ '/'.toUInt8 ∧ isQuote b = false ∧ b ≠ '['.toUInt8 ∧ b ≠ ';'.toUInt8 ∧
    isParameter b = false

/-- A byte that the scanner passes over as part of a name or as a parameter. -/
def inert (b : UInt8) : Bool :=
  b ≠ '-'.toUInt8 ∧ b ≠ '/'.toUInt8 ∧ isSpace b = false ∧ isQuote b = false ∧ b ≠ '['.toUInt8 ∧
    b ≠ ';'.toUInt8

theorem loose_of_isSpace (is : isSpace b = true) : loose b = true :=
  of_isOf is (by decide)

theorem inert_of_isParameter (is : isParameter b = true) : inert b = true :=
  of_isOf is (by decide)

theorem not_comment_of_isQuote (is : isQuote b = true) : b ≠ '-'.toUInt8 ∧ b ≠ '/'.toUInt8 := by
  have all := of_isOf is (p := fun b => b ≠ '-'.toUInt8 ∧ b ≠ '/'.toUInt8) (by decide)
  exact of_decide_eq_true all

theorem step_steps (b : UInt8) (l : List UInt8) : Steps b l (step b l) := by
  unfold step
  split
  · next both => exact .line both.1 both.2
  next notLine =>
  split
  · next both => exact .block both.1 both.2
  next notBlock =>
  by_cases space : isSpace b = true
  · obtain ⟨-, -, quote, bracket, semicolon, parameter⟩ :=
      of_decide_eq_true (loose_of_isSpace space)
    rw [if_neg (by rw [quote]; decide), if_neg bracket, if_neg semicolon,
      if_neg (by rw [parameter]; decide), if_pos space]
    exact .space space
  have starts : Starts b l := ⟨Bool.not_eq_true _ ▸ space, notLine, notBlock⟩
  split
  · next is => exact .quoted starts is
  next notQuote =>
  split
  · next is => exact .bracket starts is
  next notBracket =>
  split
  · next is => exact .semicolon starts is
  next notSemicolon =>
  split
  · next is => exact .parameter starts is
  next notParameter =>
  exact .plain ⟨starts, Bool.not_eq_true _ ▸ notQuote, notBracket, notSemicolon,
    Bool.not_eq_true _ ▸ notParameter⟩

theorem Steps.eq (steps : Steps b l s) : step b l = s := by
  unfold step
  cases steps with
  | line is twice => rw [if_pos ⟨is, twice⟩]
  | block is opens =>
    have ne : b ≠ '-'.toUInt8 := by rw [is]; decide
    rw [if_neg fun both => ne both.1, if_pos ⟨is, opens⟩]
  | quoted starts is => rw [if_neg starts.line, if_neg starts.block, if_pos is]
  | bracket starts is =>
    have quote : isQuote b = false := by rw [is]; decide
    rw [if_neg starts.line, if_neg starts.block, quote, if_neg Bool.false_ne_true, if_pos is]
  | semicolon starts is =>
    have quote : isQuote b = false := by rw [is]; decide
    have bracket : b ≠ '['.toUInt8 := by rw [is]; decide
    rw [if_neg starts.line, if_neg starts.block, quote, if_neg Bool.false_ne_true,
      if_neg bracket, if_pos is]
  | parameter starts is =>
    obtain ⟨-, -, -, quote, bracket, semicolon⟩ := of_decide_eq_true (inert_of_isParameter is)
    rw [if_neg starts.line, if_neg starts.block, quote, if_neg Bool.false_ne_true,
      if_neg bracket, if_neg semicolon, if_pos is]
  | space is =>
    obtain ⟨dash, slash, quote, bracket, semicolon, parameter⟩ :=
      of_decide_eq_true (loose_of_isSpace is)
    rw [if_neg fun both => dash both.1, if_neg fun both => slash both.1, quote,
      if_neg Bool.false_ne_true, if_neg bracket, if_neg semicolon, parameter,
      if_neg Bool.false_ne_true, if_pos is]
  | plain plain =>
    rw [if_neg plain.line, if_neg plain.block, plain.quote, if_neg Bool.false_ne_true,
      if_neg plain.bracket, if_neg plain.semicolon, plain.parameter,
      if_neg Bool.false_ne_true, plain.space, if_neg Bool.false_ne_true]

theorem Steps.append (steps : Steps b l s) : s.passed ++ s.rest = l := by
  cases steps with
  | line _ twice =>
    show '-'.toUInt8 :: (through _ _).1 ++ (through _ _).2 = l
    rw [cons_append, through_append, cons_tail_of_head? twice]
  | block _ opens =>
    show '*'.toUInt8 :: (through _ _).1 ++ (through _ _).2 = l
    rw [cons_append, through_append, cons_tail_of_head? opens]
  | quoted | bracket => exact through_append _ _
  | _ => rfl

theorem length_step (b : UInt8) (l : List UInt8) : (step b l).rest.length ≤ l.length := by
  have is := congrArg length (step_steps b l).append
  rw [length_append] at is
  omega

def marks : List UInt8 → List Mark
  | [] => []
  | b :: l => (step b l).mark.toList ++ marks (step b l).rest
termination_by l => l.length
decreasing_by exact Nat.lt_succ_of_le (length_step b l)

@[simp] theorem marks_nil : marks [] = [] := by rw [marks]

theorem Steps.marks_eq (steps : Steps b l s) : marks (b :: l) = s.mark.toList ++ marks s.rest := by
  rw [marks, steps.eq]

/-- **Along the steps of the scanner**: what holds of the end, and holds of a text if it holds of
what the first step leaves, holds of every text. -/
theorem steps_induction {P : List UInt8 → Prop} (nil : P [])
    (cons : ∀ b l s, Steps b l s → P s.rest → P (b :: l)) (l : List UInt8) : P l := by
  induction size : l.length using Nat.strong_induction_on generalizing l with
  | h _ ih =>
    cases l with
    | nil => exact nil
    | cons b l =>
      refine cons b l _ (step_steps b l) (ih _ ?_ _ rfl)
      rw [← size, length_cons]
      exact Nat.lt_succ_of_le (length_step b l)

/-! ### Parts of a text -/

theorem Steps.of_part (steps : Steps b l s) (within : x <+: s.rest) :
    Steps b (s.passed ++ x) ⟨s.mark, s.passed, x⟩ := by
  have inside : s.passed ++ x <+: l := by
    obtain ⟨rest, is⟩ := within
    exact ⟨rest, by rw [append_assoc, is, steps.append]⟩
  have closes : ∀ {terminator l : List UInt8} {mark : Option Mark} {opening : List UInt8},
      terminator ≠ [] → x <+: (through terminator l).2 →
      Step.over mark opening terminator ((through terminator l).1 ++ x)
        = ⟨mark, opening ++ (through terminator l).1, x⟩ := by
    intro _ l _ _ some_ within
    rw [Step.over, through_of_part some_ within]
  cases steps with
  | line is =>
    have again : Steps b ('-'.toUInt8 :: ((through ['\n'.toUInt8] l.tail).1 ++ x)) _ :=
      .line is rfl
    rwa [tail_cons, closes (cons_ne_nil _ _) within] at again
  | block is =>
    have again : Steps b ('*'.toUInt8 ::
        ((through ['*'.toUInt8, '/'.toUInt8] l.tail).1 ++ x)) _ := .block is rfl
    rwa [tail_cons, closes (cons_ne_nil _ _) within] at again
  | quoted starts is =>
    have again := Steps.quoted (starts.of_part inside) is
    rwa [show (Step.over (some Mark.other) [] [b] l).passed = (through [b] l).1 from rfl,
      closes (cons_ne_nil _ _) within] at again
  | bracket starts is =>
    have again := Steps.bracket (starts.of_part inside) is
    rwa [show (Step.over (some Mark.other) [] [']'.toUInt8] l).passed
      = (through [']'.toUInt8] l).1 from rfl, closes (cons_ne_nil _ _) within] at again
  | semicolon starts is => exact .semicolon (starts.of_part inside) is
  | parameter starts is => exact .parameter (starts.of_part inside) is
  | space is => exact .space is
  | plain plain => exact .plain (plain.of_part inside)

def statement : List UInt8 → List UInt8
  | [] => []
  | b :: l =>
    if (step b l).mark = some .semicolon then []
    else b :: ((step b l).passed ++ statement (step b l).rest)
termination_by l => l.length
decreasing_by exact Nat.lt_succ_of_le (length_step b l)

theorem Steps.statement_eq (steps : Steps b l s) : statement (b :: l) =
    if s.mark = some .semicolon then [] else b :: (s.passed ++ statement s.rest) := by
  rw [statement, steps.eq]

theorem statement_part (l : List UInt8) : statement l <+: l := by
  induction l using steps_induction with
  | nil => simp only [statement, nil_prefix]
  | cons _ _ _ steps ih =>
    rw [steps.statement_eq]
    split
    · exact nil_prefix
    obtain ⟨rest, is⟩ := ih
    refine cons_prefix_cons.2 ⟨rfl, rest, ?_⟩
    rw [append_assoc, is, steps.append]

/-- **What is before the first semicolon is read as it was.** -/
theorem marks_statement : marks (statement l) = (marks l).takeWhile (· ≠ .semicolon) := by
  induction l using steps_induction with
  | nil =>
    rw [statement, marks_nil]
    rfl
  | cons _ _ s steps ih =>
    rw [steps.statement_eq, steps.marks_eq]
    split
    · rename_i is
      rw [is, marks_nil]
      rfl
    rename_i not
    rw [(steps.of_part (statement_part s.rest)).marks_eq, ih]
    cases mark : s.mark with
    | none => rfl
    | some m =>
      have other : m ≠ .semicolon := fun is => not (is ▸ mark)
      exact (takeWhile_cons_of_pos (by simpa using other)).symm

theorem Steps.append_right (steps : Steps b l s) (x : List UInt8) :
    Steps b (l ++ x) ⟨s.mark, s.passed, s.rest ++ x⟩ ∨
      (s.rest = [] ∧ (s.mark = none ∨ s.mark = some .other)) := by
  have headed : ∀ {c : UInt8}, l.head? = some c → (l ++ x).head? = some c := by
    intro c is
    exact head?_of_part (prefix_append l x) is
  have tailed : ∀ {c : UInt8}, l.head? = some c → (l ++ x).tail = l.tail ++ x := by
    intro _ is
    rw [← cons_tail_of_head? is]
    rfl
  cases steps with
  | line is twice =>
    refine (through_append_right ['\n'.toUInt8] l.tail x).imp (fun closes => ?_)
      fun ended => ⟨ended, .inl rfl⟩
    have again := Steps.line is (headed twice)
    rwa [tailed twice, Step.over, closes] at again
  | block is opens =>
    refine (through_append_right ['*'.toUInt8, '/'.toUInt8] l.tail x).imp (fun closes => ?_)
      fun ended => ⟨ended, .inl rfl⟩
    have again := Steps.block is (headed opens)
    rwa [tailed opens, Step.over, closes] at again
  | quoted starts is =>
    obtain ⟨dash, slash⟩ := not_comment_of_isQuote is
    refine (through_append_right [b] l x).imp (fun closes => ?_)
      fun ended => ⟨ended, .inr rfl⟩
    have again : Steps b (l ++ x) _ := .quoted (starts.of_ne dash slash) is
    rwa [Step.over, closes] at again
  | bracket starts is =>
    refine (through_append_right [']'.toUInt8] l x).imp (fun closes => ?_)
      fun ended => ⟨ended, .inr rfl⟩
    have again : Steps b (l ++ x) _ :=
      .bracket (starts.of_ne (by rw [is]; decide) (by rw [is]; decide)) is
    rwa [Step.over, closes] at again
  | semicolon starts is =>
    exact .inl (.semicolon (starts.of_ne (by rw [is]; decide) (by rw [is]; decide)) is)
  | parameter starts is =>
    obtain ⟨dash, slash, -⟩ := of_decide_eq_true (inert_of_isParameter is)
    exact .inl (.parameter (starts.of_ne dash slash) is)
  | space is => exact .inl (.space is)
  | plain plain =>
    cases l with
    | nil => exact .inr ⟨rfl, .inr rfl⟩
    | cons =>
      exact .inl (.plain { plain with
        line := fun both => plain.line both
        block := fun both => plain.block both })

theorem other_of_append (l : List UInt8) (all : ∀ m ∈ marks (l ++ x), m = .other) :
    ∀ m ∈ marks l, m = .other := by
  induction l using steps_induction with
  | nil =>
    rw [marks_nil]
    exact fun m mem => absurd mem not_mem_nil
  | cons _ _ _ steps ih =>
    intro m mem
    rw [steps.marks_eq] at mem
    rcases steps.append_right x with longer | ⟨ended, mark⟩
    · rw [cons_append, longer.marks_eq] at all
      rcases mem_append.1 mem with mem | mem
      · exact all m (mem_append_left _ mem)
      · exact ih (fun m mem => all m (mem_append_right _ mem)) m mem
    rw [ended, marks_nil, append_nil] at mem
    rcases mark with none | other
    · rw [none] at mem
      exact absurd mem not_mem_nil
    rw [other] at mem
    exact mem_singleton.1 mem

/-! ### Tokens and marks -/

/-- A part of a text leaves a mark for each byte, if there is no parameter in the text. -/
def Walks (text rest : List UInt8) : Prop :=
  .parameter ∉ marks (text ++ rest) →
    marks (text ++ rest) = replicate text.length .other ++ marks rest

theorem Walks.nil {rest : List UInt8} : Walks [] rest := fun _ => rfl

variable {rest : List UInt8} {text : List UInt8}

theorem Walks.append {text' : List UInt8} (walks : Walks text (text' ++ rest))
    (walks' : Walks text' rest) : Walks (text ++ text') rest := by
  intro clean
  rw [append_assoc] at clean ⊢
  have first := walks clean
  rw [first] at clean
  rw [first, walks' fun mem => clean (mem_append_right _ mem), ← append_assoc,
    replicate_append_replicate, length_append]

theorem Walks.cons (plain : Plain b (text ++ rest)) (walks : Walks text rest) :
    Walks (b :: text) rest := by
  intro clean
  have first := (Steps.plain plain).marks_eq
  rw [cons_append, first] at clean
  rw [cons_append, first, walks fun mem => clean (mem_append_right _ mem)]
  rfl

theorem Walks.of_inert (all : ∀ b ∈ text, inert b = true) : Walks text rest := by
  induction text with
  | nil => exact Walks.nil
  | cons b text ih =>
    obtain ⟨dash, slash, space, quote, bracket, semicolon⟩ :=
      of_decide_eq_true (all b mem_cons_self)
    have starts : Starts b (text ++ rest) :=
      ⟨space, fun both => dash both.1, fun both => slash both.1⟩
    cases parameter : isParameter b with
    | false =>
      exact Walks.cons ⟨starts, quote, bracket, semicolon, parameter⟩
        (ih fun b mem => all b (mem_cons_of_mem _ mem))
    | true =>
      intro clean
      rw [cons_append, (Steps.parameter starts parameter).marks_eq] at clean
      exact absurd mem_cons_self clean

theorem inert_of_isIdChar (is : isIdChar b = true) : inert b = true := by
  have excluded : ∀ {chars : String}, chars.toList.all (fun c => !isIdChar c.toUInt8) = true →
      isOf chars b = false := by
    intro chars none
    cases one : isOf chars b with
    | false => rfl
    | true =>
      have not := of_isOf one (p := fun b => !isIdChar b) none
      rw [is] at not
      cases not
  refine decide_eq_true ⟨?_, ?_, excluded (by decide), excluded (by decide), ?_, ?_⟩ <;>
    (rintro rfl; exact absurd is (by decide))

theorem isIdChar_of_isDigit (is : isDigit b = true) : isIdChar b = true := by
  rw [isIdChar, is, Bool.or_true, Bool.true_or, Bool.true_or]

theorem walks_takeWhile {p : UInt8 → Bool} (is : ∀ b, p b = true → isIdChar b = true) :
    Walks (l.takeWhile p) rest :=
  Walks.of_inert fun b mem => inert_of_isIdChar (is b (mem_takeWhile_imp mem))

theorem Walks.singleton (is : inert b = true) (rest : List UInt8) : Walks [b] rest :=
  Walks.of_inert fun _ mem => mem_singleton.1 mem ▸ is

theorem plain_of_sign (sign : isOf "+-" b = true) (digit : l.head?.any isDigit = true) :
    Plain b l := by
  obtain ⟨_, is, digit⟩ := (Option.any_eq_true ..).1 digit
  have rest := of_isOf sign (p := fun b => isSpace b = false ∧ b ≠ '/'.toUInt8 ∧
    isQuote b = false ∧ b ≠ '['.toUInt8 ∧ b ≠ ';'.toUInt8 ∧ isParameter b = false) (by decide)
  obtain ⟨space, slash, quote, bracket, semicolon, parameter⟩ := of_decide_eq_true rest
  refine ⟨⟨space, fun both => ?_, fun both => slash both.1⟩, quote, bracket, semicolon, parameter⟩
  obtain rfl := Option.some.inj (is.symm.trans both.2)
  exact absurd digit (by decide)

theorem walks_exponent : Walks (exponent l).1 (exponent l).2 := by
  unfold exponent
  split
  · rename_i is
    obtain ⟨e, sign, l, rfl⟩ : ∃ e sign rest, l = e :: sign :: rest := by
      cases l with
      | nil => cases is
      | cons e l =>
        cases l with
        | nil => cases is
        | cons sign l => exact ⟨e, sign, l, rfl⟩
    obtain ⟨letter, signed⟩ := Bool.and_eq_true_iff.1 is
    have first := Walks.singleton (of_isOf letter (p := inert) (by decide))
      (sign :: l.takeWhile isDigit ++ l.dropWhile isDigit)
    have digits : Walks (l.takeWhile isDigit) (l.dropWhile isDigit) :=
      walks_takeWhile (fun _ => isIdChar_of_isDigit)
    refine first.append ?_
    rcases Bool.or_eq_true_iff.1 signed with digit | signed
    · exact (Walks.singleton (inert_of_isIdChar (isIdChar_of_isDigit digit)) _).append digits
    obtain ⟨is, digit⟩ := Bool.and_eq_true_iff.1 signed
    refine Walks.cons ?_ digits
    rw [takeWhile_append_dropWhile]
    exact plain_of_sign is digit
  · exact Walks.nil

theorem walks_number : Walks (number l).1 (number l).2 := by
  have digits : ∀ b, isDigit b = true → isIdChar b = true := fun b => isIdChar_of_isDigit
  unfold number
  refine Walks.append (Walks.append (Walks.append (Walks.append ?_ ?_) ?_) ?_) ?_
  · exact walks_takeWhile digits
  · unfold perhaps
    split
    · exact Walks.nil
    split
    · next is => exact Walks.singleton (by rw [of_decide_eq_true is]; decide) _
    · exact Walks.nil
  · exact walks_takeWhile (fun b both => digits b (Bool.and_eq_true_iff.1 both).1)
  · rw [run_append]
    exact walks_exponent
  · exact walks_takeWhile (fun _ is => is)

theorem walks_operator (mem : text ∈ operators)
    (plain : ∀ b, text.head? = some b → Plain b (text.tail ++ rest)) : Walks text rest := by
  have tails : ∀ text ∈ operators, ∀ b ∈ text.tail, inert b = true := by
    decide +kernel
  cases text with
  | nil => exact Walks.nil
  | cons b text =>
    exact Walks.cons (plain b rfl) (Walks.of_inert (tails (b :: text) mem))

theorem starts_of_isQuote (is : isQuote b = true) (l : List UInt8) : Starts b l := by
  have all := of_isOf is (p := fun b => isSpace b = false) (by decide)
  obtain ⟨dash, slash⟩ := not_comment_of_isQuote is
  exact ⟨of_decide_eq_true all, fun both => dash both.1, fun both => slash both.1⟩

theorem marks_throughQuote {quote : UInt8} (is : isQuote quote = true) (l : List UInt8) :
    ∃ n, marks (through [quote] l).2
      = replicate n .other ++ marks (throughQuote quote l).2 := by
  have passes : ∀ {c : UInt8} {l : List UInt8}, c ≠ quote →
      (through [quote] (c :: l)).2 = (through [quote] l).2 := by
    intro c l other
    rw [through, if_neg (by simp [Ne.symm other])]
  have closes : ∀ l : List UInt8, (through [quote] (quote :: l)).2 = l := by
    intro l
    rw [through, if_pos (by simp)]
    rfl
  fun_induction throughQuote quote l with
  | case1 => exact ⟨0, rfl⟩
  | case2 b =>
    refine ⟨0, ?_⟩
    by_cases same : b = quote
    · rw [same, closes]
      rfl
    rw [passes same]
    rfl
  | case3 l ih =>
    obtain ⟨n, same⟩ := ih
    refine ⟨n + 1, ?_⟩
    rw [closes, (Steps.quoted (starts_of_isQuote is l) is).marks_eq]
    exact congrArg (Mark.other :: ·) same
  | case4 =>
    refine ⟨0, ?_⟩
    rw [closes]
    rfl
  | case5 _ _ _ other ih =>
    obtain ⟨n, same⟩ := ih
    exact ⟨n, by rw [passes other, same]⟩

def Leaves (ms : List Mark) : Kind → Prop
  | .space => ms = []
  | .comment => ms = []
  | .semicolon => ms = [.semicolon]
  | .parameter => False
  | _ => ms ≠ [] ∧ ∀ m ∈ ms, m = .other

theorem Leaves.others {ms : List Mark} {kind : Kind} (leaves : Leaves ms kind)
    (not : kind ≠ .semicolon) : ∀ m ∈ ms, m = .other := by
  cases kind with
  | space | comment => exact fun _ mem => absurd (leaves ▸ mem) not_mem_nil
  | semicolon => exact absurd rfl not
  | parameter => exact leaves.elim
  | _ => exact leaves.2

theorem others_replicate {n : ℕ} (some_ : n ≠ 0) :
    replicate n Mark.other ≠ [] ∧ ∀ m ∈ replicate n Mark.other, m = .other := by
  refine ⟨fun none => some_ ?_, fun _ mem => (mem_replicate.1 mem).2⟩
  rwa [replicate_eq_nil_iff] at none

def Skips {α : Type*} (f : List UInt8 → α) : Prop :=
  ∀ b l s, Steps b l s → s.mark = none → f (b :: l) = f s.rest

theorem skips_marks : Skips marks := by
  intro _ _ _ steps blank
  rw [steps.marks_eq, blank]
  rfl

theorem Skips.space {α : Type*} {f : List UInt8 → α} (skips : Skips f)
    (all : ∀ b ∈ x, isSpace b = true) (l : List UInt8) : f (x ++ l) = f l := by
  induction x with
  | nil => rfl
  | cons b _ ih =>
    rw [cons_append, skips b _ _ (Steps.space (all b mem_cons_self)) rfl]
    exact ih fun b mem => all b (mem_cons_of_mem _ mem)

theorem Skips.newline {α : Type*} {f : List UInt8 → α} (skips : Skips f) (l : List UInt8) :
    f (l.dropWhile (· ≠ '\n'.toUInt8)) = f (through ['\n'.toUInt8] l).2 := by
  rw [through_singleton]
  induction l with
  | nil => rfl
  | cons b l =>
    by_cases newline : b = '\n'.toUInt8
    · rw [dropWhile_cons_of_neg (by simp [newline]), tail_cons]
      exact skips.space (x := [b]) (fun _ mem => by rw [mem_singleton.1 mem, newline]; decide) l
    · rwa [dropWhile_cons_of_pos (by simp [newline])]

theorem Skips.token {α : Type*} {f : List UInt8 → α} (skips : Skips f) {t : Token}
    (reads : Reads b l t rest) (blank : t.blank = true) :
    f (b :: l) = f rest := by
  have whole := reads.append
  cases reads with
  | space is =>
    rw [← whole]
    refine skips.space (fun _ mem => ?_) _
    rcases mem_cons.1 mem with rfl | mem
    · exact is
    · exact mem_takeWhile_imp mem
  | line is twice =>
    rw [skips b l _ (Steps.line is twice) rfl, ← cons_tail_of_head? twice,
      dropWhile_cons_of_pos (by decide), skips.newline]
    rfl
  | block is opens => exact skips b l _ (Steps.block is opens) rfl
  | _ => cases blank

/-- **The tokens of SQLite and the steps of the scanner.**  If the scanner sees no parameter in a
text, the first token has its own marks, and the scanner sees the same in the rest whether it goes
on from there or starts anew. -/
theorem marks_eq_of_reads {t : Token} (reads : Reads b l t rest)
    (clean : .parameter ∉ marks (b :: l)) :
    ∃ ms, Leaves ms t.kind ∧ marks (b :: l) = ms ++ marks rest := by
  have whole := reads.append
  have some_ : t.text.length ≠ 0 := fun none => reads.text_ne_nil (length_eq_zero_iff.1 none)
  have walked : Walks t.text rest →
      marks (b :: l) = replicate t.text.length .other ++ marks rest := by
    intro walks
    rw [Walks, whole] at walks
    exact walks clean
  cases reads with
  | space is => exact ⟨[], rfl, skips_marks.token (.space is) rfl⟩
  | line is twice => exact ⟨[], rfl, skips_marks.token (.line is twice) rfl⟩
  | block is opens => exact ⟨[], rfl, skips_marks.token (.block is opens) rfl⟩
  | quoted starts is =>
    obtain ⟨n, same⟩ := marks_throughQuote is l
    refine ⟨replicate (n + 1) .other, others_replicate (Nat.succ_ne_zero n), ?_⟩
    rw [(Steps.quoted starts is).marks_eq]
    exact congrArg (Mark.other :: ·) same
  | bracket starts is =>
    refine ⟨[.other], others_replicate Nat.one_ne_zero, ?_⟩
    rw [(Steps.bracket starts is).marks_eq]
    rfl
  | semicolon starts is =>
    refine ⟨[.semicolon], rfl, ?_⟩
    rw [(Steps.semicolon starts is).marks_eq]
    rfl
  | parameter starts is =>
    rw [(Steps.parameter starts is).marks_eq] at clean
    exact absurd mem_cons_self clean
  | blob plain _ opens =>
    have quote : isQuote '\''.toUInt8 = true := by decide
    refine ⟨[.other, .other], others_replicate (Nat.succ_ne_zero 1), ?_⟩
    rw [(Steps.plain plain).marks_eq]
    have inner := (Steps.quoted (starts_of_isQuote quote l.tail) quote).marks_eq
    rw [cons_tail_of_head? opens] at inner
    exact congrArg (Mark.other :: ·) inner
  | number => exact ⟨_, others_replicate some_, walked walks_number⟩
  | word _ is =>
    refine ⟨_, others_replicate some_, walked (Walks.of_inert fun c mem => ?_)⟩
    rcases mem_cons.1 mem with rfl | mem
    · exact inert_of_isIdChar is
    · exact inert_of_isIdChar (mem_takeWhile_imp mem)
  | operator _ text rest mem starts =>
    refine ⟨_, others_replicate some_, walked (walks_operator mem fun c is => ?_)⟩
    have is : text.head? = some c := is
    rw [← cons_tail_of_head? is, cons_append] at starts
    obtain ⟨rfl, same⟩ := cons.inj starts
    show Plain c (text.tail ++ rest)
    rwa [same]
  | single plain =>
    refine ⟨[.other], others_replicate Nat.one_ne_zero, ?_⟩
    rw [(Steps.plain plain).marks_eq]
    rfl

theorem tokens_of_all {mark : Mark} (clean : mark ≠ .parameter) {P : Token → Prop}
    (one : ∀ t ms, Leaves ms t.kind → (∀ m ∈ ms, m = mark) → P t) (all : ∀ m ∈ marks l, m = mark) :
    ∀ t ∈ tokens l, P t := by
  induction l using tokens_induction with
  | nil => exact fun t mem => absurd mem not_mem_nil
  | cons _ _ t _ reads is ih =>
    obtain ⟨ms, leaves, same⟩ := marks_eq_of_reads reads fun mem => clean (all _ mem).symm
    rw [same] at all
    rw [is]
    exact forall_mem_cons.2 ⟨one t ms leaves fun m mem => all m (mem_append_left _ mem),
      ih fun m mem => all m (mem_append_right _ mem)⟩

theorem tokens_of_others (all : ∀ m ∈ marks l, m = .other) :
    ∀ t ∈ tokens l, t.kind ≠ .semicolon ∧ t.kind ≠ .parameter := by
  refine tokens_of_all (by simp) (fun _ _ leaves all => ⟨fun kind => ?_, fun kind => ?_⟩) all
  · rw [kind] at leaves
    obtain rfl := leaves
    cases all .semicolon mem_cons_self
  rw [kind] at leaves
  exact leaves

def trailing (t : Token) : Bool := t.blank ∨ t.kind = .semicolon

theorem tokens_of_semicolons (all : ∀ m ∈ marks l, m = .semicolon) :
    ∀ t ∈ tokens l, trailing t = true := by
  refine tokens_of_all (by simp) (fun t ms leaves all => ?_) all
  have none : ¬(ms ≠ [] ∧ ∀ m ∈ ms, m = .other) := by
    rintro ⟨some_, others⟩
    obtain ⟨m, mem⟩ := exists_mem_of_ne_nil _ some_
    have both := (others m mem).symm.trans (all m mem)
    cases both
  unfold trailing Token.blank
  cases kind : t.kind <;> rw [kind] at leaves <;>
    first | rfl | exact absurd leaves none | exact leaves.elim

/-- **After the first semicolon.**  If the scanner sees one statement and then semicolons, so does
SQLite: what it finds from its first semicolon on is white space, comments and semicolons. -/
theorem tokens_after_semicolon {others semicolons : List Mark}
    (is : marks l = others ++ semicolons) (first : ∀ m ∈ others, m = .other)
    (then_ : ∀ m ∈ semicolons, m = .semicolon) :
    ∀ t ∈ (tokens l).dropWhile (·.kind ≠ .semicolon), trailing t = true := by
  induction l using tokens_induction generalizing others with
  | nil => exact fun t mem => absurd mem not_mem_nil
  | cons b l t rest reads isTokens ih =>
    have clean : .parameter ∉ marks (b :: l) := by
      rw [is]
      intro mem
      rcases mem_append.1 mem with mem | mem
      · cases first _ mem
      · cases then_ _ mem
    obtain ⟨ms, leaves, same⟩ := marks_eq_of_reads reads clean
    rw [isTokens]
    by_cases semicolon : t.kind = .semicolon
    · rw [dropWhile_cons_of_neg (by simp [semicolon])]
      rw [semicolon] at leaves
      obtain rfl := leaves
      -- The statement had ended before.
      have ended : others = [] := by
        cases others with
        | nil => rfl
        | cons m =>
          rw [is, cons_append, singleton_append] at same
          have both := (first m mem_cons_self).symm.trans (cons.inj same).1
          cases both
      rw [ended, nil_append] at is
      rw [is] at same
      intro t' mem
      rcases mem_cons.1 mem with rfl | mem
      · simp [trailing, semicolon]
      refine tokens_of_semicolons (fun m memM => then_ m ?_) t' mem
      rw [same]
      exact mem_cons_of_mem _ memM
    rw [dropWhile_cons_of_pos (by simp [semicolon])]
    -- The marks of the token are marks of the statement.
    have part : ms <+: others := by
      have ours : others <+: ms ++ marks rest := ⟨semicolons, is.symm.trans same⟩
      rcases prefix_or_prefix_of_prefix (prefix_append ms (marks rest)) ours with
        part | ⟨more, rfl⟩
      · exact part
      cases more with
      | nil => simp only [append_nil, prefix_rfl]
      | cons m =>
        rw [is, append_assoc, append_cancel_left_eq] at same
        have one := leaves.others semicolon m (mem_append_right _ mem_cons_self)
        have two := then_ m (same ▸ mem_append_left _ mem_cons_self)
        cases one.symm.trans two
    obtain ⟨_, rfl⟩ := part
    rw [is, append_assoc] at same
    exact ih (append_cancel_left same).symm fun m mem => first m (mem_append_right _ mem)

end Renga.Agent.Queries.Sql
