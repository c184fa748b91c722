import Renga.Agent.Queries.SqlScan

/-!
# `query.sql` lets one statement through

The loops of the source go over the bytes by index; here they are put as what they see of
the rest of the text.  Every index at which the source cuts a text is next to a byte that is
ASCII, so that no slice is taken off a character boundary (`Utf8.exists_of_encode_eq`).
-/

namespace Renga.Agent.Queries.Sql

open List Option Except

open Sqlite Utf8

variable {bytes l : List UInt8} {b : UInt8} {i fuel : ℕ}

/-! ### From index to index -/

variable {terminator : List UInt8}

theorem length_through_of_position {n : ℕ} (is : position terminator l = some n) :
    (through terminator l).1.length = n + terminator.length := by
  induction l generalizing n with
  | nil => cases is
  | cons _ _ ih =>
    rw [position] at is
    rw [through]
    split at is
    · rename_i found
      rw [if_pos found, ← some.inj is, Nat.zero_add]
    rename_i not
    obtain ⟨_, isRest, rfl⟩ := map_eq_some_iff.1 is
    rw [if_neg not, length_cons, ih isRest]
    omega

theorem through_of_position_none (is : position terminator l = none) :
    through terminator l = (l, []) := by
  induction l with
  | nil => rfl
  | cons _ _ ih =>
    rw [position] at is
    split at is
    · cases is
    next not => rw [through, if_neg not, ih (map_eq_none_iff.1 is)]

theorem closing_eq {start : ℕ} (inside : start ≤ bytes.length) :
    closing bytes start terminator = start + (through terminator (bytes.drop start)).1.length := by
  unfold closing
  rw [Nat.min_eq_left inside]
  split
  · next n is => rw [length_through_of_position is, Nat.add_assoc]
  rename_i is
  rw [through_of_position_none is, length_drop]
  omega

variable (at_ : bytes.drop i = b :: l)
include at_

theorem drop_succ : bytes.drop (i + 1) = l := by
  rw [← drop_drop, at_]
  rfl

theorem getElem?_of_drop : bytes[i]? = some b ∧ bytes[i + 1]? = l.head? := by
  constructor
  · rw [← head?_drop, at_]
    rfl
  · rw [← head?_drop, drop_succ at_]

theorem length_of_drop : bytes.length = i + 1 + l.length := by
  have is := congrArg length at_
  rw [length_drop, length_cons] at is
  omega

theorem drop_step : bytes.drop (i + 1 + (step b l).passed.length) = (step b l).rest := by
  have is := congrArg (drop (step b l).passed.length) (step_steps b l).append
  rw [drop_left] at is
  rw [← drop_drop, drop_succ at_, ← is]

omit at_

variable {rest : List UInt8}

theorem closing_step (opening terminator : List UInt8)
    (at_ : bytes.drop i = b :: (opening ++ rest)) :
    closing bytes (i + 1 + opening.length) terminator
      = i + 1 + (opening ++ (through terminator rest).1).length := by
  have inside := length_of_drop at_
  rw [length_append] at inside
  have there : bytes.drop (i + 1 + opening.length) = rest := by
    rw [← drop_drop, drop_succ at_]
    exact drop_left
  rw [closing_eq (by omega), there, length_append]
  omega

def Step.reading (s : Step) (i : ℕ) : Reading :=
  ⟨i + 1 + s.passed.length, s.mark ≠ some .other, s.mark = some .semicolon⟩

/-- **One turn of the loop** is a step of the scanner, unless it meets a parameter. -/
theorem read_eq (at_ : bytes.drop i = b :: l) :
    ((step b l).mark = some .parameter ∧ ∃ reason, read bytes i b = .error (.failed reason)) ∨
    ((step b l).mark ≠ some .parameter ∧ read bytes i b = .ok ((step b l).reading i)) := by
  have second := (getElem?_of_drop at_).2
  have steps := step_steps b l
  unfold read
  rw [second]
  generalize step b l = s at steps
  cases steps with
  | line is twice =>
    rw [← cons_tail_of_head? twice] at at_
    have next := closing_step ['-'.toUInt8] ['\n'.toUInt8] at_
    refine .inr ⟨by simp [Step.over], ?_⟩
    rw [if_pos ⟨is, twice⟩]
    exact congrArg (fun next => ok (Reading.mk next true false)) next
  | block is opens =>
    rw [← cons_tail_of_head? opens] at at_
    have next := closing_step ['*'.toUInt8] ['*'.toUInt8, '/'.toUInt8] at_
    have ne : b ≠ '-'.toUInt8 := by rw [is]; decide
    refine .inr ⟨by simp [Step.over], ?_⟩
    rw [if_neg fun both => ne both.1, if_pos ⟨is, opens⟩]
    exact congrArg (fun next => ok (Reading.mk next true false)) next
  | quoted starts is =>
    have next := closing_step [] [b] at_
    have is : isOf "'\"`" b = true := is
    refine .inr ⟨by simp [Step.over], ?_⟩
    rw [if_neg starts.line, if_neg starts.block, if_pos is]
    exact congrArg (fun next => ok (Reading.mk next false false)) next
  | bracket starts is =>
    have next := closing_step [] [']'.toUInt8] at_
    have quote : isOf "'\"`" b = false := by rw [is]; decide
    refine .inr ⟨by simp [Step.over], ?_⟩
    rw [if_neg starts.line, if_neg starts.block, quote, if_neg Bool.false_ne_true, if_pos is]
    exact congrArg (fun next => ok (Reading.mk next false false)) next
  | semicolon starts is =>
    have quote : isOf "'\"`" b = false := by rw [is]; decide
    have bracket : b ≠ '['.toUInt8 := by rw [is]; decide
    refine .inr ⟨by simp, ?_⟩
    rw [if_neg starts.line, if_neg starts.block, quote, if_neg Bool.false_ne_true,
      if_neg bracket, if_pos is]
    rfl
  | parameter starts is =>
    obtain ⟨-, -, -, quote, bracket, semicolon⟩ := of_decide_eq_true (inert_of_isParameter is)
    have quote : isOf "'\"`" b = false := quote
    have is : isOf "?:@$#" b = true := is
    refine .inl ⟨rfl, ?_⟩
    rw [if_neg starts.line, if_neg starts.block, quote, if_neg Bool.false_ne_true,
      if_neg bracket, if_neg semicolon, if_pos is]
    exact ⟨_, rfl⟩
  | space is =>
    obtain ⟨dash, slash, quote, bracket, semicolon, parameter⟩ :=
      of_decide_eq_true (loose_of_isSpace is)
    have quote : isOf "'\"`" b = false := quote
    have parameter : isOf "?:@$#" b = false := parameter
    have is : isAsciiWhitespace b = true := is
    refine .inr ⟨by simp, ?_⟩
    rw [if_neg fun both => dash both.1, if_neg fun both => slash both.1, quote,
      if_neg Bool.false_ne_true, if_neg bracket, if_neg semicolon, parameter,
      if_neg Bool.false_ne_true, is]
    rfl
  | plain plain =>
    have quote : isOf "'\"`" b = false := plain.quote
    have parameter : isOf "?:@$#" b = false := plain.parameter
    have space : isAsciiWhitespace b = false := plain.space
    refine .inr ⟨by simp, ?_⟩
    rw [if_neg plain.line, if_neg plain.block, quote, if_neg Bool.false_ne_true,
      if_neg plain.bracket, if_neg plain.semicolon, parameter, if_neg Bool.false_ne_true, space]
    rfl

def Step.finish (s : Step) (i : ℕ) (finish : Option ℕ) : Option ℕ :=
  if s.mark = some .semicolon then finish <|> some i else finish

theorem scan_succ (fuel : ℕ) (at_ : bytes.drop i = b :: l) (finish : Option ℕ) :
    (∃ reason, scan bytes (fuel + 1) i finish = .error (.failed reason)) ∨
    ((step b l).mark ≠ some .parameter ∧
      (((step b l).finish i finish).isSome = true → (step b l).mark ≠ some .other) ∧
      scan bytes (fuel + 1) i finish = scan bytes fuel (i + 1 + (step b l).passed.length)
        ((step b l).finish i finish)) := by
  rw [scan, (getElem?_of_drop at_).1]
  rcases read_eq at_ with ⟨-, reason, is⟩ | ⟨notParameter, is⟩
  · exact .inl ⟨reason, by simp only [is]⟩
  simp only [is, Step.reading, decide_eq_true_eq]
  by_cases refused : ((step b l).finish i finish).isSome = true ∧ (step b l).mark = some .other
  · left
    refine ⟨_, if_pos ⟨refused.1, ?_⟩⟩
    simpa using refused.2
  refine .inr ⟨notParameter, fun ended other => refused ⟨ended, other⟩, if_neg ?_⟩
  rintro ⟨ended, not⟩
  exact refused ⟨ended, by simpa using not⟩

theorem scan_nil (at_ : bytes.drop i = []) (finish : Option ℕ) :
    scan bytes fuel i finish = .ok finish := by
  cases fuel with
  | zero => rfl
  | succ =>
    have none : bytes[i]? = none := by rw [← head?_drop, at_]; rfl
    rw [scan, none]

theorem marks_step :
    marks (b :: l) = (step b l).mark.toList ++ marks (step b l).rest := (step_steps b l).marks_eq

theorem semicolon_of_mark (is : (step b l).mark = some .semicolon) : b = ';'.toUInt8 := by
  have steps := step_steps b l
  generalize step b l = s at steps is
  cases steps with
  | semicolon _ same => exact same
  | _ => cases is

theorem length_drop_step (at_ : bytes.drop i = b :: l) (enough : (b :: l).length ≤ fuel + 1) :
    (bytes.drop (i + 1 + (step b l).passed.length)).length ≤ fuel := by
  rw [drop_step at_]
  have := length_step b l
  rw [length_cons] at enough
  omega

theorem scan_ended {finish : ℕ} {r : Option ℕ} (enough : (bytes.drop i).length ≤ fuel)
    (is : scan bytes fuel i (some finish) = .ok r) :
    r = some finish ∧ ∀ m ∈ marks (bytes.drop i), m = .semicolon := by
  induction fuel generalizing i with
  | zero =>
    rw [eq_nil_of_length_eq_zero (Nat.le_zero.1 enough), marks_nil]
    exact ⟨(ok.inj is).symm, fun m mem => absurd mem not_mem_nil⟩
  | succ fuel ih =>
    cases at_ : bytes.drop i with
    | nil =>
      rw [scan_nil at_] at is
      rw [marks_nil]
      exact ⟨(ok.inj is).symm, fun m mem => absurd mem not_mem_nil⟩
    | cons b l =>
      rcases scan_succ fuel at_ (some finish) with ⟨_, failed⟩ |
        ⟨notParameter, notOther, goes⟩
      · rw [failed] at is
        cases is
      have still : (step b l).finish i (some finish) = some finish := by
        unfold Step.finish
        split <;> rfl
      rw [goes, still] at is
      rw [still] at notOther
      obtain ⟨same, rest⟩ := ih (length_drop_step at_ (at_ ▸ enough)) is
      rw [drop_step at_] at rest
      refine ⟨same, fun m mem => ?_⟩
      rw [marks_step] at mem
      rcases mem_append.1 mem with mem | mem
      · have mark := mem_toList.1 mem
        cases m with
        | semicolon => rfl
        | parameter => exact absurd mark notParameter
        | other => exact absurd mark (notOther rfl)
      · exact rest m mem

/-- One statement and then semicolons, and where the statement ends. -/
def OneStatement (l : List UInt8) (i : ℕ) (finish : Option ℕ) : Prop :=
  ∃ others semicolons, marks l = others ++ semicolons ∧ (∀ m ∈ others, m = .other) ∧
    (∀ m ∈ semicolons, m = .semicolon) ∧ ((finish = none ∧ semicolons = []) ∨
      ∃ rest, finish = some (i + (statement l).length) ∧ l = statement l ++ ';'.toUInt8 :: rest)

theorem oneStatement_nil : OneStatement [] i none := by
  refine ⟨[], [], ?_, fun m mem => absurd mem not_mem_nil,
    fun _ mem => absurd mem not_mem_nil, .inl ⟨rfl, rfl⟩⟩
  rw [marks_nil]
  rfl

/-- Before the first semicolon, the loop gets to the end if there is one statement and then
semicolons; it returns where the statement ends. -/
theorem scan_open {r : Option ℕ} (enough : (bytes.drop i).length ≤ fuel)
    (is : scan bytes fuel i none = .ok r) : OneStatement (bytes.drop i) i r := by
  induction fuel generalizing i with
  | zero =>
    rw [eq_nil_of_length_eq_zero (Nat.le_zero.1 enough), ← ok.inj is]
    exact oneStatement_nil
  | succ fuel ih =>
    cases at_ : bytes.drop i with
    | nil =>
      rw [scan_nil at_] at is
      rw [← ok.inj is]
      exact oneStatement_nil
    | cons b l =>
      rcases scan_succ fuel at_ none with ⟨_, failed⟩ | ⟨notParameter, -, goes⟩
      · rw [failed] at is
        cases is
      rw [goes] at is
      have shorter := length_drop_step at_ (at_ ▸ enough)
      rw [OneStatement, marks_step, (step_steps b l).statement_eq]
      by_cases semicolon : (step b l).mark = some .semicolon
      · rw [Step.finish, if_pos semicolon] at is
        obtain ⟨rfl, rest⟩ := scan_ended shorter is
        rw [drop_step at_] at rest
        refine ⟨[], _, rfl, fun m mem => absurd mem not_mem_nil, fun m mem => ?_,
          .inr ⟨l, ?_⟩⟩
        · rcases mem_append.1 mem with mem | mem
          · rw [semicolon] at mem
            exact mem_singleton.1 mem
          · exact rest m mem
        rw [if_pos semicolon, semicolon_of_mark semicolon]
        exact ⟨rfl, rfl⟩
      rw [Step.finish, if_neg semicolon] at is
      obtain ⟨others, semicolons, same, all, then_, ends⟩ := ih shorter is
      rw [drop_step at_] at same ends
      refine ⟨(step b l).mark.toList ++ others, semicolons, ?_, ?_, then_, ?_⟩
      · rw [same, append_assoc]
      · intro m mem
        rcases mem_append.1 mem with mem | mem
        · have mark := mem_toList.1 mem
          cases m with
          | semicolon => exact absurd mark semicolon
          | parameter => exact absurd mark notParameter
          | other => rfl
        · exact all m mem
      refine ends.imp_right ?_
      rintro ⟨rest, rfl, isRest⟩
      rw [if_neg semicolon]
      refine ⟨rest, ?_, ?_⟩
      · rw [length_cons, length_append]
        congr 1
        omega
      · rw [cons_append, append_assoc, ← isRest, (step_steps b l).append]

theorem scan_ne_panic (fuel i : ℕ) (finish : Option ℕ) :
    scan bytes fuel i finish ≠ .error .panic := by
  induction fuel generalizing i finish with
  | zero => exact nofun
  | succ fuel ih =>
    cases at_ : bytes.drop i with
    | nil =>
      rw [scan_nil at_]
      exact nofun
    | cons =>
      rcases scan_succ fuel at_ finish with ⟨_, failed⟩ | ⟨-, -, goes⟩
      · rw [failed]
        exact nofun
      rw [goes]
      exact ih _ _

/-! ### Slices -/

theorem sliceTo_encode (left right : List Char) :
    sliceTo (left ++ right) (encode left).length = .ok left := by
  rw [sliceTo, split_encode]

theorem sliceFrom_encode (left right : List Char) :
    sliceFrom (left ++ right) (encode left).length = .ok right := by
  rw [sliceFrom, split_encode]

/-- **`single_statement/1` never panics**, and what it returns is the part of a text before the
first semicolon, if the text is one statement. -/
theorem singleStatement_spec (text : List Char) :
    (∃ reason, singleStatement text = .error (.failed reason)) ∨
    ∃ part rest finish, singleStatement text = .ok part ∧ text = part ++ rest ∧
      OneStatement (encode text) 0 finish ∧ ∀ m ∈ marks (encode part), m = .other := by
  unfold singleStatement
  dsimp only
  cases is : scan (encode text) (encode text).length 0 none with
  | error stop =>
    cases stop with
    | panic => exact absurd is (scan_ne_panic _ _ _)
    | failed reason => exact .inl ⟨reason, rfl⟩
  | ok =>
    right
    have one := scan_open (i := 0) le_rfl is
    rw [drop_zero] at one
    obtain ⟨others, semicolons, same, all, then_, ends⟩ := one
    rcases ends with ⟨rfl, rfl⟩ | ⟨rest, rfl, isRest⟩
    · refine ⟨text, [], none, ?_, (append_nil _).symm,
        ⟨others, [], same, all, then_, .inl ⟨rfl, rfl⟩⟩, ?_⟩
      · have slice := sliceTo_encode text []
        rwa [append_nil] at slice
      rw [same, append_nil]
      exact all
    obtain ⟨left, c, right, rfl, isLeft, -, -⟩ := exists_of_encode_eq (by decide) isRest
    refine ⟨left, c :: right, _, ?_, rfl,
      ⟨others, semicolons, same, all, then_, .inr ⟨rest, rfl, isRest⟩⟩, ?_⟩
    · have slice := sliceTo_encode left (c :: right)
      rw [isLeft] at slice
      show sliceTo _ (0 + _) = _
      rw [Nat.zero_add]
      exact slice
    rw [isLeft, marks_statement, same]
    intro m mem
    have notSemicolon : m ≠ .semicolon := by simpa using mem_takeWhile_imp mem
    rcases mem_append.1 ((takeWhile_sublist _).subset mem) with mem | mem
    · exact all m mem
    · exact absurd (then_ m mem) notSemicolon

/-! ### Trimming -/

theorem exists_trim (text : List Char) : ∃ lead tail, text = lead ++ (trim text ++ tail) ∧
    ∀ c ∈ lead, isWhitespace c = true := by
  refine ⟨text.takeWhile isWhitespace,
    ((text.dropWhile isWhitespace).reverse.takeWhile isWhitespace).reverse, ?_,
    fun _ mem => mem_takeWhile_imp mem⟩
  rw [trim, ← reverse_append, takeWhile_append_dropWhile, reverse_reverse,
    takeWhile_append_dropWhile]

theorem marks_of_loose (is : loose b = true) :
    marks (b :: l) = (if isSpace b then [] else [.other]) ++ marks l := by
  obtain ⟨dash, slash, quote, bracket, semicolon, parameter⟩ := of_decide_eq_true is
  cases space : isSpace b with
  | true =>
    rw [(Steps.space space).marks_eq]
    rfl
  | false =>
    have plain : Plain b l := ⟨⟨space, fun both => dash both.1, fun both => slash both.1⟩,
      quote, bracket, semicolon, parameter⟩
    rw [(Steps.plain plain).marks_eq]
    rfl

theorem loose_of_not_ascii (other : 128 ≤ b.toNat) : loose b = true := by
  have excluded : ∀ {chars : String}, chars.toList.all (fun c => c.toUInt8.toNat < 128) = true →
      isOf chars b = false := by
    intro chars ascii
    cases one : isOf chars b with
    | false => rfl
    | true =>
      have low := of_decide_eq_true (of_isOf one (p := fun b => b.toNat < 128) ascii)
      omega
  refine decide_eq_true ⟨?_, ?_, excluded (by decide), ?_, ?_, excluded (by decide)⟩ <;>
    (rintro rfl; exact absurd other (by decide))

variable {c : Char}

theorem loose_of_whitespace (is : isWhitespace c = true) (mem : b ∈ String.utf8EncodeChar c) :
    loose b = true := by
  by_cases ascii : c.toNat < 128
  · have small : (9 ≤ c.toNat ∧ c.toNat ≤ 13) ∨ c.toNat = 32 := by
      simp only [isWhitespace, Bool.or_eq_true, Bool.and_eq_true, decide_eq_true_eq] at is
      omega
    rw [utf8EncodeChar_of_ascii ascii, mem_singleton] at mem
    have cases_ : c.toNat ∈ [9, 10, 11, 12, 13, 32] := by
      simp only [mem_cons, not_mem_nil, or_false]
      omega
    have all : ∀ n ∈ [9, 10, 11, 12, 13, 32], loose (UInt8.ofNat n) = true := by decide
    rw [mem]
    exact all _ cases_
  · exact loose_of_not_ascii (le_of_mem_utf8EncodeChar (not_lt.1 ascii) mem)

theorem mem_marks_of_loose {x : List UInt8} (all : ∀ b ∈ x, loose b = true) {m : Mark}
    (mem : m ∈ marks l) : m ∈ marks (x ++ l) := by
  induction x with
  | nil => exact mem
  | cons b _ ih =>
    rw [cons_append, marks_of_loose (all b mem_cons_self)]
    exact mem_append_right _ (ih fun b mem => all b (mem_cons_of_mem _ mem))

variable {text : List Char}

theorem marks_trim (all : ∀ m ∈ marks (encode text), m = .other) :
    ∀ m ∈ marks (encode (trim text)), m = .other := by
  obtain ⟨lead, tail, is, white⟩ := exists_trim text
  have loose : ∀ b ∈ encode lead, loose b = true := by
    intro _ mem
    obtain ⟨c, memC, memB⟩ := mem_flatMap.1 mem
    exact loose_of_whitespace (white c memC) memB
  refine other_of_append (x := encode tail) _ fun m mem => all m ?_
  rw [is, encode_append, encode_append]
  exact mem_marks_of_loose loose mem

/-! ### The first keyword -/

def afterBlanks : List UInt8 → List UInt8
  | [] => []
  | b :: l => if (step b l).mark = none then afterBlanks (step b l).rest else b :: l
termination_by l => l.length
decreasing_by exact Nat.lt_succ_of_le (length_step b l)

variable {s : Step}

theorem afterBlanks_of_blank (steps : Steps b l s) (blank : s.mark = none) :
    afterBlanks (b :: l) = afterBlanks s.rest := by
  rw [afterBlanks, steps.eq, if_pos blank]

theorem afterBlanks_of_mark (steps : Steps b l s) (marked : s.mark ≠ none) :
    afterBlanks (b :: l) = b :: l := by
  rw [afterBlanks, steps.eq, if_neg marked]

theorem skips_afterBlanks : Skips afterBlanks := fun _ _ _ => afterBlanks_of_blank

theorem take_two {c d : UInt8} : (b :: l).take 2 = [c, d] ↔ b = c ∧ l.head? = some d := by
  cases l with
  | nil | cons => simp

theorem skipBlanks_succ (fuel : ℕ) (at_ : bytes.drop i = b :: l) : skipBlanks bytes (fuel + 1) i =
      if (step b l).mark = none then skipBlanks bytes fuel (i + 1 + (step b l).passed.length)
      else i := by
  have stays : ∀ {s : Step}, Starts b l → s.mark ≠ none → skipBlanks bytes (fuel + 1) i =
      if s.mark = none then skipBlanks bytes fuel (i + 1 + s.passed.length) else i := by
    intro s starts marked
    have space : isAsciiWhitespace b = false := starts.space
    rw [skipBlanks, at_, (getElem?_of_drop at_).1, if_neg (mt take_two.1 starts.line),
      if_neg (mt take_two.1 starts.block), any_some, space, if_neg Bool.false_ne_true,
      if_neg marked]
  have steps := step_steps b l
  generalize step b l = s at steps
  cases steps with
  | line is twice =>
    rw [← cons_tail_of_head? twice] at at_
    have next := closing_step ['-'.toUInt8] ['\n'.toUInt8] at_
    rw [skipBlanks, at_, if_pos (take_two.2 ⟨is, rfl⟩)]
    exact congrArg (skipBlanks bytes fuel) next
  | block is opens =>
    rw [← cons_tail_of_head? opens] at at_
    have next := closing_step ['*'.toUInt8] ['*'.toUInt8, '/'.toUInt8] at_
    have ne : b ≠ '-'.toUInt8 := by rw [is]; decide
    rw [skipBlanks, at_, if_neg fun both => ne (take_two.1 both).1, if_pos (take_two.2 ⟨is, rfl⟩)]
    exact congrArg (skipBlanks bytes fuel) next
  | space is =>
    obtain ⟨dash, slash, -⟩ := of_decide_eq_true (loose_of_isSpace is)
    have space : isAsciiWhitespace b = true := is
    rw [skipBlanks, at_, (getElem?_of_drop at_).1, if_neg fun both => dash (take_two.1 both).1,
      if_neg fun both => slash (take_two.1 both).1, any_some, if_pos space, if_pos rfl]
    rfl
  | quoted starts => exact stays starts (some_ne_none _)
  | bracket starts => exact stays starts (some_ne_none _)
  | semicolon starts => exact stays starts (some_ne_none _)
  | parameter starts => exact stays starts (some_ne_none _)
  | plain plain => exact stays plain.toStarts (some_ne_none _)

/-- **The loop of `first_keyword/1`** passes over white space and comments. -/
theorem skipBlanks_spec (inside : i ≤ bytes.length) (enough : (bytes.drop i).length ≤ fuel) :
    bytes.drop (skipBlanks bytes fuel i) = afterBlanks (bytes.drop i) ∧
      skipBlanks bytes fuel i ≤ bytes.length := by
  induction fuel generalizing i with
  | zero =>
    rw [skipBlanks, eq_nil_of_length_eq_zero (Nat.le_zero.1 enough), afterBlanks]
    exact ⟨rfl, inside⟩
  | succ fuel ih =>
    cases at_ : bytes.drop i with
    | nil =>
      have none : bytes[i]? = none := by rw [← head?_drop, at_]; rfl
      rw [skipBlanks, at_, none, afterBlanks]
      exact ⟨at_, inside⟩
    | cons b l =>
      rw [skipBlanks_succ fuel at_, afterBlanks]
      split
      · have within : i + 1 + (step b l).passed.length ≤ bytes.length := by
          have whole := length_of_drop at_
          have part := congrArg length (step_steps b l).append
          rw [length_append] at part
          omega
        have rest := ih within (length_drop_step at_ (at_ ▸ enough))
        rwa [drop_step at_] at rest
      · exact ⟨at_, inside⟩

theorem blank_end (steps : Steps b l s) (blank : s.mark = none) :
    s.rest = [] ∨ ∃ front last, b :: s.passed = front ++ [last] ∧ last.toNat < 128 := by
  cases steps with
  | line =>
    refine (through_closed ['\n'.toUInt8] l.tail).imp_right ?_
    rintro ⟨front, closed⟩
    refine ⟨b :: '-'.toUInt8 :: front, '\n'.toUInt8, ?_, by decide⟩
    exact congrArg (b :: '-'.toUInt8 :: ·) closed
  | block =>
    refine (through_closed ['*'.toUInt8, '/'.toUInt8] l.tail).imp_right ?_
    rintro ⟨front, closed⟩
    refine ⟨b :: '*'.toUInt8 :: (front ++ ['*'.toUInt8]), '/'.toUInt8, ?_, by decide⟩
    refine congrArg (b :: '*'.toUInt8 :: ·) (closed.trans ?_)
    exact (append_assoc front ['*'.toUInt8] ['/'.toUInt8]).symm
  | space is =>
    have ascii := of_isOf is (p := fun b => b.toNat < 128) (by decide)
    exact .inr ⟨[], b, rfl, of_decide_eq_true ascii⟩
  | _ => cases blank

theorem afterBlanks_cut : ∃ lead, l = lead ++ afterBlanks l ∧
    (lead = [] ∨ afterBlanks l = [] ∨ ∃ front b, lead = front ++ [b] ∧ b.toNat < 128) := by
  induction l using steps_induction with
  | nil =>
    refine ⟨[], ?_, .inl rfl⟩
    rw [afterBlanks]
    rfl
  | cons b _ s steps ih =>
    by_cases blank : s.mark = none
    · rw [afterBlanks_of_blank steps blank]
      obtain ⟨lead, is, ends⟩ := ih
      refine ⟨b :: s.passed ++ lead, ?_, .inr ?_⟩
      · rw [append_assoc, ← is, cons_append, steps.append]
      rcases ends with rfl | none | ⟨front, last, rfl, ascii⟩
      · rw [append_nil]
        refine (blank_end steps blank).imp_left fun ended => ?_
        rw [ended, afterBlanks]
      · exact .inl none
      · exact .inr ⟨b :: s.passed ++ front, last, (append_assoc ..).symm, ascii⟩
    · exact ⟨[], (afterBlanks_of_mark steps blank).symm, .inl rfl⟩

theorem exists_afterBlanks (text : List Char) :
    ∃ left right, text = left ++ right ∧ encode right = afterBlanks (encode text) := by
  obtain ⟨_, is, rfl | none | ⟨_, _, rfl, ascii⟩⟩ := afterBlanks_cut
  · exact ⟨[], text, rfl, is⟩
  · exact ⟨text, [], (append_nil _).symm, none.symm⟩
  rw [append_assoc, singleton_append] at is
  obtain ⟨left, c, right, whole, -, isRight, -⟩ := exists_of_encode_eq ascii is
  exact ⟨left ++ [c], right, by rw [whole, append_assoc, singleton_append], isRight⟩

theorem sliceTo_find {p : Char → Bool} :
    sliceTo text ((find (!p ·) text).getD (encode text).length) = .ok (text.takeWhile p) := by
  have length : (find (!p ·) text).getD (encode text).length
      = (encode (text.takeWhile p)).length := by
    induction text with
    | nil => rfl
    | cons c text ih =>
      rw [find]
      cases is : p c with
      | false => simp [is]
      | true =>
        rw [if_neg (by simp), takeWhile_cons_of_pos is, encode_cons, encode_cons,
          length_append, length_append, ← ih, String.length_utf8EncodeChar]
        cases find (!p ·) text <;> rfl
  have slice := sliceTo_encode (text.takeWhile p) (text.dropWhile p)
  rwa [takeWhile_append_dropWhile, ← length] at slice

/-- **`first_keyword/1` never panics**, and returns the letters after the white space and
comments. -/
theorem firstKeyword_spec (text : List Char) : ∃ left right, text = left ++ right ∧
    encode right = afterBlanks (encode text) ∧
    firstKeyword text = .ok (right.takeWhile isAsciiAlphabetic) := by
  obtain ⟨left, right, is, isRight⟩ := exists_afterBlanks text
  refine ⟨left, right, is, isRight, ?_⟩
  obtain ⟨there, _⟩ := skipBlanks_spec (Nat.zero_le (encode text).length)
    (show ((encode text).drop 0).length ≤ (encode text).length from le_rfl)
  rw [drop_zero, ← isRight] at there
  have offset : skipBlanks (encode text) (encode text).length 0 = (encode left).length := by
    have rest := congrArg length there
    have whole : (encode text).length = (encode left).length + (encode right).length := by
      rw [is, encode_append, length_append]
    rw [length_drop] at rest
    omega
  have slice := sliceFrom_encode left right
  rw [← is, ← offset] at slice
  unfold firstKeyword
  dsimp only
  rw [slice]
  exact sliceTo_find

theorem isLetter_of_isAsciiAlphabetic (is : isAsciiAlphabetic c = true) :
    c.toNat < 128 ∧ isLetter (UInt8.ofNat c.toNat) = true := by
  have a : 'a'.toUInt8.toNat = 97 := rfl
  have z : 'z'.toUInt8.toNat = 122 := rfl
  have bigA : 'A'.toUInt8.toNat = 65 := rfl
  have bigZ : 'Z'.toUInt8.toNat = 90 := rfl
  have range : (97 ≤ c.toNat ∧ c.toNat ≤ 122) ∨ (65 ≤ c.toNat ∧ c.toNat ≤ 90) := by
    simp only [isAsciiAlphabetic, Bool.or_eq_true, Bool.and_eq_true, decide_eq_true_eq,
      Char.le_def, UInt32.le_iff_toNat_le] at is
    exact is
  have ascii : c.toNat < 128 := by omega
  have byte : (UInt8.ofNat c.toNat).toNat = c.toNat :=
    UInt8.toNat_ofNat_of_lt' (show c.toNat < 256 by omega)
  refine ⟨ascii, ?_⟩
  simp only [isLetter, Bool.or_eq_true, Bool.and_eq_true, decide_eq_true_eq,
    UInt8.le_iff_toNat_le, byte]
  omega

theorem mark_ne_none_of_starts (starts : Starts b l) : (step b l).mark ≠ none := by
  have steps := step_steps b l
  generalize step b l = s at steps
  cases steps with
  | line is twice => exact absurd ⟨is, twice⟩ starts.line
  | block is opens => exact absurd ⟨is, opens⟩ starts.block
  | space is => exact absurd (starts.space.symm.trans is) Bool.false_ne_true
  | _ => exact some_ne_none _

/-- A text whose first word is known has a token that begins with it, and only white space and
comments before. -/
theorem find?_tokens {word : List UInt8} (is : afterBlanks l = word ++ rest)
    (letters : ∀ b ∈ word, isLetter b = true)
    (first : ∀ b, word.head? = some b → isOf "xX" b = false) (some_ : word ≠ []) :
    ∃ t, (tokens l).find? (!·.blank) = some t ∧ word <+: t.text := by
  induction l using tokens_induction with
  | nil =>
    rw [afterBlanks] at is
    exact absurd (append_eq_nil_iff.1 is.symm).1 some_
  | cons b l t _ reads isTokens ih =>
    rw [isTokens]
    cases blank : t.blank with
    | true =>
      rw [skips_afterBlanks.token reads blank] at is
      rw [find?_cons_of_neg (by simp [blank])]
      exact ih is
    | false =>
      rw [find?_cons_of_pos (by simp [blank])]
      refine ⟨t, rfl, ?_⟩
      rw [afterBlanks_of_mark (step_steps b l) (mark_ne_none_of_starts (reads.starts blank))] at is
      cases word with
      | nil => exact absurd rfl some_
      | cons c =>
        rw [cons_append] at is
        obtain ⟨rfl, rfl⟩ := cons.inj is
        rw [reads.word_of_isLetter (letters b mem_cons_self) (first b rfl)]
        refine cons_prefix_cons.2 ⟨rfl, ?_⟩
        rw [takeWhile_append_of_pos fun c mem =>
          isIdChar_of_isLetter (letters c (mem_cons_of_mem _ mem))]
        exact prefix_append ..

theorem ofUInt8_ofNat (ascii : c.toNat < 128) : Char.ofUInt8 (UInt8.ofNat c.toNat) = c := by
  refine Char.ext (UInt32.toNat_inj.1 ?_)
  have byte : (UInt8.ofNat c.toNat).toNat = c.toNat :=
    UInt8.toNat_ofNat_of_lt' (show c.toNat < 256 by omega)
  exact (UInt8.toNat_toUInt32 _).trans byte

variable {keyword : List Char}

theorem encode_letters (all : ∀ c ∈ keyword, isAsciiAlphabetic c = true) :
    encode keyword = keyword.map fun c => UInt8.ofNat c.toNat := by
  induction keyword with
  | nil => rfl
  | cons c _ ih =>
    have ascii := (isLetter_of_isAsciiAlphabetic (all c mem_cons_self)).1
    rw [encode_cons, utf8EncodeChar_of_ascii ascii, map_cons,
      ih fun c mem => all c (mem_cons_of_mem _ mem)]
    rfl

theorem startsWith_of_keyword {word : String} {t : Token}
    (all : ∀ c ∈ keyword, isAsciiAlphabetic c = true)
    (upper : keyword.map Char.toUpper = word.toList) (part : encode keyword <+: t.text) :
    t.startsWith word = true := by
  have length : (encode keyword).length = word.length := by
    rw [encode_letters all, length_map, ← String.length_toList, ← upper, length_map]
  have taken := prefix_iff_eq_take.1 part
  rw [length] at taken
  refine decide_eq_true ?_
  rw [← taken, encode_letters all, List.map_map, ← upper]
  refine map_congr_left fun c mem => ?_
  exact congrArg Char.toUpper (ofUInt8_ofNat (isLetter_of_isAsciiAlphabetic (all c mem)).1)

/-- What `first_keyword/1` returns is at the head of the first token, where it is not that of a
blob literal. -/
theorem find?_of_keyword {right : List Char} {word : String}
    (is : encode right = afterBlanks (encode text))
    (upper : (right.takeWhile isAsciiAlphabetic).map Char.toUpper = word.toList)
    (head : word.toList.head?.any (· ≠ 'X') = true) :
    ∃ t, (tokens (encode text)).find? (!·.blank) = some t ∧ t.startsWith word = true := by
  have all : ∀ c ∈ right.takeWhile isAsciiAlphabetic, isAsciiAlphabetic c = true :=
    fun c mem => mem_takeWhile_imp mem
  have cut : afterBlanks (encode text) = encode (right.takeWhile isAsciiAlphabetic) ++
      encode (right.dropWhile isAsciiAlphabetic) := by
    rw [← is, ← encode_append, takeWhile_append_dropWhile]
  generalize right.takeWhile isAsciiAlphabetic = keyword at all cut upper
  have letters : ∀ b ∈ encode keyword, isLetter b = true := by
    rw [encode_letters all]
    intro b mem
    obtain ⟨c, memC, rfl⟩ := mem_map.1 mem
    exact (isLetter_of_isAsciiAlphabetic (all c memC)).2
  cases keyword with
  | nil =>
    rw [← upper] at head
    cases head
  | cons c keyword =>
    have ascii := (isLetter_of_isAsciiAlphabetic (all c mem_cons_self)).1
    have first : ∀ b, (encode (c :: keyword)).head? = some b → isOf "xX" b = false := by
      rw [encode_letters all]
      rintro b same
      have is : UInt8.ofNat c.toNat = b := some.inj same
      cases one : isOf "xX" b with
      | false => rfl
      | true =>
        have upperX := of_isOf one (p := fun b => (Char.ofUInt8 b).toUpper = 'X') (by decide)
        rw [← is, ofUInt8_ofNat ascii] at upperX
        rw [← upper] at head
        exact absurd (of_decide_eq_true upperX) (of_decide_eq_true head)
    have some_ : encode (c :: keyword) ≠ [] := by
      rw [encode_letters all]
      exact cons_ne_nil _ _
    obtain ⟨t, found, part⟩ := find?_tokens cut letters first some_
    exact ⟨t, found, startsWith_of_keyword all upper part⟩

/-! ### The check -/

/-- **`sql/1`** fails, or returns the trimmed statement with its first keyword checked. -/
theorem sql_spec (text : List Char) : (∃ reason, sql text = .error (.failed reason)) ∨
    ∃ part, singleStatement text = .ok part ∧ sql text = .ok (trim part) ∧
      ∃ keyword, firstKeyword (trim part) = .ok keyword ∧
        (keyword.map Char.toUpper = "SELECT".toList ∨
          keyword.map Char.toUpper = "WITH".toList) := by
  unfold sql
  split
  · exact .inl ⟨_, rfl⟩
  rcases singleStatement_spec text with ⟨reason, is⟩ | ⟨part, -, -, is, -, -, -⟩
  · rw [is]
    exact .inl ⟨reason, rfl⟩
  rw [is]
  obtain ⟨-, _, -, -, isKeyword⟩ := firstKeyword_spec (trim part)
  have go : ∀ {α β : Type} (a : α) (f : α → Except Stop β), (ok a >>= f) = f a :=
    fun _ _ => rfl
  rw [go]
  by_cases blank : trim part = []
  · rw [if_pos blank]
    exact .inl ⟨_, rfl⟩
  rw [if_neg blank, isKeyword]
  dsimp only
  rw [go]
  split
  · exact .inl ⟨_, rfl⟩
  rename_i both
  refine .inr ⟨part, rfl, rfl, _, isKeyword, ?_⟩
  by_contra neither
  exact both (not_or.1 neither)

/-- **The check of a query holds it to one statement.**  It never takes a slice off a character
boundary.  In a statement it returns, SQLite finds no semicolon and no parameter, and the first
token after white space and comments begins with `SELECT` or `WITH`.  After the first semicolon
of the text it was given there are only white space, comments and semicolons. -/
theorem sql_keeps_to_one_statement : (∀ text, sql text ≠ .error .panic) ∧
    ∀ text statement, sql text = .ok statement →
      (∀ t ∈ tokens (encode statement), t.kind ≠ .semicolon ∧ t.kind ≠ .parameter) ∧
      (∃ t, (tokens (encode statement)).find? (!·.blank) = some t ∧
        (t.startsWith "SELECT" = true ∨ t.startsWith "WITH" = true)) ∧
      ∀ t ∈ (tokens (encode text)).dropWhile (·.kind ≠ .semicolon), trailing t = true := by
  constructor
  · intro text panics
    rcases sql_spec text with ⟨reason, is⟩ | ⟨part, -, is, -⟩
    · cases is.symm.trans panics
    · cases is.symm.trans panics
  intro text statement accepted
  rcases sql_spec text with ⟨reason, is⟩ | ⟨part, isPart, is, _, isKeyword, either⟩
  · cases is.symm.trans accepted
  obtain rfl : trim part = statement := ok.inj (is.symm.trans accepted)
  obtain ⟨_, failed⟩ | ⟨_, _, _, same, -, one, clean⟩ := singleStatement_spec text
  · cases failed.symm.trans isPart
  rw [ok.inj (same.symm.trans isPart)] at clean
  obtain ⟨_, _, marked, first, then_, -⟩ := one
  refine ⟨tokens_of_others (marks_trim clean), ?_, tokens_after_semicolon marked first then_⟩
  obtain ⟨-, _, -, isRight, taken⟩ := firstKeyword_spec (trim part)
  obtain rfl := ok.inj (taken.symm.trans isKeyword)
  rcases either with upper | upper
  · obtain ⟨t, found, starts⟩ := find?_of_keyword isRight upper (by decide)
    exact ⟨t, found, .inl starts⟩
  obtain ⟨t, found, starts⟩ := find?_of_keyword isRight upper (by decide)
  exact ⟨t, found, .inr starts⟩

/-- A query with a quoted semicolon, and a comment after it. -/
theorem sql_keeps_quoted_semicolon :
    sql "SELECT 'a;b' ; -- done".toList = .ok "SELECT 'a;b'".toList ∧
      ∀ t ∈ tokens (encode "SELECT 'a;b'".toList), t.kind ≠ .semicolon ∧ t.kind ≠ .parameter :=
  have accepted : sql "SELECT 'a;b' ; -- done".toList = .ok "SELECT 'a;b'".toList := by
    decide +kernel
  ⟨accepted, (sql_keeps_to_one_statement.2 _ _ accepted).1⟩

end Renga.Agent.Queries.Sql
