import Mathlib.Data.List.Basic

/-!
# Text made of separated fields

Fields joined by a separator can be read back as long as the separator does not occur in
them.  `split_front` reads the first field and `split_back` the last one, so a text with one
unrestricted field is still read back when the fields before it are read from the front and
the fields after it from the back.
-/

universe u

namespace Lines

open List

variable {α : Type u} {separator : α} {first first' rest rest' : List α}

theorem split_front (plain : separator ∉ first) (plain' : separator ∉ first')
    (same : first ++ separator :: rest = first' ++ separator :: rest') :
    first = first' ∧ rest = rest' := by
  induction first generalizing first' with
  | nil =>
    cases first' with
    | nil => exact ⟨rfl, (cons.inj same).2⟩
    | cons c =>
      have head : separator = c := (cons.inj same).1
      exact absurd (head ▸ mem_cons_self) plain'
  | cons c _ ih =>
    cases first' with
    | nil =>
      have head : c = separator := (cons.inj same).1
      exact absurd (head ▸ mem_cons_self) plain
    | cons c' =>
      obtain ⟨head, tail⟩ := cons.inj same
      obtain ⟨cs_eq, rest_eq⟩ := ih (fun mem => plain (mem_cons_of_mem c mem))
        (fun mem => plain' (mem_cons_of_mem c' mem)) tail
      exact ⟨by rw [head, cs_eq], rest_eq⟩

theorem split_back (plain : separator ∉ rest) (plain' : separator ∉ rest')
    (same : first ++ separator :: rest = first' ++ separator :: rest') :
    first = first' ∧ rest = rest' := by
  have backwards : rest.reverse ++ separator :: first.reverse
      = rest'.reverse ++ separator :: first'.reverse := by
    have reversed := congrArg reverse same
    simpa only [reverse_append, reverse_cons, append_assoc, singleton_append] using reversed
  obtain ⟨last, front⟩ := split_front (fun mem => plain (mem_reverse.1 mem))
    (fun mem => plain' (mem_reverse.1 mem)) backwards
  exact ⟨reverse_injective front, reverse_injective last⟩

/-! ### Reading -/

variable [DecidableEq α]

/-- What is before the first separator and what is behind it. -/
def splitOnce (separator : α) : List α → Option (List α × List α)
  | [] => none
  | c :: cs =>
    if c = separator then some ([], cs)
    else (splitOnce separator cs).map fun (field, rest) => (c :: field, rest)

theorem splitOnce_append (plain : separator ∉ first) :
    splitOnce separator (first ++ separator :: rest) = some (first, rest) := by
  induction first with
  | nil => exact if_pos rfl
  | cons c _ ih =>
    have other : c ≠ separator := by
      rintro rfl
      exact plain mem_cons_self
    rw [cons_append, splitOnce, if_neg other, ih fun mem => plain (mem_cons_of_mem c mem)]
    rfl

variable {text : List α}

theorem splitOnce_eq_none (read : splitOnce separator text = none) : separator ∉ text := by
  intro member
  obtain ⟨_, _, rfl, plain⟩ := eq_append_cons_of_mem member
  cases (splitOnce_append plain).symm.trans read

theorem splitOnce_eq_some (read : splitOnce separator text = some (first, rest)) :
    separator ∉ first ∧ text = first ++ separator :: rest := by
  have member : separator ∈ text := by
    by_contra absent
    induction text generalizing first with
    | nil => cases read
    | cons c _ ih =>
      rw [splitOnce, if_neg fun (same : c = separator) => absent (same ▸ mem_cons_self)] at read
      obtain ⟨⟨field, _⟩, read, same⟩ := Option.map_eq_some_iff.1 read
      cases same
      exact ih read fun mem => absent (mem_cons_of_mem c mem)
  obtain ⟨_, _, rfl, plain⟩ := eq_append_cons_of_mem member
  cases (splitOnce_append plain).symm.trans read
  exact ⟨plain, rfl⟩

theorem splitOn_flatMap {fields : List (List α)} (plain : ∀ field ∈ fields, separator ∉ field)
    (ends : separator ∉ rest) :
    (fields.flatMap (· ++ [separator]) ++ rest).splitOn separator = fields ++ [rest] := by
  induction fields with
  | nil => exact splitOn_eq_singleton ends
  | cons field fields ih =>
    obtain ⟨first, others⟩ := forall_mem_cons.1 plain
    rw [flatMap_cons, append_assoc, append_assoc, singleton_append,
      splitOn_append_cons_self_of_not_mem first, ih others]
    rfl

/-- The text without its ending, if it ends so. -/
def stripSuffix (ending text : List α) : Option (List α) :=
  if ending <:+ text then some (text.take (text.length - ending.length)) else none

theorem stripSuffix_append {ending : List α} : stripSuffix ending (text ++ ending) = some text := by
  rw [stripSuffix, if_pos (suffix_append text ending), length_append, Nat.add_sub_cancel, take_left]

end Lines
