import Mathlib.Order.CompletePartialOrder
import Mathlib.Order.Interval.Finset.Nat

/-!
# The first gap between intervals

A space of numbers is partly taken by intervals, which may overlap in any way.  The least place
for a block is found by one walk over the intervals in the order of their first elements: a
candidate that an interval meets moves behind that interval, and a candidate that ends before the
next interval begins stays (`scan`).
-/

namespace Gap

open List

/-- A nonempty interval of numbers, both ends included. -/
@[ext]
structure Interval where
  first : ℕ
  last : ℕ
  le : first ≤ last
deriving DecidableEq

namespace Interval

def elements (o : Interval) : Set ℕ := Set.Icc o.first o.last

def Before (o p : Interval) : Prop := o.first < p.first ∨ o.first = p.first ∧ o.last ≤ p.last

instance : DecidableRel Before := fun o p =>
  inferInstanceAs (Decidable (o.first < p.first ∨ o.first = p.first ∧ o.last ≤ p.last))

instance : Std.Total Before := ⟨fun o p => by unfold Before; omega⟩

instance : IsTrans Interval Before := ⟨fun o p q => by unfold Before; omega⟩

theorem Before.first_le {o p : Interval} (before : o.Before p) : o.first ≤ p.first := by
  unfold Before at before
  omega

end Interval

/-- The numbers of the block of `size` numbers that begins at `b`. -/
def block (b size : ℕ) : Set ℕ := Set.Icc b (b + size - 1)

theorem disjoint_block_iff {b size : ℕ} (pos : 0 < size) (o : Interval) :
    Disjoint (block b size) o.elements ↔ o.last < b ∨ b + size - 1 < o.first := by
  have le := o.le
  rw [Set.disjoint_left]
  constructor
  · intro apart
    by_contra meets
    refine apart (a := max b o.first) ?_ ?_
    all_goals simp only [block, Interval.elements, Set.mem_Icc]; omega
  intro _ a inBlock inInterval
  simp only [block, Interval.elements, Set.mem_Icc] at inBlock inInterval
  omega

/-- The walk over the intervals.  `next stop` is where a candidate goes that met an interval
which ends at `stop`. -/
def scan (last size : ℕ) (next : ℕ → ℕ) : ℕ → List Interval → ℕ
  | candidate, [] => candidate
  | candidate, o :: rest =>
    if last < candidate + size - 1 then candidate
    else if o.last < candidate then scan last size next candidate rest
    else if candidate + size - 1 < o.first then candidate
    else scan last size next (next o.last) rest

variable {l : List Interval}

section Scan

variable {last size : ℕ} {next : ℕ → ℕ} {Open : ℕ → Prop}

variable (last) in
/-- **What one walk establishes.**  It ends at an open place not before the candidate; every
open place it passed is met by an interval; and the place it ends at, if a block fits there,
is met by none. -/
theorem scan_spec (pos : 0 < size) (sorted : l.Pairwise fun o p => o.first ≤ p.first)
    (moves : ∀ o ∈ l, IsLeast {b | Open b ∧ o.last < b} (next o.last)) :
    ∀ candidate, Open candidate →
      Open (scan last size next candidate l) ∧ candidate ≤ scan last size next candidate l ∧
      (∀ b, Open b → candidate ≤ b → b < scan last size next candidate l →
        ∃ o ∈ l, ¬ Disjoint (block b size) o.elements) ∧
      (scan last size next candidate l + size - 1 ≤ last →
        ∀ o ∈ l, Disjoint (block (scan last size next candidate l) size) o.elements) := by
  induction l with
  | nil =>
    intro candidate isOpen
    exact ⟨isOpen, le_rfl, fun b _ le lt => absurd lt (not_lt.2 le), fun _ o mem => by cases mem⟩
  | cons o rest ih =>
    intro candidate isOpen
    rw [pairwise_cons] at sorted
    have later := ih sorted.2 fun p mem => moves p (mem_cons_of_mem _ mem)
    unfold scan
    -- The place the candidate ends at once it has left `o` behind.
    have behind : ∀ start, Open start → o.last < start →
        scan last size next start rest + size - 1 ≤ last →
        ∀ p ∈ o :: rest, Disjoint (block (scan last size next start rest) size) p.elements := by
      intro start opens lt fits p mem
      obtain ⟨-, le, -, free⟩ := later start opens
      rcases mem_cons.1 mem with rfl | mem
      · exact (disjoint_block_iff pos p).2 (.inl (lt_of_lt_of_le lt le))
      · exact free fits p mem
    by_cases beyond : last < candidate + size - 1
    · rw [if_pos beyond]
      exact ⟨isOpen, le_rfl, fun b _ le lt => absurd lt (not_lt.2 le),
        fun fits => absurd beyond (not_lt.2 fits)⟩
    rw [if_neg beyond]
    by_cases passed : o.last < candidate
    · rw [if_pos passed]
      obtain ⟨opens, le, met, -⟩ := later candidate isOpen
      refine ⟨opens, le, fun b isOpen' le' lt => ?_, behind candidate isOpen passed⟩
      obtain ⟨p, mem, meets⟩ := met b isOpen' le' lt
      exact ⟨p, mem_cons_of_mem _ mem, meets⟩
    rw [if_neg passed]
    by_cases free : candidate + size - 1 < o.first
    · rw [if_pos free]
      refine ⟨isOpen, le_rfl, fun b _ le lt => absurd lt (not_lt.2 le), fun _ p mem => ?_⟩
      refine (disjoint_block_iff pos p).2 (.inr ?_)
      rcases mem_cons.1 mem with rfl | mem
      · exact free
      · exact lt_of_lt_of_le free (sorted.1 p mem)
    rw [if_neg free]
    obtain ⟨⟨opens, lt⟩, least⟩ := moves o mem_cons_self
    obtain ⟨opens', _, met, -⟩ := later (next o.last) opens
    refine ⟨opens', by omega, fun b isOpen' _ lt' => ?_, behind (next o.last) opens lt⟩
    by_cases before : b < next o.last
    · -- An open place before the next candidate does not lie behind `o`.
      have notBehind : ¬ o.last < b := fun behind => absurd (least ⟨isOpen', behind⟩) (by omega)
      refine ⟨o, mem_cons_self, fun apart => ?_⟩
      have := (disjoint_block_iff pos o).1 apart
      omega
    obtain ⟨p, mem, meets⟩ := met b isOpen' (by omega) lt'
    exact ⟨p, mem_cons_of_mem _ mem, meets⟩

/-- The open places where a block fits before `last` and meets no interval. -/
def free (Open : ℕ → Prop) (last size : ℕ) (l : List Interval) : Set ℕ :=
  {b | Open b ∧ b + size - 1 ≤ last ∧ ∀ o ∈ l, Disjoint (block b size) o.elements}

variable {l : List Interval} {candidate : ℕ} (pos : 0 < size)
  (sorted : l.Pairwise fun o p => o.first ≤ p.first)
  (moves : ∀ o ∈ l, IsLeast {b | Open b ∧ o.last < b} (next o.last))
  (starts : IsLeast {b | Open b} candidate)
include pos sorted moves starts

/-- **If a block fits where the walk ends, that is the least free place.** -/
theorem scan_isLeast (fits : scan last size next candidate l + size - 1 ≤ last) :
    IsLeast (free Open last size l) (scan last size next candidate l) := by
  obtain ⟨opens, -, met, apart⟩ := scan_spec last pos sorted moves candidate starts.1
  refine ⟨⟨opens, fits, apart fits⟩, fun b isFree => ?_⟩
  by_contra before
  obtain ⟨o, mem, meets⟩ := met b isFree.1 (starts.2 isFree.1) (not_le.1 before)
  exact meets (isFree.2.2 o mem)

/-- **If no block fits where the walk ends, no place is free.** -/
theorem scan_none (beyond : last < scan last size next candidate l + size - 1) :
    free Open last size l = ∅ := by
  obtain ⟨-, -, met, -⟩ := scan_spec last pos sorted moves candidate starts.1
  refine Set.eq_empty_of_forall_notMem fun b isFree => ?_
  have fits := isFree.2.1
  obtain ⟨o, mem, meets⟩ := met b isFree.1 (starts.2 isFree.1) (by omega)
  exact meets (isFree.2.2 o mem)

end Scan

/-! ### Counting what is covered -/

/-- Every number that is in an interval. -/
def cover (l : List Interval) : Finset ℕ := l.toFinset.biUnion fun o => Finset.Icc o.first o.last

theorem mem_cover {a : ℕ} : a ∈ cover l ↔ ∃ o ∈ l, a ∈ o.elements := by
  simp only [cover, Finset.mem_biUnion, mem_toFinset, Finset.mem_Icc, Interval.elements,
    Set.mem_Icc]

/-- Counts the numbers that intervals cover, with the greatest number covered so far. -/
def sweep (l : List Interval) : ℤ × ℤ :=
  l.foldl (fun acc o =>
    (acc.1 + max ((o.last : ℤ) - max ((o.first : ℤ) - 1) acc.2) 0, max acc.2 o.last)) (0, -1)

theorem sweep_spec (sorted : l.Pairwise fun o p => o.first ≤ p.first) :
    (sweep l).1 = (cover l).card ∧ -1 ≤ (sweep l).2 ∧ (∀ o ∈ l, o.last ≤ (sweep l).2) ∧
      (0 ≤ (sweep l).2 → ∃ o ∈ l, o.last = (sweep l).2) := by
  induction l using reverseRecOn with
  | nil => exact ⟨rfl, by decide, fun o mem => (by cases mem), fun le => absurd le (by decide)⟩
  | append_singleton l o ih =>
    obtain ⟨sortedL, -, before⟩ := pairwise_append.1 sorted
    obtain ⟨count, _, upper, attained⟩ := ih sortedL
    have next : sweep (l ++ [o]) =
        ((sweep l).1 + max ((o.last : ℤ) - max ((o.first : ℤ) - 1) (sweep l).2) 0,
          max (sweep l).2 o.last) := by
      rw [sweep, foldl_append]
      rfl
    rw [next]
    -- What the last interval adds lies behind all that is covered.
    let added := Finset.Icc (max o.first ((sweep l).2 + 1).toNat) o.last
    have union : cover (l ++ [o]) = cover l ∪ added := by
      ext a
      simp only [Finset.mem_union, mem_cover, mem_append, mem_singleton, added, Finset.mem_Icc]
      constructor
      · rintro ⟨p, memP | rfl, inside⟩
        · exact .inl ⟨p, memP, inside⟩
        simp only [Interval.elements, Set.mem_Icc] at inside
        by_cases behind : (sweep l).2 < a
        · exact .inr ⟨by omega, inside.2⟩
        obtain ⟨q, memQ, last⟩ := attained (by omega)
        have first := before q memQ p mem_cons_self
        exact .inl ⟨q, memQ, by simp only [Interval.elements, Set.mem_Icc]; omega⟩
      rintro (⟨p, memP, inside⟩ | inside)
      · exact ⟨p, .inl memP, inside⟩
      · exact ⟨o, .inr rfl, by simp only [Interval.elements, Set.mem_Icc]; omega⟩
    have apart : Disjoint (cover l) added := by
      rw [Finset.disjoint_left]
      intro _ covered
      obtain ⟨p, memP, inside⟩ := mem_cover.1 covered
      have := upper p memP
      simp only [Interval.elements, Set.mem_Icc] at inside
      simp only [added, Finset.mem_Icc]
      omega
    refine ⟨?_, by omega, ?_, fun _ => ?_⟩
    · rw [union, Finset.card_union_of_disjoint apart, Nat.card_Icc, count]
      omega
    · intro p mem
      rcases mem_append.1 mem with mem | mem
      · have := upper p mem
        omega
      rw [mem_singleton.1 mem]
      exact le_max_right _ _
    by_cases later : (sweep l).2 ≤ o.last
    · exact ⟨o, by simp, (max_eq_right later).symm⟩
    obtain ⟨p, memP, _⟩ := attained (by omega)
    exact ⟨p, mem_append_left _ memP, by simp only; omega⟩

/-- **A sweep over sorted intervals counts every covered number once.** -/
theorem sweep_count (sorted : l.Pairwise fun o p => o.first ≤ p.first) :
    (sweep l).1 = (cover l).card :=
  (sweep_spec sorted).1

end Gap
