import Mathlib.Data.List.Induction
import Mathlib.Data.List.Pairwise
import Mathlib.Data.List.Sort

/-!
# Greedy selection

Things with ends are taken one after the other, in the order of a list; one is selected if its
ends are all free, and then occupies them.  What is selected is a recursion over the order only
(`mem_select_iff`): a thing is selected if nothing before it that is selected shares an end with
it.
-/

namespace Greedy

open List

variable {α κ : Type*} [DecidableEq κ] (ends : α → List κ)

/-- What a pass has taken, latest first, what it passed over, and the ends in use. -/
structure Scan (α κ : Type*) where
  selected : List α := []
  blocked : List α := []
  occupied : List κ := []

/-- `a` is taken if no end of it is in use. -/
def step (scan : Scan α κ) (a : α) : Scan α κ :=
  if (ends a).all (· ∉ scan.occupied) then
    { scan with selected := a :: scan.selected, occupied := ends a ++ scan.occupied }
  else { scan with blocked := a :: scan.blocked }

/-- The pass over a list. -/
def scan (l : List α) : Scan α κ := l.foldl (step ends) {}

/-- What is taken, in the order of the list. -/
def select (l : List α) : List α := (scan ends l).selected.reverse

/-- What is passed over, in the order of the list. -/
def blocked (l : List α) : List α := (scan ends l).blocked.reverse

/-- No end in common. -/
def Apart (a b : α) : Prop := ∀ k ∈ ends a, k ∉ ends b

variable {ends} {a b : α}

omit [DecidableEq κ] in
theorem Apart.symm (apart : Apart ends a b) : Apart ends b a :=
  fun k mem mem' => apart k mem' mem

omit [DecidableEq κ] in
instance : Std.Symm (Apart ends) := ⟨fun _ _ => Apart.symm⟩

variable {l : List α}

theorem scan_concat : scan ends (l ++ [a]) = step ends (scan ends l) a := by
  rw [scan, foldl_append]
  rfl

theorem mem_occupied {k : κ} : k ∈ (scan ends l).occupied ↔ ∃ a ∈ select ends l, k ∈ ends a := by
  unfold select
  induction l using reverseRecOn with
  | nil => simp [scan]
  | append_singleton _ a ih =>
    rw [scan_concat, step]
    split
    · rw [mem_append, ih]
      simp only [reverse_cons, mem_append, mem_singleton]
      constructor
      · rintro (own | ⟨b, mem, its⟩)
        · exact ⟨a, Or.inr rfl, own⟩
        · exact ⟨b, Or.inl mem, its⟩
      rintro ⟨b, mem | rfl, its⟩
      · exact Or.inr ⟨b, mem, its⟩
      · exact Or.inl its
    · exact ih

theorem select_concat_of_apart (apart : ∀ b ∈ select ends l, Apart ends b a) :
    select ends (l ++ [a]) = select ends l ++ [a] := by
  have free : (ends a).all (· ∉ (scan ends l).occupied) = true := by
    refine all_eq_true.2 fun k mem => decide_eq_true fun occupied => ?_
    obtain ⟨b, mem', its⟩ := mem_occupied.1 occupied
    exact apart b mem' k its mem
  rw [select, scan_concat, step, if_pos free, reverse_cons]
  rfl

theorem select_concat_of_not (not : ¬∀ b ∈ select ends l, Apart ends b a) :
    select ends (l ++ [a]) = select ends l := by
  have taken : ¬(ends a).all (· ∉ (scan ends l).occupied) = true := by
    intro free
    refine not fun b mem k its own => ?_
    exact of_decide_eq_true (all_eq_true.1 free k own) (mem_occupied.2 ⟨b, mem, its⟩)
  rw [select, scan_concat, step, if_neg taken]
  rfl

theorem mem_select_concat {last : α} (mem : a ∈ select ends l) : a ∈ select ends (l ++ [last]) := by
  by_cases apart : ∀ b ∈ select ends l, Apart ends b last
  · rw [select_concat_of_apart apart]
    exact mem_append_left _ mem
  · rwa [select_concat_of_not apart]

theorem select_sublist (l : List α) : (select ends l).Sublist l := by
  induction l using reverseRecOn with
  | nil => exact List.Sublist.refl _
  | append_singleton l a ih =>
    by_cases apart : ∀ b ∈ select ends l, Apart ends b a
    · rw [select_concat_of_apart apart]
      exact ih.append (List.Sublist.refl _)
    rw [select_concat_of_not apart]
    exact ih.trans (sublist_append_left ..)

theorem map_select {β : Type*} {ends' : β → List κ} {f : α → β} (same : ∀ a, ends' (f a) = ends a) :
    (select ends l).map f = select ends' (l.map f) := by
  induction l using reverseRecOn with
  | nil => rfl
  | append_singleton l a ih =>
    have apart : (∀ b ∈ select ends l, Apart ends b a) ↔
        ∀ b ∈ select ends' (l.map f), Apart ends' b (f a) := by
      rw [← ih, forall_mem_map]
      simp only [Apart, same]
    rw [map_append, map_singleton]
    by_cases free : ∀ b ∈ select ends l, Apart ends b a
    · rw [select_concat_of_apart free, select_concat_of_apart (apart.1 free), map_append, ih,
        map_singleton]
    · rw [select_concat_of_not free, select_concat_of_not (mt apart.2 free), ih]

theorem mem_of_mem_select (mem : a ∈ select ends l) : a ∈ l :=
  (select_sublist l).subset mem

theorem pairwise_select (l : List α) : (select ends l).Pairwise (Apart ends) := by
  induction l using reverseRecOn with
  | nil => exact List.Pairwise.nil
  | append_singleton l a ih =>
    by_cases apart : ∀ b ∈ select ends l, Apart ends b a
    · rw [select_concat_of_apart apart]
      refine pairwise_append.2 ⟨ih, pairwise_singleton _ _, fun b mem _ mem' => ?_⟩
      rw [mem_singleton.1 mem']
      exact apart b mem
    rw [select_concat_of_not apart]
    exact ih

theorem apart_of_ne (memA : a ∈ select ends l) (memB : b ∈ select ends l) (ne : a ≠ b) :
    Apart ends a b :=
  (pairwise_select l).forall memA memB ne

theorem mem_select_of_apart {r : α → α → Prop} (sorted : l.Pairwise r) (mem : a ∈ l)
    (apart : ∀ b ∈ select ends l, r b a → Apart ends b a) : a ∈ select ends l := by
  induction l using reverseRecOn with
  | nil => exact absurd mem not_mem_nil
  | append_singleton _ last ih =>
    obtain ⟨before, -, later⟩ := pairwise_append.1 sorted
    rcases mem_append.1 mem with mem | mem
    · exact mem_select_concat (ih before mem fun b memB =>
        apart b (mem_select_concat memB))
    rw [mem_singleton.1 mem] at apart ⊢
    rw [select_concat_of_apart fun b memB => apart b (mem_select_concat memB)
      (later b (mem_of_mem_select memB) last (mem_singleton_self _))]
    exact mem_append_right _ (mem_singleton_self _)

section Order

variable {r : α → α → Prop} (asymm : ∀ a b, r a b → ¬r b a) (sorted : l.Pairwise r)

include asymm sorted

/-- **What is selected.**  Along the order, a thing is selected if nothing before it that is
selected shares an end with it. -/
theorem mem_select_iff : a ∈ select ends l ↔
    a ∈ l ∧ ∀ b ∈ select ends l, r b a → Apart ends b a := by
  constructor
  · intro mem
    refine ⟨mem_of_mem_select mem, fun b memB before => apart_of_ne memB mem ?_⟩
    rintro rfl
    exact asymm b b before before
  rintro ⟨mem, apart⟩
  exact mem_select_of_apart sorted mem apart

/-- **There is one selection.**  The recursion along the order determines it. -/
theorem mem_select_of_recursion {S : α → Prop}
    (is : ∀ a, S a ↔ a ∈ l ∧ ∀ b, S b → r b a → Apart ends b a) : S a ↔ a ∈ select ends l := by
  -- The two agree on what comes before any point of the list.
  have agree : ∀ before after, l = before ++ after → ∀ a ∈ before, (S a ↔ a ∈ select ends l) := by
    intro before
    induction before using reverseRecOn with
    | nil => exact fun _ _ a mem => absurd mem not_mem_nil
    | append_singleton before last ih =>
      intro _ split a mem
      rw [append_assoc] at split
      rcases mem_append.1 mem with mem | mem
      · exact ih _ split a mem
      rw [mem_singleton.1 mem]
      rw [is, mem_select_iff asymm sorted]
      refine and_congr_right fun _ => forall_congr' fun b => ?_
      rw [imp.swap, imp.swap (a := b ∈ select ends l)]
      refine imp_congr_right fun earlier => ?_
      have there : b ∈ l → b ∈ before := by
        intro memB
        rw [split] at memB sorted
        rcases mem_append.1 memB with memB | memB
        · exact memB
        obtain ⟨-, follow, -⟩ := pairwise_append.1 sorted
        rcases mem_cons.1 memB with rfl | memB
        · exact absurd earlier (asymm b b earlier)
        exact absurd earlier (asymm last b ((pairwise_cons.1 follow).1 b memB))
      constructor
      · exact fun holds memB => holds ((ih _ split b (there (mem_of_mem_select memB))).2 memB)
      · exact fun holds own => holds ((ih _ split b (there ((is b).1 own).1)).1 own)
  constructor
  · intro own
    exact (agree l [] (append_nil l).symm a ((is a).1 own).1).1 own
  intro mem
  exact (agree l [] (append_nil l).symm a (mem_of_mem_select mem)).2 mem

end Order

/-! ### The order of the list -/

section Sorting

variable (le : α → α → Prop) [DecidableRel le] (total : ∀ a b, le a b ∨ le b a)
  (trans : ∀ a b c, le a b → le b c → le a c)

include total trans

omit [DecidableEq κ] in
theorem pairwise_insertionSort (nodup : l.Nodup)
    (antisymm : ∀ a ∈ l, ∀ b ∈ l, le a b → le b a → a = b) :
    (l.insertionSort le).Pairwise fun a b => le a b ∧ ¬le b a := by
  have : Std.Total le := ⟨total⟩
  have : IsTrans α le := ⟨trans⟩
  have sorted := List.pairwise_insertionSort le l
  have distinct : (l.insertionSort le).Nodup := (perm_insertionSort le l).nodup_iff.2 nodup
  refine (sorted.and distinct).imp_of_mem ?_
  rintro a b memA memB ⟨before, ne⟩
  refine ⟨before, fun after => ne ?_⟩
  exact antisymm a ((mem_insertionSort le).1 memA) b ((mem_insertionSort le).1 memB) before after

end Sorting

end Greedy
