import Mathlib.Data.List.Basic
import Mathlib.Data.List.TakeWhile

/-!
# Forests from sorted lists

In the forest of a sorted list every element takes as its children the run of elements
behind it that it is `above` (`nest`).  If the order and the relation fit together
(`Laminar`: what is above something does not come behind it, and what is above something is
above all that lies between), the elements on the way to a node are exactly those above it,
the nearest first (`mem_paths_nest`).
-/

universe u

/-- A list of nodes, each with the list of its children. -/
inductive Forest (α : Type u) where
  | nil
  | cons (a : α) (children rest : Forest α)

namespace Forest

open List

variable {α : Type u}

/-- The nodes in preorder, with their depths. -/
def flatten : Forest α → ℕ → List (α × ℕ)
  | nil, _ => []
  | cons a children rest, depth =>
    (a, depth) :: (flatten children (depth + 1) ++ flatten rest depth)

/-- The nodes depth-first, each with its ancestors, the nearest first. -/
def paths : List α → Forest α → List (List α × α)
  | _, nil => []
  | ancestors, cons a children rest =>
    (ancestors, a) :: (paths (a :: ancestors) children ++ paths ancestors rest)

def roots : Forest α → List α
  | nil => []
  | cons a _ rest => a :: roots rest

/-- The children of every node. -/
def subforests : Forest α → List (Forest α)
  | nil => []
  | cons _ children rest => children :: (subforests children ++ subforests rest)

/-- **A depth is a number of ancestors.** -/
theorem flatten_eq (f : Forest α) (ancestors : List α) :
    f.flatten ancestors.length = (f.paths ancestors).map fun x => (x.2, x.1.length) := by
  induction f generalizing ancestors with
  | nil => rfl
  | cons _ _ _ ihChildren ihRest =>
    rw [flatten, paths, map_cons, map_append, ← ihRest, ← ihChildren, length_cons]

variable (above : α → α → Bool)

/-- The forest of a list in preorder: below a node is what follows it while it is above. -/
def nest : List α → Forest α
  | [] => nil
  | a :: l => cons a (nest (l.takeWhile (above a))) (nest (l.dropWhile (above a)))
termination_by l => l.length
decreasing_by
  · exact Nat.lt_succ_of_le (takeWhile_sublist _).length_le
  · exact Nat.lt_succ_of_le (dropWhile_sublist _).length_le

theorem map_paths_nest (l ancestors : List α) :
    ((nest above l).paths ancestors).map Prod.snd = l := by
  induction l using nest.induct above generalizing ancestors with
  | case1 => rw [nest, paths, map_nil]
  | case2 _ _ ihInside ihOutside =>
    rw [nest, paths, map_cons, map_append, ihInside, ihOutside, takeWhile_append_dropWhile]

theorem roots_sublist (l : List α) :
    (nest above l).roots.Sublist l ∧ ∀ f ∈ (nest above l).subforests, f.roots.Sublist l := by
  induction l using nest.induct above with
  | case1 =>
    rw [nest]
    exact ⟨List.Sublist.slnil, fun f mem => by cases mem⟩
  | case2 a l ihInside ihOutside =>
    have inside := (takeWhile_sublist (above a)).trans (sublist_cons_self a l)
    have outside := (dropWhile_sublist (above a)).trans (sublist_cons_self a l)
    rw [nest]
    refine ⟨(ihOutside.1.trans (dropWhile_sublist _)).cons_cons a, fun f mem => ?_⟩
    rcases mem_cons.1 mem with rfl | mem
    · exact ihInside.1.trans inside
    rcases mem_append.1 mem with mem | mem
    · exact (ihInside.2 f mem).trans inside
    · exact (ihOutside.2 f mem).trans outside

variable {above}

/-- How the order of a list and the relation `above` fit together. -/
structure Laminar (above : α → α → Bool) (before : α → α → Prop) (l : List α) : Prop where
  asymm : ∀ a b, before a b → ¬ before b a
  before_of_above : ∀ a ∈ l, ∀ b ∈ l, above a b = true → before a b
  trans : ∀ a ∈ l, ∀ b ∈ l, ∀ c ∈ l, above a b = true → above b c = true → above a c = true
  between : ∀ a ∈ l, ∀ b ∈ l, ∀ c ∈ l, before a b → before b c → above a c = true →
    above a b = true

namespace Laminar

variable {before : α → α → Prop} {l l' : List α} {a b : α}

theorem sublist (laminar : Laminar above before l) (sub : l'.Sublist l) :
    Laminar above before l' where
  asymm := laminar.asymm
  before_of_above a memA b memB := laminar.before_of_above a (sub.mem memA) b (sub.mem memB)
  trans a memA b memB c memC := laminar.trans a (sub.mem memA) b (sub.mem memB) c (sub.mem memC)
  between a memA b memB c memC :=
    laminar.between a (sub.mem memA) b (sub.mem memB) c (sub.mem memC)

theorem not_above (laminar : Laminar above before l) (memA : a ∈ l) (memB : b ∈ l)
    (later : before a b) : above b a = false :=
  Bool.eq_false_iff.2 fun is =>
    laminar.asymm a b later (laminar.before_of_above b memB a memA is)

theorem not_above_self (laminar : Laminar above before l) (mem : a ∈ l) : above a a = false :=
  Bool.eq_false_iff.2 fun is =>
    let self := laminar.before_of_above a mem a mem is
    laminar.asymm a a self self

theorem not_above_dropWhile (laminar : Laminar above before (a :: l))
    (sorted : (a :: l).Pairwise before) (mem : b ∈ l.dropWhile (above a)) : above a b = false := by
  cases found : l.dropWhile (above a) with
  | nil =>
    rw [found] at mem
    cases mem
  | cons o rest =>
    have sub : (o :: rest).Sublist l := found ▸ dropWhile_sublist _
    have stops : above a o = false := by
      have head := head?_dropWhile_not (above a) l
      rwa [found] at head
    rw [found] at mem
    rcases mem_cons.1 mem with rfl | mem
    · exact stops
    have later := (pairwise_cons.1 (sorted.sublist (sub.cons a))).1 b mem
    refine Bool.eq_false_iff.2 fun is => Bool.eq_false_iff.1 stops ?_
    have inside := fun {c} (mem : c ∈ o :: rest) => mem_cons_of_mem a (sub.mem mem)
    exact laminar.between a mem_cons_self o (inside mem_cons_self) b
      (inside (mem_cons_of_mem o mem))
      ((pairwise_cons.1 sorted).1 o (sub.mem mem_cons_self)) later is

end Laminar

variable {before : α → α → Prop} {x : List α × α}

/-- **The ancestors of a node are the elements above it**, the nearest first. -/
theorem mem_paths_nest (l ancestors : List α) (laminar : Laminar above before l)
    (sorted : l.Pairwise before) (mem : x ∈ (nest above l).paths ancestors) :
    x.1 = (l.filter (above · x.2)).reverse ++ ancestors := by
  induction l using nest.induct above generalizing ancestors with
  | case1 =>
    rw [nest] at mem
    cases mem
  | case2 a l ihInside ihOutside =>
    have split : l = l.takeWhile (above a) ++ l.dropWhile (above a) :=
      takeWhile_append_dropWhile.symm
    have insideSub := (takeWhile_sublist (above a)).trans (sublist_cons_self a l)
    have outsideSub := (dropWhile_sublist (above a)).trans (sublist_cons_self a l)
    have apart := (pairwise_append.1 (split ▸ (pairwise_cons.1 sorted).2)).2.2
    have filtered : ∀ p, (a :: l).filter p = [a].filter p ++ ((l.takeWhile (above a)).filter p ++
        (l.dropWhile (above a)).filter p) := by
      intro _
      rw [← filter_append, ← split, ← filter_append, singleton_append]
    rw [nest, paths, mem_cons, mem_append] at mem
    rw [filtered]
    rcases mem with rfl | mem | mem
    · have none : ∀ k : List α, k.Sublist l → k.filter (above · a) = [] := fun _ sub =>
        filter_eq_nil_iff.2 fun b memB => by
          rw [laminar.not_above mem_cons_self (mem_cons_of_mem a (sub.mem memB))
            ((pairwise_cons.1 sorted).1 b (sub.mem memB))]
          exact Bool.false_ne_true
      rw [none _ (takeWhile_sublist _), none _ (dropWhile_sublist _)]
      simp [laminar.not_above_self mem_cons_self]
    · have isIn : x.2 ∈ l.takeWhile (above a) := by
        rw [← map_paths_nest above (l.takeWhile (above a)) (a :: ancestors)]
        exact mem_map_of_mem mem
      have outside : (l.dropWhile (above a)).filter (above · x.2) = [] :=
        filter_eq_nil_iff.2 fun b memB => by
          rw [laminar.not_above (insideSub.mem isIn) (outsideSub.mem memB) (apart x.2 isIn b memB)]
          exact Bool.false_ne_true
      rw [ihInside (a :: ancestors) (laminar.sublist insideSub) (sorted.sublist insideSub) mem,
        outside]
      simp [mem_takeWhile_imp isIn]
    have isOut : x.2 ∈ l.dropWhile (above a) := by
      rw [← map_paths_nest above (l.dropWhile (above a)) ancestors]
      exact mem_map_of_mem mem
    have first := laminar.not_above_dropWhile sorted isOut
    have inside : (l.takeWhile (above a)).filter (above · x.2) = [] :=
      filter_eq_nil_iff.2 fun b memB is => by
        have through := laminar.trans a mem_cons_self b (insideSub.mem memB) x.2
          (outsideSub.mem isOut) (mem_takeWhile_imp memB) is
        rw [first] at through
        cases through
    rw [ihOutside ancestors (laminar.sublist outsideSub) (sorted.sublist outsideSub) mem, inside]
    simp [first]

/-- **The nearest ancestor is below every other element above the node**, and a root has nothing
above it. -/
theorem nearest {l : List α} (laminar : Laminar above before l) (sorted : l.Pairwise before)
    (mem : x ∈ (nest above l).paths []) :
    match x.1.head? with
    | none => ∀ a ∈ l, above a x.2 = false
    | some a => a ∈ l ∧ above a x.2 = true ∧
        ∀ b ∈ l, above b x.2 = true → b = a ∨ above b a = true := by
  have node : x.2 ∈ l := by
    have mem := mem_map_of_mem (f := Prod.snd) mem
    rwa [map_paths_nest] at mem
  have ancestors := mem_paths_nest l [] laminar sorted mem
  have isAbove : ∀ b, b ∈ x.1 ↔ b ∈ l ∧ above b x.2 = true := fun b => by
    rw [ancestors, append_nil, mem_reverse, mem_filter]
  have order : x.1.Pairwise fun a b => before b a := by
    rw [ancestors, append_nil, pairwise_reverse]
    exact sorted.filter _
  cases found : x.1 with
  | nil =>
    refine fun a memA => Bool.eq_false_iff.2 fun is => ?_
    have := (isAbove a).2 ⟨memA, is⟩
    rw [found] at this
    cases this
  | cons a =>
    rw [found] at isAbove order
    obtain ⟨memA, is⟩ := (isAbove a).1 mem_cons_self
    refine ⟨memA, is, fun b memB isB => ?_⟩
    rcases mem_cons.1 ((isAbove b).2 ⟨memB, isB⟩) with rfl | later
    · exact Or.inl rfl
    refine Or.inr (laminar.between b memB a memA x.2 node ?_ ?_ isB)
    · exact (pairwise_cons.1 order).1 b later
    · exact laminar.before_of_above a memA x.2 node is

end Forest
