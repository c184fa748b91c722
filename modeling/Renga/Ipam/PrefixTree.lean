import Renga.Ipam.Cidr
import Renga.Lib.Forest
import Renga.Organizations

/-!
# Prefix trees

`Renga.IPAM.PrefixTree.build` and `flatten`.  The prefixes of one routing table and family
are sorted by network and length, so a prefix comes before what it contains, and what it
contains follows it without a gap (`laminar`): the tree is `Forest.nest` of the sorted list.
`Map.new` of the groups is a function from the key of a group; `%{prefix: p, children: cs}`
at the head of a list of nodes is `Forest.cons p cs`.
-/

namespace Renga.IPAM

open List

/-- No bit of the host is set. -/
def Inet.Canonical (i : Inet) : Prop := i.networkAt i.length = i.address

instance : DecidablePred Inet.Canonical := fun i =>
  inferInstanceAs (Decidable (i.networkAt i.length = i.address))

structure Prefix where
  id : Uuid
  vrfId : Option Uuid
  cidr : Inet
deriving DecidableEq

namespace PrefixTree

def strictlyContains? (outer inner : Inet) : Bool :=
  decide (outer.length < inner.length) && outer.contains? inner

def above (outer inner : Prefix) : Bool := strictlyContains? outer.cidr inner.cidr

/-- The order of `nest/1`: by network, then by length. -/
def LeKey (p q : Prefix) : Prop :=
  p.cidr.address < q.cidr.address ∨
    p.cidr.address = q.cidr.address ∧ p.cidr.length ≤ q.cidr.length

instance : DecidableRel LeKey := fun _ _ => inferInstanceAs (Decidable (_ ∨ _ ∧ _))

instance : Std.Total LeKey := ⟨fun p q => by unfold LeKey; omega⟩

instance : IsTrans Prefix LeKey := ⟨fun p q r => by unfold LeKey; omega⟩

def nest (prefixes : List Prefix) : Forest Prefix :=
  Forest.nest above (prefixes.insertionSort LeKey)

/-- The routing table and the family: each pair has a tree of its own. -/
def treeKey (p : Prefix) : Option Uuid × Family := (p.vrfId, p.cidr.family)

def build (prefixes : List Prefix) (key : Option Uuid × Family) : Option (Forest Prefix) :=
  match prefixes.filter (treeKey · = key) with
  | [] => none
  | group => some (nest group)

/-! ### Containment and order -/

def Precedes (p q : Prefix) : Prop :=
  p.cidr.address < q.cidr.address ∨
    p.cidr.address = q.cidr.address ∧ p.cidr.length < q.cidr.length

variable {p q : Prefix}

theorem above_iff (canonical : p.cidr.Canonical) (family : p.cidr.family = q.cidr.family) :
    above p q = true ↔ p.cidr.length < q.cidr.length ∧ p.cidr.address ≤ q.cidr.address ∧
      q.cidr.address ≤ p.cidr.range.last := by
  have first : p.cidr.range.first = p.cidr.address := canonical
  have inside : q.cidr.address ∈ p.cidr.addresses ↔
      p.cidr.address ≤ q.cidr.address ∧ q.cidr.address ≤ p.cidr.range.last := by
    rw [Inet.addresses, Gap.Interval.elements, Set.mem_Icc, first]
  rw [above, strictlyContains?, Bool.and_eq_true, decide_eq_true_eq, Inet.contains?_iff_div,
    ← Inet.mem_addresses_iff, inside]
  constructor
  · rintro ⟨shorter, _, _, agree⟩
    exact ⟨shorter, agree⟩
  rintro ⟨shorter, agree⟩
  exact ⟨shorter, family, shorter.le, agree⟩

theorem above_of_precedes (canonicalP : p.cidr.Canonical) (canonicalQ : q.cidr.Canonical)
    (family : p.cidr.family = q.cidr.family) (precedes : Precedes p q)
    (inside : q.cidr.address ≤ p.cidr.range.last) : above p q = true := by
  rw [above_iff canonicalP family]
  unfold Precedes at precedes
  refine ⟨?_, by omega, inside⟩
  by_contra longer
  have meets : q.cidr.address ∈ p.cidr.addresses := by
    rw [Inet.addresses, Gap.Interval.elements, Set.mem_Icc]
    have first : p.cidr.range.first = p.cidr.address := canonicalP
    omega
  rcases Inet.contains?_or_disjoint family.symm (not_lt.1 longer) with contains | apart
  · have back := (Inet.contains?_iff family.symm).1 contains Inet.address_mem
    rw [Inet.addresses, Gap.Interval.elements, Set.mem_Icc] at back
    have first : q.cidr.range.first = q.cidr.address := canonicalQ
    omega
  · exact Set.disjoint_left.1 apart Inet.address_mem meets

/-- **In a tree, order and containment fit together.** -/
theorem laminar {l : List Prefix} {family : Family} (families : ∀ p ∈ l, p.cidr.family = family)
    (canonical : ∀ p ∈ l, p.cidr.Canonical) : Forest.Laminar above Precedes l where
  asymm p q := by
    unfold Precedes
    omega
  before_of_above p memP q memQ is := by
    have same := (families p memP).trans (families q memQ).symm
    rw [above_iff (canonical p memP) same] at is
    unfold Precedes
    omega
  trans p memP q memQ r memR isQ isR := by
    have samePQ := (families p memP).trans (families q memQ).symm
    have sameQR := (families q memQ).trans (families r memR).symm
    simp only [above, strictlyContains?, Bool.and_eq_true, decide_eq_true_eq] at isQ isR ⊢
    refine ⟨isQ.1.trans isR.1, (Inet.contains?_iff (samePQ.trans sameQR)).2 ?_⟩
    exact ((Inet.contains?_iff sameQR).1 isR.2).trans ((Inet.contains?_iff samePQ).1 isQ.2)
  between p memP q memQ r memR precedes precedes' is := by
    have samePR := (families p memP).trans (families r memR).symm
    rw [above_iff (canonical p memP) samePR] at is
    refine above_of_precedes (canonical p memP) (canonical q memQ)
      ((families p memP).trans (families q memQ).symm) precedes ?_
    unfold Precedes at precedes'
    omega

/-! ### The trees -/

/-- What no two prefixes of an organization share. -/
def identity (p : Prefix) : Option Uuid × Family × ℕ × ℕ :=
  (p.vrfId, p.cidr.family, p.cidr.address, p.cidr.length)

/-- The parent of a prefix among the listed ones: the longest of its routing table and family
that strictly contains it, or `none` if there is none. -/
def IsParent (prefixes : List Prefix) (p : Prefix) : Option Prefix → Prop
  | none => ∀ q ∈ prefixes, ¬ (treeKey q = treeKey p ∧ above q p)
  | some q => q ∈ prefixes ∧ (treeKey q = treeKey p ∧ above q p) ∧
      ∀ r ∈ prefixes, treeKey r = treeKey p → above r p → r.cidr.length ≤ q.cidr.length

section Build

variable {prefixes : List Prefix} {key : Option Uuid × Family}

def sortedGroup (prefixes : List Prefix) (key : Option Uuid × Family) : List Prefix :=
  (prefixes.filter (treeKey · = key)).insertionSort LeKey

theorem mem_sortedGroup : p ∈ sortedGroup prefixes key ↔ p ∈ prefixes ∧ treeKey p = key := by
  rw [sortedGroup, mem_insertionSort, mem_filter, decide_eq_true_eq]

theorem build_eq_some {forest : Forest Prefix} (built : build prefixes key = some forest) :
    forest = Forest.nest above (sortedGroup prefixes key) := by
  unfold build at built
  unfold sortedGroup
  cases group : prefixes.filter (treeKey · = key) with
  | nil =>
    rw [group] at built
    cases built
  | cons =>
    rw [group] at built
    exact (Option.some.inj built).symm

theorem build_eq_none_iff : build prefixes key = none ↔ ∀ p ∈ prefixes, treeKey p ≠ key := by
  have empty : prefixes.filter (treeKey · = key) = [] ↔ ∀ p ∈ prefixes, treeKey p ≠ key := by
    simp [filter_eq_nil_iff]
  rw [← empty, build]
  cases prefixes.filter (treeKey · = key) <;> simp

variable (key) in
theorem pairwise_sortedGroup (distinct : (prefixes.map identity).Nodup) :
    (sortedGroup prefixes key).Pairwise Precedes := by
  have nodup : ((sortedGroup prefixes key).map identity).Nodup :=
    ((perm_insertionSort LeKey _).map identity).nodup_iff.2
      (distinct.sublist (filter_sublist.map identity))
  have sorted : (sortedGroup prefixes key).Pairwise LeKey := pairwise_insertionSort _ _
  refine (sorted.and (pairwise_map.1 nodup)).imp_of_mem ?_
  rintro p q memP memQ ⟨le, apart⟩
  have same : treeKey p = treeKey q :=
    (mem_sortedGroup.1 memP).2.trans (mem_sortedGroup.1 memQ).2.symm
  simp only [treeKey, Prod.mk.injEq] at same
  simp only [identity, same.1, same.2, ne_eq, Prod.mk.injEq, true_and] at apart
  unfold LeKey at le
  unfold Precedes
  omega

/-- **The trees of distinct canonical prefixes.**  Every prefix stands in its tree once, below
its parent; siblings ascend; and `flatten` visits the nodes in preorder, each at a depth that is
the number of its ancestors. -/
theorem build_spec (canonical : ∀ p ∈ prefixes, p.cidr.Canonical)
    (distinct : (prefixes.map identity).Nodup) (key : Option Uuid × Family) :
    (build prefixes key = none ↔ ∀ p ∈ prefixes, treeKey p ≠ key) ∧
    ∀ forest, build prefixes key = some forest →
      ((forest.paths []).map Prod.snd).Perm (prefixes.filter (treeKey · = key)) ∧
      (∀ x ∈ forest.paths [], IsParent prefixes x.2 x.1.head?) ∧
      (∀ f ∈ forest :: forest.subforests, f.roots.Pairwise Precedes) ∧
      forest.flatten 0 = (forest.paths []).map fun x => (x.2, x.1.length) := by
  refine ⟨build_eq_none_iff, fun _ built => ?_⟩
  obtain rfl := build_eq_some built
  have sorted := pairwise_sortedGroup key distinct
  have families : ∀ p ∈ sortedGroup prefixes key, p.cidr.family = key.2 :=
    fun p mem => congrArg Prod.snd (mem_sortedGroup.1 mem).2
  have fits := laminar families fun p mem => canonical p (mem_sortedGroup.1 mem).1
  refine ⟨?_, fun x mem => ?_, ?_, Forest.flatten_eq _ []⟩
  · rw [Forest.map_paths_nest]
    exact perm_insertionSort LeKey _
  · have node : x.2 ∈ sortedGroup prefixes key := by
      have mem := mem_map_of_mem (f := Prod.snd) mem
      rwa [Forest.map_paths_nest] at mem
    have tree := (mem_sortedGroup.1 node).2
    have nearest := Forest.nearest fits sorted mem
    cases parent : x.1.head? with
    | none =>
      rw [parent] at nearest
      rintro q memQ ⟨same, is⟩
      rw [nearest q (mem_sortedGroup.2 ⟨memQ, same.trans tree⟩)] at is
      cases is
    | some =>
      rw [parent] at nearest
      obtain ⟨memQ, is, others⟩ := nearest
      obtain ⟨listed, treeQ⟩ := mem_sortedGroup.1 memQ
      refine ⟨listed, ⟨treeQ.trans tree.symm, is⟩, fun r memR same isR => ?_⟩
      rcases others r (mem_sortedGroup.2 ⟨memR, same.trans tree⟩) isR with rfl | contains
      · exact le_rfl
      simp only [above, strictlyContains?, Bool.and_eq_true, decide_eq_true_eq] at contains
      exact contains.1.le
  obtain ⟨roots, subforests⟩ := Forest.roots_sublist above (sortedGroup prefixes key)
  intro f mem
  rcases mem_cons.1 mem with rfl | mem
  · exact sorted.sublist roots
  · exact sorted.sublist (subforests f mem)

/-- A prefix listed before the one that contains it. -/
theorem build_slash16_slash8 :
    let outer : Prefix := ⟨1, none, .fromInteger 167772160 .ipv4 8 (by decide)⟩
    let inner : Prefix := ⟨2, none, .fromInteger 167837696 .ipv4 16 (by decide)⟩
    (∀ p ∈ [inner, outer], p.cidr.Canonical) ∧ ([inner, outer].map identity).Nodup ∧
      ∀ forest, build [inner, outer] (none, .ipv4) = some forest →
        ∀ x ∈ forest.paths [], IsParent [inner, outer] x.2 x.1.head? := by
  intro outer inner
  have canonical : ∀ p ∈ [inner, outer], p.cidr.Canonical := by decide +kernel
  have distinct : ([inner, outer].map identity).Nodup := by decide +kernel
  exact ⟨canonical, distinct, fun forest built =>
    ((build_spec canonical distinct (none, .ipv4)).2 forest built).2.1⟩

end Build

end PrefixTree

end Renga.IPAM
