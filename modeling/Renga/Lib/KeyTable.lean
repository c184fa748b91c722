import Mathlib

/-!
# Tables with a primary key

A table is a finite list of rows no two of which share a key.  The uniqueness is a field of
the structure, so no later proof asks for it again.  Rows are read by key (`get?`), replaced
in place (`put`), appended (`add`) and taken out (`filter`, `erase`); `place` writes a row
whether or not its key is there.  `put` keeps the number and the order of the rows.
-/

universe u v

/-- Rows with a primary key: no two have the same. -/
structure KeyTable (κ : Type u) (ρ : Type v) (key : ρ → κ) where
  rows : List ρ
  nodup : (rows.map key).Nodup

namespace KeyTable

variable {κ : Type u} {ρ : Type v} {key : ρ → κ}

instance : Membership ρ (KeyTable κ ρ key) := ⟨fun t r => r ∈ t.rows⟩

variable {t : KeyTable κ ρ key}

theorem eq_of_rows {t' : KeyTable κ ρ key} (same : t.rows = t'.rows) : t = t' := by
  cases t
  cases t'
  cases same
  rfl

variable {r : ρ}

theorem mem_def : r ∈ t ↔ r ∈ t.rows := Iff.rfl

theorem eq_of_key_eq {r' : ρ} (mem : r ∈ t) (mem' : r' ∈ t) (same : key r = key r') : r = r' :=
  List.inj_on_of_nodup_map t.nodup mem mem' same

variable {p : ρ → Bool}

theorem filter_eq_singleton (mem : r ∈ t) (only : ∀ r' ∈ t, p r' = true ↔ r' = r) :
    t.rows.filter p = [r] := by
  have nodup : t.rows.Nodup := t.nodup.of_map
  refine List.perm_singleton.1 ((List.perm_ext_iff_of_nodup (nodup.filter p)
    (List.nodup_singleton r)).2 fun r' => ?_)
  rw [List.mem_filter, List.mem_singleton]
  constructor
  · rintro ⟨mem', holds⟩
    exact (only r' mem').1 holds
  rintro rfl
  exact ⟨mem, (only r' mem).2 rfl⟩

def empty : KeyTable κ ρ key := ⟨[], List.nodup_nil⟩

def single (r : ρ) : KeyTable κ ρ key := ⟨[r], List.nodup_singleton (key r)⟩

@[simp] theorem rows_empty : (empty : KeyTable κ ρ key).rows = [] := rfl

@[simp] theorem not_mem_empty (r : ρ) : r ∉ (empty : KeyTable κ ρ key) := by
  simp [mem_def]

def filter (t : KeyTable κ ρ key) (p : ρ → Bool) : KeyTable κ ρ key where
  rows := t.rows.filter p
  nodup := t.nodup.sublist (List.filter_sublist.map key)

theorem mem_filter : r ∈ t.filter p ↔ r ∈ t ∧ p r = true := List.mem_filter

section Lookup

variable [DecidableEq κ]

/-- The row of a key. -/
def get? (t : KeyTable κ ρ key) (k : κ) : Option ρ :=
  t.rows.find? fun r => decide (key r = k)

variable {t : KeyTable κ ρ key} {k : κ} {r : ρ}

theorem get?_eq_some_iff : t.get? k = some r ↔ r ∈ t ∧ key r = k := by
  constructor
  · intro found
    exact ⟨List.mem_of_find?_eq_some found, by simpa using List.find?_some found⟩
  rintro ⟨mem, rfl⟩
  cases found : t.get? (key r) with
  | none =>
    have absent := List.find?_eq_none.mp found r mem
    simp at absent
  | some r' =>
    have mem' : r' ∈ t := List.mem_of_find?_eq_some found
    have same : key r' = key r := by simpa using List.find?_some found
    rw [eq_of_key_eq mem' mem same]

theorem get?_eq_none_iff : t.get? k = none ↔ ∀ r ∈ t, key r ≠ k := by
  simp [get?, List.find?_eq_none, mem_def]

theorem key_of_get? (found : t.get? k = some r) : key r = k := (get?_eq_some_iff.mp found).2

theorem mem_of_get? (found : t.get? k = some r) : r ∈ t := (get?_eq_some_iff.mp found).1

theorem get?_of_mem (mem : r ∈ t) : t.get? (key r) = some r := get?_eq_some_iff.mpr ⟨mem, rfl⟩

@[simp] theorem get?_empty : (empty : KeyTable κ ρ key).get? k = none := rfl

/-- Rows that were selected: distinct rows of the table. -/
structure Selected (t : KeyTable κ ρ key) (l : List ρ) : Prop where
  distinct : (l.map key).Nodup
  stored : ∀ r ∈ l, t.get? (key r) = some r

namespace Selected

variable {l : List ρ}

theorem rows (t : KeyTable κ ρ key) : t.Selected t.rows :=
  ⟨t.nodup, fun _ mem => get?_of_mem mem⟩

theorem one (found : t.get? (key r) = some r) : t.Selected [r] :=
  ⟨List.nodup_singleton _, fun _ mem => by rwa [List.mem_singleton.1 mem]⟩

variable (selected : t.Selected l)
include selected

theorem sublist {l' : List ρ} (sub : l'.Sublist l) : t.Selected l' :=
  ⟨selected.distinct.sublist (sub.map key), fun r mem => selected.stored r (sub.subset mem)⟩

theorem filter : t.Selected (l.filter p) := selected.sublist List.filter_sublist

theorem take {n : ℕ} : t.Selected (l.take n) := selected.sublist (List.take_sublist n l)

theorem insertionSort {le : ρ → ρ → Prop} [DecidableRel le] : t.Selected (l.insertionSort le) :=
  ⟨((List.perm_insertionSort le l).map key).nodup_iff.2 selected.distinct,
    fun r mem => selected.stored r ((List.perm_insertionSort le l).mem_iff.1 mem)⟩

omit selected

/-- The rows behind one that was written are still as they were selected. -/
theorem tail {t' : KeyTable κ ρ key} (selected : t.Selected (r :: l))
    (others : ∀ k, k ≠ key r → t'.get? k = t.get? k) : t'.Selected l := by
  obtain ⟨apart, distinct⟩ := List.nodup_cons.1 selected.distinct
  refine ⟨distinct, fun later mem => ?_⟩
  rw [others _ fun same => apart (List.mem_map.2 ⟨later, mem, same⟩)]
  exact selected.stored later (List.mem_cons_of_mem _ mem)

end Selected

end Lookup

variable {old : ρ}

section Update

variable [DecidableEq κ]

/-- Replaces the row that has `r`'s key by `r`.  A table without such a row is
left as it is. -/
def put (t : KeyTable κ ρ key) (r : ρ) : KeyTable κ ρ key where
  rows := t.rows.map fun r' => if key r' = key r then r else r'
  nodup := by
    have same : (t.rows.map fun r' => if key r' = key r then r else r').map key
        = t.rows.map key := by
      rw [List.map_map]
      refine List.map_congr_left fun r' _ => ?_
      by_cases h : key r' = key r <;> simp [h]
    rw [same]
    exact t.nodup

variable {k : κ}

theorem get?_put :
    (t.put r).get? k = if k = key r then (t.get? k).map fun _ => r else t.get? k := by
  unfold get? put
  rw [List.find?_map]
  by_cases h : k = key r
  · subst h
    have pred : ((fun r_1 => decide (key r_1 = key r)) ∘ fun r' =>
        if key r' = key r then r else r') = fun r' => decide (key r' = key r) := by
      funext r'
      by_cases hr : key r' = key r <;> simp [hr]
    rw [pred, if_pos rfl]
    cases found : t.rows.find? fun r' => decide (key r' = key r) with
    | none => rfl
    | some r' =>
      have hr : key r' = key r := by simpa using List.find?_some found
      simp [hr]
  have pred : ((fun r_1 => decide (key r_1 = k)) ∘ fun r' =>
      if key r' = key r then r else r') = fun r' => decide (key r' = k) := by
    funext r'
    by_cases hr : key r' = key r
    · simp [hr, Ne.symm h]
    simp [hr]
  rw [pred, if_neg h]
  cases found : t.rows.find? fun r' => decide (key r' = k) with
  | none => rfl
  | some r' =>
    have hk : key r' = k := by simpa using List.find?_some found
    have hr : key r' ≠ key r := fun same => h (hk.symm.trans same)
    simp [hr]

variable {t : KeyTable κ ρ key} {r : ρ}

theorem get?_put_self (found : t.get? (key r) = some old) : (t.put r).get? (key r) = some r := by
  rw [get?_put, if_pos rfl, found]
  rfl

theorem get?_put_of_ne (t : KeyTable κ ρ key) (ne : k ≠ key r) : (t.put r).get? k = t.get? k := by
  rw [get?_put, if_neg ne]

variable {r' : ρ}

theorem mem_put (mem : r' ∈ t.put r) : r' = r ∨ (r' ∈ t ∧ key r' ≠ key r) := by
  obtain ⟨old, memOld, rfl⟩ := List.mem_map.mp mem
  by_cases h : key old = key r
  · exact Or.inl (if_pos h)
  rw [if_neg h]
  exact Or.inr ⟨memOld, h⟩

theorem mem_put_of_ne (mem : r' ∈ t) (ne : key r' ≠ key r) : r' ∈ t.put r :=
  List.mem_map.mpr ⟨r', mem, if_neg ne⟩

theorem mem_put_iff_of_ne (ne : key r' ≠ key r) : r' ∈ t.put r ↔ r' ∈ t := by
  refine ⟨fun mem => ?_, fun mem => mem_put_of_ne mem ne⟩
  rcases mem_put mem with rfl | ⟨old, -⟩
  · exact absurd rfl ne
  exact old

theorem mem_put_self (found : t.get? (key r) = some old) :
    r ∈ t.put r := mem_of_get? (get?_put_self found)

/-- With a row put in the place of `old`, every other row is still there. -/
theorem mem_put_or_eq (stored : old ∈ t) (same : key r = key old) (mem : r' ∈ t) :
    r' ∈ t.put r ∨ r' = old ∧ r ∈ t.put r := by
  by_cases its : key r' = key r
  · have found : t.get? (key r) = some old := by rw [same, get?_of_mem stored]
    exact .inr ⟨eq_of_key_eq mem stored (its.trans same), mem_put_self found⟩
  · exact .inl (mem_put_of_ne mem its)

theorem put_put (same : key r = key r') : (t.put r).put r' = t.put r' := by
  refine eq_of_rows ?_
  simp only [put, List.map_map]
  refine List.map_congr_left fun x _ => ?_
  by_cases h : key x = key r' <;> simp [h, same]

theorem put_of_mem (mem : r ∈ t) : t.put r = t := by
  refine eq_of_rows ?_
  show t.rows.map _ = _
  conv_rhs => rw [← List.map_id t.rows]
  refine List.map_congr_left fun r' mem' => ?_
  by_cases h : key r' = key r
  · rw [if_pos h, eq_of_key_eq mem' mem h]
    rfl
  rw [if_neg h]
  rfl

/-- A row is inserted whose key is not taken. -/
def add (t : KeyTable κ ρ key) (r : ρ) (fresh : t.get? (key r) = none) : KeyTable κ ρ key where
  rows := t.rows ++ [r]
  nodup := by
    have apart : ∀ r' ∈ t.rows, key r' ≠ key r := get?_eq_none_iff.mp fresh
    rw [List.map_append, List.nodup_append]
    refine ⟨t.nodup, by simp, ?_⟩
    intro k memK k' memK'
    obtain ⟨r', mem', rfl⟩ := List.mem_map.mp memK
    rw [List.map_singleton, List.mem_singleton] at memK'
    exact memK' ▸ apart r' mem'

theorem get?_add (fresh : t.get? (key r) = none) :
    (t.add r fresh).get? k = if k = key r then some r else t.get? k := by
  by_cases h : k = key r
  · subst h
    rw [if_pos rfl]
    exact get?_eq_some_iff.mpr ⟨List.mem_append_right _ (List.mem_singleton_self r), rfl⟩
  rw [if_neg h]
  unfold get? add
  simp [Ne.symm h]

theorem mem_add (fresh : t.get? (key r) = none) : r' ∈ t.add r fresh ↔ r' ∈ t ∨ r' = r := by
  simp [mem_def, add]

/-- The row of a key is deleted. -/
def erase (t : KeyTable κ ρ key) (k : κ) : KeyTable κ ρ key := t.filter (key · ≠ k)

theorem mem_erase : r ∈ t.erase k ↔ r ∈ t ∧ key r ≠ k := by
  rw [erase, mem_filter, decide_eq_true_eq]

theorem get?_erase_self (t : KeyTable κ ρ key) : (t.erase k).get? k = none :=
  get?_eq_none_iff.2 fun _ mem => (mem_erase.1 mem).2

theorem get?_erase {k' : κ} : (t.erase k).get? k' = if k' = k then none else t.get? k' := by
  by_cases h : k' = k
  · rw [if_pos h, h, get?_erase_self]
  rw [if_neg h]
  ext r
  simp only [get?_eq_some_iff, mem_erase]
  constructor
  · rintro ⟨⟨mem, -⟩, same⟩
    exact ⟨mem, same⟩
  rintro ⟨mem, same⟩
  exact ⟨⟨mem, same ▸ h⟩, same⟩

/-- A row is inserted, or takes the place of the one with its key. -/
def place (t : KeyTable κ ρ key) (r : ρ) : KeyTable κ ρ key :=
  (t.erase (key r)).add r t.get?_erase_self

theorem mem_place : r' ∈ t.place r ↔ (r' ∈ t ∧ key r' ≠ key r) ∨ r' = r := by
  rw [place, mem_add, mem_erase]

theorem get?_place (t : KeyTable κ ρ key) (r : ρ) (k : κ) :
    (t.place r).get? k = if k = key r then some r else t.get? k := by
  rw [place, get?_add, get?_erase]
  by_cases h : k = key r
  · rw [if_pos h, if_pos h]
  · rw [if_neg h, if_neg h, if_neg h]

theorem get?_foldl_place {l : List ρ} (distinct : (l.map key).Nodup) (t : KeyTable κ ρ key)
    (mem : r ∈ l) : (l.foldl place t).get? (key r) = some r := by
  induction l using List.reverseRecOn with
  | nil => exact absurd mem List.not_mem_nil
  | append_singleton _ last ih =>
    rw [List.map_append, List.nodup_append] at distinct
    obtain ⟨before, -, apart⟩ := distinct
    rw [List.foldl_append, List.foldl_cons, List.foldl_nil, get?_place]
    rcases List.mem_append.1 mem with mem | mem
    · have ne : key r ≠ key last :=
        apart (key r) (List.mem_map_of_mem mem) (key last) (List.mem_singleton_self _)
      rw [if_neg ne]
      exact ih before mem
    · rw [List.mem_singleton.1 mem, if_pos rfl]

theorem mem_foldl_place {τ : Type*} [LinearOrder τ] {rank : ρ → τ} {l : List ρ}
    (sorted : l.Pairwise fun r r' => rank r < rank r') :
    r ∈ l.foldl place (empty : KeyTable κ ρ key) ↔
      r ∈ l ∧ ∀ r' ∈ l, key r' = key r → rank r' ≤ rank r := by
  induction l using List.reverseRecOn generalizing r with
  | nil => simp
  | append_singleton l last ih =>
    obtain ⟨before, -, later⟩ := List.pairwise_append.1 sorted
    have less : ∀ r' ∈ l, rank r' < rank last := fun r' mem =>
      later r' mem last (List.mem_singleton_self _)
    rw [List.foldl_append, List.foldl_cons, List.foldl_nil, mem_place, ih before]
    constructor
    · rintro (⟨⟨mem, top⟩, ne⟩ | rfl)
      · refine ⟨List.mem_append_left _ mem, fun r' mem' same => ?_⟩
        rcases List.mem_append.1 mem' with mem' | mem'
        · exact top r' mem' same
        rw [List.mem_singleton.1 mem'] at same
        exact absurd same.symm ne
      refine ⟨List.mem_append_right _ (List.mem_singleton_self _), fun r' mem' _ => ?_⟩
      rcases List.mem_append.1 mem' with mem' | mem'
      · exact (less r' mem').le
      · rw [List.mem_singleton.1 mem']
    rintro ⟨mem, top⟩
    rcases List.mem_append.1 mem with mem | mem
    · refine Or.inl ⟨⟨mem, fun r' mem' => top r' (List.mem_append_left _ mem')⟩, fun same => ?_⟩
      exact (top last (List.mem_append_right _ (List.mem_singleton_self _)) same.symm).not_gt
        (less r mem)
    · exact Or.inr (List.mem_singleton.1 mem)

/-- Every row is updated, and none changes its key. -/
def map (t : KeyTable κ ρ key) (f : ρ → ρ) (keeps : ∀ r, key (f r) = key r) : KeyTable κ ρ key where
  rows := t.rows.map f
  nodup := by
    rw [List.map_map, show key ∘ f = key from funext keeps]
    exact t.nodup

theorem get?_map {f : ρ → ρ} (keeps : ∀ r, key (f r) = key r) :
    (t.map f keeps).get? k = (t.get? k).map f := by
  unfold get? map
  rw [List.find?_map]
  refine congrArg (Option.map f) (congrArg (List.find? · t.rows) ?_)
  funext r
  rw [Function.comp_apply, keeps]

end Update

section Sum

variable {M : Type*} [AddCommMonoid M]

def sum (t : KeyTable κ ρ key) (f : ρ → M) : M := (t.rows.map f).sum

@[simp] theorem sum_empty {f : ρ → M} : (empty : KeyTable κ ρ key).sum f = 0 := rfl

variable [DecidableEq κ]

theorem sum_add (fresh : t.get? (key r) = none) {f : ρ → M} :
    (t.add r fresh).sum f = t.sum f + f r := by
  simp [sum, add]

/-- Replacing a row exchanges its summand: what the old row contributed, added
to the new total, is what the new row contributes added to the old one. -/
theorem sum_put (found : t.get? (key r) = some old) (f : ρ → M) :
    (t.put r).sum f + f old = t.sum f + f r := by
  obtain ⟨mem, same⟩ := get?_eq_some_iff.mp found
  obtain ⟨before, after, split⟩ := List.append_of_mem mem
  have nodup := t.nodup
  rw [split, List.map_append, List.map_cons, List.nodup_append, List.nodup_cons] at nodup
  obtain ⟨-, ⟨notAfter, -⟩, apart⟩ := nodup
  have keep : ∀ part : List ρ, (∀ r' ∈ part, key r' ≠ key r) →
      part.map (fun r' => if key r' = key r then r else r') = part := by
    intro part ne
    conv_rhs => rw [← List.map_id part]
    exact List.map_congr_left fun r' mem' => if_neg (ne r' mem')
  have keepBefore := keep before fun r' mem' eq =>
    apart (key r') (List.mem_map_of_mem mem') (key old) List.mem_cons_self (eq.trans same.symm)
  have keepAfter := keep after fun r' mem' eq =>
    notAfter (List.mem_map.mpr ⟨r', mem', eq.trans same.symm⟩)
  have rowsPut : (t.put r).rows = before ++ r :: after := by
    show t.rows.map _ = _
    rw [split, List.map_append, List.map_cons, keepBefore, keepAfter, if_pos same]
  unfold sum
  rw [rowsPut, split]
  simp only [List.map_append, List.map_cons, List.sum_append, List.sum_cons]
  abel

end Sum

end KeyTable
