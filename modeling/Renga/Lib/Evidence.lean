import Mathlib.Data.List.Dedup
import Mathlib.Data.List.MinMax

/-!
# Evidence

Items of evidence are recorded in whatever order they come in.  An item is about something,
its identity; it has a place in the order of time, and it belongs to a scope.  Now and then
a scope is reported as a whole, which draws a mark.  An item stands while it is the latest
about its identity and no mark of its scope comes after it.
-/

namespace Evidence

open List Option

/-! ### The latest of a list -/

section Latest

variable {ι κ τ : Type*} [LinearOrder τ] (order : ι → τ) {l : List ι}

theorem exists_argmax {a : ι} (mem : a ∈ l) : ∃ m, l.argmax order = some m := by
  refine ne_none_iff_exists'.1 fun none => ?_
  rw [argmax_eq_none.1 none] at mem
  exact not_mem_nil mem

/-- Something in the list is later than `time`. -/
def beforeLatest (l : List ι) (time : τ) : Bool := (l.argmax order).any (time < order ·)

variable {order}

theorem beforeLatest_iff {time : τ} :
    beforeLatest order l time = true ↔ ∃ a ∈ l, time < order a := by
  rw [beforeLatest, Option.any_eq_true]
  constructor
  · rintro ⟨m, is, before⟩
    exact ⟨m, argmax_mem is, of_decide_eq_true before⟩
  rintro ⟨_, mem, before⟩
  obtain ⟨m, is⟩ := exists_argmax order mem
  exact ⟨m, is, decide_eq_true (before.trans_le (le_of_mem_argmax mem is))⟩

variable {m : ι}

theorem mem_argmax_iff_of_distinct (distinct : ∀ a ∈ l, ∀ b ∈ l, order a = order b → a = b) :
    m ∈ l.argmax order ↔ m ∈ l ∧ ∀ a ∈ l, order a ≤ order m := by
  constructor
  · exact fun is => ⟨argmax_mem is, fun _ mem => le_of_mem_argmax mem is⟩
  rintro ⟨mem, top⟩
  obtain ⟨m', is⟩ := exists_argmax order mem
  have same : m' = m := distinct m' (argmax_mem is) m mem
    (le_antisymm (top m' (argmax_mem is)) (le_of_mem_argmax mem is))
  exact same ▸ is

/-- Of two that may be there the later one, and the first if neither is. -/
def later (order : ι → τ) : Option ι → Option ι → Option ι
  | some a, some b => if order a < order b then some b else some a
  | some a, none => some a
  | none, b => b

@[simp] theorem later_none {a : Option ι} : later order a none = a := by cases a <;> rfl

theorem argmax_append {l' : List ι} :
    (l ++ l').argmax order = later order (l.argmax order) (l'.argmax order) := by
  induction l' using reverseRecOn with
  | nil => simp
  | append_singleton l' b ih =>
    rw [← append_assoc, argmax_concat, ih, argmax_concat]
    cases l.argmax order with
    | none => rfl
    | some a =>
      cases l'.argmax order with
      | none => rfl
      | some c =>
        by_cases ac : order a < order c <;> by_cases cb : order c < order b
        · simp [later, ac, cb, ac.trans cb]
        · simp [later, ac, cb]
        · simp [later, ac, cb]
        have ab : ¬order a < order b := fun ab => ac (ab.trans_le (not_lt.1 cb))
        simp [later, ac, cb, ab]

/-! ### Groups -/

variable [DecidableEq κ]

/-- The members of a list by a key, each group in the order of the list. -/
def groups (key : ι → κ) (l : List ι) : List (κ × List ι) :=
  (l.map key).dedup.map fun k => (k, l.filter (key · = k))

variable {key : ι → κ}

theorem mem_groups {group : κ × List ι} : group ∈ groups key l ↔
    (∃ a ∈ l, key a = group.1) ∧ group.2 = l.filter (key · = group.1) := by
  simp only [groups, List.mem_map, mem_dedup]
  constructor
  · rintro ⟨_, ⟨a, mem, rfl⟩, rfl⟩
    exact ⟨⟨a, mem, rfl⟩, rfl⟩
  rintro ⟨⟨a, mem, its⟩, same⟩
  exact ⟨key a, ⟨a, mem, rfl⟩, Prod.ext its (by rw [same, its])⟩

/-- The latest of each group. -/
def latestOfGroups (key : ι → κ) (order : ι → τ) (l : List ι) : List ι :=
  (groups key l).filterMap fun group => group.2.argmax order

theorem mem_latestOfGroups_iff :
    m ∈ latestOfGroups key order l ↔ (l.filter (key · = key m)).argmax order = some m := by
  rw [latestOfGroups, mem_filterMap]
  constructor
  · rintro ⟨_, mem, is⟩
    obtain ⟨-, same⟩ := mem_groups.1 mem
    rw [same] at is
    have keyM := of_decide_eq_true (mem_filter.1 (argmax_mem is)).2
    rwa [← keyM] at is
  intro is
  have memM := (mem_filter.1 (argmax_mem is)).1
  exact ⟨(key m, l.filter (key · = key m)), mem_groups.2 ⟨⟨m, memM, rfl⟩, rfl⟩, is⟩

theorem latestOfGroups_subset : latestOfGroups key order l ⊆ l := fun _ mem =>
  (mem_filter.1 (argmax_mem (mem_latestOfGroups_iff.1 mem))).1

/-- **The latest of each group** are the members nothing of their group comes after. -/
theorem mem_latestOfGroups
    (distinct : ∀ a ∈ l, ∀ b ∈ l, key a = key b → order a = order b → a = b) :
    m ∈ latestOfGroups key order l ↔ m ∈ l ∧ ∀ a ∈ l, key a = key m → order a ≤ order m := by
  have within : ∀ a, a ∈ l.filter (key · = key m) ↔ a ∈ l ∧ key a = key m := by simp
  have apart : ∀ a ∈ l.filter (key · = key m), ∀ b ∈ l.filter (key · = key m),
      order a = order b → a = b := fun a memA b memB same => by
    obtain ⟨memA, keyA⟩ := (within a).1 memA
    obtain ⟨memB, keyB⟩ := (within b).1 memB
    exact distinct a memA b memB (keyA.trans keyB.symm) same
  rw [mem_latestOfGroups_iff]
  refine (mem_argmax_iff_of_distinct apart).trans ?_
  simp only [within, and_true, and_imp]

theorem nodup_latestOfGroups : ((latestOfGroups key order l).map key).Nodup := by
  have keys : ((groups key l).map Prod.fst).Nodup := by
    rw [groups, List.map_map, Function.comp_def, List.map_id']
    exact nodup_dedup _
  have within : ∀ group ∈ groups key l, ∀ m ∈ group.2.argmax order, key m = group.1 := by
    intro group mem m is
    obtain ⟨-, same⟩ := mem_groups.1 mem
    rw [same] at is
    exact of_decide_eq_true (mem_filter.1 (argmax_mem is)).2
  -- Along the groups: a group has no latest, or one with its key.
  suffices sub : ∀ gs : List (κ × List ι),
      (∀ group ∈ gs, ∀ m ∈ group.2.argmax order, key m = group.1) →
        List.Sublist ((gs.filterMap fun group => group.2.argmax order).map key)
          (gs.map Prod.fst) from (sub _ within).nodup keys
  intro gs within
  induction gs with
  | nil => exact List.Sublist.slnil
  | cons group _ ih =>
    have rest := ih fun group mem => within group (mem_cons_of_mem _ mem)
    rw [filterMap_cons]
    split
    · exact rest.cons _
    rename_i m is
    rw [map_cons, map_cons, within group mem_cons_self m is]
    exact rest.cons_cons _

end Latest

/-! ### Recording -/

section Recording

variable {ι κ : Type*} [DecidableEq κ] (key : ι → κ) (valid : ι → Bool)

/-- An item is recorded, unless one with its key is there.  An item that is not valid is
refused. -/
def record (items : List ι) (item : ι) : Option (List ι) :=
  if items.any (key · = key item) then some items
  else if valid item then some (items ++ [item])
  else none

def recordAll (items : List ι) (l : List ι) : Option (List ι) := l.foldlM (record key valid) items

variable {key valid} {items l new : List ι}

@[simp] theorem recordAll_nil : recordAll key valid items [] = some items := rfl

theorem recordAll_cons {item : ι} : recordAll key valid items (item :: l)
    = (record key valid items item).bind fun items => recordAll key valid items l := rfl

theorem recordAll_append {l' : List ι} : recordAll key valid items (l ++ l')
    = (recordAll key valid items l).bind fun items => recordAll key valid items l' :=
  foldlM_append

theorem record_of_there {item : ι} (there : ∃ other ∈ items, key other = key item) :
    record key valid items item = some items := by
  refine if_pos (any_eq_true.2 ?_)
  simpa only [decide_eq_true_eq] using there

theorem recordAll_of_there (there : ∀ item ∈ l, ∃ other ∈ items, key other = key item) :
    recordAll key valid items l = some items := by
  induction l with
  | nil => rfl
  | cons item _ ih =>
    rw [recordAll_cons, record_of_there (there item mem_cons_self), bind_some]
    exact ih fun item mem => there item (mem_cons_of_mem _ mem)

theorem recordAll_append_of_apart (valid : ι → Bool)
    (apart : ∀ item ∈ l, ∀ other ∈ items, key other ≠ key item) (start : List ι) :
    recordAll key valid (items ++ start) l = (recordAll key valid start l).map (items ++ ·) := by
  induction l generalizing start with
  | nil => rfl
  | cons item _ ih =>
    have rest := ih fun item mem => apart item (mem_cons_of_mem _ mem)
    have none : items.any (key · = key item) = false := by
      refine any_eq_false.2 fun other mem => ?_
      simpa only [decide_eq_true_eq] using apart item mem_cons_self other mem
    rw [recordAll_cons, recordAll_cons, record, record, any_append, none, Bool.false_or]
    split
    · exact rest start
    split
    · rw [append_assoc]
      exact rest (start ++ [item])
    · rfl

theorem mem_of_recordAll (is : recordAll key valid items l = some new) :
    (∀ item ∈ items, item ∈ new) ∧ (∀ item ∈ new, item ∈ items ∨ item ∈ l) ∧
      ∀ item ∈ l, ∃ other ∈ new, key other = key item := by
  induction l generalizing items with
  | nil =>
    obtain rfl := some.inj is
    exact ⟨fun _ mem => mem, fun _ mem => .inl mem, fun _ mem => absurd mem not_mem_nil⟩
  | cons item _ ih =>
    obtain ⟨next, one, is⟩ := bind_eq_some_iff.1 is
    obtain ⟨keeps, comes, there⟩ := ih is
    -- The first item was there, or is at the end of the list now.
    have first : (next = items ∧ ∃ other ∈ items, key other = key item) ∨
        next = items ++ [item] := by
      unfold record at one
      split at one
      · rename_i there
        refine .inl ⟨(some.inj one).symm, ?_⟩
        simpa only [List.any_eq_true, decide_eq_true_eq] using there
      split at one
      · exact .inr (some.inj one).symm
      · exact absurd one (by simp)
    rcases first with ⟨rfl, other, mem, same⟩ | rfl
    · refine ⟨keeps, fun x mem => (comes x mem).imp_right (mem_cons_of_mem _), ?_⟩
      rintro x (_ | ⟨_, memX⟩)
      · exact ⟨other, keeps other mem, same⟩
      · exact there x memX
    refine ⟨fun x mem => keeps x (mem_append_left _ mem), fun x mem => ?_, ?_⟩
    · rcases comes x mem with mem | mem
      · rcases mem_append.1 mem with mem | mem
        · exact .inl mem
        · exact .inr (mem_singleton.1 mem ▸ mem_cons_self)
      · exact .inr (mem_cons_of_mem _ mem)
    rintro x (_ | ⟨_, memX⟩)
    · exact ⟨item, keeps item (mem_append_right _ mem_cons_self), rfl⟩
    · exact there x memX

theorem nodup_recordAll (distinct : (items.map key).Nodup)
    (is : recordAll key valid items l = some new) : (new.map key).Nodup := by
  induction l generalizing items with
  | nil =>
    obtain rfl := some.inj is
    exact distinct
  | cons _ _ ih =>
    obtain ⟨_, one, is⟩ := bind_eq_some_iff.1 is
    refine ih ?_ is
    unfold record at one
    split at one
    · obtain rfl := some.inj one
      exact distinct
    rename_i absent
    split at one
    · obtain rfl := some.inj one
      rw [map_append, map_singleton, nodup_append]
      refine ⟨distinct, nodup_singleton _, fun _ mem _ mem' same => absent ?_⟩
      obtain ⟨other, memOther, rfl⟩ := mem_map.1 mem
      rw [mem_singleton.1 mem'] at same
      exact any_eq_true.2 ⟨other, memOther, decide_eq_true same⟩
    · cases one

theorem exists_recordAll (all : ∀ item ∈ l, valid item = true) :
    ∃ new, recordAll key valid items l = some new := by
  induction l generalizing items with
  | nil => exact ⟨items, rfl⟩
  | cons item _ ih =>
    have rest := fun items => @ih items fun item mem =>
      all item (mem_cons_of_mem _ mem)
    rw [recordAll_cons, record, if_pos (all item mem_cons_self)]
    split
    · exact rest items
    · exact rest (items ++ [item])

/-- A change of the items that does not show. -/
theorem map_view_map {β : Type*} {f : ι → ι} {view : ι → β} (same : ∀ a, view (f a) = view a) :
    (l.map f).map view = l.map view := by
  rw [List.map_map]
  exact map_congr_left fun a _ => same a

/-- Items that are recorded one by one in part of a state. -/
theorem map_foldlM {σ : Type*} {f : σ → ι → Option σ} {view : σ → List ι}
    (one : ∀ s item, (f s item).map view = record key valid (view s) item) {s : σ} :
    (l.foldlM f s).map view = recordAll key valid (view s) l := by
  induction l generalizing s with
  | nil => rfl
  | cons item _ ih =>
    rw [foldlM_cons, recordAll_cons, ← one, bind_map]
    cases f s item with
    | none => rfl
    | some => exact ih

theorem mem_flatMap_getD {α : Type*} {reports : List α} {said : α → Option (List ι)} {item : ι} :
    item ∈ reports.flatMap (fun report => (said report).getD []) ↔
      ∃ report ∈ reports, ∃ items, said report = some items ∧ item ∈ items := by
  rw [mem_flatMap]
  refine exists_congr fun report => and_congr_right fun _ => ?_
  cases said report <;> simp

/-- **A report comes in**, for the first time or again: its items are there afterwards, and
nothing else is new. -/
theorem mem_recordAll (report : recordAll key valid [] l = some new)
    (once : (∀ item ∈ l, ∀ other ∈ items, key other ≠ key item) ∨ new ⊆ items) :
    ∃ all, recordAll key valid items l = some all ∧
      ∀ item, item ∈ all ↔ item ∈ items ∨ item ∈ new := by
  rcases once with apart | again
  · refine ⟨items ++ new, ?_, fun item => mem_append⟩
    have is := recordAll_append_of_apart valid apart []
    rwa [append_nil, report, map_some] at is
  obtain ⟨-, -, there⟩ := mem_of_recordAll report
  refine ⟨items, recordAll_of_there fun item mem => ?_, fun item => ?_⟩
  · obtain ⟨other, memOther, same⟩ := there item mem
    exact ⟨other, again memOther, same⟩
  · exact ⟨.inl, fun mem => mem.elim id fun mem => again mem⟩

end Recording

/-! ### What stands -/

/-- How items are read: what one is about, the scope whose marks withdraw it, and when it is from.
-/
structure Reading (ι α σ τ : Type*) where
  identity : ι → α
  scope : ι → σ
  order : ι → τ

namespace Reading

variable {ι α σ τ : Type*} [LinearOrder τ] (reading : Reading ι α σ τ)

/-- A later item is about the same. -/
def Superseded (items : List ι) (item : ι) : Prop :=
  ∃ other ∈ items, reading.identity other = reading.identity item ∧
    reading.order item < reading.order other

/-- A later mark is in its scope. -/
def Withdrawn (marks : List (σ × τ)) (item : ι) : Prop :=
  ∃ mark ∈ marks, mark.1 = reading.scope item ∧ reading.order item < mark.2

/-- The item is the latest about its identity, and after the marks of its scope. -/
structure Stands (items : List ι) (marks : List (σ × τ)) (item : ι) : Prop where
  latest : ¬reading.Superseded items item
  within : ¬reading.Withdrawn marks item

variable {reading} {items items' : List ι} {marks marks' : List (σ × τ)} {item : ι}

theorem Stands.anti (stands : reading.Stands items' marks' item) (more : items ⊆ items')
    (further : marks ⊆ marks') : reading.Stands items marks item where
  latest := fun ⟨other, mem, about, later⟩ => stands.latest ⟨other, more mem, about, later⟩
  within := fun ⟨mark, mem, its, later⟩ => stands.within ⟨mark, further mem, its, later⟩

theorem Stands.beside (stands : reading.Stands items marks item)
    (other : ∀ new ∈ items', new ∈ items ∨ reading.identity new ≠ reading.identity item)
    (elsewhere : ∀ mark ∈ marks', mark ∈ marks ∨ mark.1 ≠ reading.scope item) :
    reading.Stands items' marks' item where
  latest := by
    rintro ⟨new, mem, about, later⟩
    rcases other new mem with mem | ne
    · exact stands.latest ⟨new, mem, about, later⟩
    · exact ne about
  within := by
    rintro ⟨mark, mem, its, later⟩
    rcases elsewhere mark mem with mem | ne
    · exact stands.within ⟨mark, mem, its, later⟩
    · exact ne its

/-- **The latest that has not fallen stands.**  If something that has fallen came after it, the
last of that was withdrawn, and the mark is after the item too. -/
theorem stands_of_latest {active : ι → Prop}
    (fallen : ∀ other ∈ items, ¬active other → ¬reading.Stands items marks other)
    (inside : ∀ other, reading.identity other = reading.identity item →
      reading.scope other = reading.scope item)
    (latest : ∀ other ∈ items, active other → reading.identity other = reading.identity item →
      reading.order other ≤ reading.order item)
    (within : ¬reading.Withdrawn marks item) : reading.Stands items marks item := by
  classical
  refine ⟨?_, within⟩
  rintro ⟨other, mem, about, later⟩
  have among : other ∈ items.filter (reading.identity · = reading.identity item) :=
    mem_filter.2 ⟨mem, decide_eq_true about⟩
  obtain ⟨last, is⟩ := exists_argmax reading.order among
  obtain ⟨memLast, aboutLast⟩ := mem_filter.1 (argmax_mem is)
  have aboutLast := of_decide_eq_true aboutLast
  have after : reading.order item < reading.order last :=
    later.trans_le (le_of_mem_argmax among is)
  have fell : ¬active last := fun active =>
    after.not_ge (latest last memLast active aboutLast)
  have newest : ¬reading.Superseded items last := by
    rintro ⟨_, memNext, aboutNext, afterLast⟩
    refine afterLast.not_ge (le_of_mem_argmax (mem_filter.2 ⟨memNext, ?_⟩) is)
    exact decide_eq_true (aboutNext.trans aboutLast)
  -- What fell without being superseded was withdrawn.
  have withdrawn : reading.Withdrawn marks last :=
    not_not.1 fun kept => fallen last memLast fell ⟨newest, kept⟩
  obtain ⟨mark, memMark, its, afterMark⟩ := withdrawn
  exact within ⟨mark, memMark, its.trans (inside last aboutLast), after.trans afterMark⟩

end Reading

end Evidence
