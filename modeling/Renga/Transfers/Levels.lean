import Mathlib.Data.List.Nodup
import Mathlib.Data.List.Perm.Subperm
import Renga.Organizations

/-!
# Records that refer to others of their type

`insert_by_level!/3` of `Renga.Transfers.Import`: a record goes in after its parent.  A pass reads
all records and inserts, a batch at a time, those whose parent is in; what the batches of a pass
have inserted, its later records see.  Passes follow until all records are in.
-/

namespace Renga.Transfers.Import

open List

structure Record where
  id : Uuid
  parent : Option Uuid
deriving DecidableEq

/-- The records of a type, in the order of its file. -/
structure File where
  records : List Record
  distinct : (records.map Record.id).Nodup

/-- The batches that were inserted, in their order; the marks `{:inserted, type, id}` are the ids
of their records.  `pending` is the batch `Stream.chunk_every/2` is filling. -/
structure State where
  batches : List (List Record) := []
  pending : List Record := []
deriving DecidableEq

namespace State

variable (batchRecords : ℕ) (state : State)

def inserted (id : Uuid) : Bool := state.batches.flatten.any (·.id = id)

/-- The batch is inserted and marked. -/
def flush : State :=
  if state.pending = [] then state else { batches := state.batches ++ [state.pending] }

/-- A record joins the batch, which is inserted when it is full. -/
def join (record : Record) : State :=
  if state.pending.length + 1 < batchRecords then
    { state with pending := state.pending ++ [record] }
  else { batches := state.batches ++ [state.pending ++ [record]] }

/-- The next record of the stream is rejected, joins the batch, or waits for its parent. -/
def read (record : Record) : State :=
  if state.inserted record.id then state
  else if record.parent.all state.inserted then state.join batchRecords record
  else state

def pass (records : List Record) (state : State) : State :=
  (records.foldl (read batchRecords) state).flush

/-- What was inserted and what is about to be. -/
def rows : List Record := state.batches.flatten ++ state.pending

end State

/-- `insert_levels!/5`; the error is the exception that records refer to each other in a cycle,
with what the transaction has inserted before it is rolled back. -/
def insertLevels (batchRecords : ℕ) (records : List Record) (expected done : ℕ) (state : State) :
    Except State State :=
  if expected ≤ done then .ok state
  else if (state.pass batchRecords records).rows.length - state.rows.length = 0 then
    .error (state.pass batchRecords records)
  else
    insertLevels batchRecords records expected
      (done + ((state.pass batchRecords records).rows.length - state.rows.length))
      (state.pass batchRecords records)
termination_by expected - done
decreasing_by omega

/-- `insert_by_level!/3`.  The manifest has the number of the records. -/
def insertByLevel (batchRecords : ℕ) (file : File) : Except State State :=
  insertLevels batchRecords file.records file.records.length 0 {}

/-- The parent chain of a record reaches a root within the file. -/
inductive Rooted (file : File) : Record → Prop where
  | root {record : Record} (mem : record ∈ file.records) (top : record.parent = none) :
      Rooted file record
  | child {record parent : Record} (mem : record ∈ file.records)
      (below : record.parent = some parent.id) (rooted : Rooted file parent) : Rooted file record

/-- The parents of a batch are in earlier ones. -/
def Ordered (batches : List (List Record)) : Prop :=
  ∀ before batch after, batches = before ++ batch :: after →
    ∀ record ∈ batch, ∀ id ∈ record.parent, ∃ parent ∈ before.flatten, parent.id = id

theorem Ordered.concat {batches : List (List Record)} (ordered : Ordered batches)
    {batch : List Record} (parents : ∀ record ∈ batch, ∀ id ∈ record.parent,
      ∃ parent ∈ batches.flatten, parent.id = id) : Ordered (batches ++ [batch]) := by
  intro before batch' after split
  rcases eq_nil_or_concat after with rfl | ⟨after, _, rfl⟩
  · obtain ⟨rfl, same⟩ := append_inj' split rfl
    rw [← singleton_inj.1 same]
    exact parents
  rw [concat_eq_append, ← cons_append, ← append_assoc] at split
  exact ordered before batch' after (append_inj' split rfl).1

/-! ### What a pass keeps -/

variable {file : File} {state : State} {batchRecords : ℕ} {record : Record}

structure State.Good (file : File) (state : State) : Prop where
  nodup : state.rows.Nodup
  rooted : ∀ record ∈ state.rows, Rooted file record
  ordered : Ordered state.batches
  parents : ∀ record ∈ state.pending, ∀ id ∈ record.parent,
    ∃ parent ∈ state.batches.flatten, parent.id = id

theorem Rooted.mem (rooted : Rooted file record) : record ∈ file.records := by
  cases rooted <;> assumption

theorem File.eq_of_id (file : File) {other : Record} (mem : record ∈ file.records)
    (mem' : other ∈ file.records) (same : record.id = other.id) : record = other :=
  inj_on_of_nodup_map file.distinct mem mem' same

namespace State

theorem inserted_iff {id : Uuid} :
    state.inserted id = true ↔ ∃ record ∈ state.batches.flatten, record.id = id := by
  rw [inserted, any_eq_true]
  simp only [decide_eq_true_eq]

@[simp] theorem rows_flush (state : State) : state.flush.rows = state.rows := by
  rw [flush]
  split
  · rfl
  simp [rows]

theorem pending_flush : state.flush.pending = [] := by
  rw [flush]
  split <;> trivial

theorem Good.flush (good : state.Good file) : state.flush.Good file := by
  refine ⟨state.rows_flush ▸ good.nodup, state.rows_flush ▸ good.rooted, ?_, ?_⟩
  · rw [State.flush]
    split
    · exact good.ordered
    · exact good.ordered.concat good.parents
  rw [pending_flush]
  exact fun _ mem => absurd mem not_mem_nil

theorem rows_join :
    (state.join batchRecords record).rows = state.rows ++ [record] := by
  rw [join]
  split <;> simp [rows]

theorem read_cases (batchRecords : ℕ) (state : State) (record : Record) :
    (state.read batchRecords record = state ∧
      (state.inserted record.id = true ∨ ∃ id ∈ record.parent, state.inserted id = false)) ∨
    (state.read batchRecords record = state.join batchRecords record ∧
      state.inserted record.id = false ∧ ∀ id ∈ record.parent, state.inserted id = true) := by
  rw [read]
  split_ifs with there ready
  · exact .inl ⟨rfl, .inl there⟩
  · exact .inr ⟨rfl, eq_false_of_ne_true there, (Option.all_eq_true _ _).1 ready⟩
  · exact .inl ⟨rfl, .inr (by simpa [Option.all_eq_true] using ready)⟩

theorem Good.join (good : state.Good file) (mem : record ∈ file.records)
    (fresh : record ∉ state.rows) (parents : ∀ id ∈ record.parent, state.inserted id = true) :
    (state.join batchRecords record).Good file := by
  have parents' : ∀ other ∈ state.pending ++ [record], ∀ id ∈ other.parent,
      ∃ parent ∈ state.batches.flatten, parent.id = id := by
    intro other mem id its
    rcases mem_append.1 mem with old | last
    · exact good.parents other old id its
    · exact inserted_iff.1 (parents id (mem_singleton.1 last ▸ its))
  have rooted : Rooted file record := by
    cases its : record.parent with
    | none => exact .root mem its
    | some id =>
      obtain ⟨parent, memParent, rfl⟩ := inserted_iff.1 (parents id its)
      exact .child mem its (good.rooted parent (mem_append_left _ memParent))
  refine ⟨?_, ?_, ?_, ?_⟩
  · rw [rows_join]
    exact good.nodup.append (nodup_singleton record) (disjoint_singleton.2 fresh)
  · rw [rows_join]
    exact forall_mem_append.2 ⟨good.rooted, forall_mem_singleton.2 rooted⟩
  · rw [State.join]
    split
    · exact good.ordered
    · exact good.ordered.concat parents'
  rw [State.join]
  split
  · exact parents'
  · exact fun _ mem => absurd mem not_mem_nil

/-- A stretch of the file is read.  What is read next is in the rows only if it was inserted. -/
theorem Good.foldl_read {part : List Record} (nodup : part.Nodup)
    (within : ∀ record ∈ part, record ∈ file.records) (good : state.Good file)
    (apart : ∀ record ∈ part, record ∈ state.rows → state.inserted record.id = true) :
    (part.foldl (State.read batchRecords) state).Good file := by
  induction part generalizing state with
  | nil => exact good
  | cons record _ ih =>
    obtain ⟨alone, nodup⟩ := nodup_cons.1 nodup
    obtain ⟨mem, within⟩ := forall_mem_cons.1 within
    obtain ⟨here, apart⟩ := forall_mem_cons.1 apart
    rw [foldl_cons]
    rcases read_cases batchRecords state record with ⟨same, -⟩ | ⟨same, out, parents⟩
    · rw [same]
      exact ih nodup within good apart
    have fresh : record ∉ state.rows := fun old => by simp [here old] at out
    rw [same]
    refine ih nodup within (good.join mem fresh parents) fun other memOther old => ?_
    rw [rows_join] at old
    rcases mem_append.1 old with old | last
    · obtain ⟨_, mem', same⟩ := inserted_iff.1 (apart other memOther old)
      refine inserted_iff.2 ⟨_, ?_, same⟩
      rw [State.join]
      split
      · exact mem'
      · simpa using .inl (by simpa using mem')
    · exact absurd (mem_singleton.1 last ▸ memOther) alone

/-- Reading adds to the rows, unless nothing could be added. -/
theorem foldl_read_cases (batchRecords : ℕ) (part : List Record) (state : State) :
    (part.foldl (read batchRecords) state = state ∧ ∀ record ∈ part,
      state.inserted record.id = true ∨ ∃ id ∈ record.parent, state.inserted id = false) ∨
    state.rows.length < (part.foldl (read batchRecords) state).rows.length := by
  induction part generalizing state with
  | nil => exact .inl ⟨rfl, fun _ mem => absurd mem not_mem_nil⟩
  | cons record _ ih =>
    rw [foldl_cons]
    rcases read_cases batchRecords state record with ⟨same, out⟩ | ⟨same, -⟩
    · rw [same]
      exact (ih state).imp_left (And.imp_right fun rest => forall_mem_cons.2 ⟨out, rest⟩)
    have longer : state.rows.length < (state.read batchRecords record).rows.length := by
      simp [same, rows_join]
    refine .inr ?_
    rcases ih (state.read batchRecords record) with ⟨still, -⟩ | more
    · rwa [still]
    · exact Nat.lt_trans longer more

end State

/-! ### All passes -/

/-- Nothing is left that could go in. -/
theorem mem_rows_of_rooted {final : State} (good : final.Good file) (settled : final.pending = [])
    (stuck : ∀ record ∈ file.records,
      final.inserted record.id = true ∨ ∃ id ∈ record.parent, final.inserted id = false)
    (rooted : Rooted file record) : record ∈ final.rows := by
  have flat : final.rows = final.batches.flatten := by rw [State.rows, settled, append_nil]
  have found : ∀ {record}, record ∈ file.records → final.inserted record.id = true →
      record ∈ final.rows := by
    intro _ mem there
    obtain ⟨other, memOther, same⟩ := State.inserted_iff.1 there
    rw [← flat] at memOther
    exact file.eq_of_id (good.rooted other memOther).mem mem same ▸ memOther
  induction rooted with
  | root mem top =>
    rcases stuck _ mem with there | ⟨id, its, -⟩
    · exact found mem there
    rw [top] at its
    cases its
  | child mem below _ ih =>
    rcases stuck _ mem with there | ⟨_, its, out⟩
    · exact found mem there
    rw [below] at its
    cases its
    rw [State.inserted_iff.2 ⟨_, flat ▸ ih, rfl⟩] at out
    cases out

theorem insertLevels_cases (batchRecords done : ℕ) (good : state.Good file)
    (settled : state.pending = []) (counted : done = state.rows.length) :
    ∃ final : State, final.Good file ∧ final.pending = [] ∧
      ((insertLevels batchRecords file.records file.records.length done state = .ok final ∧
        file.records.length ≤ final.rows.length) ∨
      (insertLevels batchRecords file.records file.records.length done state = .error final ∧
        final.rows.length < file.records.length ∧ ∀ record ∈ file.records,
          final.inserted record.id = true ∨ ∃ id ∈ record.parent, final.inserted id = false)) := by
  have read : ∀ {state : State}, state.Good file → state.pending = [] →
      (state.pass batchRecords file.records).Good file := by
    intro state good settled
    refine (good.foldl_read file.distinct.of_map (fun _ mem => mem) fun record _ old => ?_).flush
    rw [State.rows, settled, append_nil] at old
    exact State.inserted_iff.2 ⟨record, old, rfl⟩
  fun_induction insertLevels batchRecords file.records file.records.length done state with
  | case1 _ state enough => exact ⟨state, good, settled, .inl ⟨rfl, counted ▸ enough⟩⟩
  | case2 _ state _ none =>
    rcases State.foldl_read_cases batchRecords file.records state with ⟨same, _⟩ | _
    · have still : state.pass batchRecords file.records = state := by
        rw [State.pass, same, State.flush, if_pos settled]
      exact ⟨_, read good settled, State.pending_flush,
        .inr ⟨rfl, by rw [still]; omega, by rwa [still]⟩⟩
    rw [State.pass, State.rows_flush] at none
    omega
  | case3 _ _ _ _ ih =>
    exact ih (read good settled) State.pending_flush (by omega)

/-- **Every record goes in once, after its parent**, or the import raises, which it does exactly
when a parent chain does not reach a root. -/
theorem insertByLevel_spec (batchRecords : ℕ) (file : File) :
    (∀ final, insertByLevel batchRecords file = .ok final →
      final.batches.flatten.Perm file.records ∧ Ordered final.batches) ∧
    (∀ final, insertByLevel batchRecords file = .error final →
      final.batches.flatten.Nodup ∧ final.batches.flatten ⊆ file.records ∧
        Ordered final.batches) ∧
    ((∃ final, insertByLevel batchRecords file = .error final) ↔
      ∃ record ∈ file.records, ¬Rooted file record) := by
  have start : State.Good file {} :=
    ⟨nodup_nil, by simp [State.rows], by simp [Ordered], by simp⟩
  obtain ⟨final, good, settled, results⟩ := insertLevels_cases batchRecords 0 start rfl rfl
  have flat : final.rows = final.batches.flatten := by rw [State.rows, settled, append_nil]
  have within : final.rows ⊆ file.records := fun record mem => (good.rooted record mem).mem
  have fits : final.rows <+~ file.records := subperm_of_subset good.nodup within
  rw [insertByLevel]
  rcases results with ⟨is, all⟩ | ⟨is, _, stuck⟩
  · have perm := fits.perm_of_length_le all
    rw [is]
    refine ⟨fun _ same => ?_, by simp, by simp, ?_⟩
    · cases same
      exact ⟨flat ▸ perm, good.ordered⟩
    rintro ⟨record, mem, unrooted⟩
    exact absurd (good.rooted record (perm.mem_iff.2 mem)) unrooted
  rw [is]
  refine ⟨by simp, fun _ same => ?_, fun _ => ?_, fun _ => ⟨final, rfl⟩⟩
  · cases same
    exact ⟨flat ▸ good.nodup, flat ▸ within, good.ordered⟩
  by_contra all
  push Not at all
  have covers : file.records ⊆ final.rows := fun record mem =>
    mem_rows_of_rooted good settled stuck (all record mem)
  have := (subperm_of_subset file.distinct.of_map covers).length_le
  omega

example : insertByLevel 2 ⟨[⟨3, some 2⟩, ⟨2, some 1⟩, ⟨1, none⟩], by decide⟩
    = .ok ⟨[[⟨1, none⟩], [⟨2, some 1⟩], [⟨3, some 2⟩]], []⟩ := by
  decide +kernel

end Renga.Transfers.Import
