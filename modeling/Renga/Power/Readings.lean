import Renga.Lib.Evidence
import Renga.Lib.KeyTable
import Renga.Organizations

/-!
# Current power readings

`Renga.Power.Readings`: each series keeps the sample with the latest event time.  A batch settles
its own repeats of a series in memory and what is left with the table, by a conditional upsert.
Both keep what came first among the latest, so that together they compute one maximum
(`Evidence.argmax_append`).
-/

namespace Renga.Power

open List Evidence

inductive Boundary where
  | hostInput
  | supplyInput
  | supplyOutput
  | outlet
  | feed
  | leg
deriving DecidableEq

inductive Quantity where
  | realPower
  | apparentPower
  | current
  | voltage
  | powerFactor
  | state
deriving DecidableEq

namespace Readings

/-- The index `power_readings_series_index`, for which `NULL`s are equal. -/
structure Series where
  sourceId : Uuid
  target : Option String
  sensor : String
  boundary : Boundary
  quantity : Quantity
  windowMs : ℤ
deriving DecidableEq

/-- `content` is what is stored as it is: the unit, the leg, the component, the coverage, the
origin, the mapping, and the evidence. -/
structure Sample (α : Type) where
  target : Option String
  sensor : String
  boundary : Boundary
  quantity : Quantity
  windowStart : Time
  windowEnd : Time
  eventAt : Time
  freshForSeconds : ℤ
  content : α

/-- A row but for when it was received. -/
structure Report (α : Type) where
  series : Series
  content : α
  windowStart : Time
  windowEnd : Time
  eventAt : Time
  freshUntil : Time

structure Reading (α : Type) extends Report α where
  receivedAt : Time

variable {α : Type}

abbrev Table (α : Type) := KeyTable Series (Reading α) fun reading => reading.series

def maxFutureSkewSeconds : ℤ := 300

def insertChunk : ℕ := 500

def isPlausible (latest : Time) (sample : Sample α) : Bool :=
  sample.eventAt ≤ latest && sample.windowEnd ≤ latest

def report (sourceId : Uuid) (sample : Sample α) : Report α where
  series :=
    { sourceId, target := sample.target, sensor := sample.sensor, boundary := sample.boundary
      quantity := sample.quantity, windowMs := sample.windowEnd - sample.windowStart }
  content := sample.content
  windowStart := sample.windowStart
  windowEnd := sample.windowEnd
  eventAt := sample.eventAt
  freshUntil := sample.eventAt + seconds sample.freshForSeconds

def row (sourceId : Uuid) (now : Time) (sample : Sample α) : Reading α :=
  { report sourceId sample with receivedAt := now }

/-- The upsert of one row, which counts what it writes. -/
def newerOnly (state : Table α × ℕ) (row : Reading α) : Table α × ℕ :=
  if (state.1.get? row.series).all (·.eventAt < row.eventAt) then
    (state.1.place row, state.2 + 1)
  else state

/-- `Enum.chunk_every/2`. -/
def chunkEvery (n : ℕ) : List α → List (List α)
  | [] => []
  | a :: l => (a :: l.take (n - 1)) :: chunkEvery n (l.drop (n - 1))
termination_by l => l.length

structure Counts where
  current : ℕ
  superseded : ℤ
  rejected : ℕ
deriving DecidableEq

/-- `record!/3`. -/
def record (readings : Table α) (sourceId : Uuid) (samples : List (Sample α)) (now : Time) :
    Table α × Counts :=
  let latest := now + seconds maxFutureSkewSeconds
  let (accepted, rejected) := samples.partition (isPlausible latest)
  let rows := latestOfGroups (fun row : Reading α => row.series) (fun row => row.eventAt)
    (accepted.map (row sourceId now))
  let (readings, current) :=
    (chunkEvery insertChunk rows).foldl (fun state chunk => chunk.foldl newerOnly state)
      (readings, 0)
  (readings,
    { current, superseded := accepted.length - current, rejected := rejected.length })

/-! ### One batch -/

theorem flatten_chunkEvery {n : ℕ} {l : List α} : (chunkEvery n l).flatten = l := by
  induction l using chunkEvery.induct n with
  | case1 => rw [chunkEvery, flatten_nil]
  | case2 _ _ ih => rw [chunkEvery, flatten_cons, ih, cons_append, take_append_drop]

variable {readings : Table α} {series : Series} {state : Table α × ℕ}

theorem get?_newerOnly {row : Reading α} :
    (newerOnly state row).1.get? series =
      later (fun reading => reading.eventAt) (state.1.get? series)
        (if row.series = series then some row else none) := by
  by_cases its : row.series = series
  · subst its
    rw [newerOnly, if_pos rfl]
    cases found : state.1.get? row.series with
    | none => simp [later, KeyTable.get?_place]
    | some old =>
      by_cases before : old.eventAt < row.eventAt
      · simp [later, before, KeyTable.get?_place]
      simp [later, before, found]
  rw [newerOnly, if_neg its, later_none]
  split
  · exact (state.1.get?_place row series).trans (if_neg (Ne.symm its))
  · rfl

variable {rows : List (Reading α)}

/-- Rows of different series do not touch each other. -/
theorem get?_foldl_newerOnly (distinct : (rows.map fun row => row.series).Nodup) :
    (rows.foldl newerOnly state).1.get? series =
      later (fun reading => reading.eventAt) (state.1.get? series)
        (rows.find? (·.series = series)) := by
  induction rows generalizing state with
  | nil => simp
  | cons row rows ih =>
    obtain ⟨alone, distinct⟩ := nodup_cons.1 distinct
    rw [foldl_cons, ih distinct, get?_newerOnly]
    by_cases its : row.series = series
    · have others : rows.find? (·.series = series) = none := by
        refine find?_eq_none.2 fun other mem same => alone (mem_map.2 ⟨other, mem, ?_⟩)
        exact (of_decide_eq_true same).trans its.symm
      simp [its, others]
    · simp [its]

theorem find?_latestOfGroups :
    (latestOfGroups (fun row : Reading α => row.series) (fun row => row.eventAt) rows).find?
        (·.series = series) =
      (rows.filter (·.series = series)).argmax fun row => row.eventAt := by
  cases found : (latestOfGroups (fun row : Reading α => row.series) (fun row => row.eventAt)
      rows).find? (·.series = series) with
  | some row =>
    have its : row.series = series := by simpa using find?_some found
    have latest := mem_latestOfGroups_iff.1 (mem_of_find?_eq_some found)
    rw [its] at latest
    exact latest.symm
  | none =>
    refine (Option.eq_none_iff_forall_not_mem.2 fun row latest => ?_).symm
    have its := of_decide_eq_true (mem_filter.1 (argmax_mem latest)).2
    rw [← its] at latest found
    exact find?_eq_none.1 found row (mem_latestOfGroups_iff.2 latest) (decide_eq_true rfl)

/-! ### Arrivals -/

/-- A call of `record!/3` with samples that are plausible when they arrive. -/
structure Batch (α : Type) where
  sourceId : Uuid
  now : Time
  samples : List (Sample α)
  timely : samples.all (isPlausible (now + seconds maxFutureSkewSeconds))

def Batch.arrivals (batch : Batch α) : List (Uuid × Sample α) :=
  batch.samples.map fun sample => (batch.sourceId, sample)

def arrivals (batches : List (Batch α)) : List (Uuid × Sample α) :=
  batches.flatMap Batch.arrivals

/-- The reports of a series, in the order of their arrival. -/
def reports (arrivals : List (Uuid × Sample α)) (series : Series) : List (Report α) :=
  (arrivals.map fun arrival => report arrival.1 arrival.2).filter (·.series = series)

def recordAll (batches : List (Batch α)) : Table α :=
  batches.foldl (fun readings batch => (record readings batch.sourceId batch.samples batch.now).1)
    .empty

theorem map_later {a b : Option (Reading α)} :
    (later (fun reading => reading.eventAt) a b).map Reading.toReport =
      later Report.eventAt (a.map Reading.toReport) (b.map Reading.toReport) := by
  cases a with
  | none => simp [later]
  | some =>
    cases b with
    | none => simp
    | some => simp only [later, Option.map_some]; split <;> rfl

theorem map_argmax :
    (rows.argmax fun row => row.eventAt).map Reading.toReport =
      (rows.map Reading.toReport).argmax Report.eventAt := by
  induction rows using reverseRecOn with
  | nil => rfl
  | append_singleton _ _ ih =>
    rw [argmax_append, map_later, ih, map_append, argmax_append]
    rfl

theorem get?_record {batch : Batch α} :
    (((record readings batch.sourceId batch.samples batch.now).1.get? series).map
        Reading.toReport) =
      later Report.eventAt ((readings.get? series).map Reading.toReport)
        ((reports batch.arrivals series).argmax Report.eventAt) := by
  have accepted : (batch.samples.partition
      (isPlausible (batch.now + seconds maxFutureSkewSeconds))).1 = batch.samples := by
    rw [partition_eq_filter_filter]
    exact filter_eq_self.2 (all_eq_true.1 batch.timely)
  have rows : ((batch.samples.map (row batch.sourceId batch.now)).filter
      (·.series = series)).map Reading.toReport = reports batch.arrivals series := by
    rw [reports, Batch.arrivals, map_map, filter_map, filter_map, map_map]
    rfl
  simp only [record]
  rw [← foldl_flatten, flatten_chunkEvery, get?_foldl_newerOnly nodup_latestOfGroups,
    find?_latestOfGroups, accepted, map_later, map_argmax, rows]

theorem get?_recordAll {batches : List (Batch α)} (series : Series) :
    ((recordAll batches).get? series).map Reading.toReport =
      (reports (arrivals batches) series).argmax Report.eventAt := by
  induction batches using reverseRecOn with
  | nil => rfl
  | append_singleton batches batch ih =>
    have split : reports (arrivals (batches ++ [batch])) series =
        reports (arrivals batches) series ++ reports batch.arrivals series := by
      simp [reports, arrivals]
    rw [split, argmax_append, ← ih, ← get?_record, recordAll, foldl_append]
    rfl

/-- **A series keeps the first-arrived of its latest reports**, however the arrivals are cut into
batches and whenever these come in.  If no two reports of a series have one time, the order of the
arrivals does not matter either. -/
theorem readings_settle (batches : List (Batch α)) :
    (∀ series, ((recordAll batches).get? series).map Reading.toReport =
      (reports (arrivals batches) series).argmax Report.eventAt) ∧
    (∀ batches', arrivals batches' = arrivals batches → ∀ series,
      ((recordAll batches').get? series).map Reading.toReport =
        ((recordAll batches).get? series).map Reading.toReport) ∧
    ∀ batches', (arrivals batches').Perm (arrivals batches) →
      (∀ series, ((reports (arrivals batches) series).map Report.eventAt).Nodup) → ∀ series,
        ((recordAll batches').get? series).map Reading.toReport =
          ((recordAll batches).get? series).map Reading.toReport := by
  refine ⟨get?_recordAll, fun batches' same series => ?_,
    fun batches' same distinct series => ?_⟩
  · rw [get?_recordAll, get?_recordAll, same]
  have perm : (reports (arrivals batches') series).Perm (reports (arrivals batches) series) :=
    (same.map _).filter _
  have apart := inj_on_of_nodup_map (distinct series)
  rw [get?_recordAll, get?_recordAll]
  refine Option.ext fun _ => ?_
  refine (mem_argmax_iff_of_distinct ?_).trans (Iff.trans ?_
    (mem_argmax_iff_of_distinct fun a memA b memB => apart memA memB).symm)
  · exact fun _ memA _ memB => apart (perm.mem_iff.1 memA) (perm.mem_iff.1 memB)
  · simp only [perm.mem_iff]

/-- Two samples of one series, the later one in the first batch. -/
example : (recordAll ([⟨1, 9, [⟨none, "watts", .hostInput, .realPower, 4, 5, 5, 60, "late"⟩], rfl⟩,
    ⟨1, 9, [⟨none, "watts", .hostInput, .realPower, 3, 4, 4, 60, "early"⟩], rfl⟩] :
      List (Batch String))).rows.map (·.content) = ["late"] := by
  decide +kernel

end Readings

end Renga.Power
