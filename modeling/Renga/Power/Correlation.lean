import Renga.Lib.Evidence
import Renga.Lib.KeyTable
import Renga.Lib.Run
import Renga.Organizations

/-!
# Suggested connections

`Renga.Power.Correlation` pairs ports and outlets whose readings move together, and
`Renga.Power.FindingReconciler` keeps the findings `suggested_connection`.  What pairs them is left
open here (`World.results`); what is modelled is which of the pairs become findings, and which
findings stay.
-/

namespace Renga.Power.Correlation

open List Evidence

/-- A power port or a power outlet. -/
structure Endpoint where
  id : Uuid
  resourceId : Uuid
deriving DecidableEq

inductive Basis where
  | state
  | load
deriving DecidableEq

structure Result where
  port : Endpoint
  outlet : Endpoint
  basis : Basis
deriving DecidableEq

/-- A finding, or the condition for one.  The resolution key has the ids of both ends. -/
structure Finding where
  resourceId : Uuid
  portId : Uuid
  outletId : Uuid
  basis : Basis
deriving DecidableEq

/-- What a reconciliation reads: the ends that are not retired, the cables from a port to an outlet
or a feed, and where devices are; `results` are the pairs that correlate. -/
structure World where
  ports : KeyTable Uuid Endpoint Endpoint.id
  outlets : KeyTable Uuid Endpoint Endpoint.id
  cables : List (Uuid × Option Uuid)
  racks : Uuid → Option Uuid
  results : List Result

/-- Lower is preferred in the source. -/
def preference : Basis → ℕ
  | .state => 1
  | .load => 0

def Result.pair (result : Result) : Uuid × Uuid := (result.port.id, result.outlet.id)

/-- One result for each pair. -/
def chosen (results : List Result) : List Result :=
  latestOfGroups Result.pair (preference ·.basis) results

def unambiguous (results : List Result) : List Result :=
  (chosen results).filter fun result =>
    (chosen results).countP (·.port.id = result.port.id) = 1 ∧
      (chosen results).countP (·.outlet.id = result.outlet.id) = 1

namespace World

def freePort (world : World) (id : Uuid) : Bool :=
  (world.ports.get? id).isSome && id ∉ world.cables.map Prod.fst

def freeOutlet (world : World) (id : Uuid) : Bool :=
  (world.outlets.get? id).isSome && world.cables.all (·.2 ≠ some id)

/-- The candidates of a rack: free ends in it that correlate. -/
def candidates (world : World) (rack : Uuid) : List Result :=
  world.results.filter fun result =>
    (world.ports.get? result.port.id = some result.port ∧
      world.outlets.get? result.outlet.id = some result.outlet) ∧
    (world.freePort result.port.id ∧ world.freeOutlet result.outlet.id) ∧
      world.racks result.port.resourceId = some rack ∧
      world.racks result.outlet.resourceId = some rack

def suggestions (world : World) : List Result :=
  ((world.ports.rows ++ world.outlets.rows).filterMap (world.racks ·.resourceId)).dedup.flatMap
    fun rack => unambiguous (world.candidates rack)

end World

def conditionAttrs (result : Result) : Finding :=
  { resourceId := result.port.resourceId, portId := result.port.id, outletId := result.outlet.id
    basis := result.basis }

variable (world : World) (openFindings : List Finding)

/-- `conditions/4`. -/
def conditions : List Finding :=
  let kept := openFindings.filter fun finding =>
    world.freePort finding.portId && world.freeOutlet finding.outletId
  let claimed := kept.map Finding.portId ++ kept.map Finding.outletId
  kept ++ (world.suggestions.filter fun result =>
    result.port.id ∉ claimed ∧ result.outlet.id ∉ claimed).map conditionAttrs

def identity (finding : Finding) : Uuid × Uuid × Uuid :=
  (finding.resourceId, finding.portId, finding.outletId)

structure Counts where
  opened : ℕ
  kept : ℕ
  resolved : ℕ
deriving DecidableEq

/-- `apply_conditions!/2`: a condition opens a finding, or refreshes the one with its identity; the
other findings are resolved. -/
def applyConditions : List Finding × Counts :=
  let conditions := conditions world openFindings
  let (kept, opened) :=
    conditions.partition fun condition => identity condition ∈ openFindings.map identity
  (opened ++ kept,
    { opened := opened.length, kept := kept.length
      resolved := (openFindings.filter fun finding =>
        identity finding ∉ conditions.map identity).length })

def reconcile (world : World) : List Finding :=
  (applyConditions world openFindings).1

/-! ### Candidates -/

theorem eq_of_countP_eq_one {α : Type*} {l : List α} {p : α → Bool} (one : l.countP p = 1) {a b : α}
    (mem : a ∈ l) (mem' : b ∈ l) (holds : p a = true) (holds' : p b = true) : a = b := by
  rw [countP_eq_length_filter] at one
  obtain ⟨c, is⟩ := length_eq_one_iff.1 one
  have only : ∀ d, d ∈ l → p d = true → d = c := fun _ mem holds =>
    mem_singleton.1 (is ▸ mem_filter.2 ⟨mem, holds⟩)
  exact (only a mem holds).trans (only b mem' holds').symm

variable {results : List Result} {world : World} {result other : Result}

theorem exists_rack (mem : result ∈ world.suggestions) :
    ∃ rack, result ∈ unambiguous (world.candidates rack) ∧ result ∈ world.candidates rack := by
  obtain ⟨rack, -, mem⟩ := mem_flatMap.1 mem
  exact ⟨rack, mem, latestOfGroups_subset (mem_filter.1 mem).1⟩

variable (shared : other.port.id = result.port.id ∨ other.outlet.id = result.outlet.id)
include shared

theorem eq_of_unambiguous (mem : result ∈ unambiguous results) (memOther : other ∈ chosen results) :
    other = result := by
  obtain ⟨memResult, alone⟩ := mem_filter.1 mem
  obtain ⟨alonePort, aloneOutlet⟩ := of_decide_eq_true alone
  rcases shared with same | same
  · exact eq_of_countP_eq_one alonePort memOther memResult (decide_eq_true same)
      (decide_eq_true rfl)
  exact eq_of_countP_eq_one aloneOutlet memOther memResult (decide_eq_true same)
    (decide_eq_true rfl)

theorem pair_eq_of_unambiguous (mem : result ∈ unambiguous results) (memOther : other ∈ results) :
    other.pair = result.pair := by
  have group : other ∈ results.filter (·.pair = other.pair) := mem_filter.2 ⟨memOther, by simp⟩
  obtain ⟨best, is⟩ := exists_argmax (preference ·.basis) group
  have pair : best.pair = other.pair := of_decide_eq_true (mem_filter.1 (argmax_mem is)).2
  have memBest : best ∈ chosen results := mem_latestOfGroups_iff.2 (pair ▸ is)
  obtain ⟨port, outlet⟩ := Prod.mk.inj pair
  rw [← eq_of_unambiguous (by rw [port, outlet]; exact shared) mem memBest, pair]

/-- An end is in one rack. -/
theorem rack_eq {rack rack' : Uuid} (mem : result ∈ world.candidates rack)
    (mem' : other ∈ world.candidates rack') :
    rack' = rack := by
  obtain ⟨-, ⟨port, outlet⟩, -, inside, inside'⟩ := by simpa [World.candidates] using mem
  obtain ⟨-, ⟨otherPort, otherOutlet⟩, -, otherInside, otherInside'⟩ := by
    simpa [World.candidates] using mem'
  rcases shared with same | same
  · rw [same, port] at otherPort
    rw [← Option.some.inj otherPort, inside] at otherInside
    exact (Option.some.inj otherInside).symm
  rw [same, outlet] at otherOutlet
  rw [← Option.some.inj otherOutlet, inside'] at otherInside'
  exact (Option.some.inj otherInside').symm

theorem eq_of_suggested (mem : result ∈ world.suggestions) (mem' : other ∈ world.suggestions) :
    other = result := by
  obtain ⟨_, alone, within⟩ := exists_rack mem
  obtain ⟨_, alone', within'⟩ := exists_rack mem'
  rw [rack_eq shared within within'] at alone'
  exact eq_of_unambiguous shared alone (mem_filter.1 alone').1

omit shared

/-! ### Steps and runs -/

/-- No two findings share an end. -/
def Matching (findings : List Finding) : Prop :=
  ∀ finding ∈ findings, ∀ other ∈ findings,
    finding.portId = other.portId ∨ finding.outletId = other.outletId → finding = other

variable {findings : List Finding} {finding : Finding}

def World.free (world : World) (finding : Finding) : Prop :=
  world.freePort finding.portId = true ∧ world.freeOutlet finding.outletId = true

theorem mem_reconcile :
    finding ∈ reconcile findings world ↔ finding ∈ conditions world findings := by
  simp only [reconcile, applyConditions, partition_eq_filter_filter, mem_append, mem_filter,
    Function.comp_apply, ← and_or_left, Bool.not_eq_true']
  exact and_iff_left (Bool.dichotomy _)

theorem mem_reconcile_of_free (mem : finding ∈ findings) (free : world.free finding) :
    finding ∈ reconcile findings world :=
  mem_reconcile.2 (mem_append_left _ (mem_filter.2 ⟨mem, by simp [free.1, free.2]⟩))

/-- A finding is kept, or is opened and shares no end with one that is kept. -/
theorem cases_of_mem_reconcile (mem : finding ∈ reconcile findings world) :
    (finding ∈ findings ∧ world.free finding) ∨ ∃ result ∈ world.suggestions,
      (∀ kept ∈ findings, world.free kept →
        result.port.id ≠ kept.portId ∧ result.outlet.id ≠ kept.outletId) ∧
      conditionAttrs result = finding := by
  rcases mem_append.1 (mem_reconcile.1 mem) with mem | mem
  · obtain ⟨old, free⟩ := mem_filter.1 mem
    exact .inl ⟨old, by simpa [World.free] using free⟩
  obtain ⟨result, mem, is⟩ := mem_map.1 mem
  obtain ⟨suggested, unclaimed⟩ := mem_filter.1 mem
  refine .inr ⟨result, suggested, fun kept old free => ?_, is⟩
  have here : kept ∈ findings.filter fun finding =>
      world.freePort finding.portId && world.freeOutlet finding.outletId :=
    mem_filter.2 ⟨old, by simp [free.1, free.2]⟩
  obtain ⟨port, outlet⟩ := of_decide_eq_true unclaimed
  exact ⟨fun same => port (mem_append_left _ (same ▸ mem_map_of_mem here)),
    fun same => outlet (mem_append_right _ (same ▸ mem_map_of_mem here))⟩

theorem free_of_mem (mem : finding ∈ reconcile findings world) : world.free finding := by
  rcases cases_of_mem_reconcile mem with ⟨-, free⟩ | ⟨_, suggested, -, rfl⟩
  · exact free
  obtain ⟨_, -, within⟩ := exists_rack suggested
  obtain ⟨-, -, free, -⟩ := by simpa [World.candidates] using within
  exact free

theorem Matching.reconcile (matching : Matching findings) :
    Matching (reconcile findings world) := by
  intro finding mem other mem' shared
  rcases cases_of_mem_reconcile mem with ⟨old, free⟩ | ⟨_, suggested, apart, rfl⟩ <;>
    rcases cases_of_mem_reconcile mem' with ⟨old', free'⟩ | ⟨_, suggested', apart', rfl⟩
  · exact matching finding old other old' shared
  · obtain ⟨port, outlet⟩ := apart' finding old free
    exact (shared.elim (port ·.symm) (outlet ·.symm)).elim
  · obtain ⟨port, outlet⟩ := apart other old' free'
    exact (shared.elim port outlet).elim
  · rw [eq_of_suggested shared suggested' suggested]

/-- **Suggestions are a matching of free ends.**  A suggestion stays open while both ends are there
and free; and one is opened only for a pair neither end of which is in another candidate pair or in
a suggestion that stays open. -/
theorem suggestions_match (worlds : List World) (world : World) :
    let before := worlds.foldl reconcile []
    let after := reconcile before world
    (∀ finding ∈ after, world.free finding) ∧ Matching after ∧
    (∀ finding ∈ before, world.free finding → finding ∈ after) ∧
    ∀ finding ∈ after, finding ∉ before →
      ∃ rack, ∃ result ∈ world.candidates rack, conditionAttrs result = finding ∧
        (∀ rack', ∀ other ∈ world.candidates rack',
          other.port.id = result.port.id ∨ other.outlet.id = result.outlet.id →
            other.pair = result.pair) ∧
        ∀ other ∈ before, other ∈ after →
          finding.portId ≠ other.portId ∧ finding.outletId ≠ other.outletId := by
  intro before _
  have matching : Matching before :=
    Run.run_invariant (fun _ _ matching => matching.reconcile) (by simp [Matching]) worlds
  refine ⟨fun _ mem => free_of_mem mem, matching.reconcile,
    fun _ mem free => mem_reconcile_of_free mem free, fun _ mem new => ?_⟩
  rcases cases_of_mem_reconcile mem with ⟨old, -⟩ | ⟨result, suggested, apart, rfl⟩
  · exact absurd old new
  obtain ⟨rack, alone, within⟩ := exists_rack suggested
  refine ⟨rack, result, within, rfl, fun _ other mem' shared => ?_, fun other old still => ?_⟩
  · rw [rack_eq shared within mem'] at mem'
    exact pair_eq_of_unambiguous shared alone mem'
  · exact apart other old (free_of_mem still)

end Renga.Power.Correlation
