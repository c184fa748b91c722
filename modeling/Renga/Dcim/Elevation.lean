import Renga.Lib.Run
import Renga.Organizations

/-!
# Rack elevations

`Renga.DCIM.Elevation` offers the units at which a device can be placed, from the units of the
blocks it draws; `DCIM.place_in_rack` writes ranges of units, which the database refuses where they
overlap.  Both come to the same, except at the top of the tallest rack an integer column can hold:
there the range ends behind the last integer.
-/

namespace Renga.DCIM

open List

/-- The greatest `int4`. -/
def int4Max : ℤ := 2147483647

inductive Side where
  | front
  | rear
deriving DecidableEq

inductive Face where
  | front
  | rear
  | full
deriving DecidableEq

def Face.sides : Face → List Side
  | .front => [.front]
  | .rear => [.rear]
  | .full => [.front, .rear]

structure Rack where
  id : Uuid
  heightUnits : ℤ
  fits : heightUnits ≤ int4Max

/-- A row of `rack_occupancies`: the units of a placement from `lower` to below `upper`. -/
structure Occupancy where
  resourceId : Uuid
  rackId : Uuid
  side : Side
  lower : ℤ
  upper : ℤ
  nonempty : lower < upper

/-- The height of the hardware type, and that of the current placement. -/
structure Device where
  id : Uuid
  catalog : Option ℤ := none
  recorded : Option ℤ := none
  positive : ∀ height ∈ catalog.or recorded, 0 < height

/-- `device_height/2`. -/
def Device.height (device : Device) : ℤ := (device.catalog.or device.recorded).getD 1

/-! ### The picker -/

structure Block where
  position : ℤ
  height : ℤ

structure Elevation where
  rack : Rack
  front : List Block
  rear : List Block

namespace Elevation

def blocks (occupancies : List Occupancy) (side : Side) : List Block :=
  (occupancies.filter (·.side = side)).map fun occupancy =>
    ⟨occupancy.lower, occupancy.upper - occupancy.lower⟩

def build (occupancies : List Occupancy) (rack : Rack) : Elevation :=
  let occupancies := occupancies.filter (·.rackId = rack.id)
  { rack, front := blocks occupancies .front, rear := blocks occupancies .rear }

/-- `first..last`, which runs down if `last` is less. -/
def range (first last : ℤ) : List ℤ :=
  if first ≤ last then (List.range (last - first + 1).toNat).map fun n : ℕ => first + n
  else (List.range (first - last + 1).toNat).map fun n : ℕ => first - n

def side (elevation : Elevation) : Side → List Block
  | .front => elevation.front
  | .rear => elevation.rear

def takenOn (elevation : Elevation) (side : Side) : List ℤ :=
  (elevation.side side).flatMap fun block =>
    range block.position (block.position + block.height - 1)

def takenUnits (elevation : Elevation) (face : Face) : List ℤ :=
  face.sides.flatMap elevation.takenOn

def freePositions (elevation : Elevation) (height : ℤ) (face : Face) : List ℤ :=
  let taken := elevation.takenUnits face
  let lastStart := elevation.rack.heightUnits - height + 1
  if lastStart < 1 then []
  else (range lastStart 1).filter fun start =>
    (range start (start + height - 1)).all (· ∉ taken)

end Elevation

/-! ### The writer -/

inductive Error where
  | invalidFace
  | invalidPosition
  | rackPositionOutOfBounds
  | overlaps
  | encode
deriving DecidableEq

/-- The range is encoded as `int4range`; the constraint is `rack_occupancies_no_overlap`. -/
def insertOccupancy (occupancies : List Occupancy) (new : Occupancy) :
    Except Error (List Occupancy) :=
  if int4Max < new.upper then .error .encode
  else if occupancies.any fun other => other.rackId = new.rackId ∧ other.side = new.side ∧
      other.lower < new.upper ∧ new.lower < other.upper then .error .overlaps
  else .ok (occupancies ++ [new])

theorem Device.height_pos (device : Device) : 0 < device.height := by
  rw [height]
  cases known : device.catalog.or device.recorded with
  | none => exact Int.one_pos
  | some height => exact device.positive height known

/-- `insert_occupancies/1`, for a placement with a unit. -/
def placementUnits (device : Device) (rack : Rack) (position : ℤ) (face : Face) : List Occupancy :=
  face.sides.map fun side =>
    { resourceId := device.id, rackId := rack.id, side, lower := position
      upper := position + device.height
      nonempty := Int.lt_add_of_pos_right position device.height_pos }

/-- `place_in_rack/5`.  The unit is what `Integer.parse/1` reads, and the face is none if it is an
unknown one. -/
def placeInRack (occupancies : List Occupancy) (device : Device) (rack : Rack)
    (position : Option ℤ) (face : Option Face) : Except Error (List Occupancy) := do
  let face ← Except.ofOption face .invalidFace
  let position ← Except.ofOption (position.filter (0 < ·)) .invalidPosition
  Except.require (position + device.height - 1 ≤ rack.heightUnits) .rackPositionOutOfBounds
  (placementUnits device rack position face).foldlM insertOccupancy
    (occupancies.filter (·.resourceId ≠ device.id))

/-! ### They agree -/

/-- The device stays within the rack, and its units are disjoint from those occupied. -/
def Fits (occupancies : List Occupancy) (height : ℤ) (rack : Rack) (position : ℤ) (face : Face) :
    Prop :=
  1 ≤ position ∧ position + height - 1 ≤ rack.heightUnits ∧
    ∀ other ∈ occupancies, other.rackId = rack.id → other.side ∈ face.sides →
      ∀ unit, position ≤ unit → unit < position + height →
        ¬(other.lower ≤ unit ∧ unit < other.upper)

variable {occupancies : List Occupancy} {device : Device} {rack : Rack}

namespace Elevation

theorem mem_range {first last unit : ℤ} :
    unit ∈ range first last ↔ min first last ≤ unit ∧ unit ≤ max first last := by
  rw [range]
  split <;> simp only [mem_map, List.mem_range]
  · refine ⟨?_, fun _ => ⟨(unit - first).toNat, by omega⟩⟩
    rintro ⟨n, small, rfl⟩
    omega
  refine ⟨?_, fun _ => ⟨(first - unit).toNat, by omega⟩⟩
  rintro ⟨_, _, rfl⟩
  omega

theorem mem_takenUnits {face : Face} {unit : ℤ} : unit ∈ (build occupancies rack).takenUnits face ↔
      ∃ other ∈ occupancies, other.rackId = rack.id ∧ other.side ∈ face.sides ∧
        other.lower ≤ unit ∧ unit < other.upper := by
  have on : ∀ side, unit ∈ (build occupancies rack).takenOn side ↔
      ∃ other ∈ occupancies, other.rackId = rack.id ∧ other.side = side ∧
        other.lower ≤ unit ∧ unit < other.upper := by
    intro side
    have drawn : ∀ other : Occupancy,
        unit ∈ range other.lower (other.lower + (other.upper - other.lower) - 1) ↔
          other.lower ≤ unit ∧ unit < other.upper := fun other => by
      have := other.nonempty
      rw [mem_range]
      omega
    have shown : (build occupancies rack).side side =
        blocks (occupancies.filter (·.rackId = rack.id)) side := by cases side <;> rfl
    simp only [takenOn, shown, blocks, flatMap_map, mem_flatMap, mem_filter, decide_eq_true_eq,
      drawn, and_assoc]
  rw [takenUnits, mem_flatMap]
  constructor
  · rintro ⟨side, mem, taken⟩
    obtain ⟨other, memOther, here, rfl, units⟩ := (on side).1 taken
    exact ⟨other, memOther, here, mem, units⟩
  rintro ⟨other, memOther, here, mem, units⟩
  exact ⟨other.side, mem, (on _).2 ⟨other, memOther, here, rfl, units⟩⟩

theorem mem_freePositions (occupancies : List Occupancy) (rack : Rack) (position : ℤ)
    (face : Face) {height : ℤ} (positive : 0 < height) :
    position ∈ (build occupancies rack).freePositions height face ↔
      Fits occupancies height rack position face := by
  have free : ∀ position : ℤ, ((range position (position + height - 1)).all
      (· ∉ (build occupancies rack).takenUnits face)) = true ↔
      ∀ unit, position ≤ unit → unit < position + height →
        unit ∉ (build occupancies rack).takenUnits face := by
    intro _
    simp only [all_eq_true, mem_range, decide_eq_true_eq, and_imp]
    exact forall_congr' fun unit => ⟨fun free low high => free (by omega) (by omega),
      fun free low high => free (by omega) (by omega)⟩
  rw [freePositions, Fits]
  have height' : (build occupancies rack).rack.heightUnits = rack.heightUnits := rfl
  split_ifs with none
  · refine iff_of_false not_mem_nil ?_
    rintro ⟨above, below, -⟩
    omega
  rw [mem_filter, mem_range, free]
  simp only [mem_takenUnits]
  constructor
  · rintro ⟨⟨above, below⟩, apart⟩
    exact ⟨by omega, by omega, fun other mem here side unit low high taken =>
      apart unit low high ⟨other, mem, here, side, taken⟩⟩
  rintro ⟨_, _, apart⟩
  refine ⟨by omega, ?_⟩
  rintro unit low high ⟨other, mem, here, side, taken⟩
  exact apart other mem here side unit low high taken

end Elevation

theorem insertOccupancy_eq_ok {new : Occupancy} {written : List Occupancy} :
    insertOccupancy occupancies new = .ok written ↔ (new.upper ≤ int4Max ∧
      ∀ other ∈ occupancies, other.rackId = new.rackId → other.side = new.side →
        ¬(other.lower < new.upper ∧ new.lower < other.upper)) ∧
      occupancies ++ [new] = written := by
  rw [insertOccupancy]
  split_ifs with beyond meets
  · simp [Int.not_le.2 beyond]
  · simp only [any_eq_true, decide_eq_true_eq] at meets
    obtain ⟨other, mem, here, side, units⟩ := meets
    simp only [false_iff]
    exact fun ok => ok.1.2 other mem here side units
  simp only [any_eq_true, decide_eq_true_eq, not_exists, not_and] at meets
  simp only [Except.ok.injEq, iff_and_self]
  exact fun _ => ⟨Int.not_lt.1 beyond, fun other mem here side units =>
    meets other mem here side units.1 units.2⟩

theorem placementUnits_ok_iff (occupancies : List Occupancy) (device : Device) (rack : Rack)
    (position : ℤ) (face : Face) :
    (∃ written, (placementUnits device rack position face).foldlM insertOccupancy occupancies =
      .ok written) ↔ position + device.height ≤ int4Max ∧ ∀ other ∈ occupancies,
        other.rackId = rack.id → other.side ∈ face.sides →
          ¬(other.lower < position + device.height ∧ position < other.upper) := by
  cases face with
  | front | rear => simp [placementUnits, Face.sides, insertOccupancy_eq_ok]
  | full =>
    simp only [placementUnits, Face.sides, map_cons, map_nil, foldlM_cons, foldlM_nil,
      Except.bind_eq_ok_iff, insertOccupancy_eq_ok, Except.pure_eq_ok_iff]
    constructor
    · rintro ⟨_, _, ⟨⟨fits, front⟩, rfl⟩, _, ⟨⟨-, rear⟩, rfl⟩, -⟩
      refine ⟨fits, fun other mem here _ => ?_⟩
      cases its : other.side with
      | front => exact front other mem here its
      | rear => exact rear other (mem_append_left _ mem) here its
    rintro ⟨fits, apart⟩
    refine ⟨_, _, ⟨⟨fits, fun other mem here its => ?_⟩, rfl⟩, _, ⟨⟨fits, ?_⟩, rfl⟩, rfl⟩
    · exact apart other mem here (by simp [its])
    intro other mem here its
    rcases mem_append.1 mem with mem | mem
    · exact apart other mem here (by simp [its])
    rw [mem_singleton.1 mem] at its
    cases its

theorem placeInRack_ok_iff {position : ℤ} {face : Face} :
    (∃ written, placeInRack occupancies device rack (some position) (some face) = .ok written) ↔
      0 < position ∧ position + device.height - 1 ≤ rack.heightUnits ∧
        position + device.height ≤ int4Max ∧
          ∀ other ∈ occupancies, other.resourceId ≠ device.id → other.rackId = rack.id →
            other.side ∈ face.sides →
              ¬(other.lower < position + device.height ∧ position < other.upper) := by
  have written := placementUnits_ok_iff (occupancies.filter (·.resourceId ≠ device.id)) device rack
    position face
  simp only [mem_filter, decide_eq_true_eq, and_imp] at written
  simp only [placeInRack, Except.bind_eq_ok_iff, Except.ofOption_eq_ok_iff,
    Except.require_eq_ok_iff, decide_eq_true_eq, Option.filter_eq_some_iff, Option.some.injEq,
    ← written]
  constructor
  · rintro ⟨written, _, rfl, _, ⟨rfl, positive⟩, _, below, ok⟩
    exact ⟨positive, below, written, ok⟩
  rintro ⟨positive, below, written, ok⟩
  exact ⟨written, face, rfl, position, ⟨rfl, positive⟩, ⟨⟩, below, ok⟩

/-- Half-open ranges have a unit in common if each begins before the other ends. -/
theorem apart_iff {lower upper lower' upper' : ℤ} (nonempty : lower < upper)
    (nonempty' : lower' < upper') :
    (∀ unit, lower ≤ unit → unit < upper → ¬(lower' ≤ unit ∧ unit < upper')) ↔
      ¬(lower' < upper ∧ lower < upper') := by
  constructor
  · intro apart _
    exact apart (max lower lower') (by omega) (by omega) (by omega)
  · omega

theorem placeInRack_ok_iff_fits {position : ℤ} {face : Face}
    (elsewhere : ∀ other ∈ occupancies, other.rackId = rack.id → other.resourceId ≠ device.id) :
    (∃ written, placeInRack occupancies device rack (some position) (some face) = .ok written) ↔
      Fits occupancies device.height rack position face ∧ position + device.height ≤ int4Max := by
  have units : ∀ other : Occupancy, (∀ unit, position ≤ unit → unit < position + device.height →
        ¬(other.lower ≤ unit ∧ unit < other.upper)) ↔
      ¬(other.lower < position + device.height ∧ position < other.upper) := fun other =>
    apart_iff (Int.lt_add_of_pos_right position device.height_pos) other.nonempty
  rw [placeInRack_ok_iff, Fits]
  simp only [units]
  constructor
  · rintro ⟨above, below, encodes, apart⟩
    exact ⟨⟨above, below, fun other mem here => apart other mem (elsewhere other mem here) here⟩,
      encodes⟩
  rintro ⟨⟨above, below, apart⟩, encodes⟩
  exact ⟨above, below, encodes, fun other mem _ => apart other mem⟩

/-- **The picker offers what the writer accepts.**  A unit is offered if the device fits there.
For a device from elsewhere the writer agrees with the picker exactly where a device that fits
ends before the last integer. -/
theorem freePositions_spec (occupancies : List Occupancy) (device : Device) (rack : Rack)
    (position : ℤ) (face : Face) :
    (position ∈ (Elevation.build occupancies rack).freePositions device.height face ↔
      Fits occupancies device.height rack position face) ∧
    ((∀ other ∈ occupancies, other.rackId = rack.id → other.resourceId ≠ device.id) →
      ((position ∈ (Elevation.build occupancies rack).freePositions device.height face ↔
          ∃ written, placeInRack occupancies device rack (some position) (some face) =
            .ok written) ↔
        (Fits occupancies device.height rack position face →
          position + device.height ≤ int4Max))) := by
  have offered := Elevation.mem_freePositions occupancies rack position face device.height_pos
  refine ⟨offered, fun elsewhere => ?_⟩
  rw [offered, placeInRack_ok_iff_fits elsewhere]
  exact iff_self_and

/-- The device fills the rack; the range behind which it ends cannot be encoded. -/
theorem freePositions_tallest : ∃ (rack : Rack) (device : Device),
    1 ∈ (Elevation.build [] rack).freePositions device.height .full ∧
      placeInRack [] device rack (some 1) (some .full) = .error .encode := by
  refine ⟨⟨7, int4Max, Int.le_refl _⟩, { id := 2, catalog := some int4Max, positive := ?_ }, ?_, ?_⟩
  · simp [int4Max]
  · exact (Elevation.mem_freePositions [] _ 1 .full (Device.height_pos _)).2
      ⟨by decide, by decide, by simp⟩
  · rfl

end Renga.DCIM
