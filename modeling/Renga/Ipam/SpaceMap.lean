import Mathlib.Data.Set.Card
import Renga.Ipam.PrefixTree

/-!
# The child-space map of a container

`PrefixTree.space_map`.  A container is drawn as at most 256 cells, blocks at the planning level
or coarser ones, and its space is counted in blocks at the planning level.
-/

namespace Renga.IPAM.PrefixTree

open List

structure PlanLevel where
  family : Family
  prefixLength : ℕ
  name : String
  fits : prefixLength ≤ family.bits

/-- A node of a prefix tree: a prefix, and the prefixes of its children. -/
structure Container where
  cidr : Inet
  children : List Inet
  inside : ∀ child ∈ children, strictlyContains? cidr child = true

/-- `Enum.frequencies`: each length with the number of its occurrences. -/
def frequencies (lengths : List ℕ) : List (ℕ × ℕ) :=
  lengths.dedup.map fun length => (length, lengths.count length)

def guessedLevel (node : Container) : ℕ :=
  match node.children with
  | [] => min (node.cidr.length + 8) node.cidr.family.bits
  | children =>
    match (frequencies (children.map Inet.length)).argmax fun f => toLex (f.2, f.1) with
    | some (length, _) => length
    | none => node.cidr.length

/-- The planning level of a container, with the name of a planned level. -/
def planningLevel (node : Container) (plan : List PlanLevel) : ℕ × Option String :=
  match (plan.filter fun level => level.family = node.cidr.family &&
      node.cidr.length < level.prefixLength).argmin PlanLevel.prefixLength with
  | none => (guessedLevel node, none)
  | some level => (level.prefixLength, some level.name)

inductive CellState where
  | allocated
  | partlyAllocated
  | free
deriving DecidableEq

structure Cell where
  cidr : Inet
  state : CellState
  child : Option Inet
  count : ℕ

def cell (cidr : Inet) (children : List Inet) : Cell :=
  match children.find? (Inet.contains? · cidr) with
  | some covering => ⟨cidr, .allocated, some covering, 0⟩
  | none =>
    let inside := children.filter cidr.contains?
    ⟨cidr, if inside ≠ [] then .partlyAllocated else .free, inside.head?, inside.length⟩

theorem le_add_one_shiftLeft {n k : ℕ} : n ≤ n + 1 <<< k - 1 := by
  have : 0 < 1 <<< k := Nat.one_shiftLeft k ▸ Nat.two_pow_pos k
  omega

def blockRange (level bits : ℕ) (child : Inet) : Gap.Interval where
  first := child.networkAt (min child.length level) >>> (bits - level)
  last := child.networkAt (min child.length level) >>> (bits - level) +
    1 <<< (level - child.length) - 1
  le := le_add_one_shiftLeft

def allocatedBlocks (children : List Inet) (level bits : ℕ) : ℤ :=
  (Gap.sweep ((children.map (blockRange level bits)).insertionSort Gap.Interval.Before)).1

structure SpaceMap where
  allocated : ℤ
  total : ℕ
  level : ℕ
  levelName : Option String
  cellLength : ℕ
  cells : List Cell

def cellLength (node : Container) (level : ℕ) : ℕ := min level (node.cidr.length + 8)

def cellCidr (cidr : Inet) (cellLength : ℕ) (fits : cellLength ≤ cidr.family.bits) (index : ℕ) :
    Inet :=
  .fromInteger (cidr.networkAt cidr.length + index * 1 <<< (cidr.family.bits - cellLength))
    cidr.family cellLength fits

section Level

variable {node : Container} {child : Inet}

theorem Container.child_family (mem : child ∈ node.children) : child.family = node.cidr.family := by
  have inside := node.inside child mem
  rw [strictlyContains?, Bool.and_eq_true, Inet.contains?_iff_div] at inside
  exact inside.2.1.symm

theorem Container.length_lt (mem : child ∈ node.children) : node.cidr.length < child.length := by
  have inside := node.inside child mem
  rw [strictlyContains?, Bool.and_eq_true, decide_eq_true_eq] at inside
  exact inside.1

theorem Container.addresses_subset (mem : child ∈ node.children) :
    child.addresses ⊆ node.cidr.addresses := by
  have inside := node.inside child mem
  rw [strictlyContains?, Bool.and_eq_true] at inside
  exact (Inet.contains?_iff (Container.child_family mem).symm).1 inside.2

theorem guessedLevel_bounds :
    node.cidr.length ≤ guessedLevel node ∧ guessedLevel node ≤ node.cidr.family.bits := by
  have le := node.cidr.length_le
  unfold guessedLevel
  cases children : node.children with
  | nil =>
    simp only
    omega
  | cons first rest =>
    simp only
    cases most : (frequencies ((first :: rest).map Inet.length)).argmax
        fun f => toLex (f.2, f.1) with
    | none => exact ⟨le_rfl, le⟩
    | some =>
      obtain ⟨_, known, rfl⟩ := mem_map.1 (argmax_mem most)
      obtain ⟨child, mem, rfl⟩ := mem_map.1 (mem_dedup.1 known)
      rw [← children] at mem
      exact ⟨(Container.length_lt mem).le, Container.child_family mem ▸ child.length_le⟩

theorem planningLevel_bounds (node : Container) (plan : List PlanLevel) :
    node.cidr.length ≤ (planningLevel node plan).1 ∧
      (planningLevel node plan).1 ≤ node.cidr.family.bits := by
  unfold planningLevel
  split
  · exact guessedLevel_bounds
  rename_i level least
  have mem := mem_filter.1 (argmin_mem least)
  simp only [Bool.and_eq_true, decide_eq_true_eq] at mem
  exact ⟨mem.2.2.le, mem.2.1 ▸ level.fits⟩

theorem cellLength_le (node : Container) (plan : List PlanLevel) :
    cellLength node (planningLevel node plan).1 ≤ node.cidr.family.bits :=
  (min_le_left _ _).trans (planningLevel_bounds node plan).2

end Level

def spaceMap (node : Container) (plan : List PlanLevel) : SpaceMap :=
  let level := planningLevel node plan
  let cells := (range (1 <<< (cellLength node level.1 - node.cidr.length))).map fun index =>
    cell (cellCidr node.cidr (cellLength node level.1) (cellLength_le node plan) index)
      node.children
  { allocated := allocatedBlocks node.children level.1 node.cidr.family.bits
    total := 1 <<< (level.1 - node.cidr.length)
    level := level.1, levelName := level.2
    cellLength := cellLength node level.1
    cells }

/-! ### Blocks as quotients -/

variable {a b : ℕ}

theorem mem_block_iff {s : ℕ} (pos : 0 < s) : a ∈ Gap.block (b * s) s ↔ a / s = b :=
  Inet.mem_aligned_iff pos

variable {i : Inet} {level : ℕ}

theorem size_eq_mul (le : i.length ≤ level) (fits : level ≤ i.family.bits) :
    i.size = 2 ^ (i.family.bits - level) * 2 ^ (level - i.length) := by
  rw [Inet.size_eq, ← pow_add]
  congr 1
  omega

theorem block_number_div {q m index : ℕ} (lt : index < m) : (q * m + index) / m = q := by
  rw [mul_comm, Nat.mul_add_div (by omega), Nat.div_eq_of_lt lt, add_zero]

theorem mem_addresses_iff_block (le : i.length ≤ level) (fits : level ≤ i.family.bits) :
    a ∈ i.addresses ↔ a / 2 ^ (i.family.bits - level) / 2 ^ (level - i.length) =
      i.address / i.size := by
  rw [Inet.mem_addresses_iff, Nat.div_div_eq_div_mul, ← size_eq_mul le fits]

theorem mem_blockRange_iff {child : Inet} (fits : level ≤ child.family.bits) :
    b ∈ (blockRange level child.family.bits child).elements ↔
      ¬ Disjoint (Gap.block (b * 2 ^ (child.family.bits - level)) (2 ^ (child.family.bits - level)))
        child.addresses := by
  have pos : 0 < 2 ^ (child.family.bits - level) := Nat.two_pow_pos _
  rw [Set.not_disjoint_iff]
  simp only [mem_block_iff pos, Gap.Interval.elements, Set.mem_Icc, blockRange, Inet.networkAt_eq,
    Nat.one_shiftLeft, Nat.shiftRight_eq_div_pow]
  rcases le_or_gt level child.length with longer | shorter
  · have size : 2 ^ (child.family.bits - level) = child.size * 2 ^ (child.length - level) := by
      have := child.length_le
      rw [Inet.size_eq, ← pow_add]
      congr 1
      omega
    have whole : ∀ a, a / child.size = child.address / child.size →
        a / 2 ^ (child.family.bits - level) = child.address / 2 ^ (child.family.bits - level) := by
      intro a agree
      rw [size, ← Nat.div_div_eq_div_mul, agree, Nat.div_div_eq_div_mul]
    rw [min_eq_right longer, Nat.sub_eq_zero_of_le longer, Nat.mul_div_cancel _ pos]
    constructor
    · rintro ⟨le, ge⟩
      exact ⟨child.address, le_antisymm le ge, Inet.address_mem⟩
    rintro ⟨a, rfl, mem⟩
    rw [whole a (Inet.mem_addresses_iff.1 mem)]
    exact ⟨le_rfl, le_rfl⟩
  have size := size_eq_mul shorter.le fits
  rw [min_eq_left shorter.le, ← Inet.size_eq]
  have first : child.address / child.size * child.size / 2 ^ (child.family.bits - level) =
      child.address / child.size * 2 ^ (level - child.length) := by
    rw [size, mul_comm (2 ^ (child.family.bits - level)), ← mul_assoc, Nat.mul_div_cancel _ pos]
  rw [first, Inet.mem_aligned_iff (Nat.two_pow_pos _)]
  constructor
  · intro agree
    refine ⟨b * 2 ^ (child.family.bits - level), Nat.mul_div_cancel _ pos, ?_⟩
    rw [mem_addresses_iff_block shorter.le fits, Nat.mul_div_cancel _ pos, agree]
  rintro ⟨_, rfl, mem⟩
  exact (mem_addresses_iff_block shorter.le fits).1 mem

/-! ### The cells -/

section Cells

variable {node : Container} {plan : List PlanLevel} {cidr : Inet} {cellLength level index : ℕ}

theorem mem_cellCidr_iff (le : cidr.length ≤ cellLength) (fits : cellLength ≤ cidr.family.bits)
    (lt : index < 2 ^ (cellLength - cidr.length)) :
    a ∈ (cellCidr cidr cellLength fits index).addresses ↔ a / 2 ^ (cidr.family.bits - cellLength) =
        cidr.address / cidr.size * 2 ^ (cellLength - cidr.length) + index := by
  have pos : 0 < 2 ^ (cidr.family.bits - cellLength) := Nat.two_pow_pos _
  have network : cidr.networkAt cidr.length + index * 1 <<< (cidr.family.bits - cellLength) =
      (cidr.address / cidr.size * 2 ^ (cellLength - cidr.length) + index) *
        2 ^ (cidr.family.bits - cellLength) := by
    rw [Inet.networkAt_eq, ← Inet.size_eq, Nat.one_shiftLeft, size_eq_mul le fits]
    ring
  have inside : (cidr.address / cidr.size * 2 ^ (cellLength - cidr.length) + index) *
      2 ^ (cidr.family.bits - cellLength) ∈ cidr.addresses := by
    rw [mem_addresses_iff_block le fits, Nat.mul_div_cancel _ pos, block_number_div lt]
  have size : (cellCidr cidr cellLength fits index).size =
      2 ^ (cidr.family.bits - cellLength) := Inet.size_eq _
  have address : (cellCidr cidr cellLength fits index).address = _ :=
    (congrArg (· % 2 ^ cidr.family.bits) network).trans
      (Nat.mod_eq_of_lt (Inet.lt_of_mem_addresses inside))
  rw [Inet.mem_addresses_iff, size, address, Nat.mul_div_cancel _ pos]

/-- **The cells of a container tile it**, in ascending order. -/
theorem cells_tile (le : cidr.length ≤ cellLength) (fits : cellLength ≤ cidr.family.bits) :
    (((range (2 ^ (cellLength - cidr.length))).map (cellCidr cidr cellLength fits)).Pairwise
      fun p q => p.range.last < q.range.first) ∧
    ∀ a, a ∈ cidr.addresses ↔ ∃ index < 2 ^ (cellLength - cidr.length),
      a ∈ (cellCidr cidr cellLength fits index).addresses := by
  have pos : 0 < 2 ^ (cellLength - cidr.length) := Nat.two_pow_pos _
  constructor
  · rw [pairwise_map]
    refine pairwise_lt_range.imp_of_mem fun {i j} memI memJ lt => ?_
    have last := (mem_cellCidr_iff le fits (mem_range.1 memI)).1
      (Set.right_mem_Icc.2 (cellCidr cidr cellLength fits i).range.le)
    have first := (mem_cellCidr_iff le fits (mem_range.1 memJ)).1
      (Set.left_mem_Icc.2 (cellCidr cidr cellLength fits j).range.le)
    refine Nat.lt_of_div_lt_div (c := 2 ^ (cidr.family.bits - cellLength)) ?_
    omega
  intro a
  rw [mem_addresses_iff_block le fits]
  constructor
  · intro agree
    refine ⟨a / 2 ^ (cidr.family.bits - cellLength) % 2 ^ (cellLength - cidr.length),
      Nat.mod_lt _ pos, ?_⟩
    rw [mem_cellCidr_iff le fits (Nat.mod_lt _ pos), ← agree, mul_comm, Nat.div_add_mod]
  rintro ⟨_, lt, mem⟩
  rw [(mem_cellCidr_iff le fits lt).1 mem, block_number_div lt]

variable {children : List Inet}

theorem cell_state (families : ∀ child ∈ children, child.family = cidr.family) :
    ((cell cidr children).state = .allocated ↔
      ∃ child ∈ children, cidr.addresses ⊆ child.addresses) ∧
    ((cell cidr children).state = .partlyAllocated ↔
      (¬ ∃ child ∈ children, cidr.addresses ⊆ child.addresses) ∧
        ∃ child ∈ children, child.addresses ⊆ cidr.addresses) ∧
    ((cell cidr children).state = .free ↔ (¬ ∃ child ∈ children, cidr.addresses ⊆ child.addresses) ∧
        ¬ ∃ child ∈ children, child.addresses ⊆ cidr.addresses) := by
  have covers : (∃ child ∈ children, cidr.addresses ⊆ child.addresses) ↔
      ∃ child ∈ children, child.contains? cidr = true :=
    exists_congr fun child => and_congr_right fun mem =>
      (Inet.contains?_iff (families child mem)).symm
  have lies : (∃ child ∈ children, child.addresses ⊆ cidr.addresses) ↔
      children.filter cidr.contains? ≠ [] := by
    rw [ne_eq, filter_eq_nil_iff, not_forall]
    refine exists_congr fun child => ?_
    rw [Classical.not_imp, not_not]
    exact and_congr_right fun mem => (Inet.contains?_iff (families child mem).symm).symm
  rw [covers, lies, cell]
  cases found : children.find? (Inet.contains? · cidr) with
  | some covering =>
    have yes : ∃ child ∈ children, child.contains? cidr = true :=
      ⟨covering, mem_of_find?_eq_some found, find?_some (p := (Inet.contains? · cidr)) found⟩
    simp [yes]
  | none =>
    have no : ¬ ∃ child ∈ children, child.contains? cidr = true := by
      rintro ⟨child, mem, contains⟩
      exact find?_eq_none.1 found child mem contains
    by_cases inside : children.filter cidr.contains? = [] <;> simp [no, inside]

theorem state_ne_free_iff (families : ∀ child ∈ children, child.family = cidr.family) :
    (cell cidr children).state ≠ .free ↔
      ∃ child ∈ children, ¬ Disjoint cidr.addresses child.addresses := by
  rw [ne_eq, (cell_state families).2.2, ← not_or, not_not, ← exists_or]
  refine exists_congr fun child => ?_
  rw [← and_or_left]
  refine and_congr_right fun mem => ?_
  have family := families child mem
  constructor
  · rintro (sub | sub) apart
    · exact Set.disjoint_left.1 apart Inet.address_mem (sub Inet.address_mem)
    · exact Set.disjoint_left.1 apart (sub Inet.address_mem) Inet.address_mem
  intro meets
  rcases le_total cidr.length child.length with le | le
  · refine Or.inr ((Inet.contains?_iff family.symm).1 ?_)
    exact (Inet.contains?_or_disjoint family.symm le).resolve_right meets
  refine Or.inl ((Inet.contains?_iff family).1 ?_)
  exact (Inet.contains?_or_disjoint family le).resolve_right fun apart => meets apart.symm

end Cells

/-! ### The count of blocks -/

def blocks (cidr : Inet) (level : ℕ) : Set ℕ :=
  {b | Gap.block (b * 2 ^ (cidr.family.bits - level)) (2 ^ (cidr.family.bits - level)) ⊆
    cidr.addresses}

def usedBlocks (node : Container) (level : ℕ) : Set ℕ :=
  {b ∈ blocks node.cidr level | ∃ child ∈ node.children,
    ¬ Disjoint (Gap.block (b * 2 ^ (node.cidr.family.bits - level))
      (2 ^ (node.cidr.family.bits - level))) child.addresses}

section Count

variable {node : Container} {level b : ℕ}

theorem mem_blocks_iff {cidr : Inet} (le : cidr.length ≤ level) (fits : level ≤ cidr.family.bits) :
    b ∈ blocks cidr level ↔ b / 2 ^ (level - cidr.length) = cidr.address / cidr.size := by
  have pos : 0 < 2 ^ (cidr.family.bits - level) := Nat.two_pow_pos _
  constructor
  · intro sub
    have mem := sub ((mem_block_iff pos).2 (Nat.mul_div_cancel b pos))
    rwa [mem_addresses_iff_block le fits, Nat.mul_div_cancel _ pos] at mem
  intro agree _ mem
  rw [mem_addresses_iff_block le fits, (mem_block_iff pos).1 mem, agree]

theorem ncard_blocks {cidr : Inet} (le : cidr.length ≤ level) (fits : level ≤ cidr.family.bits) :
    (blocks cidr level).ncard = 1 <<< (level - cidr.length) := by
  have pos : 0 < 2 ^ (level - cidr.length) := Nat.two_pow_pos _
  have interval : blocks cidr level =
      Finset.Icc (cidr.address / cidr.size * 2 ^ (level - cidr.length))
        (cidr.address / cidr.size * 2 ^ (level - cidr.length) + 2 ^ (level - cidr.length) - 1) := by
    ext b
    rw [mem_blocks_iff le fits, Finset.coe_Icc, Set.mem_Icc, Inet.mem_aligned_iff pos]
  rw [interval, Set.ncard_coe_finset, Nat.card_Icc, Nat.one_shiftLeft]
  omega

variable (le : node.cidr.length ≤ level) (fits : level ≤ node.cidr.family.bits)

include le fits in
theorem mem_usedBlocks_iff : b ∈ usedBlocks node level ↔ ∃ child ∈ node.children,
      b ∈ (blockRange level node.cidr.family.bits child).elements := by
  have pos : 0 < 2 ^ (node.cidr.family.bits - level) := Nat.two_pow_pos _
  have meets : ∀ child ∈ node.children,
      (b ∈ (blockRange level node.cidr.family.bits child).elements ↔
        ¬ Disjoint (Gap.block (b * 2 ^ (node.cidr.family.bits - level))
          (2 ^ (node.cidr.family.bits - level))) child.addresses) := by
    intro child mem
    rw [← Container.child_family mem] at fits ⊢
    exact mem_blockRange_iff fits
  constructor
  · rintro ⟨-, child, mem, meet⟩
    exact ⟨child, mem, (meets child mem).2 meet⟩
  rintro ⟨child, mem, inRange⟩
  have meet := (meets child mem).1 inRange
  refine ⟨?_, child, mem, meet⟩
  obtain ⟨a, inBlock, inChild⟩ := Set.not_disjoint_iff.1 meet
  have inside := Container.addresses_subset mem inChild
  rw [mem_addresses_iff_block le fits, (mem_block_iff pos).1 inBlock] at inside
  exact (mem_blocks_iff le fits).2 inside

include le fits in
/-- **The sweep counts the blocks that meet a child**, each once. -/
theorem allocatedBlocks_eq :
    allocatedBlocks node.children level node.cidr.family.bits = (usedBlocks node level).ncard := by
  have sorted : ((node.children.map (blockRange level node.cidr.family.bits)).insertionSort
      Gap.Interval.Before).Pairwise fun o p => o.first ≤ p.first :=
    (pairwise_insertionSort _ _).imp Gap.Interval.Before.first_le
  have covered : usedBlocks node level = Gap.cover ((node.children.map
      (blockRange level node.cidr.family.bits)).insertionSort Gap.Interval.Before) := by
    ext b
    rw [mem_usedBlocks_iff le fits, Finset.mem_coe, Gap.mem_cover]
    simp only [mem_insertionSort, mem_map, exists_exists_and_eq_and]
  rw [allocatedBlocks, Gap.sweep_count sorted, covered, Set.ncard_coe_finset]

include le fits in
theorem length_used_cells : (((range (2 ^ (level - node.cidr.length))).map fun index =>
      cell (cellCidr node.cidr level fits index) node.children).filter
        (·.state ≠ .free)).length = (usedBlocks node level).ncard := by
  have pos : 0 < 2 ^ (node.cidr.family.bits - level) := Nat.two_pow_pos _
  let number := fun index =>
    node.cidr.address / node.cidr.size * 2 ^ (level - node.cidr.length) + index
  have inUse : ∀ index < 2 ^ (level - node.cidr.length),
      ((cell (cellCidr node.cidr level fits index) node.children).state ≠ .free ↔
        number index ∈ usedBlocks node level) := by
    intro index lt
    have same : (cellCidr node.cidr level fits index).addresses =
        Gap.block (number index * 2 ^ (node.cidr.family.bits - level))
          (2 ^ (node.cidr.family.bits - level)) :=
      Set.ext fun _ => (mem_cellCidr_iff le fits lt).trans (mem_block_iff pos).symm
    have inside : number index ∈ blocks node.cidr level := (mem_blocks_iff le fits).2
      (block_number_div lt)
    have families : ∀ child ∈ node.children,
        child.family = (cellCidr node.cidr level fits index).family :=
      fun _ mem => Container.child_family mem
    rw [state_ne_free_iff families, same]
    exact ⟨fun meets => ⟨inside, meets⟩, fun used => used.2⟩
  have numbers : usedBlocks node level = (((range (2 ^ (level - node.cidr.length))).filter
      fun index => (cell (cellCidr node.cidr level fits index) node.children).state ≠ .free).map
        number).toFinset := by
    ext b
    simp only [Finset.mem_coe, mem_toFinset, mem_map, mem_filter, mem_range,
      decide_eq_true_eq]
    constructor
    · intro used
      have agree := (mem_blocks_iff le fits).1 used.1
      have split : number (b % 2 ^ (level - node.cidr.length)) = b := by
        simp only [number]
        rw [← agree, mul_comm, Nat.div_add_mod]
      have lt := Nat.mod_lt b (Nat.two_pow_pos (level - node.cidr.length))
      exact ⟨_, ⟨lt, (inUse _ lt).2 (split.symm ▸ used)⟩, split⟩
    rintro ⟨index, ⟨lt, state⟩, rfl⟩
    exact (inUse index lt).1 state
  have nodup : (((range (2 ^ (level - node.cidr.length))).filter fun index =>
      (cell (cellCidr node.cidr level fits index) node.children).state ≠ .free).map number).Nodup :=
    (nodup_range.filter _).map fun _ _ same => Nat.add_left_cancel same
  rw [numbers, Set.ncard_coe_finset, toFinset_card_of_nodup nodup, filter_map,
    length_map, length_map]
  rfl

end Count

/-- **The space map of a container.**  Its cells, at most 256, tile the container in ascending
order, and their states say how the children lie; `total` and `allocated` count the blocks at
the planning level, all of them and those that meet a child. -/
theorem spaceMap_spec (node : Container) (plan : List PlanLevel) :
    (spaceMap node plan).cells.length ≤ 256 ∧
    ((spaceMap node plan).cells.Pairwise fun p q => p.cidr.range.last < q.cidr.range.first) ∧
    (∀ a, a ∈ node.cidr.addresses ↔ ∃ c ∈ (spaceMap node plan).cells, a ∈ c.cidr.addresses) ∧
    (∀ c ∈ (spaceMap node plan).cells,
      (c.state = .allocated ↔ ∃ child ∈ node.children, c.cidr.addresses ⊆ child.addresses) ∧
      (c.state = .partlyAllocated ↔
        (¬ ∃ child ∈ node.children, c.cidr.addresses ⊆ child.addresses) ∧
          ∃ child ∈ node.children, child.addresses ⊆ c.cidr.addresses) ∧
      (c.state = .free ↔ (¬ ∃ child ∈ node.children, c.cidr.addresses ⊆ child.addresses) ∧
        ¬ ∃ child ∈ node.children, child.addresses ⊆ c.cidr.addresses)) ∧
    (spaceMap node plan).total = (blocks node.cidr (spaceMap node plan).level).ncard ∧
    (spaceMap node plan).allocated = (usedBlocks node (spaceMap node plan).level).ncard ∧
    ((spaceMap node plan).cellLength = (spaceMap node plan).level → (spaceMap node plan).allocated =
        ((spaceMap node plan).cells.filter (·.state ≠ .free)).length) := by
  obtain ⟨le, fits⟩ := planningLevel_bounds node plan
  have cellFits := cellLength_le node plan
  have cellLe : node.cidr.length ≤ cellLength node (planningLevel node plan).1 :=
    le_min le (Nat.le_add_right _ _)
  obtain ⟨ascending, covers⟩ := cells_tile cellLe cellFits
  have isCell : ∀ c, c ∈ (spaceMap node plan).cells ↔
      ∃ index < 2 ^ (cellLength node (planningLevel node plan).1 - node.cidr.length),
        cell (cellCidr node.cidr _ cellFits index) node.children = c := by
    intro c
    simp only [spaceMap, mem_map, mem_range, Nat.one_shiftLeft]
  have cidrOf : ∀ cidr, (cell cidr node.children).cidr = cidr := by
    intro _
    unfold cell
    split <;> rfl
  refine ⟨?_, ?_, ?_, ?_, (ncard_blocks le fits).symm, allocatedBlocks_eq le fits, ?_⟩
  · simp only [spaceMap, length_map, length_range, Nat.one_shiftLeft]
    have few : cellLength node (planningLevel node plan).1 - node.cidr.length ≤ 8 := by
      unfold cellLength
      omega
    exact Nat.pow_le_pow_right (n := 2) (by decide) few
  · simp only [spaceMap, pairwise_map, cidrOf, Nat.one_shiftLeft]
    exact pairwise_map.1 ascending
  · intro _
    rw [covers]
    constructor
    · rintro ⟨index, lt, mem⟩
      exact ⟨_, (isCell _).2 ⟨index, lt, rfl⟩, (cidrOf _).symm ▸ mem⟩
    rintro ⟨c, mem, inside⟩
    obtain ⟨index, lt, rfl⟩ := (isCell c).1 mem
    rw [cidrOf] at inside
    exact ⟨index, lt, inside⟩
  · intro c mem
    obtain ⟨_, -, rfl⟩ := (isCell c).1 mem
    rw [cidrOf]
    exact cell_state fun _ mem => Container.child_family mem
  intro same
  have level : cellLength node (planningLevel node plan).1 = (planningLevel node plan).1 := same
  simp only [spaceMap, level, Nat.one_shiftLeft]
  rw [length_used_cells le fits]
  exact allocatedBlocks_eq le fits

/-- A container of 256 addresses with one child, planned in blocks of 64. -/
example : (spaceMap
    { cidr := .fromInteger 256 .ipv4 24 (by decide)
      children := [.fromInteger 320 .ipv4 26 (by decide)], inside := by decide }
    [⟨.ipv4, 26, "rack", by decide⟩]).cells.map (·.state) = [.free, .allocated, .free, .free] := by
  decide

end Renga.IPAM.PrefixTree
