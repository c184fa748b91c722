import Renga.Ipam.Cidr

/-!
# Next free

`Renga.IPAM.Allocator`: the first block of a length, or the first host, inside a parent prefix
that no known occupant touches.  The walk is `Gap.scan`; what is particular here is where a
candidate may stand.
-/

namespace Renga.IPAM.Allocator

open List Option

open Gap (Interval)

def iidMask : ℕ := 1 <<< 64 - 1

def anycastFirst : ℕ := 0xFDFFFFFFFFFFFF80

def anycastLast : ℕ := 0xFDFFFFFFFFFFFFFF

def alignUp (offset size : ℕ) : ℕ := (offset + size - 1) / size * size

/-- Moves an IPv6 host candidate behind the anycast identifiers of its /64. -/
def skipAnycast (candidate : ℕ) : Option Family → ℕ
  | some .ipv6 =>
    if anycastFirst ≤ candidate &&& iidMask ∧ candidate &&& iidMask ≤ anycastLast then
      candidate - (candidate &&& iidMask) + anycastLast + 1
    else candidate
  | _ => candidate

/-- Where a candidate goes that met an occupant which ends at `stop`. -/
def nextCandidate (first blockSize : ℕ) (hostFamily : Option Family) (stop : ℕ) : ℕ :=
  skipAnycast (alignUp (stop + 1 - first) blockSize + first) hostFamily

def within (parent : Interval) (occupants : List Interval) : List Interval :=
  (occupants.filter fun o => parent.first ≤ o.last && o.first ≤ parent.last).insertionSort
    Interval.Before

def firstGap (parent : Interval) (blockSize : ℕ) (occupants : List Interval)
    (hostFamily : Option Family) : Option ℕ :=
  let candidate := Gap.scan parent.last blockSize (nextCandidate parent.first blockSize hostFamily)
    (skipAnycast parent.first hostFamily) (within parent occupants)
  if parent.last < candidate + blockSize - 1 then none else some candidate

/-- The first block of `length` inside `parent` that overlaps no occupant, or `none`. -/
def nextBlock (parent : Inet) (length : ℕ) (fits : length ≤ parent.family.bits)
    (occupants : List Interval) : Option Inet :=
  (firstGap parent.range (1 <<< (parent.family.bits - length)) occupants none).map fun first =>
    Inet.fromInteger first parent.family length fits

/-- The anycast identifiers of the parent's first /64, clipped to the parent. -/
def reserved (parent : Interval) : List Interval :=
  let subnet := parent.first - (parent.first &&& iidMask)
  if le : max parent.first (subnet + anycastFirst) ≤ min parent.last (subnet + anycastLast) then
    [⟨max parent.first (subnet + anycastFirst), min parent.last (subnet + anycastLast), le⟩]
  else []

/-- The fixed non-assignable intervals in the parent's first /64. -/
def nonAssignable (parent : Inet) : List Interval :=
  let first : Interval := ⟨parent.range.first, parent.range.first, le_rfl⟩
  let last : Interval := ⟨parent.range.last, parent.range.last, le_rfl⟩
  match parent.family with
  | .ipv4 => if parent.length ≤ 30 then [first, last] else []
  | .ipv6 => (if parent.length ≤ 126 then [first] else []) ++ reserved parent.range

/-- The first assignable host inside `parent` that no occupant holds, or `none`. -/
def nextHost (parent : Inet) (occupants : List Interval) : Option Inet :=
  (firstGap parent.range 1 (nonAssignable parent ++ occupants) (some parent.family)).map fun host =>
    Inet.fromInteger host parent.family parent.length parent.length_le

/-! ### The walk -/

variable {o : Interval} {occupants : List Interval}

section FirstGap

variable {parent : Interval} {size : ℕ} {hostFamily : Option Family} {Open : ℕ → Prop}

theorem mem_within_iff : o ∈ within parent occupants ↔
    o ∈ occupants ∧ parent.first ≤ o.last ∧ o.first ≤ parent.last := by
  rw [within, mem_insertionSort, mem_filter, Bool.and_eq_true, decide_eq_true_eq,
    decide_eq_true_eq]

variable (parent) in
theorem pairwise_within (occupants : List Interval) :
    (within parent occupants).Pairwise fun o p => o.first ≤ p.first :=
  (pairwise_insertionSort _ _).imp Interval.Before.first_le

theorem free_within (pos : 0 < size) (inside : ∀ b, Open b → parent.first ≤ b)
    (occupants : List Interval) :
    Gap.free Open parent.last size (within parent occupants) =
      Gap.free Open parent.last size occupants := by
  ext b
  refine and_congr_right fun isOpen => and_congr_right fun _ => ?_
  have from_first := inside b isOpen
  constructor
  · intro apart o mem
    by_cases touches : parent.first ≤ o.last ∧ o.first ≤ parent.last
    · exact apart o (mem_within_iff.2 ⟨mem, touches⟩)
    · exact (Gap.disjoint_block_iff pos o).2 (by omega)
  · exact fun apart o mem => apart o (mem_within_iff.1 mem).1

variable (parent) in
/-- **The walk returns the least free place**, and `none` only where no place is free. -/
theorem firstGap_spec (pos : 0 < size) (inside : ∀ b, Open b → parent.first ≤ b)
    (starts : IsLeast {b | Open b} (skipAnycast parent.first hostFamily))
    (moves : ∀ stop, parent.first ≤ stop →
      IsLeast {b | Open b ∧ stop < b} (nextCandidate parent.first size hostFamily stop))
    (occupants : List Interval) :
    (∀ b, firstGap parent size occupants hostFamily = some b ↔
      IsLeast (Gap.free Open parent.last size occupants) b) ∧
    (firstGap parent size occupants hostFamily = none ↔
      Gap.free Open parent.last size occupants = ∅) := by
  have sorted := pairwise_within parent occupants
  have moves' : ∀ o ∈ within parent occupants, IsLeast {b | Open b ∧ o.last < b}
      (nextCandidate parent.first size hostFamily o.last) :=
    fun o mem => moves o.last (mem_within_iff.1 mem).2.1
  rw [← free_within pos inside occupants, firstGap]
  by_cases beyond : parent.last < Gap.scan parent.last size
      (nextCandidate parent.first size hostFamily) (skipAnycast parent.first hostFamily)
      (within parent occupants) + size - 1
  · have empty := Gap.scan_none pos sorted moves' starts beyond
    simp only [if_pos beyond, empty, reduceCtorEq, false_iff, and_true]
    exact fun b least => least.1
  have least := Gap.scan_isLeast pos sorted moves' starts (not_lt.1 beyond)
  simp only [if_neg beyond, some.injEq, reduceCtorEq, false_iff]
  refine ⟨fun _ => ⟨fun eq => eq ▸ least, fun other => least.unique other⟩, fun empty => ?_⟩
  exact Set.notMem_empty _ (empty ▸ least.1)

end FirstGap

/-! ### Blocks -/

/-- Where a block may stand: at the multiples of its size from the parent's first address. -/
def Aligned (first size b : ℕ) : Prop := first ≤ b ∧ size ∣ b - first

variable {first size stop : ℕ}

theorem isLeast_nextCandidate (pos : 0 < size) (le : first ≤ stop) :
    IsLeast {b | Aligned first size b ∧ stop < b} (nextCandidate first size none stop) := by
  have up : nextCandidate first size none stop - first = (stop - first) / size * size + size := by
    rw [nextCandidate, show ∀ c, skipAnycast c none = c from fun _ => rfl, alignUp,
      Nat.add_sub_cancel, show stop + 1 - first + size - 1 = stop - first + size by omega,
      Nat.add_div_right _ pos, Nat.succ_mul]
  have le' : first ≤ nextCandidate first size none stop := Nat.le_add_left _ _
  have below := Nat.lt_div_mul_add (a := stop - first) pos
  refine ⟨⟨⟨le', up ▸ Nat.dvd_add (dvd_mul_left _ _) dvd_rfl⟩, by omega⟩, ?_⟩
  rintro _ ⟨⟨_, k, eq⟩, _⟩
  have more : (stop - first) / size < k :=
    (Nat.div_lt_iff_lt_mul pos).2 (by rw [mul_comm, ← eq]; omega)
  have := Nat.mul_le_mul_right size (Nat.succ_le_of_lt more)
  rw [Nat.succ_mul, mul_comm k, ← eq] at this
  omega

/-- A block of the requested length that lies in the parent and meets no occupant. -/
structure FreeBlock (parent : Inet) (length : ℕ) (occupants : List Interval) (block : Inet) :
    Prop where
  family : block.family = parent.family
  netmask : block.netmask = some length
  aligned : block.size ∣ block.address
  inside : block.addresses ⊆ parent.addresses
  free : ∀ o ∈ occupants, Disjoint block.addresses o.elements

variable {a : ℕ}

section NextBlock

variable {parent block : Inet} {length : ℕ} {occupants : List Interval}

theorem size_of_netmask (family : block.family = parent.family)
    (netmask : block.netmask = some length) : block.size = 2 ^ (parent.family.bits - length) := by
  rw [Inet.size_eq, Inet.length, netmask, family, getD_some]

theorem addresses_of_aligned (aligned : block.size ∣ block.address) :
    block.addresses = Gap.block block.address block.size := by
  rw [Inet.addresses, Interval.elements, Inet.range_last, Inet.range_first,
    Nat.div_mul_cancel aligned, Gap.block]

/-- A block that fits between the ends of the parent is aligned from zero where it is aligned
from the parent's first address. -/
theorem dvd_first_of_fits {b m : ℕ} (power : size = 2 ^ m) (from_first : parent.range.first ≤ b)
    (fits : b + size - 1 ≤ parent.range.last) : size ∣ parent.range.first := by
  refine Nat.dvd_trans ?_ parent.size_dvd_first
  have le : size ≤ parent.size := by
    rw [Inet.range_last] at fits
    have := parent.size_pos
    omega
  rw [power, Inet.size_eq] at le ⊢
  exact pow_dvd_pow 2 ((Nat.pow_le_pow_iff_right (by decide)).1 le)

theorem freeBlock_iff (family : block.family = parent.family)
    (netmask : block.netmask = some length) :
    FreeBlock parent length occupants block ↔
      block.address ∈ Gap.free (Aligned parent.range.first (1 <<< (parent.family.bits - length)))
        parent.range.last (1 <<< (parent.family.bits - length)) occupants := by
  have size := size_of_netmask family netmask
  rw [Nat.one_shiftLeft, ← size]
  have pos := block.size_pos
  constructor
  · intro block_free
    have addresses := addresses_of_aligned block_free.aligned
    have subset := block_free.inside
    rw [addresses] at subset
    obtain ⟨from_first, fits⟩ := (Set.Icc_subset_Icc_iff (by omega)).1 subset
    exact ⟨⟨from_first, Nat.dvd_sub block_free.aligned (dvd_first_of_fits size from_first fits)⟩,
      fits, fun o mem => addresses ▸ block_free.free o mem⟩
  rintro ⟨⟨from_first, aligned⟩, fits, apart⟩
  have aligned' : block.size ∣ block.address := by
    rw [← Nat.add_sub_of_le from_first]
    exact Nat.dvd_add (dvd_first_of_fits size from_first fits) aligned
  have addresses := addresses_of_aligned aligned'
  exact ⟨family, netmask, aligned', addresses ▸ Set.Icc_subset_Icc from_first fits,
    fun o mem => addresses ▸ apart o mem⟩

theorem fromInteger_address (mem : a ∈ parent.addresses) (fits : length ≤ parent.family.bits) :
    (Inet.fromInteger a parent.family length fits).address = a :=
  Nat.mod_eq_of_lt (Inet.lt_of_mem_addresses mem)

theorem mem_addresses_of_free {Open : ℕ → Prop} {b : ℕ} (pos : 0 < size)
    (inside : ∀ b, Open b → parent.range.first ≤ b)
    (free : b ∈ Gap.free Open parent.range.last size occupants) : b ∈ parent.addresses :=
  ⟨inside b free.1, le_trans (by omega) free.2.1⟩

theorem map_fromInteger_eq_some_iff {gap : Option ℕ} {places : Set ℕ}
    (fits : length ≤ parent.family.bits) (inside : places ⊆ parent.addresses)
    (least : ∀ b, gap = some b ↔ IsLeast places b) :
    gap.map (fun b => Inet.fromInteger b parent.family length fits) = some block ↔
      block.family = parent.family ∧ block.netmask = some length ∧
        IsLeast places block.address := by
  rw [map_eq_some_iff]
  constructor
  · rintro ⟨b, found, rfl⟩
    have isLeast := (least b).1 found
    exact ⟨rfl, rfl, (fromInteger_address (inside isLeast.1) fits).symm ▸ isLeast⟩
  rintro ⟨family, netmask, isLeast⟩
  refine ⟨block.address, (least _).2 isLeast, Inet.ext family.symm ?_ netmask.symm⟩
  exact fromInteger_address (inside isLeast.1) fits

/-- **The next block is the least free block**, and there is none exactly when no block of the
length is free. -/
theorem nextBlock_eq_some_iff (fits : length ≤ parent.family.bits) (occupants : List Interval) :
    (∀ block, nextBlock parent length fits occupants = some block ↔
      FreeBlock parent length occupants block ∧
        ∀ other, FreeBlock parent length occupants other → block.address ≤ other.address) ∧
    (nextBlock parent length fits occupants = none ↔
      ∀ block, ¬ FreeBlock parent length occupants block) := by
  have pos : 0 < 1 <<< (parent.family.bits - length) :=
    Nat.one_shiftLeft _ ▸ Nat.two_pow_pos _
  have inside : ∀ b, Aligned parent.range.first (1 <<< (parent.family.bits - length)) b →
      parent.range.first ≤ b := fun b isOpen => isOpen.1
  have starts : IsLeast {b | Aligned parent.range.first (1 <<< (parent.family.bits - length)) b}
      (skipAnycast parent.range.first none) :=
    ⟨⟨le_rfl, Nat.sub_self parent.range.first ▸ dvd_zero _⟩, fun b isOpen => isOpen.1⟩
  obtain ⟨found, full⟩ := firstGap_spec parent.range pos inside starts
    (fun _ le => isLeast_nextCandidate pos le) occupants
  have free_mem : ∀ b ∈ Gap.free (Aligned parent.range.first (1 <<< (parent.family.bits - length)))
      parent.range.last (1 <<< (parent.family.bits - length)) occupants,
      FreeBlock parent length occupants (Inet.fromInteger b parent.family length fits) ∧
        (Inet.fromInteger b parent.family length fits).address = b := by
    intro b free
    have address := fromInteger_address (mem_addresses_of_free pos inside free) fits
    have family : (Inet.fromInteger b parent.family length fits).family = parent.family := rfl
    refine ⟨(freeBlock_iff family rfl).2 ?_, address⟩
    rwa [address]
  constructor
  · intro block
    rw [nextBlock, map_fromInteger_eq_some_iff fits
      (fun b free => mem_addresses_of_free pos inside free) found]
    constructor
    · rintro ⟨family, netmask, free, least⟩
      refine ⟨(freeBlock_iff family netmask).2 free, fun _ otherFree => ?_⟩
      exact least ((freeBlock_iff otherFree.family otherFree.netmask).1 otherFree)
    rintro ⟨free, least⟩
    refine ⟨free.family, free.netmask, (freeBlock_iff free.family free.netmask).1 free, ?_⟩
    intro b freeB
    obtain ⟨freeBlock, address⟩ := free_mem b freeB
    exact address ▸ least _ freeBlock
  rw [nextBlock, map_eq_none_iff, full, Set.eq_empty_iff_forall_notMem]
  constructor
  · exact fun empty _ free =>
      empty _ ((freeBlock_iff free.family free.netmask).1 free)
  · exact fun none b free => none _ (free_mem b free).1

end NextBlock

/-- Two occupants, one inside the other, and the first gap of a /29 that holds a /31. -/
theorem nextBlock_slash29 :
    ((nextBlock ⟨.ipv4, 3232235776, some 29, by decide, by decide⟩ 31 (by decide)
        [⟨3232235777, 3232235778, by decide⟩, ⟨3232235776, 3232235778, by decide⟩]).map
      Inet.address) = some 3232235780 ∧
    ∀ block, nextBlock ⟨.ipv4, 3232235776, some 29, by decide, by decide⟩ 31 (by decide)
        [⟨3232235777, 3232235778, by decide⟩, ⟨3232235776, 3232235778, by decide⟩] = some block →
      FreeBlock ⟨.ipv4, 3232235776, some 29, by decide, by decide⟩ 31
        [⟨3232235777, 3232235778, by decide⟩, ⟨3232235776, 3232235778, by decide⟩] block :=
  ⟨by decide +kernel, fun block found => (((nextBlock_eq_some_iff _ _).1 block).1 found).1⟩

/-! ### Hosts -/

def Anycast (a : ℕ) : Prop := anycastFirst ≤ a % 2 ^ 64 ∧ a % 2 ^ 64 ≤ anycastLast

def Assignable (parent : Inet) (a : ℕ) : Prop :=
  match parent.family with
  | .ipv4 => parent.length ≤ 30 → a ≠ parent.range.first ∧ a ≠ parent.range.last
  | .ipv6 => (parent.length ≤ 126 → a ≠ parent.range.first) ∧ ¬ Anycast a

def FreeHost (parent : Inet) (occupants : List Interval) (a : ℕ) : Prop :=
  a ∈ parent.addresses ∧ Assignable parent a ∧ ∀ o ∈ occupants, a ∉ o.elements

def Standing (family : Family) (a : ℕ) : Prop := family = .ipv6 → ¬ Anycast a

theorem and_iidMask : a &&& iidMask = a % 2 ^ 64 := Nat.and_two_pow_sub_one_eq_mod a 64

variable {family : Family}

theorem isLeast_skipAnycast {candidate : ℕ} :
    IsLeast {b | candidate ≤ b ∧ Standing family b} (skipAnycast candidate (some family)) := by
  cases family with
  | ipv4 => exact ⟨⟨le_rfl, nofun⟩, fun b standing => standing.1⟩
  | ipv6 =>
    have standing : ∀ a, Standing .ipv6 a ↔ ¬ Anycast a := fun _ => forall_prop_of_true rfl
    simp only [skipAnycast, and_iidMask, standing, Anycast, anycastFirst, anycastLast]
    split
    · refine ⟨⟨by omega, by omega⟩, fun b le => ?_⟩
      simp only [Set.mem_ofPred_eq] at le
      omega
    rename_i outside
    exact ⟨⟨le_rfl, outside⟩, fun _ le => le.1⟩

theorem isLeast_nextCandidate_host (le : first ≤ stop) :
    IsLeast {b | (first ≤ b ∧ Standing family b) ∧ stop < b}
      (nextCandidate first 1 (some family) stop) := by
  have up : alignUp (stop + 1 - first) 1 + first = stop + 1 := by
    rw [alignUp]
    omega
  rw [nextCandidate, up]
  convert isLeast_skipAnycast using 1
  ext b
  constructor
  · exact fun ⟨⟨_, standing⟩, lt⟩ => ⟨lt, standing⟩
  · exact fun ⟨lt, standing⟩ => ⟨⟨le.trans (Nat.le_of_succ_le lt), standing⟩, lt⟩

theorem disjoint_block_one_iff : Disjoint (Gap.block a 1) o.elements ↔ a ∉ o.elements := by
  rw [Gap.block, Nat.add_sub_cancel, Set.Icc_self, Set.disjoint_singleton_left]

theorem anycast_of_mem_reserved {parent : Interval} (mem : o ∈ reserved parent)
    (inside : a ∈ o.elements) : Anycast a := by
  simp only [reserved] at mem
  split at mem
  · rw [mem_singleton] at mem
    subst mem
    simp only [Interval.elements, Set.mem_Icc, and_iidMask, anycastFirst, anycastLast] at inside
    unfold Anycast anycastFirst anycastLast
    omega
  · cases mem

theorem assignable_iff {parent : Inet} :
    (Standing parent.family a ∧ ∀ o ∈ nonAssignable parent, a ∉ o.elements) ↔
      Assignable parent a := by
  have point : ∀ n (le : n ≤ n), a ∉ (Interval.mk n n le).elements ↔ a ≠ n := by
    intro _ _
    rw [Interval.elements, Set.Icc_self, Set.mem_singleton_iff]
  unfold Standing nonAssignable Assignable
  cases parent.family with
  | ipv4 =>
    by_cases short : parent.length ≤ 30
    · simp [short, point]
    simp [short]
  | ipv6 =>
    have mem : (∀ o ∈ reserved parent.range, a ∉ o.elements) ∨ Anycast a := by
      by_cases anycast : Anycast a
      · exact Or.inr anycast
      · exact Or.inl fun _ mem inside => anycast (anycast_of_mem_reserved mem inside)
    by_cases short : parent.length ≤ 126
    · simp only [short, if_true, singleton_append, forall_mem_cons, point]
      tauto
    simp only [short, if_false, nil_append]
    tauto

theorem freeHost_iff {parent : Inet} :
    a ∈ Gap.free (fun b => parent.range.first ≤ b ∧ Standing parent.family b) parent.range.last 1
        (nonAssignable parent ++ occupants) ↔ FreeHost parent occupants a := by
  rw [FreeHost, ← assignable_iff, Inet.addresses, Interval.elements, Set.mem_Icc]
  simp only [Gap.free, Set.mem_ofPred_eq, forall_mem_append, disjoint_block_one_iff,
    Nat.add_sub_cancel]
  tauto

/-- **The next host is the least assignable address that no occupant holds**, with the parent's
length, and there is none exactly when no such address exists. -/
theorem nextHost_eq_some_iff (parent : Inet) (occupants : List Interval) :
    (∀ host, nextHost parent occupants = some host ↔
      host.family = parent.family ∧ host.netmask = some parent.length ∧
        IsLeast {a | FreeHost parent occupants a} host.address) ∧
    (nextHost parent occupants = none ↔ ∀ a, ¬ FreeHost parent occupants a) := by
  obtain ⟨found, full⟩ := firstGap_spec parent.range Nat.one_pos
    (fun b isOpen => isOpen.1) isLeast_skipAnycast
    (fun _ le => isLeast_nextCandidate_host le) (nonAssignable parent ++ occupants)
  have free : Gap.free (fun b => parent.range.first ≤ b ∧ Standing parent.family b)
      parent.range.last 1 (nonAssignable parent ++ occupants) = {a | FreeHost parent occupants a} :=
    Set.ext fun a => freeHost_iff
  rw [free] at found full
  constructor
  · exact fun _ => map_fromInteger_eq_some_iff parent.length_le (fun _ free => free.1) found
  rw [nextHost, map_eq_none_iff, full, Set.eq_empty_iff_forall_notMem]
  rfl

end Renga.IPAM.Allocator
