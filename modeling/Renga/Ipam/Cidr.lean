import Mathlib.Tactic.Ring
import Renga.Lib.Gap

/-!
# Prefixes and addresses as integers

`Renga.IPAM.Cidr`.  A prefix is an integer network and a length, an address *is* its
integer, below the number of addresses of its family.  The addresses of a prefix are those
that agree with it before its host bits (`mem_addresses_iff`), so two prefixes of one family
are nested or apart (`contains?_or_disjoint`), and `contains?` is inclusion of addresses
(`contains?_iff`).
-/

namespace Renga.IPAM

inductive Family where
  | ipv4
  | ipv6
deriving DecidableEq

def Family.bits : Family → ℕ
  | .ipv4 => 32
  | .ipv6 => 128

/-- `Postgrex.INET`: an address, and the length of the prefix it is written with. -/
@[ext]
structure Inet where
  family : Family
  address : ℕ
  netmask : Option ℕ
  address_lt : address < 2 ^ family.bits
  netmask_le : ∀ n ∈ netmask, n ≤ family.bits
deriving DecidableEq

namespace Inet

variable (i : Inet)

def length : ℕ := i.netmask.getD i.family.bits

def size : ℕ := 1 <<< (i.family.bits - i.length)

def networkAt (length : ℕ) : ℕ :=
  i.address >>> (i.family.bits - length) <<< (i.family.bits - length)

variable {family : Family}

theorem address_fits {value : ℕ} : value % 2 ^ family.bits < 2 ^ family.bits :=
  Nat.mod_lt _ (Nat.two_pow_pos _)

theorem netmask_fits {length : ℕ} (fits : length ≤ family.bits) :
    ∀ n ∈ some length, n ≤ family.bits :=
  fun _ eq => Option.some.inj eq ▸ fits

/-- Builds a prefix from an integer network, family, and length.  The segments that are cut
out of the integer forget whatever is above the width of the family. -/
def fromInteger (value : ℕ) (family : Family) (length : ℕ) (fits : length ≤ family.bits) :
    Inet where
  family := family
  address := value % 2 ^ family.bits
  netmask := some length
  address_lt := address_fits
  netmask_le := netmask_fits fits

/-- Whether `outer` contains `inner` (a prefix contains itself). -/
def contains? (outer inner : Inet) : Bool :=
  outer.family == inner.family && decide (outer.length ≤ inner.length) &&
    inner.networkAt outer.length == outer.networkAt outer.length

theorem length_le : i.length ≤ i.family.bits := by
  unfold length
  cases found : i.netmask with
  | none => exact le_rfl
  | some n => exact i.netmask_le n found

theorem size_eq : i.size = 2 ^ (i.family.bits - i.length) := Nat.one_shiftLeft _

theorem size_pos : 0 < i.size := i.size_eq ▸ Nat.two_pow_pos _

theorem networkAt_eq {length : ℕ} : i.networkAt length =
    i.address / 2 ^ (i.family.bits - length) * 2 ^ (i.family.bits - length) := by
  rw [networkAt, Nat.shiftLeft_eq, Nat.shiftRight_eq_div_pow]

theorem networkAt_le_last : i.networkAt i.length ≤ i.networkAt i.length + i.size - 1 :=
  Nat.le_sub_of_add_le (Nat.add_le_add_left i.size_pos _)

def range : Gap.Interval where
  first := i.networkAt i.length
  last := i.networkAt i.length + i.size - 1
  le := i.networkAt_le_last

theorem range_first : i.range.first = i.address / i.size * i.size := by
  rw [size_eq]
  exact i.networkAt_eq

theorem range_last : i.range.last = i.range.first + i.size - 1 := rfl

def addresses : Set ℕ := i.range.elements

theorem size_dvd_first : i.size ∣ i.range.first := by
  rw [range_first]
  exact dvd_mul_left _ _

variable {i} {a : ℕ}

theorem mem_aligned_iff {q n : ℕ} (pos : 0 < n) : q * n ≤ a ∧ a ≤ q * n + n - 1 ↔ a / n = q := by
  rw [Nat.div_eq_iff pos, and_congr_right_iff]
  intro _
  omega

theorem mem_addresses_iff : a ∈ i.addresses ↔ a / i.size = i.address / i.size := by
  rw [addresses, Gap.Interval.elements, Set.mem_Icc, range_last, range_first]
  exact mem_aligned_iff i.size_pos

theorem address_mem : i.address ∈ i.addresses := mem_addresses_iff.2 rfl

theorem lt_of_mem_addresses (mem : a ∈ i.addresses) : a < 2 ^ i.family.bits := by
  have whole : 2 ^ i.family.bits = 2 ^ i.length * i.size := by
    rw [size_eq, ← pow_add, Nat.add_sub_of_le i.length_le]
  have lt := i.address_lt
  rw [whole, ← Nat.div_lt_iff_lt_mul i.size_pos] at lt ⊢
  exact mem_addresses_iff.1 mem ▸ lt

variable {outer inner : Inet}

theorem div_size_eq_of_le (family : outer.family = inner.family)
    (le : outer.length ≤ inner.length) {b : ℕ} (eq : a / inner.size = b / inner.size) :
    a / outer.size = b / outer.size := by
  have split : outer.size = inner.size * 2 ^ (inner.length - outer.length) := by
    have := inner.length_le
    rw [size_eq, size_eq, ← pow_add, family]
    congr 1
    omega
  rw [split, ← Nat.div_div_eq_div_mul, ← Nat.div_div_eq_div_mul, eq]

theorem contains?_iff_div : outer.contains? inner = true ↔
    outer.family = inner.family ∧ outer.length ≤ inner.length ∧
      inner.address / outer.size = outer.address / outer.size := by
  simp only [contains?, Bool.and_eq_true, beq_iff_eq, decide_eq_true_eq, and_assoc]
  refine and_congr_right fun family => and_congr_right fun _ => ?_
  rw [networkAt_eq, networkAt_eq, ← family, ← size_eq]
  exact Nat.mul_left_inj outer.size_pos.ne'

/-- **Containment is inclusion of addresses**, within a family. -/
theorem contains?_iff (family : outer.family = inner.family) :
    outer.contains? inner = true ↔ inner.addresses ⊆ outer.addresses := by
  rw [contains?_iff_div]
  constructor
  · rintro ⟨-, le, agree⟩ _ mem
    rw [mem_addresses_iff] at mem ⊢
    rw [div_size_eq_of_le family le mem, agree]
  intro subset
  refine ⟨family, ?_, mem_addresses_iff.1 (subset address_mem)⟩
  have first := subset (Set.left_mem_Icc.2 inner.range.le)
  have last := subset (Set.right_mem_Icc.2 inner.range.le)
  have sizes : inner.size ≤ outer.size := by
    have := outer.size_pos
    simp only [addresses, Gap.Interval.elements, Set.mem_Icc, range_last] at first last
    omega
  rw [size_eq, size_eq, family, Nat.pow_le_pow_iff_right (by decide)] at sizes
  have := outer.length_le
  rw [family] at this
  omega

/-- **Two prefixes of one family are nested or apart.** -/
theorem contains?_or_disjoint {p q : Inet} (family : p.family = q.family)
    (le : p.length ≤ q.length) :
    p.contains? q = true ∨ Disjoint p.addresses q.addresses := by
  by_cases agree : q.address / p.size = p.address / p.size
  · exact Or.inl (contains?_iff_div.2 ⟨family, le, agree⟩)
  refine Or.inr (Set.disjoint_left.2 fun _ inP inQ => agree ?_)
  rw [← mem_addresses_iff.1 inP, div_size_eq_of_le family le (mem_addresses_iff.1 inQ)]

end Inet

end Renga.IPAM
