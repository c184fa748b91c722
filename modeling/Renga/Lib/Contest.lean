import Mathlib.Data.List.DropRight
import Mathlib.Data.List.MinMax

/-!
# A holder and its challengers

Something has one holder at a time.  Challengers come one after the other; a challenger
takes over from a holder whose key is not greater than its own.  Some holders are
*volatile*: the next challenger takes over from them whatever its key is.
-/

universe u v

namespace Contest

open List

variable {α : Type u} {κ : Type v} [LinearOrder κ] (key : α → κ) (volatile : α → Prop)
  [DecidablePred volatile]

/-- One challenger: it takes over unless a steady holder has the greater key. -/
def challenge (holder : Option α) (a : α) : Option α :=
  match holder with
  | none => some a
  | some h => if volatile h ∨ key h ≤ key a then some a else some h

/-- Who holds after the challengers of `l`, with nobody there at first. -/
def outcome (l : List α) : Option α := l.foldl (challenge key volatile) none

/-- The challenger takes over, or a steady holder with a greater key stays. -/
theorem challenge_cases (holder : Option α) (a : α) : challenge key volatile holder a = some a ∨
      ∃ h, holder = some h ∧ challenge key volatile holder a = some h ∧ ¬ volatile h ∧
        key a < key h := by
  cases holder with
  | none => exact .inl rfl
  | some h =>
    by_cases wins : volatile h ∨ key h ≤ key a
    · exact .inl (if_pos wins)
    refine .inr ⟨h, rfl, if_neg wins, fun v => wins (.inl v), ?_⟩
    exact lt_of_not_ge fun le => wins (.inr le)

variable {key volatile} {l l' : List α} {a : α}

theorem outcome_concat :
    outcome key volatile (l ++ [a]) = challenge key volatile (outcome key volatile l) a := by
  rw [outcome, foldl_append]
  rfl

/-! ### The greatest element -/

variable {g : α}

section Greatest

theorem argmax_eq_some_iff (apart : ∀ a ∈ l, ∀ b ∈ l, key a = key b → a = b) :
    l.argmax key = some g ↔ g ∈ l ∧ ∀ a ∈ l, key a ≤ key g := by
  constructor
  · intro greatest
    exact ⟨argmax_mem greatest, fun _ mem => le_of_mem_argmax mem greatest⟩
  rintro ⟨mem, above⟩
  cases greatest : l.argmax key with
  | none =>
    rw [argmax_eq_none.1 greatest] at mem
    cases mem
  | some h =>
    have same := le_antisymm (above h (argmax_mem greatest)) (le_of_mem_argmax mem greatest)
    exact congrArg some (apart h (argmax_mem greatest) g mem same)

theorem argmax_congr (apart : ∀ a ∈ l, ∀ b ∈ l, key a = key b → a = b)
    (same : ∀ a, a ∈ l ↔ a ∈ l') : l.argmax key = l'.argmax key := by
  have apart' : ∀ a ∈ l', ∀ b ∈ l', key a = key b → a = b := fun a mem b mem' =>
    apart a ((same a).2 mem) b ((same b).2 mem')
  ext g
  show l.argmax key = some g ↔ l'.argmax key = some g
  rw [argmax_eq_some_iff apart, argmax_eq_some_iff apart', same]
  exact and_congr_right fun _ => forall_congr' fun _ => by rw [same]

end Greatest

/-! ### Outcomes -/

theorem outcome_mem {b : α} (holds : outcome key volatile l = some b) : b ∈ l := by
  induction l using reverseRecOn with
  | nil => cases holds
  | append_singleton l a ih =>
    rw [outcome_concat] at holds
    rcases challenge_cases key volatile (outcome key volatile l) a with
      wins | ⟨h, held, stays, _, _⟩
    · rw [wins] at holds
      cases holds
      simp
    rw [stays] at holds
    cases holds
    exact mem_append_left _ (ih held)

theorem outcome_concat_of_top (top : ∀ b ∈ l, ¬ volatile b → key b < key a) :
    outcome key volatile (l ++ [a]) = some a := by
  rw [outcome_concat]
  rcases challenge_cases key volatile (outcome key volatile l) a with
    wins | ⟨h, holds, _, steady, above⟩
  · exact wins
  · exact absurd (top h (outcome_mem holds) steady) above.asymm

/-- The challengers behind the last volatile one. -/
def unsettled (volatile : α → Prop) [DecidablePred volatile] (l : List α) : List α :=
  l.rtakeWhile fun a => ¬ volatile a

theorem unsettled_concat_of_volatile (v : volatile a) : unsettled volatile (l ++ [a]) = [] :=
  rtakeWhile_concat_neg _ _ _ (by simpa using v)

theorem unsettled_concat (steady : ¬ volatile a) :
    unsettled volatile (l ++ [a]) = unsettled volatile l ++ [a] :=
  rtakeWhile_concat_pos _ _ _ (by simpa using steady)

theorem not_volatile_of_mem_unsettled (mem : a ∈ unsettled volatile l) : ¬ volatile a := by
  simpa using mem_rtakeWhile_imp mem

theorem mem_of_mem_unsettled (mem : a ∈ unsettled volatile l) : a ∈ l :=
  (rtakeWhile_suffix _ _).subset mem

theorem unsettled_eq_self (steady : ∀ a ∈ l, ¬ volatile a) : unsettled volatile l = l :=
  rtakeWhile_eq_self_iff.2 fun a mem => by simpa using steady a mem

theorem challenge_argmax_concat {m : List α}
    (apart : ∀ b ∈ m ++ [a], ∀ c ∈ m ++ [a], key b = key c → b = c)
    (steady : ∀ b ∈ m, ¬ volatile b) :
    challenge key volatile (m.argmax key) a = (m ++ [a]).argmax key := by
  rw [argmax_concat]
  cases greatest : m.argmax key with
  | none => rfl
  | some h =>
    have mem := argmax_mem greatest
    show (if volatile h ∨ key h ≤ key a then some a else some h)
      = if key h < key a then some a else some h
    by_cases less : key h < key a
    · rw [if_pos (.inr less.le), if_pos less]
    rw [if_neg less]
    by_cases same : key h = key a
    · rw [apart h (mem_append_left _ mem) a (by simp) same, ite_self]
    refine if_neg ?_
    rintro (v | le)
    · exact steady h mem v
    · exact less (lt_of_le_of_ne le same)

variable (apart : ∀ a ∈ l, ∀ b ∈ l, key a = key b → a = b)
include apart

variable (top : ∀ a ∈ l, volatile a → ∀ b ∈ l, ¬ volatile b → key b < key a)

include top in
/-- **The holder is the greatest behind the last volatile challenger**, or that challenger when
nobody came after it. -/
theorem outcome_eq :
    outcome key volatile l = ((unsettled volatile l).argmax key).or l.getLast? := by
  induction l using reverseRecOn with
  | nil => rfl
  | append_singleton l a ih =>
    rw [getLast?_concat]
    by_cases v : volatile a
    · rw [unsettled_concat_of_volatile v]
      exact outcome_concat_of_top fun b mem => top a (by simp) v b (mem_append_left _ mem)
    have before := ih
      (fun b mem c mem' => apart b (mem_append_left _ mem) c (mem_append_left _ mem'))
      (fun b mem v' c mem' => top b (mem_append_left _ mem) v' c
        (mem_append_left _ mem'))
    have apart' : ∀ b ∈ unsettled volatile l ++ [a], ∀ c ∈ unsettled volatile l ++ [a],
        key b = key c → b = c := by
      rw [← unsettled_concat v]
      exact fun b mem c mem' => apart b (mem_of_mem_unsettled mem) c (mem_of_mem_unsettled mem')
    rw [unsettled_concat v, outcome_concat, before,
      ← challenge_argmax_concat apart' fun _ => not_volatile_of_mem_unsettled]
    cases greatest : (unsettled volatile l).argmax key with
    | some h =>
      show challenge key volatile (some h) a = (challenge key volatile (some h) a).or (some a)
      rcases challenge_cases key volatile (some h) a with wins | ⟨_, _, stays, _, _⟩
      · rw [wins]
        rfl
      rw [stays]
      rfl
    | none =>
      -- Nobody came behind the last volatile challenger: `a` takes over from it.
      have bare := argmax_eq_none.1 greatest
      show challenge key volatile l.getLast? a = some a
      cases last : l.getLast? with
      | none => rfl
      | some h =>
        obtain ⟨_, rfl⟩ := getLast?_eq_some_iff.1 last
        have v' : volatile h := by
          by_contra steady
          rw [unsettled_concat steady] at bare
          simp at bare
        exact if_pos (.inl v')

include top in
theorem outcome_eq_some_iff : outcome key volatile l = some g ↔
      volatile g ∧ l.getLast? = some g ∨
        ¬ volatile g ∧ g ∈ unsettled volatile l ∧ ∀ a ∈ unsettled volatile l, key a ≤ key g := by
  have apart' : ∀ a ∈ unsettled volatile l, ∀ b ∈ unsettled volatile l, key a = key b → a = b :=
    fun a mem b mem' => apart a (mem_of_mem_unsettled mem) b (mem_of_mem_unsettled mem')
  rw [outcome_eq apart top, ← argmax_eq_some_iff apart']
  cases greatest : (unsettled volatile l).argmax key with
  | some =>
    have steady := not_volatile_of_mem_unsettled (argmax_mem greatest)
    have last : ∀ a, l.getLast? = some a → ¬ volatile a := by
      intro a last v
      obtain ⟨m, rfl⟩ := getLast?_eq_some_iff.1 last
      rw [unsettled_concat_of_volatile v] at greatest
      cases greatest
    constructor
    · rintro ⟨⟩
      exact .inr ⟨steady, rfl⟩
    rintro (⟨v, is⟩ | ⟨_, same⟩)
    · exact absurd v (last g is)
    exact same
  | none =>
    have bare := argmax_eq_none.1 greatest
    have last : ∀ a, l.getLast? = some a → volatile a := by
      intro _ last
      by_contra steady
      obtain ⟨_, rfl⟩ := getLast?_eq_some_iff.1 last
      rw [unsettled_concat steady] at bare
      simp at bare
    constructor
    · intro is
      exact .inl ⟨last g is, is⟩
    rintro (⟨_, is⟩ | ⟨_, same⟩)
    · exact is
    · cases same

include top in
/-- The greatest of all holds unless it is volatile and not the last. -/
theorem outcome_eq_argmax_iff (greatest : l.argmax key = some g) :
    outcome key volatile l = some g ↔ ¬ volatile g ∨ l.getLast? = some g := by
  obtain ⟨mem, above⟩ := (argmax_eq_some_iff apart).1 greatest
  rw [outcome_eq_some_iff apart top]
  by_cases v : volatile g
  · simp [v]
  -- Nobody is volatile: a volatile challenger would be above the greatest one.
  have steady : ∀ a ∈ l, ¬ volatile a := fun a mem' v' =>
    absurd (above a mem') (not_le.2 (top a mem' v' g mem v))
  rw [unsettled_eq_self steady]
  exact iff_of_true (.inr ⟨v, mem, above⟩) (.inl v)

omit apart

end Contest
