import Mathlib.Data.List.Nodup

/-!
# One-shot tickets

Tickets are issued to holders and spent by them.  `Tickets.Valid` says that every ticket is
with at most one holder and that a spent ticket is with none, so no ticket is spent twice
(`Valid.spent_nodup`).  It is kept by the three things that happen to tickets: fresh ones
are issued to a holder, a holder drops some, a holder spends one.
-/

universe u v

namespace Tickets

open List Function

variable {ι : Type u} {τ : Type v}

/-- `issued` are the tickets ever handed out, `spent` those used, in order, and
`held i` those holder `i` still has. -/
structure Valid (issued spent : List τ) (held : ι → List τ) : Prop where
  held_issued : ∀ i, ∀ t ∈ held i, t ∈ issued
  spent_issued : ∀ t ∈ spent, t ∈ issued
  held_nodup : ∀ i, (held i).Nodup
  spent_nodup : spent.Nodup
  apart : ∀ i j, i ≠ j → ∀ t ∈ held i, t ∉ held j
  unspent : ∀ i, ∀ t ∈ held i, t ∉ spent

theorem valid_nil : Valid [] [] (fun _ : ι => ([] : List τ)) where
  held_issued := nofun
  spent_issued := nofun
  held_nodup := fun _ => nodup_nil
  spent_nodup := nodup_nil
  apart := nofun
  unspent := nofun

namespace Valid

variable {issued spent : List τ} {held : ι → List τ} (valid : Valid issued spent held)
include valid

variable {fresh : List τ}

theorem issue_lost : Valid (issued ++ fresh) spent held :=
  { valid with
    held_issued := fun i t member => mem_append_left _ (valid.held_issued i t member)
    spent_issued := fun t member => mem_append_left _ (valid.spent_issued t member) }

variable [DecidableEq ι] {i : ι} {kept : List τ}

theorem drop (sub : kept.Sublist (held i)) : Valid issued spent (update held i kept) := by
  have still : ∀ j, ∀ t ∈ update held i kept j, t ∈ held j := by
    intro j t member
    by_cases same : j = i
    · subst same
      rw [update_self] at member
      exact sub.subset member
    · rwa [update_of_ne same] at member
  refine ⟨fun j t member => valid.held_issued j t (still j t member), valid.spent_issued,
    fun j => ?_, valid.spent_nodup, fun j k ne t member member' => ?_,
    fun j t member => valid.unspent j t (still j t member)⟩
  · by_cases same : j = i
    · subst same
      rw [update_self]
      exact (valid.held_nodup j).sublist sub
    rw [update_of_ne same]
    exact valid.held_nodup j
  · exact valid.apart j k ne t (still j t member) (still k t member')

theorem issue (i : ι) (nodup : (issued ++ fresh).Nodup) :
    Valid (issued ++ fresh) spent (update held i (held i ++ fresh)) := by
  obtain ⟨-, fresh_nodup, new⟩ := nodup_append.1 nodup
  have unissued : ∀ t ∈ fresh, t ∉ issued := fun t member old => new t old t member rfl
  have either : ∀ j, ∀ t ∈ update held i (held i ++ fresh) j,
      t ∈ held j ∨ (j = i ∧ t ∈ fresh) := by
    intro j t member
    by_cases same : j = i
    · subst same
      rw [update_self] at member
      exact (mem_append.1 member).imp_right fun new => ⟨rfl, new⟩
    rw [update_of_ne same] at member
    exact Or.inl member
  refine ⟨fun j t member => ?_, fun t member => mem_append_left _ (valid.spent_issued t member),
    fun j => ?_, valid.spent_nodup, fun j k ne t member member' => ?_, fun j t member => ?_⟩
  · rcases either j t member with old | ⟨_, new⟩
    · exact mem_append_left _ (valid.held_issued j t old)
    · exact mem_append_right _ new
  · by_cases same : j = i
    · subst same
      rw [update_self]
      refine nodup_append.2 ⟨valid.held_nodup j, fresh_nodup, ?_⟩
      rintro t member _ member' rfl
      exact unissued t member' (valid.held_issued j t member)
    rw [update_of_ne same]
    exact valid.held_nodup j
  · rcases either j t member with old | ⟨rfl, new⟩
    · rcases either k t member' with old' | ⟨rfl, new'⟩
      · exact valid.apart j k ne t old old'
      · exact unissued t new' (valid.held_issued j t old)
    rcases either k t member' with old' | ⟨rfl, _⟩
    · exact unissued t new (valid.held_issued k t old')
    · exact ne rfl
  rcases either j t member with old | ⟨_, new⟩
  · exact valid.unspent j t old
  · exact fun used => unissued t new (valid.spent_issued t used)

theorem spend {t : τ} (has : held i = t :: kept) :
    Valid issued (spent ++ [t]) (update held i kept) := by
  have member : t ∈ held i := has ▸ mem_cons_self
  have dropped := valid.drop (show kept.Sublist (held i) from has ▸ sublist_cons_self t kept)
  have gone : ∀ j, t ∉ update held i kept j := by
    intro j still
    by_cases same : j = i
    · subst same
      rw [update_self] at still
      have nodup := valid.held_nodup j
      rw [has] at nodup
      exact (nodup_cons.1 nodup).1 still
    rw [update_of_ne same] at still
    exact valid.apart j i same t still member
  refine ⟨dropped.held_issued, fun t' used => ?_, dropped.held_nodup, ?_, dropped.apart,
    fun j t' still used => ?_⟩
  · rcases mem_append.1 used with old | new
    · exact valid.spent_issued t' old
    rw [mem_singleton.1 new]
    exact valid.held_issued i t member
  · refine nodup_append.2 ⟨valid.spent_nodup, nodup_singleton t, ?_⟩
    rintro t' used _ new rfl
    rw [mem_singleton.1 new] at used
    exact valid.unspent i t member used
  rcases mem_append.1 used with old | new
  · exact dropped.unspent j t' still old
  rw [mem_singleton.1 new] at still
  exact gone j still

omit valid

end Valid

end Tickets
