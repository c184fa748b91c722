import Mathlib.Data.List.Basic

/-!
# Transactions and runs

A fallible operation on a state is a function into `Except`.  `commit` reads such a result
as a step of a machine, in which a rolled back operation changes nothing.  A run folds steps
over a list of labels.
-/

universe u v w

namespace Except

open List

variable {ε : Type u} {α β : Type v} {a : α}

@[simp] theorem pure_eq_ok_iff {b : α} : (pure a : Except ε α) = .ok b ↔ a = b := by
  simp [pure, Except.pure]

variable {e : ε}

@[simp] theorem pure_ne_error : (pure a : Except ε α) ≠ .error e := by
  simp [pure, Except.pure]

variable {x : Except ε α} {f : α → Except ε β}

theorem bind_eq_ok_iff {b : β} : (x >>= f) = .ok b ↔ ∃ a, x = .ok a ∧ f a = .ok b := by
  cases x with
  | error | ok => simp [bind, Except.bind]

theorem bind_eq_error_iff :
    (x >>= f) = .error e ↔ x = .error e ∨ ∃ a, x = .ok a ∧ f a = .error e := by
  cases x with
  | error | ok => simp [bind, Except.bind]

theorem map_eq_ok_iff {f : α → β} {b : β} : x.map f = .ok b ↔ ∃ a, x = .ok a ∧ f a = b := by
  cases x with
  | error | ok => simp [Except.map]

/-- The error `e` unless `b`. -/
def require (b : Bool) (e : ε) : Except ε PUnit :=
  if b then .ok ⟨⟩ else .error e

@[simp] theorem require_eq_ok_iff {b : Bool} {u : PUnit} : require b e = .ok u ↔ b = true := by
  cases b <;> simp [require]

theorem require_eq_error_iff {b : Bool} {e' : ε} :
    (require b e : Except ε PUnit.{v + 1}) = .error e' ↔ b = false ∧ e = e' := by
  cases b <;> simp [require]

/-- The error `e` when nothing was found. -/
def ofOption (x : Option α) (e : ε) : Except ε α :=
  match x with
  | some a => .ok a
  | none => .error e

@[simp] theorem ofOption_eq_ok_iff {x : Option α} : ofOption x e = .ok a ↔ x = some a := by
  cases x <;> simp [ofOption]

theorem ofOption_eq_error_iff {x : Option α} {e' : ε} :
    ofOption x e = .error e' ↔ x = none ∧ e = e' := by
  cases x <;> simp [ofOption]

end Except

namespace Run

open List

variable {σ : Type u} {ℓ : Type v} {ε : Type w}

/-- The state after an operation: its result, or the old state when it was
rolled back. -/
def commit (s : σ) (result : Except ε σ) : σ :=
  match result with
  | .ok s' => s'
  | .error _ => s

variable {s : σ}

@[simp] theorem commit_ok {s' : σ} : commit s (.ok s' : Except ε σ) = s' := rfl

@[simp] theorem commit_error {e : ε} : commit s (.error e) = s := rfl

theorem commit_cases (s : σ) (result : Except ε σ) :
    commit s result = s ∨ result = .ok (commit s result) := by
  cases result with
  | ok => exact Or.inr rfl
  | error => exact Or.inl rfl

/-- The state after the labels, one step for each. -/
def run (step : σ → ℓ → σ) (s : σ) (ls : List ℓ) : σ := ls.foldl step s

variable {step : σ → ℓ → σ}

@[simp] theorem run_nil : run step s [] = s := rfl

variable {l : ℓ} {ls : List ℓ}

@[simp] theorem run_cons :
    run step s (l :: ls) = run step (step s l) ls := rfl

theorem run_append (s : σ) (ls ls' : List ℓ) :
    run step s (ls ++ ls') = run step (run step s ls) ls' := foldl_append

theorem run_concat : run step s (ls ++ [l]) = step (run step s ls) l := by
  rw [run_append]
  rfl

variable {P : σ → Prop} {s : σ}

theorem run_invariant (keep : ∀ s l, P s → P (step s l)) (start : P s) (ls : List ℓ) :
    P (run step s ls) := by
  induction ls generalizing s with
  | nil => exact start
  | cons l _ ih => exact ih (keep s l start)

theorem run_invariant_of_mem (keep : ∀ s, ∀ l ∈ ls, P s → P (step s l)) (start : P s) :
    P (run step s ls) := by
  induction ls generalizing s with
  | nil => exact start
  | cons l _ ih =>
    exact ih (fun s' l' mem => keep s' l' (mem_cons_of_mem l mem))
      (keep s l (mem_cons_self ..) start)

theorem run_mono {R : σ → σ → Prop} (keep : ∀ s l, P s → P (step s l)) (refl : ∀ s, R s s)
    (trans : ∀ s₁ s₂ s₃, R s₁ s₂ → R s₂ s₃ → R s₁ s₃) (one : ∀ s l, P s → R s (step s l))
    (start : P s) (ls : List ℓ) :
    R s (run step s ls) := by
  induction ls generalizing s with
  | nil => exact refl s
  | cons l _ ih => exact trans _ _ _ (one s l start) (ih (keep s l start))

/-- The labels of a run that are kept: those for which `drops` is false in the
state they are taken in. -/
def survivors (step : σ → ℓ → σ) (drops : σ → ℓ → Bool) : σ → List ℓ → List ℓ
  | _, [] => []
  | s, l :: ls =>
    if drops s l then survivors step drops (step s l) ls
    else l :: survivors step drops (step s l) ls

variable {drops : σ → ℓ → Bool}

theorem run_survivors (idle : ∀ s l, drops s l = true → step s l = s) :
    run step s (survivors step drops s ls) = run step s ls := by
  induction ls generalizing s with
  | nil => rfl
  | cons l _ ih =>
    by_cases h : drops s l = true
    · rw [survivors, if_pos h, run_cons, idle s l h, ih]
    · rw [survivors, if_neg h, run_cons, run_cons, ih]

theorem survivors_survivors (idle : ∀ s l, drops s l = true → step s l = s) :
    survivors step drops s (survivors step drops s ls) = survivors step drops s ls := by
  induction ls generalizing s with
  | nil => rfl
  | cons l _ ih =>
    by_cases h : drops s l = true
    · rw [survivors, if_pos h, idle s l h, ih]
    · rw [survivors, if_neg h, survivors, if_neg h, ih]

/-- What the steps of a run emit. -/
def outputs {β : Type*} (step : σ → ℓ → σ) (emit : σ → ℓ → List β) : σ → List ℓ → List β
  | _, [] => []
  | s, l :: ls => emit s l ++ outputs step emit (step s l) ls

theorem outputs_invariant {β : Type*} {emit : σ → ℓ → List β} {P : σ → List β → Prop}
    (keep : ∀ s out l, P s out → P (step s l) (out ++ emit s l)) (start : P s []) (ls : List ℓ) :
    P (run step s ls) (outputs step emit s ls) := by
  have along : ∀ (ls : List ℓ) (s : σ) (out : List β), P s out →
      P (run step s ls) (out ++ outputs step emit s ls) := by
    intro ls
    induction ls with
    | nil =>
      intro s out holds
      rw [outputs, append_nil]
      exact holds
    | cons l _ ih =>
      intro s out holds
      rw [outputs, ← append_assoc]
      exact ih (step s l) _ (keep s out l holds)
  exact along ls s [] start

end Run

/-- The result `r` of an operation started in `s` is reached by acts of `Act`: it
stops with a value where the acts have led, or fails where an act fails. -/
inductive Trace {σ : Type u} {ε : Type w} (Act : σ → Except ε σ → Prop) {α : Type u} :
    σ → Except ε (σ × α) → Prop
  | done (s : σ) (a : α) : Trace Act s (.ok (s, a))
  | act {s s' : σ} {r : Except ε (σ × α)} (first : Act s (.ok s'))
      (rest : Trace Act s' r) : Trace Act s r
  | fail {s : σ} {e : ε} (last : Act s (.error e)) : Trace Act s (.error e)

namespace Trace

open List

variable {σ α β : Type u} {ε : Type w} {Act : σ → Except ε σ → Prop} {s : σ}
  {r : Except ε (σ × α)}

theorem of_act (one : Act s (r.map Prod.fst)) : Trace Act s r := by
  cases r with
  | error => exact .fail one
  | ok p => exact .act one (.done p.1 p.2)

theorem bind {x : Except ε (σ × α)} {f : σ × α → Except ε (σ × β)} (head : Trace Act s x)
    (tail : ∀ s' a, x = .ok (s', a) → Trace Act s' (f (s', a))) :
    Trace Act s (x >>= f) := by
  induction head with
  | done s a => exact tail s a rfl
  | act first _ ih => exact .act first (ih tail)
  | fail last => exact .fail last

theorem read {γ : Type u} {x : Except ε γ} {f : γ → Except ε (σ × α)}
    (fails : ∀ e, x = .error e → Act s (.error e)) (tail : ∀ c, x = .ok c → Trace Act s (f c)) :
    Trace Act s (x >>= f) := by
  cases x with
  | error e => exact .fail (fails e rfl)
  | ok c => exact tail c rfl

theorem update {x : Except ε σ} {f : σ → Except ε (σ × α)} (one : Act s x)
    (tail : ∀ s', x = .ok s' → Trace Act s' (f s')) : Trace Act s (x >>= f) := by
  cases x with
  | error => exact .fail one
  | ok s' => exact .act one (tail s' rfl)

theorem map (trace : Trace Act s r) {g : α → β} : Trace Act s (r.map fun p => (p.1, g p.2)) := by
  induction trace with
  | done s a => exact .done s (g a)
  | act first _ ih => exact .act first ih
  | fail last => exact .fail last

variable {P : σ → Prop} (keep : ∀ s s', P s → Act s (.ok s') → P s')
include keep

/-- A reflexive, transitive relation that every act inside `P` respects relates the
ends of every operation. -/
theorem relates {R : σ → σ → Prop} (refl : ∀ s, R s s)
    (trans : ∀ s₁ s₂ s₃, R s₁ s₂ → R s₂ s₃ → R s₁ s₃) (one : ∀ s s', P s → Act s (.ok s') → R s s')
    {s' : σ} {a : α} (start : P s) (trace : Trace Act s r) (ended : r = .ok (s', a)) : R s s' := by
  induction trace with
  | done =>
    cases ended
    exact refl _
  | act first _ ih => exact trans _ _ _ (one _ _ start first) (ih (keep _ _ start first) ended)
  | fail => cases ended

theorem invariant {s' : σ} {a : α} (start : P s)
    (trace : Trace Act s r) (ended : r = .ok (s', a)) : P s' :=
  relates (R := fun s s' => P s → P s') keep (fun _ h => h) (fun _ _ _ f g h => g (f h))
    (fun s s' _ first h => keep s s' h first) start trace ended start

theorem error {E : ε → Prop}
    (fails : ∀ s e, P s → Act s (.error e) → E e) {e : ε} (start : P s) (trace : Trace Act s r)
    (ended : r = .error e) : E e := by
  induction trace with
  | done => cases ended
  | act first _ ih => exact ih (keep _ _ start first) ended
  | fail last =>
    cases ended
    exact fails _ _ start last

omit keep

end Trace
