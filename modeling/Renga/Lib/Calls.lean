import Mathlib.Data.List.Basic

/-!
# Programs that make calls

Code that talks to its surroundings is a tree of calls: `Prog C A α` either returns or makes
a call `c : C` and goes on with the answer in `A c`.  A run is given a list of decisions,
one for each call; when they run out the program is cut off there, so the runs over all
lists include every crash between two calls.
-/

universe u

/-- A program over the calls `C`, whose answers are of type `A c`. -/
inductive Prog (C : Type u) (A : C → Type u) (α : Type u) : Type u
  | ret (a : α) : Prog C A α
  | call (c : C) (next : A c → Prog C A α) : Prog C A α

namespace Prog

variable {C : Type u} {A : C → Type u} {α β : Type u} {σ D : Type u}

def bind : Prog C A α → (α → Prog C A β) → Prog C A β
  | ret a, f => f a
  | call c next, f => call c fun a => (next a).bind f

instance : Monad (Prog C A) where
  pure := ret
  bind := bind

/-- One call, with its answer as the result. -/
def ask (c : C) : Prog C A (A c) := call c ret

variable {f : α → Prog C A β}

@[simp] theorem ret_bind {a : α} : (ret a >>= f) = f a := rfl

@[simp] theorem pure_bind {a : α} : ((pure a : Prog C A α) >>= f) = f a := rfl

@[simp] theorem ask_bind {c : C} {f : A c → Prog C A β} : (ask c >>= f) = call c f := rfl

section Runs

variable (answer : σ → (c : C) → D → σ × A c)

/-- Runs a program.  Without a decision for the next call it is cut off. -/
def run : Prog C A α → σ → List D → σ × Option α
  | ret a, s, _ => (s, some a)
  | call _ _, s, [] => (s, none)
  | call c next, s, d :: ds => (next (answer s c d).2).run (answer s c d).1 ds

/-- `I` holds after every call, and `Q` where the program returns. -/
def Holds (I : σ → Prop) (Q : α → σ → Prop) : Prog C A α → σ → Prop
  | ret a, s => Q a s
  | call c next, s => ∀ d, I (answer s c d).1 ∧ (next (answer s c d).2).Holds I Q (answer s c d).1

variable {answer} {I : σ → Prop} {Q R : α → σ → Prop} {s : σ} {p : Prog C A α}

theorem run_of_holds (holds : p.Holds answer I Q s) (start : I s) (ds : List D) :
    I (p.run answer s ds).1 ∧
      ∀ a, (p.run answer s ds).2 = some a → Q a (p.run answer s ds).1 := by
  induction p generalizing s ds with
  | ret =>
    refine ⟨start, fun b same => ?_⟩
    cases same
    exact holds
  | call _ _ ih =>
    cases ds with
    | nil => exact ⟨start, nofun⟩
    | cons d ds => exact ih _ (holds d).2 (holds d).1 ds

theorem run_congr {answer' : σ → (c : C) → D → σ × A c} {ds : List D}
    (same : ∀ d ∈ ds, ∀ s c, answer s c d = answer' s c d) :
    p.run answer s ds = p.run answer' s ds := by
  induction p generalizing s ds with
  | ret => rfl
  | call c _ ih =>
    cases ds with
    | nil => rfl
    | cons d ds =>
      rw [run, run, same d List.mem_cons_self]
      exact ih _ fun d mem => same d (List.mem_cons_of_mem _ mem)

theorem holds_ret {a : α} (post : Q a s) : (ret a : Prog C A α).Holds answer I Q s := post

theorem Holds.mono (holds : p.Holds answer I R s) (start : I s)
    (imp : ∀ a s', I s' → R a s' → Q a s') : p.Holds answer I Q s := by
  induction p generalizing s with
  | ret a => exact imp a s start holds
  | call _ _ ih => exact fun d => ⟨(holds d).1, ih _ (holds d).2 (holds d).1⟩

theorem Holds.bind {Q : β → σ → Prop} (holds : p.Holds answer I R s) (start : I s)
    (rest : ∀ a s', I s' → R a s' → (f a).Holds answer I Q s') : (p >>= f).Holds answer I Q s := by
  induction p generalizing s with
  | ret a => exact rest a s start holds
  | call _ _ ih => exact fun d => ⟨(holds d).1, ih _ (holds d).2 (holds d).1⟩

theorem Holds.still (holds : p.Holds answer (· = s) R s) (start : I s) :
    p.Holds answer I (fun a s' => s' = s ∧ R a s) s := by
  have along : ∀ {p : Prog C A α} {s' : σ}, s' = s → p.Holds answer (· = s) R s' →
      p.Holds answer I (fun a s' => s' = s ∧ R a s) s' := by
    intro p
    induction p with
    | ret =>
      rintro s' rfl holds
      exact ⟨rfl, holds⟩
    | call _ _ ih =>
      rintro _ rfl holds d
      refine ⟨?_, ih _ (holds d).1 (holds d).2⟩
      rw [(holds d).1]
      exact start
  exact along rfl holds

end Runs

end Prog

/-! ### Methods -/

/-- A program on an object of type `μ` that may fail with an `ε`. -/
def Method (C : Type u) (A : C → Type u) (μ ε α : Type u) : Type u :=
  μ → Prog C A (Except ε α × μ)

namespace Method

variable {C : Type u} {A : C → Type u} {μ ε α β : Type u} {σ D : Type u}

instance : Monad (Method C A μ ε) where
  pure a := fun m => pure (.ok a, m)
  bind x f := fun m => do
    match ← x m with
    | (.ok a, m') => f a m'
    | (.error e, m') => pure (.error e, m')

/-- The error of a program is the error of the method. -/
def lift (p : Prog C A (Except ε α)) : Method C A μ ε α := fun m => do
  let result ← p
  return (result, m)

/-- A program that cannot fail. -/
def liftM (p : Prog C A α) : Method C A μ ε α := fun m => do
  let a ← p
  return (.ok a, m)

def get : Method C A μ ε μ := fun m => pure (.ok m, m)

def modify (f : μ → μ) : Method C A μ ε PUnit := fun m => pure (.ok ⟨⟩, f m)

/-- Runs a method and hands its error on as a value. -/
def result (x : Method C A μ ε α) : Method C A μ ε (Except ε α) := fun m => do
  let (value, m') ← x m
  return (.ok value, m')

def throw (e : ε) : Method C A μ ε α := fun m => pure (.error e, m)

section Rules

variable {answer : σ → (c : C) → D → σ × A c} {I : σ → Prop}

def Holds (answer : σ → (c : C) → D → σ × A c) (I : σ → Prop)
    (Q : Except ε α → μ → σ → Prop) (x : Method C A μ ε α) (m : μ) (s : σ) : Prop :=
  (x m).Holds answer I (fun result => Q result.1 result.2) s

variable {Q R : Except ε α → μ → σ → Prop} {m : μ} {s : σ}

theorem holds_pure {a : α} (post : Q (.ok a) m s) : Holds answer I Q (pure a) m s := post

theorem holds_throw {e : ε} (post : Q (.error e) m s) : Holds answer I Q (throw e) m s := post

variable {p : Prog C A (Except ε α)}

theorem holds_lift (holds : p.Holds answer I (fun result => Q result m) s) (start : I s) :
    Holds answer I Q (lift p) m s :=
  Prog.Holds.bind holds start fun _ _ _ post => post

theorem holds_liftM {p : Prog C A α} (holds : p.Holds answer I (fun a => Q (.ok a) m) s)
    (start : I s) : Holds answer I Q (liftM p) m s :=
  Prog.Holds.bind holds start fun _ _ _ post => post

variable {x : Method C A μ ε α}

theorem holds_result {Q : Except ε (Except ε α) → μ → σ → Prop}
    (holds : Holds answer I (fun value => Q (.ok value)) x m s) (start : I s) :
    Holds answer I Q (result x) m s :=
  Prog.Holds.bind holds start fun _ _ _ post => post

theorem Holds.mono (holds : Holds answer I R x m s) (start : I s)
    (imp : ∀ result m' s', I s' → R result m' s' → Q result m' s') : Holds answer I Q x m s :=
  Prog.Holds.mono holds start fun result s' => imp result.1 result.2 s'

theorem Holds.bind {f : α → Method C A μ ε β} {Q : Except ε β → μ → σ → Prop}
    (holds : Holds answer I R x m s) (start : I s)
    (rest : ∀ a m' s', I s' → R (.ok a) m' s' → Holds answer I Q (f a) m' s')
    (fails : ∀ e m' s', I s' → R (.error e) m' s' → Q (.error e) m' s') :
    Holds answer I Q (x >>= f) m s := by
  refine Prog.Holds.bind holds start fun result s' kept post => ?_
  obtain ⟨result, m'⟩ := result
  cases result with
  | ok a => exact rest a m' s' kept post
  | error e => exact fails e m' s' kept post

variable {f : α → Method C A μ ε β} {Q' : Except ε β → μ → σ → Prop}

theorem holds_liftM_bind {p : Prog C A α}
    (holds : p.Holds answer I (fun a s' => Holds answer I Q' (f a) m s') s) (start : I s) :
    Holds answer I Q' (liftM p >>= f) m s := by
  refine Holds.bind (R := fun result m' s' => ∃ a, result = .ok a ∧ m' = m ∧
    Holds answer I Q' (f a) m s') ?_ start ?_ ?_
  · exact holds_liftM (holds.mono start fun a s' _ rest => ⟨a, rfl, rfl, rest⟩) start
  · rintro _ m' s' _ ⟨_, same, rfl, rest⟩
    cases same
    exact rest
  rintro _ _ _ _ ⟨_, same, _, _⟩
  cases same

theorem holds_lift_bind (holds : p.Holds answer I (fun result s' => match result with
      | .ok a => Holds answer I Q' (f a) m s'
      | .error e => Q' (.error e) m s') s) (start : I s) :
    Holds answer I Q' (lift p >>= f) m s := by
  refine Holds.bind (R := fun result m' s' => m' = m ∧ match result with
    | .ok a => Holds answer I Q' (f a) m s'
    | .error e => Q' (.error e) m s') ?_ start ?_ ?_
  · exact holds_lift (holds.mono start fun _ s' _ rest => ⟨rfl, rest⟩) start
  · rintro _ m' s' _ ⟨rfl, rest⟩
    exact rest
  rintro _ _ _ _ ⟨rfl, post⟩
  exact post

theorem holds_get_bind {f : μ → Method C A μ ε β} (rest : Holds answer I Q' (f m) m s) :
    Holds answer I Q' (get >>= f) m s := rest

theorem holds_modify_bind {g : μ → μ} {f : PUnit → Method C A μ ε β}
    (rest : Holds answer I Q' (f ⟨⟩) (g m) s) : Holds answer I Q' (modify g >>= f) m s := rest

end Rules

end Method
