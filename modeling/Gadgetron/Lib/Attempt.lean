import Mathlib.Data.List.Basic

/-!
# Computations that may stop in the middle

An attempt works on a state and ends with a value or an error; what it has changed by then stays
changed, there is no going back.
-/

namespace Lib

/-- A computation on a state that may stop with an error and leaves the state as it is then. -/
def Attempt (σ ε α : Type) := σ → Except ε α × σ

namespace Attempt

variable {σ ε α β : Type}

def pure (a : α) : Attempt σ ε α := fun s => (.ok a, s)

def throw (e : ε) : Attempt σ ε α := fun s => (.error e, s)

def bind (x : Attempt σ ε α) (f : α → Attempt σ ε β) : Attempt σ ε β := fun s =>
  match x s with
  | (.ok a, s') => f a s'
  | (.error e, s') => (.error e, s')

instance : Monad (Attempt σ ε) where
  pure := pure
  bind := bind

/-- Go on with the handler, in the state that the error has left. -/
def handle (x : Attempt σ ε α) (handler : ε → Attempt σ ε α) : Attempt σ ε α := fun s =>
  match x s with
  | (.ok a, s') => (.ok a, s')
  | (.error e, s') => handler e s'

def step (f : σ → Except ε (α × σ)) : Attempt σ ε α := fun s =>
  match f s with
  | .ok (a, s') => (.ok a, s')
  | .error e => (.error e, s)

def lift (x : Except ε α) : Attempt σ ε α := fun s => (x, s)

/-! ## Values -/

section

variable {x : Attempt σ ε α} {f : α → Attempt σ ε β} {s s' : σ} {a : α} {e : ε}

theorem bind_run_ok (h : x s = (.ok a, s')) : (x >>= f) s = f a s' := by
  change bind x f s = f a s'
  rw [bind, h]

theorem bind_run_error (h : x s = (.error e, s')) : (x >>= f) s = (.error e, s') := by
  change bind x f s = (.error e, s')
  rw [bind, h]

variable {g : σ → Except ε (α × σ)}

theorem step_run_ok (h : g s = .ok (a, s')) : step g s = (.ok a, s') := by
  rw [step, h]

theorem step_run_error (h : g s = .error e) : step g s = (.error e, s) := by
  rw [step, h]

end

/-! ## What is ensured -/

/-- From a state with `P` the end is a value and a state with `Q`, or an error and a state with
`E`. -/
def Ensures (P : σ → Prop) (x : Attempt σ ε α) (Q : α → σ → Prop) (E : ε → σ → Prop) : Prop :=
  ∀ s, P s → match x s with
    | (.ok a, s') => Q a s'
    | (.error e, s') => E e s'

section

variable {P P' R : σ → Prop} {x : Attempt σ ε α} {f : α → Attempt σ ε β} {Q : α → σ → Prop}
  {Q' : β → σ → Prop} {E F : ε → σ → Prop}

theorem Ensures.pure {a : α} (h : ∀ s, P s → Q a s) :
    Ensures P (Pure.pure a : Attempt σ ε α) Q E := fun s hs => h s hs

theorem Ensures.throw {e : ε} (h : ∀ s, P s → E e s) :
    Ensures P (Attempt.throw e : Attempt σ ε α) Q E := fun s hs => h s hs

theorem Ensures.bind (hx : Ensures P x Q E) (hf : ∀ a, Ensures (Q a) (f a) Q' E) :
    Ensures P (x >>= f) Q' E := by
  intro s hs
  have hrun := hx s hs
  cases h : x s with
  | mk result s' =>
    rw [h] at hrun
    cases result with
    | ok a =>
      rw [bind_run_ok h]
      exact hf a s' hrun
    | error e =>
      rw [bind_run_error h]
      exact hrun

theorem Ensures.handle {handler : ε → Attempt σ ε α} (hx : Ensures P x Q F)
    (hhandler : ∀ e, Ensures (F e) (handler e) Q E) : Ensures P (handle x handler) Q E := by
  intro s hs
  have hrun := hx s hs
  unfold Attempt.handle
  cases h : x s with
  | mk result s' =>
    rw [h] at hrun
    cases result with
    | ok a => exact hrun
    | error e => exact hhandler e s' hrun

theorem Ensures.step {g : σ → Except ε (α × σ)} (hok : ∀ s a s', P s → g s = .ok (a, s') → Q a s')
    (herror : ∀ s e, P s → g s = .error e → E e s) : Ensures P (step g) Q E := by
  intro s hs
  cases h : g s with
  | ok result =>
    rw [step_run_ok h]
    exact hok s result.1 result.2 hs h
  | error e =>
    rw [step_run_error h]
    exact herror s e hs h

theorem Ensures.lift {y : Except ε α} (hok : ∀ a s, y = .ok a → P s → Q a s)
    (herror : ∀ e s, y = .error e → P s → E e s) : Ensures P (lift y : Attempt σ ε α) Q E := by
  intro s hs
  cases y with
  | ok a => exact hok a s rfl hs
  | error e => exact herror e s rfl hs

theorem Ensures.mono (h : Ensures P x Q E) (hP : ∀ s, P' s → P s) {Q₁ : α → σ → Prop}
    (hQ : ∀ a s, Q a s → Q₁ a s) (hE : ∀ e s, E e s → F e s) : Ensures P' x Q₁ F := by
  intro s hs
  have hrun := h s (hP s hs)
  cases hx : x s with
  | mk result s' =>
    rw [hx] at hrun
    cases result with
    | ok a => exact hQ a s' hrun
    | error e => exact hE e s' hrun

theorem Ensures.and {P₁ P₂ : σ → Prop} {Q₁ Q₂ : α → σ → Prop} {E₁ E₂ : ε → σ → Prop}
    (h₁ : Ensures P₁ x Q₁ E₁) (h₂ : Ensures P₂ x Q₂ E₂) :
    Ensures (fun s => P₁ s ∧ P₂ s) x (fun a s => Q₁ a s ∧ Q₂ a s) (fun e s => E₁ e s ∧ E₂ e s) := by
  intro s hs
  have hrun₁ := h₁ s hs.1
  have hrun₂ := h₂ s hs.2
  cases hx : x s with
  | mk result s' =>
    rw [hx] at hrun₁ hrun₂
    cases result with
    | ok | error => exact ⟨hrun₁, hrun₂⟩

theorem Ensures.of_run {s s' : σ} {a : α} (h : x s = (.ok a, s')) :
    Ensures (· = s) x (fun b t => b = a ∧ t = s') E := by
  rintro t rfl
  rw [h]
  exact ⟨rfl, rfl⟩

theorem Ensures.run_of_eq {s : σ} (h : Ensures (· = s) x Q (fun _ _ => False)) :
    ∃ a s', x s = (.ok a, s') ∧ Q a s' := by
  have hrun := h s rfl
  cases hx : x s with
  | mk result s' =>
    rw [hx] at hrun
    cases result with
    | ok a => exact ⟨a, s', rfl, hrun⟩
    | error e => exact hrun.elim

theorem Ensures.state (h : Ensures P x (fun _ => R) (fun _ => R)) {s : σ} (hs : P s) :
    R (x s).2 := by
  have hrun := h s hs
  cases hx : x s with
  | mk result s' =>
    rw [hx] at hrun
    cases result with
    | ok | error => exact hrun

end

end Attempt

end Lib
