import Mathlib.Data.List.Basic

/-!
# Computations on a store

A computation on a store that may fail, and that leaves the store as it is then; in a transaction a
failure takes the store back to the beginning.
-/

namespace Lib

def Action (ε σ α : Type) : Type := σ → Except ε α × σ

namespace Action

variable {ε σ α β : Type}

instance : Monad (Action ε σ) where
  pure a := fun s => (.ok a, s)
  bind x f := fun s =>
    match x s with
    | (.ok a, s') => f a s'
    | (.error e, s') => (.error e, s')

def fail (e : ε) : Action ε σ α := fun s => (.error e, s)

def read (f : σ → α) : Action ε σ α := fun s => (.ok (f s), s)

def modify (f : σ → σ) : Action ε σ Unit := fun s => (.ok (), f s)

def ofExcept (x : Except ε α) : Action ε σ α := fun s => (x, s)

def transaction (x : Action ε σ α) : Action ε σ α := fun s =>
  match x s with
  | (.ok a, s') => (.ok a, s')
  | (.error e, _) => (.error e, s)

/-- A value comes with `Q`, and a failure leaves a store with `E`. -/
def Ensures (x : Action ε σ α) (s : σ) (Q : α → σ → Prop) (E : σ → Prop) : Prop :=
  match x s with
  | (.ok a, s') => Q a s'
  | (.error _, s') => E s'

variable {x : Action ε σ α} {f : α → Action ε σ β} {s s' : σ} {Q Q' : α → σ → Prop}
  {R : β → σ → Prop} {E E' : σ → Prop} {a : α} {e : ε}

theorem Ensures.of_ok (h : Ensures x s Q E) (hx : x s = (.ok a, s')) : Q a s' := by
  unfold Ensures at h
  rwa [hx] at h

theorem Ensures.of_error (h : Ensures x s Q E) (hx : x s = (.error e, s')) : E s' := by
  unfold Ensures at h
  rwa [hx] at h

theorem Ensures.mono (h : Ensures x s Q E) (hQ : ∀ a s', Q a s' → Q' a s')
    (hE : ∀ s', E s' → E' s') : Ensures x s Q' E' := by
  unfold Ensures at h ⊢
  split at h
  · exact hQ _ _ h
  · exact hE _ h

theorem Ensures.always {I : σ → Prop} (h : Ensures x s (fun _ => I) I) : I (x s).2 := by
  unfold Ensures at h
  split at h <;> simp_all

theorem Ensures.of_forall (hQ : ∀ a s', Q a s') (hE : ∀ s', E s') : Ensures x s Q E := by
  unfold Ensures
  split
  · exact hQ _ _
  · exact hE _

theorem ensures_pure (h : Q a s) : Ensures (pure a : Action ε σ α) s Q E := h

theorem ensures_fail (h : E s) : Ensures (fail e : Action ε σ α) s Q E := h

theorem ensures_read {g : σ → α} (h : Q (g s) s) : Ensures (read g : Action ε σ α) s Q E := h

theorem ensures_modify {g : σ → σ} {U : Unit → σ → Prop} (h : U () (g s)) :
    Ensures (modify g : Action ε σ Unit) s U E := h

theorem ensures_ofExcept {y : Except ε α} (hok : ∀ a, y = .ok a → Q a s) (herror : E s) :
    Ensures (ofExcept y) s Q E := by
  cases y with
  | ok a => exact hok a rfl
  | error e => exact herror

theorem bind_of_ok (h : x s = (.ok a, s')) : (x >>= f) s = f a s' := by
  change (match x s with
    | (.ok a, s') => f a s'
    | (.error e, s') => (.error e, s')) = f a s'
  rw [h]

theorem bind_of_error (h : x s = (.error e, s')) : (x >>= f) s = (.error e, s') := by
  change (match x s with
    | (.ok a, s') => f a s'
    | (.error e, s') => (.error e, s')) = (.error e, s')
  rw [h]

theorem Ensures.bind (h : Ensures x s (fun a s' => Ensures (f a) s' R E) E) :
    Ensures (x >>= f) s R E := by
  unfold Ensures at h
  split at h
  · rename_i a s' hx
    unfold Ensures
    rw [bind_of_ok hx]
    exact h
  · rename_i e s' hx
    unfold Ensures
    rw [bind_of_error hx]
    exact h

theorem Ensures.transaction (h : Ensures x s Q fun _ => E s) : Ensures (transaction x) s Q E := by
  unfold Ensures at h
  unfold Ensures Action.transaction
  split at h
  · exact h
  · exact h

theorem ensures_forM {g : α → Action ε σ Unit} {l : List α} {I : List α → σ → Prop} (hinit : I [] s)
    (hstep : ∀ done a rest s, l = done ++ a :: rest → I done s →
      Ensures (g a) s (fun _ => I (done ++ [a])) E) : Ensures (forM l g) s (fun _ => I l) E := by
  suffices hfrom : ∀ rest done s, l = done ++ rest → I done s →
      Ensures (forM rest g) s (fun _ => I l) E from hfrom l [] s rfl hinit
  intro rest
  induction rest with
  | nil =>
    intro done s hl hdone
    rw [List.append_nil] at hl
    exact ensures_pure (hl ▸ hdone)
  | cons a rest ih =>
    intro done s hl hdone
    rw [List.forM_cons]
    refine Ensures.bind ((hstep done a rest s hl hdone).mono (fun _ s' hs' => ?_) fun _ h => h)
    exact ih (done ++ [a]) s' (by rw [hl, List.append_assoc]; rfl) hs'

/-! ## Where a failure leaves the store -/

variable {γ : Type} {y : Action ε σ γ} {g : α → Action ε σ γ}

def FailsAs (x : Action ε σ α) (y : Action ε σ γ) (s : σ) : Prop :=
  ∀ e s', x s = (.error e, s') → (y s).2 = s'

theorem FailsAs.bind_congr (h : ∀ a s', FailsAs (f a) (g a) s') :
    FailsAs (x >>= f) (x >>= g) s := by
  intro e s' hf
  rcases hx : x s with ⟨r, s₁⟩
  cases r with
  | ok a =>
    rw [bind_of_ok hx] at hf ⊢
    exact h a s₁ e s' hf
  | error e₁ =>
    rw [bind_of_error hx] at hf ⊢
    exact (Prod.mk.inj hf).2

theorem FailsAs.of_atomic (h : ∀ a s', Ensures (f a) s' (fun _ _ => True) (· = s')) :
    FailsAs (x >>= f) x s := by
  intro e s' hf
  rcases hx : x s with ⟨r, s₁⟩
  cases r with
  | ok a =>
    rw [bind_of_ok hx] at hf
    exact ((h a s₁).of_error hf).symm
  | error e₁ =>
    rw [bind_of_error hx] at hf
    exact (Prod.mk.inj hf).2

theorem FailsAs.bind_of_total (hxy : FailsAs x y s)
    (h : ∀ a s', Ensures (f a) s' (fun _ _ => True) fun _ => False) : FailsAs (x >>= f) y s := by
  intro e s' hf
  rcases hx : x s with ⟨r, s₁⟩
  cases r with
  | ok a =>
    rw [bind_of_ok hx] at hf
    exact ((h a s₁).of_error hf).elim
  | error e₁ =>
    rw [bind_of_error hx] at hf
    exact (Prod.mk.inj hf).2 ▸ hxy e₁ s₁ hx

end Action

end Lib
