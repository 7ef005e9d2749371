import Mathlib.Data.List.Basic
import Mathlib.Data.List.Induction

/-!
# Executions

`Fault` names the ways a run can stop without a value: a failed `expect`, an unsigned subtraction
below zero, or a loop that used up the iterations it was given.
-/

namespace Lib

open List Option

inductive Fault
  | expect (message : String)
  | subtractOverflow
  | outOfFuel

/-! ## Computations that may fail -/

section

variable {ε α β : Type} {x : Except ε α} {f : α → Except ε β}

theorem bind_eq_ok {b : β} : x >>= f = .ok b ↔ ∃ a, x = .ok a ∧ f a = .ok b := by
  rcases x with e | a
  · simp [bind, Except.bind]
  · simp [bind, Except.bind]

theorem bind₂_eq_ok {γ : Type} {g : α → β → Except ε γ} {c : γ} :
    (x >>= fun a => f a >>= g a) = .ok c ↔
      ∃ a, x = .ok a ∧ ∃ b, f a = .ok b ∧ g a b = .ok c := by
  simp only [bind_eq_ok]

theorem map_eq_ok {f : α → β} {b : β} : x.map f = .ok b ↔ ∃ a, x = .ok a ∧ f a = b := by
  cases x with
  | error | ok => simp [Except.map]

theorem map_eq_error {f : α → β} {e : ε} : x.map f = .error e ↔ x = .error e := by
  cases x with
  | error | ok => simp [Except.map]

variable {a : α}

theorem toOption_eq_some : x.toOption = some a ↔ x = .ok a := by
  cases x with
  | error | ok => simp [Except.toOption]

variable {δ : Type}

theorem mapError_eq_ok {f : ε → δ} : x.mapError f = .ok a ↔ x = .ok a := by
  cases x with
  | error | ok => simp [Except.mapError]

theorem mapError_eq_error {f : ε → δ} {d : δ} :
    x.mapError f = .error d ↔ ∃ e, x = .error e ∧ f e = d := by
  cases x with
  | error | ok => simp [Except.mapError]

theorem bind_eq_error {e : ε} :
    x >>= f = .error e ↔ x = .error e ∨ ∃ a, x = .ok a ∧ f a = .error e := by
  rcases x with e' | a
  · simp [bind, Except.bind]
  · simp [bind, Except.bind]

variable {l : List α}

theorem foldlM_invariant {f : β → α → Except ε β} {I : β → Prop}
    (hf : ∀ b a b', I b → f b a = .ok b' → I b') {b b' : β} (hb : I b)
    (h : l.foldlM f b = .ok b') : I b' := by
  induction l generalizing b with
  | nil =>
    cases h
    exact hb
  | cons a l ih =>
    rw [foldlM_cons] at h
    obtain ⟨b₁, hb₁, hrest⟩ := bind_eq_ok.1 h
    exact ih (hf b a b₁ hb hb₁) hrest

theorem exists_step_of_foldlM {f : β → α → Except ε β} {b b' : β}
    (h : l.foldlM f b = .ok b') (ha : a ∈ l) : ∃ x y, f x a = .ok y := by
  induction l generalizing b with
  | nil => cases ha
  | cons c l ih =>
    rw [foldlM_cons] at h
    obtain ⟨b₁, hb₁, hrest⟩ := bind_eq_ok.1 h
    rcases mem_cons.1 ha with rfl | ha
    · exact ⟨b, b₁, hb₁⟩
    · exact ih hrest ha

theorem exists_ok_of_mapM {l' : List β}
    (h : l.mapM f = .ok l') (ha : a ∈ l) : ∃ b ∈ l', f a = .ok b := by
  induction l generalizing l' with
  | nil => cases ha
  | cons c l ih =>
    rw [mapM_cons] at h
    obtain ⟨b, hb, h⟩ := bind_eq_ok.1 h
    obtain ⟨rest, hrest, h⟩ := bind_eq_ok.1 h
    cases h
    rcases mem_cons.1 ha with rfl | ha
    · exact ⟨b, mem_cons_self, hb⟩
    · obtain ⟨b', hb', hfa⟩ := ih hrest ha
      exact ⟨b', mem_cons_of_mem _ hb', hfa⟩

theorem exists_mapM_of_forall (h : ∀ a ∈ l, ∃ b, f a = .ok b) : ∃ l', l.mapM f = .ok l' := by
  induction l with
  | nil => exact ⟨[], rfl⟩
  | cons a l ih =>
    obtain ⟨b, hb⟩ := h a mem_cons_self
    obtain ⟨l', hl'⟩ := ih fun c hc => h c (mem_cons_of_mem a hc)
    refine ⟨b :: l', ?_⟩
    rw [mapM_cons]
    exact bind_eq_ok.2 ⟨b, hb, bind_eq_ok.2 ⟨l', hl', rfl⟩⟩

/-- Every error that a computation can end with meets `P`. -/
def ErrorsMeet (P : ε → Prop) (x : Except ε α) : Prop := ∀ e, x = .error e → P e

theorem ErrorsMeet.ok (P : ε → Prop) (a : α) : ErrorsMeet P (.ok a) := fun e h => by cases h

variable {P : ε → Prop}

theorem ErrorsMeet.error {e : ε} (he : P e) : ErrorsMeet P (.error e : Except ε α) := by
  intro e' h
  cases h
  exact he

theorem ErrorsMeet.bind
    (hx : ErrorsMeet P x) (hf : ∀ a, ErrorsMeet P (f a)) : ErrorsMeet P (x >>= f) := by
  intro e h
  rcases x with e' | a
  · exact hx e (by simpa [Bind.bind, Except.bind] using h)
  · exact hf a e h

theorem ErrorsMeet.mapError {f : δ → ε} (hf : ∀ d, P (f d))
    (x : Except δ α) : ErrorsMeet P (x.mapError f) := by
  intro e h
  rcases x with d | a
  · cases h
    exact hf d
  · cases h

theorem forM_eq_ok {f : α → Except ε Unit} : forM l f = .ok () ↔ ∀ a ∈ l, f a = .ok () := by
  induction l with
  | nil => simp [pure, Except.pure]
  | cons a l ih =>
    rw [forM_cons, bind_eq_ok, forall_mem_cons, ← ih]
    exact ⟨fun ⟨_, ha, hl⟩ => ⟨ha, hl⟩, fun ⟨ha, hl⟩ => ⟨(), ha, hl⟩⟩

end

/-! ## Machines -/

instance decidableEqError {ε α : Type*} [DecidableEq ε] {x : Except ε α} {e : ε} :
    Decidable (x = .error e) :=
  match x with
  | .error e' => decidable_of_iff (e' = e) ⟨congrArg _, fun h => by injection h⟩
  | .ok _ => .isFalse nofun

/-- What holds of the value of a computation is decided by computing it. -/
instance decidableExistsEqSome {α : Type*} {o : Option α} {p : α → Prop} [DecidablePred p] :
    Decidable (∃ a, o = some a ∧ p a) :=
  match o with
  | none => .isFalse fun ⟨_, h, _⟩ => nomatch h
  | some a => decidable_of_iff (p a) ⟨fun h => ⟨a, rfl, h⟩, fun ⟨_, h, hp⟩ => some.inj h ▸ hp⟩

/-- A labelled transition system in which the label determines the step. -/
structure Machine (σ ι : Type*) where
  step : σ → ι → Option σ

namespace Machine

variable {σ ι : Type*} (M : Machine σ ι)

def exec (s : σ) : List ι → Option σ
  | [] => some s
  | a :: as => (M.step s a).bind fun s' => exec s' as

@[simp] theorem exec_nil (s : σ) : M.exec s [] = some s := rfl

variable {as : List ι} {s t : σ}

theorem exec_cons_eq_some {a : ι} :
    M.exec s (a :: as) = some t ↔ ∃ s', M.step s a = some s' ∧ M.exec s' as = some t :=
  bind_eq_some_iff

variable {as bs : List ι}

theorem exec_append_eq_some :
    M.exec s (as ++ bs) = some t ↔ ∃ s', M.exec s as = some s' ∧ M.exec s' bs = some t := by
  induction as generalizing s with
  | nil => simp
  | cons a as ih =>
    simp only [cons_append, exec_cons_eq_some, ih]
    constructor
    · rintro ⟨s₁, h₁, s₂, h₂, h₃⟩
      exact ⟨s₂, ⟨s₁, h₁, h₂⟩, h₃⟩
    · rintro ⟨s₂, ⟨s₁, h₁, h₂⟩, h₃⟩
      exact ⟨s₁, h₁, s₂, h₂, h₃⟩

/-- Every step of the schedule meets the condition `C` in the state in which it is taken. -/
def Meets (C : σ → ι → Prop) (s : σ) : List ι → Prop
  | [] => True
  | a :: as => C s a ∧ ∀ s', M.step s a = some s' → Meets C s' as

variable {C : σ → ι → Prop}

theorem Meets.of_append {s s' : σ}
    (h : M.Meets C s (as ++ bs)) (hrun : M.exec s as = some s') : M.Meets C s' bs := by
  induction as generalizing s with
  | nil =>
    cases hrun
    exact h
  | cons a as ih =>
    obtain ⟨s₁, hs₁, hrest⟩ := M.exec_cons_eq_some.1 hrun
    exact ih (h.2 s₁ hs₁) hrest

variable {s : σ}

theorem Meets.append_left (h : M.Meets C s (as ++ bs)) : M.Meets C s as := by
  induction as generalizing s with
  | nil => trivial
  | cons a as ih => exact ⟨h.1, fun s' hs' => ih (h.2 s' hs')⟩

theorem Meets.append {s s' : σ} (has : M.Meets C s as)
    (hrun : M.exec s as = some s') (hbs : M.Meets C s' bs) : M.Meets C s (as ++ bs) := by
  induction as generalizing s with
  | nil =>
    cases hrun
    exact hbs
  | cons a as ih =>
    obtain ⟨s₁, hs₁, hrest⟩ := M.exec_cons_eq_some.1 hrun
    refine ⟨has.1, fun s₂ hs₂ => ?_⟩
    rw [hs₁] at hs₂
    cases hs₂
    exact ih (has.2 s₁ hs₁) hrest

theorem Meets.cons {s s' : σ} {a : ι} (hC : C s a)
    (hstep : M.step s a = some s') (h : M.Meets C s' as) : M.Meets C s (a :: as) := by
  refine ⟨hC, fun s₁ hs₁ => ?_⟩
  rw [hstep] at hs₁
  cases hs₁
  exact h

theorem Meets.and {C D : σ → ι → Prop} (hC : M.Meets C s as)
    (hD : M.Meets D s as) : M.Meets (fun s a => C s a ∧ D s a) s as := by
  induction as generalizing s with
  | nil => trivial
  | cons a as ih => exact ⟨⟨hC.1, hD.1⟩, fun s' hs' => ih (hC.2 s' hs') (hD.2 s' hs')⟩

theorem Meets.and_forall {D : ι → Prop}
    (h : M.Meets C s as) (hD : ∀ a ∈ as, D a) : M.Meets (fun s a => C s a ∧ D a) s as := by
  induction as generalizing s with
  | nil => trivial
  | cons a as ih =>
    refine ⟨⟨h.1, hD a mem_cons_self⟩, fun s' hs' => ih (h.2 s' hs') ?_⟩
    exact fun b hb => hD b (mem_cons_of_mem a hb)

def meetsTest (test : σ → ι → Bool) (s : σ) : List ι → Bool
  | [] => true
  | a :: as => test s a && (M.step s a).all fun s' => meetsTest test s' as

theorem meets_of_meetsTest {test : σ → ι → Bool}
    (htest : ∀ s a, test s a → C s a) (h : M.meetsTest test s as) : M.Meets C s as := by
  induction as generalizing s with
  | nil => trivial
  | cons a as ih =>
    obtain ⟨ha, hrest⟩ := Bool.and_eq_true_iff.1 h
    refine ⟨htest s a ha, fun s' hs' => ih ?_⟩
    rwa [hs', all_some] at hrest

theorem meets_true (as : List ι) (s : σ) : M.Meets (fun _ _ => True) s as := by
  induction as generalizing s with
  | nil => trivial
  | cons a as ih => exact ⟨trivial, fun s' _ => ih s'⟩

theorem meets_of_forall {K : ι → Prop} (h : ∀ a ∈ as, K a) (s : σ) :
    M.Meets (fun _ a => K a) s as := by
  induction as generalizing s with
  | nil => trivial
  | cons a as ih =>
    exact ⟨h a mem_cons_self, fun s' _ => ih (fun b hb => h b (mem_cons_of_mem a hb)) s'⟩

variable {I : σ → Prop}

theorem invariant_of_meets (hstep : ∀ s a s', I s → C s a → M.step s a = some s' → I s')
    (hI : I s) (hC : M.Meets C s as) (h : M.exec s as = some t) : I t := by
  induction as generalizing s with
  | nil =>
    cases h
    exact hI
  | cons a as ih =>
    obtain ⟨s', hs', ht⟩ := M.exec_cons_eq_some.1 h
    exact ih (hstep s a s' hI hC.1 hs') (hC.2 s' hs') ht

theorem history_of_meets {I : List ι → σ → Prop} (hI : I [] s)
    (hstep : ∀ as a s₁ s₂, M.exec s as = some s₁ → I as s₁ → C s₁ a → M.step s₁ a = some s₂ →
      I (as ++ [a]) s₂) {t : σ} (hC : M.Meets C s as) (h : M.exec s as = some t) : I as t := by
  induction as using List.reverseRecOn generalizing t with
  | nil =>
    cases h
    exact hI
  | append_singleton as a ih =>
    obtain ⟨s₁, hs₁, hlast⟩ := M.exec_append_eq_some.1 h
    obtain ⟨s₂, hs₂, rfl⟩ : ∃ s₂, M.step s₁ a = some s₂ ∧ s₂ = t := by
      simpa [exec_cons_eq_some] using hlast
    exact hstep as a s₁ s₂ hs₁ (ih hC.append_left hs₁) (hC.of_append M hs₁).1 hs₂

theorem invariant (hstep : ∀ s a s', I s → M.step s a = some s' → I s') (hI : I s)
    (h : M.exec s as = some t) : I t :=
  M.invariant_of_meets (fun s a s' hs _ hs' => hstep s a s' hs hs') hI (M.meets_true as s) h

theorem history {I : List ι → σ → Prop} (hI : I [] s)
    (hstep : ∀ as a s₁ s₂, M.exec s as = some s₁ → I as s₁ → M.step s₁ a = some s₂ →
      I (as ++ [a]) s₂) {t : σ} (h : M.exec s as = some t) : I as t :=
  M.history_of_meets hI (fun as a s₁ s₂ hrun hs _ hs₂ => hstep as a s₁ s₂ hrun hs hs₂)
    (M.meets_true as s) h

def record {ε : Type*} (f : σ → ι → List ε) (s : σ) : List ι → List ε
  | [] => []
  | a :: as => f s a ++ ((M.step s a).map fun s' => record f s' as).getD []

theorem record_of_meets {ε : Type*} {f : σ → ι → List ε} {I : List ε → σ → Prop}
    (hstep : ∀ l s a s', I l s → C s a → M.step s a = some s' → I (l ++ f s a) s') {l : List ε}
    (hI : I l s) (hC : M.Meets C s as) (h : M.exec s as = some t) : I (l ++ M.record f s as) t := by
  induction as generalizing s l with
  | nil =>
    cases h
    rw [record, append_nil]
    exact hI
  | cons a as ih =>
    obtain ⟨s', hs', ht⟩ := M.exec_cons_eq_some.1 h
    rw [record, hs', map_some, getD_some, ← List.append_assoc]
    exact ih (hstep l s a s' hI hC.1 hs') (hC.2 s' hs') ht

/-- The rule for a condition that is exact: if a step from a state with `P` leads to one with `P`
just when it meets `C`, all steps of a run meet `C` just when all its states have `P`.  What is
known of all states and all labels of the run may be used. -/
theorem meets_iff_forall_reached_of {K : ι → Prop} {I P : σ → Prop}
    (hinv : ∀ s a s', I s → K a → M.step s a = some s' → I s')
    (hstep : ∀ s a s', I s → P s → K a → M.step s a = some s' → (P s' ↔ C s a)) (hI : I s)
    (hs : P s) (hK : ∀ a ∈ as, K a) (hrun : M.exec s as = some t) :
    M.Meets C s as ↔ ∀ bs s', bs <+: as → M.exec s bs = some s' → P s' := by
  induction as generalizing s with
  | nil =>
    refine iff_of_true trivial fun bs s' hbs h => ?_
    rw [prefix_nil.1 hbs] at h
    cases h
    exact hs
  | cons a as ih =>
    obtain ⟨s₁, hs₁, hrest⟩ := M.exec_cons_eq_some.1 hrun
    have ha : K a := hK a mem_cons_self
    have hI₁ : I s₁ := hinv s a s₁ hI ha hs₁
    have hK₁ : ∀ b ∈ as, K b := fun b hb => hK b (mem_cons_of_mem a hb)
    constructor
    · rintro ⟨hC, hmeets⟩ bs s' hbs h
      have hP₁ := (hstep s a s₁ hI hs ha hs₁).2 hC
      cases bs with
      | nil =>
        cases h
        exact hs
      | cons b bs =>
        obtain ⟨rfl, htail⟩ := cons_prefix_cons.1 hbs
        obtain ⟨s₂, hs₂, h⟩ := M.exec_cons_eq_some.1 h
        obtain rfl := mem_unique hs₁ hs₂
        exact (ih hI₁ hP₁ hK₁ hrest).1 (hmeets s₁ hs₁) bs s' htail h
    · intro hall
      have hP₁ : P s₁ := hall [a] s₁ (cons_prefix_cons.2 ⟨rfl, nil_prefix⟩)
        (M.exec_cons_eq_some.2 ⟨s₁, hs₁, rfl⟩)
      refine ⟨(hstep s a s₁ hI hs ha hs₁).1 hP₁, fun s₂ hs₂ => ?_⟩
      obtain rfl := mem_unique hs₁ hs₂
      refine (ih hI₁ hP₁ hK₁ hrest).2 fun bs s' hbs h => ?_
      exact hall (a :: bs) s' (cons_prefix_cons.2 ⟨rfl, hbs⟩) (M.exec_cons_eq_some.2 ⟨s₁, hs₁, h⟩)

theorem meets_iff_forall_reached {P : σ → Prop}
    (hstep : ∀ s a s', P s → M.step s a = some s' → (P s' ↔ C s a))
    (hs : P s) (hrun : M.exec s as = some t) :
    M.Meets C s as ↔ ∀ bs s', bs <+: as → M.exec s bs = some s' → P s' :=
  M.meets_iff_forall_reached_of (K := fun _ => True) (I := fun _ => True)
    (fun _ _ _ _ _ _ => trivial) (fun s a s' _ hP _ h => hstep s a s' hP h) trivial hs
    (fun _ _ => trivial) hrun

theorem meets_congr_of_meets {K C D : σ → ι → Prop}
    (hstep : ∀ s a s', I s → K s a → M.step s a = some s' → I s')
    (hiff : ∀ s a s', I s → K s a → M.step s a = some s' → (C s a ↔ D s a))
    (hI : I s) (hK : M.Meets K s as) (hrun : M.exec s as = some t) :
    M.Meets C s as ↔ M.Meets D s as := by
  induction as generalizing s with
  | nil => rfl
  | cons a as ih =>
    obtain ⟨s₁, hs₁, hrest⟩ := M.exec_cons_eq_some.1 hrun
    refine and_congr (hiff s a s₁ hI hK.1 hs₁) (forall₂_congr fun s₂ hs₂ => ?_)
    obtain rfl := mem_unique hs₁ hs₂
    exact ih (hstep s a s₁ hI hK.1 hs₁) (hK.2 s₁ hs₁) hrest

theorem meets_congr {C D : σ → ι → Prop} (hstep : ∀ s a s', I s → M.step s a = some s' → I s')
    (hiff : ∀ s a s', I s → M.step s a = some s' → (C s a ↔ D s a))
    (hI : I s) (hrun : M.exec s as = some t) : M.Meets C s as ↔ M.Meets D s as :=
  M.meets_congr_of_meets (fun s a s' hs _ => hstep s a s' hs) (fun s a s' hs _ => hiff s a s' hs) hI
    (M.meets_true as s) hrun

theorem exists_exec_of_rank (I done : σ → Prop) (own : ι → Prop) (rank : σ → ℕ)
    (hprogress : ∀ s, I s → ¬ done s → ∃ as s', (∀ a ∈ as, own a) ∧ M.exec s as = some s' ∧
      I s' ∧ rank s' < rank s) (hI : I s) :
    ∃ as t, (∀ a ∈ as, own a) ∧ M.exec s as = some t ∧ I t ∧ done t := by
  induction hn : rank s using Nat.strongRecOn generalizing s with
  | ind n ih =>
    by_cases hdone : done s
    · exact ⟨[], s, nofun, rfl, hI, hdone⟩
    · obtain ⟨as, s', hown, hrun, hI', hlt⟩ := hprogress s hI hdone
      obtain ⟨bs, t, hown', hrun', hIt, hdone'⟩ := ih (rank s') (hn ▸ hlt) hI' rfl
      refine ⟨as ++ bs, t, ?_, M.exec_append_eq_some.2 ⟨s', hrun, hrun'⟩, hIt, hdone'⟩
      intro a ha
      rcases mem_append.1 ha with h | h
      · exact hown a h
      · exact hown' a h

end Machine

end Lib
