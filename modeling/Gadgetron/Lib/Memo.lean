import Mathlib.Logic.Function.Basic
import Mathlib.Data.Nat.Basic

/-!
# A memo slot shared by calls

Calls look a result up in a slot; a call that finds nothing acts and then records its result.
-/

namespace Lib

/-- Where a call on the slot is; `ρ` are the results. -/
inductive MemoPhase (ρ : Type*)
  | pending
  | acted (result : ρ)
  | returned (result : ρ)
  | failed

/-- The recorded result, the calls, and how many of them have acted with success. -/
structure Memo (ρ : Type*) where
  recorded : Option ρ
  calls : ℕ → Option (MemoPhase ρ)
  successes : ℕ

namespace Memo

variable {ρ : Type*} {m m' : Memo ρ} {n : ℕ} {result : ρ}

def setCall (m : Memo ρ) (n : ℕ) (phase : MemoPhase ρ) : Memo ρ :=
  { m with calls := Function.update m.calls n (some phase) }

/-- Between a lookup that found nothing and the end of the call. -/
def InFlight (m : Memo ρ) (n : ℕ) : Prop :=
  m.calls n = some .pending ∨ ∃ result, m.calls n = some (.acted result)

inductive Step (m : Memo ρ) : Memo ρ → Prop
  | stay : Step m m
  | refuse (n : ℕ) (fresh : m.calls n = none) : Step m (m.setCall n .failed)
  | hit (n : ℕ) (result : ρ) (fresh : m.calls n = none) (found : m.recorded = some result) :
      Step m (m.setCall n (.returned result))
  | miss (n : ℕ) (fresh : m.calls n = none) (nothing : m.recorded = none)
      (exclusive : ∀ k, ¬ m.InFlight k) : Step m (m.setCall n .pending)
  | fail (n : ℕ) (pending : m.calls n = some .pending) : Step m (m.setCall n .failed)
  | act (n : ℕ) (result : ρ) (count : ℕ) (pending : m.calls n = some .pending)
      (once : count ≤ 1) :
      Step m { m.setCall n (.acted result) with successes := m.successes + count }
  | record (n : ℕ) (result : ρ) (acted : m.calls n = some (.acted result)) :
      Step m { m.setCall n (.returned result) with recorded := some result }

/-- How far the slot has come. -/
inductive Progress (m : Memo ρ) : Prop
  | idle (nothing : m.recorded = none) (successes : m.successes = 0)
      (acted : ∀ n result, m.calls n ≠ some (.acted result))
      (returned : ∀ n result, m.calls n ≠ some (.returned result))
  | acting (n : ℕ) (result : ρ) (nothing : m.recorded = none) (successes : m.successes ≤ 1)
      (acted : m.calls n = some (.acted result))
      (returned : ∀ n result, m.calls n ≠ some (.returned result))
  | settled (result : ρ) (found : m.recorded = some result) (successes : m.successes ≤ 1)
      (ended : ∀ n, ¬ m.InFlight n)
      (returned : ∀ n other, m.calls n = some (.returned other) → other = result)

/-- At most one call is between its lookup and its end. -/
structure Once (m : Memo ρ) : Prop where
  single : ∀ n k, m.InFlight n → m.InFlight k → n = k
  progress : m.Progress

theorem setCall_self (m : Memo ρ) (n : ℕ) (phase : MemoPhase ρ) :
    (m.setCall n phase).calls n = some phase :=
  Function.update_self ..

theorem setCall_of_ne (m : Memo ρ) {n k : ℕ} (phase : MemoPhase ρ) (h : k ≠ n) :
    (m.setCall n phase).calls k = m.calls k :=
  Function.update_of_ne h ..

theorem setCall_cases {phase other : MemoPhase ρ} {k : ℕ}
    (h : (m.setCall n phase).calls k = some other) :
    k = n ∧ other = phase ∨ k ≠ n ∧ m.calls k = some other := by
  by_cases hk : k = n
  · subst hk
    rw [setCall_self] at h
    exact Or.inl ⟨rfl, (Option.some.inj h).symm⟩
  · rw [setCall_of_ne m phase hk] at h
    exact Or.inr ⟨hk, h⟩

theorem inFlight_setCall {phase : MemoPhase ρ} {k : ℕ} (h : (m.setCall n phase).InFlight k) :
    k = n ∧ (phase = .pending ∨ ∃ result, phase = .acted result) ∨ k ≠ n ∧ m.InFlight k := by
  rcases h with hpending | ⟨result, hacted⟩
  · rcases setCall_cases hpending with ⟨rfl, hphase⟩ | ⟨hk, hcall⟩
    · exact Or.inl ⟨rfl, Or.inl hphase.symm⟩
    · exact Or.inr ⟨hk, Or.inl hcall⟩
  · rcases setCall_cases hacted with ⟨rfl, hphase⟩ | ⟨hk, hcall⟩
    · exact Or.inl ⟨rfl, Or.inr ⟨result, hphase.symm⟩⟩
    · exact Or.inr ⟨hk, Or.inr ⟨result, hcall⟩⟩

/-! ## The invariant -/

theorem once_initial : (⟨none, fun _ => none, 0⟩ : Memo ρ).Once := by
  refine ⟨fun n k hn => ?_, .idle rfl rfl (fun _ _ h => ?_) fun _ _ h => ?_⟩
  · rcases hn with h | ⟨result, h⟩ <;> cases h
  · cases h
  · cases h

section

variable (h : m.Once)

include h

theorem Once.failed (hn : m.calls n = none ∨ m.calls n = some .pending) :
    (m.setCall n .failed).Once := by
  have hflight : ∀ k, (m.setCall n .failed).InFlight k → m.InFlight k := by
    intro k hk
    rcases inFlight_setCall hk with ⟨-, hphase | ⟨result, hphase⟩⟩ | ⟨-, hk⟩
    · cases hphase
    · cases hphase
    · exact hk
  have hcall : ∀ k phase, (m.setCall n .failed).calls k = some phase → phase ≠ .failed →
      m.calls k = some phase := by
    intro k phase hk hphase
    rcases setCall_cases hk with ⟨-, heq⟩ | ⟨-, hk⟩
    · exact absurd heq hphase
    · exact hk
  refine ⟨fun k l hk hl => h.single k l (hflight k hk) (hflight l hl), ?_⟩
  cases h.progress with
  | idle nothing successes acted returned =>
    exact .idle nothing successes (fun k r hk => acted k r (hcall k _ hk nofun))
      fun k r hk => returned k r (hcall k _ hk nofun)
  | acting k r nothing successes acted returned =>
    have hne : k ≠ n := by
      rintro rfl
      rw [acted] at hn
      rcases hn with hn | hn <;> cases hn
    exact .acting k r nothing successes ((setCall_of_ne m _ hne).trans acted)
      fun k r hk => returned k r (hcall k _ hk nofun)
  | settled r found successes ended returned =>
    exact .settled r found successes (fun k hk => ended k (hflight k hk))
      fun k other hk => returned k other (hcall k _ hk nofun)

theorem Once.hit (found : m.recorded = some result) :
    (m.setCall n (.returned result)).Once := by
  have hflight : ∀ k, (m.setCall n (.returned result)).InFlight k → m.InFlight k := by
    intro k hk
    rcases inFlight_setCall hk with ⟨-, hphase | ⟨r, hphase⟩⟩ | ⟨-, hk⟩
    · cases hphase
    · cases hphase
    · exact hk
  refine ⟨fun k l hk hl => h.single k l (hflight k hk) (hflight l hl), ?_⟩
  cases h.progress with
  | idle nothing | acting _ _ nothing =>
    rw [found] at nothing
    cases nothing
  | settled r found' successes ended returned =>
    refine .settled r found' successes (fun k hk => ended k (hflight k hk)) fun k other hk => ?_
    rcases setCall_cases hk with ⟨-, heq⟩ | ⟨-, hk⟩
    · cases heq
      exact Option.mem_unique found found'
    · exact returned k other hk

theorem Once.miss (nothing : m.recorded = none) (exclusive : ∀ k, ¬ m.InFlight k) :
    (m.setCall n .pending).Once := by
  refine ⟨fun k l hk hl => ?_, ?_⟩
  · rcases inFlight_setCall hk with ⟨rfl, -⟩ | ⟨-, hk⟩
    · rcases inFlight_setCall hl with ⟨rfl, -⟩ | ⟨-, hl⟩
      · rfl
      · exact absurd hl (exclusive l)
    · exact absurd hk (exclusive k)
  · cases h.progress with
    | idle _ successes acted returned =>
      refine .idle nothing successes (fun k r hk => ?_) fun k r hk => ?_
      · rcases setCall_cases hk with ⟨-, heq⟩ | ⟨-, hk⟩
        · cases heq
        · exact acted k r hk
      · rcases setCall_cases hk with ⟨-, heq⟩ | ⟨-, hk⟩
        · cases heq
        · exact returned k r hk
    | acting k r _ _ acted _ => exact absurd (Or.inr ⟨r, acted⟩) (exclusive k)
    | settled r found _ _ _ =>
      rw [found] at nothing
      cases nothing

theorem Once.act {count : ℕ} (pending : m.calls n = some .pending) (once : count ≤ 1) :
    ({ m.setCall n (.acted result) with successes := m.successes + count } : Memo ρ).Once := by
  have hn : m.InFlight n := Or.inl pending
  refine ⟨fun k l hk hl => ?_, ?_⟩
  · have hflight : ∀ k, (m.setCall n (.acted result)).InFlight k → m.InFlight k := by
      intro k hk
      rcases inFlight_setCall hk with ⟨rfl, -⟩ | ⟨-, hk⟩
      · exact hn
      · exact hk
    exact h.single k l (hflight k hk) (hflight l hl)
  · cases h.progress with
    | idle nothing successes acted returned =>
      refine .acting n result nothing ?_ (setCall_self ..) fun k r hk => ?_
      · show m.successes + count ≤ 1
        omega
      · rcases setCall_cases hk with ⟨-, heq⟩ | ⟨-, hk⟩
        · cases heq
        · exact returned k r hk
    | acting k r _ _ acted _ =>
      have heq : k = n := h.single k n (Or.inr ⟨r, acted⟩) hn
      rw [heq, pending] at acted
      cases acted
    | settled r _ _ ended _ => exact absurd hn (ended n)

theorem Once.record (acted : m.calls n = some (.acted result)) :
    ({ m.setCall n (.returned result) with recorded := some result } : Memo ρ).Once := by
  have hn : m.InFlight n := Or.inr ⟨result, acted⟩
  have hflight : ∀ k, ¬ (m.setCall n (.returned result)).InFlight k := by
    intro k hk
    rcases inFlight_setCall hk with ⟨-, hphase | ⟨r, hphase⟩⟩ | ⟨hne, hk⟩
    · cases hphase
    · cases hphase
    · exact hne (h.single k n hk hn)
  refine ⟨fun k l hk => absurd hk (hflight k), ?_⟩
  cases h.progress with
  | idle _ _ none _ => exact absurd acted (none n result)
  | acting k r _ successes _ returned =>
    refine .settled result rfl successes hflight fun k other hk => ?_
    rcases setCall_cases hk with ⟨-, heq⟩ | ⟨-, hk⟩
    · cases heq
      rfl
    · exact absurd hk (returned k other)
  | settled r _ _ ended _ => exact absurd hn (ended n)

theorem Once.step (hstep : m.Step m') : m'.Once := by
  cases hstep with
  | stay => exact h
  | refuse n fresh => exact h.failed (Or.inl fresh)
  | hit n result _ found => exact h.hit found
  | miss n _ nothing exclusive => exact h.miss nothing exclusive
  | fail n pending => exact h.failed (Or.inr pending)
  | act n result count pending once => exact h.act pending once
  | record n result acted => exact h.record acted

theorem Once.successes_le_one : m.successes ≤ 1 := by
  cases h.progress with
  | idle _ successes _ _ => omega
  | acting _ _ _ successes | settled _ _ successes => exact successes

theorem Once.returned_eq {k : ℕ} {other : ρ}
    (hn : m.calls n = some (.returned result)) (hk : m.calls k = some (.returned other)) :
    result = other := by
  cases h.progress with
  | idle _ _ _ returned | acting _ _ _ _ _ returned => exact absurd hn (returned n result)
  | settled r _ _ _ returned => rw [returned n result hn, returned k other hk]

end

end Memo

end Lib
