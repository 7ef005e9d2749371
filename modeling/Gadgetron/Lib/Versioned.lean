import Mathlib.Data.List.Basic

/-!
# Values with versions

A value that is replaced under a new version each time: what was seen of it under a version holds
again whenever it has that version, since no version comes back.
-/

namespace Lib

structure Versioned (ν α : Type*) where
  version : ν
  past : List ν
  value : α

namespace Versioned

variable {ν α : Type*} {s : Versioned ν α} {v v' : ν} {P Q : α → Prop}

def Knows (s : Versioned ν α) (v : ν) : Prop := v = s.version ∨ v ∈ s.past

instance [DecidableEq ν] (s : Versioned ν α) (v : ν) : Decidable (s.Knows v) :=
  inferInstanceAs (Decidable (_ ∨ _))

def commit (s : Versioned ν α) (v : ν) (a : α) : Versioned ν α where
  version := v
  past := s.version :: s.past
  value := a

/-- The version is a known one under which the value has `P`. -/
structure Seen (s : Versioned ν α) (v : ν) (P : α → Prop) : Prop where
  knows : s.Knows v
  holds : s.version = v → P s.value

theorem knows_version (s : Versioned ν α) : s.Knows s.version := .inl rfl

theorem Knows.commit (h : s.Knows v) (v' : ν) (a : α) : (s.commit v' a).Knows v := by
  rcases h with rfl | h
  · exact .inr List.mem_cons_self
  · exact .inr (List.mem_cons_of_mem _ h)

theorem Seen.commit (h : s.Seen v P) (hfresh : ¬ s.Knows v') (a : α) :
    (s.commit v' a).Seen v P where
  knows := h.knows.commit v' a
  holds hv := by
    change v' = v at hv
    exact absurd (hv ▸ h.knows) hfresh

theorem Seen.and (hP : s.Seen v P) (hQ : s.Seen v Q) : s.Seen v fun a => P a ∧ Q a where
  knows := hP.knows
  holds hv := ⟨hP.holds hv, hQ.holds hv⟩

theorem Seen.mono (h : s.Seen v P) (hPQ : ∀ a, P a → Q a) : s.Seen v Q where
  knows := h.knows
  holds hv := hPQ _ (h.holds hv)

theorem Knows.seen (h : s.Knows v) (hP : P s.value) : s.Seen v P := ⟨h, fun _ => hP⟩

end Versioned

end Lib
