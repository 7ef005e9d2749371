import Gadgetron.Lib.Exec

/-!
# Programs that read a store

A query is a sequence of statements, each of which reads the store as it is at its moment; `run`
answers it on a store that does not change.
-/

namespace Lib

/-- A program that reads a store one statement after the other. -/
inductive Reads (σ ε α : Type)
  | done (result : α)
  | fail (error : ε)
  | read (next : σ → Reads σ ε α)

namespace Reads

variable {σ ε α β : Type}

def bind (program : Reads σ ε α) (f : α → Reads σ ε β) : Reads σ ε β :=
  match program with
  | done a => f a
  | fail e => fail e
  | read next => read fun s => (next s).bind f

instance : Monad (Reads σ ε) where
  pure := done
  bind := bind

/-- What a statement has found, or why it failed. -/
def ofExcept : Except ε α → Reads σ ε α
  | .ok a => done a
  | .error e => fail e

def statement (f : σ → Except ε α) : Reads σ ε α := read fun s => ofExcept (f s)

/-- The answer where the store does not change. -/
def run (s : σ) : Reads σ ε α → Except ε α
  | done a => .ok a
  | fail e => .error e
  | read next => (next s).run s

@[simp] theorem run_ofExcept (s : σ) (x : Except ε α) : (ofExcept x).run s = x := by
  cases x with
  | ok | error => rfl

@[simp] theorem run_statement (s : σ) (f : σ → Except ε α) : (statement f).run s = f s :=
  run_ofExcept s (f s)

@[simp] theorem run_bind (s : σ) (program : Reads σ ε α) (f : α → Reads σ ε β) :
    (program >>= f).run s = program.run s >>= fun a => (f a).run s := by
  change (program.bind f).run s = _
  induction program with
  | done | fail => rfl
  | read next ih => exact ih s

theorem run_bind_eq_ok {s : σ} {program : Reads σ ε α} {f : α → Reads σ ε β} {b : β} :
    (program >>= f).run s = .ok b ↔ ∃ a, program.run s = .ok a ∧ (f a).run s = .ok b := by
  rw [run_bind, bind_eq_ok]

end Reads

end Lib
