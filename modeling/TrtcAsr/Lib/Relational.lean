/-
  Two programs side by side: computations with a state that may be left by an exception,
  and a relation of the states of two of them.

  `Agrees R p q`: from related states, `p` and `q` end alike (they return the same value or
  throw the same exception) in related states.  There is one rule for each way to build a
  program, and one for a change of the state that only one side makes.
-/
import Mathlib.Logic.Basic

namespace TrtcAsr

variable {ε σ τ α β : Type}

/-- A change of the state. -/
def change (f : σ → σ) : EStateM ε σ Unit := fun s => .ok () (f s)

/-- `try`/`catch`: what the program did to the state before it threw is kept. -/
def handle (p : EStateM ε σ α) (h : ε → EStateM ε σ α) : EStateM ε σ α := fun s =>
  match p s with
  | .ok a s => .ok a s
  | .error e s => h e s

/-- Two ends of a run that are alike. -/
inductive Alike (R : σ → τ → Prop) : EStateM.Result ε σ α → EStateM.Result ε τ α → Prop where
  | ok (a : α) {s : σ} {t : τ} (h : R s t) : Alike R (.ok a s) (.ok a t)
  | error (e : ε) {s : σ} {t : τ} (h : R s t) : Alike R (.error e s) (.error e t)

/-- The programs end alike, in related states. -/
def Agrees (R : σ → τ → Prop) (p : EStateM ε σ α) (q : EStateM ε τ α) : Prop :=
  ∀ s t, R s t → Alike R (p s) (q t)

theorem EStateM.bind_apply (p : EStateM ε σ α) (f : α → EStateM ε σ β) (s : σ) :
    (p >>= f) s = match p s with
      | .ok a s => f a s
      | .error e s => .error e s := rfl

namespace Agrees

variable {R : σ → τ → Prop} {p : EStateM ε σ α} {q : EStateM ε τ α}

theorem pure (a : α) : Agrees R (pure a : EStateM ε σ α) (pure a) := fun _ _ h => .ok a h

theorem throw (e : ε) : Agrees R (throw e : EStateM ε σ α) (throw e) := fun _ _ h => .error e h

theorem changes {f : σ → σ} {g : τ → τ} (h : ∀ s t, R s t → R (f s) (g t)) :
    Agrees R (change f : EStateM ε σ Unit) (change g) := fun s t hst => .ok () (h s t hst)

theorem bind {f : α → EStateM ε σ β} {g : α → EStateM ε τ β} (h : Agrees R p q)
    (hk : ∀ a, Agrees R (f a) (g a)) : Agrees R (p >>= f) (q >>= g) := by
  intro s t hst
  have hpq := h s t hst
  rw [EStateM.bind_apply, EStateM.bind_apply]
  generalize p s = rp at hpq
  generalize q t = rq at hpq
  cases hpq with
  | ok a hrel => exact hk a _ _ hrel
  | error e hrel => exact .error e hrel

theorem handles {f : ε → EStateM ε σ α} {g : ε → EStateM ε τ α} (h : Agrees R p q)
    (hk : ∀ e, Agrees R (f e) (g e)) : Agrees R (handle p f) (handle q g) := by
  intro s t hst
  have hpq := h s t hst
  unfold handle
  generalize p s = rp at hpq
  generalize q t = rq at hpq
  cases hpq with
  | ok a hrel => exact .ok a hrel
  | error e hrel => exact hk e _ _ hrel

theorem ite {c : Prop} [Decidable c] {p' : EStateM ε σ α} {q' : EStateM ε τ α}
    (h : Agrees R p q) (h' : Agrees R p' q') :
    Agrees R (if c then p else p') (if c then q else q') := by
  by_cases hc : c
  · rw [if_pos hc, if_pos hc]
    exact h
  · rw [if_neg hc, if_neg hc]
    exact h'

/-- The left program changes its state first. -/
theorem left {f : σ → σ} (hf : ∀ s t, R s t → R (f s) t) (h : Agrees R p q) :
    Agrees R (change f >>= fun _ => p) q :=
  fun s t hst => h _ t (hf s t hst)

end Agrees

end TrtcAsr
