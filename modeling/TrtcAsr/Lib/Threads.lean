/-
  Threads over a shared state, and the rely-guarantee rule.

  A thread is a program `step`: what it does next in a shared state, given its local
  state and the choices of its environment.  A pool of threads takes the steps of its
  threads in any order; a step may start another thread.

  * `Threads.pool` is the pool as a transition system.
  * `RelyGuarantee I A G`: every step keeps the invariant `I` and the assertion `A` of
    its own thread and stays within the guarantee `G`, and what one thread guarantees
    leaves the assertions of the others true.
  * `RelyGuarantee.run`: then `I` and all assertions hold after every run.
  * `RelyGuarantee.extend`: a second such proof may use the first one.
-/
import Mathlib.Logic.Function.Basic
import TrtcAsr.Lib.Transition

namespace TrtcAsr

universe u v w x

/-- What a step of a thread leads to. -/
structure Outcome (σ : Type u) (L : Type v) (ε : Type w) where
  shared : σ
  next : L
  spawned : Option (ℕ × L) := none
  events : List ε := []

/-- A program for the threads; `idle` is what a thread is before it is started. -/
structure Threads (σ : Type u) (L : Type v) (α : Type x) (ε : Type w) where
  step : ℕ → σ → L → α → Option (Outcome σ L ε)
  idle : L → Bool

/-- The shared state and the local states of all threads. -/
structure Pool (σ : Type u) (L : Type v) where
  shared : σ
  threads : ℕ → L

variable {σ : Type u} {L : Type v} {α : Type x} {ε : Type w}

namespace Threads

variable (P : Threads σ L α ε)

/-- A step of thread `i`; a thread that it starts has to be another one and idle. -/
def poolStep (p : Pool σ L) (a : ℕ × α) : Option (Pool σ L × List ε) :=
  match P.step a.1 p.shared (p.threads a.1) a.2 with
  | none => none
  | some o =>
    let threads := Function.update p.threads a.1 o.next
    match o.spawned with
    | none => some ({ shared := o.shared, threads }, o.events)
    | some (j, l) =>
      if j ≠ a.1 ∧ P.idle (p.threads j) then
        some ({ shared := o.shared, threads := Function.update threads j l }, o.events)
      else none

def pool : Lts (Pool σ L) (ℕ × α) ε := ⟨P.poolStep⟩

variable {P}

/-- What a step of the pool leaves for each thread. -/
theorem poolStep_cases {p p' : Pool σ L} {i : ℕ} {a : α} {es : List ε}
    (h : P.poolStep p (i, a) = some (p', es)) :
    ∃ o, P.step i p.shared (p.threads i) a = some o ∧ p'.shared = o.shared ∧ es = o.events ∧
      ∀ j, (j = i ∧ p'.threads j = o.next) ∨
        (j ≠ i ∧ ∃ l, o.spawned = some (j, l) ∧ P.idle (p.threads j) ∧ p'.threads j = l) ∨
        (j ≠ i ∧ p'.threads j = p.threads j) := by
  unfold poolStep at h
  cases ho : P.step i p.shared (p.threads i) a with
  | none => rw [ho] at h; cases h
  | some o =>
    simp only [ho] at h
    cases hs : o.spawned with
    | none =>
      simp only [hs] at h
      cases h
      refine ⟨o, rfl, rfl, rfl, fun j => ?_⟩
      by_cases hj : j = i
      · exact .inl ⟨hj, by rw [hj]; exact Function.update_self ..⟩
      · exact .inr (.inr ⟨hj, Function.update_of_ne hj ..⟩)
    | some jl =>
      obtain ⟨k, l⟩ := jl
      simp only [hs] at h
      split at h
      swap
      · cases h
      rename_i hk
      cases h
      refine ⟨o, rfl, rfl, rfl, fun j => ?_⟩
      by_cases hj : j = k
      · refine .inr (.inl ⟨hj ▸ hk.1, l, by rw [hs, hj], hj ▸ hk.2, ?_⟩)
        rw [hj]; exact Function.update_self ..
      · by_cases hji : j = i
        · refine .inl ⟨hji, ?_⟩
          have h1 : Function.update (Function.update p.threads i o.next) k l j =
              Function.update p.threads i o.next j := Function.update_of_ne hj ..
          exact h1.trans (by rw [hji]; exact Function.update_self ..)
        · refine .inr (.inr ⟨hji, ?_⟩)
          have h1 : Function.update (Function.update p.threads i o.next) k l j =
              Function.update p.threads i o.next j := Function.update_of_ne hj ..
          exact h1.trans (Function.update_of_ne hji ..)

end Threads

/-- Histories and shared states. -/
abbrev Inv (σ : Type u) (ε : Type w) := List ε → σ → Prop

/-- Assertions of a thread on the history, the shared state and its local state. -/
abbrev Assertion (σ : Type u) (L : Type v) (ε : Type w) := ℕ → List ε → σ → L → Prop

/-- What a step of a thread may do to the shared state, with the events it emits. -/
abbrev Guarantee (σ : Type u) (ε : Type w) := ℕ → List ε → σ → List ε → σ → Prop

/-- The obligations of one step `o` of thread `i`. -/
structure StepKeeps (I : Inv σ ε) (A : Assertion σ L ε) (G : Guarantee σ ε) (i : ℕ) (tr : List ε)
    (s : σ) (o : Outcome σ L ε) : Prop where
  inv : I (tr ++ o.events) o.shared
  own : A i (tr ++ o.events) o.shared o.next
  guar : G i tr s o.events o.shared
  spawned : ∀ j l, o.spawned = some (j, l) → A j (tr ++ o.events) o.shared l

structure RelyGuarantee (P : Threads σ L α ε) (I : Inv σ ε) (A : Assertion σ L ε)
    (G : Guarantee σ ε) : Prop where
  step : ∀ {i tr s l a o}, I tr s → A i tr s l → P.step i s l a = some o → StepKeeps I A G i tr s o
  stable : ∀ {i j tr s es s' l}, j ≠ i → I tr s → A j tr s l → G i tr s es s' → A j (tr ++ es) s' l

namespace RelyGuarantee

variable {P : Threads σ L α ε} {I I₁ : Inv σ ε} {A A₁ : Assertion σ L ε} {G G₁ : Guarantee σ ε}

/-- **The rely-guarantee rule.** -/
theorem run (h : RelyGuarantee P I A G) {as : List (ℕ × α)} {p p' : Pool σ L} {tr : List ε}
    (hi : I [] p.shared) (ha : ∀ i, A i [] p.shared (p.threads i))
    (hr : P.pool.run p as = some (p', tr)) :
    I tr p'.shared ∧ ∀ i, A i tr p'.shared (p'.threads i) := by
  refine Lts.run_invariant (I := fun tr p => I tr p.shared ∧ ∀ i, A i tr p.shared (p.threads i))
    ?_ ⟨hi, ha⟩ hr
  rintro tr p ⟨i, a⟩ p' es ⟨hi, ha⟩ hs
  obtain ⟨o, ho, hsh, rfl, hthreads⟩ := Threads.poolStep_cases hs
  have hk := h.step hi (ha i) ho
  rw [hsh]
  refine ⟨hk.inv, fun j => ?_⟩
  rcases hthreads j with ⟨rfl, hj⟩ | ⟨-, l, hspawn, -, hj⟩ | ⟨hne, hj⟩
  · rw [hj]; exact hk.own
  · rw [hj]; exact hk.spawned j l hspawn
  · rw [hj]; exact h.stable hne hi (ha j) hk.guar

/-- **A second proof on top of a first one**: its obligations may assume the first one's. -/
theorem extend (h : RelyGuarantee P I A G)
    (hstep : ∀ {i tr s l a o}, I tr s → A i tr s l → StepKeeps I A G i tr s o →
      I₁ tr s → A₁ i tr s l → P.step i s l a = some o → StepKeeps I₁ A₁ G₁ i tr s o)
    (hstable : ∀ {i j tr s es s' l}, j ≠ i → I tr s → A j tr s l → G i tr s es s' →
      I₁ tr s → A₁ j tr s l → G₁ i tr s es s' → A₁ j (tr ++ es) s' l) :
    RelyGuarantee P (fun tr s => I tr s ∧ I₁ tr s) (fun i tr s l => A i tr s l ∧ A₁ i tr s l)
      (fun i tr s es s' => G i tr s es s' ∧ G₁ i tr s es s') where
  step := by
    rintro i tr s l a o ⟨hi, hi₁⟩ ⟨ha, ha₁⟩ ho
    have hk := h.step hi ha ho
    have hk₁ := hstep hi ha hk hi₁ ha₁ ho
    exact ⟨⟨hk.inv, hk₁.inv⟩, ⟨hk.own, hk₁.own⟩, ⟨hk.guar, hk₁.guar⟩,
      fun j l hs => ⟨hk.spawned j l hs, hk₁.spawned j l hs⟩⟩
  stable := by
    rintro i j tr s es s' l hne ⟨hi, hi₁⟩ ⟨ha, ha₁⟩ ⟨hg, hg₁⟩
    exact ⟨h.stable hne hi ha hg, hstable hne hi ha hg hi₁ ha₁ hg₁⟩

end RelyGuarantee

end TrtcAsr
