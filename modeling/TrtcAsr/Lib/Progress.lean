/-
  Progress of a pool of threads: steps that lower a sum of ranks.

  * `Supported S`: the threads of a pool outside the finite set `S` are idle; it grows by at most
    two threads a step.
  * `weight`: the sum of the ranks of the threads of `S`; `exists_lower_step` turns a step of one
    thread that lowers its rank, and no other one, into a step of the pool that lowers the weight.
-/
import Mathlib.Algebra.Order.BigOperators.Group.Finset
import Mathlib.Data.Fintype.EquivFin
import TrtcAsr.Lib.Threads

namespace TrtcAsr

universe u v w x

namespace Threads

variable {σ : Type u} {L : Type v} {α : Type x} {ε : Type w} {P : Threads σ L α ε}

/-- The thread that a step starts was idle, and is what it is started as. -/
theorem poolStep_spawned {p p' : Pool σ L} {i k : ℕ} {a : α} {es : List ε} {o : Outcome σ L ε} {l : L}
    (h : P.pool.step p (i, a) = some (p', es)) (ho : P.step i p.shared (p.threads i) a = some o)
    (hl : o.spawned = some (k, l)) : k ≠ i ∧ P.idle (p.threads k) = true ∧ p'.threads k = l := by
  have hstep : P.poolStep p (i, a) = some (p', es) := h
  simp only [poolStep, ho, hl] at hstep
  split at hstep
  · rename_i hk
    cases hstep
    exact ⟨hk.1, hk.2, Function.update_self ..⟩
  · cases hstep

/-- The threads outside `S` are idle. -/
def Supported (P : Threads σ L α ε) (S : Finset ℕ) (p : Pool σ L) : Prop :=
  ∀ i ∉ S, P.idle (p.threads i) = true

/-- The sum of the ranks of the threads of `S`. -/
def weight (rank : σ → L → ℕ) (S : Finset ℕ) (p : Pool σ L) : ℕ :=
  ∑ i ∈ S, rank p.shared (p.threads i)

/-- The thread that steps, and one that it starts, are all that can cease to be idle. -/
theorem Supported.step {S : Finset ℕ} {p p' : Pool σ L} {i : ℕ} {a : α} {es : List ε}
    (h : P.Supported S p) (hs : P.pool.step p (i, a) = some (p', es)) :
    ∃ S', S ⊆ S' ∧ P.Supported S' p' := by
  obtain ⟨o, -, -, -, hthreads⟩ := poolStep_cases hs
  have hout : ∀ j ∉ insert i S, p'.threads j = p.threads j ∨ ∃ l, o.spawned = some (j, l) := by
    intro j hj
    rcases hthreads j with ⟨rfl, -⟩ | ⟨-, l, hl, -⟩ | ⟨-, heq⟩
    · exact absurd (Finset.mem_insert_self j S) hj
    · exact .inr ⟨l, hl⟩
    · exact .inl heq
  have hold : ∀ j ∉ insert i S, P.idle (p.threads j) = true :=
    fun j hj => h j fun hm => hj (Finset.mem_insert_of_mem hm)
  cases hsp : o.spawned with
  | none =>
    refine ⟨insert i S, Finset.subset_insert i S, fun j hj => ?_⟩
    rcases hout j hj with heq | ⟨l, hl⟩
    · rw [heq]
      exact hold j hj
    · rw [hsp] at hl
      cases hl
  | some jl =>
    obtain ⟨k, l⟩ := jl
    refine ⟨insert k (insert i S),
      (Finset.subset_insert i S).trans (Finset.subset_insert k _), fun j hj => ?_⟩
    obtain ⟨hjk, hj⟩ : j ≠ k ∧ j ∉ insert i S := by
      rw [Finset.mem_insert, not_or] at hj
      exact hj
    rcases hout j hj with heq | ⟨l', hl⟩
    · rw [heq]
      exact hold j hj
    · rw [hsp] at hl
      cases hl
      exact absurd rfl hjk

/-- Only finitely many threads are not idle after a run from a pool of idle threads. -/
theorem exists_supported {p p' : Pool σ L} {as : List (ℕ × α)} {tr : List ε}
    (h : ∀ i, P.idle (p.threads i) = true) (hr : P.pool.run p as = some (p', tr)) :
    ∃ S, P.Supported S p' := by
  refine Lts.run_invariant (I := fun _ p => ∃ S, P.Supported S p) ?_ ⟨∅, fun i _ => h i⟩ hr
  rintro - p ⟨i, a⟩ p' es ⟨S, hS⟩ hs
  obtain ⟨S', -, hS'⟩ := hS.step hs
  exact ⟨S', hS'⟩

/-- The rank that the thread started by a step adds. -/
def spawnRank (rank : σ → L → ℕ) (o : Outcome σ L ε) : ℕ :=
  match o.spawned with
  | none => 0
  | some (_, l) => rank o.shared l

/-- **A step that lowers the weight**: the thread pays for the one it starts, which is a new one,
    and the ranks of the others do not grow. -/
theorem exists_lower_step {rank : σ → L → ℕ} {S : Finset ℕ} {p : Pool σ L} {i : ℕ} {a : α}
    {o : Outcome σ L ε} (hS : P.Supported S p) (hi : i ∈ S)
    (ho : P.step i p.shared (p.threads i) a = some o)
    (hnew : ∀ j l, o.spawned = some (j, l) → j ∉ S)
    (hothers : ∀ l, rank o.shared l ≤ rank p.shared l)
    (hown : rank o.shared o.next + spawnRank rank o < rank p.shared (p.threads i)) :
    ∃ p' S', P.pool.step p (i, a) = some (p', o.events) ∧ P.Supported S' p' ∧
      weight rank S' p' < weight rank S p := by
  have hstep : P.pool.step p (i, a) = P.poolStep p (i, a) := rfl
  -- the other threads of `S` keep their states, and their ranks do not grow
  have hrest : ∀ f : ℕ → L, (∀ j ∈ S, j ≠ i → f j = p.threads j) → f i = o.next →
      ∑ j ∈ S, rank o.shared (f j) + spawnRank rank o < weight rank S p := by
    intro f hf hfi
    rw [weight, ← Finset.add_sum_erase S _ hi,
      ← Finset.add_sum_erase S (fun j => rank p.shared (p.threads j)) hi, hfi]
    have hle : ∑ j ∈ S.erase i, rank o.shared (f j) ≤ ∑ j ∈ S.erase i, rank p.shared (p.threads j) := by
      refine Finset.sum_le_sum fun j hj => ?_
      obtain ⟨hne, hj⟩ := Finset.mem_erase.1 hj
      rw [hf j hj hne]
      exact hothers _
    omega
  cases hsp : o.spawned with
  | none =>
    refine ⟨⟨o.shared, Function.update p.threads i o.next⟩, S, ?_, fun j hj => ?_, ?_⟩
    · rw [hstep]
      simp only [poolStep, ho, hsp]
    · have hne : j ≠ i := fun heq => hj (heq ▸ hi)
      show P.idle (Function.update p.threads i o.next j) = true
      rw [Function.update_of_ne hne]
      exact hS j hj
    · have h := hrest (Function.update p.threads i o.next)
        (fun j _ hne => Function.update_of_ne hne ..) (Function.update_self ..)
      exact lt_of_le_of_lt (Nat.le_add_right _ _) h
  | some jl =>
    obtain ⟨k, l⟩ := jl
    have hk := hnew k l hsp
    have hki : k ≠ i := fun heq => hk (heq ▸ hi)
    have hsr : spawnRank rank o = rank o.shared l := by
      simp only [spawnRank, hsp]
    refine ⟨⟨o.shared, Function.update (Function.update p.threads i o.next) k l⟩, insert k S, ?_,
      fun j hj => ?_, ?_⟩
    · rw [hstep]
      simp only [poolStep, ho, hsp]
      rw [if_pos ⟨hki, hS k hk⟩]
    · obtain ⟨hjk, hj⟩ : j ≠ k ∧ j ∉ S := by
        rw [Finset.mem_insert, not_or] at hj
        exact hj
      have hne : j ≠ i := fun heq => hj (heq ▸ hi)
      show P.idle (Function.update (Function.update p.threads i o.next) k l j) = true
      rw [Function.update_of_ne hjk, Function.update_of_ne hne]
      exact hS j hj
    · have hsame : ∀ j ∈ S, Function.update (Function.update p.threads i o.next) k l j =
          Function.update p.threads i o.next j := by
        intro j hj
        have hne : j ≠ k := fun heq => hk (heq ▸ hj)
        exact Function.update_of_ne hne ..
      have h := hrest (Function.update (Function.update p.threads i o.next) k l)
        (fun j hj hne => (hsame j hj).trans (Function.update_of_ne hne ..))
        ((hsame i hi).trans (Function.update_self ..))
      have hself : Function.update (Function.update p.threads i o.next) k l k = l :=
        Function.update_self ..
      show ∑ j ∈ insert k S, rank o.shared
        (Function.update (Function.update p.threads i o.next) k l j) < weight rank S p
      rw [Finset.sum_insert hk, hself]
      rw [hsr] at h
      omega

end Threads

end TrtcAsr
