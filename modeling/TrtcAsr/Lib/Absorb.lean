/-
  Data that is taken in blocks of a fixed length.

  * `blocks`: the full blocks of a list, in order;
  * `absorb`: a state after the full blocks of a list, with what is left of the list;
  * `absorb_append`: a list may be taken in two pieces, where what is left of the first goes before
    the second.
-/
import Mathlib.Data.List.Basic

namespace TrtcAsr

section

variable {α σ : Type*} (n : ℕ) (step : σ → List α → σ)

def blocks (l : List α) : List (List α) :=
  if 0 < n ∧ n ≤ l.length then l.take n :: blocks (l.drop n) else []
termination_by l.length
decreasing_by
  rw [List.length_drop]
  omega

def absorb (s : σ) (l : List α) : σ × List α :=
  if 0 < n ∧ n ≤ l.length then absorb (step s (l.take n)) (l.drop n) else (s, l)
termination_by l.length
decreasing_by
  rw [List.length_drop]
  omega

end

variable {α σ : Type*} {n : ℕ} {step : σ → List α → σ}

theorem absorb_of_lt {s : σ} {l : List α} (h : l.length < n) : absorb n step s l = (s, l) := by
  rw [absorb, if_neg (by omega)]

theorem absorb_of_le {s : σ} {l : List α} (hn : 0 < n) (h : n ≤ l.length) :
    absorb n step s l = absorb n step (step s (l.take n)) (l.drop n) := by
  rw [absorb, if_pos ⟨hn, h⟩]

/-- The state is that of the blocks alone. -/
theorem absorb_fst (s : σ) (l : List α) :
    (absorb n step s l).1 = (blocks n l).foldl step s := by
  induction s, l using absorb.induct n step with
  | case1 s l h ih => rw [absorb, blocks, if_pos h, if_pos h, ih, List.foldl_cons]
  | case2 s l h => rw [absorb, blocks, if_neg h, if_neg h, List.foldl_nil]

theorem length_absorb_snd (hn : 0 < n) (s : σ) (l : List α) :
    (absorb n step s l).2.length = l.length % n := by
  induction s, l using absorb.induct n step with
  | case1 s l h ih =>
    rw [absorb, if_pos h, ih, List.length_drop, Nat.mod_eq_sub_mod h.2]
  | case2 s l h =>
    have hlt : l.length < n := by omega
    rw [absorb_of_lt hlt]
    exact (Nat.mod_eq_of_lt hlt).symm

/-- **A list may be taken in two pieces.** -/
theorem absorb_append (s : σ) (x y : List α) :
    absorb n step s (x ++ y) =
      absorb n step (absorb n step s x).1 ((absorb n step s x).2 ++ y) := by
  induction s, x using absorb.induct n step with
  | case1 s x h ih =>
    have hle : n ≤ (x ++ y).length := by
      rw [List.length_append]
      omega
    rw [absorb_of_le h.1 hle, List.take_append_of_le_length h.2, List.drop_append_of_le_length h.2,
      ih, absorb_of_le h.1 h.2]
  | case2 s x h =>
    rw [absorb.eq_def n step s x, if_neg h]

/-- A map of states that keeps the step of a block keeps the absorption of a list. -/
theorem absorb_hom {τ : Type*} {step' : τ → List α → τ} (f : σ → τ)
    (hf : ∀ s b, b.length = n → f (step s b) = step' (f s) b) (s : σ) (l : List α) :
    f (absorb n step s l).1 = (absorb n step' (f s) l).1 := by
  induction s, l using absorb.induct n step with
  | case1 s l h ih =>
    rw [absorb_of_le h.1 h.2, absorb_of_le h.1 h.2, ih, hf _ _ (List.length_take_of_le h.2)]
  | case2 s l h =>
    rw [absorb.eq_def n step s l, absorb.eq_def n step' (f s) l, if_neg h, if_neg h]

end TrtcAsr
