/-
  Ledgers: what a program takes from its system, uses and gives back.

  * `Ledger.settle`: what is held after some entries; there is no answer when something is taken
    twice, or used or given back while it is not held.
  * `settle_split`: what is used or given back is held at that time.
  * `settle_balance`: everything is given back as often as it is taken, but for what is held.
  * `Lts.run_settles`: when every step to a live state settles, every run to one does.
-/
import Mathlib.Data.Finset.Basic
import TrtcAsr.Lib.Transition

namespace TrtcAsr

universe u v w x

namespace Ledger

inductive Entry (ρ : Type u) where
  | taken (r : ρ)
  | used (r : ρ)
  | returned (r : ρ)
  deriving DecidableEq, Repr

variable {ρ : Type u} [DecidableEq ρ]

def settle : Finset ρ → List (Entry ρ) → Option (Finset ρ)
  | held, [] => some held
  | held, .taken r :: es => if r ∈ held then none else settle (insert r held) es
  | held, .used r :: es => if r ∈ held then settle held es else none
  | held, .returned r :: es => if r ∈ held then settle (held.erase r) es else none

theorem settle_append (held : Finset ρ) (es es' : List (Entry ρ)) :
    settle held (es ++ es') = (settle held es).bind fun held' => settle held' es' := by
  induction es generalizing held with
  | nil => rfl
  | cons e es ih =>
    cases e with
    | taken r =>
      by_cases hr : r ∈ held
      · simp [settle, hr]
      · simp only [List.cons_append, settle, hr, if_false, ih]
    | used r =>
      by_cases hr : r ∈ held
      · simp only [List.cons_append, settle, hr, if_true, ih]
      · simp [settle, hr]
    | returned r =>
      by_cases hr : r ∈ held
      · simp only [List.cons_append, settle, hr, if_true, ih]
      · simp [settle, hr]

/-- What is used or given back is held at that time. -/
theorem settle_split {held held' : Finset ρ} {pre post : List (Entry ρ)} {e : Entry ρ} {r : ρ}
    (h : settle held (pre ++ e :: post) = some held') (he : e = .used r ∨ e = .returned r) :
    ∃ now, settle held pre = some now ∧ r ∈ now := by
  rw [settle_append] at h
  obtain ⟨now, hpre, hrest⟩ := Option.bind_eq_some_iff.1 h
  refine ⟨now, hpre, ?_⟩
  by_contra hr
  rcases he with rfl | rfl
  · simp [settle, hr] at hrest
  · simp [settle, hr] at hrest

/-- One for what is held. -/
def heldCount (held : Finset ρ) (r : ρ) : ℕ := if r ∈ held then 1 else 0

/-- **The balance**: of each resource, what was held and taken is what is given back and held. -/
theorem settle_balance {held held' : Finset ρ} {es : List (Entry ρ)}
    (h : settle held es = some held') (r : ρ) :
    heldCount held r + es.count (.taken r) = es.count (.returned r) + heldCount held' r := by
  induction es generalizing held with
  | nil =>
    cases h
    simp
  | cons e es ih =>
    cases e with
    | taken q =>
      by_cases hq : q ∈ held
      · simp [settle, hq] at h
      simp only [settle, hq, if_false] at h
      have hrest := ih h
      by_cases hqr : q = r
      · subst hqr
        simp only [heldCount, Finset.mem_insert_self, if_true, hq, if_false] at hrest ⊢
        rw [List.count_cons_self, List.count_cons_of_ne (by simp)]
        omega
      · have hmem : heldCount (insert q held) r = heldCount held r := by
          simp [heldCount, Ne.symm hqr]
        rw [hmem] at hrest
        rw [List.count_cons_of_ne (by simpa using hqr), List.count_cons_of_ne (by simp)]
        exact hrest
    | used q =>
      by_cases hq : q ∈ held
      · simp only [settle, hq, if_true] at h
        rw [List.count_cons_of_ne (by simp), List.count_cons_of_ne (by simp)]
        exact ih h
      · simp [settle, hq] at h
    | returned q =>
      by_cases hq : q ∈ held
      swap
      · simp [settle, hq] at h
      simp only [settle, hq, if_true] at h
      have hrest := ih h
      by_cases hqr : q = r
      · subst hqr
        simp only [heldCount, Finset.notMem_erase, if_false, hq, if_true] at hrest ⊢
        rw [List.count_cons_self, List.count_cons_of_ne (by simp)]
        omega
      · have hmem : heldCount (held.erase q) r = heldCount held r := by
          simp [heldCount, Ne.symm hqr]
        rw [hmem] at hrest
        rw [List.count_cons_of_ne (by simp), List.count_cons_of_ne (by simpa using hqr)]
        exact hrest

end Ledger

/-- **A run settles where every step does**, to live states, from states that the steps keep to.
    Only live states have steps. -/
theorem Lts.run_settles {ρ : Type u} [DecidableEq ρ] {σ : Type v} {α : Type w} {ε : Type x}
    {T : Lts σ α ε} {entries : ε → Option (Ledger.Entry ρ)} {holds : σ → Finset ρ} {J L : σ → Prop}
    (hkeep : ∀ {s a s' es}, J s → T.step s a = some (s', es) → J s')
    (hlive : ∀ {s a s' es}, T.step s a = some (s', es) → L s)
    (hstep : ∀ {s a s' es}, J s → L s' → T.step s a = some (s', es) →
      Ledger.settle (holds s) (es.filterMap entries) = some (holds s'))
    {s s' : σ} {as : List α} {tr : List ε} (hs : J s) (hl : L s')
    (h : T.run s as = some (s', tr)) :
    Ledger.settle (holds s) (tr.filterMap entries) = some (holds s') := by
  induction as generalizing s tr with
  | nil =>
    simp only [run, Option.some.injEq, Prod.mk.injEq] at h
    obtain ⟨rfl, rfl⟩ := h
    rfl
  | cons a as ih =>
    obtain ⟨s₁, es, es', hstep', hr, rfl⟩ := run_cons h
    have hl₁ : L s₁ := by
      cases as with
      | nil =>
        simp only [run, Option.some.injEq, Prod.mk.injEq] at hr
        obtain ⟨rfl, -⟩ := hr
        exact hl
      | cons b bs =>
        obtain ⟨s₂, ds, ds', hnext, -⟩ := run_cons hr
        exact hlive hnext
    rw [List.filterMap_append, Ledger.settle_append, hstep hs hl₁ hstep']
    exact ih (hkeep hs hstep') hr

end TrtcAsr
