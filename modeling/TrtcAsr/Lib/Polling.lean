/-
  Polling: a loop that asks until an answer decides, or until the clock is past a deadline.

  * `Rule`: what an answer decides, and what is reported of the last one past the deadline;
  * `Rule.run`: the loop over its passes;
  * `Rule.Verdict`: how a loop ends; `Rule.verdict_of_run`, `Rule.Verdict.run`: it ends just so;
  * `Paced`: the times of the passes, with a pause of at least `interval` after each;
    `Rule.ends_of_paced`: a paced loop ends, after a bounded number of passes;
  * `Rule.run_alike`: two loops over answers that decide alike end alike.
-/
import Mathlib.Algebra.Order.Ring.Int
import Mathlib.Data.List.Forall2
import Mathlib.Tactic.Linarith

namespace TrtcAsr

universe u v w x

namespace Polling

variable {α : Type u} {β : Type v}

/-- A pass: when it asks, its answer, and the clock that it reads afterwards. -/
structure Pass (α : Type u) where
  asked : ℤ
  answer : α
  told : ℤ

/-- What an answer decides, if anything, and what becomes of it past the deadline. -/
structure Rule (α : Type u) (β : Type v) where
  decides : α → Option β
  late : α → β

/-- Every pass starts when the one before it has ended and `interval` has gone by. -/
def Paced (interval : ℤ) : ℤ → List (Pass α) → Prop
  | _, [] => True
  | start, p :: passes =>
    start ≤ p.asked ∧ p.asked ≤ p.told ∧ Paced interval (p.told + interval) passes

namespace Rule

variable (rule : Rule α β) (deadline : ℤ)

/-- One pass; `none` is another one after a pause. -/
def pass (p : Pass α) : Option β :=
  match rule.decides p.answer with
  | some b => some b
  | none => if p.told > deadline then some (rule.late p.answer) else none

/-- The loop over `passes`; `none` while it is still waiting. -/
def run : List (Pass α) → Option β
  | [] => none
  | p :: passes =>
    match rule.pass deadline p with
    | some b => some b
    | none => run passes

/-- The loop goes on after the pass. -/
def Waits (p : Pass α) : Prop := rule.decides p.answer = none ∧ p.told ≤ deadline

/-- The last pass, before which the loop always went on, and its verdict: the one of its answer, or
    with an answer that decides nothing, that of the deadline. -/
structure Verdict (before : List (Pass α)) (last : Pass α) (b : β) : Prop where
  waits : ∀ p ∈ before, rule.Waits deadline p
  verdict : rule.decides last.answer = some b ∨
    rule.decides last.answer = none ∧ deadline < last.told ∧ rule.late last.answer = b

variable {rule deadline}

theorem pass_eq_none_iff {p : Pass α} : rule.pass deadline p = none ↔ rule.Waits deadline p := by
  unfold pass Waits
  cases rule.decides p.answer with
  | some b => simp
  | none => simp

theorem pass_eq_some_iff {p : Pass α} {b : β} :
    rule.pass deadline p = some b ↔ rule.decides p.answer = some b ∨
      rule.decides p.answer = none ∧ deadline < p.told ∧ rule.late p.answer = b := by
  unfold pass
  cases rule.decides p.answer with
  | some b' => simp
  | none => simp

/-- **A loop that ends, ends with the verdict of its last pass**, whatever would come after it. -/
theorem verdict_of_run {passes : List (Pass α)} {b : β} (h : rule.run deadline passes = some b) :
    ∃ before last after, passes = before ++ last :: after ∧ rule.Verdict deadline before last b := by
  induction passes with
  | nil => cases h
  | cons p passes ih =>
    unfold run at h
    cases hp : rule.pass deadline p with
    | some b' =>
      rw [hp] at h
      cases h
      exact ⟨[], p, passes, rfl, fun q hq => absurd hq List.not_mem_nil, pass_eq_some_iff.1 hp⟩
    | none =>
      rw [hp] at h
      obtain ⟨before, last, after, rfl, hwaits, hverdict⟩ := ih h
      refine ⟨p :: before, last, after, rfl, fun q hq => ?_, hverdict⟩
      rcases List.mem_cons.1 hq with rfl | hq
      · exact pass_eq_none_iff.1 hp
      · exact hwaits q hq

theorem Verdict.run {before : List (Pass α)} {last : Pass α} {b : β}
    (h : rule.Verdict deadline before last b) (after : List (Pass α)) :
    rule.run deadline (before ++ last :: after) = some b := by
  obtain ⟨hwaits, hverdict⟩ := h
  induction before with
  | nil => rw [List.nil_append, Rule.run, pass_eq_some_iff.2 hverdict]
  | cons p before ih =>
    obtain ⟨hp, hwaits⟩ := List.forall_mem_cons.1 hwaits
    rw [List.cons_append, Rule.run, pass_eq_none_iff.2 hp]
    exact ih hwaits

/-- A loop that has not ended has gone on after every pass. -/
theorem run_eq_none_iff {passes : List (Pass α)} :
    rule.run deadline passes = none ↔ ∀ p ∈ passes, rule.Waits deadline p := by
  induction passes with
  | nil => exact iff_of_true rfl fun q hq => absurd hq List.not_mem_nil
  | cons p passes ih =>
    rw [List.forall_mem_cons, ← ih, ← pass_eq_none_iff, run]
    cases rule.pass deadline p with
    | some b => simp
    | none => simp

end Rule

/-! ## How long a loop goes on -/

section

variable {interval start deadline : ℤ} {rule : Rule α β}

/-- The passes that end by the deadline take no more intervals than there are. -/
theorem Paced.length_le {passes : List (Pass α)} (hpaced : Paced interval start passes)
    (htold : ∀ p ∈ passes, p.told ≤ deadline) (hne : passes ≠ []) :
    start + (passes.length - 1 : ℤ) * interval ≤ deadline := by
  induction passes generalizing start with
  | nil => exact absurd rfl hne
  | cons p passes ih =>
    obtain ⟨hasked, hends, hrest⟩ := hpaced
    obtain ⟨hp, htold⟩ := List.forall_mem_cons.1 htold
    cases passes with
    | nil =>
      simp only [List.length_cons, List.length_nil]
      omega
    | cons q rest =>
      have := ih hrest htold (List.cons_ne_nil q rest)
      simp only [List.length_cons] at this ⊢
      push_cast at this ⊢
      linarith

theorem Paced.left {before after : List (Pass α)} (h : Paced interval start (before ++ after)) :
    Paced interval start before := by
  induction before generalizing start with
  | nil => trivial
  | cons p before ih => exact ⟨h.1, h.2.1, ih h.2.2⟩

/-- As many passes as a loop can go on after. -/
theorem Paced.length_le_div {passes : List (Pass α)} (hpaced : Paced interval start passes)
    (hinterval : 0 < interval) (htold : ∀ p ∈ passes, p.told ≤ deadline) :
    (passes.length : ℤ) ≤ max (deadline - start) 0 / interval + 1 := by
  have hnonneg : 0 ≤ max (deadline - start) 0 / interval :=
    Int.ediv_nonneg (le_max_right ..) hinterval.le
  by_cases hne : passes = []
  · rw [hne, List.length_nil]
    omega
  · have hle := hpaced.length_le htold hne
    have hmax : deadline - start ≤ max (deadline - start) 0 := le_max_left ..
    have hdiv : (passes.length - 1 : ℤ) ≤ max (deadline - start) 0 / interval :=
      (Int.le_ediv_iff_mul_le hinterval).2 (by linarith)
    linarith

/-- **A paced loop ends**, after no more passes than there are intervals before the deadline. -/
theorem Rule.ends_of_paced (rule : Rule α β) {passes : List (Pass α)}
    (hpaced : Paced interval start passes) (hinterval : 0 < interval)
    (hlong : max (deadline - start) 0 / interval + 1 < passes.length) :
    ∃ before last after b, passes = before ++ last :: after ∧
      rule.Verdict deadline before last b ∧
      (before.length : ℤ) ≤ max (deadline - start) 0 / interval + 1 := by
  cases hrun : rule.run deadline passes with
  | none =>
    have hwaits := run_eq_none_iff.1 hrun
    have := hpaced.length_le_div hinterval fun p hp => (hwaits p hp).2
    omega
  | some b =>
    obtain ⟨before, last, after, rfl, hverdict⟩ := verdict_of_run hrun
    exact ⟨before, last, after, b, rfl, hverdict,
      hpaced.left.length_le_div hinterval fun p hp => (hverdict.waits p hp).2⟩

end

/-! ## Two loops -/

section

variable {α' : Type w} {β' : Type x} {rule : Rule α β} {rule' : Rule α' β'} {deadline : ℤ}
  {R : α → α' → Prop} {S : β → β' → Prop}

/-- The rules make the same of answers that are related. -/
structure Rule.Alike (rule : Rule α β) (rule' : Rule α' β') (R : α → α' → Prop)
    (S : β → β' → Prop) : Prop where
  decides : ∀ a a', R a a' → Option.Rel S (rule.decides a) (rule'.decides a')
  late : ∀ a a', R a a' → rule.decides a = none → S (rule.late a) (rule'.late a')

theorem Rule.Alike.pass (h : rule.Alike rule' R S) {p : Pass α} {p' : Pass α'}
    (htold : p.told = p'.told) (hanswer : R p.answer p'.answer) :
    Option.Rel S (rule.pass deadline p) (rule'.pass deadline p') := by
  have hdecides := h.decides _ _ hanswer
  have hlate := h.late _ _ hanswer
  unfold Rule.pass
  cases hd : rule.decides p.answer with
  | some b =>
    rw [hd] at hdecides
    cases hd' : rule'.decides p'.answer with
    | some b' =>
      rw [hd'] at hdecides
      exact hdecides
    | none =>
      rw [hd'] at hdecides
      cases hdecides
  | none =>
    rw [hd] at hdecides
    cases hd' : rule'.decides p'.answer with
    | some b' =>
      rw [hd'] at hdecides
      cases hdecides
    | none =>
      rw [htold]
      by_cases hpast : p'.told > deadline
      · simp only [hpast, if_true]
        exact .some (hlate hd)
      · simp only [hpast, if_false]
        exact .none

/-- **Loops over answers that are related end alike**, so also after as many passes. -/
theorem Rule.run_alike (h : rule.Alike rule' R S) {passes : List (Pass α)}
    {passes' : List (Pass α')}
    (hpasses : List.Forall₂ (fun p p' => p.told = p'.told ∧ R p.answer p'.answer) passes passes') :
    Option.Rel S (rule.run deadline passes) (rule'.run deadline passes') := by
  induction hpasses with
  | nil => exact .none
  | @cons p p' passes passes' hp _ ih =>
    have hpass : Option.Rel S (rule.pass deadline p) (rule'.pass deadline p') :=
      h.pass hp.1 hp.2
    unfold Rule.run
    cases hd : rule.pass deadline p with
    | some b =>
      rw [hd] at hpass
      cases hd' : rule'.pass deadline p' with
      | some b' =>
        rw [hd'] at hpass
        exact hpass
      | none =>
        rw [hd'] at hpass
        cases hpass
    | none =>
      rw [hd] at hpass
      cases hd' : rule'.pass deadline p' with
      | some b' =>
        rw [hd'] at hpass
        cases hpass
      | none => exact ih

end

end Polling

end TrtcAsr
