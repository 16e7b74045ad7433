/-
  Labelled transition systems whose labels resolve every choice.

  A step is a partial function of the state and the label: the label fixes what
  the environment answers and which thread the scheduler picks, and `none` means
  that the label is not enabled.  A step may emit observable events; a run
  collects them in order.

  * `run` executes a list of labels; `run_append`, `run_snoc` split it.
  * `Meets C` says that every step of a run is taken under the condition `C` on
    the state before it and its label.
  * `run_induction` proves a property of the history and the state from its
    preservation by one step; `run_invariant` is its unconditional form, `run_reachable` and
    `run_keeps` are about the reachable states.
  * `Meets.of_invariant` carries a condition on the steps of a run to another one.
  * `run_iff` characterises the runs that end well by a condition on their steps.
  * `run_progress` bounds the length of a run by a measure that its steps lower; `run_reaches`
    leads a run into a goal that it approaches.
  * `Causal P`: every event of a history is permitted, by `P`, by the events before it.
-/
import Mathlib.Algebra.BigOperators.Group.List.Basic
import Mathlib.Algebra.GroupWithZero.Nat

namespace TrtcAsr

universe u v w

/-- A transition system with states `σ`, labels `α` and events `ε`. -/
structure Lts (σ : Type u) (α : Type v) (ε : Type w) where
  step : σ → α → Option (σ × List ε)

namespace Lts

variable {σ : Type u} {α : Type v} {ε : Type w} (T : Lts σ α ε)

/-- The state after a list of labels, with the events emitted on the way. -/
def run (s : σ) : List α → Option (σ × List ε)
  | [] => some (s, [])
  | a :: as =>
    match T.step s a with
    | none => none
    | some (s₁, es) =>
      match run s₁ as with
      | none => none
      | some (s₂, es') => some (s₂, es ++ es')

/-- Every step of the run is taken where `C` holds of the state and the label. -/
def Meets (C : σ → α → Prop) (s : σ) : List α → Prop
  | [] => True
  | a :: as => C s a ∧
    match T.step s a with
    | none => True
    | some (s₁, _) => Meets C s₁ as

variable {T}

theorem run_cons {s s₂ : σ} {a : α} {as : List α} {tr : List ε}
    (h : T.run s (a :: as) = some (s₂, tr)) :
    ∃ s₁ es es', T.step s a = some (s₁, es) ∧ T.run s₁ as = some (s₂, es') ∧ tr = es ++ es' := by
  simp only [run] at h
  split at h
  · cases h
  · rename_i s₁ es hs
    split at h
    · cases h
    · rename_i s' es' hr
      simp only [Option.some.injEq, Prod.mk.injEq] at h
      obtain ⟨rfl, rfl⟩ := h
      exact ⟨s₁, es, es', hs, hr, rfl⟩

theorem run_cons_of {s s₁ s₂ : σ} {a : α} {as : List α} {es es' : List ε}
    (hs : T.step s a = some (s₁, es)) (hr : T.run s₁ as = some (s₂, es')) :
    T.run s (a :: as) = some (s₂, es ++ es') := by
  simp only [run, hs, hr]

theorem run_append {s s₁ s₂ : σ} {tr tr' : List ε} : ∀ {as bs : List α},
    T.run s as = some (s₁, tr) → T.run s₁ bs = some (s₂, tr') →
      T.run s (as ++ bs) = some (s₂, tr ++ tr') := by
  intro as
  induction as generalizing s tr with
  | nil =>
    intro bs h h'
    simp only [run, Option.some.injEq, Prod.mk.injEq] at h
    obtain ⟨rfl, rfl⟩ := h
    exact h'
  | cons a as ih =>
    intro bs h h'
    obtain ⟨s', es, es', hs, hr, rfl⟩ := run_cons h
    rw [List.append_assoc]
    exact run_cons_of hs (ih hr h')

theorem run_one {s s' : σ} {a : α} {es : List ε} (hs : T.step s a = some (s', es)) :
    T.run s [a] = some (s', es) := by
  rw [← List.append_nil es]
  exact run_cons_of hs rfl

theorem run_snoc {s s₁ s₂ : σ} {a : α} {as : List α} {tr es : List ε}
    (h : T.run s as = some (s₁, tr)) (hs : T.step s₁ a = some (s₂, es)) :
    T.run s (as ++ [a]) = some (s₂, tr ++ es) :=
  run_append h (run_one hs)

theorem meets_append {C : σ → α → Prop} {s s₁ : σ} {tr : List ε} : ∀ {as bs : List α},
    T.run s as = some (s₁, tr) → T.Meets C s (as ++ bs) → T.Meets C s₁ bs := by
  intro as
  induction as generalizing s tr with
  | nil =>
    intro bs h hm
    simp only [run, Option.some.injEq, Prod.mk.injEq] at h
    obtain ⟨rfl, -⟩ := h
    exact hm
  | cons a as ih =>
    intro bs h hm
    obtain ⟨s', es, es', hs, hr, -⟩ := run_cons h
    have hrest := hm.2
    rw [hs] at hrest
    exact ih hr hrest

theorem Meets.append {C : σ → α → Prop} {s s₁ : σ} {tr : List ε} {as bs : List α}
    (hm : T.Meets C s as) (h : T.run s as = some (s₁, tr)) (hm' : T.Meets C s₁ bs) :
    T.Meets C s (as ++ bs) := by
  induction as generalizing s tr with
  | nil =>
    simp only [run, Option.some.injEq, Prod.mk.injEq] at h
    obtain ⟨rfl, -⟩ := h
    exact hm'
  | cons a as ih =>
    obtain ⟨s', es, es', hs, hr, -⟩ := run_cons h
    obtain ⟨hC, hrest⟩ := hm
    refine ⟨hC, ?_⟩
    rw [hs] at hrest ⊢
    exact ih hrest hr

theorem meets_singleton {C : σ → α → Prop} {s : σ} {a : α} (h : C s a) : T.Meets C s [a] := by
  refine ⟨h, ?_⟩
  split <;> trivial

/-- A condition on the labels alone is met by a run exactly if all its labels have it. -/
theorem meets_labels {Q : α → Prop} {as : List α} : ∀ {s s' : σ} {tr : List ε},
    T.run s as = some (s', tr) → (T.Meets (fun _ => Q) s as ↔ ∀ a ∈ as, Q a) := by
  induction as with
  | nil => simp [Meets]
  | cons a as ih =>
    intro s s' tr h
    obtain ⟨s₁, es, es', hs, hr, -⟩ := run_cons h
    rw [Meets, hs, List.forall_mem_cons]
    exact and_congr_right fun _ => ih hr

/-- A run that meets two conditions meets both at every step. -/
theorem meets_and {C D : σ → α → Prop} {as : List α} :
    ∀ {s : σ}, T.Meets (fun s a => C s a ∧ D s a) s as ↔ T.Meets C s as ∧ T.Meets D s as := by
  induction as with
  | nil => simp [Meets]
  | cons a as ih =>
    intro s
    simp only [Meets]
    split
    · simp only [and_true]
    · rw [ih]
      tauto

theorem meets_true (s : σ) (as : List α) : T.Meets (fun _ _ => True) s as := by
  induction as generalizing s with
  | nil => trivial
  | cons a as ih =>
    refine ⟨trivial, ?_⟩
    split
    · trivial
    · exact ih _

/-- **Induction over a run**: a property of the history and the state that every
    step taken under `C` preserves holds after the run. -/
theorem run_induction {C : σ → α → Prop} {I : List ε → σ → Prop}
    (hstep : ∀ {tr s a s' es}, I tr s → C s a → T.step s a = some (s', es) → I (tr ++ es) s')
    {as : List α} : ∀ {tr s s' tr'}, I tr s → T.Meets C s as → T.run s as = some (s', tr') →
      I (tr ++ tr') s' := by
  induction as with
  | nil =>
    intro tr s s' tr' hi _ h
    simp only [run, Option.some.injEq, Prod.mk.injEq] at h
    obtain ⟨rfl, rfl⟩ := h
    rwa [List.append_nil]
  | cons a as ih =>
    intro tr s s' tr' hi hm h
    obtain ⟨s₁, es, es', hs, hr, rfl⟩ := run_cons h
    obtain ⟨hC, hm⟩ := hm
    rw [hs] at hm
    rw [← List.append_assoc]
    exact ih (hstep hi hC hs) hm hr

/-- **Invariants**: a property of the history and the state preserved by every
    step holds after every run. -/
theorem run_invariant {I : List ε → σ → Prop}
    (hstep : ∀ {tr s a s' es}, I tr s → T.step s a = some (s', es) → I (tr ++ es) s')
    {as : List α} {s s' : σ} {tr' : List ε} (h₀ : I [] s) (h : T.run s as = some (s', tr')) :
    I tr' s' :=
  run_induction (C := fun _ _ => True) (fun hi _ hs => hstep hi hs) h₀ (meets_true s as) h

/-- **Invariants of the reachable states**: the step may use that it starts in one. -/
theorem run_reachable {I : List ε → σ → Prop} {s₀ : σ}
    (hstep : ∀ {as tr s a s' es}, T.run s₀ as = some (s, tr) → I tr s →
      T.step s a = some (s', es) → I (tr ++ es) s')
    {as : List α} {s : σ} {tr : List ε} (h₀ : I [] s₀) (h : T.run s₀ as = some (s, tr)) : I tr s := by
  have hinv := run_invariant (T := T)
    (I := fun tr s => (∃ as, T.run s₀ as = some (s, tr)) ∧ I tr s) ?_ ⟨⟨[], rfl⟩, h₀⟩ h
  · exact hinv.2
  · rintro tr s a s' es ⟨⟨as, has⟩, hi⟩ hs
    exact ⟨⟨as ++ [a], run_snoc has hs⟩, hstep has hi hs⟩

/-- What the steps from reachable states keep, the runs from reachable states keep. -/
theorem run_keeps {s₀ : σ} {J : σ → Prop}
    (hstep : ∀ {as s tr a s' es}, T.run s₀ as = some (s, tr) → J s → T.step s a = some (s', es) → J s')
    {as bs : List α} {s s' : σ} {tr tr' : List ε} (h : T.run s₀ as = some (s, tr)) (hj : J s)
    (h' : T.run s bs = some (s', tr')) : J s' :=
  run_reachable (I := fun _ q => J q)
    (fun hrun hq hs => hstep (run_append h hrun) hq hs) hj h'

/-- A run under `C` whose steps keep an invariant meets what the invariant and `C` give of each
    step. -/
theorem Meets.of_invariant {C D : σ → α → Prop} {I : List ε → σ → Prop}
    (hstep : ∀ {tr s a}, I tr s → C s a →
      D s a ∧ ∀ s' es, T.step s a = some (s', es) → I (tr ++ es) s') {as : List α} :
    ∀ (tr : List ε) {s : σ}, I tr s → T.Meets C s as → T.Meets D s as := by
  induction as with
  | nil => exact fun _ _ _ _ => trivial
  | cons a as ih =>
    rintro tr s hi ⟨hC, hm⟩
    obtain ⟨hD, hnext⟩ := hstep hi hC
    refine ⟨hD, ?_⟩
    split
    · trivial
    · rename_i s₁ es hs
      rw [hs] at hm
      exact ih _ (hnext s₁ es hs) hm

/-- If a step ends in `G` exactly when it begins in `G` and meets `C`, so does a run. -/
theorem run_iff {C : σ → α → Prop} {I G : σ → Prop}
    (hstep : ∀ {s a s' es}, I s → T.step s a = some (s', es) → I s' ∧ (G s' ↔ G s ∧ C s a))
    {as : List α} : ∀ {s s' tr}, I s → T.run s as = some (s', tr) →
      (G s' ↔ G s ∧ T.Meets C s as) := by
  induction as with
  | nil =>
    intro s s' tr _ h
    simp only [run, Option.some.injEq, Prod.mk.injEq] at h
    obtain ⟨rfl, -⟩ := h
    exact ⟨fun hg => ⟨hg, trivial⟩, And.left⟩
  | cons a as ih =>
    intro s s' tr hi h
    obtain ⟨s₁, es, es', hs, hr, rfl⟩ := run_cons h
    obtain ⟨hi₁, hiff⟩ := hstep hi hs
    rw [ih hi₁ hr, hiff, Meets, hs, and_assoc]

/-- **Progress**: if every step taken under `C` that ends live lowers the measure `μ` by the
    weight of its label, the weights of the labels of a run that ends live are bounded. -/
theorem run_progress {C : σ → α → Prop} {I L : List ε → σ → Prop} {μ : σ → ℕ} {w : α → ℕ}
    (hstep : ∀ {tr s a s' es}, I tr s → C s a → T.step s a = some (s', es) →
      I (tr ++ es) s' ∧ (L (tr ++ es) s' → L tr s ∧ w a + μ s' ≤ μ s))
    {as : List α} : ∀ {tr s s' tr'}, I tr s → T.Meets C s as → T.run s as = some (s', tr') →
      L (tr ++ tr') s' → L tr s ∧ (as.map w).sum + μ s' ≤ μ s := by
  induction as with
  | nil =>
    intro tr s s' tr' _ _ h hl
    simp only [run, Option.some.injEq, Prod.mk.injEq] at h
    obtain ⟨rfl, rfl⟩ := h
    rw [List.append_nil] at hl
    exact ⟨hl, by simp⟩
  | cons a as ih =>
    intro tr s s' tr' hi hm h hl
    obtain ⟨s₁, es, es', hs, hr, rfl⟩ := run_cons h
    obtain ⟨hC, hm⟩ := hm
    rw [hs] at hm
    rw [← List.append_assoc] at hl
    obtain ⟨hi₁, hlive⟩ := hstep hi hC hs
    obtain ⟨hl₁, hle₁⟩ := ih hi₁ hm hr hl
    obtain ⟨hl₀, hle₀⟩ := hlive hl₁
    refine ⟨hl₀, ?_⟩
    rw [List.map_cons, List.sum_cons]
    omega

/-- **Reaching a goal**: a run under `C` leads into a goal that runs under `C` approach.  The measure
    is a relation, since a state may be measured in many ways. -/
theorem run_reaches {C : σ → α → Prop} {I : List ε → σ → ℕ → Prop} {G : List ε → σ → Prop}
    (hstep : ∀ {tr s n}, I tr s n → ¬ G tr s → ∃ as s' es, T.run s as = some (s', es) ∧
      T.Meets C s as ∧ (G (tr ++ es) s' ∨ ∃ m, I (tr ++ es) s' m ∧ m < n))
    (tr : List ε) {s : σ} {n : ℕ} (hi : I tr s n) :
    ∃ as s' es, T.run s as = some (s', es) ∧ T.Meets C s as ∧ G (tr ++ es) s' := by
  induction n using Nat.strongRecOn generalizing tr s with
  | _ n ih =>
    by_cases hg : G tr s
    · exact ⟨[], s, [], rfl, trivial, by rwa [List.append_nil]⟩
    · obtain ⟨as, s₁, es, hrun, hm, hnext⟩ := hstep hi hg
      rcases hnext with hg' | ⟨m, hi₁, hlt⟩
      · exact ⟨as, s₁, es, hrun, hm, hg'⟩
      · obtain ⟨bs, s₂, es', hrun', hm', hg'⟩ := ih m hlt _ hi₁
        refine ⟨as ++ bs, s₂, es ++ es', run_append hrun hrun', hm.append hrun hm', ?_⟩
        rwa [← List.append_assoc]

end Lts

/-! ## Histories -/

section

variable {ε : Type w} {P Q : List ε → ε → Prop} {tr es : List ε}

/-- Every event is permitted by what comes before it. -/
def Causal (P : List ε → ε → Prop) (tr : List ε) : Prop :=
  ∀ pre e post, tr = pre ++ e :: post → P pre e

theorem causal_nil : Causal P [] := by
  intro pre e post h
  exact absurd (congrArg List.length h) (by simp)

/-- A prefix of the history or of what is appended to it ends before each event. -/
theorem split_append {pre post : List ε} {e : ε} (h : tr ++ es = pre ++ e :: post) :
    (∃ rest, tr = pre ++ e :: rest) ∨ ∃ mid, pre = tr ++ mid ∧ es = mid ++ e :: post := by
  rcases List.append_eq_append_iff.1 h with ⟨mid, hpre, hes⟩ | ⟨mid, htr, hes⟩
  · exact .inr ⟨mid, hpre, hes⟩
  · cases mid with
    | nil => exact .inr ⟨[], by simpa using htr.symm, hes.symm⟩
    | cons d mid =>
      obtain ⟨rfl, -⟩ := List.cons.inj hes
      exact .inl ⟨mid, htr⟩

theorem Causal.append (h : Causal P tr)
    (hes : ∀ mid e post, es = mid ++ e :: post → P (tr ++ mid) e) : Causal P (tr ++ es) := by
  intro pre e post heq
  rcases split_append heq with ⟨rest, hrest⟩ | ⟨mid, rfl, hmid⟩
  · exact h pre e rest hrest
  · exact hes mid e post hmid

theorem Causal.snoc {e : ε} (h : Causal P tr) (he : P tr e) : Causal P (tr ++ [e]) := by
  refine h.append fun mid d post heq => ?_
  cases mid with
  | nil =>
    obtain ⟨rfl, -⟩ := List.cons.inj heq
    rwa [List.append_nil]
  | cons c mid => exact absurd (congrArg List.length heq) (by simp)

theorem Causal.of_append (h : Causal P (tr ++ es)) : Causal P tr := by
  rintro pre e post rfl
  exact h pre e (post ++ es) (by simp)

theorem Causal.last {e : ε} (h : Causal P (tr ++ [e])) : P tr e :=
  h tr e [] rfl

/-- An event that occurs was permitted by some earlier part of the history. -/
theorem Causal.mem {e : ε} (h : Causal P tr) (he : e ∈ tr) : ∃ pre, pre <+: tr ∧ P pre e := by
  obtain ⟨pre, post, rfl⟩ := List.append_of_mem he
  exact ⟨pre, ⟨e :: post, rfl⟩, h pre e post rfl⟩

end

end TrtcAsr
