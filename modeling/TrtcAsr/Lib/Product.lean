/-
  Transition systems side by side.

  * `Lts.family T`: a family of copies of `T`; a step is one of a member.
  * `Lts.sync ok T U`: `T` beside `U`; a step is one of either or of both at once, and `ok` says
    which of these are allowed, given what they emit.
  * `family_run`, `sync_run`: a run of all together is, for each of them, a run of its own.
-/
import Mathlib.Logic.Function.Basic
import TrtcAsr.Lib.Transition

namespace TrtcAsr

universe u v w u' v' w' x

variable {σ : Type u} {α : Type v} {ε : Type w} {τ : Type u'} {β : Type v'} {δ : Type w'}

namespace Lts

/-! ## Families -/

section

variable {ι : Type x} [DecidableEq ι] (T : Lts σ α ε)

def family : Lts (ι → σ) (ι × α) (ι × ε) where
  step s a := (T.step (s a.1) a.2).map fun r => (Function.update s a.1 r.1, r.2.map (a.1, ·))

/-- What of a list belongs to the member `c`. -/
def ofMember {γ : Type*} (c : ι) (l : List (ι × γ)) : List γ :=
  l.filterMap fun e => if e.1 = c then some e.2 else none

theorem ofMember_append {γ : Type*} (c : ι) (l l' : List (ι × γ)) :
    ofMember c (l ++ l') = ofMember c l ++ ofMember c l' :=
  List.filterMap_append

theorem mem_ofMember {γ : Type*} {c : ι} {x : γ} {l : List (ι × γ)} :
    x ∈ ofMember c l ↔ (c, x) ∈ l := by
  unfold ofMember
  rw [List.mem_filterMap]
  constructor
  · rintro ⟨⟨d, y⟩, hm, h⟩
    split at h
    · rename_i hd
      cases h
      exact hd ▸ hm
    · cases h
  · intro hm
    exact ⟨(c, x), hm, if_pos rfl⟩

theorem ofMember_tagged {γ : Type*} (c d : ι) (l : List γ) :
    ofMember c (l.map (d, ·)) = if d = c then l else [] := by
  unfold ofMember
  rw [List.filterMap_map]
  split
  · rename_i h
    simp [h]
  · rename_i h
    simp [h]

variable {T}

theorem family_step {s s' : ι → σ} {d : ι} {a : α} {es : List (ι × ε)}
    (h : T.family.step s (d, a) = some (s', es)) :
    ∃ t es', T.step (s d) a = some (t, es') ∧ s' = Function.update s d t ∧ es = es'.map (d, ·) := by
  obtain ⟨⟨t, es'⟩, hs, heq⟩ := Option.map_eq_some_iff.1 h
  cases heq
  exact ⟨t, es', hs, rfl, rfl⟩

/-- **A run of a family is a run of each member.** -/
theorem family_run {as : List (ι × α)} {s s' : ι → σ} {tr : List (ι × ε)}
    (h : T.family.run s as = some (s', tr)) (c : ι) :
    T.run (s c) (ofMember c as) = some (s' c, ofMember c tr) := by
  induction as generalizing s tr with
  | nil =>
    simp only [run, Option.some.injEq, Prod.mk.injEq] at h
    obtain ⟨rfl, rfl⟩ := h
    rfl
  | cons a as ih =>
    obtain ⟨s₁, es, es', hs, hr, rfl⟩ := run_cons h
    obtain ⟨d, a⟩ := a
    obtain ⟨t, es₀, ht, rfl, rfl⟩ := family_step hs
    have hrest := ih hr
    rw [ofMember_append, ofMember_tagged]
    by_cases hd : d = c
    · subst hd
      rw [Function.update_self] at hrest
      have hcons : ofMember d ((d, a) :: as) = a :: ofMember d as := by simp [ofMember]
      rw [hcons, if_pos rfl]
      exact run_cons_of ht hrest
    · rw [Function.update_of_ne (Ne.symm hd)] at hrest
      have hcons : ofMember c ((d, a) :: as) = ofMember c as := by simp [ofMember, hd]
      rw [hcons, if_neg hd]
      exact hrest

end

/-! ## Two systems -/

/-- A label of one of two systems or of both. -/
inductive Joint (α : Type v) (β : Type v') where
  | left (a : α)
  | right (b : β)
  | both (a : α) (b : β)

def Joint.fst : Joint α β → Option α
  | left a | both a _ => some a
  | right _ => none

def Joint.snd : Joint α β → Option β
  | right b | both _ b => some b
  | left _ => none

/-- A step, or none. -/
def stepIf (T : Lts σ α ε) (s : σ) : Option α → Option (σ × List ε)
  | some a => T.step s a
  | none => some (s, [])

/-- Which labels are allowed in a state, for the events of the two systems. -/
abbrev Sync (σ : Type u) (τ : Type u') (α : Type v) (β : Type v') (ε : Type w) (δ : Type w') :=
  σ × τ → Joint α β → List ε → List δ → Bool

def sync (ok : Sync σ τ α β ε δ) (T : Lts σ α ε) (U : Lts τ β δ) :
    Lts (σ × τ) (Joint α β) (ε ⊕ δ) where
  step s j :=
    match T.stepIf s.1 j.fst, U.stepIf s.2 j.snd with
    | some (s', es), some (t', ds) =>
      if ok s j es ds then some ((s', t'), es.map .inl ++ ds.map .inr) else none
    | _, _ => none

/-- The events of the first system. -/
def lefts (tr : List (ε ⊕ δ)) : List ε := tr.filterMap Sum.getLeft?

/-- The events of the second system. -/
def rights (tr : List (ε ⊕ δ)) : List δ := tr.filterMap Sum.getRight?

theorem lefts_append (tr tr' : List (ε ⊕ δ)) : lefts (tr ++ tr') = lefts tr ++ lefts tr' :=
  List.filterMap_append

theorem rights_append (tr tr' : List (ε ⊕ δ)) : rights (tr ++ tr') = rights tr ++ rights tr' :=
  List.filterMap_append

theorem lefts_of (es : List ε) (ds : List δ) : lefts (es.map .inl ++ ds.map .inr) = es := by
  rw [lefts_append]
  simp [lefts, List.filterMap_map, Function.comp_def]

theorem rights_of (es : List ε) (ds : List δ) : rights (es.map .inl ++ ds.map .inr) = ds := by
  rw [rights_append]
  simp [rights, List.filterMap_map, Function.comp_def]

variable {ok : Sync σ τ α β ε δ} {T : Lts σ α ε} {U : Lts τ β δ}

theorem sync_step {s s' : σ × τ} {j : Joint α β} {tr : List (ε ⊕ δ)}
    (h : (sync ok T U).step s j = some (s', tr)) :
    ∃ es ds, T.stepIf s.1 j.fst = some (s'.1, es) ∧ U.stepIf s.2 j.snd = some (s'.2, ds) ∧
      ok s j es ds = true ∧ lefts tr = es ∧ rights tr = ds := by
  simp only [sync] at h
  split at h
  · rename_i s₁ es t₁ ds hs ht
    split at h
    · rename_i hok
      cases h
      exact ⟨es, ds, hs, ht, hok, lefts_of es ds, rights_of es ds⟩
    · cases h
  · cases h

theorem run_stepIf {s s₁ s₂ : σ} {o : Option α} {es es' : List ε} {as : List α}
    (h : T.stepIf s o = some (s₁, es)) (h' : T.run s₁ as = some (s₂, es')) :
    T.run s (o.toList ++ as) = some (s₂, es ++ es') := by
  cases o with
  | none =>
    cases h
    exact h'
  | some a => exact run_cons_of h h'

theorem filterMap_cons {γ γ' : Type*} (f : γ → Option γ') (x : γ) (l : List γ) :
    (x :: l).filterMap f = (f x).toList ++ l.filterMap f := by
  cases hf : f x with
  | none => rw [List.filterMap_cons_none hf]; rfl
  | some y => rw [List.filterMap_cons_some hf]; rfl

/-- **A run of two systems together is a run of each.** -/
theorem sync_run {s s' : σ × τ} {js : List (Joint α β)} {tr : List (ε ⊕ δ)}
    (h : (sync ok T U).run s js = some (s', tr)) :
    T.run s.1 (js.filterMap Joint.fst) = some (s'.1, lefts tr) ∧
      U.run s.2 (js.filterMap Joint.snd) = some (s'.2, rights tr) := by
  induction js generalizing s tr with
  | nil =>
    simp only [run, Option.some.injEq, Prod.mk.injEq] at h
    obtain ⟨rfl, rfl⟩ := h
    exact ⟨rfl, rfl⟩
  | cons j js ih =>
    obtain ⟨s₁, es, es', hs, hr, rfl⟩ := run_cons h
    obtain ⟨fs, ds, hT, hU, -, rfl, rfl⟩ := sync_step hs
    obtain ⟨hT', hU'⟩ := ih hr
    rw [lefts_append, rights_append]
    rw [filterMap_cons, filterMap_cons]
    exact ⟨run_stepIf hT hT', run_stepIf hU hU'⟩

end Lts

end TrtcAsr
