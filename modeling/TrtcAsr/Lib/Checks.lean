/-
  Checks that return nothing or throw.

  `Decides refusal check p`: the check returns exactly when `p` holds, and what it throws
  otherwise is a refusal.  There is one rule for each way to build a check.
-/
import Mathlib.Data.List.Basic

namespace TrtcAsr

variable {ε α : Type}

structure Decides (refusal : ε → Prop) (check : Except ε Unit) (p : Prop) : Prop where
  ok_iff : check = .ok () ↔ p
  refuses : ∀ e, check = .error e → refusal e

namespace Decides

variable {refusal : ε → Prop} {x y : Except ε Unit} {p q : Prop}

theorem ok : Decides refusal (.ok ()) True := ⟨iff_true_intro rfl, by simp⟩

theorem congr (h : Decides refusal x p) (hpq : p ↔ q) : Decides refusal x q :=
  ⟨h.ok_iff.trans hpq, h.refuses⟩

theorem throws (h : Decides refusal x p) (hp : ¬ p) : ∃ e, x = .error e ∧ refusal e := by
  cases x with
  | ok u => exact absurd (h.ok_iff.1 rfl) hp
  | error e => exact ⟨e, rfl, h.refuses e rfl⟩

/-- One check after the other. -/
theorem bind (hx : Decides refusal x p) (hy : Decides refusal y q) :
    Decides refusal (x >>= fun _ => y) (p ∧ q) := by
  cases x with
  | ok u =>
    have hp : p := hx.ok_iff.1 rfl
    exact hy.congr (iff_and_self.2 fun _ => hp)
  | error e =>
    refine ⟨⟨nofun, fun h => nomatch hx.ok_iff.2 h.1⟩, ?_⟩
    rintro _ ⟨⟩
    exact hx.refuses e rfl

/-- A condition that is refused, then the rest. -/
theorem refusing {c : Prop} [Decidable c] {e : ε} (he : refusal e) (hy : Decides refusal y q) :
    Decides refusal (if c then .error e else y) (¬ c ∧ q) := by
  split
  · rename_i hc
    refine ⟨⟨by simp, fun h => absurd hc h.1⟩, ?_⟩
    rintro _ ⟨⟩
    exact he
  · rename_i hc
    exact hy.congr (iff_and_self.2 fun _ => hc)

/-- Two checks of one thing agree exactly when they decide the same. -/
theorem agree_iff {y : Except ε Unit} (hx : Decides refusal x p) (hy : Decides refusal y q) :
    (x = .ok () ∧ y = .ok ()) ∨
        ((∃ e, x = .error e ∧ refusal e) ∧ ∃ e, y = .error e ∧ refusal e) ↔ (p ↔ q) := by
  constructor
  · rintro (⟨hxok, hyok⟩ | ⟨⟨e, hxe, -⟩, e', hye, -⟩)
    · exact iff_of_true (hx.ok_iff.1 hxok) (hy.ok_iff.1 hyok)
    · have hp : ¬ p := fun hp => nomatch hxe.symm.trans (hx.ok_iff.2 hp)
      have hq : ¬ q := fun hq => nomatch hye.symm.trans (hy.ok_iff.2 hq)
      exact iff_of_false hp hq
  · intro h
    by_cases hp : p
    · exact .inl ⟨hx.ok_iff.2 hp, hy.ok_iff.2 (h.1 hp)⟩
    · exact .inr ⟨hx.throws hp, hy.throws (mt h.2 hp)⟩

end Decides

end TrtcAsr
