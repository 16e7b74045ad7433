/-
  Objects that carry the fields of a record, whatever other members they have.

  * `HasInt`, `HasStr`, `HasDouble`, `HasList`, `HasOption`: a member holds the value of a field;
  * `value_int`, `value_int64`, `value_str`, `value_double`: what a typed access makes of it;
  * `mapM_of_hasList`: a list is read element by element, in order.
-/
import Mathlib.Data.List.Forall2
import TrtcAsr.Lib.Json

namespace TrtcAsr.Json

/-- An integer as it is stored: signed, or unsigned where it is not negative. -/
inductive IsInt : ℤ → Json → Prop
  | int (n : ℤ) : IsInt n (.int n)
  | uint (n : ℕ) : IsInt n (.uint n)

def HasInt (j : Json) (k : String) (n : ℤ) : Prop := ∃ v, j.member k = some v ∧ IsInt n v

def HasStr (j : Json) (k : String) (s : Bytes) : Prop := j.member k = some (.str s)

def HasDouble (j : Json) (k : String) (x : Binary64) : Prop := j.member k = some (.float x)

/-- The member is an array whose elements hold the values of a list, in order. -/
def HasList {α : Type} (P : α → Json → Prop) (j : Json) (k : String) (l : List α) : Prop :=
  ∃ items, j.member k = some (.arr items) ∧ List.Forall₂ P l items

/-- The member holds the value, and there is none without a value. -/
def HasOption {α : Type} (P : α → Json → Prop) (j : Json) (k : String) : Option α → Prop
  | some a => ∃ v, j.member k = some v ∧ P a v
  | none => j.member k = none

/-- An integer as the parser stores it. -/
def number (n : ℤ) : Json := if 0 ≤ n then .uint n.toNat else .int n

theorem isInt_number (n : ℤ) : IsInt n (number n) := by
  unfold number
  by_cases h : 0 ≤ n
  · rw [if_pos h]
    obtain ⟨m, rfl⟩ := Int.eq_ofNat_of_zero_le h
    exact .uint m
  · rw [if_neg h]
    exact .int n

/-- The values of `int` and `int64_t`. -/
def InInt (n : ℤ) : Prop := -2 ^ 31 ≤ n ∧ n < 2 ^ 31

def InInt64 (n : ℤ) : Prop := -2 ^ 63 ≤ n ∧ n < 2 ^ 63

instance (n : ℤ) : Decidable (InInt n) := inferInstanceAs (Decidable (_ ∧ _))

instance (n : ℤ) : Decidable (InInt64 n) := inferInstanceAs (Decidable (_ ∧ _))

/-- **A narrowing to `int` is exact on the values of `int` only.** -/
theorem toInt32_eq_self_iff {n : ℤ} : toInt32 n = n ↔ InInt n := by
  have hlow := Int.le_bmod (x := n) (m := 4294967296) (by omega)
  have hhigh := Int.bmod_lt (x := n) (m := 4294967296) (by omega)
  constructor
  · intro h
    rw [toInt32] at h
    rw [InInt]
    omega
  · rintro ⟨hle, hlt⟩
    exact Int.bmod_eq_of_le (by omega) (by omega)

variable {α : Type} {j v : Json} {k : String}

theorem IsInt.getInt {n : ℤ} (h : IsInt n v) : v.getInt = some (toInt32 n) := by
  cases h with
  | int n => rfl
  | uint n => rfl

theorem IsInt.getInt64 {n : ℤ} (h : IsInt n v) (hn : InInt64 n) : v.getInt64 = some n := by
  cases h with
  | int n => rfl
  | uint n =>
    obtain ⟨-, hlt⟩ := hn
    have hfix : Int.bmod n (2 ^ 64) = n := Int.bmod_eq_of_le (by omega) (by omega)
    rw [Json.getInt64, hfix]

theorem IsInt.isNumber {n : ℤ} (h : IsInt n v) : v.isNumber := by
  cases h with
  | int n => rfl
  | uint n => rfl

/-- A typed access to a member of the type. -/
theorem value_of_member {get : Json → Option α} {a d : α} (h : j.member k = some v)
    (hget : get v = some a) : j.value get k d = .ok a := by
  cases j with
  | obj ms =>
    rw [member] at h
    simp only [value, h, hget]
  | _ => cases h

theorem value_str {s d : Bytes} (h : j.HasStr k s) : j.value getStr k d = .ok s :=
  value_of_member h rfl

theorem value_double {x d : Binary64} (h : j.HasDouble k x) : j.value getDouble k d = .ok x :=
  value_of_member h rfl

theorem value_int {n d : ℤ} (h : j.HasInt k n) : j.value Json.getInt k d = .ok (toInt32 n) := by
  obtain ⟨v, hv, hn⟩ := h
  exact value_of_member hv hn.getInt

theorem value_int_of_inInt {n d : ℤ} (h : j.HasInt k n) (hn : InInt n) :
    j.value Json.getInt k d = .ok n := by
  rw [value_int h, toInt32_eq_self_iff.2 hn]

theorem value_int64 {n d : ℤ} (h : j.HasInt k n) (hn : InInt64 n) :
    j.value Json.getInt64 k d = .ok n := by
  obtain ⟨v, hv, hint⟩ := h
  exact value_of_member hv (hint.getInt64 hn)

theorem hasInt_number {n : ℤ} (h : j.member k = some (number n)) : j.HasInt k n :=
  ⟨number n, h, isInt_number n⟩

theorem hasList_map {P : α → Json → Prop} {f : α → Json} {l : List α}
    (h : j.member k = some (.arr (l.map f))) (hf : ∀ a, P a (f a)) : j.HasList P k l :=
  ⟨l.map f, h, List.forall₂_map_right_iff.2 (List.forall₂_same.2 fun a _ => hf a)⟩

/-- **A list is read element by element, in order.** -/
theorem mapM_of_hasList {β : Type} {ε : Type} {P : α → Json → Prop} {f : Json → Except ε β}
    {g : α → β} {l : List α} (h : j.HasList P k l) (hf : ∀ a ∈ l, ∀ v, P a v → f v = .ok (g a)) :
    (j.arrayAt k).mapM f = .ok (l.map g) := by
  obtain ⟨items, hitems, hall⟩ := h
  have harr : j.arrayAt k = items := by rw [arrayAt, hitems]
  rw [harr]
  clear hitems harr
  induction hall with
  | nil => rfl
  | cons hp _ ih =>
    rw [List.mapM_cons, hf _ List.mem_cons_self _ hp,
      ih fun a ha => hf a (List.mem_cons_of_mem _ ha)]
    rfl

end TrtcAsr.Json
