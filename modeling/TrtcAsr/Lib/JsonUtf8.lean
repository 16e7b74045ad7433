/-
  JSON values whose strings are UTF-8.

  The serializer of the nlohmann library refuses every other value; the names of members are
  UTF-8 by their type.

  * `isUtf8_arr`, `isUtf8_obj`: the elements and the members one by one;
  * `isUtf8_put`, `isUtf8_putIf`, `isUtf8_putSome`: an object that is built member by member,
    each under a new name.
-/
import TrtcAsr.Lib.Json
import TrtcAsr.Lib.Utf8

namespace TrtcAsr

namespace Json

mutual

def isUtf8 : Json → Bool
  | str s => ValidUtf8 s
  | arr items => allUtf8 items
  | obj ms => membersUtf8 ms
  | _ => true

def allUtf8 : List Json → Bool
  | [] => true
  | j :: js => j.isUtf8 && allUtf8 js

def membersUtf8 : List (String × Json) → Bool
  | [] => true
  | (_, j) :: ms => j.isUtf8 && membersUtf8 ms

end

@[simp] theorem isUtf8_null : isUtf8 null := rfl

@[simp] theorem isUtf8_bool (b : Bool) : isUtf8 (bool b) := rfl

@[simp] theorem isUtf8_int (n : ℤ) : isUtf8 (int n) := rfl

@[simp] theorem isUtf8_uint (n : ℕ) : isUtf8 (uint n) := rfl

@[simp] theorem isUtf8_float (x : Binary64) : isUtf8 (float x) := rfl

@[simp] theorem isUtf8_str (s : Bytes) : isUtf8 (str s) ↔ ValidUtf8 s := decide_eq_true_iff

@[simp] theorem isUtf8_arr (items : List Json) : isUtf8 (arr items) ↔ ∀ j ∈ items, j.isUtf8 := by
  change allUtf8 items ↔ _
  induction items with
  | nil => simp [allUtf8]
  | cons j items ih => simp [allUtf8, ih]

theorem isUtf8_obj (ms : Members) : isUtf8 (obj ms) ↔ ∀ m ∈ ms, m.2.isUtf8 := by
  change membersUtf8 ms ↔ _
  induction ms with
  | nil => simp [membersUtf8]
  | cons m ms ih => simp [membersUtf8, ih]

end Json

theorem validUtf8_nil : ValidUtf8 [] := ⟨[], rfl⟩

theorem validUtf8_ascii (s : String) : ValidUtf8 (ascii s) := ⟨s.toList, utf8_toList s⟩

/-- Bytes below 128 are UTF-8. -/
theorem validUtf8_of_lt {s : Bytes} (h : ∀ b ∈ s, b < 0x80) : ValidUtf8 s := ⟨_, utf8_chars h⟩

/-- A string that is sent unless it is empty. -/
@[simp] theorem validUtf8_of_ne_nil {s : Bytes} : (s ≠ [] → ValidUtf8 s) ↔ ValidUtf8 s := by
  cases s with
  | nil => exact iff_of_true (fun h => absurd rfl h) validUtf8_nil
  | cons b s => exact ⟨fun h => h (by simp), fun h _ => h⟩

/-- The strings are UTF-8. -/
def AllUtf8 (l : List Bytes) : Prop := ∀ s ∈ l, ValidUtf8 s

instance (l : List Bytes) : Decidable (AllUtf8 l) :=
  decidable_of_iff (l.all fun s => decide (ValidUtf8 s)) (by simp [AllUtf8])

@[simp] theorem allUtf8_nil : AllUtf8 [] := nofun

@[simp] theorem allUtf8_cons (s : Bytes) (l : List Bytes) :
    AllUtf8 (s :: l) ↔ ValidUtf8 s ∧ AllUtf8 l := List.forall_mem_cons

@[simp] theorem allUtf8_append (l l' : List Bytes) :
    AllUtf8 (l ++ l') ↔ AllUtf8 l ∧ AllUtf8 l' := List.forall_mem_append

@[simp] theorem allUtf8_flatMap {α : Type} (l : List α) (f : α → List Bytes) :
    AllUtf8 (l.flatMap f) ↔ ∀ a ∈ l, AllUtf8 (f a) := by
  unfold AllUtf8
  exact ⟨fun h a ha s hs => h s (List.mem_flatMap.2 ⟨a, ha, hs⟩), fun h s hs => by
    obtain ⟨a, ha, hs⟩ := List.mem_flatMap.1 hs
    exact h a ha s hs⟩

@[simp] theorem allUtf8_ite (c : Prop) [Decidable c] (l l' : List Bytes) :
    AllUtf8 (if c then l else l') ↔ (c → AllUtf8 l) ∧ (¬ c → AllUtf8 l') := by
  by_cases h : c
  · simp [h]
  · simp [h]

/-- Values that are sent unless there are none. -/
@[simp] theorem forall_mem_of_ne_nil {α : Type} {l : List α} {p : α → Prop} :
    (l ≠ [] → ∀ a ∈ l, p a) ↔ ∀ a ∈ l, p a := by
  cases l with
  | nil => exact iff_of_true (by simp) (by simp)
  | cons a l => exact ⟨fun h => h (by simp), fun h _ => h⟩

@[simp] theorem allUtf8_of_ne_nil {l : List Bytes} : (l ≠ [] → AllUtf8 l) ↔ AllUtf8 l :=
  forall_mem_of_ne_nil

namespace Members

open Json

variable {ms : Members} {k : String} {v : Json}

@[simp] theorem isUtf8_empty : isUtf8 (obj empty) := rfl

@[simp] theorem isUtf8_put (h : ms.lookup k = none) :
    isUtf8 (obj (ms.put k v)) ↔ isUtf8 (obj ms) ∧ v.isUtf8 := by
  simp only [isUtf8_obj]
  induction ms with
  | nil => simp [put]
  | cons m ms ih =>
    rw [lookup_cons] at h
    split at h
    · cases h
    rename_i hne
    simp only [put, if_neg hne]
    split
    · rw [List.forall_mem_cons, and_comm]
    · rw [List.forall_mem_cons, List.forall_mem_cons, ih h, and_assoc]

@[simp] theorem isUtf8_putIf {c : Bool} (h : ms.lookup k = none) :
    isUtf8 (obj (ms.putIf c k v)) ↔ isUtf8 (obj ms) ∧ (c → v.isUtf8) := by
  cases c with
  | false => simp [putIf]
  | true => simpa [putIf] using isUtf8_put h

@[simp] theorem isUtf8_putSome {α : Type} {o : Option α} {f : α → Json} (h : ms.lookup k = none) :
    isUtf8 (obj (ms.putSome o k f)) ↔ isUtf8 (obj ms) ∧ ∀ a ∈ o, (f a).isUtf8 := by
  cases o with
  | none => simp [putSome]
  | some a => simpa [putSome] using isUtf8_put h

end Members

end TrtcAsr
