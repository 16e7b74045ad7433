/-
  JSON values that are written and parsed again.

  The nlohmann library stores an integer that it parses as unsigned where it is not negative, and
  writes a double that is not finite as `null`.

  * `fits`: the integers are of 64 bits;
  * `reread`: what is parsed from the text of a value;
  * `ReadsAlike`: a reader that gets from the value parsed what it gets from the value written.
-/
import TrtcAsr.Lib.JsonRecord
import TrtcAsr.Lib.JsonUtf8

namespace TrtcAsr

/-- All values of an object have the property `p`. -/
def Members.Values (p : Json → Prop) (ms : Members) : Prop := ∀ m ∈ ms, p m.2

namespace Json

mutual

/-- Every integer is one of 64 bits. -/
def fits : Json → Bool
  | int n => -2 ^ 63 ≤ n && n < 2 ^ 63
  | uint n => n < 2 ^ 64
  | arr items => allFit items
  | obj ms => membersFit ms
  | _ => true

def allFit : List Json → Bool
  | [] => true
  | j :: js => j.fits && allFit js

def membersFit : List (String × Json) → Bool
  | [] => true
  | (_, j) :: ms => j.fits && membersFit ms

end

mutual

/-- The value that is parsed from the text of a value. -/
def reread : Json → Json
  | int n => number n
  | float x => if x.isFinite then float x else null
  | arr items => arr (rereadItems items)
  | obj ms => obj (rereadMembers ms)
  | j => j

def rereadItems : List Json → List Json
  | [] => []
  | j :: js => j.reread :: rereadItems js

def rereadMembers : List (String × Json) → List (String × Json)
  | [] => []
  | (k, j) :: ms => (k, j.reread) :: rereadMembers ms

end

theorem fits_arr (items : List Json) : fits (arr items) ↔ ∀ j ∈ items, j.fits := by
  change allFit items ↔ _
  induction items with
  | nil => simp [allFit]
  | cons j items ih => simp [allFit, ih]

theorem fits_obj (ms : Members) : fits (obj ms) ↔ ms.Values fun j => j.fits := by
  change membersFit ms ↔ ∀ m ∈ ms, m.2.fits
  induction ms with
  | nil => simp [membersFit]
  | cons m ms ih => simp [membersFit, ih]

theorem fits_of_inInt64 {n : ℤ} (h : InInt64 n) : fits (int n) := by
  show (decide (-2 ^ 63 ≤ n) && decide (n < 2 ^ 63)) = true
  rw [Bool.and_eq_true, decide_eq_true_iff, decide_eq_true_iff]
  exact h

theorem fits_of_inInt {n : ℤ} (h : InInt n) : fits (int n) :=
  fits_of_inInt64 ⟨by have := h.1; omega, by have := h.2; omega⟩

theorem reread_arr (items : List Json) : reread (arr items) = arr (items.map reread) := by
  change arr (rereadItems items) = _
  congr 1
  induction items with
  | nil => rfl
  | cons j items ih => rw [rereadItems, ih, List.map_cons]

theorem lookup_reread (k : String) (ms : Members) :
    List.lookup k (rereadMembers ms) = (List.lookup k ms).map reread := by
  induction ms with
  | nil => rfl
  | cons m ms ih =>
    obtain ⟨k', j⟩ := m
    rw [rereadMembers, Members.lookup_cons, Members.lookup_cons, ih]
    split
    · rfl
    · rfl

end Json

namespace Members

variable {p : Json → Prop} {ms : Members} {k : String} {v : Json}

theorem values_empty : empty.Values p := List.forall_mem_nil _

theorem values_put (h : ms.Values p) (hv : p v) : (ms.put k v).Values p := by
  induction ms with
  | nil => exact List.forall_mem_singleton.2 hv
  | cons m ms ih =>
    obtain ⟨k', v'⟩ := m
    obtain ⟨hm, hms⟩ := List.forall_mem_cons.1 h
    rw [put]
    split
    · exact List.forall_mem_cons.2 ⟨hv, hms⟩
    split
    · exact List.forall_mem_cons.2 ⟨hv, h⟩
    · exact List.forall_mem_cons.2 ⟨hm, ih hms⟩

theorem values_putIf {c : Bool} (h : ms.Values p) (hv : p v) : (ms.putIf c k v).Values p := by
  cases c with
  | false => exact h
  | true => exact values_put h hv

theorem values_putSome {α : Type} {o : Option α} {f : α → Json} (h : ms.Values p)
    (hv : ∀ a ∈ o, p (f a)) : (ms.putSome o k f).Values p := by
  cases o with
  | none => exact h
  | some a => exact values_put h (hv a rfl)

end Members

/-- A reader that gets the same from the two values. -/
def ReadsAlike {α : Type} (get : Json → Option α) : Prop := ∀ j, get j.reread = get j

theorem readsAlike_str : ReadsAlike Json.getStr := by
  intro j
  cases j with
  | int n =>
    rw [Json.reread, Json.number]
    split
    · rfl
    · rfl
  | float x =>
    rw [Json.reread]
    split
    · rfl
    · rfl
  | _ => rfl

theorem member_reread (j : Json) (k : String) :
    j.reread.member k = (j.member k).map Json.reread := by
  cases j with
  | obj ms => exact Json.lookup_reread k ms
  | int n =>
    rw [Json.reread, Json.number]
    split <;> rfl
  | float x =>
    rw [Json.reread]
    split <;> rfl
  | _ => rfl

theorem bind_reread {α : Type} {get : Json → Option α} (h : ReadsAlike get) (o : Option Json) :
    (o.map Json.reread).bind get = o.bind get := by
  cases o with
  | none => rfl
  | some j => exact h j

end TrtcAsr
