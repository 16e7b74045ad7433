/-
  Errors of the SDK (errors.h) and the exceptions that can leave one of its calls.
-/
import TrtcAsr.Lib.Json

namespace TrtcAsr

def kErrInvalidParam : ℤ := 1001
def kErrConnectFailed : ℤ := 1002
def kErrWriteFailed : ℤ := 1003
def kErrReadFailed : ℤ := 1004
def kErrAuthFailed : ℤ := 1005
def kErrTimeout : ℤ := 1006
def kErrServerError : ℤ := 1007
def kErrAlreadyStarted : ℤ := 1008
def kErrNotStarted : ℤ := 1009

/-- `class ASRError`. -/
structure ASRError where
  code : ℤ
  message : Bytes
  deriving DecidableEq, Repr

/-- How a call can end other than by returning: an `ASRError`, an exception of the JSON
    library, or a write through a null pointer. -/
inductive Exn where
  | asr (e : ASRError)
  | json (e : JsonError)
  | nullWrite
  deriving DecidableEq, Repr

/-- The call returns a value or throws an `ASRError`. -/
def Converges {α : Type*} : Except Exn α → Prop
  | .ok _ => True
  | .error (.asr _) => True
  | .error _ => False

/-- `throw ASRError(kErrInvalidParam, message)`. -/
def invalidParam {α : Type*} (message : Bytes) : Except ASRError α :=
  .error ⟨kErrInvalidParam, message⟩

/-- `if (p) throw ASRError(kErrInvalidParam, message)`. -/
def rejectIf (p : Prop) [Decidable p] (message : Bytes) : Except ASRError Unit :=
  if p then invalidParam message else .ok ()

theorem rejectIf_eq_ok {p : Prop} [Decidable p] {message : Bytes} :
    rejectIf p message = .ok () ↔ ¬ p := by
  unfold rejectIf invalidParam
  by_cases h : p
  · simp [h]
  · simp [h]

variable {ε α β : Type}

theorem mapError_eq_ok {ε' : Type} {x : Except ε α} {f : ε → ε'} {a : α} :
    x.mapError f = .ok a ↔ x = .ok a := by
  cases x with
  | error e => exact ⟨nofun, nofun⟩
  | ok b => exact ⟨fun h => by cases h; rfl, fun h => by cases h; rfl⟩

theorem bind_eq_ok {x : Except ε α} {f : α → Except ε β} {b : β} :
    x >>= f = .ok b ↔ ∃ a, x = .ok a ∧ f a = .ok b := by
  cases x with
  | error e => exact ⟨nofun, fun ⟨_, h, _⟩ => nomatch h⟩
  | ok a => exact ⟨fun h => ⟨a, rfl, h⟩, fun ⟨_, h, hf⟩ => by cases h; exact hf⟩

theorem exists_bind_ok {x : Except ε α} {f : α → Except ε β} :
    (∃ b, x >>= f = .ok b) ↔ ∃ a, x = .ok a ∧ ∃ b, f a = .ok b := by
  constructor
  · rintro ⟨b, h⟩
    obtain ⟨a, ha, hb⟩ := bind_eq_ok.1 h
    exact ⟨a, ha, b, hb⟩
  · rintro ⟨a, ha, b, hb⟩
    exact ⟨b, bind_eq_ok.2 ⟨a, ha, hb⟩⟩

theorem exists_pure_ok (a : α) : (∃ b, (pure a : Except ε α) = .ok b) ↔ True :=
  iff_true_intro ⟨a, rfl⟩

theorem exists_mapM_ok {f : α → Except ε β} {l : List α} :
    (∃ bs, l.mapM f = .ok bs) ↔ ∀ a ∈ l, ∃ b, f a = .ok b := by
  induction l with
  | nil => exact ⟨fun _ => by simp, fun _ => ⟨[], rfl⟩⟩
  | cons a l ih =>
    rw [List.mapM_cons, List.forall_mem_cons, ← ih]
    simp only [exists_bind_ok, exists_pure_ok, and_true, exists_and_right]

theorem converges_error {e : Exn} : Converges (.error e : Except Exn α) ↔ ∃ e', e = .asr e' := by
  cases e with
  | asr e => exact iff_of_true trivial ⟨e, rfl⟩
  | json e => exact iff_of_false id (by simp)
  | nullWrite => exact iff_of_false id (by simp)

/-- A sequence converges when each part that is reached does. -/
theorem converges_bind {x : Except Exn α} {f : α → Except Exn β} :
    Converges (x >>= f) ↔ Converges x ∧ ∀ a, x = .ok a → Converges (f a) := by
  cases x with
  | error e =>
    cases e with
    | asr e => exact iff_of_true trivial ⟨trivial, by simp⟩
    | json e => exact iff_of_false id And.left
    | nullWrite => exact iff_of_false id And.left
  | ok a => exact ⟨fun h => ⟨trivial, by rintro _ ⟨⟩; exact h⟩, fun h => h.2 a rfl⟩

theorem converges_pure (a : α) : Converges (pure a : Except Exn α) := trivial

theorem converges_asr (x : Except ASRError α) : Converges (x.mapError .asr) := by
  cases x with
  | error e => trivial
  | ok a => trivial

theorem converges_json {x : Except JsonError α} : Converges (x.mapError .json) ↔ ∃ a, x = .ok a := by
  cases x with
  | error e => exact iff_of_false id (by simp)
  | ok a => exact iff_of_true trivial ⟨a, rfl⟩

end TrtcAsr
