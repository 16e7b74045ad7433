/-
  JSON values with typed access, as the nlohmann library documents it.

  Integers are stored as signed or unsigned numbers, or as doubles; strings are byte
  strings.  `value k d` reads a member or its default: it raises `type_error` 306 on
  a value that is not an object and 302 on a member of an incompatible type.

  * `Members.lookup_put_self`, `Members.lookup_put_of_ne`: what building an object
    member by member makes of its lookups; `simp` finds a member by them.
  * `Json.value_ok_iff`: when a typed access succeeds.
-/
import TrtcAsr.Lib.Binary64
import TrtcAsr.Lib.Bytes

namespace TrtcAsr

inductive Json where
  | null
  | bool (b : Bool)
  | int (n : ℤ)
  | uint (n : ℕ)
  | float (x : Binary64)
  | str (s : Bytes)
  | arr (items : List Json)
  | obj (members : List (String × Json))
  deriving Repr

/-- The exceptions of the library: `parse_error`, and `type_error` with its id. -/
inductive JsonError where
  | parseError
  | typeError (id : ℕ)
  deriving DecidableEq, Repr

/-- The members of an object, in key order. -/
abbrev Members := List (String × Json)

namespace Members

def empty : Members := []

/-- `object[k] = v`. -/
def put (ms : Members) (k : String) (v : Json) : Members :=
  match ms with
  | [] => [(k, v)]
  | (k', v') :: ms =>
    if k = k' then (k, v) :: ms
    else if k < k' then (k, v) :: (k', v') :: ms
    else (k', v') :: put ms k v

/-- `if (c) object[k] = v`. -/
def putIf (ms : Members) (c : Bool) (k : String) (v : Json) : Members :=
  if c then ms.put k v else ms

/-- `if (o.has_value()) object[k] = *o`. -/
def putSome {α : Type*} (ms : Members) (o : Option α) (k : String) (v : α → Json) : Members :=
  match o with
  | some a => ms.put k (v a)
  | none => ms

variable {k k' : String} {v : Json} {ms : Members}

@[simp] theorem lookup_empty (k : String) : List.lookup k empty = none := List.lookup_nil

theorem lookup_cons (k k' : String) (v : Json) (ms : Members) :
    List.lookup k ((k', v) :: ms) = if k = k' then some v else List.lookup k ms := by
  simp only [List.lookup_cons]
  by_cases h : k = k'
  · simp [h]
  · simp [h, beq_eq_false_iff_ne.2 h]

@[simp] theorem lookup_put_self (ms : Members) (k : String) (v : Json) :
    List.lookup k (ms.put k v) = some v := by
  induction ms with
  | nil => simp [put]
  | cons m ms ih =>
    simp only [put]
    split
    · rw [lookup_cons, if_pos rfl]
    split
    · rw [lookup_cons, if_pos rfl]
    · rename_i hne _
      rw [lookup_cons, if_neg hne, ih]

@[simp] theorem lookup_put_of_ne (h : k' ≠ k) (ms : Members) (v : Json) :
    List.lookup k' (ms.put k v) = List.lookup k' ms := by
  induction ms with
  | nil => rw [put, lookup_cons, if_neg h]
  | cons m ms ih =>
    obtain ⟨k₁, v₁⟩ := m
    simp only [put]
    split
    · rename_i heq
      subst heq
      rw [lookup_cons, lookup_cons, if_neg h, if_neg h]
    split
    · rw [lookup_cons, if_neg h]
    · rw [lookup_cons, lookup_cons, ih]

@[simp] theorem lookup_putIf_self (ms : Members) (c : Bool) (k : String) (v : Json) :
    List.lookup k (ms.putIf c k v) = if c then some v else List.lookup k ms := by
  cases c with
  | false => rfl
  | true => exact lookup_put_self ms k v

@[simp] theorem lookup_putIf_of_ne (h : k' ≠ k) (ms : Members) (c : Bool) (v : Json) :
    List.lookup k' (ms.putIf c k v) = List.lookup k' ms := by
  cases c with
  | false => rfl
  | true => exact lookup_put_of_ne h ms v

@[simp] theorem lookup_putSome_self {α : Type*} (ms : Members) (o : Option α) (k : String)
    (v : α → Json) :
    List.lookup k (ms.putSome o k v) = (o.map v).or (List.lookup k ms) := by
  cases o with
  | none => rfl
  | some a => exact lookup_put_self ms k (v a)

@[simp] theorem lookup_putSome_of_ne {α : Type*} (h : k' ≠ k) (ms : Members) (o : Option α)
    (v : α → Json) : List.lookup k' (ms.putSome o k v) = List.lookup k' ms := by
  cases o with
  | none => rfl
  | some a => exact lookup_put_of_ne h ms (v a)

end Members

namespace Json

def isObject : Json → Bool
  | obj _ => true
  | _ => false

def isNull : Json → Bool
  | null => true
  | _ => false

/-- `contains(k)` and `operator[](k)`: the member `k` of an object. -/
def member (j : Json) (k : String) : Option Json :=
  match j with
  | obj ms => ms.lookup k
  | _ => none

/-- The conversion of a double to a signed integer of `w + 1` bits; out of range it is undefined
    in C++, and on x86 the smallest value. -/
def floatToInt (w : ℕ) (x : Binary64) : ℤ :=
  match x.trunc with
  | some n => if -2 ^ w ≤ n ∧ n < 2 ^ w then n else -2 ^ w
  | none => -2 ^ w

/-- `get<int>()`. -/
def getInt : Json → Option ℤ
  | bool b => some (if b then 1 else 0)
  | int n => some (toInt32 n)
  | uint n => some (toInt32 n)
  | float x => some (floatToInt 31 x)
  | _ => none

/-- `get<int64_t>()`, the library's own integer type: it is read from numbers only. -/
def getInt64 : Json → Option ℤ
  | int n => some n
  | uint n => some (Int.bmod n (2 ^ 64))
  | float x => some (floatToInt 63 x)
  | _ => none

def isNumber : Json → Bool
  | int _ | uint _ | float _ => true
  | _ => false

/-- `get<std::string>()`. -/
def getStr : Json → Option Bytes
  | str s => some s
  | _ => none

/-- `get<double>()`. -/
def getDouble : Json → Option Binary64
  | int n => some (.ofInt n)
  | uint n => some (.ofInt n)
  | float x => some x
  | _ => none

/-- `operator[](k)`: a null value becomes an object first, and a member that is missing is null. -/
def index (j : Json) (k : String) : Except JsonError Json :=
  match j with
  | obj ms => .ok ((ms.lookup k).getD null)
  | null => .ok null
  | _ => .error (.typeError 305)

/-- `contains(k) && j[k].is_object()`. -/
def hasObject (j : Json) (k : String) : Except JsonError Bool :=
  match j.member k with
  | some _ => (j.index k).map isObject
  | none => .ok false

/-- `contains(k) && at(k).is_array()`: the elements of the array `k`, if it is one. -/
def arrayAt (j : Json) (k : String) : List Json :=
  match j.member k with
  | some (arr items) => items
  | _ => []

/-- `value(k, d)`: the member `k`, or `d` if there is none. -/
def value {α : Type*} (get : Json → Option α) (j : Json) (k : String) (d : α) :
    Except JsonError α :=
  match j with
  | obj ms =>
    match ms.lookup k with
    | none => .ok d
    | some v =>
      match get v with
      | some a => .ok a
      | none => .error (.typeError 302)
  | _ => .error (.typeError 306)

/-- The member `k`, if there is one, has a type that `get` accepts. -/
def Reads {α : Type*} (get : Json → Option α) (j : Json) (k : String) : Prop :=
  ∀ v, j.member k = some v → (get v).isSome

/-- The types members are read with: `get<int>()`, `get<int64_t>()`, `get<std::string>()`,
    `get<double>()`. -/
inductive Kind where
  | int
  | int64
  | str
  | double
  deriving DecidableEq, Repr

def Kind.Accepts : Kind → Json → Prop
  | int, v => v.getInt.isSome
  | int64, v => v.getInt64.isSome
  | str, v => v.getStr.isSome
  | double, v => v.getDouble.isSome

/-- `j` is an object, and those of its members that the schema names have their type. -/
def Has (j : Json) (schema : List (String × Kind)) : Prop :=
  j.isObject ∧ ∀ f ∈ schema, ∀ v, j.member f.1 = some v → f.2.Accepts v

theorem index_of_member {j v : Json} {k : String} (h : j.member k = some v) :
    j.index k = .ok v := by
  cases j with
  | obj ms =>
    rw [member] at h
    rw [index, h, Option.getD_some]
  | _ => cases h

/-- The test never throws: `operator[]` is only reached on an object with the member. -/
theorem hasObject_eq (j : Json) (k : String) :
    j.hasObject k = .ok ((j.member k).any isObject) := by
  unfold hasObject
  cases h : j.member k with
  | none => rfl
  | some v =>
    rw [index_of_member h]
    rfl

/-- **A typed access succeeds** on an object whose member, if present, has the type. -/
theorem value_ok_iff {α : Type*} {get : Json → Option α} {j : Json} {k : String} {d : α} :
    (∃ a, j.value get k d = .ok a) ↔ j.isObject ∧ j.Reads get k := by
  by_cases hj : j.isObject
  · obtain ⟨ms, rfl⟩ : ∃ ms, j = obj ms := by
      cases j with
      | obj ms => exact ⟨ms, rfl⟩
      | _ => cases hj
    simp only [value, Reads, member, hj, true_and]
    cases ms.lookup k with
    | none => simp
    | some v =>
      cases hg : get v with
      | none => simp [hg]
      | some a => simp [hg]
  · constructor
    · rintro ⟨a, h⟩
      cases j with
      | obj ms => exact absurd rfl hj
      | _ => cases h
    · rintro ⟨h, -⟩
      exact absurd h hj

end Json

end TrtcAsr
