/-
  What a normal return of `PostFlat` and `CheckCode` says about the server (v3.cc).

  The code of a response is read as an `int`: a number outside its range is narrowed, a
  fraction is cut off.  The numbers that the conversion turns into 0 (`Vanishes`) are taken
  for success.

  * `getInt_number`: what the conversion makes of a number;
  * `success_iff`: a return means success, and everything else an `ASRError`, exactly when
    the code does not vanish and the texts of an error are strings.
-/
import Mathlib.Algebra.Order.Field.Rat
import TrtcAsr.V3.Convergence

namespace TrtcAsr.V3

/-! ## The number of a code -/

/-- The value of a number, unless it is an infinity or a NaN. -/
def numeric : Json → Option ℚ
  | .int n => some n
  | .uint n => some n
  | .float x => if x.isFinite then some (x.scaled / 2 ^ 1074) else none
  | _ => none

/-- The numbers other than 0 that `static_cast<int>` turns into 0: multiples of 2^32 and
    fractions between -1 and 1. -/
def Vanishes : Json → Prop
  | .int n => n ≠ 0 ∧ 2 ^ 32 ∣ n
  | .uint n => n ≠ 0 ∧ 2 ^ 32 ∣ n
  | .float x => x.isFinite ∧ x.scaled ≠ 0 ∧ x.scaled.natAbs < 2 ^ 1074
  | _ => False

theorem toInt32_eq_zero_iff {n : ℤ} : toInt32 n = 0 ↔ 2 ^ 32 ∣ n := Int.dvd_iff_bmod_eq_zero.symm

theorem toInt32_eq_self {n : ℤ} (h : -2 ^ 31 ≤ n) (h' : n < 2 ^ 31) : toInt32 n = n :=
  Int.bmod_eq_of_le (by omega) (by omega)

/-- A conversion to `int`: it is 0 for the number 0 and for those that vanish, and exact for an
    integer in its range. -/
structure Converts (v : Json) (k : ℤ) : Prop where
  zero : k = 0 ↔ numeric v = some 0 ∨ Vanishes v
  exact : ∀ n : ℤ, numeric v = some (n : ℚ) → -2 ^ 31 ≤ n → n < 2 ^ 31 → k = n

theorem converts_int (n : ℤ) : Converts (.int n) (toInt32 n) where
  zero := by
    rw [toInt32_eq_zero_iff]
    by_cases hn : n = 0
    · simp [hn, numeric]
    · simp [hn, numeric, Vanishes]
  exact := by
    intro m hm h h'
    obtain rfl : n = m := Int.cast_injective (Option.some.inj hm)
    exact toInt32_eq_self h h'

theorem tdiv_eq_zero_iff {a : ℤ} {e : ℕ} :
    a.tdiv (2 ^ e) = 0 ↔ a = 0 ∨ a ≠ 0 ∧ a.natAbs < 2 ^ e := by
  have hpos : 0 < 2 ^ e := Nat.pow_pos (by omega)
  have hlt : a.tdiv (2 ^ e) = 0 ↔ a.natAbs < 2 ^ e := by
    rw [← Int.natAbs_eq_zero, Int.natAbs_tdiv, Int.natAbs_pow]
    exact Nat.div_eq_zero_iff_lt hpos
  rw [hlt]
  by_cases h0 : a = 0
  · simp [h0]
  · simp [h0]

theorem tdiv_eq_of_eq_mul {a n : ℤ} {e : ℕ} (h : a = n * 2 ^ e) : a.tdiv (2 ^ e) = n :=
  h ▸ Int.mul_tdiv_cancel n (pow_ne_zero e (by omega))

theorem converts_float (x : Binary64) : Converts (.float x) (Json.floatToInt 31 x) := by
  by_cases hx : x.isFinite
  · have hpos : (2 : ℚ) ^ 1074 ≠ 0 := pow_ne_zero _ (by simp)
    have hnum : numeric (.float x) = some ((x.scaled : ℚ) / 2 ^ 1074) := if_pos hx
    have hconv : Json.floatToInt 31 x = if -2 ^ 31 ≤ x.scaled.tdiv (2 ^ 1074) ∧
        x.scaled.tdiv (2 ^ 1074) < 2 ^ 31 then x.scaled.tdiv (2 ^ 1074) else -2 ^ 31 := by
      rw [Json.floatToInt, Binary64.trunc, if_pos hx]
    rw [hconv]
    constructor
    · have hzero : numeric (.float x) = some 0 ↔ x.scaled = 0 := by
        rw [hnum, Option.some.injEq, div_eq_zero_iff, or_iff_left hpos, Int.cast_eq_zero]
      have hcut : (if -2 ^ 31 ≤ x.scaled.tdiv (2 ^ 1074) ∧ x.scaled.tdiv (2 ^ 1074) < 2 ^ 31
          then x.scaled.tdiv (2 ^ 1074) else -2 ^ 31) = 0 ↔ x.scaled.tdiv (2 ^ 1074) = 0 := by
        split
        · rfl
        · omega
      have hvan : Vanishes (.float x) ↔ x.scaled ≠ 0 ∧ x.scaled.natAbs < 2 ^ 1074 :=
        and_iff_right hx
      rw [hcut, tdiv_eq_zero_iff, hzero, hvan]
    · intro n hn h h'
      have hscaled : x.scaled = n * 2 ^ 1074 := by
        rw [hnum, Option.some.injEq, div_eq_iff hpos] at hn
        apply Int.cast_injective (α := ℚ)
        rw [hn, Int.cast_mul, Int.cast_pow, Int.cast_ofNat]
      rw [tdiv_eq_of_eq_mul hscaled, if_pos ⟨h, h'⟩]
  · have hconv : Json.floatToInt 31 x = -2 ^ 31 := by
      rw [Json.floatToInt, Binary64.trunc, if_neg hx]
    have hnone : numeric (.float x) = none := if_neg hx
    rw [hconv]
    constructor
    · refine iff_of_false (by omega) ?_
      rintro (h | h)
      · cases hnone.symm.trans h
      · exact hx h.1
    · intro n hn
      cases hnone.symm.trans hn

theorem not_vanishes {v : Json} (h : numeric v = some 0) : ¬ Vanishes v := by
  cases v with
  | int n => exact fun hv => hv.1 (Int.cast_injective (Option.some.inj h))
  | uint n => exact fun hv => hv.1 (Nat.cast_injective (Option.some.inj h))
  | float x =>
    rintro ⟨hx, hne, -⟩
    rw [numeric, if_pos hx, Option.some.injEq, div_eq_zero_iff, Int.cast_eq_zero] at h
    exact h.elim hne (pow_ne_zero _ (by simp))
  | _ => exact id

theorem getInt_number {v : Json} (h : v.isNumber) : ∃ k, v.getInt = some k ∧ Converts v k := by
  cases v with
  | int n => exact ⟨_, rfl, converts_int n⟩
  | uint n =>
    have hn := converts_int n
    refine ⟨_, rfl, ?_, hn.exact⟩
    have hdvd : ((4294967296 : ℤ) ∣ n) ↔ 4294967296 ∣ n := Int.natCast_dvd_natCast
    simpa [numeric, Vanishes, hdvd] using hn.zero
  | float x => exact ⟨_, rfl, converts_float x⟩
  | _ => cases h

/-! ## The code of a response -/

/-- The response has no code, or it is the number 0. -/
def ZeroCode (data : Json) : Prop := ∀ v, data.member "code" = some v → numeric v = some 0

/-- What `PostFlat` and `CheckCode` should make of a status and a response: a return only for
    success, otherwise an `ASRError`, with the code of the server when an `int` can hold it. -/
structure Truthful (status : ℤ) (data : Json) (r : Except Exn Unit) : Prop where
  returns : r = .ok () → 200 ≤ status ∧ status ≤ 299 ∧ ZeroCode data
  throws : ¬ (200 ≤ status ∧ status ≤ 299 ∧ ZeroCode data) → ∃ e, r = .error (.asr e) ∧
    ∀ (v : Json) (n : ℤ), data.member "code" = some v → numeric v = some (n : ℚ) → n ≠ 0 →
      -2 ^ 31 ≤ n → n < 2 ^ 31 → e.code = n

/-- With a status in 200..299 the code does not vanish; with a code that is not 0 and does not
    vanish, the texts of the error are strings. -/
structure Telling (status : ℤ) (data : Json) : Prop where
  kept : 200 ≤ status → status ≤ 299 → ∀ v, data.member "code" = some v → ¬ Vanishes v
  texts : ∀ v, data.member "code" = some v → numeric v ≠ some 0 → ¬ Vanishes v →
    data.Has [("message", .str), ("request_id", .str)]

/-- The conversion of a code, and what it says about the number. -/
theorem codeOf_number {data : Json}
    (hnum : ∀ v, data.member "code" = some v → v.isNumber) :
    data.Reads Json.getInt "code" ∧
      (codeOf data = 0 ↔ ∀ v, data.member "code" = some v → numeric v = some 0 ∨ Vanishes v) ∧
      ∀ v (n : ℤ), data.member "code" = some v → numeric v = some (n : ℚ) → -2 ^ 31 ≤ n →
        n < 2 ^ 31 → codeOf data = n := by
  have hreads : data.Reads Json.getInt "code" := by
    intro v hv
    obtain ⟨k, hk, -⟩ := getInt_number (hnum v hv)
    rw [hk]
    rfl
  refine ⟨hreads, ?_⟩
  cases hv : data.member "code" with
  | none =>
    have hcode : codeOf data = 0 := by rw [codeOf, hv]; rfl
    exact ⟨iff_of_true hcode (by simp), by simp⟩
  | some v =>
    obtain ⟨k, hk, hconv⟩ := getInt_number (hnum v hv)
    have hcode : codeOf data = k := by
      rw [codeOf, hv, Option.bind_some, hk]
      rfl
    rw [hcode]
    refine ⟨hconv.zero.trans ⟨fun h v' hv' => ?_, fun h => h v rfl⟩, fun v' n hv' => ?_⟩
    · cases hv'
      exact h
    · cases hv'
      exact hconv.exact n

/-- How `CheckCode` ends: it returns, throws the error of the server, or fails to read its texts. -/
theorem checkCode_cases {data : Json} (hobj : data.isObject)
    (hreads : data.Reads Json.getInt "code") :
    codeOf data = 0 ∧ checkCode data = .ok () ∨
      codeOf data ≠ 0 ∧ data.Has [("message", .str), ("request_id", .str)] ∧
        (∃ message, checkCode data = .error (.asr ⟨codeOf data, message⟩)) ∨
      codeOf data ≠ 0 ∧ ¬ data.Has [("message", .str), ("request_id", .str)] ∧
        ∃ e, checkCode data = .error (.json e) := by
  have hval : field Json.getInt data "code" 0 = .ok (codeOf data) := by
    rcases field_cases Json.getInt hobj "code" 0 with ⟨-, h⟩ | ⟨h, -⟩
    · exact h
    · exact absurd hreads h
  have htexts : data.Has [("message", .str), ("request_id", .str)] ↔
      data.Reads Json.getStr "message" ∧ data.Reads Json.getStr "request_id" := by
    simp [Json.Has, hobj, Json.Reads, Json.Kind.Accepts]
  rw [htexts]
  by_cases hc : codeOf data = 0
  · refine .inl ⟨hc, ?_⟩
    rw [checkCode, hval]
    exact if_neg (not_not.2 hc)
  have hthrows : checkCode data =
      field Json.getStr data "message" [] >>= fun message =>
        field Json.getStr data "request_id" [] >>= fun requestId =>
          .error (.asr ⟨codeOf data, message ++
            if requestId ≠ [] then ascii " (request_id: " ++ requestId ++ ascii ")" else []⟩) := by
    rw [checkCode, hval]
    exact if_pos hc
  rw [hthrows]
  refine .inr ?_
  rcases field_cases Json.getStr hobj "message" [] with ⟨hm, h⟩ | ⟨hm, e, h⟩
  · rcases field_cases Json.getStr hobj "request_id" [] with ⟨hr, h'⟩ | ⟨hr, e, h'⟩
    · refine .inl ⟨hc, ⟨hm, hr⟩, ?_⟩
      rw [h, h']
      exact ⟨_, rfl⟩
    · refine .inr ⟨hc, fun ht => hr ht.2, e, ?_⟩
      rw [h, h']
      rfl
  · refine .inr ⟨hc, fun ht => hm ht.1, e, ?_⟩
    rw [h]
    rfl

/-- **A return of `PostFlat` and `CheckCode` means success**, and everything else is an
    `ASRError`, exactly for the responses that are telling. -/
theorem success_iff {deps : Deps} {resp : HttpResponse} {data : Json}
    (hparse : deps.parse resp.body = .ok data) (hobj : data.isObject)
    (hnum : ∀ v, data.member "code" = some v → v.isNumber) :
    Truthful resp.status data (flatResponse deps resp >>= checkCode) ↔
      Telling resp.status data := by
  obtain ⟨status, body⟩ := resp
  obtain ⟨hreads, hzero, hexact⟩ := codeOf_number hnum
  have hvanish : ZeroCode data → codeOf data = 0 := fun hz => hzero.2 fun v hv => .inl (hz v hv)
  -- a code that is not 0 is thrown as it is, if it is an integer that an `int` can hold
  have hthrown : ∀ (v : Json) (n : ℤ), data.member "code" = some v → numeric v = some (n : ℚ) →
      n ≠ 0 → -2 ^ 31 ≤ n → n < 2 ^ 31 → codeOf data = n ∧ codeOf data ≠ 0 := by
    intro v n hv hn hne h h'
    have hcode := hexact v n hv hn h h'
    exact ⟨hcode, hcode ▸ hne⟩
  rcases flatResponse_object hparse hobj hreads with ⟨⟨hbad, hcode⟩, e, h⟩ | ⟨hgood, h⟩
  · rw [h]
    have hstatus : ¬ (200 ≤ status ∧ status ≤ 299) := by omega
    refine iff_of_true ⟨nofun, fun _ => ⟨e, rfl, ?_⟩⟩ ⟨fun h1 h2 => absurd ⟨h1, h2⟩ hstatus, ?_⟩
    · intro v n hv hn hne h1 h2
      exact absurd hcode (hthrown v n hv hn hne h1 h2).2
    · intro v hv hne hv'
      exact absurd (hzero.1 hcode v hv) (not_or.2 ⟨hne, hv'⟩)
  · rw [h]
    change Truthful status data (checkCode data) ↔ _
    rcases checkCode_cases hobj hreads with ⟨hc, hr⟩ | ⟨hc, htexts, message, hr⟩ |
      ⟨hc, htexts, e, hr⟩
    · rw [hr]
      have hstatus : 200 ≤ status ∧ status ≤ 299 := by
        by_contra hbad
        exact hgood ⟨by omega, hc⟩
      constructor
      · intro ht
        obtain ⟨h1, h2, hz⟩ := ht.returns rfl
        exact ⟨fun _ _ v hv => not_vanishes (hz v hv), fun v hv hne _ => absurd (hz v hv) hne⟩
      · intro ht
        have hz : ZeroCode data := fun v hv =>
          (hzero.1 hc v hv).resolve_right (ht.kept hstatus.1 hstatus.2 v hv)
        exact ⟨fun _ => ⟨hstatus.1, hstatus.2, hz⟩,
          fun hbad => absurd ⟨hstatus.1, hstatus.2, hz⟩ hbad⟩
    · rw [hr]
      refine iff_of_true ⟨by simp, fun _ => ⟨_, rfl, fun v n hv hn hne h1 h2 =>
        (hthrown v n hv hn hne h1 h2).1⟩⟩ ⟨fun _ _ v hv hv' => ?_, fun _ _ _ _ => htexts⟩
      refine hc (hzero.2 fun w hw => .inr ?_)
      rw [hv, Option.some.injEq] at hw
      exact hw ▸ hv'
    · rw [hr]
      have hnz : ¬ ZeroCode data := fun hz => hc (hvanish hz)
      refine iff_of_false (fun ht => ?_) fun ht => ?_
      · obtain ⟨e', he', -⟩ := ht.throws fun hall => hnz hall.2.2
        cases he'
      · refine hc (hzero.2 fun v hv => or_iff_not_imp_left.2 fun hne => ?_)
        exact by_contra fun hv' => htexts (ht.texts v hv hne hv')

/-- The answer to a request with a wrong signature. -/
def sampleRefusal : Json := .obj [("code", .int 4002), ("message", .str (ascii "auth failed"))]

theorem success_refusal :
    Truthful 200 sampleRefusal
      (flatResponse (sampleDeps [([], sampleRefusal)]) { status := 200 } >>= checkCode) := by
  have hnum : ∀ v, sampleRefusal.member "code" = some v → v.isNumber := by
    rintro v ⟨⟩
    rfl
  refine (@success_iff (sampleDeps [([], sampleRefusal)]) { status := 200 } _ rfl rfl hnum).2
    ⟨fun _ _ v hv => ?_, fun v _ _ _ => ?_⟩
  · cases hv
    exact fun h => absurd h.2 (by omega)
  · refine ⟨rfl, fun f hf => ?_⟩
    simp only [List.mem_cons, List.not_mem_nil, or_false] at hf
    rcases hf with rfl | rfl
    · rintro v ⟨⟩
      rfl
    · rintro v ⟨⟩

/-- **A refusal is taken for success**: the code of the response is 2^32. -/
theorem narrowed_code_succeeds :
    ¬ ∀ (deps : Deps) (resp : HttpResponse) (data : Json), deps.parse resp.body = .ok data →
      data.isObject → (∀ v, data.member "code" = some v → v.isNumber) →
      Truthful resp.status data (flatResponse deps resp >>= checkCode) := by
  intro h
  have ht := h (sampleDeps [(ascii "\x7b\"code\":4294967296\x7d", .obj [("code", .uint 4294967296)])])
    { status := 200, body := ascii "\x7b\"code\":4294967296\x7d" }
    (.obj [("code", .uint 4294967296)]) rfl rfl (by rintro v ⟨⟩; rfl)
  obtain ⟨-, -, hz⟩ := ht.returns rfl
  have hcode := hz _ rfl
  norm_num [numeric] at hcode

end TrtcAsr.V3
