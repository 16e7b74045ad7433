/-
  Byte strings: prefixes of a given length, unsigned big-endian numerals, decimal numerals
  as the C++ library writes and reads them; the 32-bit integer that C++ makes of a wider
  one.
-/
import Mathlib.Data.List.Lex
import Mathlib.Algebra.Order.Ring.Nat
import Mathlib.Tactic.Ring

namespace TrtcAsr

/-- A byte string. -/
abbrev Bytes := List UInt8

/-- Byte strings are compared byte by byte, as unsigned numbers. -/
instance linearOrderUInt8 : LinearOrder UInt8 where
  le_refl := UInt8.le_refl
  le_trans _ _ _ := UInt8.le_trans
  le_antisymm _ _ := UInt8.le_antisymm
  le_total := UInt8.le_total
  lt_iff_le_not_ge a b := by
    simp only [UInt8.le_iff_toNat_le, UInt8.lt_iff_toNat_lt]
    omega
  toDecidableLE := inferInstance

/-- A property of every byte can be checked byte by byte. -/
theorem forall_byte {p : UInt8 → Prop} (h : ∀ n : Fin 256, p (UInt8.ofNat n)) (b : UInt8) : p b := by
  have hb : UInt8.ofNat b.toNat = b := UInt8.ofNat_toNat
  exact hb ▸ h ⟨b.toNat, b.toNat_lt⟩

/-- A property of the bytes of a fixed text can be computed. -/
theorem forall_mem_of_all {p : UInt8 → Prop} [DecidablePred p] {s : List UInt8}
    (h : s.all fun b => decide (p b)) : ∀ b ∈ s, p b :=
  fun b hb => of_decide_eq_true (List.all_eq_true.1 h b hb)

/-- The bytes of an ASCII text. -/
def ascii (s : String) : Bytes := s.toUTF8.data.toList

/-- The first `n` bytes and the rest, if there are that many. -/
def takeExact {α : Type*} (n : ℕ) (l : List α) : Option (List α × List α) :=
  if n ≤ l.length then some (l.take n, l.drop n) else none

theorem takeExact_append {α : Type*} (a r : List α) :
    takeExact a.length (a ++ r) = some (a, r) := by
  simp [takeExact]

theorem takeExact_eq_some {α : Type*} {n : ℕ} {l a r : List α} (h : takeExact n l = some (a, r)) :
    l = a ++ r ∧ a.length = n := by
  unfold takeExact at h
  split_ifs at h with hn
  simp only [Option.some.injEq, Prod.mk.injEq] at h
  obtain ⟨rfl, rfl⟩ := h
  exact ⟨(List.take_append_drop n l).symm, by simpa using hn⟩

/-- `static_cast<int32_t>` of an integer. -/
def toInt32 (n : ℤ) : ℤ := Int.bmod n 4294967296

/-- `std::isspace` in the C locale. -/
def isSpace (c : UInt8) : Bool := c = 0x20 || (0x09 ≤ c && c ≤ 0x0D)

def isDigit (c : UInt8) : Bool := 0x30 ≤ c && c ≤ 0x39

/-- The decimal numeral of `n`. -/
def decNat (n : ℕ) : Bytes := (Nat.toDigits 10 n).map fun c => UInt8.ofNat c.toNat

/-- `std::to_string` of an integer. -/
def toDec : ℤ → Bytes
  | .ofNat n => decNat n
  | .negSucc n => 0x2D :: decNat (n + 1)

/-- `std::stoi`; `none` is an exception. -/
def stoi (s : Bytes) : Option ℤ :=
  let s := s.dropWhile isSpace
  let digits := (if s.head? = some 0x2B ∨ s.head? = some 0x2D then s.tail else s).takeWhile isDigit
  let value : ℤ := digits.foldl (fun n d => n * 10 + (d.toNat - 0x30)) (0 : ℕ)
  let value := if s.head? = some 0x2D then -value else value
  if digits ≠ [] ∧ -2147483648 ≤ value ∧ value ≤ 2147483647 then some value else none

theorem isDigit_decNat {n : ℕ} {b : UInt8} (h : b ∈ decNat n) : isDigit b := by
  obtain ⟨c, hc, rfl⟩ := List.mem_map.1 h
  have hdigit := Nat.isDigit_of_mem_toDigits (by omega) (by omega) hc
  simp only [Char.isDigit, Bool.and_eq_true, decide_eq_true_eq] at hdigit
  have h1 : 48 ≤ c.toNat := hdigit.1
  have h2 : c.toNat ≤ 57 := hdigit.2
  have hb : (UInt8.ofNat c.toNat).toNat = c.toNat := by
    rw [UInt8.toNat_ofNat']; omega
  simp only [isDigit, Bool.and_eq_true, decide_eq_true_eq, UInt8.le_iff_toNat_le, hb]
  exact ⟨h1, h2⟩

/-- The numeral of an integer has digits and perhaps a minus sign. -/
theorem mem_toDec {n : ℤ} {b : UInt8} (h : b ∈ toDec n) : isDigit b ∨ b = 0x2D := by
  cases n with
  | ofNat n => exact .inl (isDigit_decNat h)
  | negSucc n =>
    rcases List.mem_cons.1 h with hb | hb
    · exact .inr hb
    · exact .inl (isDigit_decNat hb)

theorem isDigit_iff {b : UInt8} : isDigit b ↔ 48 ≤ b.toNat ∧ b.toNat ≤ 57 := by
  simp only [isDigit, Bool.and_eq_true, decide_eq_true_eq, UInt8.le_iff_toNat_le,
    UInt8.reduceToNat]

theorem lt_of_mem_toDec {n : ℤ} {b : UInt8} (h : b ∈ toDec n) : b < 0x80 := by
  rcases mem_toDec h with hdigit | rfl
  · rw [isDigit_iff] at hdigit
    rw [UInt8.lt_iff_toNat_lt]
    exact hdigit.2.trans_lt (by simp)
  · decide

/-- The number a byte string denotes, most significant byte first. -/
def beNat (l : Bytes) : ℕ := l.foldl (fun n b => n * 256 + b.toNat) 0

/-- The `w`-byte numeral of `n`, most significant byte first. -/
def beBytes : ℕ → ℕ → Bytes
  | 0, _ => []
  | w + 1, n => UInt8.ofNat (n / 256 ^ w) :: beBytes w n

@[simp] theorem length_beBytes (w n : ℕ) : (beBytes w n).length = w := by
  induction w with
  | zero => rfl
  | succ w ih => simp [beBytes, ih]

theorem foldl_be (l : Bytes) (n : ℕ) :
    l.foldl (fun n b => n * 256 + b.toNat) n = n * 256 ^ l.length + beNat l := by
  induction l generalizing n with
  | nil => simp [beNat]
  | cons b l ih =>
    simp only [List.foldl_cons, List.length_cons, beNat]
    rw [ih, ih (0 * 256 + b.toNat)]
    ring

theorem beNat_cons (b : UInt8) (l : Bytes) :
    beNat (b :: l) = b.toNat * 256 ^ l.length + beNat l := by
  rw [beNat, List.foldl_cons, foldl_be]; simp

theorem beNat_lt (l : Bytes) : beNat l < 256 ^ l.length := by
  induction l with
  | nil => simp [beNat]
  | cons b l ih =>
    have hb := b.toNat_lt
    have hm : b.toNat * 256 ^ l.length ≤ 255 * 256 ^ l.length := Nat.mul_le_mul_right _ (by omega)
    rw [beNat_cons, List.length_cons, pow_succ]
    omega

/-- **The numeral of `n` denotes `n` modulo its width.** -/
theorem beNat_beBytes (w n : ℕ) : beNat (beBytes w n) = n % 256 ^ w := by
  induction w with
  | zero => simp [beBytes, beNat, Nat.mod_one]
  | succ w ih =>
    have hb : (UInt8.ofNat (n / 256 ^ w)).toNat = n / 256 ^ w % 256 := UInt8.toNat_ofNat'
    rw [beBytes, beNat_cons, ih, length_beBytes, hb, pow_succ, Nat.mod_mul]
    ring

/-- A numeral does not depend on what is above its width. -/
theorem beBytes_mod {w v : ℕ} (h : w ≤ v) (n : ℕ) : beBytes w (n % 256 ^ v) = beBytes w n := by
  induction w with
  | zero => rfl
  | succ w ih =>
    have hpow : 256 ^ v = 256 ^ w * 256 ^ (v - w) := by
      rw [← pow_add]
      congr 1
      omega
    have hdvd : 256 ∣ 256 ^ (v - w) := dvd_pow_self 256 (by omega)
    have hdigit : n % 256 ^ v / 256 ^ w % 256 = n / 256 ^ w % 256 := by
      rw [hpow, Nat.mod_mul_right_div_self, Nat.mod_mod_of_dvd _ hdvd]
    have hbyte : UInt8.ofNat (n % 256 ^ v / 256 ^ w) = UInt8.ofNat (n / 256 ^ w) := by
      rw [← UInt8.toNat_inj, UInt8.toNat_ofNat', UInt8.toNat_ofNat', hdigit]
    rw [beBytes, beBytes, hbyte, ih (by omega)]

end TrtcAsr
