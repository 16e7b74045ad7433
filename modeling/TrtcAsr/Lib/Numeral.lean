/-
  What `std::stoi` reads: white space, a sign, digits, and then anything.

  * `stoi_eq_some`: it returns a number exactly for the texts that start so;
  * `toDec_injective`, `stoi_decNat`: a numeral tells its number, and is read as it.
-/
import Mathlib.Data.List.TakeWhile
import TrtcAsr.Lib.Bytes

namespace TrtcAsr

/-- The number that decimal digits denote. -/
def decValue (digits : Bytes) : ℤ := digits.foldl (fun n d => n * 10 + (d.toNat - 0x30)) 0

/-- The text starts with the numeral of `n`, a value of an `int`; white space and a sign may stand
    before it. -/
def ReadsInt (s : Bytes) (n : ℤ) : Prop :=
  ∃ space sign digits rest, s = space ++ (sign ++ (digits ++ rest)) ∧ (∀ b ∈ space, isSpace b) ∧
    (digits ≠ [] ∧ ∀ b ∈ digits, isDigit b) ∧ (∀ b ∈ rest.head?, ¬ isDigit b) ∧
    ((sign = [] ∨ sign = [0x2B]) ∧ n = decValue digits ∨ sign = [0x2D] ∧ n = -decValue digits) ∧
    -2147483648 ≤ n ∧ n ≤ 2147483647

theorem not_isSpace_of_isDigit {b : UInt8} (h : isDigit b) : ¬ isSpace b := by
  rw [isDigit_iff] at h
  simp only [isSpace, Bool.or_eq_true, Bool.and_eq_true, decide_eq_true_eq, UInt8.le_iff_toNat_le,
    ← UInt8.toNat_inj, UInt8.reduceToNat]
  omega

theorem takeWhile_isDigit {digits rest : Bytes} (hdigits : ∀ b ∈ digits, isDigit b)
    (hrest : ∀ b ∈ rest.head?, ¬ isDigit b) : (digits ++ rest).takeWhile isDigit = digits := by
  rw [List.takeWhile_append_of_pos hdigits]
  cases rest with
  | nil => exact List.append_nil _
  | cons b rest =>
    rw [List.takeWhile_cons_of_neg (hrest b rfl), List.append_nil]

theorem dropWhile_isSpace {space s : Bytes} (hspace : ∀ b ∈ space, isSpace b)
    (hs : ∀ b ∈ s.head?, ¬ isSpace b) : (space ++ s).dropWhile isSpace = s := by
  rw [List.dropWhile_append_of_pos hspace]
  cases s with
  | nil => rfl
  | cons b s => exact List.dropWhile_cons_of_neg (hs b rfl)

theorem head?_dropWhile_isDigit (s : Bytes) : ∀ b ∈ (s.dropWhile isDigit).head?, ¬ isDigit b := by
  intro b hb
  have := List.head?_dropWhile_not isDigit s
  rw [Option.mem_def] at hb
  rw [hb] at this
  simpa using this

theorem stoi_of_readsInt {s : Bytes} {n : ℤ} (h : ReadsInt s n) : stoi s = some n := by
  obtain ⟨space, sign, digits, rest, rfl, hspace, ⟨hne, hdigits⟩, hrest, hsign, hmin, hmax⟩ := h
  obtain ⟨d, digits', rfl⟩ := List.exists_cons_of_ne_nil hne
  have hd := hdigits d List.mem_cons_self
  have htake := takeWhile_isDigit hdigits hrest
  rw [isDigit_iff] at hd
  have hplus : d ≠ 0x2B := by rintro rfl; revert hd; decide
  have hminus : d ≠ 0x2D := by rintro rfl; revert hd; decide
  have hdrop : (space ++ (sign ++ (d :: digits' ++ rest))).dropWhile isSpace =
      sign ++ (d :: digits' ++ rest) := by
    refine dropWhile_isSpace hspace ?_
    rcases hsign with ⟨rfl | rfl, -⟩ | ⟨rfl, -⟩
    · rintro _ ⟨⟩
      exact not_isSpace_of_isDigit (isDigit_iff.2 hd)
    · rintro _ ⟨⟩
      decide
    · rintro _ ⟨⟩
      decide
  unfold stoi
  rw [hdrop]
  rcases hsign with ⟨rfl | rfl, rfl⟩ | ⟨rfl, rfl⟩
  · simp only [List.nil_append, List.cons_append, List.head?_cons, Option.some.injEq, hplus, hminus,
      or_self, if_false]
    rw [← List.cons_append, htake]
    exact if_pos ⟨hne, hmin, hmax⟩
  · simp only [List.cons_append, List.nil_append, List.head?_cons, Option.some.injEq, true_or, if_true,
      List.tail_cons]
    rw [← List.cons_append, htake]
    exact if_pos ⟨hne, hmin, hmax⟩
  · simp only [List.cons_append, List.nil_append, List.head?_cons, Option.some.injEq, or_true, if_true,
      List.tail_cons]
    rw [← List.cons_append, htake]
    exact if_pos ⟨hne, hmin, hmax⟩

theorem readsInt_of_stoi {s : Bytes} {n : ℤ} (h : stoi s = some n) : ReadsInt s n := by
  have hs : s = s.takeWhile isSpace ++ s.dropWhile isSpace := List.takeWhile_append_dropWhile.symm
  have hspace : ∀ b ∈ s.takeWhile isSpace, isSpace b := fun b hb => List.mem_takeWhile_imp hb
  have hdigits : ∀ u : Bytes, ∀ b ∈ u.takeWhile isDigit, isDigit b :=
    fun u b hb => List.mem_takeWhile_imp hb
  have hsplit : ∀ u : Bytes, u = u.takeWhile isDigit ++ u.dropWhile isDigit :=
    fun u => List.takeWhile_append_dropWhile.symm
  unfold stoi at h
  dsimp only at h
  generalize s.dropWhile isSpace = t at h hs
  by_cases hplus : t.head? = some 0x2B
  · obtain ⟨u, rfl⟩ := List.head?_eq_some_iff.1 hplus
    have hsign : (0x2B :: u : Bytes).head? = some 0x2B ∨ (0x2B :: u : Bytes).head? = some 0x2D :=
      .inl hplus
    have hminus : (0x2B :: u : Bytes).head? ≠ some 0x2D := by rw [hplus]; decide
    simp only [if_pos hsign, if_neg hminus, List.tail_cons, Option.ite_none_right_eq_some] at h
    obtain ⟨⟨hne, hmin, hmax⟩, hn⟩ := h
    cases hn
    refine ⟨_, [0x2B], _, u.dropWhile isDigit, ?_, hspace, ⟨hne, hdigits u⟩,
      head?_dropWhile_isDigit u, .inl ⟨.inr rfl, rfl⟩, hmin, hmax⟩
    rw [← hsplit]
    exact hs
  by_cases hminus : t.head? = some 0x2D
  · obtain ⟨u, rfl⟩ := List.head?_eq_some_iff.1 hminus
    have hsign : (0x2D :: u : Bytes).head? = some 0x2B ∨ (0x2D :: u : Bytes).head? = some 0x2D :=
      .inr hminus
    simp only [if_pos hsign, if_pos hminus, List.tail_cons, Option.ite_none_right_eq_some] at h
    obtain ⟨⟨hne, hmin, hmax⟩, hn⟩ := h
    cases hn
    refine ⟨_, [0x2D], _, u.dropWhile isDigit, ?_, hspace, ⟨hne, hdigits u⟩,
      head?_dropWhile_isDigit u, .inr ⟨rfl, rfl⟩, hmin, hmax⟩
    rw [← hsplit]
    exact hs
  · have hsign : ¬ (t.head? = some 0x2B ∨ t.head? = some 0x2D) := not_or.2 ⟨hplus, hminus⟩
    simp only [if_neg hsign, if_neg hminus, Option.ite_none_right_eq_some] at h
    obtain ⟨⟨hne, hmin, hmax⟩, hn⟩ := h
    cases hn
    refine ⟨_, [], _, t.dropWhile isDigit, ?_, hspace, ⟨hne, hdigits t⟩,
      head?_dropWhile_isDigit t, .inl ⟨.inl rfl, rfl⟩, hmin, hmax⟩
    rw [← hsplit]
    exact hs

/-- **`std::stoi` returns a number** exactly for the texts that start with its numeral. -/
theorem stoi_eq_some {s : Bytes} {n : ℤ} : stoi s = some n ↔ ReadsInt s n :=
  ⟨readsInt_of_stoi, stoi_of_readsInt⟩

/-! ## Numerals -/

theorem foldl_decDigits (l : List Char) (hl : ∀ c ∈ l, c.isDigit) (n : ℕ) :
    (l.map fun c => UInt8.ofNat c.toNat).foldl (fun (n : ℤ) d => n * 10 + (d.toNat - 0x30)) n =
      Nat.ofDigitChars 10 l n := by
  induction l generalizing n with
  | nil => rfl
  | cons c l ih =>
    rw [List.forall_mem_cons] at hl
    have hc := hl.1
    simp only [Char.isDigit, Bool.and_eq_true, decide_eq_true_eq] at hc
    have hlow : 48 ≤ c.toNat := hc.1
    have hhigh : c.toNat ≤ 57 := hc.2
    have hbyte : (UInt8.ofNat c.toNat).toNat = c.toNat := by
      rw [UInt8.toNat_ofNat']
      omega
    have hzero : '0'.toNat = 48 := rfl
    rw [List.map_cons, List.foldl_cons, Nat.ofDigitChars_cons, ← ih hl.2, hbyte, hzero]
    congr 1
    omega

theorem decValue_decNat (n : ℕ) : decValue (decNat n) = n := by
  have hl : ∀ c ∈ Nat.toDigits 10 n, c.isDigit :=
    fun c hc => Nat.isDigit_of_mem_toDigits (by omega) (by omega) hc
  have h := foldl_decDigits (Nat.toDigits 10 n) hl 0
  rw [Nat.ofDigitChars_ten_toDigits] at h
  exact h

theorem decNat_ne_nil (n : ℕ) : decNat n ≠ [] := by
  rw [decNat, ne_eq, List.map_eq_nil_iff]
  exact Nat.toDigits_ne_nil

theorem decNat_injective : Function.Injective decNat := by
  intro n m h
  have hvalue : decValue (decNat n) = decValue (decNat m) := by rw [h]
  rw [decValue_decNat, decValue_decNat] at hvalue
  exact Int.ofNat.inj hvalue

/-- A minus sign does not begin the numeral of a natural number. -/
theorem minus_notMem_decNat (n : ℕ) : 0x2D ∉ decNat n :=
  fun h => absurd (isDigit_decNat h) (by decide)

theorem toDec_injective : Function.Injective toDec := by
  intro n m h
  cases n with
  | ofNat n =>
    cases m with
    | ofNat m => rw [decNat_injective h]
    | negSucc m =>
      change decNat n = 0x2D :: decNat (m + 1) at h
      exact absurd (h ▸ List.mem_cons_self) (minus_notMem_decNat n)
  | negSucc n =>
    cases m with
    | ofNat m =>
      change 0x2D :: decNat (n + 1) = decNat m at h
      exact absurd (h ▸ List.mem_cons_self) (minus_notMem_decNat m)
    | negSucc m => rw [Nat.succ.inj (decNat_injective (List.cons.inj h).2)]

/-- **A numeral is read as its number.** -/
theorem stoi_decNat {n : ℕ} (h : n ≤ 2147483647) : stoi (decNat n) = some n := by
  refine stoi_of_readsInt ⟨[], [], decNat n, [], ?_, by simp, ⟨decNat_ne_nil n, ?_⟩, by simp,
    .inl ⟨.inl rfl, (decValue_decNat n).symm⟩, by omega, by omega⟩
  · rw [List.append_nil, List.nil_append, List.nil_append]
  · exact fun b hb => isDigit_decNat hb

end TrtcAsr
