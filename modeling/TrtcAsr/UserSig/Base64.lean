/-
  Base64 (usersig.cc, `Base64Encode` and `Base64Decode`).

  * `base64Decode_encode`: every byte string is decoded from its encoding;
  * `mem_base64Encode`: an encoding has characters of the alphabet and padding only.
-/
import TrtcAsr.Errors

namespace TrtcAsr

def kB64Alphabet : Bytes :=
  ascii "ABCDEFGHIJKLMNOPQRSTUVWXYZabcdefghijklmnopqrstuvwxyz0123456789+/"

/-- A character of the alphabet, from the low 6 bits of `v`. -/
def b64Char (v : ℕ) : UInt8 := kB64Alphabet.getD (v &&& 0x3F) 0

/-- `Base64Encode`: three bytes at a time, the last group padded with `=`. -/
def base64Encode : Bytes → Bytes
  | [] => []
  | [a] =>
    let v := a.toNat <<< 16
    [b64Char (v >>> 18), b64Char (v >>> 12), 0x3D, 0x3D]
  | [a, b] =>
    let v := a.toNat <<< 16 ||| b.toNat <<< 8
    [b64Char (v >>> 18), b64Char (v >>> 12), b64Char (v >>> 6), 0x3D]
  | a :: b :: c :: data =>
    let v := a.toNat <<< 16 ||| b.toNat <<< 8 ||| c.toNat
    [b64Char (v >>> 18), b64Char (v >>> 12), b64Char (v >>> 6), b64Char v] ++ base64Encode data

/-- `B64Value`; `none` is -1. -/
def b64Value (c : UInt8) : Option ℕ :=
  if 0x41 ≤ c ∧ c ≤ 0x5A then some (c.toNat - 0x41)
  else if 0x61 ≤ c ∧ c ≤ 0x7A then some (c.toNat - 0x61 + 26)
  else if 0x30 ≤ c ∧ c ≤ 0x39 then some (c.toNat - 0x30 + 52)
  else if c = 0x2B then some 62
  else if c = 0x2F then some 63
  else none

/-- The loop of `Base64Decode`, from the values `acc` and `bits` of its variables. -/
def base64DecodeFrom (acc bits : ℕ) : Bytes → Except ASRError Bytes
  | [] => .ok []
  | c :: s =>
    if c = 0x3D then .ok []
    else
      match b64Value c with
      | none => invalidParam (ascii "base64 decode failed: invalid character")
      | some v =>
        let acc := (acc <<< 6 ||| v) % 2 ^ 32
        let bits := bits + 6
        if 8 ≤ bits then
          let bits := bits - 8
          (base64DecodeFrom acc bits s).map (UInt8.ofNat (acc >>> bits &&& 0xFF) :: ·)
        else base64DecodeFrom acc bits s

/-- `Base64Decode`. -/
def base64Decode (s : Bytes) : Except ASRError Bytes := base64DecodeFrom 0 0 s

/-! ## Decoding an encoding -/

theorem b64Char_mod (v : ℕ) : b64Char v = kB64Alphabet.getD (v % 64) 0 :=
  congrArg (kB64Alphabet.getD · 0) (Nat.and_two_pow_sub_one_eq_mod v 6)

theorem b64Value_b64Char (v : ℕ) : b64Value (b64Char v) = some (v % 64) := by
  have hall : ∀ n : Fin 64, b64Value (kB64Alphabet.getD n.val 0) = some n.val := by decide +kernel
  exact b64Char_mod v ▸ hall ⟨v % 64, Nat.mod_lt _ (by omega)⟩

theorem b64Char_ne_pad (v : ℕ) : b64Char v ≠ 0x3D := by
  intro h
  have := b64Value_b64Char v
  rw [h] at this
  cases this

/-- The accumulator after a character of the alphabet. -/
def b64Acc (acc v : ℕ) : ℕ := (acc * 64 + v % 64) % 2 ^ 32

theorem base64DecodeFrom_char (acc bits v : ℕ) (s : Bytes) :
    base64DecodeFrom acc bits (b64Char v :: s) =
      if 2 ≤ bits then
        (base64DecodeFrom (b64Acc acc v) (bits - 2) s).map
          (UInt8.ofNat (b64Acc acc v / 2 ^ (bits - 2)) :: ·)
      else base64DecodeFrom (b64Acc acc v) (bits + 6) s := by
  have hacc : (acc <<< 6 ||| v % 64) % 2 ^ 32 = b64Acc acc v := by
    rw [b64Acc, ← Nat.shiftLeft_add_eq_or_of_lt (Nat.mod_lt v (by omega)), Nat.shiftLeft_eq]
  have hbyte : ∀ n : ℕ, UInt8.ofNat (n &&& 0xFF) = UInt8.ofNat n := by
    intro n
    rw [← UInt8.toNat_inj, UInt8.toNat_ofNat', UInt8.toNat_ofNat',
      Nat.and_two_pow_sub_one_eq_mod n 8, Nat.mod_mod]
  have hbits : 8 ≤ bits + 6 ↔ 2 ≤ bits := by omega
  have hrest : bits + 6 - 8 = bits - 2 := by omega
  rw [base64DecodeFrom, if_neg (b64Char_ne_pad v), b64Value_b64Char]
  simp only [hacc, hbyte, hbits, hrest, Nat.shiftRight_eq_div_pow]

/-- The 24 bits of a group. -/
theorem b64Group_eq (a b c : UInt8) :
    a.toNat <<< 16 ||| b.toNat <<< 8 ||| c.toNat = a.toNat * 65536 + b.toNat * 256 + c.toNat := by
  have hb := b.toNat_lt
  have hc := c.toNat_lt
  have hlow : b.toNat <<< 8 ||| c.toNat = b.toNat * 256 + c.toNat := by
    rw [← Nat.shiftLeft_add_eq_or_of_lt (by omega), Nat.shiftLeft_eq]
  rw [Nat.or_assoc, hlow, ← Nat.shiftLeft_add_eq_or_of_lt (by omega), Nat.shiftLeft_eq,
    Nat.add_assoc]

theorem base64DecodeFrom_pad (acc bits : ℕ) (s : Bytes) :
    base64DecodeFrom acc bits (0x3D :: s) = .ok [] := rfl

theorem map_map_cons (r : Except ASRError Bytes) (x : UInt8) (xs : Bytes) :
    (r.map (x :: ·)).map (xs ++ ·) = r.map (xs ++ [x] ++ ·) := by
  cases r with
  | error e => rfl
  | ok t =>
    change Except.ok (xs ++ x :: t) = Except.ok (xs ++ [x] ++ t)
    rw [List.append_assoc, List.singleton_append]

section
variable (acc v : ℕ) (s : Bytes)

/-- The accumulator after the characters of the first 12, 18 and 24 bits of `v`. -/
def b64Acc2 : ℕ := b64Acc (b64Acc acc (v >>> 18)) (v >>> 12)

def b64Acc3 : ℕ := b64Acc (b64Acc2 acc v) (v >>> 6)

def b64Acc4 : ℕ := b64Acc (b64Acc3 acc v) v

/-- Two characters of a group give its first byte, three the second, four the third. -/
theorem base64DecodeFrom_two :
    base64DecodeFrom acc 0 (b64Char (v >>> 18) :: b64Char (v >>> 12) :: s) =
      (base64DecodeFrom (b64Acc2 acc v) 4 s).map ([UInt8.ofNat (v / 65536)] ++ ·) := by
  have hbyte : UInt8.ofNat (b64Acc2 acc v / 2 ^ 4) = UInt8.ofNat (v / 65536) := by
    rw [← UInt8.toNat_inj, UInt8.toNat_ofNat', UInt8.toNat_ofNat', b64Acc2, b64Acc, b64Acc,
      Nat.shiftRight_eq_div_pow, Nat.shiftRight_eq_div_pow]
    omega
  rw [base64DecodeFrom_char, if_neg (by omega), base64DecodeFrom_char, if_pos (by omega),
    ← b64Acc2, hbyte]
  rfl

theorem base64DecodeFrom_three :
    base64DecodeFrom acc 0
        (b64Char (v >>> 18) :: b64Char (v >>> 12) :: b64Char (v >>> 6) :: s) =
      (base64DecodeFrom (b64Acc3 acc v) 2 s).map
        ([UInt8.ofNat (v / 65536), UInt8.ofNat (v / 256)] ++ ·) := by
  have hbyte : UInt8.ofNat (b64Acc3 acc v / 2 ^ 2) = UInt8.ofNat (v / 256) := by
    rw [← UInt8.toNat_inj, UInt8.toNat_ofNat', UInt8.toNat_ofNat', b64Acc3, b64Acc2, b64Acc, b64Acc,
      b64Acc, Nat.shiftRight_eq_div_pow, Nat.shiftRight_eq_div_pow, Nat.shiftRight_eq_div_pow]
    omega
  rw [base64DecodeFrom_two, base64DecodeFrom_char, if_pos (by omega), ← b64Acc3, hbyte,
    map_map_cons]
  rfl

theorem base64DecodeFrom_four :
    base64DecodeFrom acc 0
        (b64Char (v >>> 18) :: b64Char (v >>> 12) :: b64Char (v >>> 6) :: b64Char v :: s) =
      (base64DecodeFrom (b64Acc4 acc v) 0 s).map
        ([UInt8.ofNat (v / 65536), UInt8.ofNat (v / 256), UInt8.ofNat v] ++ ·) := by
  have hbyte : UInt8.ofNat (b64Acc4 acc v / 2 ^ 0) = UInt8.ofNat v := by
    rw [← UInt8.toNat_inj, UInt8.toNat_ofNat', UInt8.toNat_ofNat', b64Acc4, b64Acc3, b64Acc, b64Acc,
      Nat.shiftRight_eq_div_pow, pow_zero, Nat.div_one]
    omega
  rw [base64DecodeFrom_three, base64DecodeFrom_char, if_pos (by omega), ← b64Acc4, hbyte,
    map_map_cons]
  rfl

end

/-- The bytes of a group are read back from its 24 bits. -/
theorem bytes_b64Group (a b c : UInt8) :
    let v := a.toNat <<< 16 ||| b.toNat <<< 8 ||| c.toNat
    UInt8.ofNat (v / 65536) = a ∧ UInt8.ofNat (v / 256) = b ∧ UInt8.ofNat v = c := by
  have ha := a.toNat_lt
  have hb := b.toNat_lt
  have hc := c.toNat_lt
  simp only [b64Group_eq, ← UInt8.toNat_inj, UInt8.toNat_ofNat']
  omega

theorem base64DecodeFrom_encode (data : Bytes) (acc : ℕ) :
    base64DecodeFrom acc 0 (base64Encode data) = .ok data := by
  -- a group that is not full is encoded as one that zeros fill
  induction data using base64Encode.induct generalizing acc with
  | case1 => rfl
  | case2 a =>
    obtain ⟨hfirst, -, -⟩ := bytes_b64Group a 0 0
    change UInt8.ofNat ((a.toNat <<< 16 ||| 0 ||| 0) / 65536) = a at hfirst
    rw [Nat.or_zero, Nat.or_zero] at hfirst
    change base64DecodeFrom acc 0 (_ :: _ :: [0x3D, 0x3D]) = _
    rw [base64DecodeFrom_two, base64DecodeFrom_pad, hfirst]
    rfl
  | case3 a b =>
    obtain ⟨hfirst, hsecond, -⟩ := bytes_b64Group a b 0
    change UInt8.ofNat ((a.toNat <<< 16 ||| b.toNat <<< 8 ||| 0) / 65536) = a at hfirst
    change UInt8.ofNat ((a.toNat <<< 16 ||| b.toNat <<< 8 ||| 0) / 256) = b at hsecond
    rw [Nat.or_zero] at hfirst hsecond
    change base64DecodeFrom acc 0 (_ :: _ :: _ :: [0x3D]) = _
    rw [base64DecodeFrom_three, base64DecodeFrom_pad, hfirst, hsecond]
    rfl
  | case4 a b c data ih =>
    obtain ⟨hfirst, hsecond, hthird⟩ := bytes_b64Group a b c
    rw [base64Encode]
    change base64DecodeFrom acc 0 (_ :: _ :: _ :: _ :: base64Encode data) = _
    rw [base64DecodeFrom_four, ih, hfirst, hsecond, hthird]
    rfl

/-- **Every byte string is decoded from its encoding.** -/
theorem base64Decode_encode (data : Bytes) : base64Decode (base64Encode data) = .ok data :=
  base64DecodeFrom_encode data 0

/-- The characters of an encoding. -/
theorem mem_base64Encode {data : Bytes} {c : UInt8} (h : c ∈ base64Encode data) :
    c ∈ kB64Alphabet ∨ c = 0x3D := by
  have hchar : ∀ v, b64Char v ∈ kB64Alphabet := by
    have hall : ∀ n : Fin 64, kB64Alphabet.getD n.val 0 ∈ kB64Alphabet := by decide +kernel
    exact fun v => b64Char_mod v ▸ hall ⟨v % 64, Nat.mod_lt _ (by omega)⟩
  induction data using base64Encode.induct with
  | case1 => cases h
  | case2 a =>
    simp only [base64Encode, List.mem_cons, List.not_mem_nil, or_false] at h
    rcases h with rfl | rfl | rfl | rfl
    · exact .inl (hchar _)
    · exact .inl (hchar _)
    all_goals exact .inr rfl
  | case3 a b =>
    simp only [base64Encode, List.mem_cons, List.not_mem_nil, or_false] at h
    rcases h with rfl | rfl | rfl | rfl
    · exact .inl (hchar _)
    · exact .inl (hchar _)
    · exact .inl (hchar _)
    · exact .inr rfl
  | case4 a b c data ih =>
    simp only [base64Encode, List.mem_append, List.mem_cons, List.not_mem_nil, or_false] at h
    rcases h with (rfl | rfl | rfl | rfl) | h
    · exact .inl (hchar _)
    · exact .inl (hchar _)
    · exact .inl (hchar _)
    · exact .inl (hchar _)
    · exact ih h

end TrtcAsr
