/-
  UTF-8: the encoding of a text, the byte strings that encode one, ASCII texts.

  * `utf8Decode_utf8`: a text is read back from its encoding;
  * `validUtf8_iff`: whether a byte string is UTF-8 can be computed;
  * `utf8_chars`: bytes below 0x80 are the encoding of the same characters.
-/
import TrtcAsr.Lib.Bytes

namespace TrtcAsr

/-! ## Encoding and decoding -/

/-- The UTF-8 encoding of a text. -/
def utf8 (cs : List Char) : Bytes := cs.flatMap String.utf8EncodeChar

/-- The byte strings that are UTF-8. -/
def ValidUtf8 (s : Bytes) : Prop := ∃ cs, utf8 cs = s

/-- The text that a byte string encodes, if it is UTF-8. -/
def utf8Decode (s : Bytes) : Option (List Char) := s.toByteArray.utf8Decode?.map Array.toList

@[simp] theorem utf8_nil : utf8 [] = [] := rfl

@[simp] theorem utf8_cons (c : Char) (cs : List Char) :
    utf8 (c :: cs) = String.utf8EncodeChar c ++ utf8 cs := List.flatMap_cons

@[simp] theorem utf8_append (cs cs' : List Char) : utf8 (cs ++ cs') = utf8 cs ++ utf8 cs' :=
  List.flatMap_append

theorem toByteArray_utf8 (cs : List Char) : (utf8 cs).toByteArray = cs.utf8Encode := rfl

/-- **A text is read back from its encoding.** -/
theorem utf8Decode_utf8 (cs : List Char) : utf8Decode (utf8 cs) = some cs := by
  rw [utf8Decode, toByteArray_utf8, List.utf8Decode?_utf8Encode, Option.map_some]

theorem toByteArray_inj {s t : Bytes} (h : s.toByteArray = t.toByteArray) : s = t := by
  have hd := congrArg (fun b => b.data.toList) h
  simpa only [List.data_toByteArray] using hd

theorem validUtf8_iff {s : Bytes} : ValidUtf8 s ↔ (utf8Decode s).isSome := by
  constructor
  · rintro ⟨cs, rfl⟩
    rw [utf8Decode_utf8]
    rfl
  · intro h
    rw [utf8Decode, Option.isSome_map] at h
    obtain ⟨cs, hcs⟩ := ByteArray.isSome_utf8Decode?_iff.1 h
    exact ⟨cs, toByteArray_inj (hcs ▸ toByteArray_utf8 cs)⟩

instance (s : Bytes) : Decidable (ValidUtf8 s) := decidable_of_iff _ validUtf8_iff.symm

example : ¬ ValidUtf8 [0xC4, 0xE3] := by decide

/-! ## ASCII -/

theorem utf8EncodeChar_ascii {c : Char} (h : c.toNat < 0x80) :
    String.utf8EncodeChar c = [UInt8.ofNat c.toNat] := by
  have hsize : c.utf8Size = 1 := Char.utf8Size_eq_one_iff.2 (by
    rw [UInt32.le_iff_toNat_le]
    exact Nat.le_of_lt_succ h)
  rw [String.utf8EncodeChar_eq_singleton hsize]
  rfl

/-- The bytes of a character outside ASCII are not ASCII. -/
theorem le_of_mem_utf8EncodeChar {c : Char} (h : 0x80 ≤ c.toNat) {b : UInt8}
    (hb : b ∈ String.utf8EncodeChar c) : 0x80 ≤ b := by
  have hv : ¬ c.val.toNat ≤ 0x7f := by
    have := h
    rw [Char.toNat] at this
    omega
  -- every byte is a tag of at least 0x80 plus what the tag leaves room for
  have tagged : ∀ m t n, t + m ≤ 256 → 0x80 ≤ t → 0 < m → 0x80 ≤ UInt8.ofNat (n % m + t) := by
    intro m t n ht h80 hm
    have := Nat.mod_lt n hm
    rw [UInt8.le_iff_toNat_le, UInt8.toNat_ofNat', Nat.mod_eq_of_lt (by omega)]
    exact Nat.le_trans h80 (Nat.le_add_left ..)
  unfold String.utf8EncodeChar at hb
  simp only [if_neg hv] at hb
  split_ifs at hb
  all_goals
    simp only [List.mem_cons, List.not_mem_nil, or_false] at hb
    rcases hb with rfl | hb
    · exact tagged _ _ _ (by simp) (by simp) (by simp)
  · exact hb ▸ tagged _ _ _ (by simp) (by simp) (by simp)
  · rcases hb with rfl | rfl
    all_goals exact tagged _ _ _ (by simp) (by simp) (by simp)
  · rcases hb with rfl | rfl | rfl
    all_goals exact tagged _ _ _ (by simp) (by simp) (by simp)

theorem toNat_charOfNat {n : ℕ} (h : n.isValidChar) : (Char.ofNat n).toNat = n := by
  rw [Char.ofNat, dif_pos h]
  rfl

/-- The characters of an ASCII text. -/
def chars (s : Bytes) : List Char := s.map fun b => Char.ofNat b.toNat

theorem utf8_chars {s : Bytes} (h : ∀ b ∈ s, b < 0x80) : utf8 (chars s) = s := by
  induction s with
  | nil => rfl
  | cons b s ih =>
    have hb : b.toNat < 0x80 := h b List.mem_cons_self
    have hc := toNat_charOfNat (.inl (Nat.lt_trans hb (by simp)))
    rw [chars, List.map_cons, utf8_cons, utf8EncodeChar_ascii (by omega), hc]
    rw [← chars, ih fun b' hb' => h b' (List.mem_cons_of_mem _ hb'), UInt8.ofNat_toNat]
    rfl

theorem utf8_toList (s : String) : utf8 s.toList = ascii s := by
  apply toByteArray_inj
  rw [toByteArray_utf8, String.utf8Encode_toList]
  apply ByteArray.ext
  rw [List.data_toByteArray, ascii, Array.toArray_toList]
  rfl

theorem length_ascii_le (s : String) : (ascii s).length ≤ 4 * s.length := by
  rw [← utf8_toList, ← String.length_toList]
  induction s.toList with
  | nil => exact Nat.le_refl 0
  | cons c cs ih =>
    have hc := c.utf8Size_le_four
    rw [utf8_cons, List.length_append, String.length_utf8EncodeChar, List.length_cons]
    omega

/-- The characters of a decimal numeral. -/
theorem chars_decNat (n : ℕ) : chars (decNat n) = Nat.toDigits 10 n := by
  rw [chars, decNat, List.map_map]
  refine (List.map_congr_left fun c hc => ?_).trans (List.map_id _)
  have hdigit := Nat.isDigit_of_mem_toDigits (by simp) (by simp) hc
  simp only [Char.isDigit, Bool.and_eq_true, decide_eq_true_eq] at hdigit
  have hle : c.toNat ≤ 57 := hdigit.2
  rw [Function.comp, UInt8.toNat_ofNat', Nat.mod_eq_of_lt (by omega), Char.ofNat_toNat]
  rfl

end TrtcAsr
