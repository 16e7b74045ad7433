/-
  The base64 of tickets (usersig.cc, `Base64UrlEncode` and `Base64UrlDecode`).

  * `base64UrlDecode_encode`: every byte string is decoded from its encoding;
  * `length_base64Encode`, `pad_last`: the length of an encoding, and where its padding stands;
  * `base64_round_trip`: both encodings, with their alphabets.
-/
import TrtcAsr.UserSig.Ticket

namespace TrtcAsr

/-- `Base64UrlDecode`. -/
def base64UrlDecode (s : Bytes) : Except ASRError Bytes :=
  base64Decode (s.map fun c =>
    if c = 0x5F then 0x3D else if c = 0x2D then 0x2F else if c = 0x2A then 0x2B else c)

/-- The characters of a ticket: `A-Z a-z 0-9 * - _`. -/
def isTicketChar (c : UInt8) : Bool :=
  (0x41 ≤ c && c ≤ 0x5A) || (0x61 ≤ c && c ≤ 0x7A) || isDigit c || c = 0x2A || c = 0x2D || c = 0x5F

/-! ## The alphabet -/

theorem lt_of_isTicketChar {c : UInt8} (h : isTicketChar c) : c < 0x80 := by
  simp only [isTicketChar, Bool.or_eq_true, Bool.and_eq_true, decide_eq_true_eq, isDigit_iff,
    UInt8.le_iff_toNat_le, ← UInt8.toNat_inj, UInt8.reduceToNat] at h
  simp only [UInt8.lt_iff_toNat_lt, UInt8.reduceToNat]
  omega

theorem forall_mem_base64Encode {p : UInt8 → Prop} [DecidablePred p]
    (h : (0x3D :: kB64Alphabet).all fun b => decide (p b)) (data : Bytes) :
    ∀ c ∈ base64Encode data, p c := by
  intro c hc
  have hall := forall_mem_of_all h
  rcases mem_base64Encode hc with hc | rfl
  · exact hall c (List.mem_cons_of_mem _ hc)
  · exact hall _ List.mem_cons_self

theorem base64UrlDecode_encode (data : Bytes) : base64UrlDecode (base64UrlEncode data) = .ok data := by
  have hback := forall_mem_base64Encode (p := fun c =>
    (fun c => if c = 0x5F then (0x3D : UInt8) else if c = 0x2D then 0x2F
      else if c = 0x2A then 0x2B else c)
    (if c = 0x2B then 0x2A else if c = 0x2F then 0x2D else if c = 0x3D then 0x5F else c) = c)
    (by decide +kernel) data
  rw [base64UrlDecode, base64UrlEncode, List.map_map]
  refine (congrArg base64Decode ((List.map_congr_left hback).trans (List.map_id _))).trans ?_
  exact base64Decode_encode data

theorem isTicketChar_encode (data : Bytes) : ∀ c ∈ base64UrlEncode data, isTicketChar c := by
  intro c hc
  obtain ⟨b, hb, rfl⟩ := List.mem_map.1 hc
  exact forall_mem_base64Encode (p := fun b => isTicketChar
    (if b = 0x2B then 0x2A else if b = 0x2F then 0x2D else if b = 0x3D then 0x5F else b) = true)
    (by decide +kernel) data b hb

/-! ## The shape of an encoding -/

theorem length_base64Encode (data : Bytes) :
    (base64Encode data).length = 4 * ((data.length + 2) / 3) := by
  induction data using base64Encode.induct with
  | case1 => rfl
  | case2 a => simp only [base64Encode, List.length_cons, List.length_nil]
  | case3 a b => simp only [base64Encode, List.length_cons, List.length_nil]
  | case4 a b c data ih =>
    rw [base64Encode, List.length_append, ih]
    simp only [List.length_cons, List.length_nil]
    omega

/-- **Padding stands in the last two places only.** -/
theorem pad_last {data : Bytes} {i : ℕ} (h : (base64Encode data)[i]? = some 0x3D) :
    (base64Encode data).length ≤ i + 2 := by
  have hchar : ∀ {v}, ¬ some (b64Char v) = some 0x3D := fun h => b64Char_ne_pad _ (Option.some.inj h)
  induction data using base64Encode.induct generalizing i with
  | case1 => exact Nat.zero_le _
  | case2 a =>
    rcases i with _ | _ | i
    · exact absurd h hchar
    · exact absurd h hchar
    · exact Nat.le_add_left 4 i
  | case3 a b =>
    rcases i with _ | _ | i
    · exact absurd h hchar
    · exact absurd h hchar
    · exact Nat.le_add_left 4 i
  | case4 a b c data ih =>
    rcases i with _ | _ | _ | _ | i
    · exact absurd h hchar
    · exact absurd h hchar
    · exact absurd h hchar
    · exact absurd h hchar
    · have hlen := ih (i := i) h
      change (base64Encode data).length + 4 ≤ i + 4 + 2
      omega

/-- **Both base64 encodings are read back**, and their texts have the length, the padding and the
    alphabet of base64. -/
theorem base64_round_trip (data : Bytes) :
    base64Decode (base64Encode data) = .ok data ∧
      base64UrlDecode (base64UrlEncode data) = .ok data ∧
      (base64Encode data).length = 4 * ((data.length + 2) / 3) ∧
      (∀ i : ℕ, (base64Encode data)[i]? = some 0x3D → (base64Encode data).length ≤ i + 2) ∧
      ∀ c ∈ base64UrlEncode data, isTicketChar c :=
  ⟨base64Decode_encode data, base64UrlDecode_encode data, length_base64Encode data,
    fun _ => pad_last, isTicketChar_encode data⟩

end TrtcAsr
