/-
  The texts that `Base64UrlDecode` returns for (usersig.cc).

  The decoder stops at the first padding character, whatever follows it and however many characters
  stand before it, and it takes the standard alphabet as well.

  * `Canonical`: the texts that are encodings, by their groups of four characters;
  * `Garbled`: the texts with a foreign character before their first padding;
  * `rejects_malformed_iff`: no text is taken that is not an encoding, exactly for these two kinds.
-/
import TrtcAsr.UserSig.Base64Url

namespace TrtcAsr

/-! ## The grammar of encodings -/

/-- The form that a character of the standard alphabet has in a ticket. -/
def toTicket (c : UInt8) : UInt8 :=
  if c = 0x2B then 0x2A else if c = 0x2F then 0x2D else if c = 0x3D then 0x5F else c

/-- The standard form of a character of a ticket. -/
def fromTicket (c : UInt8) : UInt8 :=
  if c = 0x5F then 0x3D else if c = 0x2D then 0x2F else if c = 0x2A then 0x2B else c

/-- The 6 bits of a character `A-Z a-z 0-9 * -`. -/
def ticketValue (c : UInt8) : Option ℕ :=
  if c = 0x2B ∨ c = 0x2F then none else b64Value (fromTicket c)

/-- Groups of four characters; the last may have one or two places of padding, and then the bits of
    its last character that belong to no byte are zero. -/
inductive Canonical : Bytes → Prop where
  | nil : Canonical []
  | one {c₁ c₂ : UInt8} {v₁ v₂ : ℕ} (h₁ : ticketValue c₁ = some v₁) (h₂ : ticketValue c₂ = some v₂)
      (hrest : v₂ % 16 = 0) : Canonical [c₁, c₂, 0x5F, 0x5F]
  | two {c₁ c₂ c₃ : UInt8} {v₁ v₂ v₃ : ℕ} (h₁ : ticketValue c₁ = some v₁)
      (h₂ : ticketValue c₂ = some v₂) (h₃ : ticketValue c₃ = some v₃) (hrest : v₃ % 4 = 0) :
      Canonical [c₁, c₂, c₃, 0x5F]
  | group {c₁ c₂ c₃ c₄ : UInt8} {v₁ v₂ v₃ v₄ : ℕ} {s : Bytes} (h₁ : ticketValue c₁ = some v₁)
      (h₂ : ticketValue c₂ = some v₂) (h₃ : ticketValue c₃ = some v₃)
      (h₄ : ticketValue c₄ = some v₄) (hs : Canonical s) :
      Canonical (c₁ :: c₂ :: c₃ :: c₄ :: s)

/-- Neither of the standard alphabet nor of the ticket's. -/
def Foreign (c : UInt8) : Prop := b64Value c = none ∧ c ≠ 0x2A ∧ c ≠ 0x2D

instance (c : UInt8) : Decidable (Foreign c) := inferInstanceAs (Decidable (_ ∧ _))

/-- A foreign character stands before the first `=` or `_`. -/
def Garbled (s : Bytes) : Prop := ∃ c ∈ s.takeWhile (fun c => c ≠ 0x3D ∧ c ≠ 0x5F), Foreign c

theorem base64UrlEncode_eq (data : Bytes) :
    base64UrlEncode data = (base64Encode data).map toTicket := rfl

theorem base64UrlDecode_eq (s : Bytes) :
    base64UrlDecode s = base64DecodeFrom 0 0 (s.map fromTicket) := rfl

/-! ## Encodings are canonical -/

theorem ticketValue_b64Char (v : ℕ) : ticketValue (toTicket (b64Char v)) = some (v % 64) := by
  have hall : ∀ n : Fin 64, ticketValue (toTicket (kB64Alphabet.getD n.val 0)) = some n.val := by
    decide +kernel
  exact b64Char_mod v ▸ hall ⟨v % 64, Nat.mod_lt _ (by omega)⟩

/-- A character of a ticket is the one that its value is encoded as. -/
theorem toTicket_of_ticketValue {c : UInt8} {v : ℕ} (h : ticketValue c = some v) :
    v < 64 ∧ toTicket (b64Char v) = c := by
  have hall : ∀ c, (ticketValue c).all (fun v => decide (v < 64 ∧ toTicket (b64Char v) = c)) =
      true := forall_byte (by decide +kernel)
  have hc := hall c
  rw [h] at hc
  exact of_decide_eq_true hc

theorem toTicket_pad : toTicket 0x3D = 0x5F := by decide

theorem canonical_encode (data : Bytes) : Canonical (base64UrlEncode data) := by
  rw [base64UrlEncode_eq]
  induction data using base64Encode.induct with
  | case1 => exact .nil
  | case2 a =>
    refine .one (ticketValue_b64Char _) (ticketValue_b64Char _) ?_
    rw [Nat.shiftLeft_eq, Nat.shiftRight_eq_div_pow]
    omega
  | case3 a b =>
    refine .two (ticketValue_b64Char _) (ticketValue_b64Char _) (ticketValue_b64Char _) ?_
    have hgroup := b64Group_eq a b 0
    change a.toNat <<< 16 ||| b.toNat <<< 8 ||| 0 = _ + 0 at hgroup
    rw [Nat.or_zero, Nat.add_zero] at hgroup
    rw [hgroup, Nat.shiftRight_eq_div_pow]
    omega
  | case4 a b c data ih =>
    rw [base64Encode, List.map_append]
    exact .group (ticketValue_b64Char _) (ticketValue_b64Char _) (ticketValue_b64Char _)
      (ticketValue_b64Char _) ih

/-! ## Canonical texts are encodings -/

/-- The number that four characters denote. -/
def quad (v₁ v₂ v₃ v₄ : ℕ) : ℕ := v₁ * 262144 + v₂ * 4096 + v₃ * 64 + v₄

theorem b64Char_quad (v₁ : ℕ) {v₂ v₃ v₄ : ℕ} (h₂ : v₂ < 64) (h₃ : v₃ < 64) (h₄ : v₄ < 64) :
    b64Char (quad v₁ v₂ v₃ v₄ >>> 18) = b64Char v₁ ∧
      b64Char (quad v₁ v₂ v₃ v₄ >>> 12) = b64Char v₂ ∧
      b64Char (quad v₁ v₂ v₃ v₄ >>> 6) = b64Char v₃ ∧
      b64Char (quad v₁ v₂ v₃ v₄) = b64Char v₄ := by
  have hmod : ∀ {m n : ℕ}, m % 64 = n % 64 → b64Char m = b64Char n := by
    intro m n h
    rw [b64Char_mod m, b64Char_mod n, h]
  simp only [Nat.shiftRight_eq_div_pow, quad]
  refine ⟨hmod ?_, hmod ?_, hmod ?_, hmod ?_⟩ <;> omega

/-- The three bytes that a number of 24 bits consists of. -/
theorem b64Group_bytes {n : ℕ} (h : n < 16777216) :
    (UInt8.ofNat (n / 65536)).toNat <<< 16 ||| (UInt8.ofNat (n / 256)).toNat <<< 8 |||
      (UInt8.ofNat n).toNat = n := by
  rw [b64Group_eq, UInt8.toNat_ofNat', UInt8.toNat_ofNat', UInt8.toNat_ofNat']
  omega

theorem exists_encode {s : Bytes} (h : Canonical s) : ∃ data, base64UrlEncode data = s := by
  have hzero : 0 < 64 := by omega
  induction h with
  | nil => exact ⟨[], rfl⟩
  | @one c₁ c₂ v₁ v₂ h₁ h₂ hrest =>
    obtain ⟨hv₁, rfl⟩ := toTicket_of_ticketValue h₁
    obtain ⟨hv₂, rfl⟩ := toTicket_of_ticketValue h₂
    obtain ⟨hc₁, hc₂, -, -⟩ := b64Char_quad v₁ hv₂ hzero hzero
    have hn : quad v₁ v₂ 0 0 < 16777216 := by rw [quad]; omega
    have hgroup := b64Group_bytes hn
    have hb : UInt8.ofNat (quad v₁ v₂ 0 0 / 256) = 0 := by
      rw [← UInt8.toNat_inj, UInt8.toNat_ofNat', quad]
      change _ = 0
      omega
    have hc : UInt8.ofNat (quad v₁ v₂ 0 0) = 0 := by
      rw [← UInt8.toNat_inj, UInt8.toNat_ofNat', quad]
      change _ = 0
      omega
    rw [hb, hc] at hgroup
    change _ ||| 0 ||| 0 = _ at hgroup
    rw [Nat.or_zero, Nat.or_zero] at hgroup
    refine ⟨[UInt8.ofNat (quad v₁ v₂ 0 0 / 65536)], ?_⟩
    rw [base64UrlEncode_eq, base64Encode]
    simp only [hgroup, hc₁, hc₂, List.map_cons, List.map_nil, toTicket_pad]
  | @two c₁ c₂ c₃ v₁ v₂ v₃ h₁ h₂ h₃ hrest =>
    obtain ⟨hv₁, rfl⟩ := toTicket_of_ticketValue h₁
    obtain ⟨hv₂, rfl⟩ := toTicket_of_ticketValue h₂
    obtain ⟨hv₃, rfl⟩ := toTicket_of_ticketValue h₃
    obtain ⟨hc₁, hc₂, hc₃, -⟩ := b64Char_quad v₁ hv₂ hv₃ hzero
    have hn : quad v₁ v₂ v₃ 0 < 16777216 := by rw [quad]; omega
    have hgroup := b64Group_bytes hn
    have hc : UInt8.ofNat (quad v₁ v₂ v₃ 0) = 0 := by
      rw [← UInt8.toNat_inj, UInt8.toNat_ofNat', quad]
      change _ = 0
      omega
    rw [hc] at hgroup
    change _ ||| _ ||| 0 = _ at hgroup
    rw [Nat.or_zero] at hgroup
    refine ⟨[UInt8.ofNat (quad v₁ v₂ v₃ 0 / 65536), UInt8.ofNat (quad v₁ v₂ v₃ 0 / 256)], ?_⟩
    rw [base64UrlEncode_eq, base64Encode]
    simp only [hgroup, hc₁, hc₂, hc₃, List.map_cons, List.map_nil, toTicket_pad]
  | @group c₁ c₂ c₃ c₄ v₁ v₂ v₃ v₄ s h₁ h₂ h₃ h₄ hs ih =>
    obtain ⟨data, rfl⟩ := ih
    obtain ⟨hv₁, rfl⟩ := toTicket_of_ticketValue h₁
    obtain ⟨hv₂, rfl⟩ := toTicket_of_ticketValue h₂
    obtain ⟨hv₃, rfl⟩ := toTicket_of_ticketValue h₃
    obtain ⟨hv₄, rfl⟩ := toTicket_of_ticketValue h₄
    obtain ⟨hc₁, hc₂, hc₃, hc₄⟩ := b64Char_quad v₁ hv₂ hv₃ hv₄
    have hn : quad v₁ v₂ v₃ v₄ < 16777216 := by rw [quad]; omega
    have hgroup := b64Group_bytes hn
    refine ⟨UInt8.ofNat (quad v₁ v₂ v₃ v₄ / 65536) :: UInt8.ofNat (quad v₁ v₂ v₃ v₄ / 256) ::
      UInt8.ofNat (quad v₁ v₂ v₃ v₄) :: data, ?_⟩
    rw [base64UrlEncode_eq, base64Encode]
    simp only [hgroup, hc₁, hc₂, hc₃, hc₄, List.map_cons, List.map_append, List.map_nil]
    rfl

/-! ## The decoder -/

theorem map_eq_error {α β : Type} {r : Except ASRError α} {f : α → β} :
    (∃ err, r.map f = .error err) ↔ ∃ err, r = .error err := by
  cases r with
  | error e => exact iff_of_true ⟨e, rfl⟩ ⟨e, rfl⟩
  | ok a => exact iff_of_false nofun nofun

/-- The decoder fails on a character without a value that it gets to. -/
theorem base64DecodeFrom_error (acc bits : ℕ) (s : Bytes) :
    (∃ err, base64DecodeFrom acc bits s = .error err) ↔
      ∃ c ∈ s.takeWhile (· ≠ 0x3D), b64Value c = none := by
  induction s generalizing acc bits with
  | nil => simp [base64DecodeFrom]
  | cons c s ih =>
    rw [base64DecodeFrom]
    by_cases hpad : c = 0x3D
    · rw [if_pos hpad, List.takeWhile_cons_of_neg (by simpa using hpad)]
      simp
    · rw [if_neg hpad, List.takeWhile_cons_of_pos (by simpa using hpad)]
      cases hv : b64Value c with
      | none => exact iff_of_true ⟨_, rfl⟩ ⟨c, List.mem_cons_self, hv⟩
      | some v =>
        have hcons : (∃ d ∈ c :: s.takeWhile (· ≠ 0x3D), b64Value d = none) ↔
            ∃ d ∈ s.takeWhile (· ≠ 0x3D), b64Value d = none := by
          rw [List.exists_mem_cons_iff, hv]
          exact or_iff_right (Option.some_ne_none v)
        rw [hcons]
        dsimp only
        split
        · rw [map_eq_error]
          exact ih _ _
        · exact ih _ _

theorem fromTicket_eq_pad (c : UInt8) : fromTicket c ≠ 0x3D ↔ c ≠ 0x3D ∧ c ≠ 0x5F := by
  have hall : ∀ c, decide (fromTicket c ≠ 0x3D ↔ c ≠ 0x3D ∧ c ≠ 0x5F) = true :=
    forall_byte (by decide +kernel)
  exact of_decide_eq_true (hall c)

theorem foreign_iff (c : UInt8) : Foreign c ↔ b64Value (fromTicket c) = none := by
  have hall : ∀ c, decide (Foreign c ↔ b64Value (fromTicket c) = none) = true :=
    forall_byte (by decide +kernel)
  exact of_decide_eq_true (hall c)

theorem base64UrlDecode_error (s : Bytes) :
    (∃ err, base64UrlDecode s = .error err) ↔ Garbled s := by
  rw [base64UrlDecode_eq, base64DecodeFrom_error, List.takeWhile_map, Garbled]
  have hstop : ((fun c : UInt8 => decide (c ≠ 0x3D)) ∘ fromTicket) =
      fun c => decide (c ≠ 0x3D ∧ c ≠ 0x5F) := by
    funext c
    exact decide_eq_decide.2 (fromTicket_eq_pad c)
  rw [hstop]
  constructor
  · rintro ⟨_, hmem, hnone⟩
    obtain ⟨c, hc, rfl⟩ := List.mem_map.1 hmem
    exact ⟨c, hc, (foreign_iff c).2 hnone⟩
  · rintro ⟨c, hc, hforeign⟩
    exact ⟨_, List.mem_map_of_mem hc, (foreign_iff c).1 hforeign⟩

/-- **A text is taken only as the encoding of what it gives, or refused**, exactly when it is
    canonical or a foreign character stands before its first padding. -/
theorem rejects_malformed_iff (s : Bytes) :
    ((∃ data, base64UrlDecode s = .ok data ∧ base64UrlEncode data = s) ∨
        ∃ err, base64UrlDecode s = .error err) ↔ Canonical s ∨ Garbled s := by
  rw [base64UrlDecode_error]
  refine or_congr_left ?_
  constructor
  · rintro ⟨data, -, rfl⟩
    exact canonical_encode data
  · intro h
    obtain ⟨data, rfl⟩ := exists_encode h
    exact ⟨data, base64UrlDecode_encode data, rfl⟩

/-- **Text after the padding, missing padding, bits that belong to no byte and the standard alphabet
    all pass.** -/
theorem malformed_accepted :
    (base64UrlDecode (ascii "QQ__x") = .ok (ascii "A") ∧
        base64UrlEncode (ascii "A") ≠ ascii "QQ__x") ∧
      (base64UrlDecode (ascii "QQ") = .ok (ascii "A") ∧ base64UrlEncode (ascii "A") ≠ ascii "QQ") ∧
      (base64UrlDecode (ascii "QR__") = .ok (ascii "A") ∧
        base64UrlEncode (ascii "A") ≠ ascii "QR__") ∧
      base64UrlDecode (ascii "QQ==") = .ok (ascii "A") ∧
        base64UrlEncode (ascii "A") ≠ ascii "QQ==" := by
  decide

end TrtcAsr
