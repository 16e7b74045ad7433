/-
  The frame encoder of the WebSocket client (ws_client.cc, `EncodeWsFrame`).

  The masking key, drawn at random by the code, is a parameter.
  `encodeWsFrame_eq`: the encoder is the canonical encoding of RFC 6455.
-/
import TrtcAsr.Lib.Rfc6455

namespace TrtcAsr

/-- `struct WsFrame`: opcode, payload and FIN bit. -/
abbrev WsFrame := Rfc6455.Frame

/-- A masking key. -/
abbrev MaskKey := Vector UInt8 4

/-- The second header byte and the extended length of `EncodeWsFrame`. -/
def wsLength (maskBit len : ℕ) : Bytes :=
  if len < 126 then [UInt8.ofNat (maskBit ||| len)]
  else if len ≤ 0xFFFF then
    [UInt8.ofNat (maskBit ||| 126), UInt8.ofNat ((len >>> 8) &&& 0xFF), UInt8.ofNat (len &&& 0xFF)]
  else
    UInt8.ofNat (maskBit ||| 127) ::
      [7, 6, 5, 4, 3, 2, 1, 0].map fun i => UInt8.ofNat ((len >>> (8 * i)) &&& 0xFF)

/-- `EncodeWsFrame(opcode, payload, mask)`: `mask` is given as the key drawn for
    the frame, `none` for an unmasked one. -/
def encodeWsFrame (opcode : ℕ) (payload : Bytes) (mask : Option MaskKey) : Bytes :=
  let maskBit := if mask.isSome then 0x80 else 0x00
  [UInt8.ofNat (0x80 ||| opcode)] ++ wsLength maskBit payload.length ++
    match mask with
    | some key => key.toList ++ payload.mapIdx fun i b => b ^^^ key.toList.getD (i % 4) 0
    | none => payload

theorem or_0x80 {n : ℕ} (h : n < 128) : 0x80 ||| n = 128 + n := by
  have := Nat.two_pow_add_eq_or_of_lt (i := 7) h 1
  simpa using this.symm

theorem shiftRight_byte (n i : ℕ) :
    UInt8.ofNat ((n >>> (8 * i)) &&& 0xFF) = UInt8.ofNat (n / 256 ^ i) := by
  rw [Nat.shiftRight_eq_div_pow, show (0xFF : ℕ) = 2 ^ 8 - 1 by decide,
    Nat.and_two_pow_sub_one_eq_mod, pow_mul]
  exact UInt8.ofNat_mod_size

/-- The length bytes are the shortest of the three encodings. -/
theorem wsLength_eq (maskBit : ℕ) (hm : ∀ n < 128, maskBit ||| n = maskBit + n) (len : ℕ) :
    wsLength maskBit len =
      UInt8.ofNat (maskBit + (Rfc6455.encodeLength len).1) :: (Rfc6455.encodeLength len).2 := by
  unfold wsLength Rfc6455.encodeLength
  by_cases h₁ : len < 126
  · rw [if_pos h₁, if_pos h₁, hm len (by omega)]
  · rw [if_neg h₁, if_neg h₁]
    by_cases h₂ : len ≤ 0xFFFF
    · have h1 := shiftRight_byte len 1
      have h0 := shiftRight_byte len 0
      rw [Nat.mul_one] at h1
      rw [Nat.mul_zero, Nat.shiftRight_zero] at h0
      rw [if_pos h₂, if_pos (by omega), hm 126 (by omega), h1, h0]
      rfl
    · rw [if_neg h₂, if_neg (by omega), hm 127 (by omega)]
      simp only [List.map_cons, List.map_nil, shiftRight_byte, beBytes]

/-- **The encoder is the canonical encoding.** -/
theorem encodeWsFrame_eq {opcode : ℕ} (ho : opcode < 16) (payload : Bytes) (mask : Option MaskKey) :
    encodeWsFrame opcode payload mask =
      Rfc6455.encode opcode (mask.map Vector.toList) payload := by
  have h₀ := or_0x80 (show opcode < 128 by omega)
  cases mask with
  | none =>
    have hw := wsLength_eq 0x00 (by simp) payload.length
    simp only [encodeWsFrame, Rfc6455.encode, h₀, Option.isSome_none, Bool.false_eq_true, if_false,
      hw, Option.map_none]
    rfl
  | some key =>
    have hw := wsLength_eq 0x80 (fun _ hn => or_0x80 hn) payload.length
    simp only [encodeWsFrame, Rfc6455.encode, h₀, Option.isSome_some, if_true, hw, Option.map_some]
    rfl

end TrtcAsr
