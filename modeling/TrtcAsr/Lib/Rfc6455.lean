/-
  The base framing protocol of RFC 6455, Section 5.2.

  A frame is two header bytes, an extended length of 0, 2 or 8 bytes, a masking
  key if the mask bit is set, and the payload.  `decode` reads one frame off a
  byte string; extension data is not interpreted, and the reserved bits are
  ignored, since no extension is negotiated.

  * `Decodes s fs r`: the frames `fs`, in this order, are a complete decoding of
    the bytes of `s` before `r`.
  * `decodeAll s` is the decoding of the stream `s`: all its complete frames.
    `Decodes.initial` places every `Decodes` in it.
  * `encode` is the canonical encoding, and `decode_encode` the round trip; an
    encoding followed by any bytes decodes to the frame and these bytes.
  * `decode_extend`, `decode_truncated`: a frame does not depend on what follows it, and a
    truncated one is none.
-/
import TrtcAsr.Lib.Bytes

namespace TrtcAsr.Rfc6455

/-- A frame: the FIN bit, the opcode (`0x1` text, `0x2` binary, `0x8` close,
    `0x9` ping, `0xA` pong) and the unmasked payload. -/
structure Frame where
  opcode : ℕ
  payload : Bytes
  fin : Bool := true
  deriving DecidableEq, Repr

/-- A ping or a pong. -/
def Frame.isPingPong (f : Frame) : Bool := f.opcode = 0x9 || f.opcode = 0xA

/-- Masking with the key `k`: octet `i` is combined with octet `i mod 4` of the
    key.  The operation is its own inverse. -/
def mask (k : Bytes) (p : Bytes) : Bytes :=
  p.mapIdx fun i b => b ^^^ k.getD (i % 4) 0

@[simp] theorem length_mask (k p : Bytes) : (mask k p).length = p.length := by simp [mask]

/-- **Masking twice is the identity.** -/
@[simp] theorem mask_mask (k p : Bytes) : mask k (mask k p) = p := by
  apply List.ext_getElem
  · simp
  · intro i h₁ h₂
    simp only [mask, List.getElem_mapIdx, UInt8.xor_assoc, UInt8.xor_self, UInt8.xor_zero]

/-! ## Decoding -/

/-- The payload length: 7 bits, or 16 bits after the marker 126, or 64 bits
    after the marker 127. -/
def decodeLength (n : ℕ) (s : Bytes) : Option (ℕ × Bytes) :=
  if n = 126 then (takeExact 2 s).map fun p => (beNat p.1, p.2)
  else if n = 127 then (takeExact 8 s).map fun p => (beNat p.1, p.2)
  else some (n, s)

/-- The masking key, if the mask bit is set. -/
def decodeKey (masked : Bool) (s : Bytes) : Option (Option Bytes × Bytes) :=
  if masked then (takeExact 4 s).map fun p => (some p.1, p.2) else some (none, s)

/-- The payload: `n` bytes, unmasked. -/
def decodePayload (n : ℕ) (key : Option Bytes) (s : Bytes) : Option (Bytes × Bytes) :=
  (takeExact n s).map fun p => (match key with | some k => mask k p.1 | none => p.1, p.2)

/-- A frame from its payload on. -/
def decodeFromPayload (b₀ : UInt8) (n : ℕ) (key : Option Bytes) (s : Bytes) :
    Option (Frame × Bytes) :=
  (decodePayload n key s).map fun p =>
    ({ opcode := b₀.toNat % 16, payload := p.1, fin := decide (128 ≤ b₀.toNat) }, p.2)

/-- A frame from its masking key on. -/
def decodeFromKey (b₀ b₁ : UInt8) (n : ℕ) (s : Bytes) : Option (Frame × Bytes) :=
  (decodeKey (decide (128 ≤ b₁.toNat)) s).bind fun p => decodeFromPayload b₀ n p.1 p.2

/-- The first frame of a byte string, and what follows it. -/
def decode : Bytes → Option (Frame × Bytes)
  | b₀ :: b₁ :: s =>
    (decodeLength (b₁.toNat % 128) s).bind fun p => decodeFromKey b₀ b₁ p.1 p.2
  | _ => none

/-- `fs` is a complete decoding of the bytes of `s` before `r`. -/
inductive Decodes : Bytes → List Frame → Bytes → Prop
  | nil (s : Bytes) : Decodes s [] s
  | cons {s s' r : Bytes} {f : Frame} {fs : List Frame} :
      decode s = some (f, s') → Decodes s' fs r → Decodes s (f :: fs) r

theorem Decodes.trans {s r t : Bytes} {fs gs : List Frame} (h : Decodes s fs r)
    (h' : Decodes r gs t) : Decodes s (fs ++ gs) t := by
  induction h with
  | nil => exact h'
  | cons hd _ ih => exact .cons hd (ih h')

theorem Decodes.snoc {s r t : Bytes} {fs : List Frame} {f : Frame} (h : Decodes s fs r)
    (h' : decode r = some (f, t)) : Decodes s (fs ++ [f]) t :=
  h.trans (.cons h' (.nil t))

theorem Decodes.nil_left {fs : List Frame} {r : Bytes} (h : Decodes [] fs r) : fs = [] ∧ r = [] := by
  cases h with
  | nil => exact ⟨rfl, rfl⟩
  | cons hd _ => cases hd

theorem Decodes.uncons {s : Bytes} {fs : List Frame} (h : Decodes s fs []) (hs : s ≠ []) :
    ∃ f gs r, fs = f :: gs ∧ decode s = some (f, r) := by
  cases h with
  | nil => exact absurd rfl hs
  | cons hd _ => exact ⟨_, _, _, rfl, hd⟩

/-- The decodings of a string to its end continue all its other decodings. -/
theorem Decodes.split {s r : Bytes} {fs hs : List Frame} (h : Decodes s fs r)
    (hall : Decodes s hs []) : ∃ gs, hs = fs ++ gs ∧ Decodes r gs [] := by
  induction h generalizing hs with
  | nil => exact ⟨hs, rfl, hall⟩
  | cons hd _ ih =>
    cases hall with
    | nil => cases hd
    | cons hd' htl =>
      rw [hd] at hd'
      cases hd'
      obtain ⟨gs, rfl, hgs⟩ := ih htl
      exact ⟨gs, rfl, hgs⟩

theorem takeExact_length_le {n : ℕ} {l a r : Bytes} (h : takeExact n l = some (a, r)) :
    r.length ≤ l.length := by
  obtain ⟨rfl, -⟩ := takeExact_eq_some h
  simp

theorem decodeLength_le {n m : ℕ} {s r : Bytes} (h : decodeLength n s = some (m, r)) :
    r.length ≤ s.length := by
  unfold decodeLength at h
  split_ifs at h
  · simp only [Option.map_eq_some_iff, Prod.mk.injEq] at h
    obtain ⟨p, hp, -, rfl⟩ := h
    exact takeExact_length_le hp
  · simp only [Option.map_eq_some_iff, Prod.mk.injEq] at h
    obtain ⟨p, hp, -, rfl⟩ := h
    exact takeExact_length_le hp
  · simp only [Option.some.injEq, Prod.mk.injEq] at h
    rw [h.2]

theorem decodeKey_le {b : Bool} {k : Option Bytes} {s r : Bytes}
    (h : decodeKey b s = some (k, r)) : r.length ≤ s.length := by
  unfold decodeKey at h
  split_ifs at h
  · simp only [Option.map_eq_some_iff, Prod.mk.injEq] at h
    obtain ⟨p, hp, -, rfl⟩ := h
    exact takeExact_length_le hp
  · simp only [Option.some.injEq, Prod.mk.injEq] at h
    rw [h.2]

theorem decodePayload_le {n : ℕ} {k : Option Bytes} {p s r : Bytes}
    (h : decodePayload n k s = some (p, r)) : r.length ≤ s.length := by
  simp only [decodePayload, Option.map_eq_some_iff, Prod.mk.injEq] at h
  obtain ⟨q, hq, -, rfl⟩ := h
  exact takeExact_length_le hq

theorem takeExact_le {n : ℕ} {l a r : Bytes} (h : takeExact n l = some (a, r)) :
    n ≤ l.length := by
  obtain ⟨rfl, rfl⟩ := takeExact_eq_some h
  simp

/-- The payload has the length the header declares, and its bytes are there. -/
theorem decodeFromPayload_length {b₀ : UInt8} {n : ℕ} {k : Option Bytes} {s r : Bytes} {f : Frame}
    (h : decodeFromPayload b₀ n k s = some (f, r)) : f.payload.length = n ∧ n ≤ s.length := by
  simp only [decodeFromPayload, decodePayload, Option.map_eq_some_iff, Prod.mk.injEq] at h
  obtain ⟨p, ⟨q, hq, rfl⟩, rfl, rfl⟩ := h
  obtain ⟨hs, hl⟩ := takeExact_eq_some hq
  refine ⟨?_, takeExact_le hq⟩
  cases k with
  | none => exact hl
  | some k => simpa using hl

theorem decodeFromKey_length {b₀ b₁ : UInt8} {n : ℕ} {s r : Bytes} {f : Frame}
    (h : decodeFromKey b₀ b₁ n s = some (f, r)) : f.payload.length = n := by
  simp only [decodeFromKey, Option.bind_eq_some_iff] at h
  obtain ⟨p, -, hp⟩ := h
  exact (decodeFromPayload_length hp).1

/-- A frame takes at least its two header bytes. -/
theorem decode_length {s r : Bytes} {f : Frame} (h : decode s = some (f, r)) :
    r.length + 2 ≤ s.length := by
  match s, h with
  | b₀ :: b₁ :: s, h =>
    simp only [decode, decodeFromKey, decodeFromPayload, Option.bind_eq_some_iff, Prod.exists,
      Option.map_eq_some_iff, Prod.mk.injEq] at h
    obtain ⟨n, s₁, h₁, k, s₂, h₂, p, s₃, h₃, -, rfl⟩ := h
    have := decodeLength_le h₁
    have := decodeKey_le h₂
    have := decodePayload_le h₃
    simp only [List.length_cons]
    omega

/-- The frames of a stream, with enough `fuel` for its length. -/
def decodeFuel : ℕ → Bytes → List Frame
  | 0, _ => []
  | fuel + 1, s =>
    match decode s with
    | some (f, r) => f :: decodeFuel fuel r
    | none => []

/-- The complete frames of a stream. -/
def decodeAll (s : Bytes) : List Frame := decodeFuel s.length s

theorem Decodes.initial_fuel {s r : Bytes} {fs : List Frame} (h : Decodes s fs r) :
    ∀ {fuel : ℕ}, s.length ≤ fuel → fs <+: decodeFuel fuel s := by
  induction h with
  | nil => intro fuel _; exact List.nil_prefix
  | cons hd _ ih =>
    intro fuel hf
    have hlen := decode_length hd
    cases fuel with
    | zero => omega
    | succ fuel =>
      simp only [decodeFuel, hd]
      exact (List.cons_prefix_cons).2 ⟨rfl, ih (by omega)⟩

/-- **A partial decoding is a prefix of the decoding of the stream.** -/
theorem Decodes.initial {s r : Bytes} {fs : List Frame} (h : Decodes s fs r) :
    fs <+: decodeAll s :=
  h.initial_fuel le_rfl

/-! ## Encoding -/

/-- The shortest of the three length encodings. -/
def encodeLength (n : ℕ) : ℕ × Bytes :=
  if n < 126 then (n, []) else if n < 65536 then (126, beBytes 2 n) else (127, beBytes 8 n)

/-- The encoding of a final frame, masked if a key is given. -/
def encode (opcode : ℕ) (key : Option Bytes) (p : Bytes) : Bytes :=
  let len := encodeLength p.length
  UInt8.ofNat (128 + opcode) ::
    UInt8.ofNat ((if key.isSome then 128 else 0) + len.1) ::
      (len.2 ++ match key with | some k => k ++ mask k p | none => p)

theorem decodeLength_encodeLength {n : ℕ} (hn : n < 2 ^ 64) (s : Bytes) :
    decodeLength (encodeLength n).1 ((encodeLength n).2 ++ s) = some (n, s) := by
  unfold encodeLength
  split_ifs with h₁ h₂
  · simp only [decodeLength, List.nil_append]
    rw [if_neg (by omega), if_neg (by omega)]
  · have ht := takeExact_append (beBytes 2 n) s
    rw [length_beBytes] at ht
    simp only [decodeLength, if_true, ht, Option.map_some, beNat_beBytes]
    rw [Nat.mod_eq_of_lt (by omega)]
  · have ht := takeExact_append (beBytes 8 n) s
    rw [length_beBytes] at ht
    simp only [decodeLength, if_true, ht, Option.map_some, beNat_beBytes,
      show ¬ 127 = 126 by decide, if_false]
    rw [Nat.mod_eq_of_lt (by norm_num at hn ⊢; omega)]

theorem encodeLength_lt (n : ℕ) : (encodeLength n).1 < 128 := by
  unfold encodeLength; split_ifs <;> omega

/-- **Round trip**: an encoding followed by any bytes decodes to its frame and
    these bytes. -/
theorem decode_encode {opcode : ℕ} {key : Option Bytes} {p : Bytes} (ho : opcode < 16)
    (hk : ∀ k ∈ key, k.length = 4) (hp : p.length < 2 ^ 64) (s : Bytes) :
    decode (encode opcode key p ++ s) = some ({ opcode := opcode, payload := p }, s) := by
  have hl := encodeLength_lt p.length
  have h₀ : (UInt8.ofNat (128 + opcode)).toNat = 128 + opcode := by
    rw [UInt8.toNat_ofNat', Nat.mod_eq_of_lt (by norm_num; omega)]
  cases key with
  | none =>
    have h₁ : (UInt8.ofNat (0 + (encodeLength p.length).1)).toNat = (encodeLength p.length).1 := by
      rw [UInt8.toNat_ofNat', Nat.mod_eq_of_lt (by norm_num; omega), Nat.zero_add]
    simp only [encode, List.cons_append, List.append_assoc, decode, Option.isSome_none,
      Bool.false_eq_true, if_false, h₁]
    rw [Nat.mod_eq_of_lt hl, decodeLength_encodeLength hp, Option.bind_some]
    have hm : decide (128 ≤ (encodeLength p.length).1) = false := by simp; omega
    have ho' : (128 + opcode) % 16 = opcode := by omega
    simp only [decodeFromKey, h₁, hm, decodeKey, Bool.false_eq_true, if_false, Option.bind_some,
      decodeFromPayload, h₀, ho', decodePayload, takeExact_append, Option.map_some]
    simp
  | some k =>
    have hk4 := hk k rfl
    have h₁ : (UInt8.ofNat (128 + (encodeLength p.length).1)).toNat =
        128 + (encodeLength p.length).1 := by
      rw [UInt8.toNat_ofNat', Nat.mod_eq_of_lt (by norm_num; omega)]
    have ht := takeExact_append k (mask k p ++ s)
    have hp' := takeExact_append (mask k p) s
    rw [hk4] at ht
    rw [length_mask] at hp'
    simp only [encode, List.cons_append, List.append_assoc, decode, Option.isSome_some, if_true, h₁]
    rw [show (128 + (encodeLength p.length).1) % 128 = (encodeLength p.length).1 by omega,
      decodeLength_encodeLength hp, Option.bind_some]
    have hm : decide (128 ≤ 128 + (encodeLength p.length).1) = true := by simp
    have ho' : (128 + opcode) % 16 = opcode := by omega
    simp only [decodeFromKey, h₁, hm, decodeKey, if_true, ht, Option.map_some, Option.bind_some,
      decodeFromPayload, h₀, ho', decodePayload, hp']
    simp

/-! ## Bytes that follow -/

theorem takeExact_extend {n : ℕ} {l a r : Bytes} (h : takeExact n l = some (a, r)) (t : Bytes) :
    takeExact n (l ++ t) = some (a, r ++ t) := by
  obtain ⟨rfl, rfl⟩ := takeExact_eq_some h
  rw [List.append_assoc]
  exact takeExact_append a (r ++ t)

theorem decodeLength_extend {n m : ℕ} {s r : Bytes} (h : decodeLength n s = some (m, r)) (t : Bytes) :
    decodeLength n (s ++ t) = some (m, r ++ t) := by
  unfold decodeLength at h ⊢
  split_ifs at h ⊢
  · obtain ⟨p, hp, heq⟩ := Option.map_eq_some_iff.1 h
    cases heq
    rw [takeExact_extend hp]
    rfl
  · obtain ⟨p, hp, heq⟩ := Option.map_eq_some_iff.1 h
    cases heq
    rw [takeExact_extend hp]
    rfl
  · cases h
    rfl

theorem decodeKey_extend {masked : Bool} {k : Option Bytes} {s r : Bytes}
    (h : decodeKey masked s = some (k, r)) (t : Bytes) :
    decodeKey masked (s ++ t) = some (k, r ++ t) := by
  unfold decodeKey at h ⊢
  split_ifs at h ⊢
  · obtain ⟨p, hp, heq⟩ := Option.map_eq_some_iff.1 h
    cases heq
    rw [takeExact_extend hp]
    rfl
  · cases h
    rfl

theorem decodeFromPayload_extend {b₀ : UInt8} {n : ℕ} {k : Option Bytes} {s r : Bytes} {f : Frame}
    (h : decodeFromPayload b₀ n k s = some (f, r)) (t : Bytes) :
    decodeFromPayload b₀ n k (s ++ t) = some (f, r ++ t) := by
  obtain ⟨p, hp, heq⟩ := Option.map_eq_some_iff.1 h
  obtain ⟨q, hq, rfl⟩ := Option.map_eq_some_iff.1 hp
  cases heq
  simp only [decodeFromPayload, decodePayload, takeExact_extend hq, Option.map_some]

/-- **A frame that is there does not depend on what follows it.** -/
theorem decode_extend {s r : Bytes} {f : Frame} (h : decode s = some (f, r)) (t : Bytes) :
    decode (s ++ t) = some (f, r ++ t) := by
  match s, h with
  | b₀ :: b₁ :: s, h =>
    obtain ⟨⟨n, s₁⟩, h₁, h⟩ := Option.bind_eq_some_iff.1 h
    obtain ⟨⟨k, s₂⟩, h₂, h⟩ := Option.bind_eq_some_iff.1 h
    show (decodeLength (b₁.toNat % 128) (s ++ t)).bind _ = _
    rw [decodeLength_extend h₁, Option.bind_some]
    show (decodeKey _ (s₁ ++ t)).bind _ = _
    rw [decodeKey_extend h₂, Option.bind_some]
    exact decodeFromPayload_extend h t

/-- **A truncated frame is none.** -/
theorem decode_truncated {opcode : ℕ} {key : Option Bytes} {p s : Bytes} (ho : opcode < 16)
    (hk : ∀ k ∈ key, k.length = 4) (hp : p.length < 2 ^ 64) (hs : s <+: encode opcode key p)
    (hne : s ≠ encode opcode key p) : decode s = none := by
  by_contra h
  obtain ⟨⟨f, r⟩, hf⟩ := Option.ne_none_iff_exists'.1 h
  obtain ⟨t, ht⟩ := hs
  have hall := decode_encode ho hk hp []
  rw [List.append_nil, ← ht, decode_extend hf] at hall
  -- the frame that is there already would leave the missing bytes
  have hnil : r ++ t = [] := congrArg Prod.snd (Option.some.inj hall)
  rw [(List.append_eq_nil_iff.1 hnil).2, List.append_nil] at ht
  exact hne ht

theorem Decodes.all_fuel {s r : Bytes} {fs : List Frame} (h : Decodes s fs r) (hr : decode r = none) :
    ∀ {fuel : ℕ}, s.length ≤ fuel → decodeFuel fuel s = fs := by
  induction h with
  | nil =>
    intro fuel _
    cases fuel with
    | zero => rfl
    | succ fuel => simp only [decodeFuel, hr]
  | cons hd _ ih =>
    intro fuel hf
    have hlen := decode_length hd
    cases fuel with
    | zero => omega
    | succ fuel =>
      simp only [decodeFuel, hd]
      rw [ih hr (by omega)]

/-- **A decoding up to what is no frame is the decoding of the stream.** -/
theorem Decodes.all {s r : Bytes} {fs : List Frame} (h : Decodes s fs r) (hr : decode r = none) :
    decodeAll s = fs :=
  h.all_fuel hr le_rfl

end TrtcAsr.Rfc6455
