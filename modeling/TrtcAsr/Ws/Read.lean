/-
  `WsClient::Read` (ws_client.cc): the stages of a frame and the loop over them.

  A `Read` that has not returned is at one of its `ReadExact` calls (`Stage`), at
  the pong it owes for a ping, or in the loop that writes the pong.  `readPass` is
  one pass of the innermost loop it is in.

  * `Stage.decode` gives the meaning of a stage: the decoding of what is left of
    the frame.  `Stage.decode_resume` relates it to the next stage.
  * `WsClient.readPass_cases` says once what a pass can do.
-/
import Mathlib.Data.Nat.Bitwise
import TrtcAsr.Ws.Transport

namespace TrtcAsr

/-- The `ReadExact` call a `Read` is at, with the bytes of the frame it still needs. -/
inductive Stage where
  | head
  | ext (b₀ b₁ : UInt8)
  | key (b₀ : UInt8) (len : ℕ)
  | payload (b₀ : UInt8) (len : ℕ) (maskKey : Option Bytes)
  deriving DecidableEq, Repr

/-- What `Read` does when a `ReadExact` call has returned 1. -/
inductive Resume where
  | more (s : Stage)
  | frame (f : WsFrame)
  | reject (what : String)
  deriving DecidableEq, Repr

/-- The number of bytes the call asks for. -/
def Stage.width : Stage → ℕ
  | head => 2
  | ext _ b₁ => if b₁ &&& 0x7F = 126 then 2 else 8
  | key _ _ => 4
  | payload _ len _ => len

/-- The sanity bound on a frame length. -/
def maxFrameLen : ℕ := 64 * 1024 * 1024

def fin (b₀ : UInt8) : Bool := (b₀ &&& 0x80) != 0

def opcode (b₀ : UInt8) : ℕ := (b₀ &&& 0x0F).toNat

def masked (b₁ : UInt8) : Bool := (b₁ &&& 0x80) != 0

/-- `out->payload.resize(len)` and the read of the payload, if there is one. -/
def afterKey (b₀ : UInt8) (len : ℕ) (maskKey : Option Bytes) : Resume :=
  if len > 0 then .more (.payload b₀ len maskKey)
  else .frame { opcode := opcode b₀, payload := [], fin := fin b₀ }

/-- The sanity check and the read of the masking key, if there is one. -/
def afterLength (b₀ b₁ : UInt8) (len : ℕ) : Resume :=
  if len > maxFrameLen then .reject "frame length exceeds sanity bound"
  else if masked b₁ then .more (.key b₀ len)
  else afterKey b₀ len none

/-- `Read` from the return of a `ReadExact` call to the next one. -/
def Stage.resume : Stage → Bytes → Resume
  | head, buf =>
    let b₀ := buf.getD 0 0
    let b₁ := buf.getD 1 0
    if b₁ &&& 0x7F = 126 ∨ b₁ &&& 0x7F = 127 then .more (.ext b₀ b₁)
    else afterLength b₀ b₁ (b₁ &&& 0x7F).toNat
  | ext b₀ b₁, buf => afterLength b₀ b₁ (buf.foldl (fun len b => (len <<< 8) ||| b.toNat) 0)
  | key b₀ len, buf => afterKey b₀ len (some buf)
  | payload b₀ _ maskKey, buf =>
    let payload := match maskKey with
      | some k => buf.mapIdx fun i b => b ^^^ k.getD (i % 4) 0
      | none => buf
    .frame { opcode := opcode b₀, payload := payload, fin := fin b₀ }

/-- The error of a `ReadExact` call that does not return 1. -/
def Stage.failure : Stage → String
  | head => "read frame header failed"
  | ext _ _ => "read extended length failed"
  | key _ _ => "read mask key failed"
  | payload _ _ _ => "read payload failed"

/-- What `Read` returns: 1 with a message, 0, or -1 with `*err`. -/
inductive ReadRc where
  | message (f : WsFrame)
  | timeout
  | error (what : String)
  deriving DecidableEq, Repr

inductive ReadPc where
  | exact (s : Stage) (e : ReadExact)
  /-- a ping has been read; `write_mu_` is taken next -/
  | pong (payload : Bytes)
  | pongWrite (w : WriteAll)
  deriving DecidableEq, Repr

/-- A call of `Read` that has not returned. -/
structure ReadCall where
  deadline : ℤ
  frameDeadline : ℤ := 0
  pc : ReadPc
  deriving DecidableEq, Repr

/-- Budget for finishing a frame once its header has been read. -/
def kFrameReadBudgetMs : ℤ := 10000

/-- The call of `ReadExact` for a stage. -/
def ReadCall.fetch (r : ReadCall) (s : Stage) : ReadCall :=
  let deadline := if s = .head then r.deadline else r.frameDeadline
  { r with pc := .exact s { n := s.width, deadline := deadline } }

/-- `Read(out, timeout_ms)` entered at `now`. -/
def ReadCall.start (timeoutMs now : ℤ) : ReadCall :=
  ReadCall.fetch { deadline := now + timeoutMs, pc := .pong [] } .head

/-- The code after a `ReadExact` call that returned 1: the next call, the handling of
    a ping or a pong, or the return of `Read`. -/
def ReadCall.next (r : ReadCall) : Resume → ReadCall ⊕ ReadRc
  | .more s => .inl (r.fetch s)
  | .frame f =>
    if f.opcode = 0x9 then .inl { r with pc := .pong f.payload }
    else if f.opcode = 0xA then .inl (r.fetch .head)
    else .inr (.message f)
  | .reject what => .inr (.error what)

/-- One pass of the loop `Read` is in. -/
def WsClient.readPass (c : WsClient) (r : ReadCall) (t : Tick) : WsClient × (ReadCall ⊕ ReadRc) :=
  match r.pc with
  | .exact s e =>
    match c.readExactPass e t with
    | (c, .again e) => (c, .inl { r with pc := .exact s e })
    | (c, .ok buf) =>
      let r := if s = .head then { r with frameDeadline := t.after + kFrameReadBudgetMs } else r
      (c, r.next (s.resume buf))
    | (c, .timeout) => (c, .inr (if s = .head then .timeout else .error s.failure))
    | (c, .error) => (c, .inr (.error s.failure))
  | .pong payload =>
    let w := { rest := encodeWsFrame 0xA payload (some t.key)
               deadline := t.after + toInt32 (r.deadline - t.now) }
    (c, .inl { r with pc := .pongWrite w })
  | .pongWrite w =>
    match c.writeAllPass w t with
    | (c, .again w) => (c, .inl { r with pc := .pongWrite w })
    -- the result of the pong's `WriteAll` is not looked at
    | (c, _) => (c, .inl (r.fetch .head))

/-! ## The meaning of a stage -/

theorem and_0x7F (b : UInt8) : (b &&& 0x7F).toNat = b.toNat % 128 := by
  rw [UInt8.toNat_and]
  exact Nat.and_two_pow_sub_one_eq_mod _ 7

theorem opcode_eq (b : UInt8) : opcode b = b.toNat % 16 := by
  rw [opcode, UInt8.toNat_and]
  exact Nat.and_two_pow_sub_one_eq_mod _ 4

theorem and_0x80 (b : UInt8) : ((b &&& 0x80) != 0) = decide (128 ≤ b.toNat) := by
  have hb := b.toNat_lt
  have h : (b &&& 0x80).toNat = (b.toNat.testBit 7).toNat * 2 ^ 7 := by
    rw [UInt8.toNat_and]; exact Nat.and_two_pow _ 7
  have ht : b.toNat.testBit 7 = decide (128 ≤ b.toNat) := by
    rw [Nat.testBit_eq_decide_div_mod_eq]
    congr 1
    exact propext ⟨fun _ => by omega, fun _ => by omega⟩
  have h0 : ((b &&& 0x80) != 0) = ((b &&& 0x80).toNat != 0) := by
    rw [Bool.eq_iff_iff, bne_iff_ne, bne_iff_ne, ne_eq, ne_eq, ← UInt8.toNat_inj]
    rfl
  rw [h0, h, ht]
  by_cases hge : 128 ≤ b.toNat
  · simp [hge]
  · simp [hge]

theorem fin_eq (b : UInt8) : fin b = decide (128 ≤ b.toNat) := and_0x80 b

theorem masked_eq (b : UInt8) : masked b = decide (128 ≤ b.toNat) := and_0x80 b

theorem foldl_shift (l : Bytes) (n : ℕ) :
    l.foldl (fun len b => (len <<< 8) ||| b.toNat) n =
      l.foldl (fun n b => n * 256 + b.toNat) n := by
  induction l generalizing n with
  | nil => rfl
  | cons b l ih =>
    have hb : n <<< 8 ||| b.toNat = n * 256 + b.toNat := by
      rw [← Nat.shiftLeft_add_eq_or_of_lt b.toNat_lt, Nat.shiftLeft_eq]
    rw [List.foldl_cons, List.foldl_cons, hb, ih]

/-- The frame that a stage still has to read, decoded off a byte string. -/
def Stage.decode : Stage → Bytes → Option (WsFrame × Bytes)
  | head, s => Rfc6455.decode s
  | ext b₀ b₁, s =>
    (takeExact (ext b₀ b₁).width s).bind fun p => Rfc6455.decodeFromKey b₀ b₁ (beNat p.1) p.2
  | key b₀ len, s =>
    (takeExact 4 s).bind fun p => Rfc6455.decodeFromPayload b₀ len (some p.1) p.2
  | payload b₀ len maskKey, s => Rfc6455.decodeFromPayload b₀ len maskKey s

/-- What follows decodes as `d`; a frame that is rejected is too long. -/
def Resume.Means (d : Bytes → Option (WsFrame × Bytes)) : Resume → Prop
  | more s => ∀ x, d x = s.decode x
  | frame f => ∀ x, d x = some (f, x)
  | reject _ => ∀ x f r, d x = some (f, r) → maxFrameLen < f.payload.length

theorem afterKey_means (b₀ : UInt8) (len : ℕ) (k : Option Bytes) :
    (afterKey b₀ len k).Means (Rfc6455.decodeFromPayload b₀ len k) := by
  unfold afterKey
  split
  · exact fun _ => rfl
  · rename_i h
    obtain rfl : len = 0 := by omega
    intro x
    rw [opcode_eq, fin_eq]
    cases k with
    | none => simp [Rfc6455.decodeFromPayload, Rfc6455.decodePayload, takeExact]
    | some k => simp [Rfc6455.decodeFromPayload, Rfc6455.decodePayload, takeExact, Rfc6455.mask]

theorem afterLength_means (b₀ b₁ : UInt8) (len : ℕ) :
    (afterLength b₀ b₁ len).Means (Rfc6455.decodeFromKey b₀ b₁ len) := by
  unfold afterLength
  split
  · rename_i hlen
    intro x f r h
    rw [Rfc6455.decodeFromKey_length h]
    exact hlen
  · split
    · rename_i h
      rw [masked_eq] at h
      intro x
      simp only [Rfc6455.decodeFromKey, Rfc6455.decodeKey, h, if_true, Stage.decode]
      cases takeExact 4 x with
      | none => rfl
      | some p => rfl
    · rename_i h
      rw [masked_eq] at h
      have hd : Rfc6455.decodeFromKey b₀ b₁ len = Rfc6455.decodeFromPayload b₀ len none := by
        funext x
        simp only [Rfc6455.decodeFromKey, Rfc6455.decodeKey, h, Bool.false_eq_true, if_false,
          Option.bind_some]
      rw [hd]
      exact afterKey_means b₀ len none

/-- **A completed `ReadExact` call advances the decoding of the frame.** -/
theorem Stage.decode_resume {s : Stage} {buf : Bytes} (h : buf.length = s.width) :
    (s.resume buf).Means fun x => s.decode (buf ++ x) := by
  have ht : ∀ x, takeExact s.width (buf ++ x) = some (buf, x) := fun x => by
    rw [← h]; exact takeExact_append buf x
  cases s with
  | head =>
    obtain ⟨b₀, b₁, rfl⟩ := List.length_eq_two.1 h
    have hd : (fun x => Stage.decode head ([b₀, b₁] ++ x)) = fun x =>
        (Rfc6455.decodeLength (b₁.toNat % 128) x).bind fun p =>
          Rfc6455.decodeFromKey b₀ b₁ p.1 p.2 := rfl
    rw [hd]
    simp only [resume, List.getD_cons_zero, List.getD_cons_succ]
    split
    · rename_i hext
      intro x
      rcases hext with hext | hext
      · have hn : b₁.toNat % 128 = 126 := by rw [← and_0x7F, hext]; rfl
        simp only [hn, Rfc6455.decodeLength, if_true, decode, width, hext]
        cases takeExact 2 x with
        | none => rfl
        | some p => rfl
      · have hn : b₁.toNat % 128 = 127 := by rw [← and_0x7F, hext]; rfl
        simp only [hn, Rfc6455.decodeLength, if_true, decode, width, hext]
        simp only [show ¬ (127 : ℕ) = 126 by decide, show ¬ (127 : UInt8) = 126 by decide, if_false]
        cases takeExact 8 x with
        | none => rfl
        | some p => rfl
    · rename_i hext
      rw [not_or] at hext
      have h6 : ¬ b₁.toNat % 128 = 126 := fun hn =>
        hext.1 (UInt8.toNat_inj.1 (by rw [and_0x7F, hn]; rfl))
      have h7 : ¬ b₁.toNat % 128 = 127 := fun hn =>
        hext.2 (UInt8.toNat_inj.1 (by rw [and_0x7F, hn]; rfl))
      simp only [Rfc6455.decodeLength, h6, h7, if_false, Option.bind_some, and_0x7F]
      exact afterLength_means b₀ b₁ _
  | ext b₀ b₁ =>
    simp only [resume, foldl_shift, decode, ht, Option.bind_some]
    exact afterLength_means b₀ b₁ _
  | key b₀ len =>
    have ht4 : ∀ x, takeExact 4 (buf ++ x) = some (buf, x) := ht
    simp only [resume, decode, ht4, Option.bind_some]
    exact afterKey_means b₀ len _
  | payload b₀ len k =>
    have htp : ∀ x, takeExact len (buf ++ x) = some (buf, x) := ht
    intro x
    simp only [decode, Rfc6455.decodeFromPayload, Rfc6455.decodePayload, htp, Option.map_some,
      opcode_eq, fin_eq]
    cases k with
    | none => rfl
    | some k => rfl

/-- The bytes a stage asks for are part of what it decodes. -/
theorem Stage.width_le {s : Stage} {x r : Bytes} {f : WsFrame} (h : s.decode x = some (f, r)) :
    s.width ≤ x.length := by
  cases s with
  | head =>
    have := Rfc6455.decode_length h
    simp only [width]
    omega
  | ext b₀ b₁ =>
    simp only [decode, Option.bind_eq_some_iff] at h
    obtain ⟨p, hp, -⟩ := h
    exact Rfc6455.takeExact_le hp
  | key b₀ len =>
    simp only [decode, Option.bind_eq_some_iff] at h
    obtain ⟨p, hp, -⟩ := h
    exact Rfc6455.takeExact_le hp
  | payload b₀ len k => exact (Rfc6455.decodeFromPayload_length h).2

/-- A stage that follows another asks for at least one byte. -/
theorem Stage.width_resume {s s' : Stage} {buf : Bytes} (h : s.resume buf = .more s') :
    0 < s'.width ∧ s' ≠ .head := by
  have hk : ∀ b₀ len k, afterKey b₀ len k = .more s' → 0 < s'.width ∧ s' ≠ .head := by
    intro b₀ len k h
    unfold afterKey at h
    split at h
    · cases h; exact ⟨‹_›, by simp⟩
    · cases h
  have hl : ∀ b₀ b₁ len, afterLength b₀ b₁ len = .more s' → 0 < s'.width ∧ s' ≠ .head := by
    intro b₀ b₁ len h
    unfold afterLength at h
    split at h
    · cases h
    split at h
    · cases h; exact ⟨Nat.zero_lt_succ 3, by simp⟩
    · exact hk _ _ _ h
  cases s with
  | head =>
    simp only [resume] at h
    split at h
    · cases h
      refine ⟨?_, by simp⟩
      simp only [width]
      split <;> omega
    · exact hl _ _ _ h
  | ext b₀ b₁ => exact hl _ _ _ h
  | key b₀ len => exact hk _ _ _ h
  | payload b₀ len k => cases h

end TrtcAsr
