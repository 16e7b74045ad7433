/-
  The senders of a connection (ws_client.cc, `SendText`, `SendBinary` and the pong of
  `Read`): any number of threads that encode a frame, take `write_mu_` and run
  `WriteAll`.

  * `Uplink.Sound` relates the bytes the transport has accepted to the sends in the
    order in which they held the mutex.
  * `Uplink.Intact`: complete frames, then at most one truncated one.
  * `Uplink.stream_intact`: a run keeps the byte stream intact if no thread goes on to send
    after a `WriteAll` that failed inside its frame.
-/
import Mathlib.Logic.Function.Basic
import TrtcAsr.Lib.Transition
import TrtcAsr.Ws.Transport

namespace TrtcAsr

/-- The calls that write a frame; a pong has what is left of the caller's read deadline. -/
inductive SendKind where
  | text
  | binary
  | pong (deadline : ℤ)
  deriving DecidableEq, Repr

def SendKind.opcode : SendKind → ℕ
  | text => 0x1
  | binary => 0x2
  | pong _ => 0xA

/-- The `timeout_ms` argument of `WriteAll`. -/
def SendKind.timeoutMs (c : WsClient) (now : ℤ) : SendKind → ℤ
  | pong deadline => toInt32 (deadline - now)
  | _ => c.writeTimeoutMs

/-- A thread: outside, waiting for `write_mu_` with its frame encoded, or holding it. -/
inductive SenderPc where
  | idle
  | waiting (kind : SendKind) (frame : Bytes)
  | writing
  deriving DecidableEq, Repr

/-- The holder of `write_mu_`, in the loop of `WriteAll`. -/
structure Holder where
  tid : ℕ
  frame : Bytes
  write : WriteAll
  deriving DecidableEq, Repr

/-- A send: its frame and the part of it that the transport accepted. -/
structure Sent where
  frame : Bytes
  accepted : Bytes
  deriving DecidableEq, Repr

/-- The senders of a connection; `log` records the finished sends, in the order in which they
    held the mutex. -/
structure Uplink where
  client : WsClient
  pc : ℕ → SenderPc := fun _ => .idle
  holder : Option Holder := none
  log : List Sent := []

inductive UplinkAct where
  | send (kind : SendKind) (payload : Bytes) (key : MaskKey)
  | lock (now after : ℤ)
  | pass (t : Tick)
  deriving DecidableEq, Repr

def Holder.sent (h : Holder) : Sent :=
  { frame := h.frame, accepted := h.frame.take (h.frame.length - h.write.rest.length) }

/-- The sends in the order in which they took the mutex. -/
def Uplink.sends (s : Uplink) : List Sent := s.log ++ (s.holder.map Holder.sent).toList

/-- `WriteAll` has returned: the mutex is released. -/
def Uplink.release (s : Uplink) (c : WsClient) (h : Holder) (rest : Bytes) : Uplink :=
  { client := c, pc := Function.update s.pc h.tid .idle, holder := none
    log := s.log ++ [{ h with write := { h.write with rest := rest } }.sent] }

/-- One step of a thread; the event is the result of its `WriteAll`. -/
def Uplink.step (s : Uplink) : ℕ × UplinkAct → Option (Uplink × List (ℕ × Bool))
  | (i, .send kind payload key) =>
    match s.pc i with
    | .idle =>
      let frame := encodeWsFrame kind.opcode payload (some key)
      some ({ s with pc := Function.update s.pc i (.waiting kind frame) }, [])
    | _ => none
  | (i, .lock now after) =>
    match s.pc i, s.holder with
    | .waiting kind frame, none =>
      let w := { rest := frame, deadline := after + kind.timeoutMs s.client now }
      some ({ s with pc := Function.update s.pc i .writing
                     holder := some { tid := i, frame := frame, write := w } }, [])
    | _, _ => none
  | (i, .pass t) =>
    match s.holder with
    | none => none
    | some h =>
      if h.tid ≠ i then none
      else
        match s.client.writeAllPass h.write t with
        | (c, .again w) => some ({ s with client := c, holder := some { h with write := w } }, [])
        | (c, .ok) => some (s.release c h [], [(i, true)])
        | (c, .error _) => some (s.release c h h.write.rest, [(i, false)])

def Uplink.lts : Lts Uplink (ℕ × UplinkAct) (ℕ × Bool) := ⟨Uplink.step⟩

/-! ## The byte stream -/

/-- A send that stopped inside its frame. -/
def Sent.Cut (x : Sent) : Prop := x.accepted ≠ [] ∧ x.accepted ≠ x.frame

/-- The sends that put bytes on the wire: complete frames, then at most one more. -/
def IntactSends (l : List Sent) : Prop :=
  ∃ whole part, l.filter (·.accepted ≠ []) = whole ++ part ∧
    (∀ x ∈ whole, x.accepted = x.frame) ∧ part.length ≤ 1

def Uplink.Intact (s : Uplink) : Prop := IntactSends s.sends

/-- The transport accepts bytes in this step: the write deadline has not passed, `poll`
    reports room and `send` or `SSL_write` takes some. -/
def Uplink.Accepts (s : Uplink) (a : ℕ × UplinkAct) : Prop :=
  ∃ t h k, a.2 = .pass t ∧ s.holder = some h ∧ 0 < toInt32 (h.write.deadline - t.now) ∧
    t.poll = .ready ∧ t.send = .sent k

/-- The transport accepts bytes although an earlier send was cut. -/
def Uplink.AfterCut (s : Uplink) (a : ℕ × UplinkAct) : Prop := (∃ x ∈ s.log, x.Cut) ∧ s.Accepts a

/-- A thread goes on to send: it takes `write_mu_` for a frame although a `WriteAll` has failed
    inside an earlier one. -/
def Uplink.SendsOn (s : Uplink) (a : ℕ × UplinkAct) : Prop :=
  (∃ x ∈ s.log, x.Cut) ∧ ∃ now after, a.2 = .lock now after

/-- The encoding of a frame by one of the senders. -/
def Encoded (frame : Bytes) : Prop :=
  ∃ (kind : SendKind) (payload : Bytes) (key : MaskKey),
    frame = encodeWsFrame kind.opcode payload (some key)

/-- The bytes accepted behind `tx₀` are those of the sends, each an initial part of its frame. -/
structure Uplink.Sound (tx₀ : Bytes) (s : Uplink) : Prop where
  tx : s.client.tx = tx₀ ++ s.sends.flatMap Sent.accepted
  sends : ∀ x ∈ s.sends, Encoded x.frame ∧ x.accepted <+: x.frame
  rest : ∀ h ∈ s.holder, h.write.rest ≠ [] ∧ h.write.rest <:+ h.frame
  waiting : ∀ i kind frame, s.pc i = .waiting kind frame → Encoded frame

theorem Encoded.ne_nil {frame : Bytes} (h : Encoded frame) : frame ≠ [] := by
  obtain ⟨kind, payload, key, rfl⟩ := h
  simp [encodeWsFrame]

theorem IntactSends.of_no_cut {l : List Sent} (h : ∀ x ∈ l, ¬ x.Cut) (x : Sent) :
    IntactSends (l ++ [x]) := by
  refine ⟨l.filter (·.accepted ≠ []), [x].filter (·.accepted ≠ []), List.filter_append _ _, ?_,
    List.length_filter_le _ _⟩
  intro y hy
  obtain ⟨hy, hne⟩ := List.mem_filter.1 hy
  by_contra hcut
  exact h y hy ⟨by simpa using hne, hcut⟩

/-- A send with bytes on the wire follows complete frames only. -/
theorem IntactSends.no_cut {l : List Sent} {x : Sent} (hx : x.accepted ≠ [])
    (h : IntactSends (l ++ [x])) : ∀ y ∈ l, ¬ y.Cut := by
  rintro y hy ⟨hne, hcut⟩
  obtain ⟨whole, part, hl, hwhole, hpart⟩ := h
  have hx' : [x].filter (fun x => x.accepted ≠ []) = [x] := by simp [hx]
  rw [List.filter_append, hx'] at hl
  have hmem : y ∈ l.filter (fun x => x.accepted ≠ []) := List.mem_filter.2 ⟨hy, by simpa using hne⟩
  cases part with
  | nil =>
    rw [List.append_nil] at hl
    exact hcut (hwhole y (hl ▸ List.mem_append_left _ hmem))
  | cons z part =>
    obtain rfl : part = [] := List.length_eq_zero_iff.1 (by simpa using hpart)
    obtain ⟨hwl, -⟩ := List.append_inj' hl rfl
    exact hcut (hwhole y (hwl ▸ hmem))

theorem IntactSends.append_empty {l : List Sent} {x : Sent} (hx : x.accepted = []) :
    IntactSends (l ++ [x]) ↔ IntactSends l := by
  have hf : (l ++ [x]).filter (fun x => x.accepted ≠ []) = l.filter (fun x => x.accepted ≠ []) := by
    simp [hx]
  unfold IntactSends
  rw [hf]

/-! ## Steps -/

variable {tx₀ : Bytes} {s s' : Uplink} {a : ℕ × UplinkAct} {es : List (ℕ × Bool)}

/-- What a pass of `WriteAll` can do to the bytes it has to write. -/
theorem WsClient.writeAllPass_cases (c : WsClient) (w : WriteAll) (t : Tick) :
    (∃ bs rest, c.writeAllPass w t = ({ c with tx := c.tx ++ bs }, .again { w with rest := rest }) ∧
        w.rest = bs ++ rest ∧ bs ≠ [] ∧ rest ≠ [] ∧ 0 < toInt32 (w.deadline - t.now) ∧ t.poll = .ready ∧
        ∃ k, t.send = .sent k) ∨
      (c.writeAllPass w t = ({ c with tx := c.tx ++ w.rest }, .ok) ∧
        0 < toInt32 (w.deadline - t.now) ∧ t.poll = .ready ∧ ∃ k, t.send = .sent k) ∨
      ((c.writeAllPass w t = (c, .again w) ∨ ∃ what, c.writeAllPass w t = (c, .error what)) ∧
        ¬ (0 < toInt32 (w.deadline - t.now) ∧ t.poll = .ready ∧ ∃ k, t.send = .sent k)) := by
  unfold writeAllPass
  by_cases hd : toInt32 (w.deadline - t.now) ≤ 0
  · rw [if_pos hd]
    exact .inr (.inr ⟨.inr ⟨_, rfl⟩, fun h => by omega⟩)
  by_cases hp : t.poll = .ready
  · rw [if_neg hd, if_neg (not_not.2 hp)]
    cases hs : t.send with
    | sent k =>
      by_cases hk : w.rest.length ≤ k + 1
      · refine .inr (.inl ⟨?_, by omega, hp, k, rfl⟩)
        simp only [hk, if_true, List.take_of_length_le hk]
      · refine .inl ⟨w.rest.take (k + 1), w.rest.drop (k + 1), ?_, ?_, ?_, ?_, by omega, hp, k, rfl⟩
        · simp only [hk, if_false]
        · exact (List.take_append_drop _ _).symm
        · intro h0
          have := congrArg List.length h0
          simp only [List.length_take, List.length_nil] at this
          omega
        · intro h0
          rw [List.drop_eq_nil_iff] at h0
          omega
    | again => exact .inr (.inr ⟨.inl rfl, fun ⟨_, _, k, h⟩ => by cases h⟩)
    | fail => exact .inr (.inr ⟨.inr ⟨_, rfl⟩, fun ⟨_, _, k, h⟩ => by cases h⟩)
  · rw [if_neg hd, if_pos hp]
    exact .inr (.inr ⟨.inr ⟨_, rfl⟩, fun h => hp h.2.1⟩)

/-- The bytes `bs` go from the rest of the frame to its accepted part. -/
theorem Holder.sent_advance {h : Holder} {bs rest : Bytes} (hsuf : h.write.rest <:+ h.frame)
    (hr : h.write.rest = bs ++ rest) :
    ({ h with write := { h.write with rest := rest } } : Holder).sent =
      { frame := h.frame, accepted := h.sent.accepted ++ bs } := by
  obtain ⟨u, hu⟩ := hsuf
  have h1 : h.frame.length - rest.length = (u ++ bs).length := by
    rw [← hu, hr]; simp only [List.length_append]; omega
  have h2 : h.frame.length - h.write.rest.length = u.length := by
    rw [← hu]; simp
  have hf : h.frame = (u ++ bs) ++ rest := by rw [← hu, hr, List.append_assoc]
  have hf2 : h.frame = u ++ h.write.rest := hu.symm
  simp only [sent, Sent.mk.injEq, true_and]
  rw [h1, h2]
  conv_lhs => rw [hf, List.take_left]
  conv_rhs => rw [hf2, List.take_left]

/-- A step that only extends the last send by `bs`. -/
theorem Uplink.intact_extend {x x' : Sent} {bs : Bytes} (hs : s.sends = s.log ++ [x])
    (hs' : s'.sends = s.log ++ [x']) (hx : x' = { x with accepted := x.accepted ++ bs })
    (hbs : bs ≠ [] ↔ s.Accepts a) : s'.Intact ↔ s.Intact ∧ ¬ s.AfterCut a := by
  unfold Intact
  rw [hs, hs']
  by_cases hb : bs = []
  · rw [hx, hb, List.append_nil]
    exact ⟨fun h => ⟨h, fun hc => hbs.2 hc.2 hb⟩, And.left⟩
  · have hne : x'.accepted ≠ [] := by rw [hx]; simp [hb]
    constructor
    · intro h
      have hno := IntactSends.no_cut hne h
      exact ⟨.of_no_cut hno x, fun ⟨⟨y, hy, hcut⟩, _⟩ => hno y hy hcut⟩
    · rintro ⟨-, hc⟩
      exact .of_no_cut (fun y hy hcut => hc ⟨⟨y, hy, hcut⟩, hbs.1 hb⟩) x'

theorem Uplink.waiting_update {pc : ℕ → SenderPc} {i : ℕ} {p : SenderPc}
    (h : ∀ j kind frame, pc j = .waiting kind frame → Encoded frame)
    (hp : ∀ kind frame, p = .waiting kind frame → Encoded frame) :
    ∀ j kind frame, Function.update pc i p j = .waiting kind frame → Encoded frame := by
  intro j kind frame hj
  by_cases hji : j = i
  · subst hji
    rw [Function.update_self] at hj
    exact hp kind frame hj
  · rw [Function.update_of_ne hji] at hj
    exact h j kind frame hj

theorem Uplink.sends_of_none (h : s.holder = none) : s.sends = s.log := by simp [sends, h]

theorem Uplink.sends_of_some {hold : Holder} (h : s.holder = some hold) :
    s.sends = s.log ++ [hold.sent] := by simp [sends, h]

/-- Nothing but a pass of `WriteAll` reaches the transport. -/
theorem Uplink.Accepts.pass {i : ℕ} {act : UplinkAct} (h : s.Accepts (i, act)) :
    ∃ t, act = .pass t := by
  obtain ⟨t, -, -, hact, -⟩ := h
  exact ⟨t, hact⟩

theorem Uplink.accepts_pass_iff {hold : Holder} {i : ℕ} {t : Tick} (hh : s.holder = some hold) :
    s.Accepts (i, .pass t) ↔ 0 < toInt32 (hold.write.deadline - t.now) ∧ t.poll = .ready ∧
      ∃ k, t.send = .sent k := by
  constructor
  · rintro ⟨t', hold', k, ht, hh', hd, hp, hk⟩
    cases ht
    rw [hh] at hh'
    cases hh'
    exact ⟨hd, hp, k, hk⟩
  · rintro ⟨hd, hp, k, hk⟩
    exact ⟨t, hold, k, rfl, hh, hd, hp, hk⟩

/-- The bytes `bs` that the transport accepts are those that the last send gains. -/
theorem Uplink.Sound.advance {hold : Holder} {x : Sent} {bs : Bytes} (hi : s.Sound tx₀)
    (hh : s.holder = some hold) (hs' : s'.sends = s.log ++ [x])
    (hx : x = { hold.sent with accepted := hold.sent.accepted ++ bs })
    (hpre : x.accepted <+: x.frame) (htx : s'.client.tx = s.client.tx ++ bs) :
    s'.client.tx = tx₀ ++ s'.sends.flatMap Sent.accepted ∧
      ∀ y ∈ s'.sends, Encoded y.frame ∧ y.accepted <+: y.frame := by
  have hall := hi.sends
  have htx₀ := hi.tx
  rw [sends_of_some hh] at hall htx₀
  rw [hs']
  constructor
  · rw [htx, htx₀, hx]
    simp
  · intro y hy
    rcases List.mem_append.1 hy with hy | hy
    · exact hall y (List.mem_append_left _ hy)
    · obtain rfl := List.mem_singleton.1 hy
      refine ⟨?_, hpre⟩
      rw [hx]
      exact (hall hold.sent (by simp)).1

theorem Uplink.sound_send {i : ℕ} {kind : SendKind} {payload : Bytes} {key : MaskKey}
    (hi : s.Sound tx₀) (h : lts.step s (i, .send kind payload key) = some (s', es)) :
    s'.Sound tx₀ ∧ (s'.Intact ↔ s.Intact) := by
  simp only [lts, step] at h
  split at h
  · cases h
    refine ⟨⟨hi.tx, hi.sends, hi.rest, waiting_update hi.waiting ?_⟩, Iff.rfl⟩
    rintro k frame hk
    cases hk
    exact ⟨kind, payload, key, rfl⟩
  · cases h

/-- The sender that gets the mutex starts a send of which nothing is accepted yet. -/
theorem Uplink.sound_lock {i : ℕ} {now after : ℤ} (hi : s.Sound tx₀)
    (h : lts.step s (i, .lock now after) = some (s', es)) :
    s'.Sound tx₀ ∧ (s'.Intact ↔ s.Intact) := by
  simp only [lts, step] at h
  split at h
  · rename_i kind frame hpc hnone
    cases h
    have henc := hi.waiting i kind frame hpc
    have hs := sends_of_none hnone
    have hsent : ∀ w : WriteAll, w.rest = frame → (⟨i, frame, w⟩ : Holder).sent = ⟨frame, []⟩ := by
      intro w hw
      simp [Holder.sent, hw]
    refine ⟨⟨?_, ?_, ?_, waiting_update hi.waiting (by simp)⟩, ?_⟩
    · have htx := hi.tx
      rw [hs] at htx
      simp [sends, Holder.sent, htx]
    · intro x hx
      rcases List.mem_append.1 hx with hx | hx
      · exact hi.sends x (by rw [hs]; exact hx)
      · obtain rfl : x = ⟨frame, []⟩ := by simpa [Holder.sent] using hx
        exact ⟨henc, List.nil_prefix⟩
    · rintro h hh
      cases hh
      exact ⟨henc.ne_nil, List.suffix_rfl⟩
    · show IntactSends (s.log ++ [(⟨i, frame, _⟩ : Holder).sent]) ↔ IntactSends s.sends
      rw [hsent _ rfl, IntactSends.append_empty rfl, hs]
  · cases h

/-- A pass of the holder: its send gains what the transport accepts. -/
theorem Uplink.sound_pass {i : ℕ} {t : Tick} (hi : s.Sound tx₀)
    (h : lts.step s (i, .pass t) = some (s', es)) :
    s'.Sound tx₀ ∧ (s'.Intact ↔ s.Intact ∧ ¬ s.AfterCut (i, .pass t)) := by
  simp only [lts, step] at h
  split at h
  · cases h
  rename_i hold hh
  split at h
  · cases h
  obtain ⟨hrest, hsuf⟩ := hi.rest hold hh
  have hs := sends_of_some hh
  have hacc := accepts_pass_iff (i := i) (t := t) hh
  have hinit : ∀ h : Holder, h.sent.accepted <+: h.sent.frame := fun h => List.take_prefix _ _
  have hidle := waiting_update (i := hold.tid) (p := .idle) hi.waiting (by simp)
  rcases s.client.writeAllPass_cases hold.write t with
    ⟨bs, rest, hout, hr, hbs, hne, hyes⟩ | ⟨hout, hyes⟩ | ⟨hout | ⟨what, hout⟩, hno⟩
  · rw [hout] at h
    cases h
    have hadv := Holder.sent_advance hsuf hr
    have hs' : ({ s with
        client := { s.client with tx := s.client.tx ++ bs }
        holder := some { hold with write := { hold.write with rest := rest } } } : Uplink).sends =
        s.log ++ [{ hold with write := { hold.write with rest := rest } }.sent] := rfl
    obtain ⟨htx, hsends⟩ := hi.advance hh hs' hadv (hinit _) rfl
    refine ⟨⟨htx, hsends, ?_, hi.waiting⟩, intact_extend hs hs' hadv ?_⟩
    · rintro h' hh'
      cases hh'
      exact ⟨hne, (List.suffix_append bs rest).trans (hr ▸ hsuf)⟩
    · rw [hacc]
      exact ⟨fun _ => hyes, fun _ => hbs⟩
  · rw [hout] at h
    cases h
    have hnil : hold.write.rest = hold.write.rest ++ [] := (List.append_nil _).symm
    have hadv := Holder.sent_advance hsuf hnil
    have hs' : (s.release { s.client with tx := s.client.tx ++ hold.write.rest } hold []).sends =
        s.log ++ [{ hold with write := { hold.write with rest := [] } }.sent] := by
      simp [release, sends]
    obtain ⟨htx, hsends⟩ := hi.advance hh hs' hadv (hinit _) rfl
    refine ⟨⟨htx, hsends, nofun, hidle⟩, intact_extend hs hs' hadv ?_⟩
    rw [hacc]
    exact ⟨fun _ => hyes, fun _ => hrest⟩
  -- nothing is accepted: the send is as it was
  · rw [hout] at h
    cases h
    have hs' : ({ s with holder := some hold } : Uplink).sends = s.sends := by rw [hs]; rfl
    refine ⟨⟨hs'.symm ▸ hi.tx, hs'.symm ▸ hi.sends, ?_, hi.waiting⟩, ?_⟩
    · rintro h' hh'
      cases hh'
      exact ⟨hrest, hsuf⟩
    · rw [Intact, hs']
      exact ⟨fun h => ⟨h, fun hc => hno (hacc.1 hc.2)⟩, And.left⟩
  · rw [hout] at h
    cases h
    have hs' : (s.release s.client hold hold.write.rest).sends = s.sends := by
      rw [hs]
      simp [release, sends]
    refine ⟨⟨hs'.symm ▸ hi.tx, hs'.symm ▸ hi.sends, nofun, hidle⟩, ?_⟩
    rw [Intact, hs']
    exact ⟨fun h => ⟨h, fun hc => hno (hacc.1 hc.2)⟩, And.left⟩

theorem Uplink.sound_step (hi : s.Sound tx₀) (h : lts.step s a = some (s', es)) :
    s'.Sound tx₀ ∧ (s'.Intact ↔ s.Intact ∧ ¬ s.AfterCut a) := by
  obtain ⟨i, act⟩ := a
  have hquiet : (∀ t, act ≠ .pass t) → ¬ s.AfterCut (i, act) := by
    rintro hne ⟨-, hacc⟩
    obtain ⟨t, hact⟩ := hacc.pass
    exact hne t hact
  cases act with
  | send kind payload key =>
    obtain ⟨hsound, hintact⟩ := sound_send hi h
    exact ⟨hsound, hintact.trans (and_iff_left (hquiet (by simp))).symm⟩
  | lock now after =>
    obtain ⟨hsound, hintact⟩ := sound_lock hi h
    exact ⟨hsound, hintact.trans (and_iff_left (hquiet (by simp))).symm⟩
  | pass t => exact sound_pass hi h

/-! ## Runs -/

/-- No send that holds the mutex is behind a cut one. -/
def Uplink.Unbroken (s : Uplink) : Prop := s.holder ≠ none → ∀ x ∈ s.log, ¬ x.Cut

theorem Uplink.unbroken_step (hu : s.Unbroken) (hc : ¬ s.SendsOn a)
    (h : lts.step s a = some (s', es)) : s'.Unbroken := by
  obtain ⟨i, act⟩ := a
  cases act with
  | send kind payload key =>
    simp only [lts, step] at h
    split at h
    · cases h
      exact hu
    · cases h
  | lock now after =>
    have hlog : s'.log = s.log := by
      simp only [lts, step] at h
      split at h
      · cases h
        rfl
      · cases h
    intro _ x hx hcut
    rw [hlog] at hx
    exact hc ⟨⟨x, hx, hcut⟩, now, after, rfl⟩
  | pass t =>
    simp only [lts, step] at h
    split at h
    · cases h
    rename_i hold hh
    split at h
    · cases h
    -- the holder goes on behind the same log, or releases the mutex
    split at h
    · cases h
      intro _
      exact hu (by rw [hh]; exact (by simp))
    · cases h
      intro hne
      exact absurd rfl hne
    · cases h
      intro hne
      exact absurd rfl hne

theorem Uplink.Unbroken.not_afterCut (hu : s.Unbroken) : ¬ s.AfterCut a := by
  rintro ⟨⟨x, hx, hcut⟩, t, hold, k, -, hh, -⟩
  exact hu (by rw [hh]; exact (by simp)) x hx hcut

/-- **Byte-stream integrity.**  In every run the transport has accepted initial parts of the
    encoded frames, in the order in which the sends took the mutex.  If no thread goes on to send
    after a `WriteAll` that failed inside its frame, these are complete frames followed by at most
    one truncated frame.  A send that goes on breaks the stream with its first bytes. -/
theorem Uplink.stream_intact {c : WsClient} {as : List (ℕ × UplinkAct)} {s : Uplink}
    {tr : List (ℕ × Bool)} (h : lts.run { client := c } as = some (s, tr)) :
    (s.client.tx = c.tx ++ s.sends.flatMap Sent.accepted ∧
      ∀ x ∈ s.sends, Encoded x.frame ∧ x.accepted <+: x.frame) ∧
    (lts.Meets (fun s a => ¬ s.SendsOn a) { client := c } as → s.Intact) ∧
    ((∃ x ∈ s.log, x.Cut) → ∀ a s' es, s.Accepts a → lts.step s a = some (s', es) → ¬ s'.Intact) := by
  have h₀ : Sound c.tx { client := c } :=
    ⟨(List.append_nil _).symm, nofun, nofun, nofun⟩
  have hintact : ({ client := c } : Uplink).Intact := ⟨[], [], rfl, by simp, Nat.zero_le 1⟩
  have hsound := Lts.run_invariant (I := fun _ s => s.Sound c.tx)
    (fun hi hs => (sound_step hi hs).1) h₀ h
  refine ⟨⟨hsound.tx, hsound.sends⟩, fun hm => ?_, fun hcut a s' es hacc hs => ?_⟩
  · have hinv := @Lts.run_induction _ _ _ lts (fun s a => ¬ s.SendsOn a)
      (fun _ s => s.Sound c.tx ∧ s.Intact ∧ s.Unbroken) ?_ as [] _ _ _
      ⟨h₀, hintact, fun hne => absurd rfl hne⟩ hm h
    · exact hinv.2.1
    · rintro tr s a s' es ⟨hi, hin, hu⟩ hc hs
      obtain ⟨hi', hiff⟩ := sound_step hi hs
      exact ⟨hi', hiff.2 ⟨hin, hu.not_afterCut⟩, unbroken_step hu hc hs⟩
  · intro hin
    exact ((sound_step hsound hs).2.1 hin).2 ⟨hcut, hacc⟩

/-- A binary frame written in two pieces, then a pong. -/
theorem Uplink.stream_intact_two_sends :
    ∃ as s tr, lts.run { client := { tls := false, rx := [] } } as = some (s, tr) ∧
      s.client.tx = [0x82, 0x81, 0, 0, 0, 0, 0x41, 0x8A, 0x80, 0, 0, 0, 0] ∧
      lts.Meets (fun s a => ¬ s.SendsOn a) { client := { tls := false, rx := [] } } as ∧
      s.Intact := by
  have hm : lts.Meets (fun s a => ¬ s.SendsOn a) { client := { tls := false, rx := [] } }
      [(1, .send .binary [0x41] #v[0, 0, 0, 0]), (2, .send (.pong 500) [] #v[0, 0, 0, 0]),
        (1, .lock 0 0), (1, .pass { now := 1, after := 1, poll := .ready, send := .sent 1 }),
        (1, .pass { now := 2, after := 2, poll := .ready, send := .sent 9 }),
        (2, .lock 3 3), (2, .pass { now := 4, after := 4, poll := .ready, send := .sent 9 })] := by
    refine ⟨?_, ?_, ?_, ?_, ?_, ?_, ?_, trivial⟩
    · rintro ⟨-, now, after, ha⟩
      cases ha
    · rintro ⟨-, now, after, ha⟩
      cases ha
    · rintro ⟨⟨x, hx, -⟩, -⟩
      cases hx
    · rintro ⟨-, now, after, ha⟩
      cases ha
    · rintro ⟨-, now, after, ha⟩
      cases ha
    · -- the first send is complete
      rintro ⟨⟨x, hx, hcut⟩, -⟩
      obtain rfl := List.mem_singleton.1 hx
      exact hcut.2 rfl
    · rintro ⟨-, now, after, ha⟩
      cases ha
  exact ⟨_, _, _, rfl, rfl, hm, (stream_intact rfl).2.1 hm⟩

/-- A `SendBinary` whose `send` takes `k + 1` bytes and comes back, interrupted, behind the write
    deadline; then a `SendText` of another thread. -/
def cutRun (p q : Bytes) (key key' : MaskKey) (k : ℕ) : List (ℕ × UplinkAct) :=
  [(1, .send .binary p key), (1, .lock 0 0),
    (1, .pass { now := 1, after := 40000, poll := .ready, send := .sent k, key }),
    (1, .pass { now := 40000, after := 40000, poll := .ready, key }),
    (2, .send .text q key'), (2, .lock 50000 50000),
    (2, .pass { now := 50001, after := 50001, poll := .ready, send := .sent 99, key := key' })]

theorem Uplink.cutRun_breaks {p q : Bytes} {key key' : MaskKey} {k : ℕ}
    (hk : k + 1 < (encodeWsFrame 0x2 p (some key)).length)
    (hq : (encodeWsFrame 0x1 q (some key')).length ≤ 100) :
    ∃ s, lts.run { client := { tls := false, rx := [] } } (cutRun p q key key' k) =
        some (s, [(1, false), (2, true)]) ∧
      s.client.tx = (encodeWsFrame 0x2 p (some key)).take (k + 1) ++ encodeWsFrame 0x1 q (some key') ∧
      ¬ s.Intact := by
  have hk' : ¬ (encodeWsFrame 0x2 p (some key)).length ≤ k + 1 := by omega
  have hrun : ∃ s, lts.run { client := { tls := false, rx := [] } } (cutRun p q key key' k) =
        some (s, [(1, false), (2, true)]) ∧
      s.client.tx = (encodeWsFrame 0x2 p (some key)).take (k + 1) ++ encodeWsFrame 0x1 q (some key') ∧
      s.sends = [⟨encodeWsFrame 0x2 p (some key), (encodeWsFrame 0x2 p (some key)).take (k + 1)⟩,
        ⟨encodeWsFrame 0x1 q (some key'), encodeWsFrame 0x1 q (some key')⟩] := by
    simp [cutRun, Lts.run, lts, step, SendKind.timeoutMs, SendKind.opcode, WsClient.writeAllPass,
      toInt32, hk', hq, sends, release, Holder.sent, Function.update]
    omega
  obtain ⟨s, hrun, htx, hsends⟩ := hrun
  refine ⟨s, hrun, htx, fun hin => ?_⟩
  rw [Intact, hsends] at hin
  have hf : encodeWsFrame 0x1 q (some key') ≠ [] := Encoded.ne_nil ⟨.text, q, key', rfl⟩
  have hcut := IntactSends.no_cut (l := [_]) hf hin _ (List.mem_singleton.2 rfl)
  refine hcut ⟨fun h => ?_, fun h => ?_⟩
  · have hlen := congrArg List.length h
    rw [List.length_take, List.length_nil] at hlen
    omega
  · have hlen : ((encodeWsFrame 0x2 p (some key)).take (k + 1)).length =
        (encodeWsFrame 0x2 p (some key)).length := congrArg List.length h
    rw [List.length_take] at hlen
    omega

/-- The frame is longer than its payload. -/
theorem length_lt_encodeWsFrame {opcode : ℕ} (ho : opcode < 16) (p : Bytes) (k : MaskKey) :
    p.length < (encodeWsFrame opcode p (some k)).length := by
  rw [encodeWsFrame_eq ho]
  simp only [Rfc6455.encode, Option.map_some, List.length_cons, List.length_append,
    Rfc6455.length_mask]
  omega

/-- **A cut frame followed by another one**: of the frame of a `SendBinary` of 1 MiB the first
    524288 bytes are out when a signal ends the `send` behind the write deadline; the end signal of
    a `Stop` is accepted behind them. -/
theorem Uplink.cut_then_send :
    ∃ s, lts.run { client := { tls := false, rx := [] } }
        [(1, .send .binary (List.replicate 1048576 0) #v[0, 0, 0, 0]), (1, .lock 0 0),
          (1, .pass { now := 1, after := 40000, poll := .ready, send := .sent 524287 }),
          (1, .pass { now := 40000, after := 40000, poll := .ready }),
          (2, .send .text (ascii "\x7b\"type\":\"end\"\x7d") #v[0, 0, 0, 0]), (2, .lock 50000 50000),
          (2, .pass { now := 50001, after := 50001, poll := .ready, send := .sent 99 })] =
        some (s, [(1, false), (2, true)]) ∧
      s.client.tx =
        (encodeWsFrame 0x2 (List.replicate 1048576 0) (some #v[0, 0, 0, 0])).take 524288 ++
          encodeWsFrame 0x1 (ascii "\x7b\"type\":\"end\"\x7d") (some #v[0, 0, 0, 0]) ∧
      ¬ s.Intact := by
  have hlen := length_lt_encodeWsFrame (show 0x2 < 16 by decide) (List.replicate 1048576 0)
    #v[0, 0, 0, 0]
  rw [List.length_replicate] at hlen
  exact cutRun_breaks (by omega) (by decide)

end TrtcAsr
