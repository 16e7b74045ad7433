/-
  The frame codec round trip: what one side encodes, the other side's `Read` calls
  return.

  A `Conn` is a connection from the response header of its upgrade on; once it is
  open it is a `Reader`.  `Prompt` labels find the bytes they ask for there, before
  any deadline.

  * `wire_decodes`: the encodings of a list of frames decode to these frames.
  * `Conn.reads_all`: there is a prompt run that reads to the end of the stream, and
    it needs no time.
  * `Conn.codec_round_trip`: behind an accepted response header, `Read` returns
    exactly the frames sent, pings and pongs apart, and takes every byte; and it
    rejects a frame whose declared length is over the bound.
-/
import TrtcAsr.Ws.Alignment
import TrtcAsr.Ws.Upgrade

namespace TrtcAsr

open Rfc6455 (Decodes)

/-! ## The wire -/

/-- The arguments of a call of `EncodeWsFrame`. -/
structure SentFrame where
  opcode : ℕ
  payload : Bytes
  mask : Option MaskKey
  deriving DecidableEq, Repr

/-- The frame that a call encodes. -/
def SentFrame.frame (f : SentFrame) : WsFrame := { opcode := f.opcode, payload := f.payload }

/-- The bytes of a list of frames. -/
def wire (fs : List SentFrame) : Bytes :=
  fs.flatMap fun f => encodeWsFrame f.opcode f.payload f.mask

/-- An opcode of four bits and a payload within the bound of `Read`. -/
structure SentFrame.Legal (f : SentFrame) : Prop where
  opcode_lt : f.opcode < 16
  payload_le : f.payload.length ≤ maxFrameLen

theorem wire_decodes {fs : List SentFrame} (h : ∀ f ∈ fs, f.Legal) :
    Decodes (wire fs) (fs.map SentFrame.frame) [] := by
  induction fs with
  | nil => exact .nil _
  | cons f fs ih =>
    obtain ⟨hop, hlen⟩ := h f (List.mem_cons_self ..)
    have hk : ∀ k ∈ f.mask.map Vector.toList, k.length = 4 := by
      intro k hk
      obtain ⟨v, -, rfl⟩ := Option.mem_map.1 hk
      exact v.toArray.length_toList.trans v.size_toArray
    have hlen' : f.payload.length < 2 ^ 64 := lt_of_le_of_lt hlen (by decide)
    rw [wire, List.flatMap_cons, encodeWsFrame_eq hop]
    exact .cons (Rfc6455.decode_encode hop hk hlen' _)
      (ih fun g hg => h g (List.mem_cons_of_mem _ hg))

/-- A frame is at most 14 bytes longer than its payload. -/
theorem length_encodeWsFrame_le {opcode : ℕ} (ho : opcode < 16) (p : Bytes) (k : MaskKey) :
    (encodeWsFrame opcode p (some k)).length ≤ p.length + 14 := by
  have hl : (Rfc6455.encodeLength p.length).2.length ≤ 8 := by
    unfold Rfc6455.encodeLength
    split_ifs <;> simp
  have hk : k.toList.length = 4 := k.toArray.length_toList.trans k.size_toArray
  rw [encodeWsFrame_eq ho]
  simp only [Rfc6455.encode, Option.map_some, List.length_cons, List.length_append,
    Rfc6455.length_mask, hk]
  omega

/-! ## Prompt passes -/

/-- If there are bytes left, the `ReadExact` call gets some of them in this pass. -/
def ReadExact.Available (c : WsClient) (e : ReadExact) (t : Tick) : Prop :=
  c.unread ≠ [] → 0 < toInt32 (e.deadline - t.now) ∧ t.poll = .ready ∧ ∃ k, t.recv = .data k

/-- A pass that is held up neither by missing bytes nor by a write that does not move. -/
def ReadCall.Prompt (c : WsClient) (r : ReadCall) (t : Tick) : Prop :=
  match r.pc with
  | .exact _ e => e.Available c t
  | .pong _ => True
  | .pongWrite _ => t.send ≠ .again

def Reader.Prompt (s : Reader) : ReaderLabel → Prop
  | .call _ _ => True
  | .tick t => ∀ r ∈ s.call, r.Prompt s.client t

def ReaderLabel.ticks : ReaderLabel → ℕ
  | .call _ _ => 0
  | .tick _ => 1

variable {c c' : WsClient} {e : ReadExact} {r r' : ReadCall} {t : Tick} {stream : Bytes}
  {fs frames : List WsFrame}

theorem WsClient.readExactPass_available (ha : e.Available c t) (hun : c.unread ≠ [])
    (he : e.buf.length < e.n) :
    ∃ c' bs, c.readExactPass e t = (c', e.store bs) ∧ ReadExact.Moved c c' e bs ∧ bs ≠ [] := by
  obtain ⟨hd, hp, k, hk⟩ := ha hun
  rcases c.readExactPass_cases e t he with h | h | h | h
  · exact h
  all_goals
    exfalso
    unfold readExactPass at h
    by_cases hb : c.readBuf = []
    · have hrx : c.rx ≠ [] := by simpa [unread, hb] using hun
      have htake : c.rx.take (min (e.n - e.buf.length) (k + 1)) ≠ [] := by
        intro h0
        rcases List.take_eq_nil_iff.1 h0 with h0 | h0
        · omega
        · exact hrx h0
      rw [if_neg (not_not.2 hb), if_neg (by omega), hp, hk] at h
      simp only [deliver, htake, if_false, reduceCtorEq, and_false] at h
      have h2 := congrArg Prod.snd h
      have h1 := congrArg (fun p => p.1.rx.length) h
      have hlen := List.length_pos_iff.2 hrx
      simp only [List.length_drop] at h1
      omega
    · rw [if_pos hb] at h
      have h1 := congrArg (fun p => p.1.readBuf.length) h
      have hlen := List.length_pos_iff.2 hb
      simp only [List.length_drop] at h1
      omega

theorem WsClient.writeAllPass_again {w w' : WriteAll} (ha : t.send ≠ .again)
    (h : c.writeAllPass w t = (c', .again w')) : w'.rest.length < w.rest.length := by
  unfold writeAllPass at h
  split at h
  · cases h
  split at h
  · cases h
  split at h
  · split at h
    · cases h
    · cases h
      simp only [List.length_drop]
      omega
  · exact absurd ‹_› ha
  · cases h

/-- Room for the pong of any frame within the bound. -/
def pongRoom : ℕ := maxFrameLen + 32

/-- The passes a pong may still take. -/
def ReadPc.owed : ReadPc → ℕ
  | .exact _ _ => 0
  | .pong payload => payload.length + 16
  | .pongWrite w => w.rest.length + 1

def Reader.work (s : Reader) : ℕ :=
  pongRoom * s.client.unread.length + match s.call with
    | none => 0
    | some r => r.pc.owed

/-- What a prompt pass yields: the `Read` goes on with less work left, or returns a message. -/
def Lowers (m : ℕ) : WsClient × (ReadCall ⊕ ReadRc) → Prop
  | (c, .inl r) => pongRoom * c.unread.length + r.pc.owed < m
  | (c, .inr (.message _)) => pongRoom * c.unread.length < m
  | (_, .inr _) => False

theorem WsClient.readPass_lowers (hall : Decodes stream frames [])
    (hmax : ∀ f ∈ frames, f.payload.length ≤ maxFrameLen) (h : r.Aligned stream fs c)
    (ha : r.Prompt c t) (hun : c.unread ≠ []) :
    Lowers (pongRoom * c.unread.length + r.pc.owed) (c.readPass r t) := by
  obtain ⟨deadline, frameDeadline, pc⟩ := r
  cases pc with
  | exact s e =>
    obtain ⟨hn, hlt, p, hd, hp, hhead⟩ := h
    obtain ⟨c', bs, hc, hmv, hbs⟩ := readExactPass_available ha hun hlt
    have hless : pongRoom * c'.unread.length + pongRoom ≤ pongRoom * c.unread.length := by
      have hpos := List.length_pos_iff.2 hbs
      rw [hmv.unread, List.length_append, ← Nat.mul_succ]
      exact Nat.mul_le_mul_left _ (by omega)
    have hroom : pongRoom = maxFrameLen + 32 := rfl
    simp only [readPass]
    rcases ReadExact.store_cases hmv.fits hlt with ⟨hl, hst⟩ | ⟨hl, hst⟩
    · rw [hc, hst]
      show pongRoom * c'.unread.length + 0 < pongRoom * c.unread.length + 0
      omega
    · rw [hc, hst]
      have hm := s.decode_resume (hl.trans hn)
      have hpos : p ++ e.buf ++ c.unread = p ++ ((e.buf ++ bs) ++ c'.unread) := by
        rw [hmv.unread]; simp only [List.append_assoc]
      rw [hpos] at hd
      obtain ⟨gs, rfl, hgs⟩ := hd.split hall
      -- the frame the `Read` is in is one of `frames`
      obtain ⟨g, gs', x, rfl, hg⟩ := hgs.uncons (by simp [hbs])
      have hgmax := hmax g (by simp)
      rw [hp] at hg
      show Lowers _ (c', ReadCall.next _ (s.resume (e.buf ++ bs)))
      generalize (if s = .head then _ else _ : ReadCall) = r₁
      cases hr : s.resume (e.buf ++ bs) with
      | more s' =>
        show pongRoom * c'.unread.length + 0 < pongRoom * c.unread.length + 0
        omega
      | frame f =>
        rw [hr] at hm
        have hf := (hm c'.unread).symm.trans hg
        cases hf
        simp only [ReadCall.next]
        split
        · show pongRoom * c'.unread.length + (g.payload.length + 16) <
            pongRoom * c.unread.length + 0
          omega
        split
        · show pongRoom * c'.unread.length + 0 < pongRoom * c.unread.length + 0
          omega
        · show pongRoom * c'.unread.length < pongRoom * c.unread.length + 0
          omega
      | reject what =>
        rw [hr] at hm
        have hlong := hm _ _ _ hg
        omega
  | pong payload =>
    have hlen := length_encodeWsFrame_le (show 0xA < 16 by decide) payload t.key
    show pongRoom * c.unread.length + ((encodeWsFrame 0xA payload (some t.key)).length + 1) <
      pongRoom * c.unread.length + (payload.length + 16)
    omega
  | pongWrite w =>
    have hun := c.writeAllPass_unread w t
    simp only [readPass]
    split
    · rename_i c₁ w₁ hw
      have hless := writeAllPass_again ha hw
      rw [hw] at hun
      show pongRoom * c₁.unread.length + (w₁.rest.length + 1) <
        pongRoom * c.unread.length + (w.rest.length + 1)
      rw [hun]
      omega
    · rename_i c₁ x _ hw
      rw [hw] at hun
      show pongRoom * c₁.unread.length + 0 < pongRoom * c.unread.length + (w.rest.length + 1)
      rw [hun]
      omega

/-! ## Reading to the end of the stream -/

/-- Where a reader stands in the stream. -/
def Reader.At (stream : Bytes) (fs : List WsFrame) (s : Reader) : Prop :=
  match s.call with
  | none => Decodes stream fs s.client.unread
  | some r => r.Aligned stream fs s.client

/-- The results of `Read` for a list of frames. -/
def results (fs : List WsFrame) : List ReadRc := (fs.filter (! ·.isPingPong)).map .message

theorem results_append (fs gs : List WsFrame) :
    results (fs ++ gs) = results fs ++ results gs := by simp [results]

theorem Reader.At.decodes {s : Reader} (h : s.At stream fs) : ∃ x, Decodes stream fs x := by
  obtain ⟨c, call⟩ := s
  cases call with
  | none => exact ⟨_, h⟩
  | some r =>
    obtain ⟨deadline, frameDeadline, pc⟩ := r
    cases pc with
    | exact s e => obtain ⟨-, -, p, hd, -⟩ := h; exact ⟨_, hd⟩
    | pong payload => exact ⟨_, h⟩
    | pongWrite w => exact ⟨_, h⟩

/-- A reader with no bytes left stands behind the last frame. -/
theorem Reader.At.end {s : Reader} (h : s.At stream fs) (hall : Decodes stream frames [])
    (hun : s.client.unread = []) : fs = frames := by
  have hnil : ∀ {gs}, Decodes [] gs [] → gs = [] := fun hgs => hgs.nil_left.1
  obtain ⟨c, call⟩ := s
  cases call with
  | none =>
    have h : Decodes stream fs c.unread := h
    rw [hun] at h
    obtain ⟨gs, rfl, hgs⟩ := h.split hall
    rw [hnil hgs, List.append_nil]
  | some r =>
    obtain ⟨deadline, frameDeadline, pc⟩ := r
    cases pc with
    | exact s e =>
      obtain ⟨hn, hlt, p, hd, hp, -⟩ := h
      rw [hun, List.append_nil] at hd
      obtain ⟨gs, rfl, hgs⟩ := hd.split hall
      by_cases hpos : p ++ e.buf = []
      · rw [hpos] at hgs
        rw [hnil hgs, List.append_nil]
      · -- the bytes of a started frame are all in the stream
        obtain ⟨g, gs', x, rfl, hg⟩ := hgs.uncons hpos
        rw [hp] at hg
        have := Stage.width_le hg
        omega
    | pong payload =>
      have h : Decodes stream fs c.unread := h
      rw [hun] at h
      obtain ⟨gs, rfl, hgs⟩ := h.split hall
      rw [hnil hgs, List.append_nil]
    | pongWrite w =>
      have h : Decodes stream fs c.unread := h
      rw [hun] at h
      obtain ⟨gs, rfl, hgs⟩ := h.split hall
      rw [hnil hgs, List.append_nil]

/-- With no bytes left a pass returns no message. -/
theorem WsClient.readPass_exhausted (hun : c.unread = []) :
    (c.readPass r t).1.unread = [] ∧ ∀ f, (c.readPass r t).2 ≠ .inr (.message f) := by
  obtain ⟨hbuf, hrx⟩ := List.append_eq_nil_iff.1 hun
  obtain ⟨deadline, frameDeadline, pc⟩ := r
  cases pc with
  | exact s e =>
    have hpass : c.readExactPass e t = (c, .again e) ∨ c.readExactPass e t = (c, .timeout) ∨
        c.readExactPass e t = (c, .error) := by
      unfold readExactPass
      rw [if_neg (not_not.2 hbuf)]
      split
      · exact .inr (.inl rfl)
      split
      · exact .inr (.inl rfl)
      split
      · exact .inr (.inr rfl)
      cases t.recv with
      | data k => exact .inr (.inr (by simp [deliver, hrx]))
      | again => exact .inl rfl
      | closed buffered => exact .inr (.inr (by simp [deliver, hrx]))
      | fail => exact .inr (.inr rfl)
    simp only [readPass]
    rcases hpass with h | h | h
    · rw [h]; exact ⟨hun, by simp⟩
    · rw [h]
      refine ⟨hun, fun f => ?_⟩
      by_cases hs : s = .head
      · simp [hs]
      · simp [hs]
    · rw [h]; exact ⟨hun, by simp⟩
  | pong payload => exact ⟨hun, by simp [readPass]⟩
  | pongWrite w =>
    have hw := c.writeAllPass_unread w t
    simp only [readPass]
    split
    · rename_i h; rw [h, hun] at hw; exact ⟨hw, by simp⟩
    · rename_i h; rw [h, hun] at hw; exact ⟨hw, by simp⟩

/-- The results so far are those of the frames up to where the reader is, or all frames have
    been read. -/
def Reader.Reads (stream : Bytes) (frames : List WsFrame) (tr : List ReadRc) (s : Reader) : Prop :=
  (∃ fs, tr = results fs ∧ s.At stream fs) ∨
    (s.client.unread = [] ∧ ∃ rest, tr = results frames ++ rest ∧ messages rest = [])

theorem Reader.Reads.end {s : Reader} {tr : List ReadRc} (h : s.Reads stream frames tr)
    (hall : Decodes stream frames []) (hun : s.client.unread = []) :
    ∃ rest, tr = results frames ++ rest ∧ messages rest = [] := by
  rcases h with ⟨fs, rfl, hat⟩ | ⟨-, hrest⟩
  · rw [hat.end hall hun]
    exact ⟨[], by simp, rfl⟩
  · exact hrest

theorem Reader.at_step (hall : Decodes stream frames [])
    (hmax : ∀ f ∈ frames, f.payload.length ≤ maxFrameLen) {s s' : Reader} {a : ReaderLabel}
    {tr es : List ReadRc} (hi : ∃ fs, tr = results fs ∧ s.At stream fs)
    (hun : s.client.unread ≠ []) (ha : s.Prompt a) (h : lts.step s a = some (s', es)) :
    (∃ fs, tr ++ es = results fs ∧ s'.At stream fs) ∧ a.ticks + s'.work ≤ s.work := by
  obtain ⟨fs, rfl, hat⟩ := hi
  obtain ⟨c, call⟩ := s
  rcases step_cases h with
    ⟨timeoutMs, now, rfl, rfl, rfl, rfl⟩ | ⟨t, r, c', next, rfl, rfl, hout, rfl, rfl⟩
  · refine ⟨⟨fs, List.append_nil _, ReadCall.aligned_fetch_head hat _⟩, ?_⟩
    show 0 + (pongRoom * c.unread.length + 0) ≤ pongRoom * c.unread.length + 0
    omega
  have hpr : r.Prompt c t := ha r rfl
  have hlow := WsClient.readPass_lowers hall hmax hat hpr hun
  have hcut : ¬ ∃ e, r.pc = .exact .head e ∧ e.buf.length = 1 ∧ e.Expires c t := by
    rintro ⟨e, he, -, -, hx⟩
    rw [ReadCall.Prompt, he] at hpr
    obtain ⟨hd, hp, -⟩ := hpr hun
    rcases hx with hx | ⟨-, hx⟩
    · omega
    · rw [hp] at hx; cases hx
  have hal := WsClient.readPass_aligned hat hcut
  rw [hout] at hal hlow
  cases next with
  | inl r' =>
    obtain ⟨gs, hgs, hal⟩ := hal
    refine ⟨⟨fs ++ gs, by simp [results, hgs], hal⟩, ?_⟩
    simp only [ReaderLabel.ticks, work, Sum.getLeft?_inl]
    simp only [Lowers] at hlow
    omega
  | inr rc =>
    cases rc with
    | message f =>
      obtain ⟨hf, hd⟩ := hal
      refine ⟨⟨fs ++ [f], by simp [results, hf], hd⟩, ?_⟩
      simp only [ReaderLabel.ticks, work, Sum.getLeft?_inr]
      simp only [Lowers] at hlow
      omega
    | timeout => exact hlow.elim
    | error what => exact hlow.elim

/-- With no bytes left, a step yields no message and takes no byte. -/
theorem Reader.exhausted_step {s s' : Reader} {a : ReaderLabel} {es : List ReadRc}
    (hun : s.client.unread = []) (h : lts.step s a = some (s', es)) :
    s'.client.unread = [] ∧ messages es = [] := by
  obtain ⟨c, call⟩ := s
  rcases step_cases h with
    ⟨timeoutMs, now, rfl, rfl, rfl, rfl⟩ | ⟨t, r, c', next, rfl, rfl, hout, rfl, rfl⟩
  · exact ⟨hun, rfl⟩
  obtain ⟨hun', hmsg⟩ := WsClient.readPass_exhausted (r := r) (t := t) hun
  rw [hout] at hun' hmsg
  refine ⟨hun', ?_⟩
  rcases next with r' | rc
  · rfl
  · cases rc with
    | message f => exact absurd rfl (hmsg f)
    | timeout => rfl
    | error what => rfl

theorem Reader.reads_step (hall : Decodes stream frames [])
    (hmax : ∀ f ∈ frames, f.payload.length ≤ maxFrameLen) {s s' : Reader} {a : ReaderLabel}
    {tr es : List ReadRc} (hi : s.Reads stream frames tr) (ha : s.Prompt a)
    (h : lts.step s a = some (s', es)) :
    s'.Reads stream frames (tr ++ es) ∧
      (s'.client.unread ≠ [] → s.client.unread ≠ [] ∧ a.ticks + s'.work ≤ s.work) := by
  by_cases hun : s.client.unread = []
  · obtain ⟨rest, rfl, hrest⟩ := hi.end hall hun
    obtain ⟨hun', hes⟩ := exhausted_step hun h
    refine ⟨.inr ⟨hun', rest ++ es, List.append_assoc .., ?_⟩, fun hne => absurd hun' hne⟩
    rw [messages_append, hrest, hes, List.nil_append]
  · rcases hi with hat | ⟨hend, -⟩
    · obtain ⟨hat', hle⟩ := at_step hall hmax hat hun ha h
      exact ⟨.inl hat', fun _ => ⟨hun, hle⟩⟩
    · exact absurd hend hun

/-! ## From the response header on -/

/-- A connection that waits for the response header, or an open one. -/
inductive Conn where
  | upgrading (c : WsClient) (u : UpgradeRead)
  | opened (s : Reader)
  | refused (what : Bytes)
  deriving DecidableEq, Repr

def Conn.step : Conn → ReaderLabel → Option (Conn × List ReadRc)
  | upgrading c u, .tick t =>
    match c.upgradePass u t with
    | (c, .again u) => some (upgrading c u, [])
    | (c, .ok) => some (opened { client := c }, [])
    | (_, .error what) => some (refused what, [])
  | opened s, a => (s.step a).map fun p => (opened p.1, p.2)
  | _, _ => none

def Conn.lts : Lts Conn ReaderLabel ReadRc := ⟨Conn.step⟩

theorem Conn.step_opened {s : Reader} {s' : Conn} {a : ReaderLabel} {es : List ReadRc}
    (h : lts.step (opened s) a = some (s', es)) :
    ∃ s₁, s' = opened s₁ ∧ Reader.lts.step s a = some (s₁, es) := by
  simp only [lts, step, Option.map_eq_some_iff, Prod.mk.injEq] at h
  obtain ⟨⟨s₁, es₁⟩, hs, rfl, rfl⟩ := h
  exact ⟨s₁, rfl, hs⟩

def Conn.Prompt : Conn → ReaderLabel → Prop
  | upgrading c u, .tick t =>
    match u.byte with
    | none => 0 < toInt32 (u.deadline - t.now)
    | some e => e.Available c t
  | opened s, a => s.Prompt a
  | _, _ => True

def Conn.work : Conn → ℕ
  | upgrading c u =>
    pongRoom * c.unread.length + match u.byte with
      | none => 2
      | some _ => 1
  | opened s => s.work
  | refused _ => 0

/-- The connection is open and has no bytes left. -/
def Conn.Exhausted : Conn → Prop
  | opened s => s.client.unread = []
  | _ => False

/-- The header is read up to a point in it and nothing behind it, or the connection is open. -/
def Conn.Reads (h stream : Bytes) (frames : List WsFrame) (want : Bytes) (tr : List ReadRc) :
    Conn → Prop
  | upgrading c u => tr = [] ∧ u.want = want ∧ u.resp ++ c.unread = h ++ stream ∧ u.resp <+: h ∧
      ∀ e ∈ u.byte, e.n = 1 ∧ e.buf = [] ∧ found crlfcrlf u.resp = false
  | opened s => s.Reads stream frames tr
  | refused _ => False

theorem Conn.reads_step {h want : Bytes} (hacc : AcceptedHeader want h)
    (hall : Decodes stream frames []) (hmax : ∀ f ∈ frames, f.payload.length ≤ maxFrameLen)
    {s s' : Conn} {a : ReaderLabel} {tr es : List ReadRc} (hi : s.Reads h stream frames want tr)
    (ha : s.Prompt a) (hs : lts.step s a = some (s', es)) :
    s'.Reads h stream frames want (tr ++ es) ∧
      (¬ s'.Exhausted → ¬ s.Exhausted ∧ a.ticks + s'.work ≤ s.work) := by
  cases s with
  | refused what => exact hi.elim
  | opened s =>
    obtain ⟨s₁, rfl, hs₁⟩ := step_opened hs
    exact Reader.reads_step hall hmax hi ha hs₁
  | upgrading c u =>
    cases a with
    | call timeoutMs now => cases hs
    | tick t =>
      obtain ⟨rfl, hwant, hrest, hpre, hbyte⟩ := hi
      obtain ⟨deadline, want', resp, byte⟩ := u
      cases byte with
      | none =>
        simp only [lts, step, WsClient.upgradePass] at hs
        by_cases hend : found crlfcrlf resp = true
        · have hresp : resp = h := by
            by_contra hne
            rw [hacc.first resp hpre hne] at hend
            cases hend
          subst hresp
          have hun : c.unread = stream := List.append_cancel_left hrest
          simp only [hend, if_true, UpgradeRead.check, hacc.status, not_true, if_false] at hs
          rw [show want' = want from hwant, hacc.accept] at hs
          simp only [not_true, if_false, Option.some.injEq, Prod.mk.injEq] at hs
          obtain ⟨rfl, rfl⟩ := hs
          refine ⟨.inl ⟨[], rfl, ?_⟩, fun _ => ⟨id, ?_⟩⟩
          · show Decodes stream [] c.unread
            rw [hun]
            exact .nil _
          · show 1 + (pongRoom * c.unread.length + 0) ≤ pongRoom * c.unread.length + 2
            omega
        · have hd : 0 < toInt32 (deadline - t.now) := ha
          simp only [hend, if_false, show ¬ toInt32 (deadline - t.now) ≤ 0 by omega,
            Bool.false_eq_true] at hs
          cases hs
          refine ⟨⟨rfl, hwant, hrest, hpre, ?_⟩, fun _ => ⟨id, ?_⟩⟩
          · rintro e he
            cases he
            exact ⟨rfl, rfl, by simpa using hend⟩
          · show 1 + (pongRoom * c.unread.length + 1) ≤ pongRoom * c.unread.length + 2
            omega
      | some e =>
        obtain ⟨hn, hbuf, hend⟩ := hbyte e rfl
        have hne : resp ≠ h := by
          rintro rfl
          rw [hacc.ends] at hend
          cases hend
        obtain ⟨b, x, hx⟩ : ∃ b x, h = resp ++ b :: x := by
          obtain ⟨y, hy⟩ := hpre
          cases y with
          | nil => exact absurd (by simpa using hy) hne
          | cons b x => exact ⟨b, x, hy.symm⟩
        have hun : c.unread = b :: (x ++ stream) := by
          rw [hx, List.append_assoc] at hrest
          exact List.append_cancel_left hrest
        obtain ⟨c', bs, hc, hmv, hbs⟩ := WsClient.readExactPass_available (e := e) ha
          (by rw [hun]; exact (by simp)) (by rw [hn, hbuf]; exact Nat.zero_lt_one)
        obtain ⟨b', rfl⟩ : ∃ b', bs = [b'] := by
          have hfit := hmv.fits
          have hpos := List.length_pos_iff.2 hbs
          rw [hn, hbuf] at hfit
          exact List.length_eq_one_iff.1 (by simp at hfit; omega)
        have hmu : b :: (x ++ stream) = b' :: c'.unread := hun.symm.trans hmv.unread
        obtain ⟨rfl, hun'⟩ := List.cons.inj hmu
        have hst : e.store [b] = .ok [b] := by simp [ReadExact.store, hn, hbuf]
        have hle : (resp ++ [b]).length ≤ 64 * 1024 := by
          refine le_trans ?_ hacc.length_le
          rw [hx]
          simp
        simp only [lts, step, WsClient.upgradePass] at hs
        rw [hc, hst] at hs
        simp only [gt_iff_lt, not_lt.2 hle, if_false, Option.some.injEq, Prod.mk.injEq] at hs
        obtain ⟨rfl, rfl⟩ := hs
        refine ⟨⟨rfl, hwant, ?_, ⟨x, ?_⟩, by simp⟩, fun _ => ⟨id, ?_⟩⟩
        · rw [← hun', hx]
          simp
        · rw [hx]
          simp
        · show 1 + (pongRoom * c'.unread.length + 2) ≤ pongRoom * c.unread.length + 1
          have hroom : pongRoom = maxFrameLen + 32 := rfl
          rw [hun, ← hun', List.length_cons, Nat.mul_succ]
          omega

/-! ## A prompt run to the end -/

/-- A step that takes no time at `now`. -/
def ReaderLabel.Instant (now : ℤ) : ReaderLabel → Prop
  | .call _ n => n = now
  | .tick t => t.now = now ∧ t.after = now

/-- A pass at `now` in which one more byte is there to read, or room for one to write. -/
def Tick.prompt (now : ℤ) : Tick where
  now := now
  after := now
  poll := .ready
  recv := .data 0
  send := .sent 0
  key := .replicate 4 0

/-- `ReadExact` and the loops over it go on at `now`. -/
def Before (now deadline : ℤ) : Prop := 0 < toInt32 (deadline - now)

/-- The deadlines a `Read` may still come to are ahead of `now`. -/
def ReadCall.Ahead (now : ℤ) (r : ReadCall) : Prop :=
  Before now r.deadline ∧ match r.pc with
    | .exact s e => Before now e.deadline ∧ (s ≠ .head → Before now r.frameDeadline)
    | _ => True

def Reader.Ahead (now : ℤ) (s : Reader) : Prop := ∀ r ∈ s.call, r.Ahead now

/-- 1 if no `Read` is in progress. -/
def Reader.idle (s : Reader) : ℕ := if s.call = none then 1 else 0

theorem before_add {now d : ℤ} (h : 0 < d) (hd : d < 2 ^ 31) : Before now (now + d) := by
  rw [Before, toInt32, show now + d - now = d by omega, Int.bmod_eq_of_le (by omega) (by omega)]
  exact h

theorem ReadExact.store_deadline {e' : ReadExact} {bs : Bytes} (h : e.store bs = .again e') :
    e'.deadline = e.deadline := by
  unfold store at h
  split at h
  · cases h
    rfl
  · cases h

theorem WsClient.readExactPass_deadline {e' : ReadExact}
    (h : c.readExactPass e t = (c', .again e')) : e'.deadline = e.deadline := by
  have hdeliver : ∀ {m}, c.deliver e m = (c', .again e') → e'.deadline = e.deadline := by
    intro m hm
    simp only [deliver] at hm
    split at hm
    · cases hm
    · exact ReadExact.store_deadline (congrArg Prod.snd hm)
  unfold readExactPass at h
  split at h
  · exact ReadExact.store_deadline (congrArg Prod.snd h)
  split at h
  · cases h
  split at h
  · cases h
  split at h
  · cases h
  split at h
  · exact hdeliver h
  · cases h
    rfl
  · exact hdeliver h
  · cases h

theorem ReadCall.ahead_fetch {now : ℤ} {s : Stage} (h : Before now r.deadline)
    (hf : s ≠ .head → Before now r.frameDeadline) : (r.fetch s).Ahead now := by
  refine ⟨h, ?_, hf⟩
  show Before now (if s = .head then r.deadline else r.frameDeadline)
  by_cases hs : s = .head
  · rw [if_pos hs]
    exact h
  · rw [if_neg hs]
    exact hf hs

theorem ReadCall.ahead_start (now : ℤ) : (ReadCall.start 1000 now).Ahead now :=
  ahead_fetch (before_add (by decide) (by decide)) fun hs => absurd rfl hs

theorem ReadCall.ahead_next {now : ℤ} (h : Before now r.deadline) (hf : Before now r.frameDeadline)
    (res : Resume) : ∀ r' ∈ (r.next res).getLeft?, r'.Ahead now := by
  intro r' hr'
  cases res with
  | more s =>
    cases hr'
    exact ahead_fetch h fun _ => hf
  | reject what => cases hr'
  | frame f =>
    simp only [next] at hr'
    split at hr'
    · cases hr'
      exact ⟨h, trivial⟩
    split at hr'
    · cases hr'
      exact ahead_fetch h fun hs => absurd rfl hs
    · cases hr'

theorem WsClient.readPass_ahead {now : ℤ} (h : r.Ahead now) (ht : t.after = now) :
    ∀ r' ∈ (c.readPass r t).2.getLeft?, r'.Ahead now := by
  obtain ⟨deadline, frameDeadline, pc⟩ := r
  obtain ⟨hd, hpc⟩ := h
  have hframe : Before now (now + kFrameReadBudgetMs) := before_add (by decide) (by decide)
  intro r' hr'
  cases pc with
  | exact s e =>
    simp only [readPass] at hr'
    split at hr'
    · rename_i hpass
      cases hr'
      refine ⟨hd, ?_, hpc.2⟩
      rw [readExactPass_deadline hpass]
      exact hpc.1
    · refine ReadCall.ahead_next ?_ ?_ _ r' hr'
      · by_cases hs : s = .head
        · rw [if_pos hs]
          exact hd
        · rw [if_neg hs]
          exact hd
      · by_cases hs : s = .head
        · rw [if_pos hs, ht]
          exact hframe
        · rw [if_neg hs]
          exact hpc.2 hs
    · cases hr'
    · cases hr'
  | pong payload =>
    cases hr'
    exact ⟨hd, trivial⟩
  | pongWrite w =>
    simp only [readPass] at hr'
    split at hr'
    · cases hr'
      exact ⟨hd, trivial⟩
    · cases hr'
      exact ReadCall.ahead_fetch hd fun hs => absurd rfl hs

/-- A reader whose deadlines are ahead has a prompt step that takes no time. -/
theorem Reader.goes_on {now : ℤ} {s : Reader} (h : s.Ahead now) :
    ∃ a s' es, lts.step s a = some (s', es) ∧ s.Prompt a ∧ a.Instant now ∧ s'.Ahead now ∧
      s'.idle < 2 * a.ticks + s.idle := by
  obtain ⟨c, call⟩ := s
  cases call with
  | none =>
    refine ⟨.call 1000 now, _, _, rfl, trivial, rfl, ?_, Nat.zero_lt_one⟩
    intro r hr
    cases hr
    exact ReadCall.ahead_start now
  | some r =>
    have hprompt : r.Prompt c (.prompt now) := by
      have hr := h r rfl
      obtain ⟨deadline, frameDeadline, pc⟩ := r
      cases pc with
      | exact s e => exact fun _ => ⟨hr.2.1, rfl, 0, rfl⟩
      | pong payload => trivial
      | pongWrite w => exact fun hs => by cases hs
    have hahead := WsClient.readPass_ahead (c := c) (t := .prompt now) (h r rfl) rfl
    have hidle : ∀ s : Reader, s.idle < 2 * 1 + 0 := by
      intro s
      unfold idle
      split_ifs <;> omega
    have hstep : ∃ s' es, lts.step ⟨c, some r⟩ (.tick (.prompt now)) = some (s', es) ∧
        s'.call = (c.readPass r (.prompt now)).2.getLeft? := by
      simp only [lts, step]
      split
      · rename_i hout
        exact ⟨_, _, rfl, by rw [hout]; rfl⟩
      · rename_i hout
        exact ⟨_, _, rfl, by rw [hout]; rfl⟩
    obtain ⟨s', es, hs, hcall⟩ := hstep
    refine ⟨_, s', es, hs, ?_, ⟨rfl, rfl⟩, ?_, hidle s'⟩
    · intro r' hr'
      cases hr'
      exact hprompt
    · intro r' hr'
      rw [hcall] at hr'
      exact hahead r' hr'

theorem WsClient.upgradePass_ahead {now : ℤ} {u u' : UpgradeRead} (hd : Before now u.deadline)
    (hb : ∀ e ∈ u.byte, Before now e.deadline) (h : c.upgradePass u t = (c', .again u')) :
    Before now u'.deadline ∧ ∀ e ∈ u'.byte, Before now e.deadline := by
  obtain ⟨deadline, want, resp, byte⟩ := u
  cases byte with
  | none =>
    simp only [upgradePass, UpgradeRead.check] at h
    split at h
    · -- a complete header ends the loop
      split at h
      · cases h
      split at h
      · cases h
      · cases h
    split at h
    · cases h
    · cases h
      refine ⟨hd, fun e he => ?_⟩
      cases he
      exact hd
  | some e =>
    simp only [upgradePass] at h
    split at h
    · rename_i hpass
      cases h
      refine ⟨hd, fun e' he => ?_⟩
      cases he
      rw [readExactPass_deadline hpass]
      exact hb e rfl
    · split at h
      · cases h
      · cases h
        refine ⟨hd, fun e' he => ?_⟩
        cases he
    · cases h

def Conn.Ahead (now : ℤ) : Conn → Prop
  | upgrading _ u => Before now u.deadline ∧ ∀ e ∈ u.byte, Before now e.deadline
  | opened s => s.Ahead now
  | refused _ => True

def Conn.idle : Conn → ℕ
  | opened s => s.idle
  | _ => 0

theorem Conn.goes_on {now : ℤ} {s : Conn} (h : s.Ahead now) (hs : ∀ what, s ≠ refused what) :
    ∃ a s' es, lts.step s a = some (s', es) ∧ s.Prompt a ∧ a.Instant now ∧ s'.Ahead now ∧
      s'.idle < 2 * a.ticks + s.idle := by
  cases s with
  | refused what => exact absurd rfl (hs what)
  | opened s =>
    obtain ⟨a, s', es, hs, hpr, hnow, hah, hlt⟩ := Reader.goes_on h
    refine ⟨a, opened s', es, ?_, hpr, hnow, hah, hlt⟩
    show (s.step a).map _ = _
    rw [show s.step a = some (s', es) from hs]
    rfl
  | upgrading c u =>
    obtain ⟨hd, hb⟩ := h
    refine ⟨.tick (.prompt now), ?_⟩
    have hpr : (upgrading c u).Prompt (.tick (.prompt now)) := by
      obtain ⟨deadline, want, resp, byte⟩ := u
      cases byte with
      | none => exact hd
      | some e => exact fun _ => ⟨hb e rfl, rfl, 0, rfl⟩
    simp only [lts, step]
    split
    · rename_i c' u' hout
      exact ⟨_, _, rfl, hpr, ⟨rfl, rfl⟩, WsClient.upgradePass_ahead hd hb hout, Nat.zero_lt_succ _⟩
    · refine ⟨_, _, rfl, hpr, ⟨rfl, rfl⟩, ?_, ?_⟩
      · intro r hr
        cases hr
      · show (if (none : Option ReadCall) = none then 1 else 0) < 2
        decide
    · exact ⟨_, _, rfl, hpr, ⟨rfl, rfl⟩, trivial, Nat.zero_lt_succ _⟩

/-- With the last byte come the results of all frames, and nothing else has come. -/
theorem Conn.reads_exact {h want : Bytes} (hall : Decodes stream frames [])
    (hmax : ∀ f ∈ frames, f.payload.length ≤ maxFrameLen) {s s' : Conn} {a : ReaderLabel}
    {tr es : List ReadRc} (hi : s.Reads h stream frames want tr) (hlive : ¬ s.Exhausted)
    (ha : s.Prompt a) (hs : lts.step s a = some (s', es))
    (hi' : s'.Reads h stream frames want (tr ++ es)) (hex : s'.Exhausted) :
    tr ++ es = results frames := by
  cases s with
  | refused what => exact hi.elim
  | opened s =>
    obtain ⟨s₁, rfl, hs₁⟩ := step_opened hs
    rcases hi with hat | ⟨hend, -⟩
    · obtain ⟨⟨fs, hfs, hat'⟩, -⟩ := Reader.at_step hall hmax hat hlive ha hs₁
      rw [hfs, hat'.end hall hex]
    · exact absurd hend hlive
  | upgrading c u =>
    cases s' with
    | upgrading c' u' => exact hex.elim
    | refused what => exact hex.elim
    | opened s' =>
      have hes : tr ++ es = [] := by
        cases a with
        | call timeoutMs now => cases hs
        | tick t =>
          simp only [lts, step] at hs
          split at hs
          · cases hs
          · cases hs
            rw [hi.1, List.nil_append]
          · cases hs
      obtain ⟨rest, hrest, -⟩ := Reader.Reads.end hi' hall hex
      rw [hes] at hrest ⊢
      exact (List.append_eq_nil_iff.1 hrest.symm).1.symm

/-- **A prompt run to the end**, all at one time: it yields the results of all frames and nothing
    else, and takes every byte. -/
theorem Conn.reads_all {h want : Bytes} (hacc : AcceptedHeader want h)
    (hall : Decodes stream frames []) (hmax : ∀ f ∈ frames, f.payload.length ≤ maxFrameLen)
    {now : ℤ} {s : Conn} (hi : s.Reads h stream frames want []) (hlive : ¬ s.Exhausted)
    (hnow : s.Ahead now) :
    ∃ as r, lts.run s as = some (.opened r, results frames) ∧ lts.Meets Prompt s as ∧
      (∀ a ∈ as, a.Instant now) ∧ r.client.unread = [] := by
  have hreach := Lts.run_reaches (T := lts) (C := fun s a => s.Prompt a ∧ a.Instant now)
    (G := fun tr s => s.Exhausted ∧ tr = results frames)
    (I := fun tr s n => s.Reads h stream frames want tr ∧ ¬ s.Exhausted ∧ s.Ahead now ∧
      2 * s.work + s.idle = n) ?_ [] ⟨hi, hlive, hnow, rfl⟩
  · obtain ⟨as, s', es, hrun, hm, hex, hes⟩ := hreach
    obtain ⟨hprompt, hinst⟩ := Lts.meets_and.1 hm
    cases s' with
    | upgrading c u => exact hex.elim
    | refused what => exact hex.elim
    | opened r =>
      rw [List.nil_append] at hes
      subst hes
      exact ⟨as, r, hrun, hprompt, (Lts.meets_labels hrun).1 hinst, hex⟩
  · rintro tr s n ⟨hi, hlive, hnow, rfl⟩ -
    have hopen : ∀ what, s ≠ refused what := by
      rintro what rfl
      exact hi
    obtain ⟨a, s', es, hs, hpr, hinst, hnow', hlt⟩ := goes_on hnow hopen
    obtain ⟨hi', hle⟩ := reads_step hacc hall hmax hi hpr hs
    refine ⟨[a], s', es, ?_, Lts.meets_singleton ⟨hpr, hinst⟩, ?_⟩
    · exact Lts.run_one hs
    · by_cases hex : s'.Exhausted
      · exact .inl ⟨hex, reads_exact hall hmax hi hlive hpr hs hi' hex⟩
      · obtain ⟨-, hle⟩ := hle hex
        exact .inr ⟨_, ⟨hi', hex, hnow', rfl⟩, by omega⟩

/-! ## Frames over the bound -/

/-- The error of a frame over the bound. -/
def tooLong : ReadRc := .error "frame length exceeds sanity bound"

/-- A declared length over the bound takes the 64-bit form. -/
theorem decodeLength_large {b₁ : UInt8} {s x : Bytes} {n : ℕ}
    (h : Rfc6455.decodeLength (b₁.toNat % 128) s = some (n, x)) (hn : maxFrameLen < n) :
    b₁ &&& 0x7F = 127 ∧ ∃ ext, ext.length = 8 ∧ s = ext ++ x ∧ beNat ext = n := by
  have hmax : 65536 ≤ maxFrameLen := by decide
  unfold Rfc6455.decodeLength at h
  split at h
  · simp only [Option.map_eq_some_iff, Prod.mk.injEq] at h
    obtain ⟨⟨ext, x'⟩, hp, rfl, rfl⟩ := h
    obtain ⟨-, hl⟩ := takeExact_eq_some hp
    have hlt := beNat_lt ext
    rw [hl] at hlt
    simp only at hn
    omega
  split at h
  · rename_i hb
    simp only [Option.map_eq_some_iff, Prod.mk.injEq] at h
    obtain ⟨⟨ext, x'⟩, hp, rfl, rfl⟩ := h
    obtain ⟨rfl, hl⟩ := takeExact_eq_some hp
    refine ⟨UInt8.toNat_inj.1 ?_, ext, hl, rfl, rfl⟩
    rw [and_0x7F, hb]
    rfl
  · cases h
    have := Nat.mod_lt b₁.toNat (show 0 < 128 by decide)
    omega

/-- The first `Read` is in the header of the frame, or it has rejected it. -/
def Reader.Rejects (b₀ b₁ : UInt8) (ext x : Bytes) (tr : List ReadRc) (s : Reader) : Prop :=
  (∃ rest, tr = tooLong :: rest) ∨ (tr = [] ∧
    match s.call with
    | none => s.client.unread = b₀ :: b₁ :: (ext ++ x)
    | some r => ∃ st e, r.pc = .exact st e ∧ e.n = st.width ∧ e.buf.length < e.n ∧
        ((st = .head ∧ e.buf ++ s.client.unread = b₀ :: b₁ :: (ext ++ x)) ∨
          (st = .ext b₀ b₁ ∧ e.buf ++ s.client.unread = ext ++ x)))

theorem Reader.rejects_step {b₀ b₁ : UInt8} {ext x : Bytes} (hb : b₁ &&& 0x7F = 127)
    (hext : ext.length = 8) (hlong : maxFrameLen < beNat ext) {s s' : Reader} {a : ReaderLabel}
    {tr es : List ReadRc} (hi : s.Rejects b₀ b₁ ext x tr) (ha : s.Prompt a)
    (h : lts.step s a = some (s', es)) :
    s'.Rejects b₀ b₁ ext x (tr ++ es) ∧
      (tr ++ es = [] → tr = [] ∧ a.ticks + s'.client.unread.length ≤ s.client.unread.length) := by
  rcases hi with ⟨rest, rfl⟩ | ⟨rfl, hi⟩
  · exact ⟨.inl ⟨rest ++ es, rfl⟩, by simp⟩
  obtain ⟨c, call⟩ := s
  rcases step_cases h with
    ⟨timeoutMs, now, rfl, rfl, rfl, rfl⟩ | ⟨t, r, c₁, next, rfl, rfl, hout, rfl, rfl⟩
  · refine ⟨.inr ⟨rfl, _, _, rfl, rfl, Nat.zero_lt_succ 1, .inl ⟨rfl, hi⟩⟩, fun _ => ⟨rfl, ?_⟩⟩
    exact le_of_eq (Nat.zero_add _)
  obtain ⟨deadline, frameDeadline, pc⟩ := r
  obtain ⟨st, e, hpc, hn, hlt, hst⟩ := hi
  cases hpc
  have hun : c.unread ≠ [] := by
    intro h0
    rcases hst with ⟨rfl, hst⟩ | ⟨rfl, hst⟩
    · rw [h0, List.append_nil] at hst
      rw [hn, hst] at hlt
      simp only [Stage.width, List.length_cons] at hlt
      omega
    · rw [h0, List.append_nil] at hst
      rw [hn, hst] at hlt
      simp [Stage.width, hb, hext] at hlt
  obtain ⟨c', bs, hc, hmv, hbs⟩ := WsClient.readExactPass_available (ha _ rfl) hun hlt
  have hless : c'.unread.length + 1 ≤ c.unread.length := by
    have hpos := List.length_pos_iff.2 hbs
    rw [hmv.unread, List.length_append]
    omega
  have happ : e.buf ++ c.unread = (e.buf ++ bs) ++ c'.unread := by
    rw [hmv.unread, List.append_assoc]
  rw [happ] at hst
  simp only [WsClient.readPass] at hout
  rcases ReadExact.store_cases hmv.fits hlt with ⟨hl, hstore⟩ | ⟨hl, hstore⟩
  · rw [hc, hstore] at hout
    cases hout
    refine ⟨.inr ⟨rfl, st, _, rfl, hn, hl, hst⟩, fun _ => ⟨rfl, ?_⟩⟩
    show 1 + c₁.unread.length ≤ c.unread.length
    omega
  · rw [hc, hstore] at hout
    rw [hn] at hl
    rcases hst with ⟨rfl, hst⟩ | ⟨rfl, hst⟩
    · obtain ⟨hbuf, hrest⟩ : e.buf ++ bs = [b₀, b₁] ∧ c'.unread = ext ++ x :=
        List.append_inj (show _ = [b₀, b₁] ++ (ext ++ x) from hst) hl
      rw [hbuf] at hout
      simp only [Stage.resume, List.getD_cons_zero, List.getD_cons_succ, hb, or_true, if_true,
        ReadCall.next, Prod.mk.injEq] at hout
      obtain ⟨rfl, rfl⟩ := hout
      refine ⟨.inr ⟨rfl, _, _, rfl, rfl, ?_, .inr ⟨rfl, hrest⟩⟩, fun _ => ⟨rfl, ?_⟩⟩
      · simp [Stage.width, hb]
      · show 1 + c'.unread.length ≤ c.unread.length
        omega
    · obtain ⟨hbuf, -⟩ : e.buf ++ bs = ext ∧ c'.unread = x := by
        refine List.append_inj hst (hl.trans ?_)
        simp [Stage.width, hb, hext]
      rw [hbuf] at hout
      simp only [Stage.resume, foldl_shift, afterLength] at hout
      rw [if_pos (show List.foldl _ 0 ext > maxFrameLen from hlong)] at hout
      simp only [ReadCall.next] at hout
      cases hout
      exact ⟨.inl ⟨[], rfl⟩, by simp⟩

theorem Reader.length_results_le {s s' : Reader} {a : ReaderLabel} {es : List ReadRc}
    (h : lts.step s a = some (s', es)) : es.length ≤ 1 := by
  obtain ⟨c, call⟩ := s
  rcases step_cases h with
    ⟨timeoutMs, now, rfl, rfl, rfl, rfl⟩ | ⟨t, r, c', next, rfl, rfl, hout, rfl, rfl⟩
  · exact Nat.zero_le 1
  · cases next with
    | inl r' => exact Nat.zero_le 1
    | inr rc => exact Nat.le_refl 1

/-- A prompt run to the error, all at one time. -/
theorem Reader.rejects_all {b₀ b₁ : UInt8} {ext x : Bytes} (hb : b₁ &&& 0x7F = 127)
    (hext : ext.length = 8) (hlong : maxFrameLen < beNat ext) {now : ℤ} {s : Reader}
    (hi : s.Rejects b₀ b₁ ext x []) (hnow : s.Ahead now) :
    ∃ as s', lts.run s as = some (s', [tooLong]) ∧ lts.Meets Prompt s as ∧
      ∀ a ∈ as, a.Instant now := by
  have hreach := Lts.run_reaches (T := lts) (C := fun s a => s.Prompt a ∧ a.Instant now)
    (G := fun tr _ => tr = [tooLong])
    (I := fun tr s n => s.Rejects b₀ b₁ ext x tr ∧ tr = [] ∧ s.Ahead now ∧
      2 * s.client.unread.length + s.idle = n) ?_ [] ⟨hi, rfl, hnow, rfl⟩
  · obtain ⟨as, s', es, hrun, hm, hes⟩ := hreach
    obtain ⟨hprompt, hinst⟩ := Lts.meets_and.1 hm
    rw [List.nil_append] at hes
    subst hes
    exact ⟨as, s', hrun, hprompt, (Lts.meets_labels hrun).1 hinst⟩
  · rintro tr s n ⟨hi, rfl, hnow, rfl⟩ -
    obtain ⟨a, s', es, hs, hpr, hinst, hnow', hlt⟩ := goes_on hnow
    obtain ⟨hi', hle⟩ := rejects_step hb hext hlong hi hpr hs
    refine ⟨[a], s', es, ?_, Lts.meets_singleton ⟨hpr, hinst⟩, ?_⟩
    · exact Lts.run_one hs
    · have hone := length_results_le hs
      rw [List.nil_append] at hi' hle ⊢
      rcases hi' with ⟨rest, rfl⟩ | ⟨rfl, hgo⟩
      · obtain rfl : rest = [] := List.length_eq_zero_iff.1 (by simpa using hone)
        exact .inl rfl
      · obtain ⟨-, hle⟩ := hle rfl
        exact .inr ⟨_, ⟨.inr ⟨rfl, hgo⟩, rfl, hnow', rfl⟩, by omega⟩

/-! ## The codec -/

/-- **Codec round trip.**  The encodings of any frames behind an accepted response header are
    read back.  At any time before the deadline of the upgrade there is a run, without a pause,
    whose results of `Read` are exactly the frames that are neither pings nor pongs, in order and
    unchanged, and which takes all bytes; and when every pass finds its bytes no run yields anything
    else, and after finitely many passes it has yielded them all.  A frame whose declared length is
    over 64 MiB is rejected. -/
theorem Conn.codec_round_trip :
    (∀ (sent : List SentFrame) (h : Bytes) (c : WsClient) (u : UpgradeRead),
      (∀ f ∈ sent, f.Legal) → AcceptedHeader u.want h → c.unread = h ++ wire sent →
      u.resp = [] → u.byte = none →
      (∀ now, Before now u.deadline → ∃ as r,
        lts.run (.upgrading c u) as = some (.opened r, results (sent.map SentFrame.frame)) ∧
        lts.Meets Prompt (.upgrading c u) as ∧ (∀ a ∈ as, a.Instant now) ∧ r.client.unread = []) ∧
      ∃ n, ∀ as s tr, lts.run (.upgrading c u) as = some (s, tr) →
        lts.Meets Prompt (.upgrading c u) as →
        (tr <+: results (sent.map SentFrame.frame) ∨
          ∃ rest, tr = results (sent.map SentFrame.frame) ++ rest ∧ messages rest = []) ∧
        (n < (as.map ReaderLabel.ticks).sum → ∃ r : Reader, s = .opened r ∧ r.client.unread = [] ∧
          ∃ rest, tr = results (sent.map SentFrame.frame) ++ rest ∧ messages rest = [])) ∧
    ∀ (c : WsClient) (b₀ b₁ : UInt8) (s x : Bytes) (len : ℕ), c.unread = b₀ :: b₁ :: s →
      Rfc6455.decodeLength (b₁.toNat % 128) s = some (len, x) → 64 * 1024 * 1024 < len →
      (∀ now, ∃ as s', Reader.lts.run { client := c } as =
          some (s', [.error "frame length exceeds sanity bound"]) ∧
        Reader.lts.Meets Reader.Prompt { client := c } as ∧ ∀ a ∈ as, a.Instant now) ∧
      ∀ as s' tr, Reader.lts.run { client := c } as = some (s', tr) →
        Reader.lts.Meets Reader.Prompt { client := c } as →
        (tr = [] ∨ tr.head? = some (.error "frame length exceeds sanity bound")) ∧
        (c.unread.length < (as.map ReaderLabel.ticks).sum → tr ≠ []) := by
  refine ⟨?_, ?_⟩
  · intro sent h c u hlegal hacc hun hresp hbyte
    have hall := wire_decodes hlegal
    have hmax : ∀ f ∈ sent.map SentFrame.frame, f.payload.length ≤ maxFrameLen := by
      intro f hf
      obtain ⟨g, hg, rfl⟩ := List.mem_map.1 hf
      exact (hlegal g hg).payload_le
    have h₀ : (Conn.upgrading c u).Reads h (wire sent) (sent.map SentFrame.frame) u.want [] := by
      refine ⟨rfl, rfl, ?_, ?_, ?_⟩
      · rw [hresp, hun]; rfl
      · rw [hresp]; exact List.nil_prefix
      · rw [hbyte]; simp
    constructor
    · intro now hnow
      exact reads_all hacc hall hmax h₀ id ⟨hnow, by rw [hbyte]; simp⟩
    refine ⟨(Conn.upgrading c u).work, fun as s tr hrun hprompt => ?_⟩
    have hinv := Lts.run_induction (C := Prompt)
      (I := fun tr s => s.Reads h (wire sent) (sent.map SentFrame.frame) u.want tr)
      (fun hi ha hs => (reads_step hacc hall hmax hi ha hs).1) h₀ hprompt hrun
    rw [List.nil_append] at hinv
    constructor
    · cases s with
      | refused what => exact hinv.elim
      | upgrading c u => rw [hinv.1]; exact .inl List.nil_prefix
      | opened s =>
        rcases hinv with ⟨fs, rfl, hat⟩ | ⟨-, hrest⟩
        · refine .inl ?_
          obtain ⟨y, hd⟩ := hat.decodes
          obtain ⟨gs, hgs, -⟩ := hd.split hall
          rw [hgs, results_append]
          exact List.prefix_append _ _
        · exact .inr hrest
    · intro hn
      have hex : s.Exhausted := by
        by_contra hlive
        have hprog := Lts.run_progress (C := Prompt) (L := fun _ s => ¬ s.Exhausted)
          (w := ReaderLabel.ticks)
          (I := fun tr s => s.Reads h (wire sent) (sent.map SentFrame.frame) u.want tr)
          (fun hi ha hs => reads_step hacc hall hmax hi ha hs) h₀ hprompt hrun hlive
        omega
      cases s with
      | refused what => exact hex.elim
      | upgrading c u => exact hex.elim
      | opened s => exact ⟨s, rfl, hex, Reader.Reads.end hinv hall hex⟩
  · intro c b₀ b₁ s x len hun hlen hlong
    obtain ⟨hb, ext, hext, rfl, rfl⟩ := decodeLength_large hlen hlong
    have h₀ : Reader.Rejects b₀ b₁ ext x [] { client := c } := .inr ⟨rfl, hun⟩
    constructor
    · intro now
      exact Reader.rejects_all hb hext hlong h₀ (by simp [Reader.Ahead])
    intro as s' tr hrun hprompt
    have hinv := Lts.run_induction (C := Reader.Prompt)
      (I := fun tr s => s.Rejects b₀ b₁ ext x tr)
      (fun hi ha hs => (Reader.rejects_step hb hext hlong hi ha hs).1) h₀ hprompt hrun
    rw [List.nil_append] at hinv
    constructor
    · rcases hinv with ⟨rest, rfl⟩ | ⟨rfl, -⟩
      · exact .inr rfl
      · exact .inl rfl
    · intro hn htr
      have hprog := Lts.run_progress (C := Reader.Prompt) (L := fun tr _ => tr = [])
        (w := ReaderLabel.ticks) (I := fun tr s => s.Rejects b₀ b₁ ext x tr)
        (μ := fun s => s.client.unread.length)
        (fun hi ha hs => Reader.rejects_step hb hext hlong hi ha hs) h₀ hprompt hrun htr
      simp only at hprog
      omega

/-- A client to which a ping and a masked text frame are sent behind a response header. -/
def helloClient : WsClient where
  tls := false
  rx := ascii "HTTP/1.1 101\r\nSec: x\r\n\r\n" ++
    wire [⟨0x9, ascii "p", none⟩, ⟨0x1, ascii "hi", some #v[1, 2, 3, 4]⟩]

/-- A client to which the header of a frame of 2^63 bytes is sent. -/
def hugeClient : WsClient where
  tls := false
  rx := [0x82, 127, 128, 0, 0, 0, 0, 0, 0, 0]

theorem Conn.codec_round_trip_hello :
    ((∃ as r, lts.run (.upgrading helloClient { deadline := 10000, want := ascii "Sec: x" }) as =
          some (.opened r, [.message { opcode := 0x1, payload := ascii "hi" }]) ∧
        lts.Meets Prompt (.upgrading helloClient { deadline := 10000, want := ascii "Sec: x" }) as ∧
        (∀ a ∈ as, a.Instant 0) ∧ r.client.unread = []) ∧
      ∃ n, ∀ as s tr,
        lts.run (.upgrading helloClient { deadline := 10000, want := ascii "Sec: x" }) as =
          some (s, tr) →
        lts.Meets Prompt (.upgrading helloClient { deadline := 10000, want := ascii "Sec: x" }) as →
        (tr <+: [.message { opcode := 0x1, payload := ascii "hi" }] ∨
          ∃ rest, tr = [.message { opcode := 0x1, payload := ascii "hi" }] ++ rest ∧
            messages rest = []) ∧
        (n < (as.map ReaderLabel.ticks).sum → ∃ r : Reader, s = .opened r ∧ r.client.unread = [] ∧
          ∃ rest, tr = [.message { opcode := 0x1, payload := ascii "hi" }] ++ rest ∧
            messages rest = [])) ∧
    (∃ as s', Reader.lts.run { client := hugeClient } as =
        some (s', [.error "frame length exceeds sanity bound"]) ∧
      Reader.lts.Meets Reader.Prompt { client := hugeClient } as ∧ ∀ a ∈ as, a.Instant 0) ∧
    ∀ as s' tr, Reader.lts.run { client := hugeClient } as = some (s', tr) →
      Reader.lts.Meets Reader.Prompt { client := hugeClient } as →
      (tr = [] ∨ tr.head? = some (.error "frame length exceeds sanity bound")) ∧
      (10 < (as.map ReaderLabel.ticks).sum → tr ≠ []) := by
  have hello := codec_round_trip.1 [⟨0x9, ascii "p", none⟩, ⟨0x1, ascii "hi", some #v[1, 2, 3, 4]⟩]
    (ascii "HTTP/1.1 101\r\nSec: x\r\n\r\n") helloClient
    { deadline := 10000, want := ascii "Sec: x" } ?_ ⟨?_, ?_, ?_, ?_, ?_⟩ rfl rfl rfl
  · have huge := codec_round_trip.2 hugeClient 0x82 127 [128, 0, 0, 0, 0, 0, 0, 0] [] (2 ^ 63) rfl
      (by decide) (by decide)
    exact ⟨⟨hello.1 0 (show 0 < toInt32 (10000 - 0) by decide), hello.2⟩, huge.1 0, huge.2⟩
  · intro f hf
    simp only [List.mem_cons, List.not_mem_nil, or_false] at hf
    rcases hf with rfl | rfl
    · exact ⟨by decide, by decide⟩
    · exact ⟨by decide, by decide⟩
  · decide
  · intro p hp hne
    rw [← List.mem_inits] at hp
    revert p
    decide +kernel
  · decide
  · decide
  · decide

end TrtcAsr
