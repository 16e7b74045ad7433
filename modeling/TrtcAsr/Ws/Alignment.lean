/-
  Frame alignment of `Read`: the runs of a reader over an arbitrary environment.

  A `Reader` is a `WsClient` after the upgrade with the `Read` in progress, if any.
  Its labels are the calls (with any timeout) and the ticks of the environment; its
  events are the results of the calls.

  * `Reader.step_cases` says once what a step can be.
  * `ReadCall.Aligned` says where a `Read` stands in the stream; `readPass_aligned`
    is its preservation by one pass.
  * `Reader.HeaderCut` is the step that loses a byte: the poll window of a `Read`
    closes when one byte of a frame header has been read.
  * `Reader.read_frames`: in a run without such a step and without an error, the
    frames read are the decoding of the stream and no `Read` returns inside a frame.
-/
import TrtcAsr.Lib.Transition
import TrtcAsr.Ws.Read

namespace TrtcAsr

open Rfc6455 (Decodes)

/-- A client and the `Read` it is in. -/
structure Reader where
  client : WsClient
  call : Option ReadCall := none
  deriving DecidableEq, Repr

inductive ReaderLabel where
  | call (timeoutMs now : ℤ)
  | tick (t : Tick)
  deriving DecidableEq, Repr

/-- One step: a call when no `Read` is in progress, or a pass of the one that is. -/
def Reader.step (s : Reader) : ReaderLabel → Option (Reader × List ReadRc)
  | .call timeoutMs now =>
    match s.call with
    | none => some ({ s with call := some (.start timeoutMs now) }, [])
    | some _ => none
  | .tick t =>
    match s.call with
    | none => none
    | some r =>
      match s.client.readPass r t with
      | (c, .inl r) => some ({ client := c, call := some r }, [])
      | (c, .inr rc) => some ({ client := c, call := none }, [rc])

def Reader.lts : Lts Reader ReaderLabel ReadRc := ⟨Reader.step⟩

/-- What a step can be: a call, or a pass that goes on or returns. -/
theorem Reader.step_cases {c : WsClient} {call : Option ReadCall} {s' : Reader} {a : ReaderLabel}
    {es : List ReadRc} (h : lts.step ⟨c, call⟩ a = some (s', es)) :
    (∃ timeoutMs now, a = .call timeoutMs now ∧ call = none ∧
        s' = ⟨c, some (.start timeoutMs now)⟩ ∧ es = []) ∨
      ∃ t r c' next, a = .tick t ∧ call = some r ∧ c.readPass r t = (c', next) ∧
        s' = ⟨c', next.getLeft?⟩ ∧ es = next.getRight?.toList := by
  cases a with
  | call timeoutMs now =>
    cases call with
    | some r => cases h
    | none =>
      cases h
      exact .inl ⟨timeoutMs, now, rfl, rfl, rfl, rfl⟩
  | tick t =>
    cases call with
    | none => cases h
    | some r =>
      right
      simp only [lts, step] at h
      split at h
      · rename_i hout
        cases h
        exact ⟨t, r, _, _, rfl, rfl, hout, rfl, rfl⟩
      · rename_i hout
        cases h
        exact ⟨t, r, _, _, rfl, rfl, hout, rfl, rfl⟩

/-- The messages among the results. -/
def messages (tr : List ReadRc) : List WsFrame :=
  tr.filterMap fun
    | .message f => some f
    | _ => none

/-- A call that has returned -1. -/
def ReadRc.Failed (rc : ReadRc) : Prop := ∃ what, rc = .error what

/-- The `ReadExact` call finds no byte before its deadline. -/
def ReadExact.Expires (c : WsClient) (e : ReadExact) (t : Tick) : Prop :=
  c.readBuf = [] ∧ (toInt32 (e.deadline - t.now) ≤ 0 ∨
    ¬ (c.tls ∧ t.pending ≠ 0) ∧ t.poll = .timeout)

/-- The poll window of a `Read` closes when exactly one byte of a header has been read. -/
def Reader.HeaderCut (s : Reader) (a : ReaderLabel) : Prop :=
  ∃ t r e, a = .tick t ∧ s.call = some r ∧ r.pc = .exact .head e ∧ e.buf.length = 1 ∧
    e.Expires s.client t

/-- The frames `fs` have been decoded and the `Read` stands behind them: at a `ReadExact` call
    the bytes `p ++ e.buf` of the next frame have been taken. -/
def ReadCall.Aligned (stream : Bytes) (fs : List WsFrame) (c : WsClient) (r : ReadCall) : Prop :=
  match r.pc with
  | .exact s e => e.n = s.width ∧ e.buf.length < e.n ∧ ∃ p,
      Decodes stream fs (p ++ e.buf ++ c.unread) ∧ (∀ x, Rfc6455.decode (p ++ x) = s.decode x) ∧
        (s = .head → p = [])
  | _ => Decodes stream fs c.unread

variable {stream : Bytes} {fs : List WsFrame} {c c' : WsClient} {r r' : ReadCall} {t : Tick}

theorem ReadCall.aligned_fetch_head (h : Decodes stream fs c.unread) (r : ReadCall) :
    (r.fetch .head).Aligned stream fs c :=
  ⟨rfl, Nat.zero_lt_succ 1, [], by simpa [fetch] using h, fun _ => rfl, fun _ => rfl⟩

theorem ReadCall.Aligned.initial (h : r.Aligned stream fs c) :
    fs <+: Rfc6455.decodeAll stream := by
  obtain ⟨deadline, frameDeadline, pc⟩ := r
  cases pc with
  | exact s e => obtain ⟨-, -, p, hd, -⟩ := h; exact hd.initial
  | pong payload => exact Decodes.initial h
  | pongWrite w => exact Decodes.initial h

theorem WsClient.readExactPass_expired {e : ReadExact} (h : e.Expires c t) :
    c.readExactPass e t = (c, .timeout) := by
  obtain ⟨hb, h | h⟩ := h
  · simp [readExactPass, hb, h]
  · by_cases hd : toInt32 (e.deadline - t.now) ≤ 0
    · simp [readExactPass, hb, hd]
    · simp only [readExactPass, hb, hd, h, if_false, ne_eq, not_true]
      simp

theorem WsClient.readExactPass_timeout {e : ReadExact} (h : c.readExactPass e t = (c', .timeout)) :
    e.Expires c t := by
  have hst : ∀ bs, e.store bs ≠ .timeout := by
    intro bs; unfold ReadExact.store; split <;> simp
  have hd : ∀ m, (c.deliver e m).2 ≠ .timeout := by
    intro m; unfold deliver
    by_cases hb : c.rx.take m = []
    · simp [hb]
    · simpa [hb] using hst _
  have h2 := congrArg Prod.snd h
  unfold readExactPass at h2
  split at h2
  · exact absurd h2 (hst _)
  · rename_i hb
    refine ⟨not_not.1 hb, ?_⟩
    split at h2
    · exact .inl ‹_›
    split at h2
    · exact .inr ‹_›
    split at h2
    · cases h2
    · split at h2
      · exact absurd h2 (hd _)
      · cases h2
      · exact absurd h2 (hd _)
      · cases h2

/-- Where a pass leaves a `Read` that stood behind `fs`: it goes on, having decoded at most
    pings and pongs, or it returns the next message, or 0 at a frame boundary, or -1. -/
def AfterPass (stream : Bytes) (fs : List WsFrame) : WsClient × (ReadCall ⊕ ReadRc) → Prop
  | (c, .inl r) => ∃ gs, gs.filter (! ·.isPingPong) = [] ∧ r.Aligned stream (fs ++ gs) c
  | (c, .inr (.message f)) => f.isPingPong = false ∧ Decodes stream (fs ++ [f]) c.unread
  | (c, .inr .timeout) => Decodes stream fs c.unread
  | (_, .inr (.error _)) => True

theorem AfterPass.goes_on (h : r.Aligned stream fs c) : AfterPass stream fs (c, .inl r) :=
  ⟨[], rfl, by rwa [List.append_nil]⟩

/-- After the last byte of a `ReadExact` call the decoding goes on with the next one, or a
    frame is complete. -/
theorem ReadCall.aligned_next {s : Stage} {buf p : Bytes} (hw : buf.length = s.width)
    (hd : Decodes stream fs (p ++ buf ++ c.unread))
    (hp : ∀ x, Rfc6455.decode (p ++ x) = s.decode x) (r : ReadCall) :
    AfterPass stream fs (c, r.next (s.resume buf)) := by
  have hm := s.decode_resume hw
  rw [List.append_assoc] at hd
  cases hr : s.resume buf with
  | more s' =>
    rw [hr] at hm
    obtain ⟨hpos, hne⟩ := Stage.width_resume hr
    refine AfterPass.goes_on ⟨rfl, hpos, p ++ buf, ?_, ?_, fun h => absurd h hne⟩
    · simpa [fetch] using hd
    · intro x; rw [List.append_assoc, hp]; exact hm x
  | frame f =>
    rw [hr] at hm
    have hf : Rfc6455.decode (p ++ (buf ++ c.unread)) = some (f, c.unread) := by
      rw [hp]; exact hm _
    have hd' := hd.snoc hf
    simp only [next]
    split
    · rename_i h9
      exact ⟨[f], by simp [Rfc6455.Frame.isPingPong, h9], hd'⟩
    split
    · rename_i hA
      exact ⟨[f], by simp [Rfc6455.Frame.isPingPong, hA], aligned_fetch_head hd' r⟩
    · rename_i h9 hA
      exact ⟨by simp [Rfc6455.Frame.isPingPong, h9, hA], hd'⟩
  | reject what => trivial

theorem ReadExact.store_cases {e : ReadExact} {bs : Bytes} (h : bs.length ≤ e.n - e.buf.length)
    (he : e.buf.length < e.n) :
    ((e.buf ++ bs).length < e.n ∧ e.store bs = .again { e with buf := e.buf ++ bs }) ∨
      ((e.buf ++ bs).length = e.n ∧ e.store bs = .ok (e.buf ++ bs)) := by
  unfold store
  rw [List.length_append]
  split
  · exact .inl ⟨‹_›, rfl⟩
  · exact .inr ⟨by omega, rfl⟩

theorem WsClient.writeAllPass_unread (c : WsClient) (w : WriteAll) (t : Tick) :
    (c.writeAllPass w t).1.unread = c.unread := by
  unfold writeAllPass
  split
  · rfl
  split
  · rfl
  split
  · split <;> rfl
  · rfl
  · rfl

/-- **One pass keeps a `Read` aligned**, unless the poll window closes inside a header. -/
theorem WsClient.readPass_aligned (h : r.Aligned stream fs c)
    (hcut : ¬ ∃ e, r.pc = .exact .head e ∧ e.buf.length = 1 ∧ e.Expires c t) :
    AfterPass stream fs (c.readPass r t) := by
  obtain ⟨deadline, frameDeadline, pc⟩ := r
  cases pc with
  | exact s e =>
    obtain ⟨hn, hlt, p, hd, hp, hhead⟩ := h
    rcases c.readExactPass_cases e t hlt with ⟨c', bs, hc, hmv, -⟩ | hc | hc | hc
    · have hun : p ++ e.buf ++ c.unread = p ++ (e.buf ++ bs) ++ c'.unread := by
        rw [hmv.unread]; simp only [List.append_assoc]
      rw [hun] at hd
      simp only [readPass]
      rcases ReadExact.store_cases hmv.fits hlt with ⟨hl, hst⟩ | ⟨hl, hst⟩
      · rw [hc, hst]
        exact .goes_on ⟨hn, hl, p, hd, hp, hhead⟩
      · rw [hc, hst]
        exact ReadCall.aligned_next (hl.trans hn) hd hp _
    · simp only [readPass]
      rw [hc]
      exact .goes_on ⟨hn, hlt, p, hd, hp, hhead⟩
    · simp only [readPass]
      rw [hc]
      by_cases hs : s = .head
      · have hb : e.buf = [] := by
          by_contra hb
          have hpos := List.length_pos_iff.2 hb
          rw [hn, hs] at hlt
          simp only [Stage.width] at hlt
          exact hcut ⟨e, by rw [hs], by omega, readExactPass_timeout hc⟩
        rw [hhead hs, hb] at hd
        simp only [hs, if_true]
        exact hd
      · simp only [hs, if_false]
        trivial
    · simp only [readPass]
      rw [hc]
      trivial
  | pong payload => exact .goes_on h
  | pongWrite w =>
    have hd : Decodes stream fs (c.writeAllPass w t).1.unread := by
      rw [writeAllPass_unread]; exact h
    simp only [readPass]
    split
    · rename_i hw
      rw [hw] at hd
      exact .goes_on hd
    · rename_i hw
      rw [hw] at hd
      exact .goes_on (ReadCall.aligned_fetch_head hd _)

/-! ## Runs -/

/-- The results `tr` are the frames of the stream up to the point where the reader is. -/
def Reader.Inv (stream : Bytes) (tr : List ReadRc) (s : Reader) : Prop :=
  (∃ rc ∈ tr, rc.Failed) ∨ ∃ fs, messages tr = fs.filter (! ·.isPingPong) ∧
    match s.call with
    | none => Decodes stream fs s.client.unread
    | some r => r.Aligned stream fs s.client

theorem messages_append (tr tr' : List ReadRc) :
    messages (tr ++ tr') = messages tr ++ messages tr' := List.filterMap_append

theorem Reader.inv_step {tr es : List ReadRc} {s s' : Reader} {a : ReaderLabel}
    (hi : Inv stream tr s) (ha : ¬ s.HeaderCut a) (h : lts.step s a = some (s', es)) :
    Inv stream (tr ++ es) s' := by
  rcases hi with ⟨rc, hrc, hf⟩ | ⟨fs, hm, hi⟩
  · exact .inl ⟨rc, List.mem_append_left _ hrc, hf⟩
  obtain ⟨c, call⟩ := s
  rcases step_cases h with
    ⟨timeoutMs, now, rfl, rfl, rfl, rfl⟩ | ⟨t, r, c', next, rfl, rfl, hout, rfl, rfl⟩
  · refine .inr ⟨fs, by rw [List.append_nil]; exact hm, ?_⟩
    exact ReadCall.aligned_fetch_head hi _
  · have hcut : ¬ ∃ e, r.pc = .exact .head e ∧ e.buf.length = 1 ∧ e.Expires c t :=
      fun ⟨e, he, hl, hx⟩ => ha ⟨t, r, e, rfl, rfl, he, hl, hx⟩
    have hp := WsClient.readPass_aligned hi hcut
    rw [hout] at hp
    cases next with
    | inl r' =>
      obtain ⟨gs, hgs, hal⟩ := hp
      refine .inr ⟨fs ++ gs, ?_, hal⟩
      show messages (tr ++ []) = _
      rw [List.append_nil, List.filter_append, hgs, List.append_nil, hm]
    | inr rc =>
      cases rc with
      | message f =>
        obtain ⟨hf, hd⟩ := hp
        refine .inr ⟨fs ++ [f], ?_, hd⟩
        rw [messages_append, List.filter_append, hm]
        simp [messages, hf]
      | timeout =>
        refine .inr ⟨fs, ?_, hp⟩
        rw [messages_append, hm]
        simp [messages]
      | error what =>
        exact .inl ⟨.error what, List.mem_append_right _ (List.mem_singleton.2 rfl), what, rfl⟩

theorem Reader.Inv.initial {tr : List ReadRc} {s : Reader} (h : Inv stream tr s)
    (hok : ∀ rc ∈ tr, ¬ rc.Failed) :
    ∃ fs, fs <+: Rfc6455.decodeAll stream ∧ messages tr = fs.filter (! ·.isPingPong) ∧
      (s.call = none → Decodes stream fs s.client.unread) := by
  rcases h with ⟨rc, hrc, hf⟩ | ⟨fs, hm, hi⟩
  · exact absurd hf (hok rc hrc)
  refine ⟨fs, ?_, hm, fun hs => by rw [hs] at hi; exact hi⟩
  cases hs : s.call with
  | none => rw [hs] at hi; exact Decodes.initial hi
  | some r => rw [hs] at hi; exact hi.initial

/-- The frames read before any `Read` returns -1, in a run that may go on after one does. -/
theorem Reader.frames_before {c : WsClient} {as : List ReaderLabel} {s : Reader} {tr : List ReadRc}
    (h : lts.run { client := c } as = some (s, tr))
    (hcut : lts.Meets (fun s a => ¬ s.HeaderCut a) { client := c } as) {front : List ReadRc}
    (hfront : front <+: tr) (hok : ∀ rc ∈ front, ¬ rc.Failed) :
    ∃ fs, fs <+: Rfc6455.decodeAll c.unread ∧ messages front = fs.filter (! ·.isPingPong) := by
  have h₀ : Inv c.unread [] { client := c } ∧ ∀ front, front <+: [] → (∀ rc ∈ front, ¬ rc.Failed) →
      ∃ fs, fs <+: Rfc6455.decodeAll c.unread ∧ messages front = fs.filter (! ·.isPingPong) := by
    refine ⟨.inr ⟨[], rfl, .nil _⟩, fun front hfront _ => ⟨[], List.nil_prefix, ?_⟩⟩
    rw [List.prefix_nil.1 hfront]
    rfl
  refine (Lts.run_induction (I := fun tr s => Inv c.unread tr s ∧ ∀ front, front <+: tr →
    (∀ rc ∈ front, ¬ rc.Failed) → ∃ fs, fs <+: Rfc6455.decodeAll c.unread ∧
      messages front = fs.filter (! ·.isPingPong)) ?_ h₀ hcut h).2 front hfront hok
  rintro tr s a s' es ⟨hi, hall⟩ ha hs
  have hi' := inv_step hi ha hs
  refine ⟨hi', fun front hfront hok => ?_⟩
  obtain rfl | ⟨rc, rfl⟩ : es = [] ∨ ∃ rc, es = [rc] := by
    rcases step_cases hs with ⟨-, -, -, -, -, rfl⟩ | ⟨-, -, -, next, -, -, -, -, rfl⟩
    · exact .inl rfl
    · cases next with
      | inl r => exact .inl rfl
      | inr rc => exact .inr ⟨rc, rfl⟩
  · exact hall front (by simpa using hfront) hok
  · rcases List.prefix_concat_iff.1 hfront with rfl | hfront
    · obtain ⟨fs, hfs, hm, -⟩ := hi'.initial hok
      exact ⟨fs, hfs, hm⟩
    · exact hall front hfront hok

/-- **Frame alignment.**  In every run in which no poll window closes inside a frame
    header, as long as no `Read` has returned -1, the frames read (with the pings and
    pongs consumed) are a prefix of the decoding of the stream, and whenever no `Read`
    is in progress the stream is at a frame boundary. -/
theorem Reader.read_frames {c : WsClient} {as : List ReaderLabel} {s : Reader} {tr : List ReadRc}
    (h : lts.run { client := c } as = some (s, tr))
    (hcut : lts.Meets (fun s a => ¬ s.HeaderCut a) { client := c } as)
    (hok : ∀ rc ∈ tr, ¬ rc.Failed) :
    ∃ fs, fs <+: Rfc6455.decodeAll c.unread ∧ messages tr = fs.filter (! ·.isPingPong) ∧
      (s.call = none → Decodes c.unread fs s.client.unread) := by
  have h₀ : Inv c.unread [] { client := c } := .inr ⟨[], rfl, .nil _⟩
  have hrun := Lts.run_induction (fun hi ha hs => inv_step hi ha hs) h₀ hcut h
  exact hrun.initial hok

/-- A text frame of one byte, read in two arrivals. -/
theorem Reader.read_frames_two_arrivals :
    ∃ fs, fs <+: Rfc6455.decodeAll [0x81, 0x01, 0x41] ∧
      [{ opcode := 1, payload := [0x41] }] = fs.filter (! ·.isPingPong) ∧
      ((none : Option ReadCall) = none → Decodes [0x81, 0x01, 0x41] fs []) := by
  have h : lts.run { client := { tls := false, rx := [0x81, 0x01, 0x41] } }
      [.call 500 0, .tick { now := 1, after := 1, poll := .ready, recv := .data 1 },
        .tick { now := 90, after := 90, poll := .ready, recv := .data 0 }] =
      some ({ client := { tls := false, rx := [] } },
        [.message { opcode := 1, payload := [0x41] }]) := by decide
  refine read_frames h ⟨?_, ?_, ?_, trivial⟩ ?_
  · rintro ⟨t, r, e, ha, -⟩; cases ha
  · rintro ⟨t, r, e, -, hr, he, hl, -⟩; cases hr; cases he; cases hl
  · rintro ⟨t, r, e, -, hr, he, -⟩; cases hr; cases he
  · rintro rc hrc ⟨what, rfl⟩; simp at hrc

/-- **A cut inside a header loses a byte**: `Read` returns 0 one byte past the boundary. -/
theorem Reader.header_cut_loses {tr es : List ReadRc} {s s' : Reader} {a : ReaderLabel}
    (hi : Inv stream tr s) (hok : ∀ rc ∈ tr, ¬ rc.Failed) (ha : s.HeaderCut a)
    (h : lts.step s a = some (s', es)) :
    es = [.timeout] ∧ s'.call = none ∧ ∃ fs b, messages tr = fs.filter (! ·.isPingPong) ∧
      Decodes stream fs (b :: s'.client.unread) := by
  rcases hi with ⟨rc, hrc, hf⟩ | ⟨fs, hm, hi⟩
  · exact absurd hf (hok rc hrc)
  obtain ⟨t, r, e, rfl, hr, he, hl, hx⟩ := ha
  obtain ⟨c, call⟩ := s
  obtain ⟨deadline, frameDeadline, pc⟩ := r
  cases hr
  cases he
  obtain ⟨-, -, p, hd, -, hhead⟩ := hi
  obtain ⟨b, hb⟩ := List.length_eq_one_iff.1 hl
  simp only [lts, step, WsClient.readPass] at h
  rw [WsClient.readExactPass_expired hx] at h
  cases h
  refine ⟨rfl, rfl, fs, b, hm, ?_⟩
  rw [hhead rfl, hb] at hd
  exact hd

/-- **A header cut into two arrivals**: the first byte of a frame arrives, the poll
    window closes, and the next `Read` takes the middle of the frame for a header. -/
theorem Reader.header_cut_misreads :
    ∃ s tr, lts.run { client := { tls := false, rx := [0x81, 0x02, 0x00, 0x41] } }
        [.call 500 0, .tick { now := 1, after := 1, poll := .ready, recv := .data 0 },
          .tick { now := 2, after := 2, poll := .timeout }, .call 500 500,
          .tick { now := 501, after := 501, poll := .ready, recv := .data 1 }] = some (s, tr) ∧
      (∀ rc ∈ tr, ¬ rc.Failed) ∧
      ¬ ∃ fs, fs <+: Rfc6455.decodeAll [0x81, 0x02, 0x00, 0x41] ∧
        messages tr = fs.filter (! ·.isPingPong) := by
  refine ⟨{ client := { tls := false, rx := [0x41] } },
    [.timeout, .message { opcode := 2, payload := [], fin := false }], by decide, ?_, ?_⟩
  · rintro rc hrc ⟨what, rfl⟩; simp at hrc
  · rintro ⟨fs, hfs, hm⟩
    have hall : Rfc6455.decodeAll [0x81, 0x02, 0x00, 0x41] =
        [{ opcode := 1, payload := [0x00, 0x41] }] := by decide
    rw [hall, List.prefix_cons_iff] at hfs
    rcases hfs with rfl | ⟨gs, rfl, hgs⟩
    · revert hm; decide
    · obtain rfl := List.prefix_nil.1 hgs
      revert hm; decide

end TrtcAsr
