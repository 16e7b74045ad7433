/-
  The loops of the WebSocket client over its socket (ws_client.cc, `ReadExact`
  and `WriteAll`).

  A `Tick` holds what the environment answers during one pass of one of these
  loops: the clock, `poll`, and the result of the `recv`/`SSL_read` or
  `send`/`SSL_write` call the pass makes.  A list of ticks is a complete history
  of the environment, with any segmentation, delay, short write, timeout and
  error.  The bytes the server sends are the stream `rx`; a read delivers bytes
  from its front, as many as the tick says are there.  The bytes the transport
  accepts are appended to `tx`.
-/
import TrtcAsr.Ws.Frame

namespace TrtcAsr

/-- What `PollFd` returns: `-1`, `0` or `1`. -/
inductive PollRc where
  | error | timeout | ready
  deriving DecidableEq, Repr

/-- The outcome of one `recv` or `SSL_read`. -/
inductive RecvRc where
  /-- `k + 1` bytes are there -/
  | data (k : ℕ)
  /-- `EINTR`, `EAGAIN` or `SSL_ERROR_WANT_READ` -/
  | again
  /-- orderly shutdown; a TLS object may still hold `buffered` bytes -/
  | closed (buffered : ℕ)
  | fail
  deriving DecidableEq, Repr

/-- The outcome of one `send` or `SSL_write`. -/
inductive SendRc where
  /-- there is room for `k + 1` bytes -/
  | sent (k : ℕ)
  /-- `EINTR`, `EAGAIN` or `SSL_ERROR_WANT_WRITE` -/
  | again
  | fail
  deriving DecidableEq, Repr

/-- The environment during one pass of a loop: the clock at the top of the pass
    (`now`) and in the code that follows it (`after`), `SSL_pending`, the system
    calls, and the masking key drawn if the pass encodes a frame. -/
structure Tick where
  now : ℤ
  after : ℤ
  pending : ℕ := 0
  poll : PollRc
  recv : RecvRc := .again
  send : SendRc := .again
  key : MaskKey := #v[0, 0, 0, 0]
  deriving DecidableEq, Repr

/-- The data of a `WsClient` that its reads and writes use. -/
structure WsClient where
  /-- `ssl_ != nullptr` -/
  tls : Bool
  /-- `read_buf_` -/
  readBuf : Bytes := []
  /-- the bytes of the server's stream that no read has delivered yet -/
  rx : Bytes
  /-- the bytes the transport has accepted -/
  tx : Bytes := []
  /-- `write_timeout_ms_` -/
  writeTimeoutMs : ℤ := 30000
  deriving DecidableEq, Repr


/-- The bytes of the stream not yet consumed by a read. -/
def WsClient.unread (c : WsClient) : Bytes := c.readBuf ++ c.rx

/-! ## `ReadExact` -/

/-- The locals of `ReadExact(buf, n, deadline_ms)`; `off` is `buf.length`. -/
structure ReadExact where
  n : ℕ
  deadline : ℤ
  buf : Bytes := []
  deriving DecidableEq, Repr

/-- The result of one pass: another pass, or the return value `1` (with the `n`
    bytes), `0` or `-1`. -/
inductive ReadPass where
  | again (e : ReadExact)
  | ok (buf : Bytes)
  | timeout
  | error
  deriving DecidableEq, Repr

/-- `off += bs.size()` and the loop test. -/
def ReadExact.store (e : ReadExact) (bs : Bytes) : ReadPass :=
  if e.buf.length + bs.length < e.n then .again { e with buf := e.buf ++ bs } else .ok (e.buf ++ bs)

/-- A receive call that finds at most `m` bytes of the stream. -/
def WsClient.deliver (c : WsClient) (e : ReadExact) (m : ℕ) : WsClient × ReadPass :=
  let bs := c.rx.take m
  if bs = [] then (c, .error) else ({ c with rx := c.rx.drop m }, e.store bs)

/-- One pass of the loop of `ReadExact`. -/
def WsClient.readExactPass (c : WsClient) (e : ReadExact) (t : Tick) : WsClient × ReadPass :=
  let want := e.n - e.buf.length
  if c.readBuf ≠ [] then
    ({ c with readBuf := c.readBuf.drop want }, e.store (c.readBuf.take want))
  else if toInt32 (e.deadline - t.now) ≤ 0 then (c, .timeout)
  -- TLS records absorbed by the SSL object are not visible to poll
  else if ¬ (c.tls ∧ t.pending ≠ 0) ∧ t.poll = .timeout then (c, .timeout)
  else if ¬ (c.tls ∧ t.pending ≠ 0) ∧ t.poll = .error then (c, .error)
  else
    match t.recv with
    | .data k => c.deliver e (min want (k + 1))
    | .again => (c, .again e)
    | .closed buffered => c.deliver e (min want (if c.tls then buffered else 0))
    | .fail => (c, .error)

/-! ## `WriteAll` -/

/-- The locals of `WriteAll(buf, n, timeout_ms)`: what is left of the buffer, and
    the deadline. -/
structure WriteAll where
  rest : Bytes
  deadline : ℤ
  deriving DecidableEq, Repr

/-- The result of one pass: another pass, `true`, or `false` with `*err`. -/
inductive WritePass where
  | again (w : WriteAll)
  | ok
  | error (what : String)
  deriving DecidableEq, Repr

/-- One pass of the loop of `WriteAll`. -/
def WsClient.writeAllPass (c : WsClient) (w : WriteAll) (t : Tick) : WsClient × WritePass :=
  if toInt32 (w.deadline - t.now) ≤ 0 then (c, .error "write timeout")
  else if t.poll ≠ .ready then (c, .error "write poll failed or timed out")
  else
    match t.send with
    | .sent k =>
      let c := { c with tx := c.tx ++ w.rest.take (k + 1) }
      if w.rest.length ≤ k + 1 then (c, .ok) else (c, .again { w with rest := w.rest.drop (k + 1) })
    | .again => (c, .again w)
    | .fail => (c, .error (if c.tls then "tls write failed" else "socket write failed: "))

/-! ## What a pass does -/

/-- A pass of `ReadExact` takes `bs` off the stream; the rest of the client is unchanged. -/
structure ReadExact.Moved (c c' : WsClient) (e : ReadExact) (bs : Bytes) : Prop where
  unread : c.unread = bs ++ c'.unread
  tx : c'.tx = c.tx
  fits : bs.length ≤ e.n - e.buf.length
  tls : c'.tls = c.tls
  writeTimeoutMs : c'.writeTimeoutMs = c.writeTimeoutMs
  readBuf : c.readBuf = [] → c'.readBuf = []

variable {c : WsClient} {e : ReadExact} {t : Tick}

theorem WsClient.deliver_cases (hc : c.readBuf = []) {m : ℕ} (hm : m ≤ e.n - e.buf.length) :
    (∃ c' bs, c.deliver e m = (c', e.store bs) ∧ ReadExact.Moved c c' e bs ∧ bs ≠ []) ∨
      c.deliver e m = (c, .error) := by
  by_cases hb : c.rx.take m = []
  · exact .inr (by simp [deliver, hb])
  · have hd : c.deliver e m = ({ c with rx := c.rx.drop m }, e.store (c.rx.take m)) := by
      simp [deliver, hb]
    refine .inl ⟨_, c.rx.take m, hd, ⟨?_, rfl, ?_, rfl, rfl, id⟩, hb⟩
    · simp [unread, hc]
    · rw [List.length_take]; omega

/-- **What a pass of `ReadExact` can do**: it stores bytes taken from the front of
    the stream, or it stops and leaves the stream as it is. -/
theorem WsClient.readExactPass_cases (c : WsClient) (e : ReadExact) (t : Tick)
    (he : e.buf.length < e.n) :
    (∃ c' bs, c.readExactPass e t = (c', e.store bs) ∧ ReadExact.Moved c c' e bs ∧ bs ≠ []) ∨
      c.readExactPass e t = (c, .again e) ∨ c.readExactPass e t = (c, .timeout) ∨
        c.readExactPass e t = (c, .error) := by
  unfold readExactPass
  by_cases hb : c.readBuf = []
  · rw [if_neg (not_not.2 hb)]
    split
    · exact .inr (.inr (.inl rfl))
    split
    · exact .inr (.inr (.inl rfl))
    split
    · exact .inr (.inr (.inr rfl))
    cases t.recv with
    | data k =>
      rcases deliver_cases hb (min_le_left (e.n - e.buf.length) (k + 1)) with h | h
      · exact .inl h
      · exact .inr (.inr (.inr h))
    | again => exact .inr (.inl rfl)
    | closed buffered =>
      rcases deliver_cases hb (min_le_left (e.n - e.buf.length) (if c.tls then buffered else 0))
        with h | h
      · exact .inl h
      · exact .inr (.inr (.inr h))
    | fail => exact .inr (.inr (.inr rfl))
  · rw [if_pos hb]
    have hlen := List.length_pos_iff.2 hb
    refine .inl ⟨_, c.readBuf.take (e.n - e.buf.length), rfl, ⟨?_, rfl, ?_, rfl, rfl, ?_⟩, ?_⟩
    · simp [unread, ← List.append_assoc]
    · rw [List.length_take]; omega
    · intro h; exact absurd h hb
    · intro h
      rcases List.take_eq_nil_iff.1 h with h | h
      · omega
      · exact hb h

end TrtcAsr
