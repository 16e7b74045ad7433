/-
  The answers of `WsClient::Read` to pings (ws_client.cc).

  A run of a reader is observed through the pings it consumes and the errors that the transport
  reports while it writes the pongs; `tx` holds what the reader has written.

  * `Answers`: one complete masked pong for each ping, in order, and an initial part of one where
    the transport failed;
  * `Reader.replied_step`: one step keeps the pings answered, unless the pong has run into the
    deadline of the `Read` (`Reader.DeadlineHit`);
  * `Reader.pings_answered`: so does a run;
  * `Reader.ping_dropped`: a ping that arrives at the end of the poll window.
-/
import TrtcAsr.Ws.Alignment
import TrtcAsr.Ws.Send

namespace TrtcAsr

/-- What is observed of the pings: a `Read` has consumed one, or the transport has failed while
    its pong was written. -/
inductive PingEvent where
  | ping (payload : Bytes)
  | failed
  deriving DecidableEq, Repr

/-- A masked pong. -/
def pongFrame (payload : Bytes) (key : MaskKey) : Bytes :=
  Rfc6455.encode 0xA (some key.toList) payload

/-- The bytes answer the pings: complete pongs, and a part of one where the transport failed. -/
inductive Answers : List PingEvent → Bytes → Prop
  | nil : Answers [] []
  | pong {hist bs} (payload : Bytes) (key : MaskKey) :
      Answers hist bs → Answers (hist ++ [.ping payload]) (bs ++ pongFrame payload key)
  | cut {hist bs part} (payload : Bytes) (key : MaskKey) :
      Answers hist bs → part <+: pongFrame payload key →
      Answers (hist ++ [.ping payload, .failed]) (bs ++ part)

/-- The pass finds an error of the transport before the deadline. -/
def WriteAll.Fails (w : WriteAll) (t : Tick) : Bool :=
  0 < toInt32 (w.deadline - t.now) && (t.poll = .error || t.poll = .ready && t.send = .fail)

/-- What a pass of a `Read` shows. -/
def WsClient.pingEvents (c : WsClient) (r : ReadCall) (t : Tick) : List PingEvent :=
  match r.pc with
  | .exact _ _ =>
    match (c.readPass r t).2 with
    | .inl { pc := .pong payload, .. } => [.ping payload]
    | _ => []
  | .pong _ => []
  | .pongWrite w => if w.Fails t then [.failed] else []

/-- The reader, observed through its pings. -/
def Reader.pings : Lts Reader ReaderLabel PingEvent where
  step s a := (s.step a).map fun p =>
    (p.1, match s.call, a with
      | some r, .tick t => s.client.pingEvents r t
      | _, _ => [])

/-- A pass of a pong's `WriteAll` finds that the deadline of the `Read` is reached. -/
def Reader.DeadlineHit (s : Reader) (a : ReaderLabel) : Prop :=
  ∃ t r w, a = .tick t ∧ s.call = some r ∧ r.pc = .pongWrite w ∧
    (toInt32 (w.deadline - t.now) ≤ 0 ∨ t.poll = .timeout)

/-- The pings of the history are answered by what the reader has written behind `tx₀`, the last
    one as far as the `Read` has come with it. -/
def Reader.Replied (tx₀ : Bytes) (hist : List PingEvent) (s : Reader) : Prop :=
  ∃ bs, s.client.tx = tx₀ ++ bs ∧
    match s.call.map ReadCall.pc with
    | some (.pong payload) => ∃ before, hist = before ++ [.ping payload] ∧ Answers before bs
    | some (.pongWrite w) => ∃ before payload key done part,
        hist = before ++ [.ping payload] ∧ bs = done ++ part ∧ Answers before done ∧
          part ++ w.rest = pongFrame payload key
    | _ => Answers hist bs

theorem WsClient.readExactPass_tx (c : WsClient) (e : ReadExact) (t : Tick) :
    (c.readExactPass e t).1.tx = c.tx := by
  have hdeliver : ∀ m, (c.deliver e m).1.tx = c.tx := by
    intro m
    unfold deliver
    by_cases hb : c.rx.take m = []
    · simp [hb]
    · simp [hb]
  unfold readExactPass
  split
  · rfl
  split
  · rfl
  split
  · rfl
  split
  · rfl
  cases t.recv with
  | data k => exact hdeliver _
  | again => rfl
  | closed buffered => exact hdeliver _
  | fail => rfl

variable {tx₀ : Bytes} {hist : List PingEvent} {s s' : Reader} {a : ReaderLabel}

/-- A pass at a `ReadExact` call writes nothing, and it does not start the write of a pong. -/
theorem WsClient.readPass_exact {c : WsClient} {r : ReadCall} {st : Stage} {e : ReadExact}
    {t : Tick} (hr : r.pc = .exact st e) :
    (c.readPass r t).1.tx = c.tx ∧ ∀ r' w, (c.readPass r t).2 = .inl r' → r'.pc ≠ .pongWrite w := by
  have htx := c.readExactPass_tx e t
  have hnext : ∀ (r : ReadCall) res r' w, r.next res = .inl r' → r'.pc ≠ .pongWrite w := by
    intro r res r' w h
    cases res with
    | more st' => cases h; simp [ReadCall.fetch]
    | frame f =>
      simp only [ReadCall.next] at h
      split at h
      · cases h; simp
      split at h
      · cases h; simp [ReadCall.fetch]
      · cases h
    | reject what => cases h
  simp only [readPass, hr]
  generalize c.readExactPass e t = out at htx ⊢
  obtain ⟨c', res⟩ := out
  cases res with
  | again e' =>
    refine ⟨htx, ?_⟩
    rintro r' w ⟨⟩
    simp
  | ok buf => exact ⟨htx, fun r' w h => hnext _ _ r' w h⟩
  | timeout => exact ⟨htx, by simp⟩
  | error => exact ⟨htx, by simp⟩

/-- Where a pass at a `ReadExact` call leaves the answers. -/
theorem Reader.replied_exact {c c' : WsClient} {st : Stage} {e : ReadExact} {t : Tick}
    {bs : Bytes} {r : ReadCall} {out : ReadCall ⊕ ReadRc} (hr : r.pc = .exact st e)
    (hbs : c.tx = tx₀ ++ bs) (hans : Answers hist bs) (hout : c.readPass r t = (c', out)) :
    Replied tx₀ (hist ++ c.pingEvents r t) { client := c', call := out.getLeft? } := by
  obtain ⟨htx, hpc⟩ := WsClient.readPass_exact (c := c) (t := t) hr
  rw [hout] at htx hpc
  refine ⟨bs, htx.trans hbs, ?_⟩
  simp only [WsClient.pingEvents, hr, hout]
  rcases out with ⟨deadline, frameDeadline, pc⟩ | rc
  · cases pc with
    | exact st' e' => simpa using hans
    | pong payload => exact ⟨hist, rfl, hans⟩
    | pongWrite w => exact absurd rfl (hpc _ w rfl)
  · simpa using hans

/-- A pass of `WriteAll` before its deadline: bytes go from the rest to the transport, or the
    transport fails. -/
theorem WsClient.writeAllPass_open {c : WsClient} {w : WriteAll} {t : Tick}
    (hpos : 0 < toInt32 (w.deadline - t.now)) (hpoll : t.poll ≠ .timeout) :
    (w.Fails t = false ∧ ∃ bs rest, w.rest = bs ++ rest ∧
        (c.writeAllPass w t = ({ c with tx := c.tx ++ bs }, .again { w with rest := rest }) ∨
          rest = [] ∧ c.writeAllPass w t = ({ c with tx := c.tx ++ bs }, .ok))) ∨
      (w.Fails t = true ∧ ∃ what, c.writeAllPass w t = (c, .error what)) := by
  have hopen : ¬ toInt32 (w.deadline - t.now) ≤ 0 := by omega
  unfold writeAllPass WriteAll.Fails
  rw [if_neg hopen]
  cases hp : t.poll with
  | timeout => exact absurd hp hpoll
  | error => exact .inr ⟨by simp [hpos], _, rfl⟩
  | ready =>
    cases hs : t.send with
    | sent k =>
      refine .inl ⟨by simp, w.rest.take (k + 1), w.rest.drop (k + 1),
        (List.take_append_drop _ _).symm, ?_⟩
      by_cases hk : w.rest.length ≤ k + 1
      · exact .inr ⟨List.drop_eq_nil_of_le hk, by simp [hk]⟩
      · exact .inl (by simp [hk])
    | again => exact .inl ⟨by simp, [], w.rest, rfl, .inl (by simp)⟩
    | fail => exact .inr ⟨by simp [hpos], _, rfl⟩

/-- **One step keeps the pings answered**, unless the deadline of the `Read` ends a pong. -/
theorem Reader.replied_step {es : List PingEvent} (hi : s.Replied tx₀ hist)
    (ha : ¬ s.DeadlineHit a) (h : pings.step s a = some (s', es)) :
    s'.Replied tx₀ (hist ++ es) := by
  obtain ⟨c, call⟩ := s
  obtain ⟨bs, hbs, hi⟩ := hi
  simp only [pings, Option.map_eq_some_iff, Prod.mk.injEq] at h
  obtain ⟨⟨s₁, out⟩, hstep, rfl, hes⟩ := h
  rcases step_cases hstep with
    ⟨timeoutMs, now, rfl, rfl, rfl, -⟩ | ⟨t, r, c', next, rfl, rfl, hout, rfl, -⟩
  · cases hes
    rw [List.append_nil]
    exact ⟨bs, hbs, hi⟩
  · subst hes
    simp only [Option.map_some] at hi
    cases hpc : r.pc with
    | exact st e =>
      rw [hpc] at hi
      exact replied_exact hpc hbs hi hout
    | pong payload =>
      rw [hpc] at hi
      obtain ⟨before, rfl, hans⟩ := hi
      simp only [WsClient.readPass, hpc, Prod.mk.injEq] at hout
      obtain ⟨rfl, rfl⟩ := hout
      simp only [WsClient.pingEvents, hpc, List.append_nil]
      refine ⟨bs, hbs, before, payload, t.key, bs, [], rfl, (List.append_nil bs).symm, hans, ?_⟩
      rw [List.nil_append]
      exact encodeWsFrame_eq (by omega) payload (some t.key)
    | pongWrite w =>
      rw [hpc] at hi
      obtain ⟨before, payload, key, done, part, rfl, rfl, hans, hrest⟩ := hi
      have hpos : 0 < toInt32 (w.deadline - t.now) := by
        by_contra hle
        exact ha ⟨t, r, w, rfl, rfl, hpc, .inl (by omega)⟩
      have hpoll : t.poll ≠ .timeout := fun h => ha ⟨t, r, w, rfl, rfl, hpc, .inr h⟩
      have hevents : c.pingEvents r t = if w.Fails t then [.failed] else [] := by
        simp only [WsClient.pingEvents, hpc]
      simp only [WsClient.readPass, hpc] at hout
      dsimp only
      rw [hevents]
      have htx : ∀ bs, c.tx ++ bs = tx₀ ++ (done ++ part ++ bs) := by
        intro bs
        rw [← List.append_assoc]
        exact congrArg (· ++ bs) hbs
      rcases WsClient.writeAllPass_open (c := c) hpos hpoll with
        ⟨hok, bs, rest, hw, hpass | ⟨rfl, hpass⟩⟩ | ⟨hfail, what, hpass⟩
      · rw [hpass] at hout
        cases hout
        rw [hok, if_neg (by simp), List.append_nil]
        refine ⟨done ++ part ++ bs, htx bs, before, payload, key, done, part ++ bs, rfl,
          List.append_assoc _ _ _, hans, ?_⟩
        rw [List.append_assoc, ← hw, hrest]
      · rw [hpass] at hout
        cases hout
        rw [List.append_nil] at hw
        rw [hok, if_neg (by simp), List.append_nil]
        refine ⟨done ++ part ++ bs, htx bs, ?_⟩
        rw [List.append_assoc, ← hw, hrest]
        exact hans.pong payload key
      · rw [hpass] at hout
        cases hout
        rw [hfail, if_pos rfl, List.append_assoc]
        exact ⟨done ++ part, hbs, hans.cut payload key ⟨w.rest, hrest⟩⟩

/-! ## Runs -/

/-- **Every ping is answered.**  In every run in which no pong runs into the deadline of its
    `Read`, the pings that were consumed are answered in order, by one complete masked pong each,
    apart from those whose pong the transport failed to write. -/
theorem Reader.pings_answered {c : WsClient} {as : List ReaderLabel}
    (h : pings.run { client := c } as = some (s, hist))
    (hmeets : pings.Meets (fun s a => ¬ s.DeadlineHit a) { client := c } as) :
    s.Replied c.tx hist := by
  have h₀ : Replied c.tx [] { client := c } := ⟨[], (List.append_nil _).symm, .nil⟩
  have hrun := Lts.run_induction (I := fun hist s => s.Replied c.tx hist)
    (fun hi ha hs => replied_step hi ha hs) h₀ hmeets h
  rwa [List.nil_append] at hrun

/-- A ping whose pong is written in two pieces. -/
theorem Reader.pings_answered_sample :
    let as : List ReaderLabel :=
      [.call 500 0, .tick { now := 1, after := 1, poll := .ready, recv := .data 1 },
        .tick { now := 2, after := 2, poll := .ready, recv := .data 0 },
        .tick { now := 3, after := 3, poll := .ready },
        .tick { now := 4, after := 4, poll := .ready, send := .sent 3 },
        .tick { now := 5, after := 5, poll := .ready, send := .sent 9 }]
    ∃ s, pings.run { client := { tls := false, rx := [0x89, 0x01, 0x41] } } as =
        some (s, [.ping [0x41]]) ∧
      s.client.tx = [0x8A, 0x81, 0, 0, 0, 0, 0x41] ∧ s.Replied [] [.ping [0x41]] := by
  intro as
  have hrun : pings.run { client := { tls := false, rx := [0x89, 0x01, 0x41] } } as = some
      ({ client := { tls := false, rx := [], tx := [0x8A, 0x81, 0, 0, 0, 0, 0x41] }
         call := some { deadline := 500, frameDeadline := 10001,
                        pc := .exact .head { n := 2, deadline := 500 } } },
        [.ping [0x41]]) := by
    decide
  refine ⟨_, hrun, rfl, pings_answered hrun ⟨?_, ?_, ?_, ?_, ?_, ?_, trivial⟩⟩
  · rintro ⟨t, r, w, ha, -⟩; cases ha
  · rintro ⟨t, r, w, -, hr, hpc, -⟩; cases hr; cases hpc
  · rintro ⟨t, r, w, -, hr, hpc, -⟩; cases hr; cases hpc
  · rintro ⟨t, r, w, -, hr, hpc, -⟩; cases hr; cases hpc
  · rintro ⟨t, r, w, ha, hr, hpc, h | h⟩
    · cases ha; cases hr; cases hpc; exact absurd h (by decide)
    · cases ha; cases h
  · rintro ⟨t, r, w, ha, hr, hpc, h | h⟩
    · cases ha; cases hr; cases hpc; exact absurd h (by decide)
    · cases ha; cases h

theorem Answers.ne_nil {bs : Bytes} (h : Answers hist bs) (hne : hist ≠ [])
    (hok : .failed ∉ hist) : bs ≠ [] := by
  cases h with
  | nil => exact absurd rfl hne
  | pong payload key _ => simp [pongFrame, Rfc6455.encode]
  | cut payload key _ _ => exact absurd (by simp) hok

/-- **A ping at the end of the poll window is dropped**: its header arrives before the deadline
    of the `Read` and its payload behind it; the transport has reported no error. -/
theorem Reader.ping_dropped :
    ¬ ∀ (c : WsClient) (as : List ReaderLabel) (s : Reader) (hist : List PingEvent),
      pings.run { client := c } as = some (s, hist) → s.Replied c.tx hist := by
  intro h
  obtain ⟨bs, hbs, hans⟩ := h { tls := false, rx := [0x89, 0x01, 0x41] }
    [.call 500 0, .tick { now := 490, after := 490, poll := .ready, recv := .data 1 },
      .tick { now := 699, after := 700, poll := .ready, recv := .data 0 },
      .tick { now := 700, after := 700, poll := .ready },
      .tick { now := 700, after := 700, poll := .ready, send := .sent 9 },
      .tick { now := 701, after := 701, poll := .timeout }]
    { client := { tls := false, rx := [] } } [.ping [0x41]] (by decide)
  have hnil : bs = [] := by simpa using hbs.symm
  exact Answers.ne_nil hans (by simp) (by simp) hnil

end TrtcAsr
