/-
  What the listener hears of what the server sends: the threads of a session beside the readers of
  its connections.

  The result of a `Read` is a step of both; the other steps are taken alone.

  * `heard` is the two together.
  * `Hears`: what the reads of a connection have returned is what the handshake has consumed and,
    behind it, what the reader thread has read.
  * `listener_hears`: the sentence callbacks are those of the frames of the server's stream.
-/
import TrtcAsr.Speech.Delivery
import TrtcAsr.Speech.SpeakerContext
import TrtcAsr.Ws.Alignment

namespace TrtcAsr.Speech

/-! ## The two systems -/

/-- What the session sees of a frame. -/
def outcome (f : WsFrame) : ReadOutcome := .frame f.opcode f.payload

def ReadOutcome.isFrame : ReadOutcome → Bool
  | .frame _ _ => true
  | _ => false

/-- The result of a `Read`, as the session sees it; the text of an error is not compared. -/
def seenAs : ReadRc → ReadOutcome → Bool
  | .message f, r => r = outcome f
  | .timeout, .timeout => true
  | .error _, .error _ => true
  | _, _ => false

/-- A `Read` returns to the thread that is in it. -/
def hearing : Lts.Sync (Pool Shared Thread) (ℕ → Reader) (ℕ × Choice) (ℕ × ReaderLabel) Event
    (ℕ × ReadRc)
  | _, .left (_, .read _), _, _ => false
  | _, .left _, _, _ => true
  | _, .right _, _, ds => ds = []
  | (p, _), .both (i, .read r) (c, _), _, ds =>
    (p.threads i).readsOn = some c &&
      match ds with
      | [(_, rc)] => seenAs rc r
      | _ => false
  | _, .both _ _, _, _ => false

/-- A session and the readers of its connections. -/
def heard (cfg : Config) : Lts (Pool Shared Thread × (ℕ → Reader))
    (Lts.Joint (ℕ × Choice) (ℕ × ReaderLabel)) (Event ⊕ (ℕ × ReadRc)) :=
  Lts.sync hearing (session cfg).pool Reader.lts.family

/-! ## The handshake -/

/-- A frame that the loop of `Connect` passes over. -/
def Skipped (f : WsFrame) : Prop := f.opcode ≠ 0x1 ∧ f.opcode ≠ 0x8

/-- What the handshake consumes: nothing in v2; in v3, the acknowledgement and the frames before
    it. -/
def Handshake (cfg : Config) (fs : List WsFrame) : Prop :=
  match cfg.version with
  | .v2 => fs = []
  | .v3 => ∃ skipped ack s, fs = skipped ++ [ack] ∧ (∀ f ∈ skipped, Skipped f) ∧
      ack.opcode = 0x1 ∧ parseAck cfg.deps ack.payload = .ok s

/-- No read has failed. -/
def Clean (rcs : List ReadRc) : Prop := ∀ rc ∈ rcs, ¬ rc.Failed

def hearsStart (cfg : Config) (rcs : ℕ → List ReadRc) : StartPc → Prop
  | .send c _ | .sent c | .publish c => rcs c = []
  | .ack c _ => Clean (rcs c) ∧ ∀ f ∈ messages (rcs c), Skipped f
  | .run c => Clean (rcs c) ∧ Handshake cfg (messages (rcs c))
  | _ => True

/-- What the reads of a connection have returned where a `Start` is. -/
def hearsCall (cfg : Config) (rcs : ℕ → List ReadRc) : CallPc → Prop
  | .start pc => hearsStart cfg rcs pc
  | _ => True

section

variable {cfg : Config} {i : ℕ} {sh : Shared} {tr : List Event} {pc : CallPc} {ch : Choice}
  {r : CallResult} {rcs rcs' : ℕ → List ReadRc}

/-- Only the `Start` that has taken the starting state is concerned. -/
theorem hearsCall_idle (hown : ownsCall i tr sh pc) (hno : ¬ Starting i tr sh) :
    hearsCall cfg rcs pc := by
  cases pc with
  | start pc =>
    cases pc with
    | send c text => exact absurd hown hno
    | sent c => exact absurd hown hno
    | publish c => exact absurd hown hno
    | ack c deadline => exact absurd hown hno
    | run c => exact absurd hown hno
    | _ => trivial
  | _ => trivial

/-- A step of a call that is not the result of a `Read`. -/
theorem callStep_hears (h : hearsCall cfg rcs pc) (hfresh : rcs sh.dialed = [])
    (hch : ∀ x, ch ≠ .read x) (hr : callStep cfg i sh pc ch = some r) {pc' : CallPc}
    (hpc' : r.call = some pc') : hearsCall cfg rcs pc' := by
  cases pc' with
  | start next =>
    obtain ⟨q, rfl⟩ := start_of_callStep hr hpc'
    change startStep cfg sh q ch = some r at hr
    unfold startStep at hr
    split at hr
    case h_5 =>
      -- dialed
      cases hr
      cases hpc'
      split
      · exact hfresh
      · exact hfresh
    case h_6 =>
      -- send
      cases hr
      cases hpc'
      exact h
    case h_7 =>
      -- sent
      cases hr
      cases hpc'
      exact h
    case h_10 =>
      -- publish
      rename_i c
      have hnil : rcs c = [] := h
      cases hv : cfg.version with
      | v2 =>
        rw [hv] at hr
        cases hr
        cases hpc'
        show Clean (rcs c) ∧ Handshake cfg (messages (rcs c))
        rw [hnil]
        refine ⟨List.forall_mem_nil _, ?_⟩
        unfold Handshake
        rw [hv]
        rfl
      | v3 =>
        rw [hv] at hr
        cases hr
        cases hpc'
        show Clean (rcs c) ∧ ∀ f ∈ messages (rcs c), Skipped f
        rw [hnil]
        exact ⟨List.forall_mem_nil _, List.forall_mem_nil _⟩
    case h_11 => exact absurd rfl (hch _)
    case h_12 => exact absurd rfl (hch _)
    case h_13 => exact absurd rfl (hch _)
    all_goals
      repeat' split at hr
      all_goals cases hr
      all_goals first
        | cases hpc'; trivial
        | cases hpc'
  | _ => trivial

theorem Clean.snoc {l : List ReadRc} {rc : ReadRc} (h : Clean l) (hrc : ¬ rc.Failed) :
    Clean (l ++ [rc]) :=
  List.forall_mem_append.2 ⟨h, fun _ hx => List.mem_singleton.1 hx ▸ hrc⟩

/-- The result of a `Read` that waits for the acknowledgement. -/
theorem ackStep_hears {c deadline : ℕ} {rc : ReadRc} {x : ReadOutcome}
    (h : Clean (rcs c) ∧ ∀ f ∈ messages (rcs c), Skipped f) (hv : cfg.version = .v3)
    (hseen : seenAs rc x = true) (hrcs : rcs' c = rcs c ++ [rc])
    (hr : callStep cfg i sh (.start (.ack c deadline)) (.read x) = some r) {pc' : CallPc}
    (hpc' : r.call = some pc') : hearsCall cfg rcs' pc' := by
  obtain ⟨hclean, hskip⟩ := h
  change startStep cfg sh (.ack c deadline) (.read x) = some r at hr
  cases x with
  | timeout =>
    obtain rfl : rc = .timeout := by
      cases rc with
      | timeout => rfl
      | _ => cases hseen
    simp only [startStep, Option.some.injEq] at hr
    subst hr
    cases hpc'
    show hearsStart cfg rcs' (if _ then _ else _)
    split
    · trivial
    · show Clean (rcs' c) ∧ ∀ f ∈ messages (rcs' c), Skipped f
      rw [hrcs, messages_append]
      refine ⟨hclean.snoc ?_, fun f hf => hskip f ?_⟩
      · rintro ⟨what, hwhat⟩
        cases hwhat
      · simpa [messages] using hf
  | error what =>
    simp only [startStep, Option.some.injEq] at hr
    subst hr
    cases hpc'
    trivial
  | frame opcode payload =>
    obtain ⟨f, rfl, hop, hpay⟩ : ∃ f, rc = .message f ∧ f.opcode = opcode ∧ f.payload = payload := by
      cases rc with
      | message f =>
        have heq : .frame opcode payload = outcome f := of_decide_eq_true hseen
        cases heq
        exact ⟨f, rfl, rfl, rfl⟩
      | _ => cases hseen
    have hclean' : Clean (rcs' c) := by
      rw [hrcs]
      refine hclean.snoc ?_
      rintro ⟨what, hwhat⟩
      cases hwhat
    have hmsgs : messages (rcs' c) = messages (rcs c) ++ [f] := by
      rw [hrcs, messages_append]
      rfl
    simp only [startStep] at hr
    split at hr
    · cases hr
      cases hpc'
      trivial
    rename_i h8
    split at hr
    · -- a frame that is passed over
      rename_i h1
      cases hr
      cases hpc'
      refine ⟨hclean', ?_⟩
      rw [hmsgs]
      refine List.forall_mem_append.2 ⟨hskip, fun g hg => ?_⟩
      rw [List.mem_singleton.1 hg, Skipped, hop]
      exact ⟨h1, h8⟩
    rename_i h1
    split at hr
    · cases hr
      cases hpc'
      trivial
    · cases hr
      cases hpc'
      trivial
    · -- the acknowledgement
      rename_i s hack
      cases hr
      cases hpc'
      refine ⟨hclean', ?_⟩
      rw [hmsgs]
      unfold Handshake
      rw [hv]
      refine ⟨messages (rcs c), f, s, rfl, hskip, ?_, ?_⟩
      · rw [hop]
        exact not_not.1 h1
      · rw [hpay]
        exact hack

/-- The running state is taken for the connection of the `Start`. -/
theorem callStep_running (hr : callStep cfg i sh pc ch = some r) {c : ℕ}
    (hc : .running c ∈ r.events) : pc = .start (.run c) := by
  have hclose : .running c ∉ sh.close.2 := by
    unfold Shared.close
    cases sh.conn with
    | none => exact List.not_mem_nil
    | some d => simp
  have waiter : ∀ w : Waiter, .running c ∉ w.after.2 := by
    intro w
    cases w with
    | watchdog => simp [Waiter.after]
    | stop dtor stores => cases stores <;> simp [Waiter.after]
  unfold callStep startStep writeStep stopStep waitStep waitReturn at hr
  repeat' split at hr
  all_goals cases hr
  all_goals first
    | exact absurd hc hclose
    | exact absurd hc (waiter _)
    | simp at hc; done
    | skip
  cases List.mem_singleton.1 hc
  rfl

end

/-! ## The reader thread -/

/-- The connection of a `Read`, in progress or to come. -/
def ReaderOp.conn : ReaderOp → Option ℕ
  | read c | checkStopped c => some c
  | _ => none

/-- The reader thread stays with the connection. -/
theorem afterRead_conn (cfg : Config) (c : ℕ) (r : ReadOutcome) :
    ∀ op ∈ afterRead cfg c r, ∀ d, op.conn = some d → d = c := by
  have dispatch : ∀ resp, ∀ op ∈ dispatchEvent resp, ∀ d, op.conn = some d → d = c := by
    intro resp op hop d hd
    rcases dispatchEvent_cases resp with heq | ⟨cb, -, heq⟩
    · rw [heq] at hop
      cases hop
    · rw [heq] at hop
      rw [List.mem_singleton.1 hop] at hd
      cases hd
  have response : ∀ resp, ∀ op ∈ afterResponse c resp, ∀ d, op.conn = some d → d = c := by
    intro resp
    unfold afterResponse
    split
    · simp [leave, ReaderOp.conn]
    split
    · simp only [List.forall_mem_append]
      exact ⟨⟨⟨by simp [ReaderOp.conn], dispatch resp⟩, by simp [ReaderOp.conn]⟩,
        by simp [leave, ReaderOp.conn]⟩
    split
    · simp [ReaderOp.conn]
    · simp only [List.forall_mem_append]
      exact ⟨dispatch resp, by simp [ReaderOp.conn]⟩
  unfold afterRead
  split
  · simp [ReaderOp.conn]
  · simp [ReaderOp.conn]
  split
  · simp [ReaderOp.conn]
  split
  · simp [ReaderOp.conn]
  split
  · simp [ReaderOp.conn]
  split
  · simp [ReaderOp.conn]
  · rename_i resp _
    refine List.forall_mem_append.2 ⟨?_, response resp⟩
    unfold storeSpeaker
    split
    · simp [ReaderOp.conn]
    · simp

/-- The operation is of a `Read`, in progress or to come. -/
def ReaderOp.isRead : ReaderOp → Bool
  | fetch | read _ | checkStopped _ => true
  | _ => false

theorem isRead_of_conn {op : ReaderOp} {c : ℕ} (h : op.conn = some c) : op.isRead = true := by
  cases op with
  | read d => rfl
  | checkStopped d => rfl
  | _ => cases h

section

variable {cfg : Config} {i : ℕ} {sh : Shared} {ch : Choice} {op : ReaderOp} {rest : List ReaderOp}
  {r : ReaderResult}

/-- What a step of the reader thread leaves: what was left before, what does not read, or a `Read`
    that the operation leads to. -/
def Leads (sh : Shared) (op : ReaderOp) (rest : List ReaderOp) (op' : ReaderOp) : Prop :=
  op' ∈ rest ∨ op'.isRead = false ∨
    op.isRead = true ∧ ∀ c, op'.conn = some c → op.conn = some c ∨ sh.conn = some c

/-- A step that is not the result of a `Read`. -/
theorem readerStep_other (hch : ∀ x, ch ≠ .read x) (hr : readerStep cfg i sh rest op ch = some r) :
    (∀ x, .read x ∉ r.events) ∧ ∀ op' ∈ r.ops, Leads sh op rest op' := by
  have hclose : ∀ x, .read x ∉ sh.close.2 := by
    unfold Shared.close
    cases sh.conn with
    | none => exact fun x => List.not_mem_nil
    | some d => simp
  have old : ∀ op' ∈ rest, Leads sh op rest op' := fun op' hop => .inl hop
  have leaves : ∀ op' ∈ leave, Leads sh op rest op' := by
    simp [leave, Leads, ReaderOp.isRead]
  have turn : ∀ d, op.isRead = true → (op.conn = some d ∨ sh.conn = some d) →
      ∀ op' ∈ [ReaderOp.read d], Leads sh op rest op' := by
    intro d hop hd op' hop'
    rw [List.mem_singleton.1 hop']
    refine .inr (.inr ⟨hop, fun c hc => ?_⟩)
    cases hc
    exact hd
  unfold readerStep at hr
  split at hr
  · -- setTid
    cases hr
    exact ⟨by simp, old⟩
  · -- callStart
    cases hr
    exact ⟨by simp, List.forall_mem_cons.2 ⟨.inr (.inl rfl), old⟩⟩
  · -- call
    cases hr
    exact ⟨by simp, List.forall_mem_cons.2 ⟨.inr (.inl rfl), old⟩⟩
  · -- inside
    cases hr
    exact ⟨by simp, old⟩
  · cases hr
    refine ⟨by simp, ?_⟩
    dsimp only
    split
    · exact old
    · simp [caught, leave, Leads, ReaderOp.isRead]
  · -- fetch
    cases hr
    refine ⟨by simp, ?_⟩
    dsimp only
    split
    · exact leaves
    · rename_i d hd
      exact turn d rfl (.inr hd)
  · exact absurd rfl (hch _)
  · -- checkStopped
    cases hr
    refine ⟨by simp, ?_⟩
    dsimp only
    split
    · exact leaves
    · exact turn _ rfl (.inl rfl)
  · -- checkStopping
    cases hr
    refine ⟨by simp, ?_⟩
    dsimp only
    split
    · exact leaves
    · simp [leave, Leads, ReaderOp.isRead]
  · -- storeSpeaker
    cases hr
    exact ⟨by simp, old⟩
  · -- finish
    split at hr
    · cases hr
      exact ⟨by simp, old⟩
    · cases hr
      exact ⟨by simp, List.forall_mem_cons.2 ⟨.inr (.inl rfl), old⟩⟩
  · -- close
    cases hr
    exact ⟨hclose, old⟩
  · -- mark
    split at hr
    · cases hr
      exact ⟨by simp, old⟩
    · cases hr
  · -- signalDone
    split at hr
    · cases hr
      exact ⟨by simp, old⟩
    · cases hr
  · cases hr

end

/-! ## The invariant -/

/-- A read of the reader thread has failed. -/
def Broken (tr : List Event) : Prop := ∃ what, .error what ∈ reads tr

/-- What the reads of the session's connection have returned is what the handshake has consumed,
    and behind it what the reader thread has read. -/
def Matched (cfg : Config) (tr : List Event) (rcs : List ReadRc) : Prop :=
  ∃ front back, rcs = front ++ back ∧ Clean front ∧ Handshake cfg (messages front) ∧
    List.Forall₂ (fun rc x => seenAs rc x = true) back (reads tr)

/-- Nothing is read after a failed read. -/
def Ended (rs : List ReadOutcome) : Prop :=
  ∀ pre what post, rs = pre ++ .error what :: post → post = []

/-- What the reads of the connections have returned, where the threads are. -/
structure Hears (cfg : Config) (tr : List Event) (p : Pool Shared Thread) (rcs : ℕ → List ReadRc) :
    Prop where
  fresh : ∀ c, p.shared.dialed ≤ c → rcs c = []
  call : ∀ i pc, (p.threads i).call = some pc → hearsCall cfg rcs pc
  conn : ∀ i ops, (p.threads i).reader = some ops → ∀ op ∈ ops, ∀ c, op.conn = some c → Running c tr
  quits : ∀ i ops, (p.threads i).reader = some ops → Broken tr → ∀ op ∈ ops, op.isRead = false
  matched : ∀ c, Running c tr → Matched cfg tr (rcs c)
  ended : Ended (reads tr)

/-- What the threads of a session are known to satisfy. -/
structure Known (cfg : Config) (tr : List Event) (p : Pool Shared Thread) : Prop where
  life : Lifecycle tr p.shared
  up : Uplink cfg.version tr p.shared
  told : Session cfg tr p.shared
  owns : ∀ i, Owns i tr p.shared (p.threads i)
  tells : ∀ i, tells cfg i tr p.shared (p.threads i)
  sends : ∀ i, sends cfg.version i tr p.shared (p.threads i)
  acks : ∀ i c deadline, (p.threads i).call = some (.start (.ack c deadline)) → cfg.version = .v3

/-- What a step of a thread leaves for it. -/
structure StepHears (cfg : Config) (tr : List Event) (rcs : ℕ → List ReadRc)
    (o : Outcome Shared Thread Event) : Prop where
  call : ∀ pc, o.next.call = some pc → hearsCall cfg rcs pc
  conn : ∀ ops, o.next.reader = some ops → ∀ op ∈ ops, ∀ c, op.conn = some c →
    Running c (tr ++ o.events)
  quits : ∀ ops, o.next.reader = some ops → Broken (tr ++ o.events) → ∀ op ∈ ops, op.isRead = false
  matched : ∀ c, Running c (tr ++ o.events) → Matched cfg (tr ++ o.events) (rcs c)
  ended : Ended (reads (tr ++ o.events))

section

variable {cfg : Config} {voiceId : Bytes} {acts : List (ℕ × Choice)} {p p' : Pool Shared Thread}
  {tr es : List Event} {rcs rcs' : ℕ → List ReadRc} {i : ℕ} {ch : Choice}
  {o : Outcome Shared Thread Event}

theorem known_run (h : (session cfg).pool.run (initial voiceId) acts = some (p, tr)) :
    Known cfg tr p := by
  obtain ⟨⟨⟨hI, hS⟩, -⟩, hspeaks⟩ := speakers_run h
  obtain ⟨⟨-, hU⟩, hsends⟩ :=
    (uplink cfg).run ⟨lifecycle_initial voiceId, uplink_initial cfg.version voiceId⟩
      (fun i => ⟨owns_initial voiceId i, by intro pc hpc; cases hpc⟩) h
  exact ⟨hI, hU, hS, fun i => (hsends i).1, fun i => (hspeaks i).1.2, fun i => (hsends i).2,
    fun i => (hspeaks i).2.2⟩

theorem reads_quiet (hes : ∀ e ∈ es, ∀ x, e.2 ≠ .read x) : reads (tr ++ es) = reads tr := by
  have hnil : reads es = [] := by
    refine List.eq_nil_iff_forall_not_mem.2 fun x hx => ?_
    obtain ⟨k, hk⟩ := mem_reads.1 hx
    exact hes _ hk x rfl
  rw [reads_append, hnil, List.append_nil]

/-- A call reads nothing that the session sees. -/
theorem unread_of_callStep {sh : Shared} {pc : CallPc} {r : CallResult}
    (h : callStep cfg i sh pc ch = some r) : ∀ e ∈ r.events.map (i, ·), ∀ x, e.2 ≠ .read x := by
  rintro ⟨j, k⟩ he x rfl
  have hk := (callStep_outside h).quiet _ (mem_tagged.1 he).2
  cases hk

/-- Before the reader thread is started nothing is broken. -/
theorem Known.unbroken (hK : Known cfg tr p) (hno : ∀ j t, (j, EventKind.spawned t) ∉ tr) :
    ¬ Broken tr := by
  rintro ⟨what, hmem⟩
  rw [reads_unspawned hK.told hno] at hmem
  cases hmem

/-- The threads that a step starts are in no `Start`, on no connection, and have read nothing. -/
theorem spawned_hears (hK : Known cfg tr p)
    (ho : threadStep cfg i p.shared (p.threads i) ch = some o) {j : ℕ} {t : Thread}
    (hj : o.spawned = some (j, t)) : (∀ pc, t.call = some pc → ∀ rcs, hearsCall cfg rcs pc) ∧
      ∀ ops, t.reader = some ops → (∀ op ∈ ops, op.conn = none) ∧ ¬ Broken (tr ++ o.events) := by
  rcases threadStep_cases ho with ⟨d, rfl⟩ | ⟨pc, r, hpc, hr, rfl⟩ | ⟨entry, -, -, rfl⟩ |
    ⟨op, rest, r, -, -, hr, rfl⟩
  · cases hj
  · rcases callStep_spawned hr hj with ⟨rfl, rfl⟩ | ⟨-, rfl⟩
    · refine ⟨fun pc hpc => ?_, fun ops hops => ?_⟩
      · cases hpc
      · cases hops
        refine ⟨by simp [readLoop, ReaderOp.conn], fun hbroken => ?_⟩
        have hown : ownsStart i tr p.shared .spawn := (hK.owns i).call _ hpc
        unfold Broken at hbroken
        rw [reads_quiet (unread_of_callStep hr)] at hbroken
        exact hK.unbroken hown.2 hbroken
    · refine ⟨fun pc hpc rcs => ?_, fun ops hops => ?_⟩
      · cases hpc
        trivial
      · cases hops
  · cases hj
  · cases hj

/-- From the thread that takes a step to all of them. -/
theorem Hears.step (h : Hears cfg tr p rcs) (hK : Known cfg tr p)
    (hs : (session cfg).pool.step p (i, ch) = some (p', es))
    (hstep : ∀ o, threadStep cfg i p.shared (p.threads i) ch = some o → StepHears cfg tr rcs' o)
    (hfresh : ∀ c, p.shared.dialed ≤ c → rcs' c = [])
    (hothers : ∀ j ≠ i, ∀ pc, (p.threads j).call = some pc → hearsCall cfg rcs' pc) :
    Hears cfg (tr ++ es) p' rcs' := by
  obtain ⟨o, ho, hsh, rfl, hthreads⟩ := Threads.poolStep_cases hs
  have hown := hstep o ho
  have hdialed : p.shared.dialed ≤ p'.shared.dialed := by
    rw [hsh]
    exact ((uplink cfg).step ⟨hK.life, hK.up⟩ ⟨hK.owns i, hK.sends i⟩ ho).guar.2.dialed
  refine ⟨fun c hc => hfresh c (hdialed.trans hc), fun j pc hpc => ?_, fun j ops hops => ?_,
    fun j ops hops => ?_, hown.matched, hown.ended⟩
  · rcases hthreads j with ⟨-, heq⟩ | ⟨-, l, hl, -, heq⟩ | ⟨hj, heq⟩
    · exact hown.call pc (heq ▸ hpc)
    · exact (spawned_hears hK ho hl).1 pc (heq ▸ hpc) rcs'
    · exact hothers j hj pc (heq ▸ hpc)
  · rcases hthreads j with ⟨-, heq⟩ | ⟨-, l, hl, -, heq⟩ | ⟨-, heq⟩
    · exact hown.conn ops (heq ▸ hops)
    · intro op hop c hc
      rw [((spawned_hears hK ho hl).2 ops (heq ▸ hops)).1 op hop] at hc
      cases hc
    · exact fun op hop c hc => (h.conn j ops (heq ▸ hops) op hop c hc).grow
  · rcases hthreads j with ⟨-, heq⟩ | ⟨-, l, hl, -, heq⟩ | ⟨hj, heq⟩
    · exact hown.quits ops (heq ▸ hops)
    · exact fun hb => absurd hb ((spawned_hears hK ho hl).2 ops (heq ▸ hops)).2
    · -- there is one reader thread, and it reads
      have hops' : (p.threads j).reader = some ops := heq ▸ hops
      obtain ⟨m, hm⟩ := (hK.owns j).reader (by rw [hops']; simp)
      have hg := ((told cfg).step ⟨hK.life, hK.told⟩ ⟨hK.owns i, hK.tells i⟩ ho).guar.2
      have hsame : reads (tr ++ o.events) = reads tr := by
        refine reads_quiet fun e he x hx => hj ?_
        obtain ⟨k, hk⟩ := hg.events e he (by rw [hx]; rfl)
        exact hK.life.spawnOnce hm hk
      unfold Broken
      rw [hsame]
      exact h.quits j ops hops'

/-- A step that is not the result of a `Read`. -/
theorem Hears.other (h : Hears cfg tr p rcs) (hK : Known cfg tr p) (hch : ∀ x, ch ≠ .read x)
    (ho : threadStep cfg i p.shared (p.threads i) ch = some o) : StepHears cfg tr rcs o := by
  have unread : ∀ {es : List Event}, (∀ e ∈ es, ∀ x, e.2 ≠ .read x) →
      (Broken (tr ++ es) → Broken tr) ∧ Ended (reads (tr ++ es)) := by
    intro es hes
    unfold Broken
    rw [reads_quiet hes]
    exact ⟨id, h.ended⟩
  have quiet : ∀ {es : List Event}, (∀ e ∈ es, ∀ x, e.2 ≠ .read x) →
      (∀ e ∈ es, ∀ c, e.2 ≠ .running c) →
        ∀ c, Running c (tr ++ es) → Matched cfg (tr ++ es) (rcs c) := by
    rintro es hes hrun c ⟨j, hj⟩
    unfold Matched
    rw [reads_quiet hes]
    refine h.matched c ⟨j, (List.mem_append.1 hj).resolve_right fun hm => ?_⟩
    exact hrun _ hm c rfl
  rcases threadStep_cases ho with ⟨d, rfl⟩ | ⟨pc, r, hpc, hr, rfl⟩ | ⟨entry, -, -, rfl⟩ |
    ⟨op, rest, r, hcall, hops, hr, rfl⟩
  · have hnone : ∀ e ∈ ([] : List Event), ∀ x, e.2 ≠ .read x := fun e he => absurd he List.not_mem_nil
    refine ⟨h.call i, fun ops hops op hop c hc => (h.conn i ops hops op hop c hc).grow,
      fun ops hops hb => h.quits i ops hops ((unread hnone).1 hb),
      quiet hnone fun e he => absurd he List.not_mem_nil, (unread hnone).2⟩
  · have hread := unread_of_callStep (i := i) hr
    refine ⟨fun pc' hpc' => ?_, fun ops hops op hop c hc => (h.conn i ops hops op hop c hc).grow,
      fun ops hops hb => h.quits i ops hops ((unread hread).1 hb), ?_, (unread hread).2⟩
    · exact callStep_hears (h.call i pc hpc) (h.fresh _ le_rfl) hch hr hpc'
    by_cases hrun : ∃ c, .running c ∈ r.events
    · -- the session begins to run
      obtain ⟨c, hc⟩ := hrun
      obtain rfl := callStep_running hr hc
      have hstart := (hK.owns i).call _ hpc
      have hno := not_ran_of_starting hK.life hstart.1
      rintro d ⟨j, hj⟩
      rcases List.mem_append.1 hj with hj | hj
      · exact absurd ⟨j, d, hj⟩ hno
      cases callStep_running hr (mem_tagged.1 hj).2
      obtain ⟨hclean, hshake⟩ : Clean (rcs c) ∧ Handshake cfg (messages (rcs c)) := h.call i _ hpc
      refine ⟨rcs c, [], (List.append_nil _).symm, hclean, hshake, ?_⟩
      have hunread : reads tr = [] := by
        refine reads_unspawned hK.told fun k t hk => hno ?_
        obtain ⟨e, he⟩ := hK.life.spawn hk
        exact ⟨k, e, he⟩
      rw [reads_quiet hread, hunread]
      exact .nil
    · refine quiet hread fun e he c heq => hrun ⟨c, ?_⟩
      obtain ⟨j, k⟩ := e
      cases heq
      exact (mem_tagged.1 he).2
  · have hnone : ∀ e ∈ ([] : List Event), ∀ x, e.2 ≠ .read x := fun e he => absurd he List.not_mem_nil
    refine ⟨fun pc hpc => ?_, fun ops hops op hop c hc => (h.conn i ops hops op hop c hc).grow,
      fun ops hops hb => h.quits i ops hops ((unread hnone).1 hb),
      quiet hnone fun e he => absurd he List.not_mem_nil, (unread hnone).2⟩
    cases hpc
    cases entry with
    | start => trivial
    | _ => trivial
  · obtain ⟨hev, hleft⟩ := readerStep_other hch hr
    have hread : ∀ e ∈ r.events.map (i, ·), ∀ x, e.2 ≠ .read x := by
      rintro ⟨j, k⟩ he x heq
      exact hev x (heq ▸ (mem_tagged.1 he).2)
    obtain ⟨m, hm⟩ := (hK.owns i).reader (by rw [hops]; simp)
    obtain ⟨d, hd⟩ := hK.life.spawn hm
    refine ⟨h.call i, fun ops heq op' hop c hc => ?_, fun ops heq hb op' hop => ?_, quiet hread ?_,
      (unread hread).2⟩
    · cases heq
      rcases hleft op' hop with hmem | hno | ⟨-, hconn⟩
      · exact (h.conn i _ hops op' (List.mem_cons_of_mem _ hmem) c hc).grow
      · rw [isRead_of_conn hc] at hno
        cases hno
      · rcases hconn c hc with hop' | hsh
        · exact (h.conn i _ hops op (List.mem_cons_self ..) c hop').grow
        · exact (hK.up.conn ⟨m, d, hd⟩ hsh).grow
    · cases heq
      have hquits := h.quits i _ hops ((unread hread).1 hb)
      rcases hleft op' hop with hmem | hno | ⟨hyes, -⟩
      · exact hquits op' (List.mem_cons_of_mem _ hmem)
      · exact hno
      · rw [hquits op (List.mem_cons_self ..)] at hyes
        cases hyes
    · rintro ⟨j, k⟩ he c heq
      have hb := (readerStep_bystands hr).quiet k (mem_tagged.1 he).2
      have heq' : k = .running c := heq
      rw [heq'] at hb
      cases hb

theorem readsOn_cases {t : Thread} {c : ℕ} (h : t.readsOn = some c) :
    (∃ deadline, t.call = some (.start (.ack c deadline))) ∨
      t.call = none ∧ ∃ rest, t.reader = some (.read c :: rest) := by
  unfold Thread.readsOn at h
  split at h
  · rename_i pc hpc
    unfold CallPc.readsOn at h
    split at h
    · cases h
      exact .inl ⟨_, hpc⟩
    · cases h
  · rename_i hcall
    split at h
    · rename_i d rest hops
      cases h
      exact .inr ⟨hcall, rest, hops⟩
    · cases h

/-- A thread in a `Read` is on a connection that has been dialed, and no other thread is starting. -/
theorem Hears.reading (h : Hears cfg tr p rcs) (hK : Known cfg tr p) {c : ℕ}
    (hon : (p.threads i).readsOn = some c) :
    c < p.shared.dialed ∧ ∀ j ≠ i, ¬ Starting j tr p.shared := by
  rcases readsOn_cases hon with ⟨deadline, hcall⟩ | ⟨-, rest, hops⟩
  · have hstart : Starting i tr p.shared := (hK.owns i).call _ hcall
    have hsends : frames c tr ≠ [] ∧ Fresh p.shared c := hK.sends i _ hcall
    exact ⟨hsends.2.1, fun j hj hs => hj (Option.some.inj (hs.2.symm.trans hstart.2))⟩
  · have hrun := h.conn i _ hops _ (List.mem_cons_self ..) c rfl
    exact ⟨hK.up.running hrun, fun j _ hs => not_ran_of_starting hK.life hs.1 hrun.ran⟩

/-- The result of a `Read`. -/
theorem Hears.read (h : Hears cfg tr p rcs) (hK : Known cfg tr p) {c : ℕ} {rc : ReadRc}
    {x : ReadOutcome} (hon : (p.threads i).readsOn = some c) (hseen : seenAs rc x = true)
    (hrcs : rcs' c = rcs c ++ [rc])
    (ho : threadStep cfg i p.shared (p.threads i) (.read x) = some o) : StepHears cfg tr rcs' o := by
  rcases readsOn_cases hon with ⟨deadline, hcall⟩ | ⟨hcall, rest, hops⟩
  · -- the acknowledgement is waited for: no session has run
    simp only [threadStep, hcall] at ho
    obtain ⟨r, hr, rfl⟩ := Option.map_eq_some_iff.1 ho
    have hstart : Starting i tr p.shared := (hK.owns i).call _ hcall
    have hsame : reads (tr ++ r.events.map (i, ·)) = reads tr := reads_quiet (unread_of_callStep hr)
    refine ⟨fun pc' hpc' => ?_, fun ops hops op hop d hd => (h.conn i ops hops op hop d hd).grow,
      fun ops hops => ?_, ?_, ?_⟩
    · exact ackStep_hears (h.call i _ hcall) (hK.acks i c deadline hcall) hseen hrcs hr hpc'
    · unfold Broken
      rw [hsame]
      exact h.quits i ops hops
    · rintro d ⟨j, hj⟩
      rcases List.mem_append.1 hj with hj | hj
      · exact absurd ⟨j, d, hj⟩ (not_ran_of_starting hK.life hstart.1)
      · cases callStep_running hr (mem_tagged.1 hj).2
    · rw [hsame]
      exact h.ended
  · -- the reader thread, on the connection of the session
    simp only [threadStep, hcall, hops, readerStep, Option.map_some, Option.some.injEq] at ho
    subst ho
    have hrun : Running c tr := h.conn i _ hops _ (List.mem_cons_self ..) c rfl
    have hunbroken : ¬ Broken tr := by
      intro hb
      have hno := h.quits i _ hops hb _ (List.mem_cons_self ..)
      cases hno
    have hreads : reads (tr ++ [EventKind.read x].map (i, ·)) = reads tr ++ [x] := reads_append tr _
    refine ⟨fun pc hpc => ?_, fun ops heq op hop d hd => ?_, fun ops heq hb => ?_, ?_, ?_⟩
    · cases hpc
    · cases heq
      rw [afterRead_conn cfg c x op hop d hd]
      exact hrun.grow
    · cases heq
      obtain ⟨what, hmem⟩ := hb
      rw [hreads] at hmem
      rcases List.mem_append.1 hmem with hmem | hmem
      · exact absurd ⟨what, hmem⟩ hunbroken
      · cases List.mem_singleton.1 hmem
        simp [afterRead, ReaderOp.isRead]
    · rintro d ⟨j, hj⟩
      have hj' : (j, EventKind.running d) ∈ tr := by simpa using hj
      obtain ⟨k, hk⟩ := hrun
      obtain rfl := (hK.life.once hj' hk).2
      obtain ⟨front, back, heq, hclean, hfront, hback⟩ := h.matched d ⟨k, hk⟩
      refine ⟨front, back ++ [rc], by rw [hrcs, heq, List.append_assoc], hclean, hfront, ?_⟩
      rw [hreads]
      exact List.rel_append hback (.cons hseen .nil)
    · rw [hreads]
      intro pre what post heq
      rcases List.eq_nil_or_concat post with rfl | ⟨init, last, rfl⟩
      · rfl
      · refine absurd ⟨what, ?_⟩ hunbroken
        rw [List.concat_eq_append, ← List.cons_append, ← List.append_assoc] at heq
        rw [(List.append_inj' heq rfl).1]
        simp

end

/-! ## Runs -/

section

variable {cfg : Config} {voiceId : Bytes} {clients : ℕ → WsClient}
  {acts : List (Lts.Joint (ℕ × Choice) (ℕ × ReaderLabel))} {p : Pool Shared Thread}
  {readers : ℕ → Reader} {tr : List (Event ⊕ (ℕ × ReadRc))}

/-- A session before the first call, and readers in no `Read`. -/
def heardInitial (voiceId : Bytes) (clients : ℕ → WsClient) : Pool Shared Thread × (ℕ → Reader) :=
  (initial voiceId, fun c => { client := clients c })

/-- What the reads of the connection `c` have returned. -/
def results (tr : List (Event ⊕ (ℕ × ReadRc))) (c : ℕ) : List ReadRc :=
  Lts.ofMember c (Lts.rights tr)

theorem hears_run (h : (heard cfg).run (heardInitial voiceId clients) acts = some ((p, readers), tr)) :
    Hears cfg (Lts.lefts tr) p (results tr) := by
  refine Lts.run_reachable (I := fun tr s => Hears cfg (Lts.lefts tr) s.1 (results tr)) ?_ ?_ h
  · rintro as tr ⟨p, readers⟩ j ⟨p', readers'⟩ es hrun hh hs
    have hK := known_run (Lts.sync_run hrun).1
    obtain ⟨ls, ds, hl, hr, hok, hles, hres⟩ := Lts.sync_step hs
    have hrcs : ∀ c, results (tr ++ es) c = results tr c ++ Lts.ofMember c ds := by
      intro c
      unfold results
      rw [Lts.rights_append, hres, Lts.ofMember_append]
    have same : ds = [] → results (tr ++ es) = results tr := by
      rintro rfl
      funext c
      rw [hrcs]
      exact List.append_nil _
    rw [Lts.lefts_append, hles]
    cases j with
    | left a =>
      obtain ⟨i, ch⟩ := a
      cases hr
      have hch : ∀ x, ch ≠ .read x := by
        rintro x rfl
        cases hok
      rw [same rfl]
      exact hh.step hK hl (fun o ho => hh.other hK hch ho) hh.fresh fun k _ => hh.call k
    | right b =>
      cases hl
      rw [same (of_decide_eq_true hok), List.append_nil]
      exact hh
    | both a b =>
      obtain ⟨i, ch⟩ := a
      obtain ⟨c, lab⟩ := b
      cases ch with
      | read x =>
        obtain ⟨s', es', -, -, hds⟩ := Lts.family_step hr
        obtain ⟨hon, hres'⟩ := Bool.and_eq_true_iff.1 hok
        have hon : (p.threads i).readsOn = some c := of_decide_eq_true hon
        obtain ⟨d, rc, rfl, hseen⟩ : ∃ d rc, ds = [(d, rc)] ∧ seenAs rc x = true := by
          split at hres'
          · exact ⟨_, _, rfl, hres'⟩
          · cases hres'
        obtain rfl : d = c := by
          have hmem : (d, rc) ∈ es'.map (c, ·) := hds ▸ List.mem_singleton.2 rfl
          obtain ⟨e, -, he⟩ := List.mem_map.1 hmem
          cases he
          rfl
        have hothers : ∀ c ≠ d, results (tr ++ es) c = results tr c := by
          intro c hc
          have hnil : Lts.ofMember c [(d, rc)] = [] := by simp [Lts.ofMember, Ne.symm hc]
          rw [hrcs, hnil, List.append_nil]
        obtain ⟨hlt, halone⟩ := hh.reading hK hon
        refine hh.step hK hl (fun o ho => hh.read hK hon hseen ?_ ho) (fun c hc => ?_) ?_
        · rw [hrcs]
          simp [Lts.ofMember]
        · rw [hothers c fun heq => absurd hlt (by omega)]
          exact hh.fresh c hc
        · intro j hj pc hpc
          exact hearsCall_idle ((hK.owns j).call pc hpc) (halone j hj)
      | _ => cases hok
  · refine ⟨fun c _ => rfl, fun i pc hpc => ?_, fun i ops hops => ?_, fun i ops hops => ?_,
      fun c hc => ?_, fun pre what post heq => ?_⟩
    · cases hpc
    · cases hops
    · cases hops
    · obtain ⟨i, hi⟩ := hc
      exact absurd hi List.not_mem_nil
    · cases pre <;> cases heq

/-- The frames of the reads are those that the session sees. -/
theorem frames_of_seen {back : List ReadRc} {rs : List ReadOutcome}
    (h : List.Forall₂ (fun rc x => seenAs rc x = true) back rs) :
    (messages back).map outcome = rs.filter ReadOutcome.isFrame := by
  induction h with
  | nil => rfl
  | @cons rc x back rs hseen _ ih =>
    cases rc with
    | message f =>
      have hx : x = outcome f := of_decide_eq_true (by cases x <;> exact hseen)
      have hmsgs : messages (.message f :: back) = f :: messages back := rfl
      rw [hx, hmsgs, List.map_cons, ih]
      rfl
    | timeout =>
      cases x with
      | timeout => exact ih
      | _ => cases hseen
    | error what =>
      cases x with
      | error what => exact ih
      | _ => cases hseen

/-- Only the last read has failed. -/
theorem clean_of_ended {back : List ReadRc} {rs : List ReadOutcome} (hended : Ended rs)
    (h : List.Forall₂ (fun rc x => seenAs rc x = true) back rs) :
    ∃ good bad, back = good ++ bad ∧ Clean good ∧ messages bad = [] := by
  induction h with
  | nil => exact ⟨[], [], rfl, List.forall_mem_nil _, rfl⟩
  | @cons rc x back rs hseen hrest ih =>
    by_cases hf : rc.Failed
    · obtain ⟨what, rfl⟩ := hf
      cases x with
      | error what' =>
        obtain rfl := hended [] what' rs rfl
        cases hrest
        exact ⟨[], [.error what], rfl, List.forall_mem_nil _, rfl⟩
      | _ => cases hseen
    · obtain ⟨good, bad, rfl, hgood, hbad⟩ := ih fun pre what post heq =>
        hended (x :: pre) what post (by rw [heq]; rfl)
      exact ⟨rc :: good, bad, rfl, List.forall_mem_cons.2 ⟨hf, hgood⟩, hbad⟩

/-- Only frames have sentence callbacks. -/
theorem sentences_of_frames (cfg : Config) (rs : List ReadOutcome) :
    rs.flatMap (sentencesOf cfg) = (rs.filter ReadOutcome.isFrame).flatMap (sentencesOf cfg) := by
  induction rs with
  | nil => rfl
  | cons x rs ih =>
    cases x with
    | frame opcode payload =>
      rw [List.filter_cons_of_pos rfl, List.flatMap_cons, List.flatMap_cons, ih]
    | _ => exact ih

/-- **What the listener hears of what the server sends**, after every run in which no poll window of
    a `Read` closes inside a frame header.  The frames that the session's connection has delivered
    are a first part of the server's stream, pings and pongs apart: those of the handshake and
    behind them those of the reader thread.  The sentence callbacks are those of the latter, in
    their order and without a gap, all of them when the reader thread has none left to make; and
    `OnRecognitionComplete` is for one of them with code 0 and final 1. -/
theorem listener_hears (cfg : Config) (voiceId : Bytes) (clients : ℕ → WsClient)
    {acts : List (Lts.Joint (ℕ × Choice) (ℕ × ReaderLabel))} {p : Pool Shared Thread}
    {readers : ℕ → Reader} {tr : List (Event ⊕ (ℕ × ReadRc))}
    (h : (heard cfg).run (heardInitial voiceId clients) acts = some ((p, readers), tr)) {c : ℕ}
    (hc : Running c (Lts.lefts tr))
    (hcut : Reader.lts.Meets (fun s a => ¬ s.HeaderCut a) { client := clients c }
      (Lts.ofMember c (acts.filterMap Lts.Joint.snd))) :
    ∃ front frames,
      front ++ frames <+: (Rfc6455.decodeAll (clients c).unread).filter (! ·.isPingPong) ∧
      Handshake cfg front ∧
      (callbacks (Lts.lefts tr)).filter Callback.isSentence <+:
        frames.flatMap (fun f => sentencesOf cfg (outcome f)) ∧
      (∀ i ops, (p.threads i).reader = some ops → pending ops = [] →
        (callbacks (Lts.lefts tr)).filter Callback.isSentence =
          frames.flatMap (fun f => sentencesOf cfg (outcome f))) ∧
      ∀ resp, .recognitionComplete resp ∈ callbacks (Lts.lefts tr) →
        Completes cfg (frames.map outcome) resp := by
  obtain ⟨hsession, hreaders⟩ := Lts.sync_run h
  have hK := known_run hsession
  have hh := hears_run h
  obtain ⟨front, back, hres, hclean, hshake, hback⟩ := hh.matched c hc
  obtain ⟨good, bad, rfl, hgood, hbad⟩ := clean_of_ended hh.ended hback
  have hframes : (messages good).map outcome = (reads (Lts.lefts tr)).filter ReadOutcome.isFrame := by
    rw [← frames_of_seen hback, messages_append, hbad, List.append_nil]
  have hsentences : (reads (Lts.lefts tr)).flatMap (sentencesOf cfg) =
      (messages good).flatMap fun f => sentencesOf cfg (outcome f) := by
    rw [sentences_of_frames, ← hframes, List.flatMap_map]
  have hreading : ∀ i ops, (p.threads i).reader = some ops →
      (callbacks (Lts.lefts tr) ++ pending ops).filter Callback.isSentence =
        (messages good).flatMap fun f => sentencesOf cfg (outcome f) :=
    fun i ops hops => (hK.tells i ops hops).sentences.trans hsentences
  refine ⟨messages front, messages good, ?_, hshake, ?_, fun i ops hops hnil => ?_,
    fun resp hresp => ?_⟩
  · have hpre : front ++ good <+: Lts.ofMember c (Lts.rights tr) := by
      have heq : Lts.ofMember c (Lts.rights tr) = front ++ (good ++ bad) := hres
      rw [heq, ← List.append_assoc]
      exact List.prefix_append _ _
    obtain ⟨fs, hfs, hmsgs⟩ := Reader.frames_before (Lts.family_run hreaders c) hcut hpre
      (List.forall_mem_append.2 ⟨hclean, hgood⟩)
    rw [← messages_append, hmsgs]
    exact hfs.filter _
  · by_cases hspawn : ∃ j t, (j, EventKind.spawned t) ∈ Lts.lefts tr
    · obtain ⟨j, t, ht⟩ := hspawn
      obtain ⟨ops, hops⟩ := Option.ne_none_iff_exists'.1 (reader_of_spawned hsession ht)
      rw [← hreading t ops hops, List.filter_append]
      exact List.prefix_append _ _
    · have hnil : callbacks (Lts.lefts tr) = [] := by
        refine List.eq_nil_iff_forall_not_mem.2 fun cb hcb => ?_
        obtain ⟨j, hj⟩ := mem_callbacks.1 hcb
        obtain ⟨m, hm⟩ := hK.told.byReader hj rfl
        exact hspawn ⟨m, j, hm⟩
      rw [hnil]
      exact List.nil_prefix
  · rw [← hreading i ops hops, hnil, List.append_nil]
  · obtain ⟨j, hj⟩ := mem_callbacks.1 hresp
    obtain ⟨pre, ⟨post, heq⟩, hpre⟩ := hK.told.told.mem hj
    obtain ⟨payload, hmem, hrest⟩ := hpre.2.2.2 resp rfl
    refine ⟨payload, ?_, hrest⟩
    rw [hframes, ← heq, reads_append]
    exact List.mem_filter.2 ⟨List.mem_append_left _ hmem, rfl⟩

end

/-- An acknowledgement, a ping and a sentence. -/
def sampleStream : Bytes := 0x81 :: 10 :: sampleAck ++ 0x89 :: 0 :: 0x81 :: 27 :: sampleSentence

/-- A pass that takes up to `n + 1` bytes. -/
def sampleArrival (n : ℕ) : ReaderLabel := .tick { sampleTick with recv := .data n }

/-- A v3 session whose server sends a sentence and closes the connection. -/
def sampleHearing : List (Lts.Joint (ℕ × Choice) (ℕ × ReaderLabel)) :=
  [.left (0, .enter .start), .left (0, .go), .left (0, .validated (.ok ())),
    .left (0, .dialed [0x61] (.ok [0x73])), .left (0, .go), .left (0, .sent (.ok ())), .left (0, .go),
    .right (0, .call 500 0), .right (0, sampleArrival 1),
    .both (0, .read (.frame 0x1 sampleAck)) (0, sampleArrival 9), .left (0, .go), .left (0, .go),
    .left (0, .spawn 1), .left (1, .go), .left (1, .go), .left (1, .returns), .left (1, .go),
    .right (0, .call 500 0), .right (0, sampleArrival 1), .right (0, sampleArrival 0),
    .right (0, sampleArrival 0), .right (0, sampleArrival 1),
    .both (1, .read (.frame 0x1 sampleSentence)) (0, sampleArrival 26), .left (1, .go),
    .left (1, .returns), .right (0, .call 500 0),
    .both (1, .read (.error [])) (0, .tick { sampleTick with recv := .closed 0 })]

theorem listener_hears_sentence : ∃ p readers tr front frames,
    (heard sampleConfig).run (heardInitial [] fun _ => { tls := false, rx := sampleStream })
        sampleHearing = some ((p, readers), tr) ∧
      front ++ frames <+: (Rfc6455.decodeAll sampleStream).filter (! ·.isPingPong) ∧
      Handshake sampleConfig front ∧
      (callbacks (Lts.lefts tr)).filter Callback.isSentence =
        frames.flatMap (fun f => sentencesOf sampleConfig (outcome f)) ∧
      ((callbacks (Lts.lefts tr)).filter Callback.isSentence).length = 1 := by
  have run : ∃ p readers tr ops,
      (heard sampleConfig).run (heardInitial [] fun _ => { tls := false, rx := sampleStream })
          sampleHearing = some ((p, readers), tr) ∧
        (0, EventKind.running 0) ∈ Lts.lefts tr ∧ (p.threads 1).reader = some ops ∧
        pending ops = [] ∧ ((callbacks (Lts.lefts tr)).filter Callback.isSentence).length = 1 :=
    ⟨_, _, _, _, rfl, by simp [Lts.lefts, heardInitial, initial], rfl, rfl, rfl⟩
  obtain ⟨p, readers, tr, ops, hrun, hmem, hops, hnil, hone⟩ := run
  obtain ⟨front, frames, hpre, hshake, -, hall, -⟩ :=
    listener_hears sampleConfig [] _ hrun ⟨0, hmem⟩ (by
      refine ⟨?_, ?_, ?_, ?_, ?_, ?_, ?_, ?_, ?_, ?_, ?_, trivial⟩
      all_goals
        rintro ⟨t, r, e, ha, hr, he, hl, -⟩
        first
          | cases ha; done
          | cases hr; cases he; cases hl
          | cases hr; cases he)
  exact ⟨p, readers, tr, front, frames, hrun, hpre, hshake, hall 1 ops hops hnil, hone⟩

end TrtcAsr.Speech
