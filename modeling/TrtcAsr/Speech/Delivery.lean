/-
  What the server reads of a session: the threads of the session beside the senders of its
  connections.

  A thread that hands a frame to a connection takes a step in both systems, and the result of the
  send is what its `WriteAll` returned.  The pongs are sent by a thread that is in a `Read`.

  * `wired` is the two together.
  * `Wired` relates the frames underway and the finished sends of a connection to the frames that
    the session has handed to it.
  * `server_reads`: the server reads these frames, pongs apart, in their order and without a gap, as
    long as no send has failed.
-/
import TrtcAsr.Lib.Product
import TrtcAsr.Speech.Lifecycle
import TrtcAsr.Speech.Uplink
import TrtcAsr.Ws.Delivery
import TrtcAsr.Ws.Read

namespace TrtcAsr.Speech

/-! ## The two systems -/

/-- The frame that is sent. -/
def UplinkFrame.frame : UplinkFrame → WsFrame
  | start text => { opcode := 0x1, payload := text }
  | audio data => { opcode := 0x2, payload := data }
  | endSignal => { opcode := 0x1, payload := ascii "\x7b\"type\":\"end\"\x7d" }

/-- `SendText` or `SendBinary`. -/
def UplinkFrame.kind : UplinkFrame → SendKind
  | audio _ => .binary
  | _ => .text

/-- The call is in `SendText` or `SendBinary`. -/
def CallPc.sends : CallPc → Bool
  | .start (.sent _) | .write .sent | .stop _ .sent => true
  | _ => false

def Thread.sends (t : Thread) : Bool := t.call.any CallPc.sends

/-- The connection of the `Read` that a call is in, waiting for the acknowledgement. -/
def CallPc.readsOn : CallPc → Option ℕ
  | .start (.ack c _) => some c
  | _ => none

/-- The connection of the `Read` that the thread is in. -/
def Thread.readsOn (t : Thread) : Option ℕ :=
  match t.call with
  | some pc => pc.readsOn
  | none =>
    match t.reader with
    | some (.read c :: _) => some c
    | _ => none

def EventKind.isSent : EventKind → Bool
  | sent _ _ => true
  | _ => false

def SendKind.isPong : SendKind → Bool
  | .pong _ => true
  | _ => false

/-- Which steps the session and the senders take alone and which together.  A pong has the payload
    of a frame that `Read` has accepted, and a buffer has less than 2^64 bytes. -/
def wiring : Lts.Sync (Pool Shared Thread) (ℕ → TrtcAsr.Uplink) (ℕ × Choice) (ℕ × ℕ × UplinkAct) Event
    (ℕ × ℕ × Bool)
  | (_, _), .left (_, .sent _), _, _ => false
  | (p, links), .left (i, .read _), es, _ =>
    es.all (fun e => !e.2.isSent) && (p.threads i).readsOn.all fun c => ((links c).underway i).isNone
  | _, .left _, es, _ => es.all fun e => !e.2.isSent
  | (p, _), .right (c, i, .send kind payload _), _, _ =>
    (p.threads i).readsOn = some c && kind.isPong && decide (payload.length ≤ maxFrameLen)
  | _, .right (_, _, .lock _ _), _, _ => true
  | (p, _), .right (c, i, .pass _), _, ds => ds = [] || (p.threads i).readsOn = some c
  | _, .both (i, _) (c, j, .send kind payload _), es, _ =>
    match es with
    | [(_, .sent d f)] => j = i && d = c && kind = f.kind && payload = f.frame.payload &&
        decide (payload.length < 2 ^ 64)
    | _ => false
  | _, .both (i, .sent r) (c, j, .pass _), _, ds => j = i && ds = [(c, i, r.isOk)]
  | _, .both _ _, _, _ => false

/-- A session and the senders of its connections. -/
def wired (cfg : Config) : Lts (Pool Shared Thread × (ℕ → TrtcAsr.Uplink))
    (Lts.Joint (ℕ × Choice) (ℕ × ℕ × UplinkAct)) (Event ⊕ (ℕ × ℕ × Bool)) :=
  Lts.sync wiring (session cfg).pool Uplink.lts.family

/-! ## Steps of the session -/

section

variable {cfg : Config} {i : ℕ} {sh : Shared} {pc : CallPc} {ch : Choice} {r : CallResult}

/-- Only the result of the send ends it. -/
theorem choice_of_sends (h : callStep cfg i sh pc ch = some r) (hpc : pc.sends = true) :
    ∃ x, ch = .sent x := by
  unfold callStep startStep writeStep stopStep waitStep at h
  repeat' split at h
  all_goals first
    | exact ⟨_, rfl⟩
    | cases hpc
    | cases h

theorem sends_of_choice {x : Except Bytes Unit} (h : callStep cfg i sh pc ch = some r)
    (hch : ch = .sent x) : pc.sends = true := by
  unfold callStep startStep writeStep stopStep waitStep at h
  repeat' split at h
  all_goals first
    | contradiction
    | rfl

/-- Only the result of the `Read` ends it. -/
theorem choice_of_readsOn (h : callStep cfg i sh pc ch = some r) (hpc : pc.readsOn ≠ none) :
    ∃ x, ch = .read x := by
  unfold callStep startStep writeStep stopStep waitStep at h
  repeat' split at h
  all_goals first
    | exact absurd rfl hpc
    | exact ⟨_, rfl⟩
    | cases h

theorem isSent_close (sh : Shared) : ∀ k ∈ sh.close.2, k.isSent = false := by
  unfold Shared.close
  cases sh.conn with
  | none => exact fun k hk => absurd hk List.not_mem_nil
  | some c => simp [EventKind.isSent]

/-- A call that hands over a frame is then in the send. -/
theorem callStep_sent (h : callStep cfg i sh pc ch = some r) :
    (∀ k ∈ r.events, k.isSent = false) ∨ (∃ c f, r.events = [.sent c f]) ∧ pc.sends = false ∧
      pc.readsOn = none ∧ r.spawned = none ∧ ∃ pc', r.call = some pc' ∧ pc'.sends = true := by
  have waiter : ∀ w : Waiter, ∀ k ∈ w.after.2, k.isSent = false := by
    intro w
    cases w with
    | watchdog => simp [Waiter.after]
    | stop dtor stores => cases stores <;> simp [Waiter.after, EventKind.isSent]
  unfold callStep startStep writeStep stopStep waitStep waitReturn at h
  repeat' split at h
  all_goals cases h
  all_goals first
    | exact .inl (waiter _)
    | exact .inl (isSent_close sh)
    | exact .inr ⟨⟨_, _, rfl⟩, rfl, rfl, rfl, _, rfl, rfl⟩
    | exact .inl (by simp [EventKind.isSent])

/-- The reader thread hands over no frame. -/
theorem readerStep_sent {op : ReaderOp} {rest : List ReaderOp} {r : ReaderResult}
    (h : readerStep cfg i sh rest op ch = some r) : ∀ k ∈ r.events, k.isSent = false := by
  unfold readerStep at h
  repeat' split at h
  all_goals cases h
  all_goals first
    | exact isSent_close sh
    | simp [EventKind.isSent]

/-- The thread is in no send and no `Read`. -/
def Thread.Apart (t : Thread) : Prop := t.sends = false ∧ t.readsOn = none

/-- A step of the session leaves every thread as it is that is in a send or a `Read`, unless the
    step is the result of it. -/
theorem threads_step {p p' : Pool Shared Thread} {es : List Event}
    (h : (session cfg).pool.step p (i, ch) = some (p', es)) (j : ℕ) :
    p'.threads j = p.threads j ∨ (p.threads j).Apart ∨
      j = i ∧ ((∃ x, ch = .sent x) ∨ (p.threads j).readsOn ≠ none ∧ ∃ x, ch = .read x) := by
  obtain ⟨o, ho, -, -, hthreads⟩ := Threads.poolStep_cases h
  rcases hthreads j with ⟨rfl, heq⟩ | ⟨-, l, -, hidle, -⟩ | ⟨-, heq⟩
  · rw [heq]
    rcases threadStep_cases ho with ⟨d, rfl⟩ | ⟨pc, r, hpc, hr, rfl⟩ | ⟨entry, hcall, hm, rfl⟩ |
      ⟨op, rest, r, hcall, hops, hr, rfl⟩
    · exact .inl rfl
    · by_cases hs : pc.sends = true
      · exact .inr (.inr ⟨rfl, .inl (choice_of_sends hr hs)⟩)
      by_cases hro : pc.readsOn = none
      · refine .inr (.inl ⟨?_, ?_⟩)
        · simpa [Thread.sends, hpc] using hs
        · simp only [Thread.readsOn, hpc, hro]
      · refine .inr (.inr ⟨rfl, .inr ⟨?_, choice_of_readsOn hr hro⟩⟩)
        simp only [Thread.readsOn, hpc]
        exact hro
    · refine .inr (.inl ⟨by simp [Thread.sends, hcall], ?_⟩)
      unfold Thread.mayEnter at hm
      unfold Thread.readsOn
      rw [hcall]
      split at hm
      · rename_i hnone
        simp only [hnone]
      · rename_i hin
        simp only [hin]
      · cases hm
    · have hs : (p.threads j).sends = false := by simp [Thread.sends, hcall]
      by_cases hread : ∃ c, op = .read c
      · obtain ⟨c, rfl⟩ := hread
        cases ch with
        | read x => exact .inr (.inr ⟨rfl, .inr ⟨by simp [Thread.readsOn, hcall, hops], x, rfl⟩⟩)
        | _ => cases hr
      · refine .inr (.inl ⟨hs, ?_⟩)
        unfold Thread.readsOn
        rw [hcall, hops]
        cases op with
        | read c => exact absurd ⟨c, rfl⟩ hread
        | _ => rfl
  · -- a thread that is being started
    have hempty : p.threads j = {} := of_decide_eq_true hidle
    exact .inr (.inl (by rw [hempty]; exact ⟨rfl, rfl⟩))
  · exact .inl heq

theorem sends_of_step {x : Except Bytes Unit} {p p' : Pool Shared Thread} {es : List Event}
    (h : (session cfg).pool.step p (i, .sent x) = some (p', es)) : (p.threads i).sends = true := by
  obtain ⟨o, ho, -, -, -⟩ := Threads.poolStep_cases h
  unfold session threadStep at ho
  simp only at ho
  split at ho
  · rename_i pc hpc
    obtain ⟨r, hr, -⟩ := Option.map_eq_some_iff.1 ho
    simpa [Thread.sends, hpc] using sends_of_choice hr rfl
  · split at ho
    · rename_i op rest _
      obtain ⟨r, hr, -⟩ := Option.map_eq_some_iff.1 ho
      cases op <;> cases hr
    · cases ho

/-- A step of the session that hands over a frame. -/
theorem sent_step {p p' : Pool Shared Thread} {es : List Event}
    (h : (session cfg).pool.step p (i, ch) = some (p', es)) :
    (∀ e ∈ es, e.2.isSent = false) ∨ (∃ c f, es = [(i, .sent c f)]) ∧ (p.threads i).Apart ∧
      (p'.threads i).sends = true ∧ ∀ j ≠ i, p'.threads j = p.threads j := by
  obtain ⟨o, ho, -, rfl, hthreads⟩ := Threads.poolStep_cases h
  rcases threadStep_cases ho with ⟨d, rfl⟩ | ⟨pc, r, hpc, hr, rfl⟩ | ⟨entry, -, -, rfl⟩ |
    ⟨op, rest, r, -, -, hr, rfl⟩
  · exact .inl fun e he => absurd he List.not_mem_nil
  · rcases callStep_sent hr with hquiet | ⟨⟨c, f, hes⟩, hs, hro, hspawn, pc', hcall, hs'⟩
    · refine .inl ?_
      rintro ⟨j, k⟩ he
      exact hquiet k (mem_tagged.1 he).2
    · refine .inr ⟨⟨c, f, by simp [hes]⟩, ⟨?_, ?_⟩, ?_, fun j hj => ?_⟩
      · simpa [Thread.sends, hpc] using hs
      · simp only [Thread.readsOn, hpc, hro]
      · rcases hthreads i with ⟨-, heq⟩ | ⟨hne, -⟩ | ⟨hne, -⟩
        · rw [heq]
          simpa [Thread.sends, hcall] using hs'
        · exact absurd rfl hne
        · exact absurd rfl hne
      · rcases hthreads j with ⟨hji, -⟩ | ⟨-, l, hl, -, -⟩ | ⟨-, heq⟩
        · exact absurd hji hj
        · cases hspawn.symm.trans hl
        · exact heq
  · exact .inl fun e he => absurd he List.not_mem_nil
  · refine .inl ?_
    rintro ⟨j, k⟩ he
    exact readerStep_sent hr k (mem_tagged.1 he).2

end

/-- **At most one thread is in a send.** -/
theorem sends_unique {cfg : Config} {voiceId : Bytes} {acts : List (ℕ × Choice)}
    {p : Pool Shared Thread} {tr : List Event}
    (h : (session cfg).pool.run (initial voiceId) acts = some (p, tr)) {i j : ℕ}
    (hi : (p.threads i).sends = true) (hj : (p.threads j).sends = true) : i = j := by
  obtain ⟨hI, -, hthreads⟩ := lives_run h
  have owns : ∀ k, (p.threads k).sends = true → Starting k tr p.shared ∨
      Ran tr ∧ p.shared.writeMu = some k := by
    intro k hk
    obtain ⟨pc, hpc, hs⟩ : ∃ pc, (p.threads k).call = some pc ∧ pc.sends = true := by
      unfold Thread.sends at hk
      cases hc : (p.threads k).call with
      | none => rw [hc] at hk; cases hk
      | some pc => rw [hc] at hk; exact ⟨pc, rfl, hk⟩
    have hown := (hthreads k).1.call pc hpc
    cases pc with
    | start pc =>
      cases pc with
      | sent c => exact .inl hown
      | _ => cases hs
    | write pc =>
      cases pc with
      | sent => exact .inr hown
      | _ => cases hs
    | stop dtor pc =>
      cases pc with
      | sent => exact .inr ⟨ran_of_stopping hI hown.1, hown.2⟩
      | _ => cases hs
    | _ => cases hs
  rcases owns i hi with hstart | ⟨hran, hmu⟩
  · rcases owns j hj with hstart' | ⟨hran, -⟩
    · exact Option.some.inj (hstart.2.symm.trans hstart'.2)
    · exact absurd hran (not_ran_of_starting hI hstart.1)
  · rcases owns j hj with hstart' | ⟨-, hmu'⟩
    · exact absurd hran (not_ran_of_starting hI hstart'.1)
    · exact Option.some.inj (hmu.symm.trans hmu')

/-! ## A connection -/

/-- The frame is not a pong. -/
def isData (f : WsFrame) : Bool := f.opcode ≠ 0xA

theorem isData_frame (f : UplinkFrame) : isData f.frame = true := by
  cases f <;> rfl

theorem opcode_frame_lt (f : UplinkFrame) : f.frame.opcode < 16 := by
  cases f <;> simp [UplinkFrame.frame]

/-- The finished sends, pongs apart, are of the frames `fs`. -/
def Logged (u : TrtcAsr.Uplink) (fs : List UplinkFrame) : Prop :=
  (∀ x ∈ u.log, x.Framed) ∧ (u.log.filterMap Sent.read).filter isData = fs.map UplinkFrame.frame

/-- Connection `c` and the frames that the session has handed to it: a thread in a `Read` has a
    pong underway, a thread in a send the last of these frames, and the finished sends are the
    others. -/
structure Link (fs : List UplinkFrame) (c : ℕ) (threads : ℕ → Thread) (u : TrtcAsr.Uplink) :
    Prop where
  pong : ∀ i bytes, u.underway i = some bytes → (threads i).readsOn = some c →
    ∃ f, OnWire f bytes ∧ isData f = false
  data : ∀ i bytes, u.underway i = some bytes → (threads i).readsOn ≠ some c →
    (threads i).sends = true ∧ ∃ front f, fs = front ++ [f] ∧ OnWire f.frame bytes ∧ Logged u front
  rest : (∀ i, u.underway i ≠ none → (threads i).readsOn = some c) → Logged u fs

section

variable {fs : List UplinkFrame} {c i : ℕ} {threads threads' : ℕ → Thread} {u u' : TrtcAsr.Uplink}

theorem readsOn_of_sends {t : Thread} (h : t.sends = true) : t.readsOn = none := by
  unfold Thread.sends at h
  unfold Thread.readsOn
  cases hc : t.call with
  | none => rw [hc] at h; cases h
  | some pc =>
    rw [hc] at h
    cases pc with
    | start pc =>
      cases pc with
      | sent c => rfl
      | _ => cases h
    | _ => rfl

theorem Logged.congr (h : Logged u fs) (hlog : u'.log = u.log) : Logged u' fs := by
  unfold Logged
  rw [hlog]
  exact h

theorem Logged.snoc (h : Logged u fs) {x : Sent} (hlog : u'.log = u.log ++ [x]) {f : WsFrame}
    (hf : OnWire f x.frame) {gs : List UplinkFrame}
    (hgs : fs.map UplinkFrame.frame ++ [f].filter isData = gs.map UplinkFrame.frame) :
    Logged u' gs := by
  obtain ⟨hframed, hread⟩ := h
  unfold Logged
  rw [hlog]
  refine ⟨List.forall_mem_append.2 ⟨hframed, ?_⟩, ?_⟩
  · intro y hy
    obtain rfl := List.mem_singleton.1 hy
    exact ⟨f, hf⟩
  · rw [List.filterMap_append, List.filter_append, hread, ← hgs,
      List.filterMap_cons_some (Sent.read_of_onWire hf)]
    rfl

theorem Logged.pong (h : Logged u fs) {x : Sent} (hlog : u'.log = u.log ++ [x]) {f : WsFrame}
    (hf : OnWire f x.frame) (hpong : isData f = false) : Logged u' fs :=
  h.snoc hlog hf (by simp [hpong])

theorem Logged.data (h : Logged u fs) {x : Sent} (hlog : u'.log = u.log ++ [x]) {f : UplinkFrame}
    (hf : OnWire f.frame x.frame) : Logged u' (fs ++ [f]) :=
  h.snoc hlog hf (by simp [isData_frame])

/-- The threads that have a frame underway are as they were. -/
theorem Link.congr (h : Link fs c threads u)
    (hsame : ∀ j, u.underway j ≠ none → threads' j = threads j) : Link fs c threads' u where
  pong j bytes hj hr := by
    rw [hsame j (by rw [hj]; simp)] at hr
    exact h.pong j bytes hj hr
  data j bytes hj hr := by
    rw [hsame j (by rw [hj]; simp)] at hr ⊢
    exact h.data j bytes hj hr
  rest hall := h.rest fun j hj => by
    rw [← hsame j hj]
    exact hall j hj

/-- A thread in a `Read` begins a pong, waits, writes or ends it. -/
theorem Link.right (h : Link fs c threads u) {act : UplinkAct} {es : List (ℕ × Bool)}
    (hm : u.Moves i act u' es)
    (hsend : ∀ kind payload key, act = .send kind payload key →
      (threads i).readsOn = some c ∧ kind.isPong = true ∧ payload.length ≤ maxFrameLen)
    (hend : es ≠ [] → (threads i).readsOn = some c) : Link fs c threads u' := by
  cases hm with
  | @begins kind payload key _ hidle hnext hothers hlog =>
    obtain ⟨hr, hpong, hsize⟩ := hsend _ _ _ rfl
    have hold : ∀ j bytes, u'.underway j = some bytes → j ≠ i → u.underway j = some bytes :=
      fun j bytes hj hji => (hothers j hji).symm.trans hj
    refine ⟨fun j bytes hj hrj => ?_, fun j bytes hj hrj => ?_, fun hall => ?_⟩
    · by_cases hji : j = i
      · subst hji
        rw [hnext] at hj
        cases hj
        cases kind with
        | pong deadline =>
          refine ⟨{ opcode := 0xA, payload }, ⟨Nat.lt_of_sub_eq_succ rfl, rfl, ?_, key, rfl⟩, rfl⟩
          exact lt_of_le_of_lt hsize (by decide)
        | text => cases hpong
        | binary => cases hpong
      · exact h.pong j bytes (hold j bytes hj hji) hrj
    · have hji : j ≠ i := by
        rintro rfl
        exact hrj hr
      obtain ⟨hs, front, f, hfs, hwire, hlogged⟩ := h.data j bytes (hold j bytes hj hji) hrj
      exact ⟨hs, front, f, hfs, hwire, hlogged.congr hlog⟩
    · refine (h.rest fun j hj => ?_).congr hlog
      by_cases hji : j = i
      · rw [hji]
        exact hr
      · exact hall j (by rw [hothers j hji]; exact hj)
  | goes _ hsame hlog =>
    refine ⟨fun j bytes hj hrj => h.pong j bytes ((hsame j).symm.trans hj) hrj,
      fun j bytes hj hrj => ?_, fun hall => ?_⟩
    · obtain ⟨hs, front, f, hfs, hwire, hlogged⟩ := h.data j bytes ((hsame j).symm.trans hj) hrj
      exact ⟨hs, front, f, hfs, hwire, hlogged.congr hlog⟩
    · exact (h.rest fun j hj => hall j (by rw [hsame j]; exact hj)).congr hlog
  | @ends t _ x ok hlast hnext hothers hlog _ =>
    have hr := hend (by simp)
    obtain ⟨g, hg, hpong⟩ := h.pong i _ hlast hr
    have hold : ∀ j bytes, u'.underway j = some bytes → u.underway j = some bytes := by
      intro j bytes hj
      have hji : j ≠ i := by
        rintro rfl
        rw [hnext] at hj
        cases hj
      exact (hothers j hji).symm.trans hj
    refine ⟨fun j bytes hj hrj => h.pong j bytes (hold j bytes hj) hrj,
      fun j bytes hj hrj => ?_, fun hall => ?_⟩
    · obtain ⟨hs, front, f, hfs, hwire, hlogged⟩ := h.data j bytes (hold j bytes hj) hrj
      exact ⟨hs, front, f, hfs, hwire, hlogged.pong hlog hg hpong⟩
    · refine (h.rest fun j hj => ?_).pong hlog hg hpong
      by_cases hji : j = i
      · rw [hji]
        exact hr
      · exact hall j (by rw [hothers j hji]; exact hj)

/-- The session hands a frame over, while no other thread is in a send. -/
theorem Link.handed (h : Link fs c threads u) {kind : SendKind} {payload : Bytes} {key : MaskKey}
    {es : List (ℕ × Bool)} {f : UplinkFrame} (hm : u.Moves i (.send kind payload key) u' es)
    (hkind : kind = f.kind) (hpayload : payload = f.frame.payload) (hsize : payload.length < 2 ^ 64)
    (hs : (threads' i).sends = true) (hothers : ∀ j ≠ i, threads' j = threads j)
    (halone : ∀ j ≠ i, (threads j).sends = false) : Link (fs ++ [f]) c threads' u' := by
  subst hkind hpayload
  cases hm with
  | goes hact => exact absurd rfl (hact _ _ _)
  | begins hidle hnext hunder hlog =>
    have hrest : ∀ j, u.underway j ≠ none → (threads j).readsOn = some c := by
      intro j hj
      by_contra hr
      obtain ⟨bytes, hbytes⟩ := Option.ne_none_iff_exists'.1 hj
      have hji : j ≠ i := by
        rintro rfl
        rw [hidle] at hbytes
        cases hbytes
      have hsj := (h.data j bytes hbytes hr).1
      rw [halone j hji] at hsj
      cases hsj
    have hri : (threads' i).readsOn ≠ some c := by
      rw [readsOn_of_sends hs]
      simp
    refine ⟨fun j bytes hj hrj => ?_, fun j bytes hj hrj => ?_, fun hall => ?_⟩
    · have hji : j ≠ i := by
        rintro rfl
        exact hri hrj
      rw [hunder j hji] at hj
      rw [hothers j hji] at hrj
      exact h.pong j bytes hj hrj
    · by_cases hji : j = i
      · subst hji
        rw [hnext] at hj
        cases hj
        refine ⟨hs, fs, f, rfl, ⟨?_, ?_, hsize, key, ?_⟩, (h.rest hrest).congr hlog⟩
        · exact opcode_frame_lt f
        · cases f <;> rfl
        · cases f <;> rfl
      · rw [hunder j hji] at hj
        rw [hothers j hji] at hrj
        exact absurd (hrest j (by rw [hj]; simp)) hrj
    · exact absurd (hall i (by rw [hnext]; simp)) hri

/-- The send of a thread returns, while no other thread is in one. -/
theorem Link.returned (h : Link fs c threads u) {t : Tick} {ok : Bool}
    (hm : u.Moves i (.pass t) u' [(i, ok)]) (hs : (threads i).sends = true)
    (hothers : ∀ j ≠ i, u.underway j ≠ none → threads' j = threads j)
    (halone : ∀ j ≠ i, (threads j).sends = false) : Link fs c threads' u' := by
  cases hm with
  | @ends _ _ x _ hlast hnext hunder hlog _ =>
    have hri : (threads i).readsOn ≠ some c := by
      rw [readsOn_of_sends hs]
      simp
    obtain ⟨-, front, f, rfl, hwire, hlogged⟩ := h.data i _ hlast hri
    have hother : ∀ j bytes, u'.underway j = some bytes → j ≠ i ∧ u.underway j = some bytes ∧
        (threads j).readsOn = some c := by
      intro j bytes hj
      have hji : j ≠ i := by
        rintro rfl
        rw [hnext] at hj
        cases hj
      have hj' := (hunder j hji).symm.trans hj
      refine ⟨hji, hj', ?_⟩
      by_contra hr
      have hsj := (h.data j bytes hj' hr).1
      rw [halone j hji] at hsj
      cases hsj
    refine ⟨fun j bytes hj _ => ?_, fun j bytes hj hrj => ?_, fun _ => hlogged.data hlog hwire⟩
    · obtain ⟨-, hj', hr⟩ := hother j bytes hj
      exact h.pong j bytes hj' hr
    · obtain ⟨hji, hj', hr⟩ := hother j bytes hj
      rw [hothers j hji (by rw [hj']; simp)] at hrj
      exact absurd hr hrj

end

/-! ## The two systems together -/

/-- What holds of all connections. -/
structure Wired (tr : List Event) (p : Pool Shared Thread) (links : ℕ → TrtcAsr.Uplink) : Prop where
  link : ∀ c, Link (frames c tr) c p.threads (links c)
  one : ∀ i c d, (p.threads i).sends = true → (links c).underway i ≠ none →
    (links d).underway i ≠ none → c = d

theorem frames_of_quiet {es : List Event} (h : ∀ e ∈ es, e.2.isSent = false) (c : ℕ) :
    frames c es = [] := by
  refine List.filterMap_eq_nil_iff.2 ?_
  rintro ⟨j, k⟩ he
  have hk := h _ he
  cases k with
  | sent d f => cases hk
  | _ => rfl

section

variable {cfg : Config} {tr : List Event} {p p' : Pool Shared Thread}
  {links links' : ℕ → TrtcAsr.Uplink} {es : List Event}

/-- The session takes a step alone. -/
theorem Wired.alone (h : Wired tr p links) (hquiet : ∀ e ∈ es, e.2.isSent = false)
    (hsame : ∀ c j, (links c).underway j ≠ none → p'.threads j = p.threads j) :
    Wired (tr ++ es) p' links where
  link c := by
    rw [frames_append, frames_of_quiet hquiet, List.append_nil]
    exact (h.link c).congr (hsame c)
  one i c d hs hc hd := by
    rw [hsame c i hc] at hs
    exact h.one i c d hs hc hd

/-- The frame that a thread has underway belongs to the send or the `Read` it is in. -/
theorem Wired.busy (h : Wired tr p links) {c j : ℕ} (hj : (links c).underway j ≠ none) :
    ¬ (p.threads j).Apart := by
  rintro ⟨hs, hr⟩
  obtain ⟨bytes, hbytes⟩ := Option.ne_none_iff_exists'.1 hj
  rw [((h.link c).data j bytes hbytes (by rw [hr]; simp)).1] at hs
  cases hs

theorem Wired.left {i : ℕ} {ch : Choice} (h : Wired tr p links)
    (hs : (session cfg).pool.step p (i, ch) = some (p', es))
    (hok : wiring (p, links) (.left (i, ch)) es [] = true) : Wired (tr ++ es) p' links := by
  have hquiet : ∀ e ∈ es, e.2.isSent = false := by
    intro e he
    cases ch with
    | sent x => cases hok
    | read x =>
      simp only [wiring, Bool.and_eq_true] at hok
      simpa using List.all_eq_true.1 hok.1 e he
    | _ => simpa using List.all_eq_true.1 hok e he
  refine h.alone hquiet fun c j hj => ?_
  rcases threads_step hs j with heq | hapart | ⟨rfl, ⟨x, rfl⟩ | ⟨hr, x, rfl⟩⟩
  · exact heq
  · exact absurd hapart (h.busy hj)
  · cases hok
  · -- a `Read` returns once its pongs have been sent
    obtain ⟨d, hd⟩ := Option.ne_none_iff_exists'.1 hr
    obtain ⟨bytes, hbytes⟩ := Option.ne_none_iff_exists'.1 hj
    simp only [wiring, Bool.and_eq_true, hd, Option.all_some, Option.isNone_iff_eq_none] at hok
    by_cases hdc : d = c
    · rw [hdc] at hok
      exact absurd hok.2 hj
    · have hsends := ((h.link c).data j bytes hbytes (by rw [hd]; simpa using hdc)).1
      exact absurd (readsOn_of_sends hsends) hr

/-- A thread takes a step on a connection alone. -/
theorem Wired.right {c i : ℕ} {act : UplinkAct} {ds : List (ℕ × ℕ × Bool)} {u : TrtcAsr.Uplink}
    {bs : List (ℕ × Bool)} (h : Wired tr p links) (hm : (links c).Moves i act u bs)
    (hds : ds = bs.map (c, ·)) (hok : wiring (p, links) (.right (c, i, act)) [] ds = true) :
    Wired tr p (Function.update links c u) := by
  have hsend : ∀ kind payload key, act = .send kind payload key →
      (p.threads i).readsOn = some c ∧ kind.isPong = true ∧ payload.length ≤ maxFrameLen := by
    rintro kind payload key rfl
    simp only [wiring, Bool.and_eq_true, decide_eq_true_eq] at hok
    exact ⟨hok.1.1, hok.1.2, hok.2⟩
  have hend : bs ≠ [] → (p.threads i).readsOn = some c := by
    intro hne
    cases hm with
    | begins => exact absurd rfl hne
    | goes => exact absurd rfl hne
    | ends =>
      subst hds
      simpa [wiring] using hok
  refine ⟨fun d => ?_, fun j d e hs hd he => ?_⟩
  · by_cases hdc : d = c
    · subst hdc
      rw [Function.update_self]
      exact (h.link d).right hm hsend hend
    · rw [Function.update_of_ne hdc]
      exact h.link d
  · -- a thread in a send begins no other one
    have hold : ∀ x, (Function.update links c u x).underway j ≠ none →
        (links x).underway j ≠ none := by
      intro x hx
      by_cases hxc : x = c
      · subst hxc
        rw [Function.update_self] at hx
        by_cases hji : j = i
        · subst hji
          cases hm with
          | begins =>
            obtain ⟨hr, -⟩ := hsend _ _ _ rfl
            rw [readsOn_of_sends hs] at hr
            cases hr
          | goes _ hsame _ => rwa [hsame j] at hx
          | ends _ hnext _ _ _ => exact absurd hnext hx
        · cases hm with
          | begins _ _ hothers _ => rwa [hothers j hji] at hx
          | goes _ hsame _ => rwa [hsame j] at hx
          | ends _ _ hothers _ _ => rwa [hothers j hji] at hx
      · rwa [Function.update_of_ne hxc] at hx
    exact h.one j d e hs (hold d hd) (hold e he)

/-- A thread hands a frame to a connection. -/
theorem Wired.handed {c i j : ℕ} {ch : Choice} {kind : SendKind} {payload : Bytes} {key : MaskKey}
    {ds : List (ℕ × ℕ × Bool)} {u : TrtcAsr.Uplink} {bs : List (ℕ × Bool)} (h : Wired tr p links)
    (unique : ∀ {k}, (p'.threads k).sends = true → (p'.threads i).sends = true → k = i)
    (hs : (session cfg).pool.step p (i, ch) = some (p', es))
    (hm : (links c).Moves j (.send kind payload key) u bs)
    (hok : wiring (p, links) (.both (i, ch) (c, j, .send kind payload key)) es ds = true) :
    Wired (tr ++ es) p' (Function.update links c u) := by
  rcases sent_step hs with hquiet | ⟨⟨d, f, rfl⟩, hapart, hsends, hothers⟩
  · simp only [wiring] at hok
    split at hok
    · exact absurd (hquiet _ (List.mem_singleton.2 rfl)) (by simp [EventKind.isSent])
    · cases hok
  obtain ⟨⟨⟨⟨rfl, rfl⟩, hkind⟩, hpayload⟩, hsize⟩ : (((j = i ∧ d = c) ∧ kind = f.kind) ∧
      payload = f.frame.payload) ∧ payload.length < 2 ^ 64 := by
    simpa [wiring, Bool.and_eq_true] using hok
  have halone : ∀ k ≠ j, (p.threads k).sends = false := by
    intro k hk
    refine Bool.eq_false_iff.2 fun hsk => hk (unique ?_ hsends)
    rw [hothers k hk]
    exact hsk
  have hidle : ∀ e, (links e).underway j = none := by
    intro e
    by_contra hj
    exact h.busy hj hapart
  refine ⟨fun e => ?_, fun k e e' hk he he' => ?_⟩
  · rw [frames_append]
    by_cases hed : e = d
    · subst hed
      rw [Function.update_self, show frames e [(j, EventKind.sent e f)] = [f] by simp [frames]]
      exact (h.link e).handed hm hkind hpayload hsize hsends hothers halone
    · rw [Function.update_of_ne hed,
        show frames e [(j, EventKind.sent d f)] = [] by simp [frames, Ne.symm hed], List.append_nil]
      refine (h.link e).congr fun k hk => hothers k ?_
      rintro rfl
      exact hk (hidle e)
  · -- the only connection on which the thread has something underway
    obtain rfl : k = j := unique hk hsends
    have only : ∀ x, (Function.update links d u x).underway k ≠ none → x = d := by
      intro x hx
      by_contra hxd
      rw [Function.update_of_ne hxd] at hx
      exact hx (hidle x)
    rw [only e he, only e' he']

/-- The send of a thread returns. -/
theorem Wired.returned {c i j : ℕ} {x : Except Bytes Unit} {t : Tick} {ds : List (ℕ × ℕ × Bool)}
    {u : TrtcAsr.Uplink} {bs : List (ℕ × Bool)} (h : Wired tr p links)
    (unique : ∀ {k}, (p.threads k).sends = true → (p.threads i).sends = true → k = i)
    (hs : (session cfg).pool.step p (i, .sent x) = some (p', es))
    (hm : (links c).Moves j (.pass t) u bs) (hds : ds = bs.map (c, ·))
    (hok : wiring (p, links) (.both (i, .sent x) (c, j, .pass t)) es ds = true) :
    Wired (tr ++ es) p' (Function.update links c u) := by
  have hsends := sends_of_step hs
  have hquiet : ∀ e ∈ es, e.2.isSent = false := by
    rcases sent_step hs with hquiet | ⟨-, hapart, -⟩
    · exact hquiet
    · rw [hapart.1] at hsends
      cases hsends
  obtain ⟨rfl, hds'⟩ : j = i ∧ ds = [(c, i, x.isOk)] := by
    simpa [wiring, Bool.and_eq_true] using hok
  have halone : ∀ k ≠ j, (p.threads k).sends = false :=
    fun k hk => Bool.eq_false_iff.2 fun hsk => hk (unique hsk hsends)
  have hothers : ∀ e, ∀ k ≠ j, (links e).underway k ≠ none → p'.threads k = p.threads k := by
    intro e k hk hbusy
    rcases threads_step hs k with heq | hapart | ⟨hkj, -⟩
    · exact heq
    · exact absurd hapart (h.busy hbusy)
    · exact absurd hkj hk
  cases hm with
  | goes =>
    rw [hds] at hds'
    cases hds'
  | @ends _ _ y ok hlast hnext hunder hlog hfull =>
    have hmoves : (links c).Moves j (.pass t) u [(j, ok)] := .ends hlast hnext hunder hlog hfull
    have hother : ∀ d ≠ c, (links d).underway j = none := by
      intro d hd
      by_contra hj
      exact hd (h.one j d c hsends hj (by rw [hlast]; simp))
    have hclear : ∀ d, (Function.update links c u d).underway j = none := by
      intro d
      by_cases hd : d = c
      · rw [hd, Function.update_self]
        exact hnext
      · rw [Function.update_of_ne hd]
        exact hother d hd
    refine ⟨fun d => ?_, fun k d e hk hd he => ?_⟩
    · rw [frames_append, frames_of_quiet hquiet, List.append_nil]
      by_cases hd : d = c
      · subst hd
        rw [Function.update_self]
        exact (h.link d).returned hmoves hsends (hothers d) halone
      · rw [Function.update_of_ne hd]
        refine (h.link d).congr fun k hk => hothers d k ?_ hk
        rintro rfl
        exact hk (hother d hd)
    · have hkj : k ≠ j := by
        rintro rfl
        exact hd (hclear d)
      have hold : ∀ x, (Function.update links c u x).underway k ≠ none →
          (links x).underway k ≠ none := by
        intro x hx
        by_cases hxc : x = c
        · subst hxc
          rw [Function.update_self, hunder k hkj] at hx
          exact hx
        · rwa [Function.update_of_ne hxc] at hx
      rw [hothers d k hkj (hold d hd)] at hk
      exact h.one k d e hk (hold d hd) (hold e he)

end

section

variable {cfg : Config} {voiceId : Bytes} {clients : ℕ → WsClient}
  {acts : List (Lts.Joint (ℕ × Choice) (ℕ × ℕ × UplinkAct))} {p : Pool Shared Thread}
  {links : ℕ → TrtcAsr.Uplink} {tr : List (Event ⊕ (ℕ × ℕ × Bool))}

/-- A session before the first call, and connections on which nothing has been sent. -/
def wiredInitial (voiceId : Bytes) (clients : ℕ → WsClient) :
    Pool Shared Thread × (ℕ → TrtcAsr.Uplink) :=
  (initial voiceId, fun c => { client := clients c })

/-- The run of the session. -/
theorem session_run (h : (wired cfg).run (wiredInitial voiceId clients) acts = some ((p, links), tr)) :
    (session cfg).pool.run (initial voiceId) (acts.filterMap Lts.Joint.fst) = some (p, Lts.lefts tr) :=
  (Lts.sync_run h).1

/-- The run of a connection. -/
theorem link_run (h : (wired cfg).run (wiredInitial voiceId clients) acts = some ((p, links), tr))
    (c : ℕ) : Uplink.lts.run { client := clients c }
      (Lts.ofMember c (acts.filterMap Lts.Joint.snd)) =
        some (links c, Lts.ofMember c (Lts.rights tr)) :=
  Lts.family_run (Lts.sync_run h).2 c

theorem wired_run (h : (wired cfg).run (wiredInitial voiceId clients) acts = some ((p, links), tr)) :
    Wired (Lts.lefts tr) p links := by
  refine Lts.run_reachable (I := fun tr s => Wired (Lts.lefts tr) s.1 s.2) ?_ ?_ h
  · rintro as tr ⟨p, links⟩ j ⟨p', links'⟩ es hrun hw hs
    have hsession := session_run hrun
    have hsession' := session_run (Lts.run_snoc hrun hs)
    have unique : ∀ {i k}, (p.threads k).sends = true → (p.threads i).sends = true → k = i :=
      fun hk hi => sends_unique hsession hk hi
    have unique' : ∀ {i k}, (p'.threads k).sends = true → (p'.threads i).sends = true → k = i :=
      fun hk hi => sends_unique hsession' hk hi
    have moves : ∀ {c i act u bs}, Uplink.lts.step (links c) (i, act) = some (u, bs) →
        (links c).Moves i act u bs :=
      fun hu => (Uplink.step_moves (Uplink.run_finished (link_run hrun _)).1.held hu).2
    obtain ⟨ls, ds, hl, hr, hok, hles, hres⟩ := Lts.sync_step hs
    rw [Lts.lefts_append, hles]
    cases j with
    | left a =>
      cases hr
      exact hw.left hl hok
    | right b =>
      cases hl
      obtain ⟨c, i, act⟩ := b
      obtain ⟨u, bs, hu, rfl, hds⟩ := Lts.family_step hr
      rw [List.append_nil]
      exact hw.right (moves hu) hds hok
    | both a b =>
      obtain ⟨i, ch⟩ := a
      obtain ⟨c, j, act⟩ := b
      obtain ⟨u, bs, hu, rfl, hds⟩ := Lts.family_step hr
      cases act with
      | send kind payload key => exact hw.handed unique' hl (moves hu) hok
      | lock now after => cases ch <;> cases hok
      | pass t =>
        cases ch with
        | sent x => exact hw.returned unique hl (moves hu) hds hok
        | _ => cases hok
  · refine ⟨fun c => ⟨fun i bytes hi => ?_, fun i bytes hi => ?_, fun _ => ?_⟩, fun i c d hs => ?_⟩
    · cases hi
    · cases hi
    · exact ⟨fun x hx => absurd hx List.not_mem_nil, rfl⟩
    · cases hs

/-- What precedes a form of the uplink is one. -/
theorem isBody_prefix : ∀ {fs gs : List UplinkFrame}, fs <+: gs → isBody gs = true → isBody fs = true
  | [], _, _, _ => rfl
  | .start _ :: _, _, ⟨_, rfl⟩, h => by cases h
  | .audio _ :: fs, _, ⟨rest, rfl⟩, h =>
    show isBody fs = true from isBody_prefix (List.prefix_append fs rest) h
  | [.endSignal], _, _, _ => rfl
  | .endSignal :: _ :: _, _, ⟨_, rfl⟩, h => by cases h

theorem shape_prefix {v : Version} {fs gs : List UplinkFrame} (h : fs <+: gs) (hg : Shape v gs) :
    Shape v fs := by
  cases v with
  | v2 => exact isBody_prefix h hg
  | v3 =>
    cases fs with
    | nil => rfl
    | cons f fs =>
      obtain ⟨rest, rfl⟩ := h
      cases f with
      | start text => exact isBody_prefix (List.prefix_append fs rest) hg
      | audio data => cases hg
      | endSignal => cases hg

/-- The finished sends are of all frames but the one that a thread may have underway. -/
theorem Link.split {fs : List UplinkFrame} {c : ℕ} {threads : ℕ → Thread} {u : TrtcAsr.Uplink}
    (h : Link fs c threads u) : ∃ front pending, fs = front ++ pending ∧ pending.length ≤ 1 ∧
      Logged u front ∧ ((∀ i, (threads i).sends = false) → pending = []) ∧
      ∀ i bytes, u.underway i = some bytes → ∃ f, OnWire f bytes ∧
        (isData f = false ∨ pending.map UplinkFrame.frame = [f]) := by
  by_cases hdata : ∀ i, u.underway i ≠ none → (threads i).readsOn = some c
  · refine ⟨fs, [], (List.append_nil fs).symm, Nat.zero_le 1, h.rest hdata, fun _ => rfl, ?_⟩
    intro i bytes hi
    obtain ⟨f, hf, hpong⟩ := h.pong i bytes hi (hdata i (by rw [hi]; simp))
    exact ⟨f, hf, .inl hpong⟩
  · push Not at hdata
    obtain ⟨i, hbusy, hr⟩ := hdata
    obtain ⟨bytes, hi⟩ := Option.ne_none_iff_exists'.1 hbusy
    obtain ⟨hs, front, f, rfl, -, hlogged⟩ := h.data i bytes hi hr
    refine ⟨front, [f], rfl, le_rfl, hlogged, fun hno => ?_, fun j bytes' hj => ?_⟩
    · rw [hno i] at hs
      cases hs
    · by_cases hrj : (threads j).readsOn = some c
      · obtain ⟨g, hg, hpong⟩ := h.pong j bytes' hj hrj
        exact ⟨g, hg, .inl hpong⟩
      · obtain ⟨-, front', f', heq, hwire, -⟩ := h.data j bytes' hj hrj
        obtain ⟨-, hf⟩ := List.append_inj' heq rfl
        cases hf
        exact ⟨f.frame, hwire, .inr rfl⟩

/-- The sends, in the order in which they took the mutex, pongs apart, are of a first part of the
    frames. -/
theorem Link.sends {fs : List UplinkFrame} {c : ℕ} {threads : ℕ → Thread} {u : TrtcAsr.Uplink}
    (h : Link fs c threads u) (hheld : u.Held) : (∀ x ∈ u.sends, x.Framed) ∧
      (u.sends.filterMap Sent.read).filter isData <+: fs.map UplinkFrame.frame := by
  obtain ⟨front, pending, rfl, -, ⟨hframed, hread⟩, -, hunder⟩ := h.split
  rw [List.map_append]
  cases hh : u.holder with
  | none =>
    rw [Uplink.sends_of_none hh, hread]
    exact ⟨hframed, List.prefix_append _ _⟩
  | some hold =>
    have hwriting : u.pc hold.tid = .writing := (hheld _).2 ⟨hold, hh, rfl⟩
    obtain ⟨f, hf, hdata⟩ := hunder hold.tid hold.frame (by simp [Uplink.underway, hwriting, hh])
    have hf' : OnWire f hold.sent.frame := hf
    rw [Uplink.sends_of_some hh, List.filterMap_append, List.filter_append, hread,
      List.filterMap_cons_some (Sent.read_of_onWire hf')]
    refine ⟨List.forall_mem_append.2 ⟨hframed, ?_⟩, ?_⟩
    · intro x hx
      obtain rfl := List.mem_singleton.1 hx
      exact ⟨f, hf'⟩
    · refine (List.prefix_append_right_inj _).2 ?_
      by_cases hd : isData f = true
      · rw [hdata.resolve_left (by simp [hd])]
        simp [hd]
      · simp [hd]

/-- **What the server reads of a session.** -/
theorem server_reads (cfg : Config) (voiceId : Bytes) (clients : ℕ → WsClient)
    {acts : List (Lts.Joint (ℕ × Choice) (ℕ × ℕ × UplinkAct))} {p : Pool Shared Thread}
    {links : ℕ → TrtcAsr.Uplink} {tr : List (Event ⊕ (ℕ × ℕ × Bool))}
    (h : (wired cfg).run (wiredInitial voiceId clients) acts = some ((p, links), tr)) (c : ℕ) :
    ∃ stream, (links c).client.tx = (clients c).tx ++ stream ∧
      ((∀ i, (c, i, false) ∉ Lts.rights tr) → ∃ fs pending,
        frames c (Lts.lefts tr) = fs ++ pending ∧ pending.length ≤ 1 ∧
        ((∀ i, (p.threads i).sends = false) → pending = []) ∧ Shape cfg.version fs ∧
        (Rfc6455.decodeAll stream).filter isData = fs.map UplinkFrame.frame) ∧
      ((links c).Intact → ((Rfc6455.decodeAll stream).filter isData).Sublist
        ((frames c (Lts.lefts tr)).map UplinkFrame.frame)) := by
  have hlink := (wired_run h).link c
  obtain ⟨hfin, hsound⟩ := Uplink.run_finished (link_run h c)
  obtain ⟨hframed, hpre⟩ := hlink.sends hfin.held
  refine ⟨_, hsound.tx, fun hok => ?_, fun hintact => ?_⟩
  · obtain ⟨fs, pending, hfs, hlen, hlogged, hquiet, -⟩ := hlink.split
    have hwhole := hfin.whole fun i hi => hok i (Lts.mem_ofMember.1 hi)
    obtain ⟨stream, htx, hread⟩ := Uplink.read_whole hsound hframed hwhole
    have hshape : Shape cfg.version (frames c (Lts.lefts tr)) := by
      refine shape_of_causal ?_ c
      exact ((uplink cfg).run ⟨lifecycle_initial voiceId, uplink_initial cfg.version voiceId⟩
        (fun i => ⟨owns_initial voiceId i, by intro pc hpc; cases hpc⟩) (session_run h)).1.2.causal
    refine ⟨fs, pending, hfs, hlen, hquiet, shape_prefix ⟨pending, hfs.symm⟩ hshape, ?_⟩
    rw [← List.append_cancel_left (hsound.tx.symm.trans htx)] at hread
    rw [hread]
    exact hlogged.2
  · obtain ⟨stream, htx, hread⟩ := Uplink.read_intact hsound hframed hintact
    rw [← List.append_cancel_left (hsound.tx.symm.trans htx)] at hread
    exact (hread.filter _).trans hpre.sublist

end

/-- A pass that writes all that is left. -/
def sampleTick : Tick := { now := 1, after := 1, poll := .ready, send := .sent 99 }

/-- A v3 session that answers a ping while it waits for the acknowledgement, and another one while
    a `Write` waits for the mutex. -/
def sampleDelivery : List (Lts.Joint (ℕ × Choice) (ℕ × ℕ × UplinkAct)) :=
  [.left (0, .enter .start), .left (0, .go), .left (0, .validated (.ok ())),
    .left (0, .dialed [0x61] (.ok [0x73])),
    .both (0, .go) (0, 0, .send .text [0x73] #v[0, 0, 0, 0]), .right (0, 0, .lock 0 0),
    .both (0, .sent (.ok ())) (0, 0, .pass sampleTick), .left (0, .go),
    .right (0, 0, .send (.pong 500) [0x21] #v[0, 0, 0, 0]), .right (0, 0, .lock 0 0),
    .right (0, 0, .pass sampleTick), .left (0, .read (.frame 0x1 sampleAck)), .left (0, .go),
    .left (0, .go), .left (0, .spawn 1), .left (1, .go), .left (1, .go), .left (1, .returns),
    .left (1, .go), .left (2, .enter (.write (.bytes [0x70]))), .left (2, .go), .left (2, .go),
    .left (2, .go), .left (2, .go), .left (2, .go),
    .both (2, .go) (0, 2, .send .binary [0x70] #v[0, 0, 0, 0]),
    .right (0, 1, .send (.pong 500) [] #v[0, 0, 0, 0]), .right (0, 1, .lock 0 0),
    .right (0, 1, .pass sampleTick), .right (0, 2, .lock 0 0),
    .both (2, .sent (.ok ())) (0, 2, .pass sampleTick)]

theorem server_reads_session : ∃ p links tr stream fs pending,
    (wired sampleConfig).run (wiredInitial [] fun _ => { tls := false, rx := [] }) sampleDelivery =
        some ((p, links), tr) ∧
      (links 0).client.tx = stream ∧ fs ++ pending = [.start [0x73], .audio [0x70]] ∧
      (Rfc6455.decodeAll stream).filter isData = fs.map UplinkFrame.frame := by
  have run : ∃ p links tr,
      (wired sampleConfig).run (wiredInitial [] fun _ => { tls := false, rx := [] }) sampleDelivery =
          some ((p, links), tr) ∧
        frames 0 (Lts.lefts tr) = [.start [0x73], .audio [0x70]] ∧
        (Lts.rights tr).all fun e => e.2.2 := ⟨_, _, _, rfl, rfl, rfl⟩
  obtain ⟨p, links, tr, hrun, hframes, hall⟩ := run
  obtain ⟨stream, htx, hread, -⟩ := server_reads sampleConfig [] _ hrun 0
  obtain ⟨fs, pending, hfs, -, -, -, hdata⟩ := hread fun i hi => by
    have := List.all_eq_true.1 hall _ hi
    cases this
  exact ⟨p, links, tr, stream, fs, pending, hrun, htx, hfs.symm.trans hframes, hdata⟩

end TrtcAsr.Speech
