/-
  One `Start` of a v3 session (v3.cc, `Start` and `Connect`) from its options to its end, and
  what it leaves behind when it fails.

  * `start`: the whole call, given what the network and the clock do.
  * `start_runs`: the steps that the session takes for it.
  * `start_leaves_nothing_iff`: a `Start` that fails throws an `ASRError`, in the idle state and
    without a connection, exactly when the library can write the start frame and the typed
    accesses to the acknowledgement succeed.
-/
import TrtcAsr.Speech.Session
import TrtcAsr.V3.Handshake

namespace TrtcAsr.V3

open TrtcAsr.Speech

/-- In milliseconds. -/
def kAckTimeout : ℕ := 5000
def kSpeakerContextAckTimeout : ℕ := 15000

/-- What a `Start` meets: the random bytes and the time of the UserSig, the dial, the send of the
    start frame, and what each `Read` returns after how long. -/
structure StartEnv where
  uuid : Vector UInt8 16
  time : ℤ
  dial : Bytes → Except Bytes Unit
  send : Bytes → Except Bytes Unit
  reads : List (ℕ × ReadOutcome)

/-- How a `Start`, or a part of it, ends. -/
structure Attempt where
  sh : Shared
  result : Except Exn Unit
  events : List EventKind

namespace SpeechOptions

def ackTimeout (o : SpeechOptions) : ℕ :=
  if o.enableSpeakerContext = kSpeakerContextSync ∧ o.speakerContextId ≠ [] then
    kSpeakerContextAckTimeout
  else kAckTimeout

/-- The loop of `Connect` that waits for the acknowledgement, at time `now`, and the time when it
    ends; `none` while it waits for another `Read`. -/
def awaitAck (deps : Deps) (deadline now : ℕ) : List (ℕ × ReadOutcome) → Option (ℕ × Ack)
  | [] => none
  | (d, .timeout) :: reads =>
    if deadline ≤ now + d then
      some (now + d, .close (connectFailed (ascii "read start ack failed: ack timeout")))
    else awaitAck deps deadline (now + d) reads
  | (d, .error what) :: _ =>
    some (now + d, .close (connectFailed (ascii "read start ack failed" ++
      if what = [] then [] else ascii ": " ++ what)))
  | (d, .frame opcode payload) :: reads =>
    if opcode = 0x8 then
      some (now + d, .close (connectFailed
        (ascii "read start ack failed: connection closed by server")))
    else if opcode ≠ 0x1 then awaitAck deps deadline (now + d) reads
    else some (now + d, parseAck deps payload)

/-- `Connect` after the start frame has been sent on the connection `c`. -/
def acknowledge (deps : Deps) (o : SpeechOptions) (env : StartEnv) (sh : Shared) (c : ℕ) :
    Option Attempt :=
  let sh := { sh with conn := some c }
  match awaitAck deps (sh.now + o.ackTimeout) sh.now env.reads with
  | none => none
  | some (now, ack) =>
    let sh := { sh with now := now }
    some <| match ack with
    | .close e => { sh := sh.close.1, result := .error e, events := sh.close.2 }
    | .escape e => { sh, result := .error (.json e), events := [] }
    | .ok speakerContinue =>
      { sh := { sh with speakerContinue := speakerContinue.or sh.speakerContinue }
        result := .ok (), events := [.acked c] }

/-- `Connect`. -/
def connect (deps : Deps) (o : SpeechOptions) (env : StartEnv) (sh : Shared) : Option Attempt :=
  let sh := { sh with voiceId := o.sessionId env.uuid }
  match o.prepare deps env.uuid env.time with
  | .error e => some { sh, result := .error e, events := [] }
  | .ok prepared =>
    match env.dial prepared.wsUrl with
    | .error err =>
      some { sh, result := .error (.asr ⟨kErrConnectFailed, ascii "websocket dial failed: " ++ err⟩)
             events := [] }
    | .ok _ =>
      let c := sh.dialed
      let sh := { sh with dialed := c + 1 }
      let sent := .sent c (.start prepared.startFrame)
      match env.send prepared.startFrame with
      | .error err =>
        some { sh, result := .error (.asr ⟨kErrWriteFailed,
                 ascii "send start frame failed: " ++ err⟩)
               events := [sent, .closed c] }
      | .ok _ =>
        (o.acknowledge deps env sh c).map fun a => { a with events := sent :: a.events }

/-- `Start`, up to the creation of the reader thread. -/
def start (deps : Deps) (o : SpeechOptions) (env : StartEnv) (stopTimeout : ℕ) (sh : Shared) :
    Option Attempt :=
  if sh.state ≠ .idle then
    let e := .asr ⟨kErrAlreadyStarted, ascii "recognizer already started"⟩
    some { sh, result := .error e, events := [.threw .start e] }
  else
    let sh := { sh with state := .starting }
    let failed (a : Attempt) (e : Exn) : Attempt :=
      { sh := { a.sh with state := .idle }, result := .error e
        events := .starting :: a.events ++ [.startFailed, .threw .start e] }
    match o.validateOptions with
    | .error e => some (failed { sh, result := .ok (), events := [] } (.asr e))
    | .ok _ =>
      (o.connect deps env sh).map fun a =>
        match a.result with
        | .error e => failed a e
        | .ok _ =>
          { sh := { a.sh with state := .running, stopTimeout := stopTimeout }, result := .ok ()
            events := .starting :: a.events ++ [.running sh.dialed] }

/-! ## The steps of the session -/

section

variable {cfg : Config} {i : ℕ} {sh sh' sh'' : Shared} {pc pc' : CallPc} {next : Option CallPc}
  {es es' : List EventKind}

/-- Thread `i` alone gets from one point of its call to another, or to its end. -/
def Goes (cfg : Config) (i : ℕ) (sh : Shared) (pc : CallPc) (es : List EventKind) (sh' : Shared)
    (next : Option CallPc) : Prop :=
  ∀ p : Pool Shared Thread, p.shared = sh → (p.threads i).call = some pc →
    ∃ acts p', (session cfg).pool.run p acts = some (p', es.map (i, ·)) ∧ p'.shared = sh' ∧
      (p'.threads i).call = next

theorem Goes.trans (h : Goes cfg i sh pc es sh' (some pc')) (h' : Goes cfg i sh' pc' es' sh'' next) :
    Goes cfg i sh pc (es ++ es') sh'' next := by
  intro p hsh hpc
  obtain ⟨acts, p₁, hrun, hsh₁, hpc₁⟩ := h p hsh hpc
  obtain ⟨acts', p₂, hrun', hsh₂, hpc₂⟩ := h' p₁ hsh₁ hpc₁
  refine ⟨acts ++ acts', p₂, ?_, hsh₂, hpc₂⟩
  rw [List.map_append]
  exact Lts.run_append hrun hrun'

theorem goes_step {ch : Choice} {r : CallResult} (hch : ∀ d, ch ≠ .tick d)
    (h : callStep cfg i sh pc ch = some r) (hs : r.spawned = none) :
    Goes cfg i sh pc r.events r.sh r.call := by
  rintro p rfl hpc
  let t : Thread := { p.threads i with call := r.call }
  let p' : Pool Shared Thread := { shared := r.sh, threads := Function.update p.threads i t }
  have hthread : threadStep cfg i p.shared (p.threads i) ch = some
      { shared := r.sh, next := t, events := r.events.map (i, ·) } := by
    unfold threadStep
    split
    · exact absurd rfl (hch _)
    · simp only [hpc, h, hs, Option.map_some, t]
  have hstep : (session cfg).pool.step p (i, ch) = some (p', r.events.map (i, ·)) := by
    simp only [Threads.pool, Threads.poolStep, session, hthread, p']
  refine ⟨[(i, ch)], p', ?_, rfl, ?_⟩
  · rw [← List.append_nil (r.events.map (i, ·))]
    exact Lts.run_cons_of hstep rfl
  · exact congrArg Thread.call (Function.update_self i t p.threads)

theorem goes_tick (d : ℕ) : Goes cfg i sh pc [] { sh with now := sh.now + d } (some pc) := by
  rintro p rfl hpc
  refine ⟨[(i, .tick d)], _, rfl, rfl, ?_⟩
  simpa using hpc

/-- One step of `Start`. -/
theorem goes_of {pc : StartPc} (ch : Choice) (hch : ∀ d, ch ≠ .tick d)
    (h : startStep cfg sh pc ch = some { sh := sh', call := next, events := es }) :
    Goes cfg i sh (.start pc) es sh' next := by
  have hcall : callStep cfg i sh (.start pc) ch = some { sh := sh', call := next, events := es } := h
  exact goes_step hch hcall rfl

theorem goes_close {e : Exn} :
    Goes cfg i sh (.start (.close e)) sh.close.2 sh.close.1 (some (.start (.fail e))) :=
  goes_of .go (by simp) rfl

theorem goes_fail {e : Exn} :
    Goes cfg i sh (.start (.fail e)) [.startFailed, .threw .start e] { sh with state := .idle } none :=
  goes_of .go (by simp) rfl

/-- How the loop goes on after its last `Read`. -/
def afterAck (c : ℕ) (sh : Shared) : Ack → CallResult
  | .close e => { sh, call := some (.start (.close e)) }
  | .escape e => { sh, call := some (.start (.fail (.json e))) }
  | .ok speakerContinue =>
    { sh := { sh with speakerContinue := speakerContinue.or sh.speakerContinue }
      call := some (.start (.run c)), events := [.acked c] }

theorem goes_ack {c deadline : ℕ} {reads : List (ℕ × ReadOutcome)} {t : ℕ} {ack : Ack} :
    ∀ {sh : Shared}, awaitAck cfg.deps deadline sh.now reads = some (t, ack) →
      Goes cfg i sh (.start (.ack c deadline)) (afterAck c { sh with now := t } ack).events
        (afterAck c { sh with now := t } ack).sh (afterAck c { sh with now := t } ack).call := by
  induction reads with
  | nil =>
    intro sh h
    cases h
  | cons r reads ih =>
    obtain ⟨d, r⟩ := r
    intro sh h
    have step : ∀ {r : CallResult} (read : ReadOutcome), r.spawned = none →
        startStep cfg { sh with now := sh.now + d } (.ack c deadline) (.read read) = some r →
        Goes cfg i sh (.start (.ack c deadline)) r.events r.sh r.call :=
      fun _ hs hr => (goes_tick d).trans (goes_step (by nofun) hr hs)
    -- a read after which the loop reads again
    have again : ∀ read, awaitAck cfg.deps deadline (sh.now + d) reads = some (t, ack) →
        startStep cfg { sh with now := sh.now + d } (.ack c deadline) (.read read) =
          some { sh := { sh with now := sh.now + d }, call := some (.start (.ack c deadline)) } →
        Goes cfg i sh (.start (.ack c deadline)) (afterAck c { sh with now := t } ack).events
          (afterAck c { sh with now := t } ack).sh (afterAck c { sh with now := t } ack).call :=
      fun read hrest hr => (step read rfl hr).trans (ih hrest)
    cases r with
    | timeout =>
      unfold awaitAck at h
      split at h
      · rename_i hlate
        cases h
        exact step .timeout rfl (by simp only [startStep, if_pos hlate]; rfl)
      · rename_i hearly
        exact again .timeout h (by simp only [startStep, if_neg hearly])
    | error what =>
      cases h
      exact step (.error what) rfl rfl
    | frame opcode payload =>
      unfold awaitAck at h
      split at h
      · rename_i hclose
        cases h
        exact step (.frame opcode payload) rfl (by simp only [startStep, if_pos hclose]; rfl)
      rename_i hclose
      split at h
      · rename_i hskip
        exact again (.frame opcode payload) h (by simp only [startStep, if_neg hclose, if_pos hskip])
      · rename_i htext
        cases h
        have hr : startStep cfg { sh with now := sh.now + d } (.ack c deadline)
            (.read (.frame opcode payload)) =
              some (afterAck c { sh with now := sh.now + d } (parseAck cfg.deps payload)) := by
          simp only [startStep, if_neg hclose, if_neg htext]
          cases parseAck cfg.deps payload <;> rfl
        refine step _ ?_ hr
        cases parseAck cfg.deps payload <;> rfl

/-- Where `Start` goes on after `Connect` on the connection `c`. -/
def afterConnect (c : ℕ) : Except Exn Unit → StartPc
  | .ok _ => .run c
  | .error e => .fail e

theorem goes_acknowledge {o : SpeechOptions} {env : StartEnv} {c : ℕ} {a : Attempt}
    (hversion : cfg.version = .v3) (hack : cfg.ackTimeout = o.ackTimeout)
    (h : o.acknowledge cfg.deps env sh c = some a) :
    Goes cfg i sh (.start (.publish c)) a.events a.sh (some (.start (afterConnect c a.result))) := by
  unfold acknowledge at h
  dsimp only at h
  split at h
  · cases h
  rename_i now ack hw
  cases h
  have hpublish : Goes cfg i sh (.start (.publish c)) [] { sh with conn := some c }
      (some (.start (.ack c (sh.now + o.ackTimeout)))) := by
    have hr : startStep cfg sh (.publish c) .go = some { sh := { sh with conn := some c }
                                                         call := some (.start (.ack c
                                                           (sh.now + o.ackTimeout))) } := by
      simp only [startStep, hversion, hack]
    exact goes_of .go (by simp) hr
  have hloop := hpublish.trans (goes_ack hw)
  cases ack with
  | close e => exact hloop.trans goes_close
  | escape e => exact hloop
  | ok sc => exact hloop

theorem goes_connect {o : SpeechOptions} {env : StartEnv} {a : Attempt}
    (hversion : cfg.version = .v3) (hack : cfg.ackTimeout = o.ackTimeout)
    (hid : sh.voiceId = o.voiceId) (h : o.connect cfg.deps env sh = some a) :
    Goes cfg i sh (.start .connect) a.events a.sh
      (some (.start (afterConnect sh.dialed a.result))) := by
  have hvoice : (if sh.voiceId = [] then generateUuid env.uuid else sh.voiceId) =
      o.sessionId env.uuid := by
    rw [hid]
    rfl
  have failed : ∀ e, Goes cfg i sh (.start .connect) [] { sh with voiceId := o.sessionId env.uuid }
      (some (.start (.fail e))) := by
    intro e
    have hr : startStep cfg sh .connect (.dialed (generateUuid env.uuid) (.error e)) =
        some { sh := { sh with voiceId := o.sessionId env.uuid }
               call := some (.start (.fail e)) } := by
      simp only [startStep, hvoice]
    exact goes_of (.dialed (generateUuid env.uuid) (.error e)) (by simp) hr
  unfold connect at h
  dsimp only at h
  split at h
  · cases h
    exact failed _
  rename_i prepared hp
  split at h
  · cases h
    exact failed _
  have hdial : Goes cfg i sh (.start .connect) [.sent sh.dialed (.start prepared.startFrame)]
      { sh with voiceId := o.sessionId env.uuid, dialed := sh.dialed + 1 }
      (some (.start (.sent sh.dialed))) := by
    have hr : startStep cfg sh .connect (.dialed (generateUuid env.uuid) (.ok prepared.startFrame)) =
        some { sh := { sh with voiceId := o.sessionId env.uuid, dialed := sh.dialed + 1 }
               call := some (.start (.send sh.dialed prepared.startFrame)) } := by
      simp only [startStep, hvoice, hversion]
    exact (goes_of (.dialed _ (.ok _)) (by simp) hr).trans (goes_of .go (by simp) rfl)
  split at h
  · rename_i err _
    cases h
    have hsent := hdial.trans (goes_of (.sent (.error err)) (by simp) rfl)
    exact hsent.trans (goes_of .go (by simp) rfl)
  · obtain ⟨b, hb, rfl⟩ := Option.map_eq_some_iff.1 h
    have hsent := hdial.trans (goes_of (.sent (.ok ())) (by simp) rfl)
    exact hsent.trans (goes_acknowledge hversion hack hb)

theorem goes_start {o : SpeechOptions} {env : StartEnv} {a : Attempt}
    (hversion : cfg.version = .v3) (hack : cfg.ackTimeout = o.ackTimeout)
    (hid : sh.voiceId = o.voiceId) (h : o.start cfg.deps env cfg.stopTimeout sh = some a) :
    Goes cfg i sh (.start .cas) a.events a.sh (match a.result with
      | .ok _ => some (.start .spawn)
      | .error _ => none) := by
  unfold start at h
  split at h
  · rename_i hbusy
    cases h
    have hr : startStep cfg sh .cas .go = some { sh, call := none, events := [.threw .start (.asr
        ⟨kErrAlreadyStarted, ascii "recognizer already started"⟩)] } := by
      simp only [startStep, if_neg hbusy]
    exact goes_of .go (by simp) hr
  rename_i hidle
  have hcas : Goes cfg i sh (.start .cas) [.starting] { sh with state := .starting }
      (some (.start .validate)) := by
    have hr : startStep cfg sh .cas .go = some { sh := { sh with state := .starting }
                                                 call := some (.start .validate)
                                                 events := [.starting] } := by
      simp only [startStep, if_pos (not_not.1 hidle)]
    exact goes_of .go (by simp) hr
  dsimp only at h
  split at h
  · rename_i e _
    cases h
    exact (hcas.trans (goes_of (.validated (.error e)) (by simp) rfl)).trans goes_fail
  · obtain ⟨b, hb, rfl⟩ := Option.map_eq_some_iff.1 h
    have hvalid := hcas.trans (goes_of (.validated (.ok ())) (by simp) rfl)
    have hconnect := hvalid.trans (goes_connect hversion hack hid hb)
    cases hr : b.result with
    | error e =>
      rw [hr] at hconnect
      exact hconnect.trans goes_fail
    | ok u =>
      rw [hr] at hconnect
      have hrun := hconnect.trans (goes_of .go (by simp) rfl)
      have htimeout := hrun.trans (goes_of .go (by simp) rfl)
      rw [List.append_nil, List.append_nil] at htimeout
      exact htimeout

end

/-- **The session takes the steps of `start`**: from a thread in no call, `Start` leads to the
    state and the events of `start`; when it has not failed, the creation of the reader thread is
    left. -/
theorem start_runs {cfg : Config} {o : SpeechOptions} {env : StartEnv} {a : Attempt}
    {i : ℕ} {p : Pool Shared Thread} (hversion : cfg.version = .v3)
    (hack : cfg.ackTimeout = o.ackTimeout) (hid : p.shared.voiceId = o.voiceId)
    (h : o.start cfg.deps env cfg.stopTimeout p.shared = some a) (hidle : p.threads i = {}) :
    ∃ acts p', (session cfg).pool.run p ((i, .enter .start) :: acts) =
        some (p', a.events.map (i, ·)) ∧ p'.shared = a.sh ∧
      (p'.threads i).call = match a.result with
        | .ok _ => some (.start .spawn)
        | .error _ => none := by
  let t : Thread := { call := some (.start .cas) }
  let p₁ : Pool Shared Thread := { p with threads := Function.update p.threads i t }
  have henter : (session cfg).pool.step p (i, .enter .start) = some (p₁, []) := by
    simp only [Threads.pool, Threads.poolStep, session, hidle]
    rfl
  obtain ⟨acts, p', hrun, hsh, hcall⟩ := goes_start hversion hack hid h p₁ rfl
    (congrArg Thread.call (Function.update_self i t p.threads))
  exact ⟨acts, p', Lts.run_cons_of henter hrun, hsh, hcall⟩

/-! ## The acknowledgement -/

/-- The typed accesses of `Connect` to the acknowledgement `ack` succeed. -/
structure TypedAck (ack : Json) : Prop where
  object : ack.isObject
  code : ack.Reads Json.getInt "code"
  message : ∀ code, ack.value Json.getInt "code" 0 = .ok code → code ≠ 0 →
    ack.Reads Json.getStr "message"
  speaker : ack.value Json.getInt "code" 0 = .ok 0 → ∀ sc, objectAt ack "speaker_continue" = some sc →
    sc.Reads Json.getStr "continue_status" ∧ sc.Reads Json.getStr "speaker_context_id"

/-- What the loop throws is an `ASRError`. -/
def Converts : Ack → Prop
  | .close e => Converges (.error e : Except Exn Unit)
  | .escape _ => False
  | .ok _ => True

theorem value_not_ok {α : Type} {get : Json → Option α} {j : Json} {k : String} {d : α}
    {e : JsonError} (h : j.value get k d = .error e) : ¬ (j.isObject ∧ j.Reads get k) := by
  rw [← Json.value_ok_iff (d := d), h]
  exact fun ⟨_, h⟩ => nomatch h

theorem parseSpeakerContinue_ok_iff {sc : Json} (hobj : sc.isObject) :
    (∃ c, parseSpeakerContinue sc = .ok c) ↔
      sc.Reads Json.getStr "continue_status" ∧ sc.Reads Json.getStr "speaker_context_id" := by
  unfold parseSpeakerContinue
  constructor
  · rintro ⟨c, h⟩
    obtain ⟨status, hstatus, h⟩ := bind_eq_ok.1 h
    obtain ⟨id, hid, -⟩ := bind_eq_ok.1 h
    exact ⟨(Json.value_ok_iff.1 ⟨_, hstatus⟩).2, (Json.value_ok_iff.1 ⟨_, hid⟩).2⟩
  · rintro ⟨hstatus, hid⟩
    obtain ⟨status, hstatus⟩ := (Json.value_ok_iff (d := [])).2 ⟨hobj, hstatus⟩
    obtain ⟨id, hid⟩ := (Json.value_ok_iff (d := [])).2 ⟨hobj, hid⟩
    exact ⟨_, bind_eq_ok.2 ⟨status, hstatus, bind_eq_ok.2 ⟨id, hid, rfl⟩⟩⟩

theorem parseAck_converts_iff {deps : Deps} {payload : Bytes} :
    Converts (parseAck deps payload) ↔ ∀ ack, deps.parse payload = .ok ack → TypedAck ack := by
  unfold parseAck
  cases hparse : deps.parse payload with
  | error what => exact iff_of_true trivial (by simp)
  | ok ack =>
    have hall : ∀ P : Json → Prop, (∀ a, (Except.ok ack : Except Bytes Json) = .ok a → P a) ↔ P ack :=
      fun P => ⟨fun h => h ack rfl, by rintro h _ ⟨⟩; exact h⟩
    rw [hall]
    dsimp only
    cases hcode : ack.value Json.getInt "code" 0 with
    | error e =>
      exact iff_of_false id fun h => value_not_ok hcode ⟨h.object, h.code⟩
    | ok code =>
      obtain ⟨hobj, hreads⟩ := Json.value_ok_iff.1 ⟨_, hcode⟩
      by_cases hc : code = 0
      · subst hc
        simp only [ne_eq, not_true_eq_false, if_false]
        unfold parseObjectAt
        cases hsc : objectAt ack "speaker_continue" with
        | none =>
          refine iff_of_true trivial ⟨hobj, hreads, fun c hc hne => ?_, fun _ sc h => ?_⟩
          · rw [hcode] at hc; cases hc; exact absurd rfl hne
          · rw [hsc] at h; cases h
        | some sc =>
          have hscobj : sc.isObject := by
            obtain ⟨-, h⟩ := Option.filter_eq_some_iff.1 hsc
            exact h
          dsimp only
          cases hp : parseSpeakerContinue sc with
          | error e =>
            refine iff_of_false id fun h => ?_
            obtain ⟨c, hc⟩ := (parseSpeakerContinue_ok_iff hscobj).2 (h.speaker hcode sc hsc)
            rw [hp] at hc; cases hc
          | ok c =>
            refine iff_of_true trivial ⟨hobj, hreads, fun c hc hne => ?_, fun _ sc' h => ?_⟩
            · rw [hcode] at hc; cases hc; exact absurd rfl hne
            · rw [hsc] at h; cases h
              exact (parseSpeakerContinue_ok_iff hscobj).1 ⟨c, hp⟩
      · dsimp only
        rw [if_pos hc]
        cases hm : ack.value Json.getStr "message" [] with
        | error e =>
          exact iff_of_false id fun h => value_not_ok hm ⟨hobj, h.message code hcode hc⟩
        | ok message =>
          refine iff_of_true trivial ⟨hobj, hreads, fun _ _ _ => (Json.value_ok_iff.1 ⟨_, hm⟩).2, ?_⟩
          intro h0
          rw [hcode] at h0; cases h0; exact absurd rfl hc

/-- The text frame that ends the loop of `Connect`, if one does. -/
def ackFrame (deadline now : ℕ) : List (ℕ × ReadOutcome) → Option Bytes
  | [] => none
  | (d, .timeout) :: reads =>
    if deadline ≤ now + d then none else ackFrame deadline (now + d) reads
  | (_, .error _) :: _ => none
  | (d, .frame opcode payload) :: reads =>
    if opcode = 0x8 then none
    else if opcode ≠ 0x1 then ackFrame deadline (now + d) reads
    else some payload

theorem awaitAck_converts_iff {deps : Deps} {deadline : ℕ} {reads : List (ℕ × ReadOutcome)} :
    ∀ {now : ℕ} {t : ℕ} {ack : Ack}, awaitAck deps deadline now reads = some (t, ack) →
      (Converts ack ↔ ∀ payload j, ackFrame deadline now reads = some payload →
        deps.parse payload = .ok j → TypedAck j) := by
  induction reads with
  | nil => exact nofun
  | cons r reads ih =>
    obtain ⟨d, r⟩ := r
    intro now t ack h
    cases r with
    | timeout =>
      unfold awaitAck at h
      unfold ackFrame
      split at h
      · rename_i hlate
        cases h
        rw [if_pos hlate]
        exact iff_of_true trivial (by simp)
      · rename_i hearly
        rw [if_neg hearly]
        exact ih h
    | error what =>
      cases h
      exact iff_of_true trivial nofun
    | frame opcode payload =>
      unfold awaitAck at h
      unfold ackFrame
      split at h
      · rename_i hclose
        cases h
        rw [if_pos hclose]
        exact iff_of_true trivial (by simp)
      rename_i hclose
      rw [if_neg hclose]
      split at h
      · rename_i hskip
        rw [if_pos hskip]
        exact ih h
      · rename_i htext
        cases h
        rw [if_neg htext, parseAck_converts_iff]
        exact ⟨by rintro h _ j ⟨⟩; exact h j, fun h j => h payload j rfl⟩

/-! ## What a failed Start leaves -/

/-- A failed `Start` in the state `sh`: an `ASRError`, the idle state, no connection, and what was
    dialed is closed; all but the id of the session, the number of dials and the clock is as
    before. -/
structure LeavesNothing (sh : Shared) (a : Attempt) : Prop where
  converges : Converges a.result
  idle : a.sh.state = .idle
  conn : a.sh.conn = none
  closed : ∀ c, sh.dialed ≤ c → c < a.sh.dialed → .closed c ∈ a.events
  fresh : ∃ voiceId dialed now, a.sh = { sh with voiceId, dialed, now }

/-- The library can write the start frame, and it finds the types that `Connect` asks for in the
    acknowledgement, where `Start` gets so far. -/
structure Tame (deps : Deps) (o : SpeechOptions) (env : StartEnv) (now : ℕ) : Prop where
  writes : o.validateOptions = .ok () →
    ∀ userSig, resolveUserSig deps o.credential (o.sessionId env.uuid) env.time = .ok userSig →
      ∃ text, deps.dump (o.startFrame (o.sessionId env.uuid) userSig) = .ok text
  typed : o.validateOptions = .ok () →
    ∀ prepared, o.prepare deps env.uuid env.time = .ok prepared →
      env.dial prepared.wsUrl = .ok () → env.send prepared.startFrame = .ok () →
      ∀ payload ack, ackFrame (now + o.ackTimeout) now env.reads = some payload →
        deps.parse payload = .ok ack → TypedAck ack

theorem prepare_converges_iff {deps : Deps} {o : SpeechOptions} {uuid : Vector UInt8 16}
    {time : ℤ} :
    Converges (o.prepare deps uuid time) ↔
      ∀ userSig, resolveUserSig deps o.credential (o.sessionId uuid) time = .ok userSig →
        ∃ text, deps.dump (o.startFrame (o.sessionId uuid) userSig) = .ok text := by
  unfold prepare
  simp only [converges_bind, converges_asr, converges_json, converges_pure, true_and,
    mapError_eq_ok, implies_true, and_true]

section

variable {deps : Deps} {o : SpeechOptions} {env : StartEnv} {sh : Shared} {a : Attempt} {c : ℕ}

/-- What `Connect` leaves when it fails, before `Start` stores the idle state. -/
structure Undone (sh : Shared) (a : Attempt) : Prop where
  conn : a.sh.conn = none
  closed : ∀ c, sh.dialed ≤ c → c < a.sh.dialed → .closed c ∈ a.events
  fresh : ∃ voiceId dialed now, a.sh = { sh with voiceId, dialed, now, conn := none }

theorem acknowledge_tame_iff {e : Exn} (h : o.acknowledge deps env sh c = some a)
    (he : a.result = .error e) :
    Converges a.result ∧ a.sh.conn = none ↔
      ∀ payload ack, ackFrame (sh.now + o.ackTimeout) sh.now env.reads = some payload →
        deps.parse payload = .ok ack → TypedAck ack := by
  unfold acknowledge at h
  dsimp only at h
  cases hw : awaitAck deps (sh.now + o.ackTimeout) sh.now env.reads with
  | none => rw [hw] at h; cases h
  | some r =>
    obtain ⟨t, ack⟩ := r
    rw [hw] at h
    rw [← awaitAck_converts_iff hw]
    cases ack with
    | close err =>
      cases h
      exact ⟨And.left, fun hc => ⟨hc, rfl⟩⟩
    | escape err =>
      cases h
      exact iff_of_false (fun hc => nomatch hc.2) id
    | ok sc =>
      cases h
      cases he

/-- A connection that has been closed. -/
theorem acknowledge_undone (h : o.acknowledge deps env sh c = some a) (hnone : a.sh.conn = none) :
    .closed c ∈ a.events ∧ ∃ now, a.sh = { sh with now, conn := none } := by
  unfold acknowledge at h
  dsimp only at h
  cases hw : awaitAck deps (sh.now + o.ackTimeout) sh.now env.reads with
  | none => rw [hw] at h; cases h
  | some r =>
    obtain ⟨t, ack⟩ := r
    rw [hw] at h
    cases ack with
    | close err =>
      cases h
      exact ⟨List.mem_singleton.2 rfl, t, rfl⟩
    | escape err => cases h; cases hnone
    | ok sc => cases h; cases hnone

/-- `Connect` fails before the connection is shared. -/
theorem undone_early {voiceId : Bytes} {result : Except Exn Unit} (hconn : sh.conn = none) :
    Undone sh { sh := { sh with voiceId }, result, events := [] } where
  conn := hconn
  closed _ h h' := absurd h' (Nat.not_lt.2 h)
  fresh := ⟨voiceId, sh.dialed, sh.now, by rw [← hconn]⟩

theorem connect_undone (hconn : sh.conn = none) (h : o.connect deps env sh = some a)
    (hnone : a.sh.conn = none) : Undone sh a := by
  unfold connect at h
  dsimp only at h
  split at h
  · cases h
    exact undone_early hconn
  split at h
  · cases h
    exact undone_early hconn
  split at h
  · cases h
    refine ⟨hconn, fun c hc hc' => ?_, o.sessionId env.uuid, sh.dialed + 1, sh.now, by rw [← hconn]⟩
    rw [Nat.le_antisymm (Nat.lt_succ_iff.1 hc') hc]
    simp
  · obtain ⟨b, hb, rfl⟩ := Option.map_eq_some_iff.1 h
    obtain ⟨hclosed, now, hsh⟩ := acknowledge_undone hb hnone
    have hdialed : b.sh.dialed = sh.dialed + 1 := by rw [hsh]
    refine ⟨hnone, fun c hc hc' => ?_, o.sessionId env.uuid, sh.dialed + 1, now, hsh⟩
    have hc' : c < b.sh.dialed := hc'
    rw [hdialed] at hc'
    rw [Nat.le_antisymm (Nat.lt_succ_iff.1 hc') hc]
    exact List.mem_cons_of_mem _ hclosed

theorem connect_tame_iff {e : Exn} (hv : o.validateOptions = .ok ()) (hconn : sh.conn = none)
    (h : o.connect deps env sh = some a) (he : a.result = .error e) :
    Converges a.result ∧ a.sh.conn = none ↔ Tame deps o env sh.now := by
  unfold connect at h
  dsimp only at h
  have hwrites : Converges (o.prepare deps env.uuid env.time) ↔ _ := prepare_converges_iff
  cases hp : o.prepare deps env.uuid env.time with
  | error err =>
    rw [hp] at h hwrites
    cases h
    rw [converges_error] at hwrites ⊢
    constructor
    · rintro ⟨hc, -⟩
      exact ⟨fun _ => hwrites.1 hc, fun _ _ hprep => nomatch hp.symm.trans hprep⟩
    · exact fun ht => ⟨hwrites.2 (ht.writes hv), hconn⟩
  | ok prepared =>
    rw [hp] at h hwrites
    dsimp only at h
    have hwrite := hwrites.1 trivial
    -- past the dial and the send, only the acknowledgement is left
    have early : (env.dial prepared.wsUrl = .ok () → env.send prepared.startFrame ≠ .ok ()) →
        Tame deps o env sh.now := by
      refine fun hno => ⟨fun _ => hwrite, fun _ prepared' hprep hd hs => ?_⟩
      cases hp.symm.trans hprep
      exact absurd hs (hno hd)
    cases hd : env.dial prepared.wsUrl with
    | error err =>
      rw [hd] at h
      cases h
      exact iff_of_true ⟨trivial, hconn⟩ (early fun hd' => nomatch hd.symm.trans hd')
    | ok u =>
      rw [hd] at h
      dsimp only at h
      cases hs : env.send prepared.startFrame with
      | error err =>
        rw [hs] at h
        cases h
        exact iff_of_true ⟨trivial, hconn⟩ (early fun _ hs' => nomatch hs.symm.trans hs')
      | ok u' =>
        rw [hs] at h
        obtain ⟨b, hb, rfl⟩ := Option.map_eq_some_iff.1 h
        have hack := acknowledge_tame_iff hb he
        constructor
        · exact fun hc => ⟨fun _ => hwrite, fun _ _ _ _ _ => hack.1 hc⟩
        · exact fun ht => hack.2 (ht.typed hv prepared hp hd hs)

end

/-- **A `Start` that fails leaves nothing behind**, exactly when the library can write the start
    frame and the acknowledgement has the types `Connect` asks for: it throws an `ASRError`, the
    state is idle again, and the connection is closed and forgotten. -/
theorem start_leaves_nothing_iff {deps : Deps} {o : SpeechOptions} {env : StartEnv}
    {stopTimeout : ℕ} {sh : Shared} {a : Attempt} {e : Exn} (hidle : sh.state = .idle)
    (hconn : sh.conn = none) (h : o.start deps env stopTimeout sh = some a)
    (he : a.result = .error e) : LeavesNothing sh a ↔ Tame deps o env sh.now := by
  unfold start at h
  rw [if_neg (not_not.2 hidle)] at h
  dsimp only at h
  cases hv : o.validateOptions with
  | error err =>
    rw [hv] at h
    cases h
    have hno : o.validateOptions ≠ .ok () := by
      rw [hv]
      simp
    refine iff_of_true ⟨trivial, rfl, hconn, fun c hc hc' => absurd hc' (Nat.not_lt.2 hc), sh.voiceId,
      sh.dialed, sh.now, ?_⟩ ⟨fun hv' => absurd hv' hno, fun hv' => absurd hv' hno⟩
    rw [← hidle]
  | ok u =>
    rw [hv] at h
    obtain ⟨b, hb, rfl⟩ := Option.map_eq_some_iff.1 h
    cases hr : b.result with
    | ok u' =>
      rw [hr] at he
      cases he
    | error err =>
      have htame := connect_tame_iff hv (by exact hconn) hb hr
      refine Iff.trans ?_ htame
      rw [hr] at he ⊢
      constructor
      · exact fun h => ⟨converges_error.2 (converges_error.1 h.converges), h.conn⟩
      · rintro ⟨hc, hnone⟩
        obtain ⟨-, hclosed, voiceId, dialed, now, hsh⟩ := connect_undone (by exact hconn) hb hnone
        refine ⟨converges_error.2 (converges_error.1 hc), rfl, hnone, fun c hc hc' => ?_, voiceId,
          dialed, now, ?_⟩
        · simp [hclosed c hc hc']
        · rw [hsh, ← hidle, ← hconn]

def sampleRejection : Bytes := ascii "\x7b\"code\":4002\x7d"

def sampleNoAck : Bytes := ascii "[]"

def sampleAckDeps : Deps :=
  sampleDeps [(sampleRejection, .obj [("code", .uint 4002)]), (sampleNoAck, .arr [])]

/-- A server that answers the start frame with `payload`. -/
def sampleEnv (payload : Bytes) : StartEnv where
  uuid := .replicate 16 0
  time := 0
  dial _ := .ok ()
  send _ := .ok ()
  reads := [(10, .frame 0x1 payload)]

theorem start_leaves_nothing_rejected :
    ∃ a, (sampleOptions (ascii "room")).start sampleAckDeps (sampleEnv sampleRejection) 10000 {} =
        some a ∧ a.result = .error (.asr ⟨4002, []⟩) ∧ LeavesNothing {} a := by
  have run : ∃ a, (sampleOptions (ascii "room")).start sampleAckDeps (sampleEnv sampleRejection)
      10000 {} = some a ∧ a.result = .error (.asr ⟨4002, []⟩) := ⟨_, rfl, rfl⟩
  obtain ⟨a, hstart, herr⟩ := run
  refine ⟨a, hstart, herr, (start_leaves_nothing_iff rfl rfl hstart herr).2
    ⟨fun _ _ _ => ⟨[], rfl⟩, fun _ _ _ _ _ payload ack hframe hparse => ?_⟩⟩
  cases hframe
  have hack : ack = .obj [("code", .uint 4002)] := by
    cases hparse
    rfl
  subst hack
  refine ⟨rfl, ?_, fun code _ _ v hv => ?_, fun hcode => ?_⟩
  · rintro _ ⟨⟩
    rfl
  · cases hv
  · cases hcode

/-- **An acknowledgement that is not an object**: the exception of the library leaves `Start`, and
    the connection stays. -/
theorem start_leaks :
    ∃ a, (sampleOptions (ascii "room")).start sampleAckDeps (sampleEnv sampleNoAck) 10000 {} =
        some a ∧ a.result = .error (.json (.typeError 306)) ∧ a.sh.conn = some 0 ∧
      ¬ LeavesNothing {} a := by
  have run : ∃ a, (sampleOptions (ascii "room")).start sampleAckDeps (sampleEnv sampleNoAck)
      10000 {} = some a ∧ a.result = .error (.json (.typeError 306)) ∧ a.sh.conn = some 0 :=
    ⟨_, rfl, rfl, rfl⟩
  obtain ⟨a, hstart, herr, hconn⟩ := run
  exact ⟨a, hstart, herr, hconn, fun h => nomatch hconn.symm.trans h.conn⟩

end SpeechOptions

end TrtcAsr.V3
