/-
  The two reader loops (speech_recognizer.cc and v3.cc, `ReadLoop`, `ReadLoopInner`,
  `DispatchEvent`, `SafeOnFail`, `SafeComplete`), each as its own file has it.

  A loop runs against what it observes, in order: the outcomes of `Read`, the values of
  `shared->state` that it loads, whether a callback returns or throws.  A run for finitely
  many observations is a beginning of every longer one; it is `waiting` where they end.

  * `Act`: the calls of the listener and what the loop does to the shared state, in order;
  * `read_loops_agree`: on the same observations both loops do the same and end alike, but
    for the speaker context of the response that is made up for `OnRecognitionStart`.
-/
import TrtcAsr.Lib.Relational
import TrtcAsr.Speech.Session

namespace TrtcAsr.Speech

/-- A call of the listener with its arguments. -/
inductive ListenerCall where
  | onRecognitionStart (resp : SpeechResponse)
  | onSentenceBegin (resp : SpeechResponse)
  | onRecognitionResultChange (resp : SpeechResponse)
  | onSentenceEnd (resp : SpeechResponse)
  | onRecognitionComplete (resp : SpeechResponse)
  | onFail (resp : Option SpeechResponse) (err : ASRError)
  deriving DecidableEq, Repr

inductive Act where
  | setReaderTid
  | listener (call : ListenerCall)
  | finish
  | markTerminalReceived
  | signalDone
  deriving DecidableEq, Repr

/-- Why a loop does not go on: an exception, with the text of a `std::exception`, or the end of
    what it observes. -/
inductive Halt where
  | thrown (what : Option Bytes)
  | waiting
  deriving DecidableEq, Repr

/-- What a loop is still to observe, what it has done, and the member `speaker_continue_`.  A
    callback without an outcome `none` throws. -/
structure World where
  states : List RunState
  outcomes : List (Option (Option Bytes))
  speakerContinue : Option SpeakerContinue
  acts : List Act := []
  deriving DecidableEq, Repr

abbrev LoopM := EStateM Halt World

/-! ## The statements of the loops -/

def act (a : Act) : LoopM Unit := change fun w => { w with acts := w.acts ++ [a] }

/-- `shared->state.load()`. -/
def loadState : LoopM RunState := fun w =>
  match w.states with
  | [] => .error .waiting w
  | state :: states => .ok state { w with states }

/-- A callback returns or throws. -/
def leaveCallback : LoopM Unit := fun w =>
  match w.outcomes with
  | [] => .error .waiting w
  | none :: outcomes => .ok () { w with outcomes }
  | some what :: outcomes => .error (.thrown what) { w with outcomes }

def callListener (call : ListenerCall) : LoopM Unit := do
  act (.listener call)
  leaveCallback

/-- `try { p } catch (...) {}`. -/
def swallow (p : LoopM Unit) : LoopM Unit :=
  handle p fun
    | .thrown _ => pure ()
    | .waiting => throw .waiting

def finish : LoopM Unit := act .finish

/-! ## v2 -/

namespace V2

def safeOnFail (resp : Option SpeechResponse) (err : ASRError) : LoopM Unit :=
  swallow (callListener (.onFail resp err))

def safeComplete (resp : SpeechResponse) : LoopM Unit :=
  swallow (callListener (.onRecognitionComplete resp))

def dispatchEvent (resp : SpeechResponse) : LoopM Unit :=
  if resp.finalFlag = 1 ∧ resp.result.sliceType ≠ 2 then pure ()
  else if resp.result.sliceType = 0 then callListener (.onSentenceBegin resp)
  else if resp.result.sliceType = 1 then callListener (.onRecognitionResultChange resp)
  else if resp.result.sliceType = 2 then callListener (.onSentenceEnd resp)
  else pure ()

/-- `if (resp.speaker_continue.has_value()) speaker_continue_ = resp.speaker_continue`. -/
def storeSpeaker (resp : SpeechResponse) : LoopM Unit :=
  change fun w =>
    if resp.speakerContinue.isSome then { w with speakerContinue := resp.speakerContinue } else w

/-- `while (true)`, over the outcomes of `Read`. -/
def loop (deps : Deps) : List ReadOutcome → LoopM Unit
  | [] => throw .waiting
  | .timeout :: reads => do
    if (← loadState) = .stopped then return else loop deps reads
  | .error readErr :: _ => do
    if (← loadState).isStopping then return
    else
      finish
      safeOnFail none ⟨kErrReadFailed,
        ascii "read message failed" ++ if readErr = [] then [] else ascii ": " ++ readErr⟩
  | .frame opcode payload :: reads =>
    if opcode = 0x2 then do
      safeOnFail none ⟨kErrReadFailed,
        ascii "unmarshal response failed: unexpected binary frame"⟩
      loop deps reads
    else if opcode = 0x8 then do
      if (← loadState).isStopping then return
      else
        finish
        safeOnFail none ⟨kErrReadFailed, ascii "connection closed by server"⟩
    else if opcode ≠ 0x1 then loop deps reads
    else
      match parseSpeechResponse deps payload with
      | .error e => do
        safeOnFail none e
        loop deps reads
      | .ok resp => do
        storeSpeaker resp
        if resp.code ≠ 0 then
          finish
          act .markTerminalReceived
          safeOnFail (some resp) ⟨resp.code, resp.message⟩
        else if resp.finalFlag = 1 then
          finish
          act .markTerminalReceived
          dispatchEvent resp
          safeComplete resp
        else if ¬ resp.hasResult then loop deps reads
        else
          dispatchEvent resp
          loop deps reads

/-- `ReadLoopInner`; `connected` is whether it finds a connection. -/
def readLoopInner (deps : Deps) (voiceId : Bytes) (connected : Bool) (reads : List ReadOutcome) :
    LoopM Unit := do
  callListener (.onRecognitionStart { code := 0, message := ascii "success", voiceId })
  if ¬ connected then return else loop deps reads

def readLoop (deps : Deps) (voiceId : Bytes) (connected : Bool) (reads : List ReadOutcome) :
    LoopM Unit := do
  act .setReaderTid
  handle (readLoopInner deps voiceId connected reads) fun
    | .thrown (some what) => do
      finish
      safeOnFail none ⟨kErrReadFailed, ascii "recovered from panic in read loop: " ++ what⟩
    | .thrown none => do
      finish
      safeOnFail none ⟨kErrReadFailed,
        ascii "recovered from panic in read loop: unknown exception"⟩
    | .waiting => throw .waiting
  finish
  act .signalDone

end V2

/-! ## v3 -/

namespace V3

def safeOnFail (resp : Option SpeechResponse) (err : ASRError) : LoopM Unit :=
  swallow (callListener (.onFail resp err))

def safeComplete (resp : SpeechResponse) : LoopM Unit :=
  swallow (callListener (.onRecognitionComplete resp))

def dispatchEvent (resp : SpeechResponse) : LoopM Unit :=
  if resp.finalFlag = 1 ∧ resp.result.sliceType ≠ 2 then pure ()
  else if resp.result.sliceType = 0 then callListener (.onSentenceBegin resp)
  else if resp.result.sliceType = 1 then callListener (.onRecognitionResultChange resp)
  else if resp.result.sliceType = 2 then callListener (.onSentenceEnd resp)
  else pure ()

/-- `while (true)`, over the outcomes of `Read`. -/
def loop (deps : Deps) : List ReadOutcome → LoopM Unit
  | [] => throw .waiting
  | .timeout :: reads => do
    if (← loadState) = .stopped then return else loop deps reads
  | .error readErr :: _ => do
    if (← loadState).isStopping then return
    else
      finish
      safeOnFail none ⟨kErrReadFailed,
        ascii "read message failed" ++ if readErr = [] then [] else ascii ": " ++ readErr⟩
  | .frame opcode payload :: reads =>
    if opcode = 0x2 then do
      safeOnFail none ⟨kErrReadFailed,
        ascii "unmarshal response failed: unexpected binary frame"⟩
      loop deps reads
    else if opcode = 0x8 then do
      if (← loadState).isStopping then return
      else
        finish
        safeOnFail none ⟨kErrReadFailed, ascii "connection closed by server"⟩
    else if opcode ≠ 0x1 then loop deps reads
    else
      match parseSpeechResponse deps payload with
      | .error e => do
        safeOnFail none e
        loop deps reads
      | .ok resp =>
        if resp.code ≠ 0 then do
          finish
          act .markTerminalReceived
          safeOnFail (some resp) ⟨resp.code, resp.message⟩
        else if resp.finalFlag = 1 then do
          finish
          act .markTerminalReceived
          dispatchEvent resp
          safeComplete resp
        else if ¬ resp.hasResult then loop deps reads
        else do
          dispatchEvent resp
          loop deps reads

/-- `ReadLoopInner`; `connected` is whether it finds a connection. -/
def readLoopInner (deps : Deps) (voiceId : Bytes) (connected : Bool) (reads : List ReadOutcome) :
    LoopM Unit := do
  let speakerContinue := (← get).speakerContinue
  callListener (.onRecognitionStart
    { code := 0, message := ascii "success", voiceId, speakerContinue })
  if ¬ connected then return else loop deps reads

def readLoop (deps : Deps) (voiceId : Bytes) (connected : Bool) (reads : List ReadOutcome) :
    LoopM Unit := do
  act .setReaderTid
  handle (readLoopInner deps voiceId connected reads) fun
    | .thrown (some what) => do
      finish
      safeOnFail none ⟨kErrReadFailed, ascii "recovered from panic in read loop: " ++ what⟩
    | .thrown none => do
      finish
      safeOnFail none ⟨kErrReadFailed,
        ascii "recovered from panic in read loop: unknown exception"⟩
    | .waiting => throw .waiting
  finish
  act .signalDone

end V3

/-! ## Agreement -/

/-- The speaker context that the acknowledgement of v3 brought, in the response of
    `OnRecognitionStart`. -/
def Act.attach (ack : Option SpeakerContinue) : Act → Act
  | .listener (.onRecognitionStart resp) =>
    .listener (.onRecognitionStart { resp with speakerContinue := ack })
  | a => a

/-- A v2 and a v3 loop with the same to observe, that have done the same. -/
structure Same (ack : Option SpeakerContinue) (w₂ w₃ : World) : Prop where
  states : w₃.states = w₂.states
  outcomes : w₃.outcomes = w₂.outcomes
  acts : w₃.acts = w₂.acts.map (Act.attach ack)
  stored : w₃.speakerContinue = ack

section
variable {ack : Option SpeakerContinue}

theorem agrees_act {a b : Act} (h : a.attach ack = b) : Agrees (Same ack) (act a) (act b) :=
  .changes fun _ _ hs => ⟨hs.states, hs.outcomes, by simp [hs.acts, h], hs.stored⟩

theorem agrees_finish : Agrees (Same ack) finish finish := agrees_act rfl

theorem agrees_loadState : Agrees (Same ack) loadState loadState := by
  intro w₂ w₃ hs
  unfold loadState
  rw [hs.states]
  cases w₂.states with
  | nil => exact .error _ hs
  | cons state states => exact .ok _ ⟨rfl, hs.outcomes, hs.acts, hs.stored⟩

theorem agrees_leaveCallback : Agrees (Same ack) leaveCallback leaveCallback := by
  intro w₂ w₃ hs
  unfold leaveCallback
  rw [hs.outcomes]
  cases w₂.outcomes with
  | nil => exact .error _ hs
  | cons outcome outcomes =>
    cases outcome with
    | none => exact .ok _ ⟨hs.states, rfl, hs.acts, hs.stored⟩
    | some what => exact .error _ ⟨hs.states, rfl, hs.acts, hs.stored⟩

theorem agrees_call {call call' : ListenerCall}
    (h : (Act.listener call).attach ack = .listener call') :
    Agrees (Same ack) (callListener call) (callListener call') :=
  .bind (agrees_act h) fun _ => agrees_leaveCallback

theorem agrees_swallow {p q : LoopM Unit} (h : Agrees (Same ack) p q) :
    Agrees (Same ack) (swallow p) (swallow q) := by
  refine h.handles fun e => ?_
  cases e with
  | thrown what => exact .pure ()
  | waiting => exact .throw _

theorem agrees_safeOnFail (resp : Option SpeechResponse) (err : ASRError) :
    Agrees (Same ack) (V2.safeOnFail resp err) (V3.safeOnFail resp err) :=
  agrees_swallow (agrees_call rfl)

theorem agrees_safeComplete (resp : SpeechResponse) :
    Agrees (Same ack) (V2.safeComplete resp) (V3.safeComplete resp) :=
  agrees_swallow (agrees_call rfl)

theorem agrees_dispatchEvent (resp : SpeechResponse) :
    Agrees (Same ack) (V2.dispatchEvent resp) (V3.dispatchEvent resp) :=
  .ite (.pure ()) (.ite (agrees_call rfl) (.ite (agrees_call rfl) (.ite (agrees_call rfl)
    (.pure ()))))

/-- What v2 stores, v3 has not to store. -/
theorem agrees_storeSpeaker {p q : LoopM Unit} (resp : SpeechResponse)
    (h : Agrees (Same ack) p q) : Agrees (Same ack) (V2.storeSpeaker resp >>= fun _ => p) q := by
  refine .left (fun w₂ w₃ hs => ?_) h
  split
  · exact ⟨hs.states, hs.outcomes, hs.acts, hs.stored⟩
  · exact hs

theorem agrees_loop (deps : Deps) (reads : List ReadOutcome) :
    Agrees (Same ack) (V2.loop deps reads) (V3.loop deps reads) := by
  induction reads with
  | nil => exact .throw _
  | cons r reads ih =>
    cases r with
    | timeout => exact .bind agrees_loadState fun state => .ite (.pure ()) ih
    | error readErr =>
      exact .bind agrees_loadState fun state =>
        .ite (.pure ()) (.bind agrees_finish fun _ => agrees_safeOnFail _ _)
    | frame opcode payload =>
      refine .ite (.bind (agrees_safeOnFail _ _) fun _ => ih) (.ite ?_ (.ite ih ?_))
      · exact .bind agrees_loadState fun state =>
          .ite (.pure ()) (.bind agrees_finish fun _ => agrees_safeOnFail _ _)
      · cases parseSpeechResponse deps payload with
        | error e => exact .bind (agrees_safeOnFail _ _) fun _ => ih
        | ok resp =>
          refine agrees_storeSpeaker resp (.ite ?_ (.ite ?_ (.ite ih ?_)))
          · exact .bind agrees_finish fun _ => .bind (agrees_act rfl) fun _ =>
              agrees_safeOnFail _ _
          · exact .bind agrees_finish fun _ => .bind (agrees_act rfl) fun _ =>
              .bind (agrees_dispatchEvent resp) fun _ => agrees_safeComplete resp
          · exact .bind (agrees_dispatchEvent resp) fun _ => ih

theorem agrees_readLoopInner (deps : Deps) (voiceId : Bytes) (connected : Bool)
    (reads : List ReadOutcome) :
    Agrees (Same ack) (V2.readLoopInner deps voiceId connected reads)
      (V3.readLoopInner deps voiceId connected reads) := by
  intro w₂ w₃ hs
  have hstart : Agrees (Same ack)
      (callListener (.onRecognitionStart { code := 0, message := ascii "success", voiceId }))
      (callListener (.onRecognitionStart
        { code := 0, message := ascii "success", voiceId
          speakerContinue := w₃.speakerContinue })) :=
    agrees_call (by rw [hs.stored]; rfl)
  exact Agrees.bind hstart (fun _ => .ite (.pure ()) (agrees_loop deps reads)) w₂ w₃ hs

/-- **The reader loops of v2 and v3 agree**: whatever they read, load and have callbacks do, they
    call the listener and change the shared state alike, and end alike. -/
theorem read_loops_agree (deps : Deps) (voiceId : Bytes) (connected : Bool)
    (reads : List ReadOutcome) (states : List RunState) (outcomes : List (Option (Option Bytes)))
    (stored ack : Option SpeakerContinue) :
    Alike (Same ack)
      (V2.readLoop deps voiceId connected reads { states, outcomes, speakerContinue := stored })
      (V3.readLoop deps voiceId connected reads { states, outcomes, speakerContinue := ack }) := by
  have hloop : Agrees (Same ack) (V2.readLoop deps voiceId connected reads)
      (V3.readLoop deps voiceId connected reads) := by
    have hinner : Agrees (Same ack) _ _ := agrees_readLoopInner deps voiceId connected reads
    refine .bind (agrees_act rfl) fun _ => .bind (hinner.handles fun e => ?_)
      fun _ => .bind agrees_finish fun _ => agrees_act rfl
    cases e with
    | waiting => exact .throw _
    | thrown what =>
      cases what with
      | none => exact .bind agrees_finish fun _ => agrees_safeOnFail _ _
      | some what => exact .bind agrees_finish fun _ => agrees_safeOnFail _ _
  exact hloop _ _ ⟨rfl, rfl, rfl, rfl⟩

end

end TrtcAsr.Speech
