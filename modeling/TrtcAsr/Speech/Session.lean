/-
  A streaming session (speech_recognizer.h, speech_recognizer.cc, v3.cc): the threads that
  call `Start`, `Write`, `Stop` and the destructor, the reader thread, and the watchdog of a
  `Stop` from a callback, over `RecognizerSharedState`.

  A step of a thread makes at most one access to what the threads share: an atomic operation,
  a critical section of `conn_mu`, `tid_mu` or (for the two flags) `done_mu`, taking or
  releasing `write_mu` or `done_mu`, or handing a frame to a send.  What the network, the
  clock, the server and the listener do is the choice of the step.

  * `ReaderOp`: what the reader thread still has to do, in order; an exception that leaves a
    callback replaces it.
  * `session` is the system of all threads; an event carries the thread it is from.
-/
import TrtcAsr.Lib.Threads
import TrtcAsr.Speech.Response

namespace TrtcAsr.Speech

inductive Version where
  | v2
  | v3
  deriving DecidableEq, Repr

/-- `kStateIdle_` .. `kStateStopped_`. -/
inductive RunState where
  | idle
  | starting
  | running
  | stopping
  | stopped
  deriving DecidableEq, Repr

/-- `state >= kStateStopping_`. -/
def RunState.isStopping : RunState → Bool
  | stopping | stopped => true
  | _ => false

/-- What is handed to `SendText` and `SendBinary`. -/
inductive UplinkFrame where
  | start (text : Bytes)
  | audio (data : Bytes)
  | endSignal
  deriving DecidableEq, Repr

/-! ## Callbacks -/

/-- Why `OnFail` is called. -/
inductive FailCause where
  | code (resp : SpeechResponse)
  | read (err : Bytes)
  | closed
  | thrown (what : Option Bytes)
  | binary
  | parse (e : ASRError)
  deriving DecidableEq, Repr

namespace FailCause

/-- The response `OnFail` is given. -/
def resp : FailCause → Option SpeechResponse
  | code resp => some resp
  | _ => none

/-- The error `OnFail` is given. -/
def err : FailCause → ASRError
  | code resp => ⟨resp.code, resp.message⟩
  | read err => ⟨kErrReadFailed,
      ascii "read message failed" ++ if err = [] then [] else ascii ": " ++ err⟩
  | closed => ⟨kErrReadFailed, ascii "connection closed by server"⟩
  | thrown what => ⟨kErrReadFailed,
      ascii "recovered from panic in read loop: " ++ what.getD (ascii "unknown exception")⟩
  | binary => ⟨kErrReadFailed, ascii "unmarshal response failed: unexpected binary frame"⟩
  | parse e => e

/-- The session ends with it. -/
def terminal : FailCause → Bool
  | binary | parse _ => false
  | _ => true

end FailCause

inductive Callback where
  | recognitionStart (resp : SpeechResponse)
  | sentenceBegin (resp : SpeechResponse)
  | recognitionResultChange (resp : SpeechResponse)
  | sentenceEnd (resp : SpeechResponse)
  | recognitionComplete (resp : SpeechResponse)
  | fail (cause : FailCause)
  deriving DecidableEq, Repr

/-- `SafeOnFail`, `SafeComplete`: an exception of the callback is swallowed. -/
def Callback.shielded : Callback → Bool
  | recognitionComplete _ | fail _ => true
  | _ => false

def Callback.terminal : Callback → Bool
  | recognitionComplete _ => true
  | fail cause => cause.terminal
  | _ => false

/-- What a `Read` returns: 0, -1 or 1. -/
inductive ReadOutcome where
  | timeout
  | error (what : Bytes)
  | frame (opcode : ℕ) (payload : Bytes)
  deriving DecidableEq, Repr

/-! ## The shared state -/

/-- What a recognizer is configured with, and the functions it calls. -/
structure Config where
  version : Version
  deps : Deps
  stopTimeout : ℕ
  ackTimeout : ℕ

/-- `RecognizerSharedState`, the members of the recognizer that a session writes, and the clock.
    Connections are numbered in the order in which they are dialed. -/
structure Shared where
  state : RunState := .idle
  conn : Option ℕ := none
  dialed : ℕ := 0
  writeMu : Option ℕ := none
  doneMu : Option ℕ := none
  done : Bool := false
  terminalReceived : Bool := false
  finished : Bool := false
  readerTid : Option ℕ := none
  stopTimeout : ℕ := 10000
  voiceId : Bytes := []
  speakerContinue : Option SpeakerContinue := none
  readerThread : Option ℕ := none
  now : ℕ := 0
  deriving DecidableEq, Repr

inductive Call where
  | start
  | write
  | stop
  | destroy
  deriving DecidableEq, Repr

inductive EventKind where
  | starting
  | startFailed
  | acked (c : ℕ)
  | running (c : ℕ)
  | spawned (tid : ℕ)
  | stopping
  | sent (c : ℕ) (f : UplinkFrame)
  | closed (c : ℕ)
  | read (r : ReadOutcome)
  | callback (cb : Callback)
  | callbackDone
  | terminal
  | done
  | waits (deadline : ℕ)
  | expired (deadline now : ℕ)
  | returned (call : Call)
  | threw (call : Call) (e : Exn)
  deriving DecidableEq, Repr

/-- An event and the thread it is from. -/
abbrev Event := ℕ × EventKind

/-- `Close`: the connection is shut down and forgotten. -/
def Shared.close (sh : Shared) : Shared × List EventKind :=
  match sh.conn with
  | some c => ({ sh with conn := none }, [.closed c])
  | none => (sh, [])

/-! ## Threads -/

inductive StartPc where
  | cas
  | validate
  | connect
  | send (c : ℕ) (text : Bytes)
  | sent (c : ℕ)
  | drop (c : ℕ) (e : Exn)
  | publish (c : ℕ)
  | ack (c deadline : ℕ)
  | close (e : Exn)
  | fail (e : Exn)
  | run (c : ℕ)
  | timeout
  | spawn
  deriving DecidableEq, Repr

/-- The argument of `Write`: a null pointer with a length, or bytes. -/
inductive Audio where
  | null (len : ℕ)
  | bytes (data : Bytes)
  deriving DecidableEq, Repr

inductive WritePc where
  | args (audio : Audio)
  | check (data : Bytes)
  | fetch (data : Bytes)
  | lock (c : ℕ) (data : Bytes)
  | recheck (c : ℕ) (data : Bytes)
  | send (c : ℕ) (data : Bytes)
  | sent
  deriving DecidableEq, Repr

inductive StopPc where
  | cas
  | fetch
  | lock (c : ℕ)
  | check (c : ℕ)
  | send (c : ℕ)
  | sent
  | failed (err : Bytes)
  | close (err : Bytes)
  | store (err : Bytes)
  | self
  | watchdog
  | finish
  deriving DecidableEq, Repr

/-- `WaitForReadLoopOrClose`. -/
inductive WaitPc where
  | enter
  | test (deadline : ℕ)
  | unbounded
  | timed (deadline : ℕ)
  | timedOut (deadline : ℕ)
  | close
  | grace
  | graceEnd
  deriving DecidableEq, Repr

/-- Who waits: a `Stop` (of the destructor or not) that stores the stopped state afterwards or
    not, or the watchdog. -/
inductive Waiter where
  | stop (dtor stores : Bool)
  | watchdog
  deriving DecidableEq, Repr

inductive CallPc where
  | start (pc : StartPc)
  | write (pc : WritePc)
  | stop (dtor : Bool) (pc : StopPc)
  | wait (waiter : Waiter) (pc : WaitPc)
  | destroy
  | join
  deriving DecidableEq, Repr

/-- The remaining statements of `ReadLoop`; `inside` is a callback that has not returned. -/
inductive ReaderOp where
  | setTid
  | callStart
  | call (cb : Callback)
  | inside (cb : Callback)
  | fetch
  | read (c : ℕ)
  | checkStopped (c : ℕ)
  | checkStopping (cause : FailCause)
  | storeSpeaker (speakerContinue : SpeakerContinue)
  | finish
  | close
  | mark
  | signalDone
  deriving DecidableEq, Repr

/-- The call a thread is in, and what it has to do as the reader thread. -/
structure Thread where
  call : Option CallPc := none
  reader : Option (List ReaderOp) := none
  deriving DecidableEq, Repr

/-- The entry points of the recognizer. -/
inductive Entry where
  | start
  | write (audio : Audio)
  | stop
  | destroy
  deriving DecidableEq, Repr

def Entry.pc : Entry → CallPc
  | start => .start .cas
  | write audio => .write (.args audio)
  | stop => .stop false .cas
  | destroy => .destroy

/-- What the environment decides for a step. -/
inductive Choice where
  | tick (d : ℕ)
  | enter (entry : Entry)
  | go
  | validated (r : Except ASRError Unit)
  | dialed (uuid : Bytes) (r : Except Exn Bytes)
  | sent (r : Except Bytes Unit)
  | read (r : ReadOutcome)
  | wake (timeout : Bool)
  | spawn (tid : ℕ)
  | returns
  | throws (what : Option Bytes)

/-- What a step of a call leads to; without a `call` it is over. -/
structure CallResult where
  sh : Shared
  call : Option CallPc
  spawned : Option (ℕ × Thread) := none
  events : List EventKind := []

/-! ## Start -/

def connectFailed (message : Bytes) : Exn := .asr ⟨kErrReadFailed, message⟩

/-- What a text frame means to the loop of `Connect` that waits for the acknowledgement: close
    and throw, throw, or the acknowledgement with its speaker context. -/
inductive Ack where
  | close (e : Exn)
  | escape (e : JsonError)
  | ok (speakerContinue : Option SpeakerContinue)

def parseAck (deps : Deps) (payload : Bytes) : Ack :=
  match deps.parse payload with
  | .error what => .close (.asr ⟨kErrServerError, ascii "invalid start ack: " ++ what⟩)
  | .ok ack =>
    match ack.value Json.getInt "code" 0 with
    | .error e => .escape e
    | .ok code =>
      if code ≠ 0 then
        match ack.value Json.getStr "message" [] with
        | .error e => .close (.json e)
        | .ok message => .close (.asr ⟨code, message⟩)
      else
        match parseObjectAt parseSpeakerContinue ack "speaker_continue" with
        | .error e => .escape e
        | .ok speakerContinue => .ok speakerContinue

/-- The thread that runs `ReadLoop`. -/
def readLoop : List ReaderOp := [.setTid, .callStart, .fetch]

/-- `Start`, with `Connect`. -/
def startStep (cfg : Config) (sh : Shared) : StartPc → Choice → Option CallResult
  | .cas, .go =>
    if sh.state = .idle then
      some { sh := { sh with state := .starting }, call := some (.start .validate)
             events := [.starting] }
    else some { sh, call := none, events := [.threw .start (.asr ⟨kErrAlreadyStarted,
      ascii "recognizer already started"⟩)] }
  | .validate, .validated (.error e) => some { sh, call := some (.start (.fail (.asr e))) }
  | .validate, .validated (.ok _) => some { sh, call := some (.start .connect) }
  | .connect, .dialed uuid (.error e) =>
    some { sh := { sh with voiceId := if sh.voiceId = [] then uuid else sh.voiceId }
           call := some (.start (.fail e)) }
  | .connect, .dialed uuid (.ok text) =>
    some { sh := { sh with voiceId := if sh.voiceId = [] then uuid else sh.voiceId
                           dialed := sh.dialed + 1 }
           call := some (.start (match cfg.version with
             | .v2 => .publish sh.dialed
             | .v3 => .send sh.dialed text)) }
  | .send c text, .go => some { sh, call := some (.start (.sent c)), events := [.sent c (.start text)] }
  | .sent c, .sent (.ok _) => some { sh, call := some (.start (.publish c)) }
  | .sent c, .sent (.error err) =>
    some { sh, call := some (.start (.drop c (.asr ⟨kErrWriteFailed,
      ascii "send start frame failed: " ++ err⟩))) }
  | .drop c e, .go => some { sh, call := some (.start (.fail e)), events := [.closed c] }
  | .publish c, .go =>
    some { sh := { sh with conn := some c }
           call := some (.start (match cfg.version with
             | .v2 => .run c
             | .v3 => .ack c (sh.now + cfg.ackTimeout))) }
  | .ack c deadline, .read .timeout =>
    some { sh, call := some (.start (if deadline ≤ sh.now then
      .close (connectFailed (ascii "read start ack failed: ack timeout")) else .ack c deadline)) }
  | .ack _ _, .read (.error what) =>
    some { sh, call := some (.start (.close (connectFailed (ascii "read start ack failed" ++
      if what = [] then [] else ascii ": " ++ what)))) }
  | .ack c deadline, .read (.frame opcode payload) =>
    if opcode = 0x8 then
      some { sh, call := some (.start (.close (connectFailed
        (ascii "read start ack failed: connection closed by server")))) }
    else if opcode ≠ 0x1 then some { sh, call := some (.start (.ack c deadline)) }
    else
      match parseAck cfg.deps payload with
      | .close e => some { sh, call := some (.start (.close e)) }
      | .escape e => some { sh, call := some (.start (.fail (.json e))) }
      | .ok speakerContinue =>
        some { sh := { sh with speakerContinue := speakerContinue.or sh.speakerContinue }
               call := some (.start (.run c)), events := [.acked c] }
  | .close e, .go =>
    some { sh := sh.close.1, call := some (.start (.fail e)), events := sh.close.2 }
  | .fail e, .go =>
    some { sh := { sh with state := .idle }, call := none, events := [.startFailed, .threw .start e] }
  | .run c, .go =>
    some { sh := { sh with state := .running }, call := some (.start .timeout)
           events := [.running c] }
  | .timeout, .go =>
    some { sh := { sh with stopTimeout := cfg.stopTimeout }, call := some (.start .spawn) }
  | .spawn, .spawn tid =>
    some { sh := { sh with readerThread := some tid }, call := none
           spawned := some (tid, { reader := some readLoop })
           events := [.spawned tid, .returned .start] }
  | _, _ => none

/-! ## Write -/

def kStreamFrameMaxBytes : ℕ := 256 * 1024

def invalidArg (message : Bytes) : Exn := .asr ⟨kErrInvalidParam, message⟩
def notStarted (message : Bytes) : Exn := .asr ⟨kErrNotStarted, message⟩

/-- The checks of the arguments of `Write`. -/
def writeArgs (version : Version) : Audio → Except Exn Bytes
  | .null len =>
    if 0 < len then .error (invalidArg (ascii "audio data pointer is null")) else .ok []
  | .bytes data =>
    if version = .v3 ∧ kStreamFrameMaxBytes < data.length then
      .error (invalidArg (ascii "audio frame exceeds " ++ toDec kStreamFrameMaxBytes ++
        ascii " bytes"))
    else .ok data

def writeStep (cfg : Config) (i : ℕ) (sh : Shared) : WritePc → Choice → Option CallResult
  | .args audio, .go =>
    match writeArgs cfg.version audio with
    | .error e => some { sh, call := none, events := [.threw .write e] }
    | .ok data => some { sh, call := some (.write (.check data)) }
  | .check data, .go =>
    if sh.state = .running then some { sh, call := some (.write (.fetch data)) }
    else some { sh, call := none
                events := [.threw .write (notStarted (ascii "recognizer not running"))] }
  | .fetch data, .go =>
    match sh.conn with
    | none => some { sh, call := none
                     events := [.threw .write (notStarted (ascii "connection not established"))] }
    | some c => some { sh, call := some (.write (.lock c data)) }
  | .lock c data, .go =>
    match sh.writeMu with
    | none => some { sh := { sh with writeMu := some i }, call := some (.write (.recheck c data)) }
    | some _ => none
  | .recheck c data, .go =>
    if sh.state = .running then some { sh, call := some (.write (.send c data)) }
    else some { sh := { sh with writeMu := none }, call := none
                events := [.threw .write (notStarted (ascii "recognizer not running"))] }
  | .send c data, .go => some { sh, call := some (.write .sent), events := [.sent c (.audio data)] }
  | .sent, .sent (.ok _) =>
    some { sh := { sh with writeMu := none }, call := none, events := [.returned .write] }
  | .sent, .sent (.error err) =>
    some { sh := { sh with writeMu := none }, call := none
           events := [.threw .write (.asr ⟨kErrWriteFailed,
             ascii "write audio data failed: " ++ err⟩)] }
  | _, _ => none

/-! ## Stop -/

/-- What follows a `Stop`: nothing, or the join of the destructor. -/
def afterStop (dtor : Bool) : Option CallPc := if dtor then some .join else none

def stopStep (i : ℕ) (sh : Shared) (dtor : Bool) : StopPc → Choice → Option CallResult
  | .cas, .go =>
    if sh.state = .running then
      some { sh := { sh with state := .stopping }, call := some (.stop dtor .fetch)
             events := [.stopping] }
    else some { sh, call := afterStop dtor
                events := [.threw .stop (notStarted (ascii "recognizer not running"))] }
  | .fetch, .go =>
    match sh.conn with
    | none =>
      some { sh := { sh with state := .stopped }, call := afterStop dtor
             events := [.threw .stop (notStarted (ascii "connection not established"))] }
    | some c => some { sh, call := some (.stop dtor (.lock c)) }
  | .lock c, .go =>
    match sh.writeMu with
    | none => some { sh := { sh with writeMu := some i }, call := some (.stop dtor (.check c)) }
    | some _ => none
  | .check c, .go =>
    if sh.state = .stopped then
      some { sh := { sh with writeMu := none }, call := some (.wait (.stop dtor false) .enter) }
    else some { sh, call := some (.stop dtor (.send c)) }
  | .send c, .go => some { sh, call := some (.stop dtor .sent), events := [.sent c .endSignal] }
  | .sent, .sent (.ok _) =>
    some { sh := { sh with writeMu := none }, call := some (.stop dtor .self) }
  | .sent, .sent (.error err) =>
    some { sh := { sh with writeMu := none }, call := some (.stop dtor (.failed err)) }
  | .failed err, .go =>
    some { sh, call := some (if sh.state = .stopped then .wait (.stop dtor false) .enter
      else .stop dtor (.close err)) }
  | .close err, .go =>
    some { sh := sh.close.1, call := some (.stop dtor (.store err)), events := sh.close.2 }
  | .store err, .go =>
    some { sh := { sh with state := .stopped }, call := afterStop dtor
           events := [.threw .stop (.asr ⟨kErrWriteFailed,
             ascii "send end signal failed: " ++ err⟩)] }
  | .self, .go =>
    some { sh, call := some (if sh.readerTid = some i then .stop dtor .watchdog
      else .wait (.stop dtor true) .enter) }
  | .watchdog, .spawn tid =>
    some { sh, call := afterStop dtor, events := [.returned .stop]
           spawned := some (tid, { call := some (.wait .watchdog .enter) }) }
  | .finish, .go =>
    some { sh := { sh with state := .stopped }, call := afterStop dtor, events := [.returned .stop] }
  | _, _ => none

/-- What follows `WaitForReadLoopOrClose`. -/
def Waiter.after : Waiter → Option CallPc × List EventKind
  | stop dtor true => (some (.stop dtor .finish), [])
  | stop dtor false => (afterStop dtor, [.returned .stop])
  | watchdog => (none, [])

/-- `done_mu` is released, and the function returns. -/
def waitReturn (sh : Shared) (w : Waiter) : CallResult :=
  { sh := { sh with doneMu := none }, call := w.after.1, events := w.after.2 }

/-- A wait on the condition variable releases `done_mu` and takes it again when it wakes, also
    spuriously. -/
def waitStep (i : ℕ) (sh : Shared) (w : Waiter) : WaitPc → Choice → Option CallResult
  | .enter, .go =>
    match sh.doneMu with
    | none => some { sh := { sh with doneMu := some i }
                     call := some (.wait w (.test (sh.now + sh.stopTimeout)))
                     events := [.waits (sh.now + sh.stopTimeout)] }
    | some _ => none
  | .test deadline, .go =>
    if sh.done then some (waitReturn sh w)
    else some { sh := { sh with doneMu := none }
                call := some (.wait w (if sh.terminalReceived then .unbounded
                  else .timed deadline)) }
  | .unbounded, .wake _ =>
    match sh.doneMu with
    | none => some (if sh.done then waitReturn sh w else { sh, call := some (.wait w .unbounded) })
    | some _ => none
  | .timed deadline, .wake timeout =>
    match sh.doneMu with
    | none =>
      if timeout then
        if deadline ≤ sh.now then
          some { sh := { sh with doneMu := some i }, call := some (.wait w (.timedOut deadline)) }
        else none
      else some { sh := { sh with doneMu := some i }, call := some (.wait w (.test deadline)) }
    | some _ => none
  | .timedOut deadline, .go =>
    if sh.done then some (waitReturn sh w)
    else if sh.terminalReceived then some { sh, call := some (.wait w (.test deadline)) }
    else some { sh, call := some (.wait w .close), events := [.expired deadline sh.now] }
  | .close, .go =>
    some { sh := sh.close.1, call := some (.wait w .grace), events := sh.close.2 }
  | .grace, .go => some { sh := { sh with doneMu := none }, call := some (.wait w .graceEnd) }
  | .graceEnd, .wake _ =>
    match sh.doneMu with
    | none => some (waitReturn sh w)
    | some _ => none
  | _, _ => none

/-- One step of a call of thread `i`. -/
def callStep (cfg : Config) (i : ℕ) (sh : Shared) : CallPc → Choice → Option CallResult
  | .start pc, ch => startStep cfg sh pc ch
  | .write pc, ch => writeStep cfg i sh pc ch
  | .stop dtor pc, ch => stopStep i sh dtor pc ch
  | .wait w pc, ch => waitStep i sh w pc ch
  | .destroy, .go =>
    some { sh, call := some (if sh.state = .running then .stop true .cas else .join) }
  -- on the reader thread itself this blocks for good; there `std::thread::join` throws, and since
  -- it throws in a destructor the process ends
  | .join, .go =>
    if sh.readerThread.isSome ∧ ¬ sh.done then none
    else some { sh, call := none, events := [.returned .destroy] }
  | _, _ => none

/-! ## The reader thread -/

/-- `DispatchEvent`. -/
def dispatchEvent (resp : SpeechResponse) : List ReaderOp :=
  if resp.finalFlag = 1 ∧ resp.result.sliceType ≠ 2 then []
  else if resp.result.sliceType = 0 then [.call (.sentenceBegin resp)]
  else if resp.result.sliceType = 1 then [.call (.recognitionResultChange resp)]
  else if resp.result.sliceType = 2 then [.call (.sentenceEnd resp)]
  else []

/-- The end of `ReadLoop`, after `ReadLoopInner` has returned. -/
def leave : List ReaderOp := [.finish, .signalDone]

/-- The loop of `ReadLoopInner` after a parsed response. -/
def afterResponse (c : ℕ) (resp : SpeechResponse) : List ReaderOp :=
  if resp.code ≠ 0 then [.finish, .mark, .call (.fail (.code resp))] ++ leave
  else if resp.finalFlag = 1 then
    [.finish, .mark] ++ dispatchEvent resp ++ [.call (.recognitionComplete resp)] ++ leave
  else if ¬ resp.hasResult then [.read c]
  else dispatchEvent resp ++ [.read c]

/-- v2 stores the speaker context of a response; v3 has it from the acknowledgement. -/
def storeSpeaker (version : Version) (resp : SpeechResponse) : List ReaderOp :=
  match version, resp.speakerContinue with
  | .v2, some speakerContinue => [.storeSpeaker speakerContinue]
  | _, _ => []

/-- The loop of `ReadLoopInner` after a `Read`. -/
def afterRead (cfg : Config) (c : ℕ) : ReadOutcome → List ReaderOp
  | .timeout => [.checkStopped c]
  | .error what => [.checkStopping (.read what)]
  | .frame opcode payload =>
    if opcode = 0x2 then [.call (.fail .binary), .read c]
    else if opcode = 0x8 then [.checkStopping .closed]
    else if opcode ≠ 0x1 then [.read c]
    else
      match parseSpeechResponse cfg.deps payload with
      | .error e => [.call (.fail (.parse e)), .read c]
      | .ok resp => storeSpeaker cfg.version resp ++ afterResponse c resp

/-- The response `OnRecognitionStart` is given. -/
def startResponse (version : Version) (sh : Shared) : SpeechResponse where
  message := ascii "success"
  voiceId := sh.voiceId
  speakerContinue := match version with
    | .v2 => none
    | .v3 => sh.speakerContinue

/-- What is left of `ReadLoop` when a callback that is not shielded throws. -/
def caught (what : Option Bytes) : List ReaderOp :=
  [.finish, .call (.fail (.thrown what))] ++ leave

structure ReaderResult where
  sh : Shared
  ops : List ReaderOp
  events : List EventKind := []

/-- One step of the reader thread `i` with the next operation and the others after it. -/
def readerStep (cfg : Config) (i : ℕ) (sh : Shared) (rest : List ReaderOp) :
    ReaderOp → Choice → Option ReaderResult
  | .setTid, .go => some { sh := { sh with readerTid := some i }, ops := rest }
  | .callStart, .go =>
    let cb := .recognitionStart (startResponse cfg.version sh)
    some { sh, ops := .inside cb :: rest, events := [.callback cb] }
  | .call cb, .go => some { sh, ops := .inside cb :: rest, events := [.callback cb] }
  | .inside _, .returns => some { sh, ops := rest, events := [.callbackDone] }
  | .inside cb, .throws what =>
    some { sh, ops := if cb.shielded then rest else caught what, events := [.callbackDone] }
  | .fetch, .go =>
    some { sh, ops := match sh.conn with
      | none => leave
      | some c => [.read c] }
  | .read c, .read r => some { sh, ops := afterRead cfg c r, events := [.read r] }
  | .checkStopped c, .go => some { sh, ops := if sh.state = .stopped then leave else [.read c] }
  | .checkStopping cause, .go =>
    some { sh, ops := if sh.state.isStopping then leave
      else [.finish, .call (.fail cause)] ++ leave }
  | .storeSpeaker speakerContinue, .go =>
    some { sh := { sh with speakerContinue := some speakerContinue }, ops := rest }
  | .finish, .go =>
    if sh.finished then some { sh, ops := rest }
    else some { sh := { sh with state := .stopped, finished := true }, ops := .close :: rest }
  | .close, .go => some { sh := sh.close.1, ops := rest, events := sh.close.2 }
  | .mark, .go =>
    match sh.doneMu with
    | none => some { sh := { sh with terminalReceived := true }, ops := rest, events := [.terminal] }
    | some _ => none
  | .signalDone, .go =>
    match sh.doneMu with
    | none => some { sh := { sh with done := true }, ops := rest, events := [.done] }
    | some _ => none
  | _, _ => none

/-! ## The system -/

/-- A thread can enter the recognizer when it is in no call and, on the reader thread, inside a
    callback. -/
def Thread.mayEnter (t : Thread) : Bool :=
  match t.reader with
  | none => true
  | some (.inside _ :: _) => true
  | some _ => false

/-- One step of thread `i`. -/
def threadStep (cfg : Config) (i : ℕ) (sh : Shared) (t : Thread) :
    Choice → Option (Outcome Shared Thread Event)
  | .tick d => some { shared := { sh with now := sh.now + d }, next := t }
  | ch =>
    match t.call with
    | some pc =>
      (callStep cfg i sh pc ch).map fun r =>
        { shared := r.sh, next := { t with call := r.call }, spawned := r.spawned
          events := r.events.map (i, ·) }
    | none =>
      match ch with
      | .enter entry =>
        if t.mayEnter then some { shared := sh, next := { t with call := some entry.pc } }
        else none
      | ch =>
        match t.reader with
        | some (op :: rest) =>
          (readerStep cfg i sh rest op ch).map fun r =>
            { shared := r.sh, next := { t with reader := some r.ops }
              events := r.events.map (i, ·) }
        | _ => none

/-- The threads that a call starts are the reader thread and the watchdog. -/
theorem callStep_spawned {cfg : Config} {i : ℕ} {sh : Shared} {pc : CallPc} {ch : Choice}
    {r : CallResult} (h : callStep cfg i sh pc ch = some r) {j : ℕ} {t : Thread}
    (hs : r.spawned = some (j, t)) :
    pc = .start .spawn ∧ t = { reader := some readLoop } ∨
      (∃ dtor, pc = .stop dtor .watchdog) ∧ t = { call := some (.wait .watchdog .enter) } := by
  unfold callStep startStep writeStep stopStep waitStep waitReturn at h
  repeat' split at h
  all_goals cases h
  all_goals first
    | cases hs; exact .inl ⟨rfl, rfl⟩
    | cases hs; exact .inr ⟨⟨_, rfl⟩, rfl⟩
    | cases hs

/-- The events that only the reader thread emits. -/
def EventKind.ofReader : EventKind → Bool
  | read _ | callback _ | callbackDone | terminal | done => true
  | _ => false

/-- A step that leaves what only the reader thread changes. -/
structure Outside (sh sh' : Shared) (ks : List EventKind) : Prop where
  finished : sh'.finished = sh.finished
  done : sh'.done = sh.done
  terminalReceived : sh'.terminalReceived = sh.terminalReceived
  quiet : ∀ k ∈ ks, k.ofReader = false

/-- The events of a step can be checked one by one. -/
theorem outside_of {sh sh' : Shared} {ks : List EventKind} (hf : sh'.finished = sh.finished)
    (hd : sh'.done = sh.done) (ht : sh'.terminalReceived = sh.terminalReceived)
    (h : ks.all fun k => !k.ofReader) : Outside sh sh' ks :=
  ⟨hf, hd, ht, fun k hk => by simpa using List.all_eq_true.1 h k hk⟩

theorem outside_close (sh : Shared) : Outside sh sh.close.1 sh.close.2 := by
  unfold Shared.close
  cases sh.conn with
  | none => exact outside_of rfl rfl rfl rfl
  | some c => exact outside_of rfl rfl rfl rfl

theorem callStep_outside {cfg : Config} {i : ℕ} {sh : Shared} {pc : CallPc} {ch : Choice}
    {r : CallResult} (h : callStep cfg i sh pc ch = some r) : Outside sh r.sh r.events := by
  have after : ∀ w : Waiter, w.after.2.all fun k => !k.ofReader := by
    intro w
    cases w with
    | watchdog => rfl
    | stop dtor stores => cases stores <;> rfl
  unfold callStep startStep writeStep stopStep waitStep waitReturn at h
  repeat' split at h
  all_goals cases h
  all_goals first
    | exact outside_of rfl rfl rfl rfl
    | exact outside_of rfl rfl rfl (after _)
    | exact outside_close sh

/-- A step of a thread is a step of the clock, of its call, of the reader loop, or the beginning
    of a call. -/
theorem threadStep_cases {cfg : Config} {i : ℕ} {sh : Shared} {t : Thread} {ch : Choice}
    {o : Outcome Shared Thread Event} (h : threadStep cfg i sh t ch = some o) :
    (∃ d, o = { shared := { sh with now := sh.now + d }, next := t }) ∨
    (∃ pc r, t.call = some pc ∧ callStep cfg i sh pc ch = some r ∧
      o = { shared := r.sh, next := { t with call := r.call }, spawned := r.spawned
            events := r.events.map (i, ·) }) ∨
    (∃ entry : Entry, t.call = none ∧ t.mayEnter ∧
      o = { shared := sh, next := { t with call := some entry.pc } }) ∨
    (∃ op rest r, t.call = none ∧ t.reader = some (op :: rest) ∧
      readerStep cfg i sh rest op ch = some r ∧
      o = { shared := r.sh, next := { t with reader := some r.ops }
            events := r.events.map (i, ·) }) := by
  unfold threadStep at h
  split at h
  · cases h
    exact .inl ⟨_, rfl⟩
  split at h
  · rename_i pc hpc
    obtain ⟨r, hr, rfl⟩ := Option.map_eq_some_iff.1 h
    exact .inr (.inl ⟨pc, r, hpc, hr, rfl⟩)
  rename_i hcall
  split at h
  · split at h
    · rename_i hm
      cases h
      exact .inr (.inr (.inl ⟨_, hcall, hm, rfl⟩))
    · cases h
  split at h
  · rename_i op rest hops
    obtain ⟨r, hr, rfl⟩ := Option.map_eq_some_iff.1 h
    exact .inr (.inr (.inr ⟨op, rest, r, hcall, hops, hr, rfl⟩))
  · cases h

/-- The threads of a session; one that is started is in no call and not the reader thread. -/
def session (cfg : Config) : Threads Shared Thread Choice Event where
  step := threadStep cfg
  idle t := t = {}

/-- Before the first call. -/
def initial (voiceId : Bytes) : Pool Shared Thread where
  shared := { voiceId := voiceId }
  threads _ := {}

/-! For the runs on fixed inputs: a v3 session that thread 0 starts, with the reader thread 1. -/

def sampleAck : Bytes := ascii "\x7b\"code\":0\x7d"
def sampleSentence : Bytes := ascii "\x7b\"result\":\x7b\"slice_type\":0\x7d\x7d"
def sampleFinal : Bytes := ascii "\x7b\"final\":1\x7d"

def sampleConfig : Config where
  version := .v3
  deps := sampleDeps [(sampleAck, .obj [("code", .uint 0)]),
    (sampleSentence, .obj [("result", .obj [("slice_type", .uint 0)])]),
    (sampleFinal, .obj [("final", .uint 1)])]
  stopTimeout := 10000
  ackTimeout := 3000

def sampleStart : List (ℕ × Choice) :=
  [(0, .enter .start), (0, .go), (0, .validated (.ok ())), (0, .dialed [0x61] (.ok [0x73])),
    (0, .go), (0, .sent (.ok ())), (0, .go), (0, .read (.frame 0x1 sampleAck)), (0, .go), (0, .go),
    (0, .spawn 1)]

end TrtcAsr.Speech
