/-
  The callbacks of a session: what the listener is told, for every sequence of `Read`
  outcomes, every order of the steps of the threads and every callback that throws.

  * `Told` says of each event of the reader thread what must have come before it.
  * `Reading` relates the history to what the reader thread still has to do: the sentence
    callbacks so far and those to come are those of the frames read, and after a terminal
    callback nothing is left that makes another one.
  * `callback_protocol`: what follows for the callbacks of every run.
-/
import Mathlib.Data.List.Induction
import TrtcAsr.Speech.Ownership

namespace TrtcAsr.Speech

/-! ## Histories -/

namespace Callback

def isStart : Callback → Bool
  | recognitionStart _ => true
  | _ => false

def isSentence : Callback → Bool
  | sentenceBegin _ | recognitionResultChange _ | sentenceEnd _ => true
  | _ => false

end Callback

/-- The callbacks made so far. -/
def callbacks (tr : List Event) : List Callback :=
  tr.filterMap fun e => match e.2 with
    | .callback cb => some cb
    | _ => none

/-- What the reader thread has read so far. -/
def reads (tr : List Event) : List ReadOutcome :=
  tr.filterMap fun e => match e.2 with
    | .read r => some r
    | _ => none

/-- The number of callbacks that have returned or thrown. -/
def finishedCallbacks (tr : List Event) : ℕ :=
  tr.countP fun e => e.2 = .callbackDone

def Done (tr : List Event) : Prop := ∃ j, (j, EventKind.done) ∈ tr

/-- The sentence callback of a response with code 0. -/
def sentenceFor (resp : SpeechResponse) : List Callback :=
  if ¬ resp.hasResult then []
  else if resp.result.sliceType = 2 then [.sentenceEnd resp]
  else if resp.finalFlag = 1 then []
  else if resp.result.sliceType = 0 then [.sentenceBegin resp]
  else if resp.result.sliceType = 1 then [.recognitionResultChange resp]
  else []

/-- The sentence callbacks that a `Read` is to cause. -/
def sentencesOf (cfg : Config) : ReadOutcome → List Callback
  | .frame opcode payload =>
    if opcode = 0x1 then
      match parseSpeechResponse cfg.deps payload with
      | .ok resp => if resp.code = 0 then sentenceFor resp else []
      | .error _ => []
    else []
  | _ => []

/-- The sentence callbacks so far are those of the frames read so far, in their order. -/
def Settled (cfg : Config) (tr : List Event) : Prop :=
  (callbacks tr).filter Callback.isSentence = (reads tr).flatMap (sentencesOf cfg)

def NoTerminal (tr : List Event) : Prop := ∀ cb ∈ callbacks tr, cb.terminal = false

/-- The response is that of a frame with code 0 and final 1. -/
def Completes (cfg : Config) (rs : List ReadOutcome) (resp : SpeechResponse) : Prop :=
  ∃ payload, .frame 0x1 payload ∈ rs ∧ parseSpeechResponse cfg.deps payload = .ok resp ∧
    resp.code = 0 ∧ resp.finalFlag = 1

/-- What the events before it allow. -/
def Told (cfg : Config) (pre : List Event) : Event → Prop
  | (_, .callback cb) => (cb.isStart ↔ callbacks pre = []) ∧ NoTerminal pre ∧ ¬ Done pre ∧
      ∀ resp, cb = .recognitionComplete resp → Completes cfg (reads pre) resp
  | (_, .read _) => Settled cfg pre ∧ NoTerminal pre ∧ ¬ Done pre
  | (_, .done) => callbacks pre ≠ [] ∧ Settled cfg pre ∧
      finishedCallbacks pre = (callbacks pre).length
  | _ => True

theorem callbacks_append (tr es : List Event) : callbacks (tr ++ es) = callbacks tr ++ callbacks es :=
  List.filterMap_append

theorem reads_append (tr es : List Event) : reads (tr ++ es) = reads tr ++ reads es :=
  List.filterMap_append

theorem mem_callbacks {cb : Callback} {tr : List Event} :
    cb ∈ callbacks tr ↔ ∃ j, (j, EventKind.callback cb) ∈ tr := by
  unfold callbacks
  rw [List.mem_filterMap]
  constructor
  · rintro ⟨⟨j, k⟩, he, hk⟩
    cases k with
    | callback cb' => cases hk; exact ⟨j, he⟩
    | _ => cases hk
  · rintro ⟨j, he⟩
    exact ⟨_, he, rfl⟩

theorem mem_reads {r : ReadOutcome} {tr : List Event} :
    r ∈ reads tr ↔ ∃ j, (j, EventKind.read r) ∈ tr := by
  unfold reads
  rw [List.mem_filterMap]
  constructor
  · rintro ⟨⟨j, k⟩, he, hk⟩
    cases k with
    | read r' => cases hk; exact ⟨j, he⟩
    | _ => cases hk
  · rintro ⟨j, he⟩
    exact ⟨_, he, rfl⟩

/-- Nothing is read and no callback is made after `SignalDone`. -/
theorem silent_after_done {cfg : Config} {pre post : List Event} {i : ℕ}
    (h : Causal (Told cfg) (pre ++ (i, .done) :: post)) :
    callbacks (pre ++ (i, .done) :: post) = callbacks pre ∧
      reads (pre ++ (i, .done) :: post) = reads pre := by
  have later : ∀ e ∈ post, ∃ mid, Told cfg (pre ++ (i, .done) :: mid) e := by
    intro e he
    obtain ⟨mid, rest, rfl⟩ := List.append_of_mem he
    exact ⟨mid, h (pre ++ (i, .done) :: mid) e rest (by simp)⟩
  have hdone : ∀ mid, Done (pre ++ (i, .done) :: mid) := fun _ => ⟨i, by simp⟩
  have hcb : callbacks ((i, .done) :: post) = [] := by
    refine List.eq_nil_iff_forall_not_mem.2 fun cb hcb => ?_
    obtain ⟨j, hj⟩ := mem_callbacks.1 hcb
    obtain ⟨mid, hmid⟩ := later _ ((List.mem_cons.1 hj).resolve_left (by simp))
    exact hmid.2.2.1 (hdone mid)
  have hread : reads ((i, .done) :: post) = [] := by
    refine List.eq_nil_iff_forall_not_mem.2 fun r hr => ?_
    obtain ⟨j, hj⟩ := mem_reads.1 hr
    obtain ⟨mid, hmid⟩ := later _ ((List.mem_cons.1 hj).resolve_left (by simp))
    exact hmid.2.2 (hdone mid)
  rw [callbacks_append, reads_append, hcb, hread]
  exact ⟨List.append_nil _, List.append_nil _⟩

/-- `OnRecognitionStart` comes first, and only then. -/
theorem start_first {cfg : Config} {tr : List Event} (h : Causal (Told cfg) tr) :
    callbacks tr = [] ∨ ∃ resp rest, callbacks tr = .recognitionStart resp :: rest ∧
      ∀ cb ∈ rest, cb.isStart = false := by
  induction tr using List.reverseRecOn with
  | nil => exact .inl rfl
  | append_singleton tr e ih =>
    have hold := ih h.of_append
    have he := h.last
    rw [callbacks_append]
    obtain ⟨j, k⟩ := e
    cases k with
    | callback cb =>
      have hone : callbacks [(j, .callback cb)] = [cb] := rfl
      rw [hone]
      rcases hold with hnil | ⟨resp, rest, heq, hrest⟩
      · have hstart := he.1.2 hnil
        cases cb with
        | recognitionStart resp => exact .inr ⟨resp, [], by rw [hnil]; rfl, by simp⟩
        | _ => cases hstart
      · have hstart : cb.isStart = false := by
          refine Bool.eq_false_iff.2 fun hs => ?_
          have hnil := he.1.1 hs
          rw [heq] at hnil; cases hnil
        refine .inr ⟨resp, rest ++ [cb], by rw [heq]; rfl, fun cb' hcb => ?_⟩
        rcases List.mem_append.1 hcb with hcb | hcb
        · exact hrest cb' hcb
        · rw [List.mem_singleton.1 hcb]; exact hstart
    | _ => exact (List.append_nil (callbacks tr)).symm ▸ hold

/-- No callback follows a terminal one. -/
theorem terminal_last {cfg : Config} {tr : List Event} (h : Causal (Told cfg) tr)
    {front back : List Callback} {cb : Callback} (heq : callbacks tr = front ++ cb :: back)
    (hcb : cb.terminal) : back = [] := by
  induction tr using List.reverseRecOn generalizing back with
  | nil => exact absurd (congrArg List.length heq) (by simp [callbacks])
  | append_singleton tr e ih =>
    have he := h.last
    rw [callbacks_append] at heq
    obtain ⟨j, k⟩ := e
    cases k with
    | callback last =>
      have hone : callbacks [(j, .callback last)] = [last] := rfl
      rw [hone] at heq
      rcases List.eq_nil_or_concat back with rfl | ⟨init, cb', rfl⟩
      · rfl
      · -- the terminal one would be among the callbacks before the last one
        rw [List.concat_eq_append, ← List.cons_append, ← List.append_assoc] at heq
        have hinit := (List.append_inj' heq rfl).1
        have hno := he.2.1 cb (hinit ▸ by simp)
        rw [hcb] at hno; cases hno
    | _ => exact ih h.of_append ((List.append_nil (callbacks tr)).symm.trans heq)

/-! ## What the reader thread still has to do -/

namespace ReaderOp

/-- What only ends the session. -/
def isClosing : ReaderOp → Bool
  | finish | close | mark | signalDone => true
  | _ => false

def isInside : ReaderOp → Bool
  | inside _ => true
  | _ => false

/-- What leads to no other callback. -/
def isQuiet : ReaderOp → Bool
  | inside cb => cb.shielded
  | op => op.isClosing

end ReaderOp

/-- The callbacks still to be made. -/
def pending (ops : List ReaderOp) : List Callback :=
  ops.filterMap fun
    | .call cb => some cb
    | _ => none

/-- What the loop does after its first callback has begun. -/
def Plain (ops : List ReaderOp) : Prop := ∀ op ∈ ops, op.isInside = false ∧ op ≠ .callStart

/-- What may follow a callback: nothing but the end after a terminal one, which comes after
    `Finish`; no sentence callback where an exception would drop it. -/
def Follows (finished : Bool) (cb : Callback) (ops : List ReaderOp) : Prop :=
  (cb.terminal → finished = true ∧ ops.all ReaderOp.isClosing) ∧
    (cb.shielded = false → (pending ops).filter Callback.isSentence = []) ∧ Plain ops

/-- The forms that the remaining program takes; `finished` is whether `Finish` has run. -/
def Ready (finished : Bool) : List ReaderOp → Prop
  | [] => True
  | .setTid :: ops => ops = [.callStart, .fetch]
  | .callStart :: ops => ops = [.fetch]
  | .fetch :: ops | .read _ :: ops | .checkStopped _ :: ops | .checkStopping _ :: ops
  | .signalDone :: ops => ops = []
  | .call cb :: ops => cb.isStart = false ∧ Follows finished cb ops ∧ Ready finished ops
  | .inside cb :: ops => Follows finished cb ops ∧ Ready finished ops
  | .finish :: ops => Ready true ops
  | .storeSpeaker _ :: ops | .close :: ops | .mark :: ops => Ready finished ops

theorem ready_leave (b : Bool) : Ready b leave := by
  simp [leave, Ready]

theorem ready_caught (b : Bool) (what : Option Bytes) : Ready b (caught what) := by
  simp [caught, leave, Ready, Follows, Plain, pending, ReaderOp.isClosing, ReaderOp.isInside,
    Callback.isStart, Callback.shielded]

/-- `DispatchEvent` makes at most one callback, for a sentence. -/
theorem dispatchEvent_cases (resp : SpeechResponse) :
    dispatchEvent resp = [] ∨ ∃ cb, cb.isSentence ∧ dispatchEvent resp = [.call cb] := by
  unfold dispatchEvent
  split
  · exact .inl rfl
  split
  · exact .inr ⟨_, rfl, rfl⟩
  split
  · exact .inr ⟨_, rfl, rfl⟩
  split
  · exact .inr ⟨_, rfl, rfl⟩
  · exact .inl rfl

theorem isSentence_cases {cb : Callback} (h : cb.isSentence) :
    cb.isStart = false ∧ cb.terminal = false ∧ cb.shielded = false := by
  cases cb with
  | sentenceBegin resp => exact ⟨rfl, rfl, rfl⟩
  | recognitionResultChange resp => exact ⟨rfl, rfl, rfl⟩
  | sentenceEnd resp => exact ⟨rfl, rfl, rfl⟩
  | _ => cases h

theorem ready_dispatch {b : Bool} {resp : SpeechResponse} {ops : List ReaderOp}
    (hops : Ready b ops) (hp : (pending ops).filter Callback.isSentence = [])
    (hplain : Plain ops) : Ready b (dispatchEvent resp ++ ops) := by
  rcases dispatchEvent_cases resp with heq | ⟨cb, hcb, heq⟩
  · rw [heq]; exact hops
  · rw [heq]
    obtain ⟨hns, hnt, -⟩ := isSentence_cases hcb
    refine ⟨hns, ⟨fun ht => ?_, fun _ => hp, hplain⟩, hops⟩
    rw [hnt] at ht; cases ht

theorem ready_afterResponse (b : Bool) (c : ℕ) (resp : SpeechResponse) :
    Ready b (afterResponse c resp) := by
  unfold afterResponse
  split
  · simp [leave, Ready, Follows, Plain, ReaderOp.isClosing, ReaderOp.isInside, Callback.isStart,
      Callback.shielded]
  split
  · have hlast : Ready true ([.call (.recognitionComplete resp)] ++ leave) := by
      simp [leave, Ready, Follows, Plain, ReaderOp.isClosing, ReaderOp.isInside, Callback.isStart,
        Callback.shielded]
    rw [List.append_assoc, List.append_assoc]
    exact ready_dispatch hlast (by simp [pending, leave, Callback.isSentence])
      (by simp [Plain, leave, ReaderOp.isInside])
  split
  · rfl
  · exact ready_dispatch rfl rfl (by simp [Plain, ReaderOp.isInside])

theorem ready_afterRead (b : Bool) (cfg : Config) (c : ℕ) (r : ReadOutcome) :
    Ready b (afterRead cfg c r) := by
  unfold afterRead
  split
  · rfl
  · rfl
  split
  · simp [Ready, Follows, Plain, ReaderOp.isInside, Callback.isStart, Callback.terminal,
      FailCause.terminal, Callback.shielded]
  split
  · rfl
  split
  · rfl
  split
  · simp [Ready, Follows, Plain, ReaderOp.isInside, Callback.isStart, Callback.terminal,
      FailCause.terminal, Callback.shielded]
  · unfold storeSpeaker
    split
    · exact ready_afterResponse b c _
    · exact ready_afterResponse b c _

theorem pending_append (ops ops' : List ReaderOp) :
    pending (ops ++ ops') = pending ops ++ pending ops' :=
  List.filterMap_append

theorem pending_dispatch {resp : SpeechResponse} (hres : resp.hasResult = false → resp.result = {})
    (h : resp.finalFlag = 1 ∨ resp.hasResult) :
    (pending (dispatchEvent resp)).filter Callback.isSentence = sentenceFor resp := by
  cases hr : resp.hasResult with
  | false =>
    have hfinal : resp.finalFlag = 1 := by simpa [hr] using h
    simp [sentenceFor, dispatchEvent, hr, hres hr, hfinal, pending]
  | true =>
    unfold sentenceFor dispatchEvent
    simp only [hr, not_true_eq_false, if_false]
    split_ifs <;> first
      | rfl
      | omega

/-- **The sentence callbacks of a frame are made once, and no others.** -/
theorem pending_afterRead (cfg : Config) (c : ℕ) (r : ReadOutcome) :
    (pending (afterRead cfg c r)).filter Callback.isSentence = sentencesOf cfg r := by
  rcases r with _ | what | ⟨opcode, payload⟩
  · rfl
  · rfl
  simp only [afterRead, sentencesOf]
  by_cases h2 : opcode = 0x2
  · rw [if_pos h2, if_neg (by omega)]
    rfl
  rw [if_neg h2]
  by_cases h8 : opcode = 0x8
  · rw [if_pos h8, if_neg (by omega)]
    rfl
  rw [if_neg h8]
  by_cases h1 : opcode = 0x1
  swap
  · rw [if_pos h1, if_neg h1]
    rfl
  rw [if_neg (not_not.2 h1), if_pos h1]
  cases hp : parseSpeechResponse cfg.deps payload with
  | error e => rfl
  | ok resp =>
    have hstore : pending (storeSpeaker cfg.version resp) = [] := by
      unfold storeSpeaker
      split
      · rfl
      · rfl
    simp only [pending_append, hstore, List.nil_append]
    unfold afterResponse
    by_cases hcode : resp.code = 0
    swap
    · rw [if_pos hcode, if_neg hcode]
      rfl
    rw [if_neg (not_not.2 hcode), if_pos hcode]
    have hres := parse_no_result hp
    by_cases hfinal : resp.finalFlag = 1
    · rw [if_pos hfinal, ← pending_dispatch hres (.inl hfinal)]
      simp [pending, leave, Callback.isSentence]
    rw [if_neg hfinal]
    by_cases hr : resp.hasResult
    · rw [if_neg (not_not.2 hr), ← pending_dispatch hres (.inr hr)]
      simp [pending]
    · rw [if_pos hr, sentenceFor, if_pos hr]
      rfl

theorem complete_afterRead {cfg : Config} {c : ℕ} {r : ReadOutcome} {resp : SpeechResponse}
    (h : .recognitionComplete resp ∈ pending (afterRead cfg c r)) : Completes cfg [r] resp := by
  have noDispatch : ∀ resp', .recognitionComplete resp ∉ pending (dispatchEvent resp') := by
    intro resp' hm
    rcases dispatchEvent_cases resp' with heq | ⟨cb, hcb, heq⟩
    · rw [heq] at hm; cases hm
    · rw [heq] at hm
      rw [← List.mem_singleton.1 hm] at hcb
      cases hcb
  unfold afterRead at h
  split at h
  · cases h
  · cases h
  rename_i opcode payload
  split at h
  · simp [pending] at h
  split at h
  · simp [pending] at h
  split at h
  · simp [pending] at h
  rename_i h1
  split at h
  · simp [pending] at h
  rename_i resp' hp
  have hstore : pending (storeSpeaker cfg.version resp') = [] := by
    unfold storeSpeaker
    split
    · rfl
    · rfl
  simp only [pending_append, hstore, List.nil_append] at h
  unfold afterResponse at h
  split at h
  · simp [pending, leave] at h
  rename_i hcode
  split at h
  · rename_i hfinal
    have hresp : resp = resp' := by
      simp only [pending_append, List.mem_append, noDispatch] at h
      simpa [pending, leave] using h
    subst hresp
    rw [not_not.1 h1]
    exact ⟨payload, List.mem_singleton.2 rfl, hp, not_not.1 hcode, hfinal⟩
  split at h
  · simp [pending] at h
  · simp only [pending_append, List.mem_append, noDispatch] at h
    simp [pending] at h

theorem afterRead_plain (cfg : Config) (c : ℕ) (r : ReadOutcome) : Plain (afterRead cfg c r) := by
  have dispatch : ∀ resp, Plain (dispatchEvent resp) := by
    intro resp op hop
    rcases dispatchEvent_cases resp with heq | ⟨cb, -, heq⟩
    · rw [heq] at hop; cases hop
    · rw [heq] at hop
      rw [List.mem_singleton.1 hop]
      exact ⟨rfl, by simp⟩
  have response : ∀ resp, Plain (afterResponse c resp) := by
    intro resp
    unfold afterResponse Plain
    split
    · simp [leave, ReaderOp.isInside]
    split
    · simp only [List.forall_mem_append]
      exact ⟨⟨⟨by simp [ReaderOp.isInside], dispatch resp⟩, by simp [ReaderOp.isInside]⟩,
        by simp [leave, ReaderOp.isInside]⟩
    split
    · simp [ReaderOp.isInside]
    · simp only [List.forall_mem_append]
      exact ⟨dispatch resp, by simp [ReaderOp.isInside]⟩
  unfold afterRead Plain
  split
  · simp [ReaderOp.isInside]
  · simp [ReaderOp.isInside]
  split
  · simp [ReaderOp.isInside]
  split
  · simp [ReaderOp.isInside]
  split
  · simp [ReaderOp.isInside]
  split
  · simp [ReaderOp.isInside]
  · rename_i resp _
    refine List.forall_mem_append.2 ⟨?_, response resp⟩
    unfold storeSpeaker
    split
    · simp [ReaderOp.isInside]
    · simp

/-! ## The invariant -/

/-- What the reader thread has told the listener, read and still has to do. -/
structure Reading (cfg : Config) (tr : List Event) (finished : Bool) (ops : List ReaderOp) :
    Prop where
  ready : Ready finished ops
  start : callbacks tr = [] ↔ .callStart ∈ ops
  sentences : (callbacks tr ++ pending ops).filter Callback.isSentence =
    (reads tr).flatMap (sentencesOf cfg)
  quiet : (∃ cb ∈ callbacks tr, cb.terminal) → ops.all ReaderOp.isQuiet
  complete : ∀ resp, .recognitionComplete resp ∈ pending ops → Completes cfg (reads tr) resp
  inside : finishedCallbacks tr + ops.countP ReaderOp.isInside = (callbacks tr).length
  done : Done tr → ops = []

/-- What the histories and states of all threads satisfy. -/
structure Session (cfg : Config) (tr : List Event) (sh : Shared) : Prop where
  told : Causal (Told cfg) tr
  finished : sh.finished → sh.state = .stopped
  byReader : ∀ {j k}, (j, k) ∈ tr → k.ofReader → ∃ i, (i, EventKind.spawned j) ∈ tr

def tells (cfg : Config) (_ : ℕ) (tr : List Event) (sh : Shared) (t : Thread) : Prop :=
  ∀ ops, t.reader = some ops → Reading cfg tr sh.finished ops

/-- What is the reader thread's is changed by the reader thread. -/
structure TellsOnly (i : ℕ) (tr : List Event) (sh : Shared) (es : List Event) (sh' : Shared) :
    Prop where
  finished : sh'.finished = sh.finished ∨ ∃ m, (m, EventKind.spawned i) ∈ tr
  events : ∀ e ∈ es, e.2.ofReader → ∃ m, (m, EventKind.spawned i) ∈ tr

/-! ## Events that the listener is not told -/

/-- The events that `Reading` depends on. -/
def EventKind.told : EventKind → Bool
  | read _ | callback _ | callbackDone | done => true
  | _ => false

section

variable {cfg : Config} {i : ℕ} {tr es : List Event} {b : Bool} {op : ReaderOp}
  {ops ops' : List ReaderOp}

theorem callbacks_untold (h : ∀ e ∈ es, e.2.told = false) : callbacks (tr ++ es) = callbacks tr := by
  have hnil : callbacks es = [] := by
    refine List.eq_nil_iff_forall_not_mem.2 fun cb hcb => ?_
    obtain ⟨j, hj⟩ := mem_callbacks.1 hcb
    cases h _ hj
  rw [callbacks_append, hnil, List.append_nil]

theorem reads_untold (h : ∀ e ∈ es, e.2.told = false) : reads (tr ++ es) = reads tr := by
  have hnil : reads es = [] := by
    refine List.eq_nil_iff_forall_not_mem.2 fun r hr => ?_
    obtain ⟨j, hj⟩ := mem_reads.1 hr
    cases h _ hj
  rw [reads_append, hnil, List.append_nil]

theorem finishedCallbacks_untold (h : ∀ e ∈ es, e.2.told = false) :
    finishedCallbacks (tr ++ es) = finishedCallbacks tr := by
  have hzero : es.countP (fun e => e.2 = .callbackDone) = 0 := by
    refine List.countP_eq_zero.2 fun e he => ?_
    have hk := h e he
    simp only [decide_eq_true_eq]
    intro heq
    rw [heq] at hk
    cases hk
  unfold finishedCallbacks
  rw [List.countP_append, hzero, Nat.add_zero]

theorem done_untold (h : ∀ e ∈ es, e.2.told = false) : Done (tr ++ es) ↔ Done tr := by
  constructor
  · rintro ⟨j, hj⟩
    rcases List.mem_append.1 hj with hj | hj
    · exact ⟨j, hj⟩
    · cases h _ hj
  · rintro ⟨j, hj⟩
    exact ⟨j, mem_grow hj⟩

theorem Reading.untold (h : Reading cfg tr b ops) (hes : ∀ e ∈ es, e.2.told = false) :
    Reading cfg (tr ++ es) b ops where
  ready := h.ready
  start := by rw [callbacks_untold hes]; exact h.start
  sentences := by rw [callbacks_untold hes, reads_untold hes]; exact h.sentences
  quiet := by rw [callbacks_untold hes]; exact h.quiet
  complete := by rw [reads_untold hes]; exact h.complete
  inside := by rw [callbacks_untold hes, finishedCallbacks_untold hes]; exact h.inside
  done hd := h.done ((done_untold hes).1 hd)

theorem told_of_ofReader {k : EventKind} (h : k.ofReader = false) : k.told = false := by
  cases k with
  | read r => cases h
  | callback cb => cases h
  | callbackDone => cases h
  | done => cases h
  | _ => rfl

/-- A history that goes on with events that need nothing before them. -/
theorem told_append (h : Causal (Told cfg) tr) (hes : ∀ e ∈ es, e.2.told = false) :
    Causal (Told cfg) (tr ++ es) := by
  refine h.append fun mid e post heq => ?_
  obtain ⟨j, k⟩ := e
  have hk := hes (j, k) (heq ▸ List.mem_append_right mid (List.mem_cons_self ..))
  cases k with
  | read r => cases hk
  | callback cb => cases hk
  | callbackDone => cases hk
  | done => cases hk
  | _ => trivial

/-! ## Steps of the reader thread -/

/-- The next statements, when they make the same sentence callbacks. -/
theorem Reading.next {b' : Bool} (h : Reading cfg tr b (op :: ops)) (hr : Ready b' ops')
    (hstart : .callStart ∈ ops' ↔ .callStart ∈ op :: ops)
    (hp : (pending ops').filter Callback.isSentence =
      (pending (op :: ops)).filter Callback.isSentence)
    (hc : ∀ resp, .recognitionComplete resp ∈ pending ops' →
      .recognitionComplete resp ∈ pending (op :: ops))
    (hq : (op :: ops).all ReaderOp.isQuiet → ops'.all ReaderOp.isQuiet)
    (hi : ops'.countP ReaderOp.isInside = (op :: ops).countP ReaderOp.isInside) :
    Reading cfg tr b' ops' where
  ready := hr
  start := h.start.trans hstart.symm
  sentences := by
    rw [← h.sentences, List.filter_append, List.filter_append, hp]
  quiet ht := hq (h.quiet ht)
  complete resp hm := h.complete resp (hc resp hm)
  inside := by rw [hi]; exact h.inside
  done hd := absurd (h.done hd) (List.cons_ne_nil _ _)

/-- A statement that makes no callback is over. -/
theorem Reading.skip {b' : Bool} (h : Reading cfg tr b (op :: ops)) (hr : Ready b' ops)
    (hcs : op ≠ .callStart) (hcall : pending [op] = []) (hin : op.isInside = false) :
    Reading cfg tr b' ops := by
  have hp : pending (op :: ops) = pending ops := by
    have := pending_append [op] ops
    rwa [hcall, List.nil_append] at this
  refine h.next hr ?_ (by rw [hp]) (fun resp => by rw [hp]; exact id) ?_ ?_
  · rw [List.mem_cons, or_iff_right hcs.symm]
  · rw [List.all_cons, Bool.and_eq_true]
    exact And.right
  · rw [List.countP_cons_of_neg (by rw [hin]; simp)]

theorem Reading.noDone (h : Reading cfg tr b (op :: ops)) : ¬ Done tr :=
  fun hd => absurd (h.done hd) (List.cons_ne_nil _ _)

theorem Reading.noTerminal (h : Reading cfg tr b (op :: ops)) (hq : op.isQuiet = false) :
    NoTerminal tr := by
  intro cb hcb
  refine Bool.eq_false_iff.2 fun ht => ?_
  have hall := h.quiet ⟨cb, hcb, ht⟩
  rw [List.all_cons, hq] at hall
  cases hall

/-- The last statement before a `Read`, or of the loop. -/
theorem Reading.settled (h : Reading cfg tr b [op]) (hcall : pending [op] = []) :
    Settled cfg tr := by
  have := h.sentences
  rwa [hcall, List.append_nil] at this

theorem shielded_of_terminal {cb : Callback} (h : cb.terminal) : cb.shielded := by
  cases cb with
  | recognitionComplete resp => rfl
  | fail cause => rfl
  | _ => cases h

theorem quiet_of_closing (h : ops.all ReaderOp.isClosing) : ops.all ReaderOp.isQuiet := by
  refine List.all_eq_true.2 fun op hop => ?_
  have hc := List.all_eq_true.1 h op hop
  cases op with
  | finish => rfl
  | close => rfl
  | mark => rfl
  | signalDone => rfl
  | _ => cases hc

theorem Done.of_snoc {k : EventKind} (h : Done (tr ++ [(i, k)])) (hk : k ≠ .done) : Done tr := by
  obtain ⟨j, hj⟩ := h
  rcases List.mem_append.1 hj with hj | hj
  · exact ⟨j, hj⟩
  · cases List.mem_singleton.1 hj
    exact absurd rfl hk

theorem Plain.countP (h : Plain ops) : ops.countP ReaderOp.isInside = 0 :=
  List.countP_eq_zero.2 fun op hop => by rw [(h op hop).1]; simp

theorem Plain.callStart (h : Plain ops) : .callStart ∉ ops :=
  fun hm => (h _ hm).2 rfl

/-- The last statement of the loop body, before what makes no sentence callback. -/
theorem Reading.turn (h : Reading cfg tr b [op]) (hq : op.isQuiet = false) (hcs : op ≠ .callStart)
    (hp : pending [op] = []) (hin : op.isInside = false) (hr : Ready b ops') (hplain : Plain ops')
    (hs : (pending ops').filter Callback.isSentence = [])
    (hc : ∀ resp, .recognitionComplete resp ∉ pending ops') : Reading cfg tr b ops' := by
  refine h.next hr ?_ (by rw [hp, hs]; rfl) (fun resp hm => absurd hm (hc resp)) ?_ ?_
  · exact iff_of_false hplain.callStart (by simpa using hcs.symm)
  · intro hall
    rw [List.all_cons, hq] at hall
    cases hall
  · rw [hplain.countP, List.countP_cons_of_neg (by rw [hin]; simp)]
    rfl

theorem plain_leave : Plain leave := by
  simp [Plain, leave, ReaderOp.isInside]

theorem plain_read (c : ℕ) : Plain [.read c] := by
  simp [Plain, ReaderOp.isInside]

theorem Reading.leaves (h : Reading cfg tr b [op]) (hq : op.isQuiet = false)
    (hcs : op ≠ .callStart) (hp : pending [op] = []) (hin : op.isInside = false) :
    Reading cfg tr b leave :=
  h.turn hq hcs hp hin (ready_leave b) plain_leave rfl fun _ => List.not_mem_nil

theorem Reading.again (h : Reading cfg tr b [op]) (hq : op.isQuiet = false)
    (hcs : op ≠ .callStart) (hp : pending [op] = []) (hin : op.isInside = false) (c : ℕ) :
    Reading cfg tr b [.read c] :=
  h.turn hq hcs hp hin rfl (plain_read c) rfl fun _ => List.not_mem_nil

/-- A callback begins. -/
theorem Reading.begins (h : Reading cfg tr b (op :: ops)) {cb : Callback}
    (hr : Ready b (.inside cb :: ops)) (hq : op.isQuiet = false) (hin : op.isInside = false)
    (hp : (cb :: pending ops).filter Callback.isSentence =
      (pending (op :: ops)).filter Callback.isSentence)
    (hc : ∀ resp, .recognitionComplete resp ∈ pending ops →
      .recognitionComplete resp ∈ pending (op :: ops)) :
    Reading cfg (tr ++ [(i, .callback cb)]) b (.inside cb :: ops) := by
  have hplain : Plain ops := hr.1.2.2
  have hcb : callbacks (tr ++ [(i, .callback cb)]) = callbacks tr ++ [cb] := callbacks_append ..
  have hrd : reads (tr ++ [(i, .callback cb)]) = reads tr :=
    (reads_append ..).trans (List.append_nil _)
  refine ⟨hr, ?_, ?_, ?_, ?_, ?_, ?_⟩
  · rw [hcb]
    refine iff_of_false (by simp) fun hm => ?_
    exact hplain.callStart ((List.mem_cons.1 hm).resolve_left (by simp))
  · have hpend : pending (.inside cb :: ops) = pending ops := rfl
    rw [hcb, hrd, ← h.sentences, hpend, List.append_assoc, List.filter_append,
      List.singleton_append, hp, ← List.filter_append]
  · rw [hcb]
    rintro ⟨cb', hm, ht⟩
    rcases List.mem_append.1 hm with hm | hm
    · rw [h.noTerminal hq cb' hm] at ht; cases ht
    · rw [List.mem_singleton.1 hm] at ht
      rw [List.all_cons, Bool.and_eq_true]
      exact ⟨shielded_of_terminal ht, quiet_of_closing (hr.1.1 ht).2⟩
  · intro resp hm
    rw [hrd]
    exact h.complete resp (hc resp hm)
  · have hold := h.inside
    rw [List.countP_cons_of_neg (by rw [hin]; simp), hplain.countP] at hold
    rw [hcb, List.countP_cons_of_pos rfl, hplain.countP, List.length_append, ← hold]
    simp [finishedCallbacks]
  · exact fun hd => absurd (hd.of_snoc (by simp)) h.noDone

/-- A callback returns or throws. -/
theorem Reading.ends {cb : Callback} (h : Reading cfg tr b (.inside cb :: ops))
    (hr : Ready b ops') (hplain : Plain ops')
    (hp : (pending ops').filter Callback.isSentence = (pending ops).filter Callback.isSentence)
    (hc : ∀ resp, .recognitionComplete resp ∈ pending ops' → .recognitionComplete resp ∈ pending ops)
    (hq : (ReaderOp.inside cb :: ops).all ReaderOp.isQuiet → ops'.all ReaderOp.isQuiet) :
    Reading cfg (tr ++ [(i, .callbackDone)]) b ops' := by
  have hold : Plain ops := h.ready.1.2.2
  have hcb : callbacks (tr ++ [(i, .callbackDone)]) = callbacks tr :=
    (callbacks_append ..).trans (List.append_nil _)
  have hrd : reads (tr ++ [(i, .callbackDone)]) = reads tr :=
    (reads_append ..).trans (List.append_nil _)
  refine ⟨hr, ?_, ?_, ?_, ?_, ?_, ?_⟩
  · rw [hcb, h.start]
    refine iff_of_false (fun hm => ?_) hplain.callStart
    exact hold.callStart ((List.mem_cons.1 hm).resolve_left (by simp))
  · have hpend : pending (.inside cb :: ops) = pending ops := rfl
    rw [hcb, hrd, ← h.sentences, hpend, List.filter_append, List.filter_append, hp]
  · rw [hcb]
    exact fun ht => hq (h.quiet ht)
  · intro resp hm
    rw [hrd]
    exact h.complete resp (hc resp hm)
  · have hcount := h.inside
    rw [List.countP_cons_of_pos rfl, hold.countP] at hcount
    rw [hcb, hplain.countP, ← hcount]
    simp [finishedCallbacks]
  · exact fun hd => absurd (hd.of_snoc (by simp)) h.noDone

/-- A `Read` returns. -/
theorem Reading.reads {c : ℕ} (h : Reading cfg tr b [.read c]) (r : ReadOutcome) :
    Reading cfg (tr ++ [(i, .read r)]) b (afterRead cfg c r) := by
  have hplain := afterRead_plain cfg c r
  have hcb : callbacks (tr ++ [(i, .read r)]) = callbacks tr :=
    (callbacks_append ..).trans (List.append_nil _)
  have hrd : Speech.reads (tr ++ [(i, .read r)]) = Speech.reads tr ++ [r] := reads_append ..
  refine ⟨ready_afterRead b cfg c r, ?_, ?_, ?_, ?_, ?_, ?_⟩
  · rw [hcb, h.start]
    exact iff_of_false (by simp) hplain.callStart
  · rw [hcb, hrd, List.filter_append, pending_afterRead, List.flatMap_append, ← h.sentences]
    simp [pending]
  · rw [hcb]
    rintro ⟨cb, hm, ht⟩
    rw [h.noTerminal rfl cb hm] at ht; cases ht
  · intro resp hm
    obtain ⟨payload, hmem, hrest⟩ := complete_afterRead hm
    rw [hrd]
    exact ⟨payload, List.mem_append_right _ hmem, hrest⟩
  · have hcount := h.inside
    rw [hcb, hplain.countP, ← hcount]
    simp [finishedCallbacks, ReaderOp.isInside]
  · exact fun hd => absurd (hd.of_snoc (by simp)) h.noDone

/-- `SignalDone`. -/
theorem Reading.signals (h : Reading cfg tr b [.signalDone]) :
    Reading cfg (tr ++ [(i, .done)]) b [] := by
  have hcb : callbacks (tr ++ [(i, .done)]) = callbacks tr :=
    (callbacks_append ..).trans (List.append_nil _)
  have hrd : Speech.reads (tr ++ [(i, .done)]) = Speech.reads tr :=
    (reads_append ..).trans (List.append_nil _)
  refine ⟨trivial, ?_, ?_, fun _ => rfl, fun _ hm => absurd hm List.not_mem_nil, ?_, fun _ => rfl⟩
  · rw [hcb, h.start]
    exact iff_of_false (by simp) List.not_mem_nil
  · rw [hcb, hrd]
    exact h.sentences
  · rw [hcb, ← h.inside]
    simp [finishedCallbacks, ReaderOp.isInside]

/-- What a step of the reader thread owes. -/
structure ReaderTells (cfg : Config) (i : ℕ) (tr : List Event) (r : ReaderResult) : Prop where
  told : Causal (Told cfg) (tr ++ r.events.map (i, ·))
  reading : Reading cfg (tr ++ r.events.map (i, ·)) r.sh.finished r.ops
  finished : r.sh.finished → r.sh.state = .stopped

/-- A step that makes and ends no callback and reads nothing. -/
theorem ReaderTells.untold {r : ReaderResult} (ht : Causal (Told cfg) tr)
    (hR : Reading cfg tr r.sh.finished r.ops) (hf : r.sh.finished → r.sh.state = .stopped)
    (hes : r.events.all fun k => !k.told) : ReaderTells cfg i tr r := by
  have hq : ∀ e ∈ r.events.map (i, ·), e.2.told = false := by
    rintro ⟨j, k⟩ he
    simpa using List.all_eq_true.1 hes k (mem_tagged.1 he).2
  exact ⟨told_append ht hq, hR.untold hq, hf⟩

theorem readerStep_tells {sh : Shared} {ch : Choice} {r : ReaderResult}
    (ht : Causal (Told cfg) tr) (hf : sh.finished → sh.state = .stopped)
    (hR : Reading cfg tr sh.finished (op :: ops))
    (h : readerStep cfg i sh ops op ch = some r) : ReaderTells cfg i tr r := by
  have hready := hR.ready
  unfold readerStep at h
  split at h
  · -- setTid
    cases h
    have heq : ops = [.callStart, .fetch] := hready
    subst heq
    exact .untold ht (hR.skip rfl (by simp) rfl rfl) hf rfl
  · -- callStart
    cases h
    have heq : ops = [.fetch] := hready
    subst heq
    have hplain : Plain [ReaderOp.fetch] := by simp [Plain, ReaderOp.isInside]
    refine ⟨ht.snoc ?_, hR.begins ⟨⟨nofun, fun _ => rfl, hplain⟩, rfl⟩ rfl rfl rfl
      (fun resp hm => hm), hf⟩
    exact ⟨iff_of_true rfl (hR.start.2 (List.mem_cons_self ..)), hR.noTerminal rfl, hR.noDone,
      fun _ h => by cases h⟩
  · -- call
    rename_i cb
    cases h
    obtain ⟨hns, hfollows, hrest⟩ := hready
    refine ⟨ht.snoc ⟨?_, hR.noTerminal rfl, hR.noDone, ?_⟩,
      hR.begins ⟨hfollows, hrest⟩ rfl rfl rfl fun resp hm => List.mem_cons_of_mem _ hm, hf⟩
    · refine iff_of_false (by rw [hns]; simp) fun hnil => ?_
      exact hfollows.2.2.callStart ((List.mem_cons.1 (hR.start.1 hnil)).resolve_left (by simp))
    · rintro resp rfl
      exact hR.complete resp (List.mem_cons_self ..)
  · -- inside
    cases h
    refine ⟨ht.snoc trivial, hR.ends hready.2 hready.1.2.2 rfl (fun _ h => h) ?_, hf⟩
    rw [List.all_cons, Bool.and_eq_true]
    exact And.right
  · rename_i cb what
    cases h
    refine ⟨ht.snoc trivial, ?_, hf⟩
    by_cases hsh : cb.shielded
    · simp only [hsh, if_true]
      refine hR.ends hready.2 hready.1.2.2 rfl (fun _ h => h) ?_
      rw [List.all_cons, Bool.and_eq_true]
      exact And.right
    · have hno : cb.shielded = false := Bool.eq_false_iff.2 hsh
      simp only [hno]
      refine hR.ends (ready_caught _ what) ?_ ?_ ?_ ?_
      · simp [Plain, caught, leave, ReaderOp.isInside]
      · rw [hready.1.2.1 hno]
        simp [caught, leave, pending, Callback.isSentence]
      · simp [caught, leave, pending]
      · rw [List.all_cons]
        simp [ReaderOp.isQuiet, hno]
  · -- fetch
    cases h
    have heq : ops = [] := hready
    subst heq
    refine .untold ht ?_ hf rfl
    cases sh.conn with
    | none => exact hR.leaves rfl (by simp) rfl rfl
    | some c => exact hR.again rfl (by simp) rfl rfl c
  · -- read
    rename_i c outcome
    cases h
    have heq : ops = [] := hready
    subst heq
    exact ⟨ht.snoc ⟨hR.settled rfl, hR.noTerminal rfl, hR.noDone⟩, hR.reads outcome, hf⟩
  · -- checkStopped
    cases h
    have heq : ops = [] := hready
    subst heq
    refine .untold ht ?_ hf rfl
    dsimp only
    split
    · exact hR.leaves rfl (by simp) rfl rfl
    · exact hR.again rfl (by simp) rfl rfl _
  · -- checkStopping
    rename_i cause
    cases h
    have heq : ops = [] := hready
    subst heq
    refine .untold ht ?_ hf rfl
    dsimp only
    split
    · exact hR.leaves rfl (by simp) rfl rfl
    · refine hR.turn rfl (by simp) rfl rfl ?_ ?_ ?_ ?_
      · simp [leave, Ready, Follows, Plain, ReaderOp.isClosing, ReaderOp.isInside,
          Callback.isStart, Callback.shielded]
      · simp [Plain, leave, ReaderOp.isInside]
      · simp [leave, pending, Callback.isSentence]
      · simp [leave, pending]
  · -- storeSpeaker
    cases h
    exact .untold ht (hR.skip hready (by simp) rfl rfl) hf rfl
  · -- finish
    split at h
    · rename_i hfin
      cases h
      refine .untold ht (hR.skip ?_ (by simp) rfl rfl) hf rfl
      rw [hfin]
      exact hready
    · cases h
      have hnext : Reading cfg tr true (.close :: ops) := by
        refine hR.next hready (by simp) rfl (fun _ h => h) ?_ rfl
        rw [List.all_cons, List.all_cons]
        exact id
      exact .untold ht hnext (fun _ => rfl) rfl
  · -- close
    cases h
    obtain ⟨hfin, -, -, -⟩ := outside_close sh
    refine .untold ht ?_ ?_ ?_
    · exact hR.skip (hfin ▸ hready) (by simp) rfl rfl
    · intro hfin'
      rw [(close_same sh).1]
      exact hf (hfin ▸ hfin')
    · unfold Shared.close
      cases sh.conn with
      | none => rfl
      | some c => rfl
  · -- mark
    split at h
    · cases h
      exact .untold ht (hR.skip hready (by simp) rfl rfl) hf rfl
    · cases h
  · -- signalDone
    split at h
    · cases h
      have heq : ops = [] := hready
      subst heq
      have hstart : callbacks tr ≠ [] := fun hnil => absurd (hR.start.1 hnil) (by simp)
      exact ⟨ht.snoc ⟨hstart, hR.settled rfl, hR.inside⟩, hR.signals, hf⟩
    · cases h
  · cases h

end

/-! ## The callbacks of a session -/

theorem tells_outside {cfg : Config} {i j : ℕ} {tr : List Event} {sh sh' : Shared}
    {ks : List EventKind} {t : Thread} (h : tells cfg j tr sh t) (ho : Outside sh sh' ks) :
    tells cfg j (tr ++ ks.map (i, ·)) sh' t := by
  intro ops hops
  rw [ho.finished]
  refine (h ops hops).untold ?_
  rintro ⟨k, kind⟩ he
  exact told_of_ofReader (ho.quiet kind (mem_tagged.1 he).2)

theorem Session.outside {cfg : Config} {i : ℕ} {tr : List Event} {sh sh' : Shared}
    {ks : List EventKind} (h : Session cfg tr sh) (ho : Outside sh sh' ks)
    (hst : sh.state = .stopped → sh'.state = .stopped) :
    Session cfg (tr ++ ks.map (i, ·)) sh' where
  told := by
    refine told_append h.told ?_
    rintro ⟨k, kind⟩ he
    exact told_of_ofReader (ho.quiet kind (mem_tagged.1 he).2)
  finished hf := hst (h.finished (ho.finished ▸ hf))
  byReader := by
    intro j k hm hk
    rcases List.mem_append.1 hm with hm | hm
    · exact (h.byReader hm hk).imp fun _ => mem_grow
    · rw [ho.quiet k (mem_tagged.1 hm).2] at hk
      cases hk

theorem tellsOnly_outside {i : ℕ} {tr : List Event} {sh sh' : Shared} {ks : List EventKind}
    (ho : Outside sh sh' ks) : TellsOnly i tr sh (ks.map (i, ·)) sh' where
  finished := .inl ho.finished
  events := by
    rintro ⟨j, k⟩ he hk
    rw [ho.quiet k (mem_tagged.1 he).2] at hk
    cases hk

/-- Before the reader thread is started, nothing has been told. -/
theorem reading_readLoop {cfg : Config} {tr : List Event} {sh : Shared} (h : Session cfg tr sh)
    (hno : ∀ j t, (j, EventKind.spawned t) ∉ tr) (b : Bool) : Reading cfg tr b readLoop := by
  have none : ∀ j k, k.ofReader → (j, k) ∉ tr := fun j k hk hm => by
    obtain ⟨i, hi⟩ := h.byReader hm hk
    exact hno i j hi
  have hcb : callbacks tr = [] := List.eq_nil_iff_forall_not_mem.2 fun cb hm => by
    obtain ⟨j, hj⟩ := mem_callbacks.1 hm
    exact none j _ rfl hj
  have hrd : reads tr = [] := List.eq_nil_iff_forall_not_mem.2 fun r hm => by
    obtain ⟨j, hj⟩ := mem_reads.1 hm
    exact none j _ rfl hj
  have hfin : finishedCallbacks tr = 0 := by
    refine List.countP_eq_zero.2 ?_
    rintro ⟨j, k⟩ he hk
    cases of_decide_eq_true hk
    exact none j _ rfl he
  refine ⟨rfl, ?_, ?_, ?_, fun _ hm => absurd hm List.not_mem_nil, ?_, ?_⟩
  · exact iff_of_true hcb (by simp [readLoop])
  · rw [hcb, hrd]
    rfl
  · rw [hcb]
    exact fun ⟨_, hm, _⟩ => absurd hm List.not_mem_nil
  · rw [hcb, hfin]
    rfl
  · exact fun ⟨j, hj⟩ => absurd hj (none j _ rfl)

/-- **The threads of a session keep the protocol of the callbacks.** -/
theorem told (cfg : Config) :
    RelyGuarantee (session cfg) (fun tr sh => Lifecycle tr sh ∧ Session cfg tr sh)
      (fun i tr sh t => Owns i tr sh t ∧ tells cfg i tr sh t)
      (fun i tr sh es sh' => Leaves i tr sh es sh' ∧ TellsOnly i tr sh es sh') := by
  refine (ownership cfg).extend ?_ ?_
  · intro i tr sh t ch o _ hown hk hS ht ho
    rcases threadStep_cases ho with ⟨d, rfl⟩ | ⟨pc, r, hpc, hr, rfl⟩ | ⟨entry, -, -, rfl⟩ |
      ⟨op, rest, r, -, hops, hr, rfl⟩
    · have hout : Outside sh { sh with now := sh.now + d } [] := outside_of rfl rfl rfl rfl
      exact ⟨hS.outside (i := i) hout id, tells_outside (i := i) ht hout,
        tellsOnly_outside (i := i) hout, by simp⟩
    · have hout := callStep_outside hr
      refine ⟨hS.outside hout hk.guar.stopped, tells_outside (t := t) ht hout,
        tellsOnly_outside hout, fun j t' hspawn => ?_⟩
      rcases callStep_spawned hr hspawn with ⟨rfl, rfl⟩ | ⟨-, rfl⟩
      · have hR := reading_readLoop hS (hown.call _ hpc).2 sh.finished
        have ht' : tells cfg j tr sh { reader := some readLoop } := by
          rintro _ ⟨⟩
          exact hR
        exact tells_outside ht' hout
      · exact nofun
    · have hout : Outside sh sh [] := outside_of rfl rfl rfl rfl
      exact ⟨hS.outside (i := i) hout id, tells_outside (i := i) (t := t) ht hout,
        tellsOnly_outside (i := i) hout, by simp⟩
    · have hsp : ∃ m, (m, EventKind.spawned i) ∈ tr := hown.reader (by rw [hops]; simp)
      have hR := readerStep_tells (i := i) hS.told hS.finished (ht _ hops) hr
      refine ⟨⟨hR.told, hR.finished, ?_⟩, ?_, ⟨.inr hsp, fun _ _ _ => hsp⟩, by simp⟩
      · intro j k hm hofr
        rcases List.mem_append.1 hm with hm | hm
        · exact (hS.byReader hm hofr).imp fun _ => mem_grow
        · obtain ⟨rfl, -⟩ := mem_tagged.1 hm
          exact hsp.imp fun _ => mem_grow
      · rintro _ ⟨⟩
        exact hR.reading
  · -- the reader thread is the only one that tells the listener anything
    intro i j tr sh es sh' t hne hI hown _ _ ht hg ops hops
    obtain ⟨m, hm⟩ := hown.reader (by rw [hops]; simp)
    have hno : ¬ ∃ k, (k, EventKind.spawned i) ∈ tr := fun ⟨k, hk⟩ => hne (hI.spawnOnce hm hk)
    rw [hg.finished.resolve_right hno]
    refine (ht ops hops).untold fun e he => told_of_ofReader ?_
    exact Bool.eq_false_iff.2 fun h => hno (hg.events e he h)

theorem session_initial (cfg : Config) (voiceId : Bytes) :
    Session cfg [] (initial voiceId).shared where
  told := causal_nil
  finished h := nomatch h
  byReader h := absurd h List.not_mem_nil

/-- **The callback protocol of a session**, for every run: `OnRecognitionStart` comes first and
    only then; at each `Read` and at the end, the sentence callbacks have been those of the
    frames read, in their order; no callback follows a terminal one; `OnRecognitionComplete` is
    for a frame with code 0 and final 1; and a terminal callback runs in the stopped state. -/
theorem callback_protocol (cfg : Config) (voiceId : Bytes) {acts : List (ℕ × Choice)}
    {p : Pool Shared Thread} {tr : List Event}
    (h : (session cfg).pool.run (initial voiceId) acts = some (p, tr)) :
    (callbacks tr = [] ∨ ∃ resp rest, callbacks tr = .recognitionStart resp :: rest ∧
        ∀ cb ∈ rest, cb.isStart = false) ∧
      (Done tr → callbacks tr ≠ []) ∧
      (∀ pre i r post, tr = pre ++ (i, .read r) :: post → Settled cfg pre) ∧
      (Done tr → Settled cfg tr) ∧
      (∀ front cb back, callbacks tr = front ++ cb :: back → cb.terminal → back = []) ∧
      (∀ resp, .recognitionComplete resp ∈ callbacks tr → Completes cfg (reads tr) resp) ∧
      (∀ i cb rest, (p.threads i).reader = some (.inside cb :: rest) → cb.terminal →
        p.shared.state = .stopped) := by
  obtain ⟨⟨-, hS⟩, hthreads⟩ :=
    (told cfg).run ⟨lifecycle_initial voiceId, session_initial cfg voiceId⟩
      (fun i => ⟨owns_initial voiceId i, nofun⟩) h
  refine ⟨start_first hS.told, ?_, ?_, ?_, fun _ _ _ => terminal_last hS.told, ?_, ?_⟩
  · rintro ⟨j, hj⟩
    obtain ⟨pre, ⟨post, rfl⟩, hpre⟩ := hS.told.mem hj
    rw [callbacks_append]
    exact List.append_ne_nil_of_left_ne_nil hpre.1 _
  · rintro pre i r post rfl
    exact (hS.told pre _ post rfl).1
  · rintro ⟨j, hj⟩
    obtain ⟨pre, post, rfl⟩ := List.append_of_mem hj
    obtain ⟨hcb, hrd⟩ := silent_after_done hS.told
    have hpre := hS.told pre _ post rfl
    unfold Settled
    rw [hcb, hrd]
    exact hpre.2.1
  · intro resp hm
    obtain ⟨j, hj⟩ := mem_callbacks.1 hm
    obtain ⟨pre, ⟨post, rfl⟩, hpre⟩ := hS.told.mem hj
    obtain ⟨payload, hmem, hrest⟩ := hpre.2.2.2 resp rfl
    rw [reads_append]
    exact ⟨payload, List.mem_append_left _ hmem, hrest⟩
  · intro i cb rest hi ht
    have hR := (hthreads i).2 _ hi
    exact hS.finished (hR.ready.1.1 ht).1

/-- A session whose first sentence callback throws. -/
def sampleThrows : List (ℕ × Choice) :=
  sampleStart ++ [(1, .go), (1, .go), (1, .returns), (1, .go), (1, .read (.frame 0x1 sampleSentence)),
    (1, .go), (1, .throws none), (1, .go), (1, .go), (1, .go), (1, .returns), (1, .go), (1, .go)]

theorem callback_protocol_throws : ∃ p tr resp resp',
    (session sampleConfig).pool.run (initial []) sampleThrows = some (p, tr) ∧
      callbacks tr = [.recognitionStart resp, .sentenceBegin resp', .fail (.thrown none)] ∧
      Done tr ∧ Settled sampleConfig tr := by
  have run : ∃ p tr resp resp',
      (session sampleConfig).pool.run (initial []) sampleThrows = some (p, tr) ∧
        callbacks tr = [.recognitionStart resp, .sentenceBegin resp', .fail (.thrown none)] ∧
        (1, .done) ∈ tr := by
    refine ⟨_, _, _, _, rfl, rfl, ?_⟩
    decide
  obtain ⟨p, tr, resp, resp', hrun, hcb, hdone⟩ := run
  exact ⟨p, tr, resp, resp', hrun, hcb, ⟨1, hdone⟩,
    (callback_protocol sampleConfig [] hrun).2.2.2.1 ⟨1, hdone⟩⟩

end TrtcAsr.Speech
