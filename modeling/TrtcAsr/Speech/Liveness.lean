/-
  No deadlock: from whatever a session has come to, every call can still return and the reader
  thread can still end.

  A thread of a session waits for `write_mu`, for `done_mu`, for the reader thread to be done, or
  for the clock.  The holder of a mutex is between taking and releasing it, where nothing holds it
  up; and a reader thread that has not signalled done has a next operation.  So some thread can
  always step, and the steps can be chosen such that they lower a rank.

  * `CallPc.rank`, `ReaderOp.rank`: how much is left of a call and of the reader loop.
  * `Crewed`: who holds `done_mu`, and what is left of the reader loop until it is done.
  * `session_can_end_iff`: the exception is the destructor called from a listener callback, which
    waits for its own thread.
-/
import TrtcAsr.Lib.Progress
import TrtcAsr.Speech.Lifecycle

namespace TrtcAsr.Speech

/-! ## Ranks -/

/-- What is left of `WaitForReadLoopOrClose`, when a terminal response has been recorded or not. -/
def WaitPc.rank (terminal : Bool) : WaitPc → ℕ
  | enter => 9
  | test _ => if terminal then 4 else 8
  | timed _ => if terminal then 6 else 7
  | timedOut _ => if terminal then 5 else 6
  | close => 5
  | grace => 4
  | unbounded | graceEnd => 3

/-- What is left of a `Start`; its last step pays for the reader thread. -/
def StartPc.rank : StartPc → ℕ
  | fail _ => 1
  | close _ | drop _ _ | connect | validate => 2
  | cas | ack _ _ => 3
  | spawn => 15
  | timeout => 16
  | run _ => 17
  | publish _ => 18
  | sent _ => 19
  | send _ _ => 20

def WritePc.rank : WritePc → ℕ
  | sent => 1
  | send _ _ => 2
  | recheck _ _ => 3
  | lock _ _ => 4
  | fetch _ => 5
  | check _ => 6
  | args _ => 7

/-- What is left of a `Stop`; a watchdog is paid for by the step that starts it. -/
def StopPc.left : StopPc → ℕ
  | finish => 2
  | store _ => 2
  | close _ => 3
  | failed _ => 10
  | watchdog => 11
  | self => 12
  | sent => 13
  | send _ => 14
  | check _ => 15
  | lock _ => 16
  | fetch => 17
  | cas => 18

def CallPc.rank (terminal : Bool) : CallPc → ℕ
  | .start pc => pc.rank
  | .write pc => pc.rank
  | .stop _ pc => pc.left
  | .wait _ pc => pc.rank terminal
  | .destroy => 19
  | .join => 1

/-- What an operation of the reader thread may lead to, when the next read fails. -/
def ReaderOp.rank : ReaderOp → ℕ
  | signalDone | mark | close | storeSpeaker _ | setTid | inside _ => 1
  | finish | call _ | callStart => 2
  | checkStopping _ => 8
  | read _ => 9
  | checkStopped _ | fetch => 10

theorem ReaderOp.rank_pos (op : ReaderOp) : 0 < op.rank := by
  cases op <;> simp [rank]

def opsRank (ops : List ReaderOp) : ℕ := (ops.map ReaderOp.rank).sum

def Thread.rank (sh : Shared) (t : Thread) : ℕ :=
  (t.call.map (CallPc.rank sh.terminalReceived)).getD 0 + (t.reader.map opsRank).getD 0

/-- The choices that begin no call. -/
def Choice.isEnter : Choice → Bool
  | enter _ => true
  | _ => false

def Choice.isTick : Choice → Bool
  | tick _ => true
  | _ => false

/-- A terminal response that is recorded shortens the waits. -/
theorem rank_mono {sh sh' : Shared} (h : sh.terminalReceived → sh'.terminalReceived) (t : Thread) :
    t.rank sh' ≤ t.rank sh := by
  have hcall : ∀ pc : CallPc, pc.rank sh'.terminalReceived ≤ pc.rank sh.terminalReceived := by
    intro pc
    cases pc with
    | wait w pc =>
      cases hs : sh.terminalReceived with
      | true => rw [h hs]
      | false =>
        show pc.rank sh'.terminalReceived ≤ pc.rank false
        cases sh'.terminalReceived with
        | false => exact le_refl _
        | true => cases pc <;> simp [WaitPc.rank]
    | _ => exact le_refl _
  unfold Thread.rank
  refine Nat.add_le_add_right ?_ _
  cases t.call with
  | none => exact le_refl _
  | some pc => exact hcall pc

/-! ## Steps that lower the rank -/

section

variable {cfg : Config} {i : ℕ} {sh : Shared}

/-- What a call waits for. -/
def CallPc.Free (sh : Shared) : CallPc → Prop
  | .write (.lock _ _) | .stop _ (.lock _) => sh.writeMu = none
  | .wait _ .enter | .wait _ .graceEnd => sh.doneMu = none
  | .wait _ .unbounded => sh.doneMu = none ∧ sh.done = true
  | .wait _ (.timed deadline) => sh.doneMu = none ∧ deadline ≤ sh.now
  | .join => sh.readerThread = none ∨ sh.done = true
  | _ => True

/-- A step `r` of a call that lowers its rank, and starts no thread but `k`. -/
structure Shortens (k : ℕ) (sh : Shared) (pc : CallPc) (r : CallResult) : Prop where
  lower : (r.call.map (CallPc.rank sh.terminalReceived)).getD 0 +
    (r.spawned.map fun s => s.2.rank sh).getD 0 < pc.rank sh.terminalReceived
  spawned : ∀ j t, r.spawned = some (j, t) → j = k

theorem Shortens.quiet {k : ℕ} {pc : CallPc} {sh' : Shared} {call : Option CallPc}
    {events : List EventKind}
    (h : (call.map (CallPc.rank sh.terminalReceived)).getD 0 < pc.rank sh.terminalReceived) :
    Shortens k sh pc { sh := sh', call := call, events := events } := by
  refine ⟨?_, by simp⟩
  simpa using h

theorem startStep_shortens (k : ℕ) (pc : StartPc) :
    ∃ ch r, ch.isEnter = false ∧ ch.isTick = false ∧ startStep cfg sh pc ch = some r ∧
      Shortens k sh (.start pc) r := by
  cases pc with
  | cas =>
    by_cases hs : sh.state = .idle
    · exact ⟨.go, _, rfl, rfl, if_pos hs, .quiet (by simp [CallPc.rank, StartPc.rank])⟩
    · exact ⟨.go, _, rfl, rfl, if_neg hs, .quiet (by simp [CallPc.rank, StartPc.rank])⟩
  | validate =>
    exact ⟨.validated (.error ⟨0, []⟩), _, rfl, rfl, rfl, .quiet (by simp [CallPc.rank, StartPc.rank])⟩
  | connect =>
    exact ⟨.dialed [] (.error .nullWrite), _, rfl, rfl, rfl,
      .quiet (by simp [CallPc.rank, StartPc.rank])⟩
  | sent c =>
    exact ⟨.sent (.ok ()), _, rfl, rfl, rfl, .quiet (by simp [CallPc.rank, StartPc.rank])⟩
  | publish c =>
    refine ⟨.go, _, rfl, rfl, rfl, .quiet ?_⟩
    cases cfg.version <;> simp [CallPc.rank, StartPc.rank]
  | ack c deadline =>
    exact ⟨.read (.error []), _, rfl, rfl, rfl, .quiet (by simp [CallPc.rank, StartPc.rank])⟩
  | spawn =>
    refine ⟨.spawn k, _, rfl, rfl, rfl, ⟨?_, ?_⟩⟩
    · simp [CallPc.rank, StartPc.rank, Thread.rank, opsRank, readLoop, ReaderOp.rank]
    · rintro j t ⟨⟩
      rfl
  | _ => exact ⟨.go, _, rfl, rfl, rfl, .quiet (by simp [CallPc.rank, StartPc.rank])⟩

theorem writeStep_shortens (k : ℕ) {pc : WritePc} (hf : (CallPc.write pc).Free sh) :
    ∃ ch r, ch.isEnter = false ∧ ch.isTick = false ∧ writeStep cfg i sh pc ch = some r ∧
      Shortens k sh (.write pc) r := by
  cases pc with
  | args audio =>
    cases ha : writeArgs cfg.version audio with
    | error e =>
      refine ⟨.go, _, rfl, rfl, (by simp only [writeStep, ha]; rfl), .quiet ?_⟩
      simp [CallPc.rank, WritePc.rank]
    | ok data =>
      refine ⟨.go, _, rfl, rfl, (by simp only [writeStep, ha]; rfl), .quiet ?_⟩
      simp [CallPc.rank, WritePc.rank]
  | check data =>
    by_cases hs : sh.state = .running
    · exact ⟨.go, _, rfl, rfl, if_pos hs, .quiet (by simp [CallPc.rank, WritePc.rank])⟩
    · exact ⟨.go, _, rfl, rfl, if_neg hs, .quiet (by simp [CallPc.rank, WritePc.rank])⟩
  | fetch data =>
    cases hc : sh.conn with
    | none =>
      refine ⟨.go, _, rfl, rfl, (by simp only [writeStep, hc]; rfl), .quiet ?_⟩
      simp [CallPc.rank, WritePc.rank]
    | some c =>
      refine ⟨.go, _, rfl, rfl, (by simp only [writeStep, hc]; rfl), .quiet ?_⟩
      simp [CallPc.rank, WritePc.rank]
  | lock c data =>
    have hm : sh.writeMu = none := hf
    refine ⟨.go, _, rfl, rfl, (by simp only [writeStep, hm]; rfl), .quiet ?_⟩
    simp [CallPc.rank, WritePc.rank]
  | recheck c data =>
    by_cases hs : sh.state = .running
    · exact ⟨.go, _, rfl, rfl, if_pos hs, .quiet (by simp [CallPc.rank, WritePc.rank])⟩
    · exact ⟨.go, _, rfl, rfl, if_neg hs, .quiet (by simp [CallPc.rank, WritePc.rank])⟩
  | send c data => exact ⟨.go, _, rfl, rfl, rfl, .quiet (by simp [CallPc.rank, WritePc.rank])⟩
  | sent =>
    exact ⟨.sent (.ok ()), _, rfl, rfl, rfl, .quiet (by simp [CallPc.rank, WritePc.rank])⟩

theorem rank_afterStop (terminal dtor : Bool) :
    ((afterStop dtor).map (CallPc.rank terminal)).getD 0 ≤ 1 := by
  cases dtor with
  | true => simp [afterStop, CallPc.rank]
  | false => simp [afterStop]

theorem stopStep_shortens (k : ℕ) {dtor : Bool} {pc : StopPc} (hf : (CallPc.stop dtor pc).Free sh) :
    ∃ ch r, ch.isEnter = false ∧ ch.isTick = false ∧ stopStep i sh dtor pc ch = some r ∧
      Shortens k sh (.stop dtor pc) r := by
  have hafter := rank_afterStop sh.terminalReceived dtor
  have ends : ∀ {m : ℕ}, 2 ≤ m →
      ((afterStop dtor).map (CallPc.rank sh.terminalReceived)).getD 0 < m := by
    intro m hm
    omega
  have goes : ∀ {w : Waiter} {m : ℕ}, 10 ≤ m →
      ((some (CallPc.wait w .enter)).map (CallPc.rank sh.terminalReceived)).getD 0 < m := by
    intro w m hm
    simp only [Option.map_some, Option.getD_some, CallPc.rank, WaitPc.rank]
    omega
  cases pc with
  | cas =>
    by_cases hs : sh.state = .running
    · exact ⟨.go, _, rfl, rfl, if_pos hs, .quiet (by simp [CallPc.rank, StopPc.left])⟩
    · exact ⟨.go, _, rfl, rfl, if_neg hs, .quiet (ends (by simp [CallPc.rank, StopPc.left]))⟩
  | fetch =>
    cases hc : sh.conn with
    | none =>
      exact ⟨.go, _, rfl, rfl, (by simp only [stopStep, hc]; rfl),
        .quiet (ends (by simp [CallPc.rank, StopPc.left]))⟩
    | some c =>
      exact ⟨.go, _, rfl, rfl, (by simp only [stopStep, hc]; rfl),
        .quiet (by simp [CallPc.rank, StopPc.left])⟩
  | lock c =>
    have hm : sh.writeMu = none := hf
    exact ⟨.go, _, rfl, rfl, (by simp only [stopStep, hm]; rfl),
      .quiet (by simp [CallPc.rank, StopPc.left])⟩
  | check c =>
    by_cases hs : sh.state = .stopped
    · exact ⟨.go, _, rfl, rfl, if_pos hs, .quiet (goes (by simp [CallPc.rank, StopPc.left]))⟩
    · exact ⟨.go, _, rfl, rfl, if_neg hs, .quiet (by simp [CallPc.rank, StopPc.left])⟩
  | send c => exact ⟨.go, _, rfl, rfl, rfl, .quiet (by simp [CallPc.rank, StopPc.left])⟩
  | sent =>
    exact ⟨.sent (.ok ()), _, rfl, rfl, rfl, .quiet (by simp [CallPc.rank, StopPc.left])⟩
  | failed err =>
    refine ⟨.go, _, rfl, rfl, rfl, .quiet ?_⟩
    by_cases hs : sh.state = .stopped
    · rw [if_pos hs]
      exact goes (by simp [CallPc.rank, StopPc.left])
    · rw [if_neg hs]
      simp [CallPc.rank, StopPc.left]
  | close err => exact ⟨.go, _, rfl, rfl, rfl, .quiet (by simp [CallPc.rank, StopPc.left])⟩
  | store err =>
    exact ⟨.go, _, rfl, rfl, rfl, .quiet (ends (by simp [CallPc.rank, StopPc.left]))⟩
  | self =>
    refine ⟨.go, _, rfl, rfl, rfl, .quiet ?_⟩
    by_cases hs : sh.readerTid = some i
    · rw [if_pos hs]
      simp [CallPc.rank, StopPc.left]
    · rw [if_neg hs]
      exact goes (by simp [CallPc.rank, StopPc.left])
  | watchdog =>
    refine ⟨.spawn k, _, rfl, rfl, rfl, ⟨?_, ?_⟩⟩
    · simp only [Option.map_some, Option.getD_some, Thread.rank, CallPc.rank, WaitPc.rank,
        StopPc.left, Option.map_none, Option.getD_none]
      omega
    · rintro j t ⟨⟩
      rfl
  | finish =>
    exact ⟨.go, _, rfl, rfl, rfl, .quiet (ends (by simp [CallPc.rank, StopPc.left]))⟩

theorem rank_after (terminal : Bool) (w : Waiter) :
    (w.after.1.map (CallPc.rank terminal)).getD 0 ≤ 2 := by
  cases w with
  | watchdog => simp [Waiter.after]
  | stop dtor stores =>
    cases stores with
    | true => simp [Waiter.after, CallPc.rank, StopPc.left]
    | false => exact (rank_afterStop terminal dtor).trans (by omega)

theorem waitStep_shortens (k : ℕ) {w : Waiter} {pc : WaitPc} (hf : (CallPc.wait w pc).Free sh) :
    ∃ ch r, ch.isEnter = false ∧ ch.isTick = false ∧ waitStep i sh w pc ch = some r ∧
      Shortens k sh (.wait w pc) r := by
  have hafter := rank_after sh.terminalReceived w
  have returns : ∀ {pc : WaitPc}, Shortens k sh (.wait w pc) (waitReturn sh w) := by
    intro pc
    refine .quiet (lt_of_le_of_lt hafter ?_)
    cases pc <;> cases sh.terminalReceived <;> simp [CallPc.rank, WaitPc.rank]
  cases pc with
  | enter =>
    have hm : sh.doneMu = none := hf
    refine ⟨.go, _, rfl, rfl, (by simp only [waitStep, hm]; rfl), .quiet ?_⟩
    cases sh.terminalReceived <;> simp [CallPc.rank, WaitPc.rank]
  | test deadline =>
    by_cases hd : sh.done = true
    · exact ⟨.go, _, rfl, rfl, if_pos hd, returns⟩
    · refine ⟨.go, _, rfl, rfl, if_neg hd, .quiet ?_⟩
      cases sh.terminalReceived <;> simp [CallPc.rank, WaitPc.rank]
  | unbounded =>
    obtain ⟨hm, hd⟩ : sh.doneMu = none ∧ sh.done = true := hf
    exact ⟨.wake false, _, rfl, rfl, by simp only [waitStep, hm, hd, if_true], returns⟩
  | timed deadline =>
    obtain ⟨hm, hd⟩ : sh.doneMu = none ∧ deadline ≤ sh.now := hf
    refine ⟨.wake true, _, rfl, rfl, (by simp only [waitStep, hm, hd, if_true]; rfl), .quiet ?_⟩
    cases sh.terminalReceived <;> simp [CallPc.rank, WaitPc.rank]
  | timedOut deadline =>
    by_cases hd : sh.done = true
    · exact ⟨.go, _, rfl, rfl, if_pos hd, returns⟩
    by_cases ht : sh.terminalReceived = true
    · refine ⟨.go, _, rfl, rfl, (if_neg hd).trans (if_pos ht), .quiet ?_⟩
      simp [CallPc.rank, WaitPc.rank, ht]
    · refine ⟨.go, _, rfl, rfl, (if_neg hd).trans (if_neg ht), .quiet ?_⟩
      simp [CallPc.rank, WaitPc.rank, ht]
  | close => exact ⟨.go, _, rfl, rfl, rfl, .quiet (by simp [CallPc.rank, WaitPc.rank])⟩
  | grace => exact ⟨.go, _, rfl, rfl, rfl, .quiet (by simp [CallPc.rank, WaitPc.rank])⟩
  | graceEnd =>
    have hm : sh.doneMu = none := hf
    exact ⟨.wake true, _, rfl, rfl, by simp only [waitStep, hm], returns⟩

variable (cfg i) in
/-- **A call that waits for nothing can take a step that shortens it.** -/
theorem callStep_shortens (k : ℕ) {pc : CallPc} (hf : pc.Free sh) :
    ∃ ch r, ch.isEnter = false ∧ ch.isTick = false ∧ callStep cfg i sh pc ch = some r ∧
      Shortens k sh pc r := by
  cases pc with
  | start pc => exact startStep_shortens k pc
  | write pc => exact writeStep_shortens k hf
  | stop dtor pc => exact stopStep_shortens k hf
  | wait w pc => exact waitStep_shortens k hf
  | destroy =>
    refine ⟨.go, _, rfl, rfl, rfl, .quiet ?_⟩
    split <;> simp [CallPc.rank, StopPc.left]
  | join =>
    have hj : ¬ (sh.readerThread.isSome ∧ ¬ sh.done) := by
      rintro ⟨hsome, hdone⟩
      rcases hf with hnone | hd
      · rw [hnone] at hsome
        cases hsome
      · exact hdone hd
    exact ⟨.go, _, rfl, rfl, if_neg hj, .quiet (by simp [CallPc.rank])⟩

variable (cfg i) in
/-- **The reader loop can take a step that shortens it**, when `done_mu` is free. -/
theorem readerStep_shortens (op : ReaderOp) (rest : List ReaderOp) (hm : sh.doneMu = none) :
    ∃ ch r, ch.isEnter = false ∧ ch.isTick = false ∧ readerStep cfg i sh rest op ch = some r ∧
      opsRank r.ops < opsRank (op :: rest) ∧
      (sh.terminalReceived → r.sh.terminalReceived) := by
  have hrank : ∀ {op : ReaderOp} {ops : List ReaderOp}, opsRank ops < op.rank →
      opsRank ops < opsRank (op :: rest) := by
    intro op ops h
    refine lt_of_lt_of_le h ?_
    simp only [opsRank, List.map_cons, List.sum_cons]
    exact Nat.le_add_right _ _
  have hrest : ∀ op : ReaderOp, opsRank rest < opsRank (op :: rest) := by
    intro op
    have hpos := op.rank_pos
    simp only [opsRank, List.map_cons, List.sum_cons]
    omega
  cases op with
  | setTid => exact ⟨.go, _, rfl, rfl, rfl, hrest _, id⟩
  | callStart =>
    refine ⟨.go, _, rfl, rfl, rfl, ?_, id⟩
    simp [opsRank, ReaderOp.rank]
  | call cb =>
    refine ⟨.go, _, rfl, rfl, rfl, ?_, id⟩
    simp [opsRank, ReaderOp.rank]
  | inside cb => exact ⟨.returns, _, rfl, rfl, rfl, hrest _, id⟩
  | fetch =>
    refine ⟨.go, _, rfl, rfl, rfl, hrank ?_, id⟩
    cases sh.conn <;> simp [opsRank, leave, ReaderOp.rank]
  | read c =>
    refine ⟨.read (.error []), _, rfl, rfl, rfl, hrank ?_, id⟩
    simp [afterRead, opsRank, ReaderOp.rank]
  | checkStopped c =>
    refine ⟨.go, _, rfl, rfl, rfl, hrank ?_, id⟩
    split <;> simp [opsRank, leave, ReaderOp.rank]
  | checkStopping cause =>
    refine ⟨.go, _, rfl, rfl, rfl, hrank ?_, id⟩
    split <;> simp [opsRank, leave, ReaderOp.rank]
  | storeSpeaker s => exact ⟨.go, _, rfl, rfl, rfl, hrest _, id⟩
  | finish =>
    by_cases hf : sh.finished = true
    · exact ⟨.go, _, rfl, rfl, if_pos hf, hrest _, id⟩
    · refine ⟨.go, _, rfl, rfl, if_neg hf, ?_, id⟩
      simp [opsRank, ReaderOp.rank]
  | close =>
    refine ⟨.go, _, rfl, rfl, rfl, hrest _, fun h => ?_⟩
    rw [(outside_close sh).terminalReceived]
    exact h
  | mark =>
    exact ⟨.go, _, rfl, rfl, (by simp only [readerStep, hm]; rfl), hrest .mark, fun _ => rfl⟩
  | signalDone =>
    exact ⟨.go, _, rfl, rfl, (by simp only [readerStep, hm]; rfl), hrest .signalDone, id⟩

end

/-! ## Who keeps the others waiting -/

/-- The call holds `done_mu`. -/
def CallPc.waiting : CallPc → Bool
  | .wait _ (.test _) | .wait _ (.timedOut _) | .wait _ .close | .wait _ .grace => true
  | _ => false

def Thread.waiting (t : Thread) : Prop := ∃ pc, t.call = some pc ∧ pc.waiting

/-- The operations that lead to others or end the loop. -/
def ReaderOp.isLast : ReaderOp → Bool
  | fetch | read _ | checkStopped _ | checkStopping _ | signalDone => true
  | _ => false

/-- What is left of the reader loop ends with one of them. -/
def Ends (ops : List ReaderOp) : Prop := ∃ init op, ops = init ++ [op] ∧ op.isLast

theorem ends_single {op : ReaderOp} (h : op.isLast) : Ends [op] := ⟨[], op, rfl, h⟩

theorem Ends.append {ops : List ReaderOp} (h : Ends ops) (init : List ReaderOp) :
    Ends (init ++ ops) := by
  obtain ⟨init', op, rfl, hop⟩ := h
  exact ⟨init ++ init', op, (List.append_assoc ..).symm, hop⟩

theorem Ends.cons {ops : List ReaderOp} (h : Ends ops) (op : ReaderOp) : Ends (op :: ops) :=
  h.append [op]

theorem Ends.ne_nil {ops : List ReaderOp} (h : Ends ops) : ops ≠ [] := by
  obtain ⟨init, op, rfl, -⟩ := h
  simp

/-- An operation that is not the last one is followed by others. -/
theorem Ends.tail {op : ReaderOp} {rest : List ReaderOp} (h : Ends (op :: rest)) :
    Ends rest ∨ rest = [] ∧ op.isLast := by
  obtain ⟨init, last, heq, hlast⟩ := h
  cases init with
  | nil =>
    obtain ⟨rfl, rfl⟩ := List.cons.inj heq
    exact .inr ⟨rfl, hlast⟩
  | cons op' init =>
    obtain ⟨-, rfl⟩ := List.cons.inj heq
    exact .inl ⟨init, last, rfl, hlast⟩

theorem ends_leave : Ends leave := (ends_single rfl).cons .finish

theorem ends_afterRead (cfg : Config) (c : ℕ) (r : ReadOutcome) : Ends (afterRead cfg c r) := by
  have hread : Ends [.read c] := ends_single rfl
  unfold afterRead
  split
  · exact ends_single rfl
  · exact ends_single rfl
  split
  · exact hread.cons _
  split
  · exact ends_single rfl
  split
  · exact hread
  split
  · exact hread.cons _
  · refine Ends.append ?_ _
    unfold afterResponse
    split
    · exact ends_leave.append _
    split
    · exact ends_leave.append _
    split
    · exact hread
    · exact hread.append _

/-- **The reader loop goes on until `SignalDone`.** -/
theorem readerStep_ends {cfg : Config} {i : ℕ} {sh : Shared} {op : ReaderOp} {rest : List ReaderOp}
    {ch : Choice} {r : ReaderResult} (h : Ends (op :: rest))
    (hs : readerStep cfg i sh rest op ch = some r) : Ends r.ops ∨ r.ops = [] ∧ r.sh.done = true := by
  have more : op.isLast = false → Ends rest := by
    intro hop
    rcases h.tail with hrest | ⟨-, hlast⟩
    · exact hrest
    · rw [hop] at hlast
      cases hlast
  unfold readerStep at hs
  split at hs
  · -- setTid
    cases hs
    exact .inl (more rfl)
  · -- callStart
    cases hs
    exact .inl ((more rfl).cons _)
  · -- call
    cases hs
    exact .inl ((more rfl).cons _)
  · -- inside
    cases hs
    exact .inl (more rfl)
  · cases hs
    left
    show Ends (if _ then _ else _)
    split
    · exact more rfl
    · exact ends_leave.append _
  · -- fetch
    cases hs
    left
    dsimp only
    cases sh.conn with
    | none => exact ends_leave
    | some c => exact ends_single rfl
  · -- read
    cases hs
    exact .inl (ends_afterRead ..)
  · -- checkStopped
    cases hs
    left
    show Ends (if _ then _ else _)
    split
    · exact ends_leave
    · exact ends_single rfl
  · -- checkStopping
    cases hs
    left
    show Ends (if _ then _ else _)
    split
    · exact ends_leave
    · exact ends_leave.append _
  · -- storeSpeaker
    cases hs
    exact .inl (more rfl)
  · -- finish
    split at hs
    · cases hs
      exact .inl (more rfl)
    · cases hs
      exact .inl ((more rfl).cons _)
  · -- close
    cases hs
    exact .inl (more rfl)
  · -- mark
    split at hs
    · cases hs
      exact .inl (more rfl)
    · cases hs
  · -- signalDone
    split at hs
    · cases hs
      rcases h.tail with hrest | ⟨rfl, -⟩
      · exact .inl hrest
      · exact .inr ⟨rfl, rfl⟩
    · cases hs
  · cases hs

/-- What the reader thread leaves as it is. -/
theorem readerStep_frame {cfg : Config} {i : ℕ} {sh : Shared} {op : ReaderOp}
    {rest : List ReaderOp} {ch : Choice} {r : ReaderResult}
    (h : readerStep cfg i sh rest op ch = some r) :
    r.sh.doneMu = sh.doneMu ∧ r.sh.readerThread = sh.readerThread ∧ (sh.done → r.sh.done) ∧
      (sh.terminalReceived → r.sh.terminalReceived) := by
  have hclose : sh.close.1.readerThread = sh.readerThread := by
    unfold Shared.close
    cases sh.conn <;> rfl
  unfold readerStep at h
  repeat' split at h
  all_goals cases h
  all_goals first
    | exact ⟨rfl, rfl, id, id⟩
    | exact ⟨rfl, rfl, fun _ => rfl, id⟩
    | exact ⟨rfl, rfl, id, fun _ => rfl⟩
    | exact ⟨(close_same sh).2.2.2.1, hclose, fun hd => (outside_close sh).done.trans hd,
        fun ht => (outside_close sh).terminalReceived.trans ht⟩

/-- A call leaves `done_mu`, takes it or releases it. -/
theorem callStep_waiting {cfg : Config} {i : ℕ} {sh : Shared} {pc : CallPc} {ch : Choice}
    {r : CallResult} (h : callStep cfg i sh pc ch = some r) :
    (r.sh.doneMu = sh.doneMu ∧ (pc.waiting → ∃ pc', r.call = some pc' ∧ pc'.waiting)) ∨
      (r.sh.doneMu = some i ∧ ∃ pc', r.call = some pc' ∧ pc'.waiting) ∨ r.sh.doneMu = none := by
  unfold callStep startStep writeStep stopStep waitStep waitReturn at h
  repeat' split at h
  all_goals cases h
  all_goals first
    | exact .inr (.inr rfl)
    | exact .inr (.inl ⟨rfl, _, rfl, rfl⟩)
    | exact .inl ⟨rfl, fun _ => ⟨_, rfl, rfl⟩⟩
    | exact .inl ⟨rfl, fun hw => by cases hw⟩
    | exact .inl ⟨(close_same sh).2.2.2.1, fun _ => ⟨_, rfl, rfl⟩⟩
    | exact .inl ⟨(close_same sh).2.2.2.1, fun hw => by cases hw⟩

/-- The reader thread is recorded by the step that starts it. -/
theorem callStep_readerThread {cfg : Config} {i : ℕ} {sh : Shared} {pc : CallPc} {ch : Choice}
    {r : CallResult} (h : callStep cfg i sh pc ch = some r) :
    (r.sh.readerThread = sh.readerThread ∧ ∀ j t, r.spawned = some (j, t) → t.reader = none) ∨
      ∃ k, r.sh.readerThread = some k ∧ r.spawned = some (k, { reader := some readLoop }) := by
  have hclose : sh.close.1.readerThread = sh.readerThread := by
    unfold Shared.close
    cases sh.conn <;> rfl
  unfold callStep startStep writeStep stopStep waitStep waitReturn at h
  repeat' split at h
  all_goals cases h
  all_goals first
    | exact .inr ⟨_, rfl, rfl⟩
    | exact .inl ⟨rfl, by simp⟩
    | exact .inl ⟨hclose, by simp⟩

/-- A wait without a time limit begins when a terminal response has been recorded. -/
theorem callStep_unbounded {cfg : Config} {i : ℕ} {sh : Shared} {pc : CallPc} {ch : Choice}
    {r : CallResult} (h : callStep cfg i sh pc ch = some r)
    (hpc : ∀ w, pc = .wait w .unbounded → sh.terminalReceived) :
    ∀ w, r.call = some (.wait w .unbounded) → sh.terminalReceived := by
  intro w hw
  by_contra ht
  have hafter : ∀ w' : Waiter, w'.after.1 ≠ some (.wait w .unbounded) := by
    intro w'
    unfold Waiter.after afterStop
    split
    · simp
    · split <;> simp
    · simp
  have hstop : ∀ dtor, afterStop dtor ≠ some (.wait w .unbounded) := by
    intro dtor
    cases dtor <;> simp [afterStop]
  unfold callStep startStep writeStep stopStep waitStep waitReturn at h
  repeat' split at h
  all_goals cases h
  all_goals first
    | exact ht (hpc _ rfl)
    | exact hafter _ hw
    | exact hstop _ hw
    | cases hw

/-- What one thread's step does to what the others wait for. -/
structure Crews (i : ℕ) (sh : Shared) (t : Thread) (o : Outcome Shared Thread Event) : Prop where
  own : o.shared.doneMu = some i → o.next.waiting
  others : ∀ j ≠ i, o.shared.doneMu = some j → sh.doneMu = some j
  done : sh.done → o.shared.done
  marked : sh.terminalReceived → o.shared.terminalReceived
  mark : o.shared.terminalReceived → sh.terminalReceived ∨ t.reader ≠ none
  readerThread : (o.shared.readerThread = sh.readerThread ∧
      ∀ j l, o.spawned = some (j, l) → l.reader = none) ∨
    ∃ k, o.shared.readerThread = some k ∧ o.spawned = some (k, { reader := some readLoop })
  reader : ∀ ops, o.next.reader = some ops →
    t.reader ≠ none ∧ (Ends ops ∨ ops = [] ∧ o.shared.done = true)
  keeps : t.reader ≠ none → o.next.reader ≠ none
  unbounded : ∀ w, o.next.call = some (.wait w .unbounded) → o.shared.terminalReceived
  spawned : ∀ j l w, o.spawned = some (j, l) → l.call ≠ some (.wait w .unbounded)

/-- What a thread knows about the reader loop and its own wait. -/
structure CrewThread (i : ℕ) (sh : Shared) (t : Thread) : Prop where
  doneMu : sh.doneMu = some i → t.waiting
  reader : ∀ ops, t.reader = some ops →
    sh.readerThread ≠ none ∧ (Ends ops ∨ ops = [] ∧ sh.done = true)
  unbounded : ∀ w, t.call = some (.wait w .unbounded) → sh.terminalReceived

theorem threadStep_crews {cfg : Config} {i : ℕ} {sh : Shared} {t : Thread} {ch : Choice}
    {o : Outcome Shared Thread Event} (ht : CrewThread i sh t)
    (h : threadStep cfg i sh t ch = some o) : Crews i sh t o := by
  have keep : ∀ ops, t.reader = some ops → t.reader ≠ none := by
    intro ops hops hnone
    rw [hops] at hnone
    cases hnone
  rcases threadStep_cases h with ⟨d, rfl⟩ | ⟨pc, r, hpc, hr, rfl⟩ | ⟨entry, hcall, -, rfl⟩ |
    ⟨op, rest, r, hcall, hops, hr, rfl⟩
  · exact ⟨ht.doneMu, fun _ _ => id, id, id, .inl, .inl ⟨rfl, by simp⟩,
      fun ops hops => ⟨keep ops hops, (ht.reader ops hops).2⟩, id, ht.unbounded, by simp⟩
  · obtain ⟨-, hdone, hterm, -⟩ := callStep_outside hr
    have hwait := callStep_waiting hr
    refine ⟨fun hm => ?_, fun j hne hm => ?_, fun hd => ?_, fun hm => ?_, fun hm => .inl ?_,
      callStep_readerThread hr, fun ops hops => ⟨keep ops hops, ?_⟩, id, fun w hw => ?_, ?_⟩
    · rcases hwait with ⟨heq, hnext⟩ | ⟨-, hnext⟩ | hfree
      · obtain ⟨pc', hpc', hw⟩ := ht.doneMu (heq ▸ hm)
        cases hpc.symm.trans hpc'
        exact hnext hw
      · exact hnext
      · cases hfree.symm.trans hm
    · rcases hwait with ⟨heq, -⟩ | ⟨hmine, -⟩ | hfree
      · exact heq ▸ hm
      · exact absurd (Option.some.inj (hm.symm.trans hmine)) hne
      · cases hfree.symm.trans hm
    · exact hdone.trans hd
    · exact hterm.trans hm
    · exact hterm.symm.trans hm
    · refine (ht.reader ops hops).2.imp id fun hend => ⟨hend.1, hdone.trans hend.2⟩
    · exact hterm.trans
        (callStep_unbounded hr (fun w' hw' => ht.unbounded w' (hw' ▸ hpc)) w hw)
    · rintro j l w hs hl
      rcases callStep_spawned hr hs with ⟨-, rfl⟩ | ⟨-, rfl⟩
      · cases hl
      · cases hl
  · refine ⟨fun hm => ?_, fun _ _ => id, id, id, .inl, .inl ⟨rfl, by simp⟩,
      fun ops hops => ⟨keep ops hops, (ht.reader ops hops).2⟩, id, fun w hw => ?_, by simp⟩
    · obtain ⟨pc, hpc, -⟩ := ht.doneMu hm
      cases hcall.symm.trans hpc
    · cases entry <;> cases hw
  · obtain ⟨hm, hthread, hdone, hterm⟩ := readerStep_frame hr
    refine ⟨fun h => ?_, fun _ _ h => hm ▸ h, hdone, hterm, fun _ => .inr (keep _ hops),
      .inl ⟨hthread, by simp⟩, ?_, fun _ => by simp, fun w hw => ?_, by simp⟩
    · obtain ⟨pc, hpc, -⟩ := ht.doneMu (hm ▸ h)
      cases hcall.symm.trans hpc
    · rintro _ ⟨⟩
      refine ⟨keep _ hops, ?_⟩
      rcases (ht.reader _ hops).2 with hends | ⟨hnil, -⟩
      · exact readerStep_ends hends hr
      · cases hnil
    · cases hcall.symm.trans hw

/-- Whoever is waited for will go on: a thread that holds `done_mu` is inside its critical
    section, and the reader thread has operations left until it is done. -/
structure Crewed (p : Pool Shared Thread) : Prop where
  threads : ∀ i, CrewThread i p.shared (p.threads i)
  reader : ∀ r, p.shared.readerThread = some r →
    p.shared.done ∨ ∃ op rest, (p.threads r).reader = some (op :: rest)
  marked : p.shared.terminalReceived → p.shared.readerThread ≠ none

theorem Crewed.step {cfg : Config} {p p' : Pool Shared Thread} {a : ℕ × Choice} {es : List Event}
    (hc : Crewed p) (hs : (session cfg).pool.step p a = some (p', es)) : Crewed p' := by
  obtain ⟨i, ch⟩ := a
  obtain ⟨o, ho, hsh, -, hthreads⟩ := Threads.poolStep_cases hs
  have hk : Crews i p.shared (p.threads i) o := threadStep_crews (hc.threads i) ho
  have hrecord : p.shared.readerThread ≠ none → p'.shared.readerThread ≠ none := by
    intro hne
    rw [hsh]
    rcases hk.readerThread with ⟨heq, -⟩ | ⟨k, hk, -⟩
    · rw [heq]
      exact hne
    · rw [hk]
      simp
  have idle : ∀ {j : ℕ}, (session cfg).idle (p.threads j) = true → p.threads j = {} :=
    fun h => of_decide_eq_true h
  refine ⟨fun j => ?_, fun r hr => ?_, fun hm => ?_⟩
  · rcases hthreads j with ⟨rfl, heq⟩ | ⟨hne, l, hl, hidle, heq⟩ | ⟨hne, heq⟩
    · rw [heq]
      refine ⟨fun h => hk.own (hsh ▸ h), fun ops hops => ?_, fun w hw => ?_⟩
      · obtain ⟨hreader, hends⟩ := hk.reader ops hops
        rw [hsh]
        refine ⟨?_, hends⟩
        rw [← hsh]
        obtain ⟨ops', hops'⟩ := Option.ne_none_iff_exists'.1 hreader
        exact hrecord ((hc.threads j).reader ops' hops').1
      · rw [hsh]
        exact hk.unbounded w hw
    · rw [heq]
      refine ⟨fun h => ?_, fun ops hops => ?_, fun w hw => absurd hw (hk.spawned j l w hl)⟩
      · obtain ⟨pc, hpc, -⟩ := (hc.threads j).doneMu (hk.others j hne (hsh ▸ h))
        rw [idle hidle] at hpc
        cases hpc
      · rcases hk.readerThread with ⟨-, hnone⟩ | ⟨k, hrec, hsp⟩
        · rw [hnone j l hl] at hops
          cases hops
        · rw [hsp] at hl
          cases hl
          cases hops
          rw [hsh, hrec]
          exact ⟨by simp, .inl (((ends_single rfl).cons _).cons _)⟩
    · rw [heq]
      have hj := hc.threads j
      refine ⟨fun h => hj.doneMu (hk.others j hne (hsh ▸ h)), fun ops hops => ?_, fun w hw => ?_⟩
      · obtain ⟨hrec, hends⟩ := hj.reader ops hops
        refine ⟨hrecord hrec, hends.imp id fun hend => ⟨hend.1, ?_⟩⟩
        rw [hsh]
        exact hk.done hend.2
      · rw [hsh]
        exact hk.marked (hj.unbounded w hw)
  · rw [hsh] at hr
    rw [hsh]
    rcases hk.readerThread with ⟨heq, hnone⟩ | ⟨k, hrec, hsp⟩
    · rcases hc.reader r (heq ▸ hr) with hd | ⟨op, rest, hops⟩
      · exact .inl (hk.done hd)
      rcases hthreads r with ⟨rfl, hnext⟩ | ⟨-, l, hl, hidle, -⟩ | ⟨-, hsame⟩
      · -- the reader thread itself has stepped
        have hreader : (p.threads r).reader ≠ none := by
          rw [hops]
          simp
        obtain ⟨ops, hops'⟩ := Option.ne_none_iff_exists'.1 (hk.keeps hreader)
        rcases (hk.reader ops hops').2 with hends | ⟨-, hd⟩
        · obtain ⟨op', rest', rfl⟩ := List.exists_cons_of_ne_nil hends.ne_nil
          exact .inr ⟨op', rest', by rw [hnext]; exact hops'⟩
        · exact .inl hd
      · rw [idle hidle] at hops
        cases hops
      · exact .inr ⟨op, rest, by rw [hsame]; exact hops⟩
    · rw [hrec] at hr
      cases hr
      obtain ⟨-, -, hnew⟩ := Threads.poolStep_spawned hs ho hsp
      exact .inr ⟨_, _, by rw [hnew]; rfl⟩
  · rw [hsh] at hm
    rcases hk.mark hm with hold | hreader
    · exact hrecord (hc.marked hold)
    · obtain ⟨ops, hops⟩ := Option.ne_none_iff_exists'.1 hreader
      exact hrecord ((hc.threads i).reader ops hops).1

/-! ## The destructor -/

/-- A wait of the destructor. -/
def Waiter.destroying : Waiter → Bool
  | stop dtor _ => dtor
  | watchdog => false

/-- The destructor, with its `Stop` and its join. -/
def CallPc.destroying : CallPc → Bool
  | .destroy | .join => true
  | .stop dtor _ => dtor
  | .wait w _ => w.destroying
  | .start _ | .write _ => false

/-- The destructor, called from a listener callback. -/
def Thread.SelfDestroys (t : Thread) : Prop :=
  (∃ op rest, t.reader = some (op :: rest)) ∧ ∃ pc, t.call = some pc ∧ pc.destroying

/-- The destructor returns from its join only, and there nothing holds it up. -/
theorem callStep_destroying {cfg : Config} {i : ℕ} {sh : Shared} {pc : CallPc} {ch : Choice}
    {r : CallResult} (h : callStep cfg i sh pc ch = some r) (hpc : pc.destroying) :
    (∃ pc', r.call = some pc' ∧ pc'.destroying) ∨ sh.readerThread = none ∨ sh.done = true := by
  cases pc with
  | destroy =>
    left
    cases ch with
    | go =>
      simp only [callStep, Option.some.injEq] at h
      subst h
      by_cases hs : sh.state = .running
      · exact ⟨.stop true .cas, by rw [if_pos hs], rfl⟩
      · exact ⟨.join, by rw [if_neg hs], rfl⟩
    | _ => simp [callStep] at h
  | join =>
    right
    cases ch with
    | go =>
      simp only [callStep] at h
      split at h
      · cases h
      · rename_i hj
        cases hr : sh.readerThread with
        | none => exact .inl rfl
        | some r =>
          rw [hr] at hj
          exact .inr (by simpa using hj)
    | _ => simp [callStep] at h
  | stop dtor pc =>
    cases dtor with
    | false => cases hpc
    | true =>
      left
      have h : stopStep i sh true pc ch = some r := h
      unfold stopStep at h
      repeat' split at h
      all_goals cases h
      all_goals exact ⟨_, rfl, rfl⟩
  | wait w pc =>
    cases w with
    | watchdog => cases hpc
    | stop dtor stores =>
      cases dtor with
      | false => cases hpc
      | true =>
        left
        have after : ∃ pc', (Waiter.stop true stores).after.1 = some pc' ∧ pc'.destroying := by
          cases stores
          · exact ⟨_, rfl, rfl⟩
          · exact ⟨_, rfl, rfl⟩
        have h : waitStep i sh (.stop true stores) pc ch = some r := h
        unfold waitStep waitReturn at h
        repeat' split at h
        all_goals cases h
        all_goals first
          | exact ⟨_, rfl, rfl⟩
          | exact after
  | start pc => cases hpc
  | write pc => cases hpc

/-- Only the destructor leads to the rest of the destructor. -/
theorem destroying_of_callStep {cfg : Config} {i : ℕ} {sh : Shared} {pc pc' : CallPc} {ch : Choice}
    {r : CallResult} (h : callStep cfg i sh pc ch = some r) (hcall : r.call = some pc')
    (hpc' : pc'.destroying) : pc.destroying := by
  by_contra hpc
  have hafter : ∀ w : Waiter, w.after.1 = some pc' → w.destroying := by
    intro w hw
    rcases w with ⟨_ | _, _ | _⟩ | _
    all_goals first
      | rfl
      | (cases hw <;> cases hpc')
  have hstop : ∀ dtor, afterStop dtor = some pc' → dtor = true := by
    intro dtor hd
    cases dtor with
    | true => rfl
    | false => cases hd
  unfold callStep startStep writeStep stopStep waitStep waitReturn at h
  repeat' split at h
  all_goals cases h
  all_goals first
    | exact hpc rfl
    | (cases hstop _ hcall; exact hpc rfl)
    | exact hpc (hafter _ hcall)
    | (cases hcall <;> exact hpc hpc')

/-- A thread in no call stays in none, unless it begins one. -/
theorem threadStep_begins {cfg : Config} {i : ℕ} {sh : Shared} {t : Thread} {ch : Choice}
    {o : Outcome Shared Thread Event} (h : threadStep cfg i sh t ch = some o) (hcall : t.call = none)
    (hch : ch.isEnter = false) : o.next.call = none := by
  unfold threadStep at h
  split at h
  · cases h
    exact hcall
  rw [hcall] at h
  simp only at h
  split at h
  · cases hch
  split at h
  · obtain ⟨r, -, rfl⟩ := Option.map_eq_some_iff.1 h
    rfl
  · cases h

/-! ## Runs -/

section

variable {cfg : Config} {voiceId : Bytes} {acts : List (ℕ × Choice)} {p : Pool Shared Thread}
  {tr : List Event}

theorem crewed_run (h : (session cfg).pool.run (initial voiceId) acts = some (p, tr)) : Crewed p := by
  refine Lts.run_invariant (I := fun _ p => Crewed p) (fun hc hs => hc.step hs) ?_ h
  refine ⟨fun i => ⟨?_, ?_, ?_⟩, ?_, ?_⟩
  · intro h
    cases h
  · intro ops h
    cases h
  · intro w h
    cases h
  · intro r h
    cases h
  · intro h
    cases h

/-- A reader thread with operations left has not signalled done. -/
theorem not_done_of_reader (h : (session cfg).pool.run (initial voiceId) acts = some (p, tr)) {i : ℕ}
    {op : ReaderOp} {rest : List ReaderOp} (hops : (p.threads i).reader = some (op :: rest)) :
    ¬ p.shared.done := by
  intro hd
  have hS := ((stopping cfg).run ⟨lifecycle_initial voiceId, stops_initial voiceId⟩
    (fun i => ⟨owns_initial voiceId i, nofun⟩) h).1.2
  have htells := ((told cfg).run ⟨lifecycle_initial voiceId, session_initial cfg voiceId⟩
    (fun i => ⟨owns_initial voiceId i, nofun⟩) h).2 i
  exact (htells.2 _ hops).noDone (hS.done hd)

/-- **The destructor waits for its own thread**, whatever is run from there. -/
theorem selfDestroys_step (h : (session cfg).pool.run (initial voiceId) acts = some (p, tr)) {i : ℕ}
    (hi : (p.threads i).SelfDestroys) {a : ℕ × Choice} {p' : Pool Shared Thread} {es : List Event}
    (hs : (session cfg).pool.step p a = some (p', es)) : (p'.threads i).SelfDestroys := by
  obtain ⟨⟨op, rest, hops⟩, pc, hpc, hdes⟩ := hi
  obtain ⟨j, ch⟩ := a
  obtain ⟨o, ho, hsh, -, hthreads⟩ := Threads.poolStep_cases hs
  rcases hthreads i with ⟨rfl, heq⟩ | ⟨-, l, -, hidle, -⟩ | ⟨-, heq⟩
  · rw [heq]
    rcases threadStep_cases ho with ⟨d, rfl⟩ | ⟨pc', r, hpc', hr, rfl⟩ | ⟨entry, hcall, -, -⟩ |
      ⟨op', rest', r, hcall, -, -, -⟩
    · exact ⟨⟨op, rest, hops⟩, pc, hpc, hdes⟩
    · cases hpc.symm.trans hpc'
      rcases callStep_destroying hr hdes with hnext | hnone | hd
      · exact ⟨⟨op, rest, hops⟩, hnext⟩
      · exact absurd hnone ((crewed_run h).threads i |>.reader _ hops).1
      · exact absurd hd (not_done_of_reader h hops)
    · cases hpc.symm.trans hcall
    · cases hpc.symm.trans hcall
  · have hempty : p.threads i = {} := of_decide_eq_true hidle
    rw [hempty] at hpc
    cases hpc
  · rw [heq]
    exact ⟨⟨op, rest, hops⟩, pc, hpc, hdes⟩

/-- Where no call begins, no thread begins to wait for itself. -/
theorem not_selfDestroys_step {p' : Pool Shared Thread} {i : ℕ} {a : ℕ × Choice} {es : List Event}
    (hi : ¬ (p.threads i).SelfDestroys) (ha : a.2.isEnter = false)
    (hs : (session cfg).pool.step p a = some (p', es)) : ¬ (p'.threads i).SelfDestroys := by
  rintro ⟨⟨op, rest, hops⟩, pc, hpc, hdes⟩
  obtain ⟨j, ch⟩ := a
  obtain ⟨o, ho, -, -, hthreads⟩ := Threads.poolStep_cases hs
  rcases hthreads i with ⟨rfl, heq⟩ | ⟨-, l, hl, -, heq⟩ | ⟨-, heq⟩
  · rw [heq] at hops hpc
    rcases threadStep_cases ho with ⟨d, rfl⟩ | ⟨pc', r, hpc', hr, rfl⟩ | ⟨entry, hcall, hm, rfl⟩ |
      ⟨op', rest', r, hcall, -, -, rfl⟩
    · exact hi ⟨⟨op, rest, hops⟩, pc, hpc, hdes⟩
    · exact hi ⟨⟨op, rest, hops⟩, pc', hpc', destroying_of_callStep hr hpc hdes⟩
    · cases (threadStep_begins ho hcall ha).symm.trans hpc
    · cases hcall.symm.trans hpc
  · rw [heq] at hops hpc
    have hspawned : l.call = none ∨ l.reader = none := by
      rcases threadStep_cases ho with ⟨d, rfl⟩ | ⟨pc', r, -, hr, rfl⟩ | ⟨entry, -, -, rfl⟩ |
        ⟨op', rest', r, -, -, -, rfl⟩
      · cases hl
      · rcases callStep_spawned hr hl with ⟨-, rfl⟩ | ⟨-, rfl⟩
        · exact .inl rfl
        · exact .inr rfl
      · cases hl
      · cases hl
    rcases hspawned with hnone | hnone
    · cases hnone.symm.trans hpc
    · cases hnone.symm.trans hops
  · rw [heq] at hops hpc
    exact hi ⟨⟨op, rest, hops⟩, pc, hpc, hdes⟩

theorem not_selfDestroys_run {p' : Pool Shared Thread} {as : List (ℕ × Choice)} {tr : List Event}
    (hno : ∀ i, ¬ (p.threads i).SelfDestroys) (has : ∀ a ∈ as, a.2.isEnter = false)
    (h : (session cfg).pool.run p as = some (p', tr)) : ∀ i, ¬ (p'.threads i).SelfDestroys := by
  induction as generalizing p tr with
  | nil =>
    cases h
    exact hno
  | cons a as ih =>
    obtain ⟨q, es, es', hs, hr, -⟩ := Lts.run_cons h
    obtain ⟨ha, has⟩ := List.forall_mem_cons.1 has
    exact ih (fun i => not_selfDestroys_step (hno i) ha hs) has hr

/-- Nobody is in a call, and what the reader thread had to do is done. -/
structure Quiescent (p : Pool Shared Thread) : Prop where
  calls : ∀ i, (p.threads i).call = none
  reader : ∀ i ops, (p.threads i).reader = some ops → ops = []
  done : p.shared.readerThread ≠ none → p.shared.done

/-- A choice that begins no call lowers the weight of the threads in `S`. -/
def Lowers (cfg : Config) (S : Finset ℕ) (p : Pool Shared Thread) : Prop :=
  ∃ as p' tr S', (session cfg).pool.run p as = some (p', tr) ∧ (∀ a ∈ as, a.2.isEnter = false) ∧
    (session cfg).Supported S' p' ∧ Threads.weight Thread.rank S' p' < Threads.weight Thread.rank S p

theorem lowers_step {S : Finset ℕ} {i : ℕ} {ch : Choice} {o : Outcome Shared Thread Event}
    (hS : (session cfg).Supported S p) (hi : p.threads i ≠ {}) (hch : ch.isEnter = false)
    (ho : threadStep cfg i p.shared (p.threads i) ch = some o)
    (hnew : ∀ j l, o.spawned = some (j, l) → j ∉ S)
    (hmarked : p.shared.terminalReceived → o.shared.terminalReceived)
    (hown : o.next.rank o.shared + Threads.spawnRank Thread.rank o < (p.threads i).rank p.shared) :
    Lowers cfg S p := by
  have hmem : i ∈ S := by
    by_contra hout
    exact hi (of_decide_eq_true (hS i hout))
  obtain ⟨p', S', hs, hS', hlt⟩ :=
    Threads.exists_lower_step (P := session cfg) hS hmem ho hnew (rank_mono hmarked) hown
  have hrun := Lts.run_cons_of hs (rfl : (session cfg).pool.run p' [] = some (p', []))
  refine ⟨[(i, ch)], p', _, S', hrun, fun a ha => ?_, hS', hlt⟩
  rw [List.mem_singleton.1 ha]
  exact hch

/-- A thread whose call waits for nothing can step. -/
theorem lowers_call {S : Finset ℕ} {i : ℕ} {pc : CallPc} (hS : (session cfg).Supported S p)
    (hpc : (p.threads i).call = some pc) (hf : pc.Free p.shared) : Lowers cfg S p := by
  obtain ⟨k, hk⟩ := Infinite.exists_notMem_finset S
  obtain ⟨ch, r, hch, htick, hr, hlow, hsp⟩ := callStep_shortens cfg i k hf
  have ho : threadStep cfg i p.shared (p.threads i) ch = some
      { shared := r.sh, next := { p.threads i with call := r.call }, spawned := r.spawned
        events := r.events.map (i, ·) } := by
    cases ch with
    | tick d => cases htick
    | _ => simp only [threadStep, hpc, hr, Option.map_some]
  have hterm := (callStep_outside hr).terminalReceived
  refine lowers_step hS ?_ hch ho (fun j l hl => ?_) (fun h => hterm.trans h) ?_
  · intro h
    rw [h] at hpc
    cases hpc
  · rw [hsp j l hl]
    exact hk
  · have hrank : ∀ t : Thread, t.rank r.sh = t.rank p.shared := by
      intro t
      simp only [Thread.rank, hterm]
    have hspawn : ∀ o : Outcome Shared Thread Event, o.shared = r.sh → o.spawned = r.spawned →
        Threads.spawnRank Thread.rank o = (r.spawned.map fun s => s.2.rank p.shared).getD 0 := by
      intro o hsh hs
      simp only [Threads.spawnRank, hsh, hs]
      cases r.spawned with
      | none => rfl
      | some jl =>
        obtain ⟨j, l⟩ := jl
        exact hrank l
    rw [hspawn _ rfl rfl, hrank]
    simp only [Thread.rank, hpc, Option.map_some, Option.getD_some] at hlow ⊢
    omega

/-- The reader thread can step, when it is in no call and `done_mu` is free. -/
theorem lowers_reader {S : Finset ℕ} {i : ℕ} {op : ReaderOp} {rest : List ReaderOp}
    (hS : (session cfg).Supported S p) (hcall : (p.threads i).call = none)
    (hops : (p.threads i).reader = some (op :: rest)) (hm : p.shared.doneMu = none) :
    Lowers cfg S p := by
  obtain ⟨ch, r, hch, htick, hr, hlow, hmarked⟩ :=
    readerStep_shortens cfg i op rest hm
  have ho : threadStep cfg i p.shared (p.threads i) ch = some
      { shared := r.sh, next := { p.threads i with reader := some r.ops }
        events := r.events.map (i, ·) } := by
    cases ch with
    | tick d => cases htick
    | enter entry => cases hch
    | _ => simp only [threadStep, hcall, hops, hr, Option.map_some]
  refine lowers_step hS ?_ hch ho (by simp) hmarked ?_
  · intro h
    rw [h] at hops
    cases hops
  · simp only [Thread.rank, Threads.spawnRank, hcall, hops, Option.map_some, Option.getD_some,
      Option.map_none, Option.getD_none]
    omega

/-- A wait that is over when the clock has moved on. -/
theorem lowers_timed {S : Finset ℕ} {i : ℕ} {w : Waiter} {deadline : ℕ}
    (hS : (session cfg).Supported S p) (hpc : (p.threads i).call = some (.wait w (.timed deadline)))
    (hm : p.shared.doneMu = none) : Lowers cfg S p := by
  have htick : (session cfg).pool.step p (i, .tick (deadline - p.shared.now)) =
      some ({ p with shared := { p.shared with now := p.shared.now + (deadline - p.shared.now) } },
        []) := by
    show (session cfg).poolStep p (i, .tick (deadline - p.shared.now)) = some _
    simp only [Threads.poolStep, session, threadStep, Function.update_eq_self]
  obtain ⟨as, p', tr', S', hrun, has, hS', hlt⟩ := lowers_call
    (p := { p with shared := { p.shared with now := p.shared.now + (deadline - p.shared.now) } })
    (S := S) hS hpc ⟨hm, by show deadline ≤ p.shared.now + (deadline - p.shared.now); omega⟩
  refine ⟨_ :: as, p', _, S', Lts.run_cons_of htick hrun, fun a ha => ?_, hS', hlt⟩
  rcases List.mem_cons.1 ha with rfl | ha
  · rfl
  · exact has a ha

/-- **Where something is left to do, some thread can do it**: the holder of a mutex; with both
    mutexes free the reader thread, or the call it is in; and once the reader thread is done,
    whoever is in a call. -/
theorem lowers_of_not_quiescent
    (h : (session cfg).pool.run (initial voiceId) acts = some (p, tr))
    (hself : ∀ i, ¬ (p.threads i).SelfDestroys) {S : Finset ℕ} (hS : (session cfg).Supported S p)
    (hq : ¬ Quiescent p) : Lowers cfg S p := by
  have hcrew := crewed_run h
  cases hw : p.shared.writeMu with
  | some i =>
    obtain ⟨pc, hpc, hwr⟩ := writing cfg voiceId h i hw
    refine lowers_call hS hpc ?_
    cases pc with
    | write pc =>
      cases pc with
      | lock c data => cases hwr
      | _ => trivial
    | stop dtor pc =>
      cases pc with
      | lock c => cases hwr
      | _ => trivial
    | _ => cases hwr
  | none =>
  cases hm : p.shared.doneMu with
  | some i =>
    obtain ⟨pc, hpc, hwait⟩ := (hcrew.threads i).doneMu hm
    refine lowers_call hS hpc ?_
    cases pc with
    | wait w pc =>
      cases pc with
      | test deadline => trivial
      | timedOut deadline => trivial
      | close => trivial
      | grace => trivial
      | _ => cases hwait
    | _ => cases hwait
  | none =>
  by_cases hreader : ∃ i op rest, (p.threads i).reader = some (op :: rest)
  · obtain ⟨i, op, rest, hops⟩ := hreader
    cases hcall : (p.threads i).call with
    | none => exact lowers_reader hS hcall hops hm
    | some pc =>
      -- a callback has entered the recognizer, but not to wait for its own thread
      obtain ⟨-, hre⟩ := ((lives_run h).2.2 i).2.inside _ pc hops hcall
      refine lowers_call hS hcall ?_
      cases pc with
      | start pc => trivial
      | write pc =>
        cases pc with
        | lock c data => exact hw
        | _ => trivial
      | stop dtor pc =>
        cases pc with
        | lock c => exact hw
        | _ => trivial
      | wait w pc => exact absurd hre id
      | destroy => trivial
      | join => exact absurd ⟨⟨op, rest, hops⟩, .join, hcall, rfl⟩ (hself i)
  · have hdone : p.shared.readerThread ≠ none → p.shared.done = true := by
      intro hne
      obtain ⟨r, hr⟩ := Option.ne_none_iff_exists'.1 hne
      rcases hcrew.reader r hr with hd | hops
      · exact hd
      · exact absurd ⟨r, hops⟩ hreader
    obtain ⟨i, pc, hcall⟩ : ∃ i pc, (p.threads i).call = some pc := by
      by_contra hnone
      refine hq ⟨fun i => ?_, fun i ops hops => ?_, hdone⟩
      · by_contra hc
        obtain ⟨pc, hpc⟩ := Option.ne_none_iff_exists'.1 hc
        exact hnone ⟨i, pc, hpc⟩
      · cases ops with
        | nil => rfl
        | cons op rest => exact absurd ⟨i, op, rest, hops⟩ hreader
    cases pc with
    | start pc => exact lowers_call hS hcall trivial
    | write pc =>
      refine lowers_call hS hcall ?_
      cases pc with
      | lock c data => exact hw
      | _ => trivial
    | stop dtor pc =>
      refine lowers_call hS hcall ?_
      cases pc with
      | lock c => exact hw
      | _ => trivial
    | wait w pc =>
      cases pc with
      | timed deadline => exact lowers_timed hS hcall hm
      | enter => exact lowers_call hS hcall hm
      | graceEnd => exact lowers_call hS hcall hm
      | unbounded =>
        have hterm := (hcrew.threads i).unbounded w hcall
        exact lowers_call hS hcall ⟨hm, hdone (hcrew.marked hterm)⟩
      | test deadline => exact lowers_call hS hcall trivial
      | timedOut deadline => exact lowers_call hS hcall trivial
      | close => exact lowers_call hS hcall trivial
      | grace => exact lowers_call hS hcall trivial
    | destroy => exact lowers_call hS hcall trivial
    | join =>
      refine lowers_call hS hcall ?_
      by_cases hr : p.shared.readerThread = none
      · exact .inl hr
      · exact .inr (hdone hr)

/-- **A session does not deadlock**, after every run.  Unless the destructor has been called from a
    listener callback, there is a way on, without another call, on which every call returns, the
    reader thread has nothing left to do and, if there is one, has signalled done.  And a destructor
    that was called from a callback never returns, whatever is run. -/
theorem session_can_end (cfg : Config) (voiceId : Bytes) {acts : List (ℕ × Choice)}
    {p : Pool Shared Thread} {tr : List Event}
    (h : (session cfg).pool.run (initial voiceId) acts = some (p, tr)) :
    ((∀ i, ¬ (p.threads i).SelfDestroys) → ∃ acts' p' tr',
        (session cfg).pool.run p acts' = some (p', tr') ∧ (∀ a ∈ acts', a.2.isEnter = false) ∧
          Quiescent p') ∧
      ∀ i, (p.threads i).SelfDestroys → ∀ acts' p' tr',
        (session cfg).pool.run p acts' = some (p', tr') → (p'.threads i).SelfDestroys := by
  constructor
  · intro hself
    obtain ⟨S, hS⟩ := Threads.exists_supported (P := session cfg) (fun i => decide_eq_true rfl) h
    have hreach := Lts.run_reaches (T := (session cfg).pool) (C := fun _ a => a.2.isEnter = false)
      (G := fun _ q => Quiescent q)
      (I := fun _ q n => (∃ as tr', (session cfg).pool.run (initial voiceId) as = some (q, tr')) ∧
        (∀ i, ¬ (q.threads i).SelfDestroys) ∧ ∃ S, (session cfg).Supported S q ∧
        Threads.weight Thread.rank S q = n) ?_ [] ⟨⟨acts, tr, h⟩, hself, S, hS, rfl⟩
    · obtain ⟨acts', p', tr', hrun, hacts, hq⟩ := hreach
      exact ⟨acts', p', tr', hrun, (Lts.meets_labels hrun).1 hacts, hq⟩
    · rintro _ q n ⟨⟨as, tr', hq⟩, hself, S, hS, rfl⟩ hnq
      obtain ⟨bs, q', tr'', S', hrun, hbs, hS', hlt⟩ := lowers_of_not_quiescent hq hself hS hnq
      have hself' := not_selfDestroys_run hself hbs hrun
      exact ⟨bs, q', tr'', hrun, (Lts.meets_labels hrun).2 hbs,
        .inr ⟨_, ⟨⟨_, _, Lts.run_append hq hrun⟩, hself', S', hS', rfl⟩, hlt⟩⟩
  · intro i hi acts' p' tr' hrun
    exact Lts.run_keeps (J := fun q => (q.threads i).SelfDestroys)
      (fun hq hj hs => selfDestroys_step hq hj hs) h hi hrun

end

/-- A `Stop` that waits for the reader thread, which waits for the server. -/
def sampleWaiting : List (ℕ × Choice) :=
  sampleStart ++ [(1, .go), (1, .go), (1, .returns), (1, .go), (0, .enter .stop), (0, .go), (0, .go),
    (0, .go), (0, .go), (0, .go), (0, .sent (.ok ())), (0, .go), (0, .go), (0, .go)]

theorem session_can_end_waiting : ∃ p tr deadline,
    (session sampleConfig).pool.run (initial []) sampleWaiting = some (p, tr) ∧
      (p.threads 0).call = some (.wait (.stop false true) (.timed deadline)) ∧
      ∃ acts' p' tr', (session sampleConfig).pool.run p acts' = some (p', tr') ∧ Quiescent p' := by
  have run : ∃ p tr deadline,
      (session sampleConfig).pool.run (initial []) sampleWaiting = some (p, tr) ∧
        (p.threads 0).call = some (.wait (.stop false true) (.timed deadline)) ∧
        (p.threads 1).call = none ∧ tr.all fun e => match e.2 with
          | .spawned j => j == 1
          | _ => true := ⟨_, _, _, rfl, rfl, rfl, by decide⟩
  obtain ⟨p, tr, deadline, hrun, hwaits, hcall, hall⟩ := run
  have hself : ∀ i, ¬ (p.threads i).SelfDestroys := by
    rintro i ⟨⟨op, rest, hops⟩, pc, hpc, -⟩
    obtain ⟨j, hj⟩ := ((lives_run hrun).2.2 i).1.reader (by rw [hops]; simp)
    obtain rfl : i = 1 := by simpa using List.all_eq_true.1 hall _ hj
    cases hcall.symm.trans hpc
  obtain ⟨acts', p', tr', hrun', -, hq⟩ := (session_can_end sampleConfig [] hrun).1 hself
  exact ⟨p, tr, deadline, hrun, hwaits, acts', p', tr', hrun', hq⟩

end TrtcAsr.Speech
