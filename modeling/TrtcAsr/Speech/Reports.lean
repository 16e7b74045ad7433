/-
  What a `Stop` reports when it races with the end of the session.

  * `Winding`: the reader thread has a terminal callback to make, or is in one.
  * `Reports`: no `Stop` says that the recognizer is not running when its compare-and-swap
    has found it running, and none that has won throws while the session winds down.
  * `Orderly`: the order of the steps under which this is so.
  * `stop_reports`: every orderly run reports so, and a step out of order leads to a step
    that does not.
-/
import TrtcAsr.Speech.Lifecycle

namespace TrtcAsr.Speech

/-! ## The end of a session -/

/-- A terminal callback, to be made or in progress. -/
def ReaderOp.ends : ReaderOp → Bool
  | call cb | inside cb => cb.terminal
  | _ => false

/-- The terminal callbacks of the session are still to come or in progress. -/
def Winding (p : Pool Shared Thread) : Prop :=
  ∃ i ops op, (p.threads i).reader = some ops ∧ op ∈ ops ∧ op.ends

/-- With this the reader thread learns that the session ends: it reads a terminal response, or
    a callback throws. -/
def EndsBy (cfg : Config) : ReaderOp → Choice → Prop
  | .read _, .read (.frame opcode payload) => opcode = 0x1 ∧ ∃ resp,
      parseSpeechResponse cfg.deps payload = .ok resp ∧ (resp.code ≠ 0 ∨ resp.finalFlag = 1)
  | .inside cb, .throws _ => cb.shielded = false
  | _, _ => False

theorem not_ends_leave : ∀ op ∈ leave, op.ends = false := by
  simp [leave, ReaderOp.ends]

theorem not_ends_dispatchEvent {resp : SpeechResponse} :
    ∀ op ∈ dispatchEvent resp, op.ends = false := by
  intro op hop
  rcases dispatchEvent_cases resp with heq | ⟨cb, hcb, heq⟩
  · rw [heq] at hop
    cases hop
  · rw [heq] at hop
    obtain rfl := List.mem_singleton.1 hop
    exact (isSentence_cases hcb).2.1

theorem exists_ends_afterResponse {c : ℕ} {resp : SpeechResponse} :
    (∃ op ∈ afterResponse c resp, op.ends) ↔ resp.code ≠ 0 ∨ resp.finalFlag = 1 := by
  have hread : ∀ op ∈ [ReaderOp.read c], op.ends = false := by simp [ReaderOp.ends]
  unfold afterResponse
  split
  · rename_i hcode
    exact iff_of_true ⟨.call (.fail (.code resp)), by simp, rfl⟩ (.inl hcode)
  split
  · rename_i hfinal
    exact iff_of_true ⟨.call (.recognitionComplete resp), by simp, rfl⟩ (.inr hfinal)
  · rename_i hcode hfinal
    refine iff_of_false ?_ (by tauto)
    rintro ⟨op, hop, hends⟩
    split at hop
    · rw [hread op hop] at hends
      cases hends
    · rcases List.mem_append.1 hop with hop | hop
      · rw [not_ends_dispatchEvent op hop] at hends
        cases hends
      · rw [hread op hop] at hends
        cases hends

theorem exists_ends_afterRead {cfg : Config} {c : ℕ} {r : ReadOutcome} :
    (∃ op ∈ afterRead cfg c r, op.ends) ↔ EndsBy cfg (.read c) (.read r) := by
  have quiet : ∀ ops : List ReaderOp, (∀ op ∈ ops, op.ends = false) → ¬ ∃ op ∈ ops, op.ends := by
    rintro ops h ⟨op, hop, hends⟩
    rw [h op hop] at hends
    cases hends
  cases r with
  | timeout => exact iff_of_false (quiet _ (by simp [afterRead, ReaderOp.ends])) id
  | error what => exact iff_of_false (quiet _ (by simp [afterRead, ReaderOp.ends])) id
  | frame opcode payload =>
    simp only [afterRead, EndsBy]
    split
    · rename_i h
      refine iff_of_false (quiet _ ?_) (by rw [h]; simp)
      simp [ReaderOp.ends, Callback.terminal, FailCause.terminal]
    split
    · rename_i h
      exact iff_of_false (quiet _ (by simp [ReaderOp.ends])) (by rw [h]; simp)
    split
    · rename_i h
      exact iff_of_false (quiet _ (by simp [ReaderOp.ends])) (fun hx => h hx.1)
    · rename_i h
      have htext : opcode = 0x1 := not_not.1 h
      cases hp : parseSpeechResponse cfg.deps payload with
      | error e =>
        refine iff_of_false (quiet _ ?_) ?_
        · simp [ReaderOp.ends, Callback.terminal, FailCause.terminal]
        · rintro ⟨-, resp, hr, -⟩
          cases hr
      | ok resp =>
        have hstore : ∀ op ∈ storeSpeaker cfg.version resp, op.ends = false := by
          unfold storeSpeaker
          split
          · simp [ReaderOp.ends]
          · simp
        constructor
        · rintro ⟨op, hop, hends⟩
          rcases List.mem_append.1 hop with hop | hop
          · rw [hstore op hop] at hends
            cases hends
          · exact ⟨htext, resp, rfl, exists_ends_afterResponse.1 ⟨op, hop, hends⟩⟩
        · rintro ⟨-, resp', hr, hresp⟩
          cases hr
          obtain ⟨op, hop, hends⟩ := exists_ends_afterResponse.2 hresp
          exact ⟨op, List.mem_append_right _ hop, hends⟩

/-- How a terminal callback comes into what is left of the loop. -/
theorem readerStep_winds {cfg : Config} {i : ℕ} {sh : Shared} {op : ReaderOp} {rest : List ReaderOp}
    {ch : Choice} {r : ReaderResult} (h : readerStep cfg i sh rest op ch = some r)
    (hr : ∃ op' ∈ r.ops, op'.ends) :
    (∃ op' ∈ op :: rest, op'.ends) ∨ EndsBy cfg op ch ∨ sh.state.isStopping = false := by
  obtain ⟨op', hop, hends⟩ := hr
  have hrest : op' ∈ rest → ∃ op' ∈ op :: rest, op'.ends :=
    fun hr => ⟨op', List.mem_cons_of_mem _ hr, hends⟩
  have hquiet : ∀ {ops : List ReaderOp}, (∀ op ∈ ops, op.ends = false) → op' ∉ ops := by
    intro ops hops hop
    rw [hops op' hop] at hends
    cases hends
  cases op with
  | setTid =>
    cases ch <;> cases h
    exact .inl (hrest hop)
  | callStart =>
    cases ch <;> cases h
    rcases List.mem_cons.1 hop with rfl | hop
    · cases hends
    · exact .inl (hrest hop)
  | call cb =>
    cases ch <;> cases h
    rcases List.mem_cons.1 hop with rfl | hop
    · exact .inl ⟨.call cb, List.mem_cons_self .., hends⟩
    · exact .inl (hrest hop)
  | inside cb =>
    cases ch with
    | returns =>
      cases h
      exact .inl (hrest hop)
    | throws what =>
      cases h
      by_cases hsh : cb.shielded
      · simp only [hsh, if_true] at hop
        exact .inl (hrest hop)
      · exact .inr (.inl (Bool.eq_false_iff.2 hsh))
    | _ => cases h
  | fetch =>
    cases ch <;> cases h
    split at hop
    · exact absurd hop (hquiet not_ends_leave)
    · exact absurd hop (hquiet (by simp [ReaderOp.ends]))
  | read c =>
    cases ch <;> cases h
    exact .inr (.inl (exists_ends_afterRead.1 ⟨op', hop, hends⟩))
  | checkStopped c =>
    cases ch <;> cases h
    split at hop
    · exact absurd hop (hquiet not_ends_leave)
    · exact absurd hop (hquiet (by simp [ReaderOp.ends]))
  | checkStopping cause =>
    cases ch <;> cases h
    by_cases hs : sh.state.isStopping
    · rw [if_pos hs] at hop
      exact absurd hop (hquiet not_ends_leave)
    · exact .inr (.inr (Bool.eq_false_iff.2 hs))
  | storeSpeaker speakerContinue =>
    cases ch <;> cases h
    exact .inl (hrest hop)
  | finish =>
    cases ch <;> simp only [readerStep, reduceCtorEq] at h
    split at h
    · cases h
      exact .inl (hrest hop)
    · cases h
      rcases List.mem_cons.1 hop with rfl | hop
      · cases hends
      · exact .inl (hrest hop)
  | close =>
    cases ch <;> cases h
    exact .inl (hrest hop)
  | mark =>
    cases ch <;> simp only [readerStep, reduceCtorEq] at h
    split at h
    · cases h
      exact .inl (hrest hop)
    · cases h
  | signalDone =>
    cases ch <;> simp only [readerStep, reduceCtorEq] at h
    split at h
    · cases h
      exact .inl (hrest hop)
    · cases h

/-- It then has a terminal callback to make. -/
theorem readerStep_endsBy {cfg : Config} {i : ℕ} {sh : Shared} {op : ReaderOp}
    {rest : List ReaderOp} {ch : Choice} {r : ReaderResult}
    (h : readerStep cfg i sh rest op ch = some r) (he : EndsBy cfg op ch) :
    ∃ op' ∈ r.ops, op'.ends := by
  cases op with
  | read c =>
    cases ch with
    | read out =>
      cases h
      exact exists_ends_afterRead.2 he
    | _ => exact he.elim
  | inside cb =>
    cases ch with
    | throws what =>
      cases h
      have hno : cb.shielded = false := he
      simp only [hno, Bool.false_eq_true, if_false]
      exact ⟨.call (.fail (.thrown what)), by simp [caught], rfl⟩
    | _ => exact he.elim
  | _ => exact he.elim

/-! ## A Stop that gives up -/

/-- A `Stop` that will throw: its end signal has failed, and it has not found the session
    stopped. -/
def CallPc.givesUp : CallPc → Bool
  | stop _ (.close _) | stop _ (.store _) => true
  | _ => false

theorem callStep_givesUp {cfg : Config} {i : ℕ} {sh : Shared} {pc pc' : CallPc} {ch : Choice}
    {r : CallResult} (h : callStep cfg i sh pc ch = some r) (hpc' : r.call = some pc')
    (hg : pc'.givesUp) :
    pc.givesUp ∨ ∃ dtor err, pc = .stop dtor (.failed err) ∧ ch = .go ∧ sh.state ≠ .stopped := by
  have after : ∀ dtor, afterStop dtor ≠ some pc' := by
    rintro (_ | _) heq
    · cases heq
    · cases heq
      cases hg
  have waited : ∀ w : Waiter, w.after.1 ≠ some pc' := by
    rintro (⟨dtor, _ | _⟩ | _) heq
    · exact after dtor heq
    · cases heq
      cases hg
    · cases heq
  unfold callStep at h
  split at h
  case h_1 =>
    -- start
    unfold startStep at h
    repeat' split at h
    all_goals cases h
    all_goals cases hpc'
    all_goals cases hg
  case h_2 =>
    -- write
    unfold writeStep at h
    repeat' split at h
    all_goals cases h
    all_goals cases hpc'
    all_goals cases hg
  case h_3 =>
    -- stop
    unfold stopStep at h
    split at h
    case h_8 =>
      cases h
      by_cases hs : sh.state = .stopped
      · rw [if_pos hs] at hpc'
        cases hpc'
        cases hg
      · exact .inr ⟨_, _, rfl, rfl, hs⟩
    case h_9 => exact .inl rfl
    case h_10 => exact .inl rfl
    all_goals
      repeat' split at h
      all_goals cases h
      all_goals first
        | exact absurd hpc' (after _)
        | cases hpc'; cases hg
  case h_4 =>
    -- wait
    unfold waitStep waitReturn at h
    repeat' split at h
    all_goals cases h
    all_goals first
      | exact absurd hpc' (waited _)
      | cases hpc'; cases hg
  case h_5 =>
    -- destroy
    cases h
    split at hpc'
    · cases hpc'
      cases hg
    · cases hpc'
      cases hg
  case h_6 =>
    -- join
    split at h
    · cases h
    · cases h
      cases hpc'
  case h_7 => cases h

theorem threw_close (sh : Shared) (call : Call) (e : Exn) : .threw call e ∉ sh.close.2 := by
  unfold Shared.close
  cases sh.conn with
  | none => exact List.not_mem_nil
  | some c => simp

/-- A `Stop` throws at its compare-and-swap, without a connection, or when it has given up. -/
theorem callStep_threw {cfg : Config} {i : ℕ} {sh : Shared} {pc : CallPc} {ch : Choice}
    {r : CallResult} (h : callStep cfg i sh pc ch = some r) {e : ASRError}
    (he : .threw .stop (.asr e) ∈ r.events) :
    ∃ dtor, pc = .stop dtor .cas ∧ sh.state ≠ .running ∨
      (pc = .stop dtor .fetch ∧ ch = .go ∧ sh.conn = none) ∨
      ∃ err, pc = .stop dtor (.store err) ∧ e.code = kErrWriteFailed := by
  have after : ∀ w : Waiter, .threw .stop (.asr e) ∉ w.after.2 := by
    intro w
    cases w with
    | watchdog => exact List.not_mem_nil
    | stop dtor stores => cases stores <;> simp [Waiter.after]
  unfold callStep at h
  split at h
  case h_3 =>
    -- stop
    unfold stopStep at h
    repeat' split at h
    all_goals cases h
    all_goals first
      | exact ⟨_, .inl ⟨rfl, ‹_›⟩⟩
      | exact ⟨_, .inr (.inl ⟨rfl, rfl, ‹_›⟩)⟩
      | exact absurd he (threw_close sh _ _)
      | cases List.mem_singleton.1 he; exact ⟨_, .inr (.inr ⟨_, rfl, rfl⟩)⟩
      | exact absurd he List.not_mem_nil
      | cases List.mem_singleton.1 he
  case h_1 =>
    -- start
    unfold startStep at h
    repeat' split at h
    all_goals cases h
    all_goals first
      | exact absurd he (threw_close sh _ _)
      | exact absurd he (by simp)
  case h_2 =>
    -- write
    unfold writeStep at h
    repeat' split at h
    all_goals cases h
    all_goals exact absurd he (by simp)
  case h_4 =>
    -- wait
    unfold waitStep waitReturn at h
    repeat' split at h
    all_goals cases h
    all_goals first
      | exact absurd he (threw_close sh _ _)
      | exact absurd he (after _)
      | exact absurd he (by simp)
  all_goals
    repeat' split at h
    all_goals cases h
    all_goals exact absurd he (by simp)

/-! ## Steps of the pool -/

/-- A `Stop` has given up. -/
def GivingUp (p : Pool Shared Thread) : Prop :=
  ∃ j pc, (p.threads j).call = some pc ∧ pc.givesUp

/-- A step that brings a terminal callback is one of the reader thread. -/
theorem winding_step {cfg : Config} {p p' : Pool Shared Thread} {i : ℕ} {ch : Choice}
    {es : List Event} (hs : (session cfg).pool.step p (i, ch) = some (p', es)) (hw : Winding p') :
    Winding p ∨ ∃ op rest, (p.threads i).call = none ∧ (p.threads i).reader = some (op :: rest) ∧
      (EndsBy cfg op ch ∨ p.shared.state.isStopping = false) := by
  obtain ⟨j, ops, op, hops, hop, hends⟩ := hw
  obtain ⟨o, ho, -, -, hthreads⟩ := Threads.poolStep_cases hs
  have same : (p.threads j).reader = some ops → Winding p := fun h => ⟨j, ops, op, h, hop, hends⟩
  rcases hthreads j with ⟨rfl, heq⟩ | ⟨-, l, hl, -, heq⟩ | ⟨-, heq⟩
  · rw [heq] at hops
    rcases threadStep_cases ho with ⟨d, rfl⟩ | ⟨pc, r, -, -, rfl⟩ | ⟨entry, -, -, rfl⟩ |
      ⟨op₁, rest, r, hcall, hreader, hr, rfl⟩
    · exact .inl (same hops)
    · exact .inl (same hops)
    · exact .inl (same hops)
    · cases hops
      rcases readerStep_winds hr ⟨op, hop, hends⟩ with ⟨op', hop', hends'⟩ | hnew
      · exact .inl ⟨j, _, op', hreader, hop', hends'⟩
      · exact .inr ⟨op₁, rest, hcall, hreader, hnew⟩
  · -- a thread that has just been started
    rw [heq] at hops
    rcases threadStep_cases ho with ⟨d, rfl⟩ | ⟨pc, r, -, hr, rfl⟩ | ⟨entry, -, -, rfl⟩ |
      ⟨op₁, rest, r, -, -, hr, rfl⟩
    · cases hl
    · rcases callStep_spawned hr hl with ⟨-, rfl⟩ | ⟨-, rfl⟩
      · cases hops
        simp only [readLoop, List.mem_cons, List.not_mem_nil, or_false] at hop
        rcases hop with rfl | rfl | rfl
        · cases hends
        · cases hends
        · cases hends
      · cases hops
    · cases hl
    · cases hl
  · rw [heq] at hops
    exact .inl (same hops)

theorem givingUp_step {cfg : Config} {p p' : Pool Shared Thread} {i : ℕ} {ch : Choice}
    {es : List Event} (hs : (session cfg).pool.step p (i, ch) = some (p', es)) (hg : GivingUp p') :
    GivingUp p ∨ ∃ dtor err, (p.threads i).call = some (.stop dtor (.failed err)) ∧ ch = .go ∧
      p.shared.state ≠ .stopped := by
  obtain ⟨j, pc', hpc', hg⟩ := hg
  obtain ⟨o, ho, -, -, hthreads⟩ := Threads.poolStep_cases hs
  have same : (p.threads j).call = some pc' → GivingUp p := fun h => ⟨j, pc', h, hg⟩
  rcases hthreads j with ⟨rfl, heq⟩ | ⟨-, l, hl, -, heq⟩ | ⟨-, heq⟩
  · rw [heq] at hpc'
    rcases threadStep_cases ho with ⟨d, rfl⟩ | ⟨pc, r, hpc, hr, rfl⟩ | ⟨entry, -, -, rfl⟩ |
      ⟨op, rest, r, -, -, -, rfl⟩
    · exact .inl (same hpc')
    · rcases callStep_givesUp hr hpc' hg with hg | ⟨dtor, err, rfl, hch, hst⟩
      · exact .inl ⟨j, pc, hpc, hg⟩
      · exact .inr ⟨dtor, err, hpc, hch, hst⟩
    · cases hpc'
      cases entry <;> cases hg
    · exact .inl (same hpc')
  · rw [heq] at hpc'
    rcases threadStep_cases ho with ⟨d, rfl⟩ | ⟨pc, r, -, hr, rfl⟩ | ⟨entry, -, -, rfl⟩ |
      ⟨op, rest, r, -, -, hr, rfl⟩
    · cases hl
    · rcases callStep_spawned hr hl with ⟨-, rfl⟩ | ⟨-, rfl⟩
      · cases hpc'
      · cases hpc'
        cases hg
    · cases hl
    · cases hl
  · rw [heq] at hpc'
    exact .inl (same hpc')

/-! ## Reports -/

/-- A step in which a `Stop` throws `kErrNotStarted` is its compare-and-swap and finds the
    recognizer not running; a `Stop` that has won does not throw while the session winds down;
    and where it finds the session stopped it waits for it. -/
def Reports (cfg : Config) (p : Pool Shared Thread) (a : ℕ × Choice) : Prop :=
  ∀ p' es, (session cfg).pool.step p a = some (p', es) →
    (∀ j e, (j, EventKind.threw .stop (.asr e)) ∈ es →
      (e.code = kErrNotStarted →
        ∃ dtor, (p.threads j).call = some (.stop dtor .cas) ∧ p.shared.state ≠ .running) ∧
      ((∀ dtor, (p.threads j).call ≠ some (.stop dtor .cas)) → ¬ Winding p)) ∧
    ∀ dtor q, (p.threads a.1).call = some (.stop dtor q) →
      ((∃ c, q = .check c) ∨ ∃ err, q = .failed err) → p.shared.state = .stopped →
        (p'.threads a.1).call = (p.threads a.1).call ∨
          (p'.threads a.1).call = some (.wait (.stop dtor false) .enter)

/-- The order of a `Stop` that has won and the end of the session: it fetches a connection that is
    still there; and from the recheck after a failed end signal, where it does not find the session
    stopped, to its throw the reader thread has not learnt, and does not learn, that the session
    ends. -/
structure Orderly (cfg : Config) (p : Pool Shared Thread) (a : ℕ × Choice) : Prop where
  fetch : ∀ dtor, (p.threads a.1).call = some (.stop dtor .fetch) → a.2 = .go →
    p.shared.conn ≠ none
  failed : ∀ dtor err, (p.threads a.1).call = some (.stop dtor (.failed err)) → a.2 = .go →
    p.shared.state ≠ .stopped → ¬ Winding p
  ends : ∀ op rest, (p.threads a.1).call = none → (p.threads a.1).reader = some (op :: rest) →
    EndsBy cfg op a.2 → ¬ GivingUp p

/-- One step, where no `Stop` that has given up meets a session that winds down. -/
theorem reports_step {cfg : Config} {p : Pool Shared Thread} {a : ℕ × Choice}
    (ho : Orderly cfg p a) (hg : GivingUp p → ¬ Winding p) : Reports cfg p a := by
  obtain ⟨i, ch⟩ := a
  intro p' es hs
  constructor
  · intro j e he
    obtain ⟨o, hstep, -, rfl, -⟩ := Threads.poolStep_cases hs
    rcases threadStep_cases hstep with ⟨d, rfl⟩ | ⟨pc, r, hpc, hr, rfl⟩ | ⟨entry, -, -, rfl⟩ |
      ⟨op, rest, r, -, -, hr, rfl⟩
    · exact absurd he List.not_mem_nil
    · obtain ⟨rfl, hk⟩ := mem_tagged.1 he
      obtain ⟨dtor, ⟨rfl, hst⟩ | ⟨rfl, rfl, hnone⟩ | ⟨err, rfl, hcode⟩⟩ := callStep_threw hr hk
      · exact ⟨fun _ => ⟨dtor, hpc, hst⟩, fun hne => absurd hpc (hne dtor)⟩
      · exact absurd hnone (ho.fetch dtor hpc rfl)
      · refine ⟨fun hns => ?_, fun _ => hg ⟨j, _, hpc, rfl⟩⟩
        rw [hcode] at hns
        cases hns
    · exact absurd he List.not_mem_nil
    · obtain ⟨rfl, hk⟩ := mem_tagged.1 he
      refine absurd hk ?_
      unfold readerStep at hr
      repeat' split at hr
      all_goals cases hr
      all_goals first
        | exact threw_close _ _ _
        | simp
  · intro dtor q hpc hq hstopped
    rcases step_in_call hpc hs with ⟨hstay, -⟩ | ⟨r, hr, hcall, -⟩
    · exact .inl (by rw [hstay])
    · rw [hcall]
      refine .inr ?_
      rcases hq with ⟨c, rfl⟩ | ⟨err, rfl⟩
      · cases ch <;> simp only [callStep, stopStep, hstopped, if_true, reduceCtorEq] at hr
        cases hr
        rfl
      · cases ch <;> simp only [callStep, stopStep, hstopped, if_true, reduceCtorEq] at hr
        cases hr
        rfl

/-- One step keeps the two apart. -/
theorem orderly_step {cfg : Config} {voiceId : Bytes} {acts : List (ℕ × Choice)}
    {p p' : Pool Shared Thread} {tr es : List Event} {a : ℕ × Choice}
    (hrun : (session cfg).pool.run (initial voiceId) acts = some (p, tr)) (ho : Orderly cfg p a)
    (hg : GivingUp p → ¬ Winding p) (hs : (session cfg).pool.step p a = some (p', es)) :
    GivingUp p' → ¬ Winding p' := by
  obtain ⟨i, ch⟩ := a
  intro hg' hw'
  rcases winding_step hs hw' with hw | ⟨op, rest, hcall, hreader, hends⟩
  · rcases givingUp_step hs hg' with hg₀ | ⟨dtor, err, hpc, hch, hst⟩
    · exact hg hg₀ hw
    · exact ho.failed dtor err hpc hch hst hw
  · -- a step of the reader thread: the `Stop` had given up before
    have hg₀ : GivingUp p := by
      rcases givingUp_step hs hg' with hg₀ | ⟨dtor, err, hpc, -, -⟩
      · exact hg₀
      · cases hcall.symm.trans hpc
    rcases hends with hends | hrunning
    · exact ho.ends op rest hcall hreader hends hg₀
    · obtain ⟨j, pc, hpc, hgu⟩ := hg₀
      obtain ⟨hI, -, hthreads⟩ := lives_run hrun
      have hown := (hthreads j).1.call pc hpc
      have hstopping : (j, EventKind.stopping) ∈ tr := by
        cases pc with
        | stop dtor q => cases q <;> first | exact hown | cases hgu
        | _ => cases hgu
      rcases hI.stop hstopping with hst | hst
      · rw [hst] at hrunning
        cases hrunning
      · rw [hst] at hrunning
        cases hrunning

/-- The points of a `Stop` whose steps can be out of order. -/
def CallPc.races : CallPc → Bool
  | stop _ .fetch | stop _ (.failed _) => true
  | _ => false

section

variable {cfg : Config} {p : Pool Shared Thread} {i : ℕ} {ch : Choice}

theorem Orderly.of_call {pc : CallPc} (hpc : (p.threads i).call = some pc) (hr : pc.races = false) :
    Orderly cfg p (i, ch) := by
  refine ⟨fun dtor h => ?_, fun dtor err h => ?_, fun op rest h => ?_⟩
  · cases hpc.symm.trans h
    cases hr
  · cases hpc.symm.trans h
    cases hr
  · cases hpc.symm.trans h

theorem Orderly.of_fetch {dtor : Bool} (hpc : (p.threads i).call = some (.stop dtor .fetch))
    (hconn : p.shared.conn ≠ none) : Orderly cfg p (i, ch) := by
  refine ⟨fun _ _ _ => hconn, fun dtor err h => ?_, fun op rest h => ?_⟩
  · cases hpc.symm.trans h
  · cases hpc.symm.trans h

theorem Orderly.of_failed {dtor : Bool} {err : Bytes}
    (hpc : (p.threads i).call = some (.stop dtor (.failed err))) (hw : ¬ Winding p) :
    Orderly cfg p (i, ch) := by
  refine ⟨fun dtor h => ?_, fun _ _ _ _ _ => hw, fun op rest h => ?_⟩
  · cases hpc.symm.trans h
  · cases hpc.symm.trans h

theorem Orderly.of_enter {entry : Entry} (hcall : (p.threads i).call = none) :
    Orderly cfg p (i, .enter entry) := by
  refine ⟨fun dtor h => ?_, fun dtor err h => ?_, fun op rest _ _ h => ?_⟩
  · cases hcall.symm.trans h
  · cases hcall.symm.trans h
  · cases op <;> exact h.elim

end

/-- Nothing winds down while the reader threads have no terminal callback before them. -/
theorem not_winding {cfg : Config} {voiceId : Bytes} {acts : List (ℕ × Choice)}
    {p : Pool Shared Thread} {tr : List Event}
    (h : (session cfg).pool.run (initial voiceId) acts = some (p, tr))
    (hquiet : ∀ j i ops, (j, EventKind.spawned i) ∈ tr → (p.threads i).reader = some ops →
      ∀ op ∈ ops, op.ends = false) : ¬ Winding p := by
  rintro ⟨i, ops, op, hops, hop, hends⟩
  obtain ⟨j, hj⟩ := ((lives_run h).2.2 i).1.reader (by rw [hops]; exact (by simp))
  rw [hquiet j i ops hj hops op hop] at hends
  cases hends

/-! ## Steps out of order -/

/-- The step of a thread in a call that starts no thread. -/
theorem step_call (cfg : Config) {p : Pool Shared Thread} {j : ℕ} {pc : CallPc} {r : CallResult}
    (hpc : (p.threads j).call = some pc) (hr : callStep cfg j p.shared pc .go = some r)
    (hsp : r.spawned = none) : ∃ p', (session cfg).pool.step p (j, .go) =
      some (p', r.events.map (j, ·)) ∧ p'.shared = r.sh ∧ (p'.threads j).call = r.call ∧
      ∀ k, (p'.threads k).reader = (p.threads k).reader := by
  refine ⟨{ shared := r.sh
            threads := Function.update p.threads j { p.threads j with call := r.call } },
    ?_, rfl, ?_, fun k => ?_⟩
  · simp only [Threads.pool, Threads.poolStep, session, threadStep, hpc, hr, Option.map_some, hsp]
  · simp only [Function.update_self]
  · by_cases hk : k = j
    · rw [hk]
      simp only [Function.update_self]
    · simp only [Function.update_of_ne hk]

/-- The step in which the reader thread learns that the session ends. -/
theorem step_endsBy {cfg : Config} {p p' : Pool Shared Thread} {i : ℕ} {op : ReaderOp}
    {rest : List ReaderOp} {ch : Choice} {es : List Event} (hcall : (p.threads i).call = none)
    (hreader : (p.threads i).reader = some (op :: rest)) (he : EndsBy cfg op ch)
    (hs : (session cfg).pool.step p (i, ch) = some (p', es)) :
    Winding p' ∧ ∀ j, (p'.threads j).call = (p.threads j).call := by
  have hstep : ∃ r, readerStep cfg i p.shared rest op ch = some r ∧
      threadStep cfg i p.shared (p.threads i) ch = some
        { shared := r.sh, next := { p.threads i with reader := some r.ops }
          events := r.events.map (i, ·) } := by
    cases op with
    | read c =>
      cases ch with
      | read out =>
        refine ⟨_, rfl, ?_⟩
        simp only [threadStep, hcall, hreader, readerStep, Option.map_some]
      | _ => exact he.elim
    | inside cb =>
      cases ch with
      | throws what =>
        refine ⟨_, rfl, ?_⟩
        simp only [threadStep, hcall, hreader, readerStep, Option.map_some]
      | _ => exact he.elim
    | _ => exact he.elim
  obtain ⟨r, hr, ht⟩ := hstep
  obtain ⟨op', hop', hends⟩ := readerStep_endsBy hr he
  simp only [Threads.pool, Threads.poolStep, session, ht] at hs
  cases hs
  refine ⟨⟨i, r.ops, op', ?_, hop', hends⟩, fun j => ?_⟩
  · simp only [Function.update_self]
  · by_cases hj : j = i
    · rw [hj]
      simp only [Function.update_self]
    · simp only [Function.update_of_ne hj]

theorem Winding.of_readers {p p' : Pool Shared Thread} (h : Winding p)
    (hr : ∀ k, (p'.threads k).reader = (p.threads k).reader) : Winding p' := by
  obtain ⟨i, ops, op, hops, hop⟩ := h
  exact ⟨i, ops, op, (hr i).trans hops, hop⟩

theorem fetch_misreports {cfg : Config} {p : Pool Shared Thread} {i : ℕ} {dtor : Bool}
    (hpc : (p.threads i).call = some (.stop dtor .fetch)) (hnone : p.shared.conn = none) :
    ¬ Reports cfg p (i, .go) := by
  intro h
  have hr : callStep cfg i p.shared (.stop dtor .fetch) .go =
      some { sh := { p.shared with state := .stopped }, call := afterStop dtor
             events := [.threw .stop (notStarted (ascii "connection not established"))] } := by
    simp only [callStep, stopStep, hnone]
  obtain ⟨p', hs, -⟩ := step_call cfg hpc hr rfl
  obtain ⟨hcode, -⟩ := (h p' _ hs).1 i _ (List.mem_singleton.2 rfl)
  obtain ⟨dtor', hcas, -⟩ := hcode rfl
  cases hpc.symm.trans hcas

theorem store_misreports {cfg : Config} {p : Pool Shared Thread} {i : ℕ} {dtor : Bool}
    {err : Bytes} (hpc : (p.threads i).call = some (.stop dtor (.store err))) (hw : Winding p) :
    ¬ Reports cfg p (i, .go) := by
  intro h
  obtain ⟨p', hs, -⟩ := step_call cfg hpc rfl rfl
  obtain ⟨-, hquiet⟩ := (h p' _ hs).1 i _ (List.mem_singleton.2 rfl)
  refine hquiet (fun dtor' hcas => ?_) hw
  cases hpc.symm.trans hcas

/-- A `Stop` that has given up while the session winds down can throw before it has. -/
theorem givingUp_misreports (cfg : Config) {p : Pool Shared Thread} (hg : GivingUp p)
    (hw : Winding p) : ∃ acts, ¬ (session cfg).pool.Meets (Reports cfg) p acts := by
  obtain ⟨j, pc, hpc, hgu⟩ := hg
  cases pc with
  | stop dtor q =>
    cases q with
    | store err => exact ⟨[(j, .go)], fun hm => store_misreports hpc hw hm.1⟩
    | close err =>
      obtain ⟨p', hs, -, hcall, hreaders⟩ := step_call cfg hpc rfl rfl
      refine ⟨[(j, .go), (j, .go)], fun hm => ?_⟩
      have hrest := hm.2
      rw [hs] at hrest
      exact store_misreports hcall (hw.of_readers hreaders) hrest.1
    | _ => cases hgu
  | _ => cases hgu

/-- A step after which every run reports so is in order. -/
theorem orderly_of_reports {cfg : Config} {p p' : Pool Shared Thread} {a : ℕ × Choice}
    {es : List Event} (hs : (session cfg).pool.step p a = some (p', es))
    (h : ∀ acts, (session cfg).pool.Meets (Reports cfg) p (a :: acts)) : Orderly cfg p a := by
  have next : GivingUp p' → ¬ Winding p' := by
    intro hg hw
    obtain ⟨acts, hno⟩ := givingUp_misreports cfg hg hw
    have hrest := (h acts).2
    rw [hs] at hrest
    exact hno hrest
  obtain ⟨i, ch⟩ := a
  refine ⟨?_, ?_, ?_⟩
  · rintro dtor hpc rfl hnone
    exact fetch_misreports hpc hnone (h []).1
  · rintro dtor err hpc rfl hst hw
    have hr : callStep cfg i p.shared (.stop dtor (.failed err)) .go =
        some { sh := p.shared, call := some (.stop dtor (.close err)) } := by
      simp only [callStep, stopStep, hst, if_false]
    obtain ⟨q, hq, -, hcall, hreaders⟩ := step_call cfg hpc hr rfl
    rw [hs] at hq
    cases hq
    exact next ⟨i, _, hcall, rfl⟩ (hw.of_readers hreaders)
  · rintro op rest hcall hreader hends ⟨j, pc, hpc, hgu⟩
    obtain ⟨hw, hcalls⟩ := step_endsBy hcall hreader hends hs
    exact next ⟨j, pc, (hcalls j).trans hpc, hgu⟩ hw

/-- **`Stop` reports that the recognizer is not running only when it is not**, and waits for a
    session that ends, in every orderly run; and every step that is out of order is, or leads to,
    one that reports otherwise. -/
theorem stop_reports (cfg : Config) (voiceId : Bytes) :
    (∀ acts, (session cfg).pool.Meets (Orderly cfg) (initial voiceId) acts →
      (session cfg).pool.Meets (Reports cfg) (initial voiceId) acts) ∧
    ∀ p a p' es, (session cfg).pool.step p a = some (p', es) → ¬ Orderly cfg p a →
      ∃ acts, ¬ (session cfg).pool.Meets (Reports cfg) p (a :: acts) := by
  constructor
  · intro acts hm
    refine Lts.Meets.of_invariant (I := fun tr p =>
      (∃ acts, (session cfg).pool.run (initial voiceId) acts = some (p, tr)) ∧
        (GivingUp p → ¬ Winding p)) ?_ [] ⟨⟨[], rfl⟩, ?_⟩ hm
    · rintro tr p a ⟨⟨as, hrun⟩, hg⟩ ho
      refine ⟨reports_step ho hg, fun p' es hs => ⟨⟨as ++ [a], Lts.run_snoc hrun hs⟩, ?_⟩⟩
      exact orderly_step hrun ho hg hs
    · rintro ⟨j, pc, hpc, -⟩
      cases hpc
  · intro p a p' es hs hno
    by_contra hall
    exact hno (orderly_of_reports hs fun acts => by_contra fun hm => hall ⟨acts, hm⟩)

/-- A `Stop` that has won, when the reader thread has closed the connection. -/
def sampleClosed : List (ℕ × Choice) :=
  sampleStart ++ [(1, .go), (1, .go), (1, .returns), (1, .go), (1, .read (.frame 0x1 sampleFinal)),
    (0, .enter .stop), (0, .go), (1, .go), (1, .go), (1, .go), (1, .go)]

/-- A `Stop` whose end signal has failed, when the reader thread has read the final response. -/
def sampleFailed : List (ℕ × Choice) :=
  sampleStart ++ [(1, .go), (1, .go), (1, .returns), (1, .go), (0, .enter .stop), (0, .go),
    (0, .go), (0, .go), (0, .go), (0, .go), (1, .read (.frame 0x1 sampleFinal)),
    (0, .sent (.error [])), (0, .go), (0, .go), (1, .go), (1, .go), (1, .go), (1, .go)]

/-- Both throw while `OnRecognitionComplete` runs. -/
theorem stop_misreports :
    (∃ p tr resp rest,
      (session sampleConfig).pool.run (initial []) (sampleClosed ++ [(0, .go)]) = some (p, tr) ∧
        (0, .stopping) ∈ tr ∧
        (0, .threw .stop (notStarted (ascii "connection not established"))) ∈ tr ∧
        (p.threads 1).reader = some (.inside (.recognitionComplete resp) :: rest) ∧
        ¬ (session sampleConfig).pool.Meets (Reports sampleConfig) (initial [])
          (sampleClosed ++ [(0, .go)])) ∧
    ∃ p tr resp rest,
      (session sampleConfig).pool.run (initial []) (sampleFailed ++ [(0, .go)]) = some (p, tr) ∧
        (0, .stopping) ∈ tr ∧ (0, .threw .stop (stopWriteFailed [])) ∈ tr ∧
        (p.threads 1).reader = some (.inside (.recognitionComplete resp) :: rest) ∧
        ¬ (session sampleConfig).pool.Meets (Reports sampleConfig) (initial [])
          (sampleFailed ++ [(0, .go)]) := by
  have closed : ∃ p tr, (session sampleConfig).pool.run (initial []) sampleClosed = some (p, tr) ∧
      (p.threads 0).call = some (.stop false .fetch) ∧ p.shared.conn = none :=
    ⟨_, _, rfl, rfl, rfl⟩
  have failed : ∃ p tr resp rest,
      (session sampleConfig).pool.run (initial []) sampleFailed = some (p, tr) ∧
      (p.threads 0).call = some (.stop false (.store [])) ∧
      (p.threads 1).reader = some (.inside (.recognitionComplete resp) :: rest) :=
    ⟨_, _, _, _, rfl, rfl, rfl⟩
  refine ⟨⟨_, _, _, _, rfl, by decide, by decide, rfl, fun hm => ?_⟩,
    ⟨_, _, _, _, rfl, by decide, by decide, rfl, fun hm => ?_⟩⟩
  · obtain ⟨p, tr, hrun, hpc, hnone⟩ := closed
    exact fetch_misreports hpc hnone (Lts.meets_append hrun hm).1
  · obtain ⟨p, tr, resp, rest, hrun, hpc, hops⟩ := failed
    exact store_misreports hpc ⟨1, _, _, hops, List.mem_cons_self .., rfl⟩
      (Lts.meets_append hrun hm).1

/-- A `Stop` whose end signal fails while the session goes on. -/
def sampleGivesUp : List (ℕ × Choice) :=
  sampleStart ++ [(0, .enter .stop), (0, .go), (0, .go), (0, .go), (0, .go), (0, .go),
    (0, .sent (.error []))]

/-- It throws the write error, and reports so; a `Stop` without a connection does not. -/
theorem stop_reports_gives_up :
    (∃ p tr, (session sampleConfig).pool.run (initial [])
        (sampleGivesUp ++ [(0, .go), (0, .go), (0, .go)]) = some (p, tr) ∧
      (0, .threw .stop (stopWriteFailed [])) ∈ tr ∧
      (session sampleConfig).pool.Meets (Reports sampleConfig) (initial [])
        (sampleGivesUp ++ [(0, .go), (0, .go), (0, .go)])) ∧
    ∃ p acts, p.shared.conn = none ∧
      ¬ (session sampleConfig).pool.Meets (Reports sampleConfig) p ((0, .go) :: acts) := by
  have failed : ∃ p tr, (session sampleConfig).pool.run (initial []) sampleGivesUp = some (p, tr) ∧
      (p.threads 0).call = some (.stop false (.failed [])) ∧
      (p.threads 1).reader = some readLoop ∧ (tr.all fun e => match e.2 with
        | .spawned j => j == 1
        | _ => true) ∧
      (session sampleConfig).pool.Meets (Orderly sampleConfig) (initial []) sampleGivesUp ∧
      ∃ p' tr', (session sampleConfig).pool.step p (0, .go) = some (p', tr') ∧
        (session sampleConfig).pool.Meets (Orderly sampleConfig) p' [(0, .go), (0, .go)] := by
    refine ⟨_, _, rfl, rfl, rfl, by decide, ⟨.of_enter rfl, ?_⟩, _, _, rfl, .of_call rfl rfl,
      .of_call rfl rfl, trivial⟩
    iterate 10 refine ⟨.of_call rfl rfl, ?_⟩
    refine ⟨.of_enter rfl, .of_call rfl rfl, .of_fetch rfl (by simp), ?_⟩
    iterate 4 refine ⟨.of_call rfl rfl, ?_⟩
    trivial
  have closed : ∃ p tr p' es, (session sampleConfig).pool.run (initial []) sampleClosed =
        some (p, tr) ∧ (p.threads 0).call = some (.stop false .fetch) ∧ p.shared.conn = none ∧
      (session sampleConfig).pool.step p (0, .go) = some (p', es) :=
    ⟨_, _, _, _, rfl, rfl, rfl, rfl⟩
  constructor
  · obtain ⟨p, tr, hrun, hpc, hops, hall, hm, p', tr', hs, hm'⟩ := failed
    have hw : ¬ Winding p := by
      refine not_winding hrun fun j i ops hj hi => ?_
      obtain rfl : i = 1 := by simpa using List.all_eq_true.1 hall _ hj
      cases hops.symm.trans hi
      simp [readLoop, ReaderOp.ends]
    have hrest : (session sampleConfig).pool.Meets (Orderly sampleConfig) p
        [(0, .go), (0, .go), (0, .go)] := by
      refine ⟨.of_failed hpc hw, ?_⟩
      rw [hs]
      exact hm'
    exact ⟨_, _, rfl, by decide, (stop_reports sampleConfig []).1 _ (hm.append hrun hrest)⟩
  · obtain ⟨p, tr, p', es, hrun, hpc, hnone, hs⟩ := closed
    have hno : ¬ Orderly sampleConfig p (0, .go) := fun ho => ho.fetch false hpc rfl hnone
    obtain ⟨acts, hno⟩ := (stop_reports sampleConfig []).2 p (0, .go) p' es hs hno
    exact ⟨p, acts, hnone, hno⟩

end TrtcAsr.Speech
