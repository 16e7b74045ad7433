/-
  The life of a session: how its state moves, what it says about the connection, and what a
  `Stop` from a listener callback can do, for every order of the steps of the threads.

  * `Moves`: the moves of the state, one step at a time; the stopped state is the last one.
  * `Lives` relates the state to the connection and the two flags of the reader thread.
  * `Reentrant`: a `Stop` on the reader thread that has won finds the session stopping at
    each of its steps, since the only thread that could stop it is busy with this `Stop`.
  * `lifecycle`, `reentrant_stop`: what follows for every run.
-/
import TrtcAsr.Speech.Stop

namespace TrtcAsr.Speech

/-! ## The moves of the state -/

/-- The moves that change the state. -/
inductive Moves : RunState → RunState → Prop where
  | begin : Moves .idle .starting
  | fail : Moves .starting .idle
  | run : Moves .starting .running
  | stop : Moves .running .stopping
  | finish : Moves .running .stopped
  | stopped : Moves .stopping .stopped

/-- A store of the value that is there, or a move. -/
def MovesTo (s s' : RunState) : Prop := s' = s ∨ Moves s s'

section

variable {i : ℕ} {tr : List Event} {sh : Shared}

theorem moves_stopped (hI : Lifecycle tr sh) (hran : Ran tr) : MovesTo sh.state .stopped := by
  obtain ⟨hidle, hstart⟩ := hI.ran.1 hran
  cases hs : sh.state with
  | idle => exact absurd hs hidle
  | starting => exact absurd hs hstart
  | running => exact .inr .finish
  | stopping => exact .inr .stopped
  | stopped => exact .inl rfl

theorem startStep_moves {cfg : Config} {pc : StartPc} {ch : Choice} {r : CallResult}
    (hown : ownsStart i tr sh pc) (h : startStep cfg sh pc ch = some r) :
    MovesTo sh.state r.sh.state := by
  unfold startStep at h
  split at h
  case h_1 =>
    -- cas
    split at h
    · rename_i hidle
      cases h
      rw [hidle]
      exact .inr .begin
    · cases h
      exact .inl rfl
  case h_14 =>
    -- close
    cases h
    exact .inl (close_same sh).1
  case h_15 =>
    -- fail
    cases h
    rw [hown.1]
    exact .inr .fail
  case h_16 =>
    -- run
    cases h
    rw [hown.1]
    exact .inr .run
  all_goals
    repeat' split at h
    all_goals cases h
    all_goals exact .inl rfl

theorem stopStep_moves {dtor : Bool} {pc : StopPc} {ch : Choice} {r : CallResult}
    (hI : Lifecycle tr sh) (hown : ownsStop i tr sh pc) (h : stopStep i sh dtor pc ch = some r) :
    MovesTo sh.state r.sh.state := by
  unfold stopStep at h
  split at h
  case h_1 =>
    -- cas
    split at h
    · rename_i hrun
      cases h
      rw [hrun]
      exact .inr .stop
    · cases h
      exact .inl rfl
  case h_2 =>
    -- fetch
    split at h
    · cases h
      exact moves_stopped hI (ran_of_stopping hI hown)
    · cases h
      exact .inl rfl
  case h_9 =>
    -- close
    cases h
    exact .inl (close_same sh).1
  case h_10 =>
    -- store
    cases h
    exact moves_stopped hI (ran_of_stopping hI hown)
  case h_13 =>
    -- finish
    cases h
    exact moves_stopped hI (ran_of_stopping hI hown)
  all_goals
    repeat' split at h
    all_goals cases h
    all_goals exact .inl rfl

theorem callStep_moves {cfg : Config} {pc : CallPc} {ch : Choice} {r : CallResult}
    (hI : Lifecycle tr sh) (hown : ownsCall i tr sh pc) (h : callStep cfg i sh pc ch = some r) :
    MovesTo sh.state r.sh.state := by
  unfold callStep at h
  split at h
  · exact startStep_moves hown h
  · unfold writeStep at h
    repeat' split at h
    all_goals cases h
    all_goals exact .inl rfl
  · exact stopStep_moves hI hown h
  · unfold waitStep waitReturn at h
    repeat' split at h
    all_goals cases h
    all_goals first
      | exact .inl rfl
      | exact .inl (close_same sh).1
  all_goals
    repeat' split at h
    all_goals cases h
    all_goals exact .inl rfl

theorem readerStep_moves {cfg : Config} {rest : List ReaderOp} {op : ReaderOp} {ch : Choice}
    {r : ReaderResult} (hI : Lifecycle tr sh) (hran : Ran tr)
    (h : readerStep cfg i sh rest op ch = some r) : MovesTo sh.state r.sh.state := by
  unfold readerStep at h
  repeat' split at h
  all_goals cases h
  all_goals first
    | exact .inl rfl
    | exact .inl (close_same sh).1
    | exact moves_stopped hI hran

end

/-- **One step of a session moves the state by one of the moves, or not at all.** -/
theorem step_moves {cfg : Config} {tr : List Event} {p p' : Pool Shared Thread} {a : ℕ × Choice}
    {es : List Event} (hI : Lifecycle tr p.shared) (hown : ∀ i, Owns i tr p.shared (p.threads i))
    (h : (session cfg).pool.step p a = some (p', es)) : MovesTo p.shared.state p'.shared.state := by
  obtain ⟨i, ch⟩ := a
  obtain ⟨o, ho, hsh, -, -⟩ := Threads.poolStep_cases h
  rw [hsh]
  rcases threadStep_cases ho with ⟨d, rfl⟩ | ⟨pc, r, hpc, hr, rfl⟩ | ⟨entry, -, -, rfl⟩ |
    ⟨op, rest, r, -, hops, hr, rfl⟩
  · exact .inl rfl
  · exact callStep_moves hI ((hown i).call pc hpc) hr
  · exact .inl rfl
  · obtain ⟨j, hj⟩ := (hown i).reader (by rw [hops]; simp)
    obtain ⟨c, hc⟩ := hI.spawn hj
    exact readerStep_moves hI ⟨j, c, hc⟩ hr

/-! ## The invariant -/

/-- Thread `i` runs the reader loop. -/
def ReaderThread (i : ℕ) (tr : List Event) : Prop := ∃ j, (j, EventKind.spawned i) ∈ tr

/-- The `Stop` that won has returned. -/
def StopReturned (tr : List Event) : Prop := ∃ j, (j, EventKind.returned .stop) ∈ tr

structure Lives (tr : List Event) (sh : Shared) : Prop where
  running : sh.state = .running → sh.conn ≠ none
  finished : sh.finished → sh.state = .stopped
  reader : sh.finished → ∃ j, ReaderThread j tr
  done : sh.done → sh.finished ∧ sh.conn = none
  returned : ∀ {j}, (j, EventKind.returned .stop) ∈ tr → (j, EventKind.stopping) ∈ tr

/-- In what is left of the loop, `Close` and `SignalDone` come after `Finish`. -/
def Winds : Bool → List ReaderOp → Prop
  | _, [] => True
  | b, .close :: ops | b, .signalDone :: ops => b = true ∧ Winds b ops
  | _, .finish :: ops => Winds true ops
  | b, _ :: ops => Winds b ops

structure ReaderLives (i : ℕ) (sh : Shared) (ops : List ReaderOp) : Prop where
  winds : Winds sh.finished ops
  closed : sh.finished → ops.head? = some .close ∨ sh.conn = none
  tid : ops.head? = some .setTid ∨ sh.readerTid = some i

/-- What a call of the reader thread finds: its `Stop` is the one that won, the session is still
    stopping, and the end signal has been handed to the connection where it has got that far. -/
def Reentrant (i : ℕ) (tr : List Event) (sh : Shared) : CallPc → Prop
  | .wait _ _ | .stop _ .finish => False
  | .stop _ .cas => True
  | .stop _ .fetch => sh.state = .stopping ∧ ¬ StopReturned tr ∧ sh.conn ≠ none
  | .stop _ (.lock _) | .stop _ (.check _) | .stop _ (.send _) => sh.state = .stopping
  | .stop _ _ => sh.state = .stopping ∧ ∃ c, (i, EventKind.sent c .endSignal) ∈ tr
  | _ => True

structure lives (i : ℕ) (tr : List Event) (sh : Shared) (t : Thread) : Prop where
  reader : ∀ ops, t.reader = some ops → ReaderLives i sh ops
  watchdog : ∀ pc, t.call = some (.wait .watchdog pc) → StopReturned tr
  inside : ∀ ops pc, t.reader = some ops → t.call = some pc →
    (∃ cb rest, ops = .inside cb :: rest) ∧ Reentrant i tr sh pc

/-- What a step of thread `i` leaves to the others. -/
structure Spares (i : ℕ) (tr : List Event) (sh : Shared) (es : List Event) (sh' : Shared) :
    Prop where
  stopping : sh.state = .stopping →
    sh'.state = .stopping ∨ (i, EventKind.stopping) ∈ tr ∨ ReaderThread i tr
  conn : Ran tr → sh'.conn = sh.conn ∨
    sh'.conn = none ∧ ((i, EventKind.stopping) ∈ tr ∨ ReaderThread i tr ∨ StopReturned tr)
  returned : ∀ {j}, (j, EventKind.returned .stop) ∈ es → (i, EventKind.stopping) ∈ tr
  finished : sh'.finished = sh.finished ∨ ReaderThread i tr
  tid : sh'.readerTid = sh.readerTid ∨ ReaderThread i tr

theorem ReaderThread.grow {i : ℕ} {tr es : List Event} :
    ReaderThread i tr → ReaderThread i (tr ++ es) := fun ⟨j, h⟩ => ⟨j, mem_grow h⟩

theorem StopReturned.grow {tr es : List Event} : StopReturned tr → StopReturned (tr ++ es) :=
  fun ⟨j, h⟩ => ⟨j, mem_grow h⟩

theorem lives.stable {i j : ℕ} {tr es : List Event} {sh sh' : Shared} {t : Thread} (hne : j ≠ i)
    (hI : Lifecycle tr sh) (hown : Owns j tr sh t) (h : lives j tr sh t)
    (hg : Spares i tr sh es sh') : lives j (tr ++ es) sh' t := by
  have other : t.reader ≠ none → ¬ ReaderThread i tr := by
    rintro hr ⟨k, hk⟩
    obtain ⟨m, hm⟩ := hown.reader hr
    exact hne (hI.spawnOnce hm hk)
  refine ⟨fun ops hops => ?_, fun pc hpc => (h.watchdog pc hpc).grow, fun ops pc hops hpc => ?_⟩
  · have hr : t.reader ≠ none := by rw [hops]; simp
    obtain ⟨m, hm⟩ := hown.reader hr
    obtain ⟨c, hc⟩ := hI.spawn hm
    obtain ⟨hwinds, hclosed, htid⟩ := h.reader ops hops
    have hfin := hg.finished.resolve_right (other hr)
    refine ⟨hfin ▸ hwinds, fun hf => ?_, ?_⟩
    · refine (hclosed (hfin ▸ hf)).imp id fun hnone => ?_
      rcases hg.conn ⟨m, c, hc⟩ with heq | ⟨hnone', -⟩
      · rw [heq, hnone]
      · exact hnone'
    · rw [hg.tid.resolve_right (other hr)]
      exact htid
  · have hr : t.reader ≠ none := by rw [hops]; simp
    obtain ⟨hin, hre⟩ := h.inside ops pc hops hpc
    refine ⟨hin, ?_⟩
    have ho := hown.call pc hpc
    have alone : (j, EventKind.stopping) ∈ tr → ¬ (i, EventKind.stopping) ∈ tr :=
      fun hj hi => hne (hI.stopOnce hj hi)
    have state : (j, EventKind.stopping) ∈ tr → sh.state = .stopping → sh'.state = .stopping :=
      fun hj hs => (hg.stopping hs).resolve_right fun hor => hor.elim (alone hj) (other hr)
    have sent : (∃ c, (j, EventKind.sent c .endSignal) ∈ tr) →
        ∃ c, (j, EventKind.sent c .endSignal) ∈ tr ++ es := fun ⟨c, hc⟩ => ⟨c, mem_grow hc⟩
    cases pc with
    | stop dtor pc =>
      cases pc with
      | cas => trivial
      | fetch =>
        obtain ⟨hs, hno, hconn⟩ := hre
        refine ⟨state ho hs, ?_, ?_⟩
        · rintro ⟨k, hk⟩
          rcases List.mem_append.1 hk with hk | hk
          · exact hno ⟨k, hk⟩
          · exact alone ho (hg.returned hk)
        · rcases hg.conn (ran_of_stopping hI ho) with heq | ⟨-, hi | hi | hi⟩
          · rw [heq]; exact hconn
          · exact absurd hi (alone ho)
          · exact absurd hi (other hr)
          · exact absurd hi hno
      | lock c => exact state ho hre
      | check c => exact state ho.1 hre
      | send c => exact state ho.1 hre
      | sent => exact ⟨state ho.1 hre.1, sent hre.2⟩
      | failed err => exact ⟨state ho hre.1, sent hre.2⟩
      | close err => exact ⟨state ho hre.1, sent hre.2⟩
      | store err => exact ⟨state ho hre.1, sent hre.2⟩
      | self => exact ⟨state ho hre.1, sent hre.2⟩
      | watchdog => exact ⟨state ho hre.1, sent hre.2⟩
      | finish => exact hre
    | wait w pc => exact hre
    | _ => trivial

/-! ## Steps of a call -/

section

variable {i : ℕ} {tr : List Event} {sh sh' : Shared} {ks : List EventKind}

theorem Lives.step (hI : Lifecycle tr sh) (hL : Lives tr sh) (hout : Outside sh sh' ks)
    (hst : sh.state = .stopped → sh'.state = .stopped)
    (hrun : sh'.state = .running → sh'.conn ≠ none)
    (hconn : Ran tr → sh'.conn = sh.conn ∨ sh'.conn = none)
    (hret : .returned .stop ∈ ks → (i, EventKind.stopping) ∈ tr) :
    Lives (tr ++ ks.map (i, ·)) sh' where
  running := hrun
  finished hf := hst (hL.finished (hout.finished ▸ hf))
  reader hf := (hL.reader (hout.finished ▸ hf)).imp fun _ => .grow
  done hd := by
    obtain ⟨hf, hnone⟩ := hL.done (hout.done ▸ hd)
    have hran : Ran tr := hI.ran.2 (by rw [hL.finished hf]; exact ⟨by simp, by simp⟩)
    refine ⟨hout.finished ▸ hf, ?_⟩
    rcases hconn hran with heq | hnone'
    · rw [heq, hnone]
    · exact hnone'
  returned := by
    intro j hj
    rcases List.mem_append.1 hj with hj | hj
    · exact mem_grow (hL.returned hj)
    · obtain ⟨rfl, hk⟩ := mem_tagged.1 hj
      exact mem_grow (hret hk)

/-- What a step of a call owes to the invariant and to the others. -/
structure CallLives (i : ℕ) (tr : List Event) (sh : Shared) (r : CallResult) : Prop where
  inv : Lives (tr ++ r.events.map (i, ·)) r.sh
  tid : r.sh.readerTid = sh.readerTid
  spares : Spares i tr sh (r.events.map (i, ·)) r.sh

/-- A step that leaves the connection. -/
theorem CallLives.keep {r : CallResult} (hI : Lifecycle tr sh) (hL : Lives tr sh)
    (hout : Outside sh r.sh r.events) (hk : CallKeeps i tr sh r) (hconn : r.sh.conn = sh.conn)
    (htid : r.sh.readerTid = sh.readerTid)
    (hs : r.sh.state = .running → sh.state = .running ∨ sh.conn ≠ none)
    (hst : sh.state = .stopping → r.sh.state = .stopping ∨ (i, EventKind.stopping) ∈ tr)
    (hret : .returned .stop ∈ r.events → (i, EventKind.stopping) ∈ tr) :
    CallLives i tr sh r where
  inv := by
    refine hL.step hI hout hk.leaves.stopped (fun hrun => ?_) (fun _ => .inl hconn) hret
    rw [hconn]
    exact (hs hrun).elim hL.running id
  tid := htid
  spares := by
    refine ⟨fun h => (hst h).imp id .inl, fun _ => .inl hconn, fun hm => ?_, .inl hout.finished,
      .inl htid⟩
    exact hret (mem_tagged.1 hm).2

theorem close_conn (sh : Shared) : sh.close.1.conn = none := by
  unfold Shared.close
  cases hc : sh.conn with
  | none => exact hc
  | some c => rfl

theorem returned_close (sh : Shared) : .returned .stop ∉ sh.close.2 := by
  unfold Shared.close
  cases sh.conn with
  | none => exact List.not_mem_nil
  | some c => simp

/-- `Close`, of a `Start` that has failed or in a session that is stopping. -/
theorem CallLives.close {call : Option CallPc} (hI : Lifecycle tr sh) (hL : Lives tr sh)
    (hs : sh.state ≠ .running)
    (hside : Ran tr → (i, EventKind.stopping) ∈ tr ∨ ReaderThread i tr ∨ StopReturned tr) :
    CallLives i tr sh { sh := sh.close.1, call, events := sh.close.2 } where
  inv := by
    refine hL.step hI (outside_close sh) (fun h => (close_same sh).1.trans h) (fun hrun => ?_)
      (fun _ => .inr (close_conn sh)) fun hm => absurd hm (returned_close sh)
    exact absurd ((close_same sh).1.symm.trans hrun) hs
  tid := (close_same sh).2.1
  spares := by
    refine ⟨fun h => .inl ((close_same sh).1.trans h), fun hran => .inr ⟨close_conn sh, hside hran⟩,
      fun hm => absurd (mem_tagged.1 hm).2 (returned_close sh), .inl (outside_close sh).finished,
      .inl (close_same sh).2.1⟩

theorem startStep_lives {cfg : Config} {pc : StartPc} {ch : Choice} {r : CallResult}
    (hI : Lifecycle tr sh) (hL : Lives tr sh) (hown : ownsStart i tr sh pc)
    (hc : awaitsStart sh pc) (hout : Outside sh r.sh r.events) (hk : CallKeeps i tr sh r)
    (h : startStep cfg sh pc ch = some r) : CallLives i tr sh r := by
  have hbusy : sh.state = .starting → sh.state = .stopping → r.sh.state = .stopping ∨
      (i, EventKind.stopping) ∈ tr := fun hs hs' => by rw [hs] at hs'; cases hs'
  unfold startStep at h
  split at h
  case h_1 =>
    -- cas
    split at h
    · rename_i hidle
      cases h
      exact .keep hI hL hout hk rfl rfl (by simp) (fun h => by rw [hidle] at h; cases h) (by simp)
    · cases h
      exact .keep hI hL hout hk rfl rfl .inl .inl (by simp)
  case h_10 =>
    -- publish
    cases h
    have hnr : ¬ Ran tr := not_ran_of_starting hI hown.1
    refine ⟨hL.step hI hout id ?_ (fun hran => absurd hran hnr) (by simp), rfl, .inl,
      fun hran => absurd hran hnr, fun hm => absurd (mem_tagged.1 hm).2 (by simp), .inl rfl, .inl rfl⟩
    exact fun _ => by simp
  case h_14 =>
    -- close
    cases h
    refine .close hI hL ?_ fun hran => absurd hran (not_ran_of_starting hI hown.1)
    rw [hown.1]
    simp
  case h_15 =>
    -- fail
    cases h
    exact .keep hI hL hout hk rfl rfl (by simp) (hbusy hown.1) (by simp)
  case h_16 =>
    -- run
    cases h
    have hconn : sh.conn ≠ none := by
      rw [hc]
      simp
    exact .keep hI hL hout hk rfl rfl (fun _ => .inr hconn) (hbusy hown.1) (by simp)
  all_goals
    repeat' split at h
    all_goals cases h
    all_goals exact .keep hI hL hout hk rfl rfl .inl .inl (by simp)

theorem stopStep_lives {dtor : Bool} {pc : StopPc} {ch : Choice} {r : CallResult}
    (hI : Lifecycle tr sh) (hL : Lives tr sh) (hown : ownsStop i tr sh pc)
    (hout : Outside sh r.sh r.events) (hk : CallKeeps i tr sh r)
    (h : stopStep i sh dtor pc ch = some r) : CallLives i tr sh r := by
  unfold stopStep at h
  split at h
  case h_1 =>
    -- cas
    split at h
    · rename_i hrun
      cases h
      exact .keep hI hL hout hk rfl rfl (by simp) (fun h => by rw [hrun] at h; cases h) (by simp)
    · cases h
      exact .keep hI hL hout hk rfl rfl .inl .inl (by simp)
  case h_2 =>
    -- fetch
    split at h
    · cases h
      exact .keep hI hL hout hk rfl rfl (by simp) (fun _ => .inr hown) (by simp)
    · cases h
      exact .keep hI hL hout hk rfl rfl .inl .inl (by simp)
  case h_9 =>
    -- close
    cases h
    refine .close hI hL ?_ fun _ => .inl hown
    intro hrun
    rcases hI.stop hown with hs | hs
    · rw [hs] at hrun; cases hrun
    · rw [hs] at hrun; cases hrun
  case h_10 =>
    -- store
    cases h
    exact .keep hI hL hout hk rfl rfl (by simp) (fun _ => .inr hown) (by simp)
  case h_12 =>
    -- watchdog
    cases h
    exact .keep hI hL hout hk rfl rfl .inl .inl fun _ => hown
  case h_13 =>
    -- finish
    cases h
    exact .keep hI hL hout hk rfl rfl (by simp) (fun _ => .inr hown) fun _ => hown
  all_goals
    repeat' split at h
    all_goals cases h
    all_goals exact .keep hI hL hout hk rfl rfl .inl .inl (by simp)

theorem waitStep_lives {w : Waiter} {pc : WaitPc} {ch : Choice} {r : CallResult}
    (hI : Lifecycle tr sh) (hL : Lives tr sh) (hown : ownsWait i tr sh w pc)
    (hdog : w = .watchdog → StopReturned tr) (hout : Outside sh r.sh r.events)
    (hk : CallKeeps i tr sh r) (h : waitStep i sh w pc ch = some r) : CallLives i tr sh r := by
  have hret : .returned .stop ∈ w.after.2 → (i, EventKind.stopping) ∈ tr := by
    intro hm
    cases w with
    | watchdog => cases hm
    | stop dtor stores => exact hown.1 (by simp)
  unfold waitStep waitReturn at h
  split at h
  case h_6 =>
    -- close
    cases h
    have hstopping : ∃ j, (j, EventKind.stopping) ∈ tr := by
      by_cases hw : w = .watchdog
      · obtain ⟨j, hj⟩ := hdog hw
        exact ⟨j, hL.returned hj⟩
      · exact ⟨i, hown.1 hw⟩
    refine .close hI hL ?_ fun _ => ?_
    · obtain ⟨j, hj⟩ := hstopping
      intro hrun
      rcases hI.stop hj with hs | hs
      · rw [hs] at hrun; cases hrun
      · rw [hs] at hrun; cases hrun
    · by_cases hw : w = .watchdog
      · exact .inr (.inr (hdog hw))
      · exact .inl (hown.1 hw)
  all_goals
    repeat' split at h
    all_goals cases h
    all_goals first
      | exact .keep hI hL hout hk rfl rfl .inl .inl hret
      | exact .keep hI hL hout hk rfl rfl .inl .inl (by simp)

theorem callStep_lives {cfg : Config} {pc : CallPc} {ch : Choice} {r : CallResult}
    (hI : Lifecycle tr sh) (hL : Lives tr sh) (hown : ownsCall i tr sh pc)
    (ha : awaitsCall i tr sh pc) (hdog : ∀ q, pc = .wait .watchdog q → StopReturned tr)
    (h : callStep cfg i sh pc ch = some r) : CallLives i tr sh r := by
  have hout := callStep_outside h
  have hk := callStep_keeps hI hown h
  unfold callStep at h
  split at h
  · exact startStep_lives hI hL hown ha hout hk h
  · unfold writeStep at h
    repeat' split at h
    all_goals cases h
    all_goals exact .keep hI hL hout hk rfl rfl .inl .inl (by simp)
  · exact stopStep_lives hI hL hown hout hk h
  · exact waitStep_lives hI hL hown (fun hw => hdog _ (by rw [hw])) hout hk h
  all_goals
    repeat' split at h
    all_goals cases h
    all_goals exact .keep hI hL hout hk rfl rfl .inl .inl (by simp)

end

/-! ## A Stop on the reader thread -/

def stopNotRunning : Exn := notStarted (ascii "recognizer not running")

def stopWriteFailed (err : Bytes) : Exn :=
  .asr ⟨kErrWriteFailed, ascii "send end signal failed: " ++ err⟩

/-- What is left of a `Stop` on the reader thread, in steps. -/
def StopPc.rank : StopPc → ℕ
  | .cas => 8
  | .fetch => 7
  | .lock _ => 6
  | .check _ => 5
  | .send _ => 4
  | .sent => 3
  | .failed _ | .self => 2
  | .close _ | .watchdog => 1
  | .store _ | .finish => 0

/-- One step of a `Stop` of thread `i` that does not wait: it goes on, it throws because it found
    the recognizer not running, or it returns or throws a write error after the end signal. -/
inductive StopsOn (i : ℕ) (tr : List Event) (sh : Shared) (dtor : Bool) :
    StopPc → Option CallPc → List EventKind → Prop where
  | goesOn {q q' ks} (hcas : q = .cas → sh.state = .running) (hrank : q'.rank < q.rank) :
    StopsOn i tr sh dtor q (some (.stop dtor q')) ks
  | notRunning (hs : sh.state ≠ .running) :
    StopsOn i tr sh dtor .cas (afterStop dtor) [.threw .stop stopNotRunning]
  | ends {q ks c} (hq : q ≠ .cas) (hsent : (i, EventKind.sent c .endSignal) ∈ tr)
    (hks : ks = [.returned .stop] ∨ ∃ err, ks = [.threw .stop (stopWriteFailed err)]) :
    StopsOn i tr sh dtor q (afterStop dtor) ks

section

variable {i : ℕ} {tr : List Event} {sh : Shared}

theorem reentrant_afterStop {dtor : Bool} :
    ∀ pc, afterStop dtor = some pc → Reentrant i tr sh pc := by
  intro pc hpc
  cases dtor with
  | false => cases hpc
  | true => cases hpc; trivial

theorem stopStep_reentrant {dtor : Bool} {pc : StopPc} {ch : Choice} {r : CallResult}
    (hI : Lifecycle tr sh) (hL : Lives tr sh) (htid : sh.readerTid = some i)
    (hre : Reentrant i tr sh (.stop dtor pc)) (h : stopStep i sh dtor pc ch = some r) :
    (∀ pc', r.call = some pc' → Reentrant i (tr ++ r.events.map (i, ·)) r.sh pc') ∧
      StopsOn i tr sh dtor pc r.call r.events := by
  have sent : ∀ es, (∃ c, (i, EventKind.sent c .endSignal) ∈ tr) →
      ∃ c, (i, EventKind.sent c .endSignal) ∈ tr ++ es := fun _ ⟨c, hc⟩ => ⟨c, mem_grow hc⟩
  have busy : sh.state = .stopping → sh.state ≠ .stopped := fun hs => by rw [hs]; simp
  unfold stopStep at h
  split at h
  · -- cas
    split at h
    · rename_i hrun
      cases h
      refine ⟨?_, .goesOn (fun _ => hrun) (Nat.lt_add_one _)⟩
      rintro _ ⟨⟩
      refine ⟨rfl, ?_, hL.running hrun⟩
      rintro ⟨j, hj⟩
      rcases hI.stop (hL.returned (mem_of_append hj (by simp))) with hs | hs
      · rw [hs] at hrun; cases hrun
      · rw [hs] at hrun; cases hrun
    · rename_i hrun
      cases h
      exact ⟨reentrant_afterStop, .notRunning hrun⟩
  · -- fetch
    obtain ⟨hs, -, hconn⟩ := hre
    split at h
    · rename_i hnone
      exact absurd hnone hconn
    · cases h
      exact ⟨by rintro _ ⟨⟩; exact hs, .goesOn (by simp) (Nat.lt_add_one _)⟩
  · -- lock
    split at h
    · cases h
      exact ⟨by rintro _ ⟨⟩; exact hre, .goesOn (by simp) (Nat.lt_add_one _)⟩
    · cases h
  · -- check
    split at h
    · rename_i hs
      exact absurd hs (busy hre)
    · cases h
      exact ⟨by rintro _ ⟨⟩; exact hre, .goesOn (by simp) (Nat.lt_add_one _)⟩
  · -- send
    rename_i c
    cases h
    refine ⟨?_, .goesOn (by simp) (Nat.lt_add_one _)⟩
    rintro _ ⟨⟩
    exact ⟨hre, c, List.mem_append_right tr (List.mem_singleton.2 rfl)⟩
  · -- sent
    cases h
    exact ⟨by rintro _ ⟨⟩; exact ⟨hre.1, sent _ hre.2⟩, .goesOn (by simp) (Nat.lt_add_one _)⟩
  · cases h
    exact ⟨by rintro _ ⟨⟩; exact ⟨hre.1, sent _ hre.2⟩, .goesOn (by simp) (Nat.lt_add_one _)⟩
  · -- failed
    cases h
    rw [if_neg (busy hre.1)]
    exact ⟨by rintro _ ⟨⟩; exact ⟨hre.1, sent _ hre.2⟩, .goesOn (by simp) (Nat.lt_add_one _)⟩
  · -- close
    cases h
    refine ⟨?_, .goesOn (by simp) (Nat.lt_add_one _)⟩
    rintro _ ⟨⟩
    exact ⟨(close_same sh).1.trans hre.1, sent _ hre.2⟩
  · -- store
    rename_i err
    cases h
    obtain ⟨c, hc⟩ := hre.2
    exact ⟨reentrant_afterStop, .ends (by simp) hc (.inr ⟨err, rfl⟩)⟩
  · -- self
    cases h
    rw [if_pos htid]
    exact ⟨by rintro _ ⟨⟩; exact ⟨hre.1, sent _ hre.2⟩, .goesOn (by simp) (Nat.lt_add_one _)⟩
  · -- watchdog
    cases h
    obtain ⟨c, hc⟩ := hre.2
    exact ⟨reentrant_afterStop, .ends (by simp) hc (.inl rfl)⟩
  · exact absurd hre id
  · cases h

theorem callStep_reentrant {cfg : Config} {pc : CallPc} {ch : Choice} {r : CallResult}
    (hI : Lifecycle tr sh) (hL : Lives tr sh) (htid : sh.readerTid = some i)
    (hre : Reentrant i tr sh pc) (h : callStep cfg i sh pc ch = some r) :
    ∀ pc', r.call = some pc' → Reentrant i (tr ++ r.events.map (i, ·)) r.sh pc' := by
  unfold callStep at h
  split at h
  · -- start
    unfold startStep at h
    repeat' split at h
    all_goals cases h
    all_goals rintro _ ⟨⟩ <;> trivial
  · -- write
    unfold writeStep at h
    repeat' split at h
    all_goals cases h
    all_goals rintro _ ⟨⟩ <;> trivial
  · exact (stopStep_reentrant hI hL htid hre h).1
  · exact absurd hre id
  · -- destroy
    cases h
    rintro _ ⟨⟩
    split
    · trivial
    · trivial
  · -- join
    split at h
    · cases h
    · cases h
      simp
  · cases h

/-- Only the mutex can keep a `Stop` on the reader thread from taking a step. -/
theorem stopStep_enabled {dtor : Bool} {pc : StopPc} :
    (∃ ch r, stopStep i sh dtor pc ch = some r) ∨ ∃ c j, pc = .lock c ∧ sh.writeMu = some j := by
  cases pc with
  | lock c =>
    cases hm : sh.writeMu with
    | none => exact .inl ⟨.go, by simp only [stopStep, hm]; exact ⟨_, rfl⟩⟩
    | some j => exact .inr ⟨c, j, rfl, rfl⟩
  | cas => exact .inl ⟨.go, by simp only [stopStep]; split <;> exact ⟨_, rfl⟩⟩
  | fetch => exact .inl ⟨.go, by simp only [stopStep]; split <;> exact ⟨_, rfl⟩⟩
  | check c => exact .inl ⟨.go, by simp only [stopStep]; split <;> exact ⟨_, rfl⟩⟩
  | sent => exact .inl ⟨.sent (.ok ()), _, rfl⟩
  | watchdog => exact .inl ⟨.spawn 0, _, rfl⟩
  | _ => exact .inl ⟨.go, _, rfl⟩

/-! ## Steps of the reader thread -/

theorem winds_dispatch {b : Bool} {resp : SpeechResponse} {ops : List ReaderOp}
    (h : Winds b ops) : Winds b (dispatchEvent resp ++ ops) := by
  rcases dispatchEvent_cases resp with heq | ⟨cb, -, heq⟩
  · rw [heq]; exact h
  · rw [heq]; exact h

theorem winds_afterRead (b : Bool) (cfg : Config) (c : ℕ) (r : ReadOutcome) :
    Winds b (afterRead cfg c r) := by
  have response : ∀ resp, Winds b (afterResponse c resp) := by
    intro resp
    unfold afterResponse
    split
    · simp [leave, Winds]
    split
    · rw [List.append_assoc, List.append_assoc]
      exact winds_dispatch (by simp [leave, Winds])
    split
    · trivial
    · exact winds_dispatch trivial
  unfold afterRead
  split
  · trivial
  · trivial
  split
  · trivial
  split
  · trivial
  split
  · trivial
  split
  · trivial
  · unfold storeSpeaker
    split
    · exact response _
    · exact response _

/-- What a step of the reader thread owes to the invariant, to itself and to the others. -/
structure ReaderStepLives (i : ℕ) (tr : List Event) (sh : Shared) (r : ReaderResult) : Prop where
  inv : Lives (tr ++ r.events.map (i, ·)) r.sh
  reader : ReaderLives i r.sh r.ops
  conn : r.sh.conn = sh.conn ∨ r.sh.conn = none
  quiet : .returned .stop ∉ r.events

theorem Lives.same {sh' : Shared} {ks : List EventKind} (hL : Lives tr sh)
    (hs : sh'.state = sh.state) (hc : sh'.conn = sh.conn) (hf : sh'.finished = sh.finished)
    (hd : sh'.done = sh.done) (hret : .returned .stop ∉ ks) : Lives (tr ++ ks.map (i, ·)) sh' where
  running h := by rw [hc]; exact hL.running (hs ▸ h)
  finished h := by rw [hs]; exact hL.finished (hf ▸ h)
  reader h := (hL.reader (hf ▸ h)).imp fun _ => .grow
  done h := by rw [hf, hc]; exact hL.done (hd ▸ h)
  returned h := mem_grow (hL.returned (mem_of_append h hret))

theorem readerStep_lives {cfg : Config} {rest : List ReaderOp} {op : ReaderOp} {ch : Choice}
    {r : ReaderResult} (hL : Lives tr sh) (hrd : ReaderThread i tr)
    (hR : ReaderLives i sh (op :: rest)) (h : readerStep cfg i sh rest op ch = some r) :
    ReaderStepLives i tr sh r := by
  obtain ⟨hwinds, hclosed, htid⟩ := hR
  -- a statement other than `Close` finds the connection closed once `Finish` has run
  have hnone : op ≠ .close → ∀ ops : List ReaderOp, sh.finished →
      ops.head? = some .close ∨ sh.conn = none := by
    intro hop _ hf
    exact .inr ((hclosed hf).resolve_left fun h => hop (Option.some.inj h))
  have htid' : op ≠ .setTid → ∀ ops : List ReaderOp,
      ops.head? = some .setTid ∨ sh.readerTid = some i :=
    fun hop _ => .inr (htid.resolve_left fun h => hop (Option.some.inj h))
  have keep : op ≠ .setTid → op ≠ .close → ∀ ops ks, Winds sh.finished ops →
      .returned .stop ∉ ks → ReaderStepLives i tr sh { sh, ops, events := ks } :=
    fun ht hc ops ks hw hret =>
      ⟨hL.same rfl rfl rfl rfl hret, ⟨hw, hnone hc ops, htid' ht ops⟩, .inl rfl, hret⟩
  unfold readerStep at h
  split at h
  · -- setTid
    cases h
    exact ⟨hL.same rfl rfl rfl rfl (by simp), ⟨hwinds, hnone (by simp) _, .inr rfl⟩, .inl rfl, by simp⟩
  · -- callStart
    cases h
    exact keep (by simp) (by simp) _ _ hwinds (by simp)
  · -- call
    cases h
    exact keep (by simp) (by simp) _ _ hwinds (by simp)
  · -- inside, returns
    cases h
    exact keep (by simp) (by simp) _ _ hwinds (by simp)
  · -- inside, throws
    cases h
    refine keep (by simp) (by simp) _ _ ?_ (by simp)
    split
    · exact hwinds
    · simp [caught, leave, Winds]
  · -- fetch
    cases h
    refine keep (by simp) (by simp) _ _ ?_ (by simp)
    split
    · simp [leave, Winds]
    · trivial
  · -- read
    cases h
    exact keep (by simp) (by simp) _ _ (winds_afterRead ..) (by simp)
  · -- checkStopped
    cases h
    refine keep (by simp) (by simp) _ _ ?_ (by simp)
    split
    · simp [leave, Winds]
    · trivial
  · -- checkStopping
    cases h
    refine keep (by simp) (by simp) _ _ ?_ (by simp)
    split <;> simp [leave, Winds]
  · -- storeSpeaker
    cases h
    exact ⟨hL.same rfl rfl rfl rfl (by simp), ⟨hwinds, hnone (by simp) _, htid' (by simp) _⟩,
      .inl rfl, by simp⟩
  · -- finish
    split at h
    · rename_i hf
      cases h
      refine keep (by simp) (by simp) _ _ ?_ (by simp)
      rw [hf]
      exact hwinds
    · rename_i hf
      cases h
      refine ⟨⟨by simp, fun _ => rfl, fun _ => ⟨i, hrd.grow⟩,
          fun hd => absurd (hL.done hd).1 hf, fun hj => ?_⟩,
        ⟨⟨rfl, hwinds⟩, fun _ => .inl rfl, htid' (by simp) _⟩, .inl rfl, by simp⟩
      exact mem_grow (hL.returned (mem_of_append hj (by simp)))
  · -- close
    cases h
    obtain ⟨hf, hw⟩ := hwinds
    have hout := outside_close sh
    have hstopped : sh.close.1.state = .stopped := (close_same sh).1.trans (hL.finished hf)
    refine ⟨⟨fun hrun => ?_, fun _ => hstopped, fun _ => ⟨i, hrd.grow⟩,
      fun _ => ⟨hout.finished.trans hf, close_conn sh⟩, fun hj => ?_⟩,
      ⟨?_, fun _ => .inr (close_conn sh), ?_⟩, .inr (close_conn sh), returned_close sh⟩
    · rw [hstopped] at hrun; cases hrun
    · exact mem_grow (hL.returned (mem_of_append hj (returned_close sh)))
    · rw [hout.finished]
      exact hw
    · rw [(close_same sh).2.1]
      exact htid' (by simp) _
  · -- mark
    split at h
    · cases h
      exact ⟨hL.same rfl rfl rfl rfl (by simp), ⟨hwinds, hnone (by simp) _, htid' (by simp) _⟩,
        .inl rfl, by simp⟩
    · cases h
  · -- signalDone
    split at h
    · cases h
      obtain ⟨hf, hw⟩ := hwinds
      have hconn : sh.conn = none := (hclosed hf).resolve_left (by simp)
      refine ⟨⟨hL.running, hL.finished, fun _ => ⟨i, hrd.grow⟩, fun _ => ⟨hf, hconn⟩, fun hj => ?_⟩,
        ⟨hw, hnone (by simp) _, htid' (by simp) _⟩, .inl rfl, by simp⟩
      exact mem_grow (hL.returned (mem_of_append hj (by simp)))
    · cases h
  · cases h

end

/-! ## Every step -/

/-- A call that is not the watchdog's does not become it. -/
theorem callStep_watchdog {cfg : Config} {i : ℕ} {sh : Shared} {pc : CallPc} {ch : Choice}
    {r : CallResult} (h : callStep cfg i sh pc ch = some r) {q : WaitPc}
    (hq : r.call = some (.wait .watchdog q)) : ∃ q', pc = .wait .watchdog q' := by
  have after : ∀ w : Waiter, w.after.1 ≠ some (.wait .watchdog q) := by
    intro w
    cases w with
    | watchdog => exact nofun
    | stop dtor stores => cases stores <;> cases dtor <;> exact nofun
  unfold callStep startStep writeStep stopStep waitStep waitReturn at h
  repeat' split at h
  all_goals cases h
  all_goals first
    | exact ⟨_, rfl⟩
    | exact absurd hq (after _)
    | cases hq; exact ⟨_, rfl⟩
    | cases hq
    | (unfold afterStop at hq; split at hq <;> cases hq)

/-- The reader thread enters the recognizer from inside a callback. -/
theorem mayEnter_inside {t : Thread} {ops : List ReaderOp} (hm : t.mayEnter)
    (hops : t.reader = some ops) : ∃ cb rest, ops = .inside cb :: rest := by
  unfold Thread.mayEnter at hm
  rw [hops] at hm
  split at hm
  · rename_i heq
    cases heq
  · rename_i cb rest heq
    exact ⟨cb, rest, Option.some.inj heq⟩
  · cases hm

theorem reentrant_same {i : ℕ} {tr : List Event} {sh sh' : Shared} {pc : CallPc}
    (hs : sh'.state = sh.state) (hc : sh'.conn = sh.conn) (h : Reentrant i tr sh pc) :
    Reentrant i tr sh' pc := by
  unfold Reentrant at h ⊢
  rw [hs, hc]
  exact h

theorem lives_spawned {cfg : Config} {i j : ℕ} {tr : List Event} {sh : Shared} {pc : CallPc}
    {ch : Choice} {r : CallResult} {t : Thread} (hL : Lives tr sh) (hown : ownsCall i tr sh pc)
    (h : callStep cfg i sh pc ch = some r) (hs : r.spawned = some (j, t)) :
    lives j (tr ++ r.events.map (i, ·)) r.sh t := by
  have hout := callStep_outside h
  rcases callStep_spawned h hs with ⟨rfl, rfl⟩ | ⟨⟨dtor, rfl⟩, rfl⟩
  · refine ⟨?_, by simp, fun _ _ _ hpc => nomatch hpc⟩
    rintro _ ⟨⟩
    refine ⟨trivial, fun hf => ?_, .inl rfl⟩
    obtain ⟨k, m, hm⟩ := hL.reader (hout.finished ▸ hf)
    exact absurd hm (hown.2 m k)
  · refine ⟨by simp, fun _ _ => ⟨i, ?_⟩, fun _ _ hops => nomatch hops⟩
    cases ch with
    | spawn tid =>
      cases h
      exact List.mem_append_right tr (List.mem_singleton.2 rfl)
    | _ => cases h

/-- **The threads of a session keep what its state says.** -/
theorem living (cfg : Config) :
    RelyGuarantee (session cfg) (fun tr sh => (Lifecycle tr sh ∧ Stops tr sh) ∧ Lives tr sh)
      (fun i tr sh t => (Owns i tr sh t ∧ awaits i tr sh t) ∧ lives i tr sh t)
      (fun i tr sh es sh' => (Leaves i tr sh es sh' ∧ Holds i tr sh sh') ∧
        Spares i tr sh es sh') := by
  refine (stopping cfg).extend ?_ ?_
  · rintro i tr sh t ch o ⟨hI, -⟩ ⟨hown, ha⟩ - hL hl ho
    rcases threadStep_cases ho with ⟨d, rfl⟩ | ⟨pc, r, hpc, hr, rfl⟩ | ⟨entry, hcall, hm, rfl⟩ |
      ⟨op, rest, r, hcall, hops, hr, rfl⟩
    · refine ⟨?_, ?_, ⟨.inl, fun _ => .inl rfl, fun hm => absurd hm List.not_mem_nil, .inl rfl,
        .inl rfl⟩, by simp⟩
      · have hsame : Lives (tr ++ [].map (i, ·)) { sh with now := sh.now + d } :=
          hL.same rfl rfl rfl rfl List.not_mem_nil
        exact hsame
      · rw [List.append_nil]
        refine ⟨fun ops hops => ?_, hl.watchdog, fun ops pc hops hpc => ?_⟩
        · obtain ⟨hw, hc, ht⟩ := hl.reader ops hops
          exact ⟨hw, hc, ht⟩
        · obtain ⟨hin, hre⟩ := hl.inside ops pc hops hpc
          exact ⟨hin, reentrant_same rfl rfl hre⟩
    · have hk := callStep_lives hI hL (hown.call pc hpc) (ha pc hpc)
        (fun q hq => hl.watchdog q (hq ▸ hpc)) hr
      refine ⟨hk.inv, ⟨fun ops hops => ?_, fun q hq => ?_, fun ops q hops hq => ?_⟩, hk.spares,
        fun j t' hs => lives_spawned hL (hown.call pc hpc) hr hs⟩
      · obtain ⟨hw, hc, ht⟩ := hl.reader ops hops
        have hf := (callStep_outside hr).finished
        refine ⟨hf ▸ hw, fun hfin => (hc (hf ▸ hfin)).imp id fun hnone => ?_, hk.tid ▸ ht⟩
        have hran : Ran tr := hI.ran.2 (by rw [hL.finished (hf ▸ hfin)]; exact ⟨by simp, by simp⟩)
        rcases hk.spares.conn hran with heq | ⟨hnone', -⟩
        · exact heq.trans hnone
        · exact hnone'
      · obtain ⟨q', rfl⟩ := callStep_watchdog hr hq
        exact (hl.watchdog q' hpc).grow
      · obtain ⟨⟨cb, rest, rfl⟩, hre⟩ := hl.inside ops pc hops hpc
        have htid := (hl.reader _ hops).tid.resolve_left (by simp)
        exact ⟨⟨cb, rest, rfl⟩, callStep_reentrant hI hL htid hre hr q hq⟩
    · refine ⟨?_, ?_, ⟨.inl, fun _ => .inl rfl, fun hm => absurd hm List.not_mem_nil, .inl rfl,
        .inl rfl⟩, by simp⟩
      · rw [List.append_nil]
        exact hL
      · rw [List.append_nil]
        refine ⟨hl.reader, fun q hq => ?_, fun ops q hops hq => ?_⟩
        · cases entry <;> cases hq
        · refine ⟨mayEnter_inside hm hops, ?_⟩
          cases entry <;> cases hq <;> trivial
    · have hrd : ReaderThread i tr := hown.reader (by rw [hops]; simp)
      have hk := readerStep_lives hL hrd (hl.reader _ hops) hr
      refine ⟨hk.inv, ⟨?_, fun q hq => ?_, fun _ q _ hq => ?_⟩, ⟨fun _ => .inr (.inr hrd), ?_, ?_,
        .inr hrd, .inr hrd⟩, by simp⟩
      · rintro _ ⟨⟩
        exact hk.reader
      · rw [hcall] at hq; cases hq
      · rw [hcall] at hq; cases hq
      · exact fun _ => hk.conn.imp id fun hn => ⟨hn, .inr (.inl hrd)⟩
      · exact fun hm => absurd (mem_tagged.1 hm).2 hk.quiet
  · rintro i j tr sh es sh' t hne ⟨hI, -⟩ ⟨hown, -⟩ - - hl hg
    exact hl.stable hne hI hown hg

theorem lives_initial (voiceId : Bytes) : Lives [] (initial voiceId).shared where
  running := nofun
  finished := nofun
  reader := nofun
  done := nofun
  returned h := absurd h List.not_mem_nil

/-! ## The mutex of the senders -/

/-- The call holds `write_mu`. -/
def CallPc.writing : CallPc → Bool
  | .write (.recheck _ _) | .write (.send _ _) | .write .sent => true
  | .stop _ (.check _) | .stop _ (.send _) | .stop _ .sent => true
  | _ => false

/-- A call leaves the mutex, takes it or releases it. -/
theorem callStep_writing {cfg : Config} {i : ℕ} {sh : Shared} {pc : CallPc} {ch : Choice}
    {r : CallResult} (h : callStep cfg i sh pc ch = some r) :
    (r.sh.writeMu = sh.writeMu ∧
      (pc.writing → ∃ pc', r.call = some pc' ∧ pc'.writing)) ∨
    (r.sh.writeMu = some i ∧ ∃ pc', r.call = some pc' ∧ pc'.writing) ∨ r.sh.writeMu = none := by
  unfold callStep startStep writeStep stopStep waitStep waitReturn at h
  repeat' split at h
  all_goals cases h
  all_goals first
    | exact .inr (.inr rfl)
    | exact .inr (.inl ⟨rfl, _, rfl, rfl⟩)
    | exact .inl ⟨rfl, fun _ => ⟨_, rfl, rfl⟩⟩
    | exact .inl ⟨rfl, fun hw => by cases hw⟩
    | exact .inl ⟨(close_same sh).2.2.1, fun hw => by cases hw⟩

def Thread.writing (t : Thread) : Prop := ∃ pc, t.call = some pc ∧ pc.writing

theorem threadStep_writing {cfg : Config} {i : ℕ} {sh : Shared} {t : Thread} {ch : Choice}
    {o : Outcome Shared Thread Event} (hw : sh.writeMu = some i → t.writing)
    (h : threadStep cfg i sh t ch = some o) :
    (o.shared.writeMu = some i → o.next.writing) ∧
      ∀ j ≠ i, o.shared.writeMu = some j → sh.writeMu = some j := by
  rcases threadStep_cases h with ⟨d, rfl⟩ | ⟨pc, r, hpc, hr, rfl⟩ | ⟨entry, hcall, -, rfl⟩ |
    ⟨op, rest, r, hcall, -, hr, rfl⟩
  · exact ⟨hw, fun _ _ => id⟩
  · rcases callStep_writing hr with ⟨heq, hnext⟩ | ⟨hmine, hnext⟩ | hfree
    · refine ⟨fun h => ?_, fun _ _ h => heq ▸ h⟩
      obtain ⟨pc', hpc', hw'⟩ := hw (heq ▸ h)
      cases hpc.symm.trans hpc'
      exact hnext hw'
    · exact ⟨fun _ => hnext, fun j hne h => absurd (Option.some.inj (h.symm.trans hmine)) hne⟩
    · refine ⟨fun h => ?_, fun _ _ h => ?_⟩
      · cases hfree.symm.trans h
      · cases hfree.symm.trans h
  · refine ⟨fun h => ?_, fun _ _ => id⟩
    obtain ⟨pc', hpc', -⟩ := hw h
    cases hcall.symm.trans hpc'
  · have heq : r.sh.writeMu = sh.writeMu := by
      unfold readerStep at hr
      repeat' split at hr
      all_goals cases hr
      all_goals first
        | rfl
        | exact (close_same sh).2.2.1
    refine ⟨fun h => ?_, fun _ _ h => heq ▸ h⟩
    obtain ⟨pc', hpc', -⟩ := hw (heq ▸ h)
    cases hcall.symm.trans hpc'

/-- **`write_mu` is held only between taking and releasing it.** -/
theorem writing (cfg : Config) (voiceId : Bytes) {acts : List (ℕ × Choice)}
    {p : Pool Shared Thread} {tr : List Event}
    (h : (session cfg).pool.run (initial voiceId) acts = some (p, tr)) :
    ∀ i, p.shared.writeMu = some i → (p.threads i).writing := by
  refine Lts.run_invariant (I := fun _ p => ∀ i, p.shared.writeMu = some i → (p.threads i).writing)
    ?_ (fun _ h => nomatch h) h
  rintro - p ⟨i, ch⟩ p' es hw hs j hj
  obtain ⟨o, ho, hsh, -, hthreads⟩ := Threads.poolStep_cases hs
  obtain ⟨hown, hother⟩ := threadStep_writing (hw i) ho
  rw [hsh] at hj
  rcases hthreads j with ⟨rfl, heq⟩ | ⟨hne, l, -, hidle, -⟩ | ⟨hne, heq⟩
  · rw [heq]
    exact hown hj
  · -- a thread that is being started is in no call
    obtain ⟨pc, hpc, -⟩ := hw j (hother j hne hj)
    have hempty : p.threads j = {} := of_decide_eq_true hidle
    rw [hempty] at hpc
    cases hpc
  · rw [heq]
    exact hw j (hother j hne hj)

/-! ## Runs -/

section

variable {cfg : Config} {voiceId : Bytes} {acts : List (ℕ × Choice)} {p : Pool Shared Thread}
  {tr : List Event}

/-- What holds after every run. -/
theorem lives_run (h : (session cfg).pool.run (initial voiceId) acts = some (p, tr)) :
    Lifecycle tr p.shared ∧ Lives tr p.shared ∧
      ∀ i, Owns i tr p.shared (p.threads i) ∧ lives i tr p.shared (p.threads i) := by
  obtain ⟨⟨⟨hI, -⟩, hL⟩, hthreads⟩ := (living cfg).run
    ⟨⟨lifecycle_initial voiceId, stops_initial voiceId⟩, lives_initial voiceId⟩
    (fun i => ⟨⟨owns_initial voiceId i, nofun⟩, nofun, nofun, nofun⟩) h
  exact ⟨hI, hL, fun i => ⟨(hthreads i).1.1, (hthreads i).2⟩⟩

theorem run_moves (h : (session cfg).pool.run (initial voiceId) acts = some (p, tr))
    {a : ℕ × Choice} {p' : Pool Shared Thread} {es : List Event}
    (hs : (session cfg).pool.step p a = some (p', es)) :
    MovesTo p.shared.state p'.shared.state :=
  step_moves (lives_run h).1 (fun i => ((lives_run h).2.2 i).1) hs

theorem stopped_stays (h : (session cfg).pool.run (initial voiceId) acts = some (p, tr))
    (hstopped : p.shared.state = .stopped) {acts' : List (ℕ × Choice)}
    {p' : Pool Shared Thread} {tr' : List Event}
    (h' : (session cfg).pool.run p acts' = some (p', tr')) : p'.shared.state = .stopped := by
  have hinv := Lts.run_invariant (T := (session cfg).pool)
    (I := fun tr' q => (∃ as, (session cfg).pool.run (initial voiceId) as = some (q, tr ++ tr')) ∧
      q.shared.state = .stopped) ?_ ⟨⟨acts, by rw [List.append_nil]; exact h⟩, hstopped⟩ h'
  · exact hinv.2
  · rintro tr' q a q' es ⟨⟨as, has⟩, hq⟩ hs
    refine ⟨⟨as ++ [a], ?_⟩, ?_⟩
    · rw [← List.append_assoc]
      exact Lts.run_snoc has hs
    · rcases run_moves has hs with heq | hmove
      · exact heq.trans hq
      · rw [hq] at hmove
        cases hmove

end

/-- **The life of a session**, after every run and for every next step: the state moves by one of
    `Moves` or is stored again; a running session has a connection; when the reader thread is done
    the session is stopped and without a connection; and whatever is run from there, a stopped
    session stays stopped and one that ran is never idle or starting again. -/
theorem lifecycle (cfg : Config) (voiceId : Bytes) {acts : List (ℕ × Choice)}
    {p : Pool Shared Thread} {tr : List Event}
    (h : (session cfg).pool.run (initial voiceId) acts = some (p, tr)) :
    (∀ a p' es, (session cfg).pool.step p a = some (p', es) →
        MovesTo p.shared.state p'.shared.state) ∧
      (p.shared.state = .running → p.shared.conn ≠ none) ∧
      (p.shared.done → p.shared.state = .stopped ∧ p.shared.conn = none) ∧
      ∀ acts' p' tr', (session cfg).pool.run p acts' = some (p', tr') →
        (p.shared.state = .stopped → p'.shared.state = .stopped) ∧
          (Ran tr → p'.shared.state ≠ .idle ∧ p'.shared.state ≠ .starting) := by
  obtain ⟨-, hL, -⟩ := lives_run h
  refine ⟨fun _ _ _ => run_moves h, hL.running, fun hd => ?_, fun acts' p' tr' h' => ⟨?_, ?_⟩⟩
  · obtain ⟨hf, hconn⟩ := hL.done hd
    exact ⟨hL.finished hf, hconn⟩
  · exact fun hs => stopped_stays h hs h'
  · exact fun hran => (lives_run (Lts.run_append h h')).1.ran.1 hran.grow

/-- A session that has ended, and a `Start` after it. -/
theorem lifecycle_ended : ∃ p tr p' tr',
    (session sampleConfig).pool.run (initial []) sampleStop = some (p, tr) ∧ p.shared.done ∧
      p.shared.conn = none ∧ (session sampleConfig).pool.run p [(0, .enter .start), (0, .go)] =
        some (p', tr') ∧ p'.shared.state = .stopped := by
  have run : ∃ p tr p' tr',
      (session sampleConfig).pool.run (initial []) sampleStop = some (p, tr) ∧ p.shared.done ∧
        (session sampleConfig).pool.run p [(0, .enter .start), (0, .go)] = some (p', tr') :=
    ⟨_, _, _, _, rfl, rfl, rfl⟩
  obtain ⟨p, tr, p', tr', hrun, hdone, hrun'⟩ := run
  obtain ⟨-, -, hend, hlater⟩ := lifecycle sampleConfig [] hrun
  obtain ⟨hs, hconn⟩ := hend hdone
  exact ⟨p, tr, p', tr', hrun, hdone, hconn, hrun', (hlater _ p' tr' hrun').1 hs⟩

/-! ## A Stop from a callback -/

/-- A step of a thread in a call is a step of the call, or of the clock. -/
theorem step_in_call {cfg : Config} {p p' : Pool Shared Thread} {i : ℕ} {ch : Choice}
    {es : List Event} {pc : CallPc} (hpc : (p.threads i).call = some pc)
    (hs : (session cfg).pool.step p (i, ch) = some (p', es)) :
    (p'.threads i = p.threads i ∧ es = []) ∨
      ∃ r, callStep cfg i p.shared pc ch = some r ∧ (p'.threads i).call = r.call ∧
        es = r.events.map (i, ·) := by
  obtain ⟨o, ho, -, hes, hthreads⟩ := Threads.poolStep_cases hs
  have hnext : p'.threads i = o.next := by
    rcases hthreads i with ⟨-, h⟩ | ⟨hne, -⟩ | ⟨hne, -⟩
    · exact h
    · exact absurd rfl hne
    · exact absurd rfl hne
  rw [hnext, hes]
  rcases threadStep_cases ho with ⟨d, rfl⟩ | ⟨pc', r, hpc', hr, rfl⟩ | ⟨entry, hcall, -, rfl⟩ |
    ⟨op, rest, r, hcall, -, -, rfl⟩
  · exact .inl ⟨rfl, rfl⟩
  · cases hpc.symm.trans hpc'
    exact .inr ⟨r, hr, rfl, rfl⟩
  · cases hpc.symm.trans hcall
  · cases hpc.symm.trans hcall

/-- **A `Stop` from a callback does not block on its own thread**, after every run: the reader
    thread never waits for itself; its calls come from inside a callback; a `Stop` from a terminal
    callback throws because the recognizer is not running; any other one throws so where its
    compare-and-swap fails, and otherwise returns, or throws a write error, after the end signal.
    Each of its steps but the last leads to a lower rank, and only a thread that sends can keep it
    from taking one. -/
theorem reentrant_stop (cfg : Config) (voiceId : Bytes) {acts : List (ℕ × Choice)}
    {p : Pool Shared Thread} {tr : List Event} {i : ℕ} {ops : List ReaderOp} {pc : CallPc}
    (h : (session cfg).pool.run (initial voiceId) acts = some (p, tr))
    (hops : (p.threads i).reader = some ops) (hpc : (p.threads i).call = some pc) :
    (∀ w q, pc ≠ .wait w q) ∧
      ∃ cb rest, ops = .inside cb :: rest ∧ ∀ dtor q, pc = .stop dtor q →
        (cb.terminal → q = .cas ∧ p.shared.state = .stopped) ∧
        (∀ ch p' es, (session cfg).pool.step p (i, ch) = some (p', es) →
          (p'.threads i = p.threads i ∧ es = []) ∨
            ∃ ks, es = ks.map (i, ·) ∧
              StopsOn i tr p.shared dtor q (p'.threads i).call ks) ∧
        ((∃ ch r, stopStep i p.shared dtor q ch = some r) ∨
          ∃ c j, q = .lock c ∧ p.shared.writeMu = some j ∧ j ≠ i ∧ (p.threads j).writing) := by
  obtain ⟨hI, hL, hthreads⟩ := lives_run h
  have hlives := (hthreads i).2
  obtain ⟨⟨cb, rest, rfl⟩, hre⟩ := hlives.inside ops pc hops hpc
  refine ⟨?_, cb, rest, rfl, ?_⟩
  · rintro w q rfl
    exact hre
  rintro dtor q rfl
  refine ⟨fun ht => ?_, fun ch p' es hs => ?_, ?_⟩
  · have hstopped : p.shared.state = .stopped := by
      obtain ⟨-, htells⟩ :=
        (told cfg).run ⟨lifecycle_initial voiceId, session_initial cfg voiceId⟩
          (fun i => ⟨owns_initial voiceId i, nofun⟩) h
      exact hL.finished (((htells i).2 _ hops).ready.1.1 ht).1
    have busy : p.shared.state ≠ .stopping := by
      rw [hstopped]
      simp
    refine ⟨?_, hstopped⟩
    cases q with
    | cas => rfl
    | fetch => exact absurd hre.1 busy
    | lock c => exact absurd hre busy
    | check c => exact absurd hre busy
    | send c => exact absurd hre busy
    | finish => exact absurd hre id
    | _ => exact absurd hre.1 busy
  · rcases step_in_call hpc hs with hstay | ⟨r, hr, hcall, hes⟩
    · exact .inl hstay
    · have htid := (hlives.reader _ hops).tid.resolve_left (by simp)
      rw [hcall]
      exact .inr ⟨r.events, hes, (stopStep_reentrant hI hL htid hre hr).2⟩
  · refine stopStep_enabled.imp id ?_
    rintro ⟨c, j, rfl, hm⟩
    have hj := writing cfg voiceId h j hm
    refine ⟨c, j, rfl, hm, ?_, hj⟩
    rintro rfl
    obtain ⟨pc', hpc', hw⟩ := hj
    cases hpc.symm.trans hpc'
    cases hw

/-- A `Stop` from `OnRecognitionStart` that has won. -/
def sampleReentrant : List (ℕ × Choice) :=
  sampleStart ++ [(1, .go), (1, .go), (1, .enter .stop), (1, .go)]

theorem reentrant_stop_from_start : ∃ p tr,
    (session sampleConfig).pool.run (initial []) sampleReentrant = some (p, tr) ∧
      (p.threads 1).call = some (.stop false .fetch) ∧
      ∃ ch r, stopStep 1 p.shared false .fetch ch = some r := by
  have run : ∃ p tr ops, (session sampleConfig).pool.run (initial []) sampleReentrant = some (p, tr) ∧
      (p.threads 1).reader = some ops ∧ (p.threads 1).call = some (.stop false .fetch) :=
    ⟨_, _, _, rfl, rfl, rfl⟩
  obtain ⟨p, tr, ops, hrun, hops, hpc⟩ := run
  obtain ⟨-, cb, rest, -, hstop⟩ := reentrant_stop sampleConfig [] hrun hops hpc
  exact ⟨p, tr, hrun, hpc, (hstop false .fetch rfl).2.2.resolve_right fun ⟨_, _, hq, _⟩ => nomatch hq⟩

/-- A `Stop` from `OnRecognitionStart` while the `Stop` of another thread has won: it throws, and
    has sent nothing. -/
theorem reentrant_stop_loses : ∃ acts p tr cb rest,
    (session sampleConfig).pool.run (initial []) acts = some (p, tr) ∧
      (p.threads 1).reader = some (.inside cb :: rest) ∧ cb.terminal = false ∧
      (1, .threw .stop stopNotRunning) ∈ tr ∧ ∀ c, (1, .sent c .endSignal) ∉ tr := by
  have run : ∃ p tr cb rest, (session sampleConfig).pool.run (initial []) (sampleStart ++
      [(1, .go), (1, .go), (0, .enter .stop), (0, .go), (1, .enter .stop), (1, .go)]) =
        some (p, tr) ∧ (p.threads 1).reader = some (.inside cb :: rest) ∧ cb.terminal = false ∧
      (1, .threw .stop stopNotRunning) ∈ tr ∧ tr.all fun e => match e.2 with
        | .sent _ .endSignal => false
        | _ => true := ⟨_, _, _, _, rfl, rfl, rfl, by decide, by decide⟩
  obtain ⟨p, tr, cb, rest, hrun, hops, ht, hthrew, hall⟩ := run
  exact ⟨_, p, tr, cb, rest, hrun, hops, ht, hthrew, fun c hc => nomatch List.all_eq_true.1 hall _ hc⟩

end TrtcAsr.Speech
