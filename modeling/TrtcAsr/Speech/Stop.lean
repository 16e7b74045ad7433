/-
  What a `Stop` that returns has waited for, for every order of the steps of the threads and
  any number of spurious wake-ups.

  * `Lapsed`: the wait of a thread found the deadline passed while no terminal response had
    been recorded; `Expired`: and the connection of the session has been closed.
  * `Returns`: a `Stop` returns on the reader thread, after `SignalDone`, or when its wait
    has expired.
  * `stop_waits`: what follows for a `Stop` on another thread.
-/
import TrtcAsr.Speech.Callbacks

namespace TrtcAsr.Speech

/-! ## Histories -/

def Terminal (tr : List Event) : Prop := ∃ j, (j, EventKind.terminal) ∈ tr

def Closed (c : ℕ) (tr : List Event) : Prop := ∃ j, (j, EventKind.closed c) ∈ tr

/-- The wait of thread `i` was over at a deadline before which nothing terminal was recorded;
    the session was running on connection `c`. -/
def Lapsed (i : ℕ) (tr : List Event) (c : ℕ) : Prop :=
  ∃ pre post deadline now, tr = pre ++ (i, .expired deadline now) :: post ∧ deadline ≤ now ∧
    (i, .waits deadline) ∈ pre ∧ ¬ Terminal pre ∧ Running c pre

def Expired (i : ℕ) (tr : List Event) : Prop := ∃ c, Lapsed i tr c ∧ Closed c tr

/-- What a `Stop` that returns has behind it. -/
def Waited (i : ℕ) (tr : List Event) : Prop :=
  (∃ j, (j, EventKind.spawned i) ∈ tr) ∨ Done tr ∨ Expired i tr

def Returns (pre : List Event) : Event → Prop
  | (i, .returned .stop) => Waited i pre
  | _ => True

section

variable {i c : ℕ} {tr es : List Event}

theorem Done.grow : Done tr → Done (tr ++ es) := fun ⟨j, h⟩ => ⟨j, mem_grow h⟩

theorem Closed.grow : Closed c tr → Closed c (tr ++ es) := fun ⟨j, h⟩ => ⟨j, mem_grow h⟩

theorem Lapsed.grow : Lapsed i tr c → Lapsed i (tr ++ es) c := by
  rintro ⟨pre, post, deadline, now, rfl, h⟩
  exact ⟨pre, post ++ es, deadline, now, by simp, h⟩

theorem Expired.grow : Expired i tr → Expired i (tr ++ es) :=
  fun ⟨c, hl, hc⟩ => ⟨c, hl.grow, hc.grow⟩

theorem Waited.grow : Waited i tr → Waited i (tr ++ es)
  | .inl ⟨j, h⟩ => .inl ⟨j, mem_grow h⟩
  | .inr (.inl h) => .inr (.inl h.grow)
  | .inr (.inr h) => .inr (.inr h.grow)

end

/-! ## The invariant -/

structure Stops (tr : List Event) (sh : Shared) : Prop where
  returns : Causal Returns tr
  done : sh.done = true → Done tr
  terminal : Terminal tr → sh.terminalReceived = true
  conn : ∀ {c}, Running c tr → sh.conn = some c ∨ Closed c tr

def awaitsStart (sh : Shared) : StartPc → Prop
  | .ack c _ | .run c => sh.conn = some c
  | _ => True

def awaitsStop (i : ℕ) (tr : List Event) : StopPc → Prop
  | .watchdog => ∃ j, (j, EventKind.spawned i) ∈ tr
  | .finish => Waited i tr
  | _ => True

def awaitsWait (i : ℕ) (tr : List Event) (sh : Shared) : WaitPc → Prop
  | .test deadline | .timed deadline => (i, .waits deadline) ∈ tr
  | .timedOut deadline => (i, .waits deadline) ∈ tr ∧ deadline ≤ sh.now
  | .close => ∃ c, Lapsed i tr c
  | .grace | .graceEnd => Expired i tr
  | _ => True

def awaitsCall (i : ℕ) (tr : List Event) (sh : Shared) : CallPc → Prop
  | .start pc => awaitsStart sh pc
  | .stop _ pc => awaitsStop i tr pc
  | .wait _ pc => Ran tr ∧ awaitsWait i tr sh pc
  | _ => True

/-- What a thread that waits knows at the point where it is. -/
def awaits (i : ℕ) (tr : List Event) (sh : Shared) (t : Thread) : Prop :=
  ∀ pc, t.call = some pc → awaitsCall i tr sh pc

/-- What a step of thread `i` does to the connection and the clock. -/
structure Holds (i : ℕ) (tr : List Event) (sh sh' : Shared) : Prop where
  conn : sh'.conn = sh.conn ∨ Starting i tr sh ∨ Ran tr
  now : sh.now ≤ sh'.now

theorem awaits.stable {i j : ℕ} {tr es : List Event} {sh sh' : Shared} {t : Thread} (hne : j ≠ i)
    (hI : Lifecycle tr sh) (hown : Owns j tr sh t) (h : awaits j tr sh t)
    (hg : Holds i tr sh sh') : awaits j (tr ++ es) sh' t := by
  intro pc hpc
  have hc := h pc hpc
  have ho := hown.call pc hpc
  cases pc with
  | start pc =>
    have same : Starting j tr sh → sh'.conn = sh.conn := by
      intro hs
      rcases hg.conn with heq | hi | hran
      · exact heq
      · exact absurd (Option.some.inj (hs.2.symm.trans hi.2)) hne
      · exact absurd hran (not_ran_of_starting hI hs.1)
    cases pc with
    | ack c deadline => exact (same ho).trans hc
    | run c => exact (same ho).trans hc
    | _ => trivial
  | stop dtor pc =>
    cases pc with
    | watchdog => exact hc.imp fun _ => mem_grow
    | finish => exact Waited.grow hc
    | _ => trivial
  | wait w pc =>
    refine ⟨hc.1.grow, ?_⟩
    cases pc with
    | test deadline => exact mem_grow hc.2
    | timed deadline => exact mem_grow hc.2
    | timedOut deadline => exact ⟨mem_grow hc.2.1, hc.2.2.trans hg.now⟩
    | close => exact hc.2.imp fun _ => Lapsed.grow
    | grace => exact Expired.grow hc.2
    | graceEnd => exact Expired.grow hc.2
    | _ => trivial
  | _ => trivial

/-! ## Steps -/

/-- The events that change the invariant. -/
def EventKind.stops : EventKind → Bool
  | terminal | running _ => true
  | _ => false

section

variable {i : ℕ} {tr : List Event} {sh sh' : Shared} {ks : List EventKind}

theorem Stops.step (hS : Stops tr sh) (hdone : sh'.done = true → sh.done = true ∨ .done ∈ ks)
    (hterm : sh.terminalReceived = true → sh'.terminalReceived = true)
    (hks : ks.all fun k => !k.stops) (hret : .returned .stop ∈ ks → Waited i tr)
    (hconn : ∀ c, Ran tr → sh.conn = some c → sh'.conn = some c ∨ .closed c ∈ ks) :
    Stops (tr ++ ks.map (i, ·)) sh' where
  returns := by
    refine hS.returns.append fun mid e post heq => ?_
    obtain ⟨j, k⟩ := e
    obtain ⟨rfl, hk⟩ := mem_tagged.1 (heq ▸ List.mem_append_right mid (List.mem_cons_self ..))
    cases k with
    | returned call =>
      cases call with
      | stop => exact (hret hk).grow
      | _ => trivial
    | _ => trivial
  done hd := by
    rcases hdone hd with hold | hnew
    · exact (hS.done hold).grow
    · exact ⟨i, List.mem_append_right tr (mem_tagged.2 ⟨rfl, hnew⟩)⟩
  terminal := by
    rintro ⟨j, hj⟩
    refine hterm (hS.terminal ⟨j, mem_of_append hj fun hk => ?_⟩)
    have := List.all_eq_true.1 hks _ hk
    cases this
  conn := by
    rintro c ⟨j, hj⟩
    have hrun : Running c tr := by
      refine ⟨j, mem_of_append hj fun hk => ?_⟩
      have := List.all_eq_true.1 hks _ hk
      cases this
    rcases hS.conn hrun with hc | hc
    · rcases hconn c hrun.ran hc with hc | hc
      · exact .inl hc
      · exact .inr ⟨i, List.mem_append_right tr (mem_tagged.2 ⟨rfl, hc⟩)⟩
    · exact .inr hc.grow

/-- What a step of a call owes to the invariant, to its thread and to the others. -/
structure CallAwaits (i : ℕ) (tr : List Event) (sh : Shared) (r : CallResult) : Prop where
  inv : Stops (tr ++ r.events.map (i, ·)) r.sh
  call : ∀ pc, r.call = some pc → awaitsCall i (tr ++ r.events.map (i, ·)) r.sh pc
  holds : Holds i tr sh r.sh

/-- A step that keeps the connection and returns from no `Stop`. -/
theorem CallAwaits.keep {r : CallResult} (hS : Stops tr sh) (hout : Outside sh r.sh r.events)
    (hconn : r.sh.conn = sh.conn) (hnow : r.sh.now = sh.now)
    (hks : r.events.all fun k => !k.stops) (hret : .returned .stop ∈ r.events → Waited i tr)
    (hc : ∀ pc, r.call = some pc → awaitsCall i (tr ++ r.events.map (i, ·)) r.sh pc) :
    CallAwaits i tr sh r where
  inv := hS.step (fun hd => .inl (hout.done ▸ hd)) (fun ht => hout.terminalReceived ▸ ht) hks hret
    fun _ _ h => .inl (hconn ▸ h)
  call := hc
  holds := ⟨.inl hconn, le_of_eq hnow.symm⟩

theorem close_closes (sh : Shared) : ∀ c, sh.conn = some c → .closed c ∈ sh.close.2 := by
  intro c hc
  unfold Shared.close
  rw [hc]
  exact List.mem_singleton.2 rfl

/-- `Close`. -/
theorem CallAwaits.close (hS : Stops tr sh) (hside : Starting i tr sh ∨ Ran tr)
    {call : Option CallPc}
    (hc : ∀ pc, call = some pc → awaitsCall i (tr ++ sh.close.2.map (i, ·)) sh.close.1 pc) :
    CallAwaits i tr sh { sh := sh.close.1, call, events := sh.close.2 } where
  inv := by
    have hout := outside_close sh
    refine hS.step (fun hd => .inl (hout.done ▸ hd)) (fun ht => hout.terminalReceived ▸ ht) ?_ ?_
      fun c _ hconn => .inr (close_closes sh c hconn)
    · unfold Shared.close
      cases sh.conn with
      | none => rfl
      | some c => rfl
    · unfold Shared.close
      cases sh.conn with
      | none => exact fun h => absurd h List.not_mem_nil
      | some c => exact fun h => by cases List.mem_singleton.1 h
  call := hc
  holds := by
    refine ⟨.inr hside, ?_⟩
    unfold Shared.close
    cases sh.conn with
    | none => exact le_refl _
    | some c => exact le_refl _

/-! ## Start -/

/-- The running state is entered on the connection that was published. -/
theorem run_awaits (hI : Lifecycle tr sh) (hS : Stops tr sh) (hs : Starting i tr sh) {c : ℕ}
    (hc : sh.conn = some c) :
    CallAwaits i tr sh { sh := { sh with state := .running }, call := some (.start .timeout)
                         events := [.running c] } := by
  have hnew : ∀ {d}, Running d (tr ++ [EventKind.running c].map (i, ·)) → d = c := by
    rintro d ⟨j, hm⟩
    rcases List.mem_append.1 hm with hm | hm
    · exact absurd ⟨j, d, hm⟩ (not_ran_of_starting hI hs.1)
    · cases List.mem_singleton.1 (mem_tagged.1 hm).2
      rfl
  refine ⟨⟨hS.returns.snoc trivial, fun hd => (hS.done hd).grow, ?_, ?_⟩, by rintro _ ⟨⟩; trivial,
    ⟨.inl rfl, le_refl _⟩⟩
  · rintro ⟨j, hm⟩
    exact hS.terminal ⟨j, mem_of_append hm (by simp)⟩
  · intro d hd
    rw [hnew hd]
    exact .inl hc

theorem publish_awaits (hI : Lifecycle tr sh) (hS : Stops tr sh) (hs : Starting i tr sh) {c : ℕ}
    {pc : StartPc} (hpc : awaitsStart { sh with conn := some c } pc) :
    CallAwaits i tr sh { sh := { sh with conn := some c }, call := some (.start pc) } := by
  refine ⟨?_, by rintro _ ⟨⟩; exact hpc, ⟨.inr (.inl hs), le_refl _⟩⟩
  refine hS.step .inl id rfl (fun h => absurd h List.not_mem_nil) fun d hran _ => ?_
  exact absurd hran (not_ran_of_starting hI hs.1)

theorem startStep_awaits {cfg : Config} {pc : StartPc} {ch : Choice} {r : CallResult}
    (hI : Lifecycle tr sh) (hS : Stops tr sh) (hown : ownsStart i tr sh pc)
    (hc : awaitsStart sh pc) (hout : Outside sh r.sh r.events)
    (h : startStep cfg sh pc ch = some r) : CallAwaits i tr sh r := by
  unfold startStep at h
  split at h
  · -- cas
    split at h
    · cases h
      exact .keep hS hout rfl rfl rfl (by simp) (by rintro _ ⟨⟩; trivial)
    · cases h
      exact .keep hS hout rfl rfl rfl (by simp) (by simp)
  · -- validate
    cases h
    exact .keep hS hout rfl rfl rfl (by simp) (by rintro _ ⟨⟩; trivial)
  · cases h
    exact .keep hS hout rfl rfl rfl (by simp) (by rintro _ ⟨⟩; trivial)
  · -- connect
    cases h
    exact .keep hS hout rfl rfl rfl (by simp) (by rintro _ ⟨⟩; trivial)
  · cases h
    refine .keep hS hout rfl rfl rfl (by simp) ?_
    rintro _ ⟨⟩
    cases cfg.version with
    | v2 => trivial
    | v3 => trivial
  · -- send
    cases h
    exact .keep hS hout rfl rfl rfl (by simp) (by rintro _ ⟨⟩; trivial)
  · -- sent
    cases h
    exact .keep hS hout rfl rfl rfl (by simp) (by rintro _ ⟨⟩; trivial)
  · cases h
    exact .keep hS hout rfl rfl rfl (by simp) (by rintro _ ⟨⟩; trivial)
  · -- drop
    cases h
    exact .keep hS hout rfl rfl rfl (by simp) (by rintro _ ⟨⟩; trivial)
  · -- publish
    cases h
    refine publish_awaits hI hS hown ?_
    cases cfg.version with
    | v2 => rfl
    | v3 => rfl
  · -- ack
    cases h
    refine .keep hS hout rfl rfl rfl (by simp) ?_
    rintro _ ⟨⟩
    split
    · trivial
    · exact hc
  · cases h
    exact .keep hS hout rfl rfl rfl (by simp) (by rintro _ ⟨⟩; trivial)
  · split at h
    · cases h
      exact .keep hS hout rfl rfl rfl (by simp) (by rintro _ ⟨⟩; trivial)
    split at h
    · cases h
      exact .keep hS hout rfl rfl rfl (by simp) (by rintro _ ⟨⟩; exact hc)
    split at h
    · cases h
      exact .keep hS hout rfl rfl rfl (by simp) (by rintro _ ⟨⟩; trivial)
    · cases h
      exact .keep hS hout rfl rfl rfl (by simp) (by rintro _ ⟨⟩; trivial)
    · cases h
      exact .keep hS hout rfl rfl rfl (by simp) (by rintro _ ⟨⟩; exact hc)
  · -- close
    cases h
    exact .close hS (.inl hown) (by rintro _ ⟨⟩; trivial)
  · -- fail
    cases h
    exact .keep hS hout rfl rfl rfl (by simp) (by simp)
  · -- run
    cases h
    exact run_awaits hI hS hown hc
  · -- timeout
    cases h
    exact .keep hS hout rfl rfl rfl (by simp) (by rintro _ ⟨⟩; trivial)
  · -- spawn
    cases h
    exact .keep hS hout rfl rfl rfl (by simp) (by simp)
  · cases h

/-! ## Stop -/

theorem awaits_afterStop {dtor : Bool} :
    ∀ pc, afterStop dtor = some pc → awaitsCall i tr sh pc := by
  intro pc hpc
  cases dtor with
  | false => cases hpc
  | true => cases hpc; trivial

theorem stopStep_awaits {dtor : Bool} {pc : StopPc} {ch : Choice} {r : CallResult}
    (hI : Lifecycle tr sh) (hS : Stops tr sh) (hown : ownsStop i tr sh pc)
    (hc : awaitsStop i tr pc) (hout : Outside sh r.sh r.events)
    (h : stopStep i sh dtor pc ch = some r) : CallAwaits i tr sh r := by
  unfold stopStep at h
  split at h
  · -- cas
    split at h
    · cases h
      exact .keep hS hout rfl rfl rfl (by simp) (by rintro _ ⟨⟩; trivial)
    · cases h
      exact .keep hS hout rfl rfl rfl (by simp) awaits_afterStop
  · -- fetch
    split at h
    · cases h
      exact .keep hS hout rfl rfl rfl (by simp) awaits_afterStop
    · cases h
      exact .keep hS hout rfl rfl rfl (by simp) (by rintro _ ⟨⟩; trivial)
  · -- lock
    split at h
    · cases h
      exact .keep hS hout rfl rfl rfl (by simp) (by rintro _ ⟨⟩; trivial)
    · cases h
  · -- check
    split at h
    · cases h
      exact .keep hS hout rfl rfl rfl (by simp)
        (by rintro _ ⟨⟩; exact ⟨(ran_of_stopping hI hown.1).grow, trivial⟩)
    · cases h
      exact .keep hS hout rfl rfl rfl (by simp) (by rintro _ ⟨⟩; trivial)
  · -- send
    cases h
    exact .keep hS hout rfl rfl rfl (by simp) (by rintro _ ⟨⟩; trivial)
  · -- sent
    cases h
    exact .keep hS hout rfl rfl rfl (by simp) (by rintro _ ⟨⟩; trivial)
  · cases h
    exact .keep hS hout rfl rfl rfl (by simp) (by rintro _ ⟨⟩; trivial)
  · -- failed
    cases h
    refine .keep hS hout rfl rfl rfl (by simp) ?_
    rintro _ ⟨⟩
    split
    · exact ⟨(ran_of_stopping hI hown).grow, trivial⟩
    · trivial
  · -- close
    cases h
    exact .close hS (.inr (ran_of_stopping hI hown)) (by rintro _ ⟨⟩; trivial)
  · -- store
    cases h
    exact .keep hS hout rfl rfl rfl (by simp) awaits_afterStop
  · -- self
    cases h
    refine .keep hS hout rfl rfl rfl (by simp) ?_
    rintro _ ⟨⟩
    split
    · rename_i htid
      exact (hI.tid htid).imp fun _ => mem_grow
    · exact ⟨(ran_of_stopping hI hown).grow, trivial⟩
  · -- watchdog
    cases h
    exact .keep hS hout rfl rfl rfl (fun _ => .inl hc) awaits_afterStop
  · -- finish
    cases h
    exact .keep hS hout rfl rfl rfl (fun _ => hc) awaits_afterStop
  · cases h

/-! ## The wait -/

theorem waitReturn_awaits {w : Waiter} (hS : Stops tr sh)
    (hout : Outside sh (waitReturn sh w).sh (waitReturn sh w).events) (hw : Waited i tr) :
    CallAwaits i tr sh (waitReturn sh w) := by
  refine .keep hS hout rfl rfl ?_ (fun _ => hw) fun pc hpc => ?_
  · cases w with
    | watchdog => rfl
    | stop dtor stores => cases stores <;> rfl
  · cases w with
    | watchdog => cases hpc
    | stop dtor stores =>
      cases stores with
      | false => exact awaits_afterStop pc hpc
      | true => cases hpc; exact hw.grow

theorem waitStep_awaits {w : Waiter} {pc : WaitPc} {ch : Choice} {r : CallResult}
    (hS : Stops tr sh) (hran : Ran tr) (hc : awaitsWait i tr sh pc)
    (hout : Outside sh r.sh r.events) (h : waitStep i sh w pc ch = some r) :
    CallAwaits i tr sh r := by
  have hran' : ∀ es, Ran (tr ++ es) := fun _ => hran.grow
  have hdone : sh.done → Waited i tr := fun hd => .inr (.inl (hS.done hd))
  unfold waitStep at h
  split at h
  · -- enter
    split at h
    · cases h
      refine .keep hS hout rfl rfl rfl (by simp) ?_
      rintro _ ⟨⟩
      exact ⟨hran' _, List.mem_append_right tr (List.mem_singleton.2 rfl)⟩
    · cases h
  · -- test
    split at h
    · rename_i hd
      cases h
      exact waitReturn_awaits hS hout (hdone hd)
    · cases h
      refine .keep hS hout rfl rfl rfl (by simp) ?_
      rintro _ ⟨⟩
      cases sh.terminalReceived with
      | true => exact ⟨hran' _, trivial⟩
      | false => exact ⟨hran' _, mem_grow hc⟩
  · -- unbounded
    split at h
    · split at h
      · rename_i hd
        cases h
        exact waitReturn_awaits hS hout (hdone hd)
      · cases h
        exact .keep hS hout rfl rfl rfl (by simp) (by rintro _ ⟨⟩; exact ⟨hran' _, trivial⟩)
    · cases h
  · -- timed
    split at h
    · split at h
      · split at h
        · rename_i hle
          cases h
          exact .keep hS hout rfl rfl rfl (by simp)
            (by rintro _ ⟨⟩; exact ⟨hran' _, mem_grow hc, hle⟩)
        · cases h
      · cases h
        exact .keep hS hout rfl rfl rfl (by simp)
          (by rintro _ ⟨⟩; exact ⟨hran' _, mem_grow hc⟩)
    · cases h
  · -- timedOut
    split at h
    · rename_i hd
      cases h
      exact waitReturn_awaits hS hout (hdone hd)
    split at h
    · cases h
      exact .keep hS hout rfl rfl rfl (by simp) (by rintro _ ⟨⟩; exact ⟨hran' _, mem_grow hc.1⟩)
    · rename_i hterm
      cases h
      refine .keep hS hout rfl rfl rfl (by simp) ?_
      rintro _ ⟨⟩
      obtain ⟨j, c, hrun⟩ := hran
      exact ⟨hran' _, c, tr, [], _, sh.now, rfl, hc.2, hc.1, fun ht => hterm (hS.terminal ht),
        ⟨j, hrun⟩⟩
  · -- close
    cases h
    obtain ⟨c, hlapsed⟩ := hc
    have hrun : Running c tr := by
      obtain ⟨pre, post, _, _, rfl, -, -, -, hrun⟩ := hlapsed
      exact hrun.grow
    refine .close hS (.inr hran) ?_
    rintro _ ⟨⟩
    refine ⟨hran' _, c, hlapsed.grow, ?_⟩
    rcases hS.conn hrun with hconn | hclosed
    · exact ⟨i, List.mem_append_right tr (mem_tagged.2 ⟨rfl, close_closes sh c hconn⟩)⟩
    · exact hclosed.grow
  · -- grace
    cases h
    exact .keep hS hout rfl rfl rfl (by simp)
      (by rintro _ ⟨⟩; exact ⟨hran' _, Expired.grow hc⟩)
  · -- graceEnd
    split at h
    · cases h
      exact waitReturn_awaits hS hout (.inr (.inr hc))
    · cases h
  · cases h

/-! ## The other steps -/

theorem writeStep_awaits {cfg : Config} {pc : WritePc} {ch : Choice} {r : CallResult}
    (hS : Stops tr sh) (hout : Outside sh r.sh r.events)
    (h : writeStep cfg i sh pc ch = some r) : CallAwaits i tr sh r := by
  unfold writeStep at h
  repeat' split at h
  all_goals cases h
  all_goals exact .keep hS hout rfl rfl rfl (by simp) (by rintro _ ⟨⟩ <;> trivial)

theorem callStep_awaits {cfg : Config} {pc : CallPc} {ch : Choice} {r : CallResult}
    (hI : Lifecycle tr sh) (hS : Stops tr sh) (hown : ownsCall i tr sh pc)
    (hc : awaitsCall i tr sh pc) (h : callStep cfg i sh pc ch = some r) :
    CallAwaits i tr sh r := by
  have hout := callStep_outside h
  unfold callStep at h
  split at h
  · exact startStep_awaits hI hS hown hc hout h
  · exact writeStep_awaits hS hout h
  · exact stopStep_awaits hI hS hown hc hout h
  · exact waitStep_awaits hS hc.1 hc.2 hout h
  · -- destroy
    cases h
    refine .keep hS hout rfl rfl rfl (by simp) ?_
    rintro _ ⟨⟩
    split
    · trivial
    · trivial
  · -- join
    split at h
    · cases h
    · cases h
      exact .keep hS hout rfl rfl rfl (by simp) (by simp)
  · cases h

theorem readerStep_stops {cfg : Config} {rest : List ReaderOp} {op : ReaderOp} {ch : Choice}
    {r : ReaderResult} (hS : Stops tr sh) (hran : Ran tr)
    (h : readerStep cfg i sh rest op ch = some r) :
    Stops (tr ++ r.events.map (i, ·)) r.sh ∧ Holds i tr sh r.sh := by
  unfold readerStep at h
  split at h
  case h_13 =>
    -- mark
    split at h
    · cases h
      refine ⟨⟨hS.returns.snoc trivial, fun hd => (hS.done hd).grow, fun _ => rfl, ?_⟩, .inl rfl,
        le_refl _⟩
      rintro c ⟨j, hj⟩
      exact (hS.conn ⟨j, mem_of_append hj (by simp)⟩).imp id Closed.grow
    · cases h
  case h_14 =>
    -- signalDone
    split at h
    · cases h
      exact ⟨hS.step (fun _ => .inr (List.mem_singleton.2 rfl)) id rfl (by simp)
        fun c _ hc => .inl hc, .inl rfl, le_refl _⟩
    · cases h
  case h_12 =>
    -- close
    cases h
    have hclose : CallAwaits i tr sh { sh := sh.close.1, call := none, events := sh.close.2 } :=
      .close hS (.inr hran) (by simp)
    exact ⟨hclose.inv, hclose.holds⟩
  all_goals
    repeat' split at h
    all_goals cases h
    all_goals exact ⟨hS.step .inl id rfl (by simp) fun c _ hc => .inl hc, .inl rfl, le_refl _⟩

end

/-! ## Stop waits -/

theorem awaits_spawned {cfg : Config} {i j : ℕ} {tr es : List Event} {sh : Shared} {pc : CallPc}
    {ch : Choice} {r : CallResult} {t : Thread} (hI : Lifecycle tr sh) (hown : ownsCall i tr sh pc)
    (h : callStep cfg i sh pc ch = some r) (hs : r.spawned = some (j, t)) :
    awaits j (tr ++ es) r.sh t := by
  rcases callStep_spawned h hs with ⟨-, rfl⟩ | ⟨⟨dtor, rfl⟩, rfl⟩
  · nofun
  · rintro _ ⟨⟩
    exact ⟨(ran_of_stopping hI hown).grow, trivial⟩

/-- **The threads of a session keep what a wait knows.** -/
theorem stopping (cfg : Config) :
    RelyGuarantee (session cfg) (fun tr sh => Lifecycle tr sh ∧ Stops tr sh)
      (fun i tr sh t => Owns i tr sh t ∧ awaits i tr sh t)
      (fun i tr sh es sh' => Leaves i tr sh es sh' ∧ Holds i tr sh sh') := by
  refine (ownership cfg).extend ?_ ?_
  · intro i tr sh t ch o hI hown _ hS ha ho
    rcases threadStep_cases ho with ⟨d, rfl⟩ | ⟨pc, r, hpc, hr, rfl⟩ | ⟨entry, -, -, rfl⟩ |
      ⟨op, rest, r, hcall, hops, hr, rfl⟩
    · refine ⟨?_, fun pc hpc => ?_, ⟨.inl rfl, Nat.le_add_right _ d⟩, by simp⟩
      · rw [List.append_nil]
        exact ⟨hS.returns, hS.done, hS.terminal, hS.conn⟩
      · rw [List.append_nil]
        have hc := ha pc hpc
        cases pc with
        | start pc => cases pc <;> exact hc
        | wait w pc =>
          refine ⟨hc.1, ?_⟩
          cases pc with
          | timedOut deadline => exact ⟨hc.2.1, Nat.le_add_right_of_le hc.2.2⟩
          | _ => exact hc.2
        | _ => exact hc
    · have hk := callStep_awaits hI hS (hown.call pc hpc) (ha pc hpc) hr
      exact ⟨hk.inv, hk.call, hk.holds, fun j t' hs =>
        awaits_spawned hI (hown.call pc hpc) hr hs⟩
    · refine ⟨?_, ?_, ⟨.inl rfl, le_refl _⟩, by simp⟩
      · rw [List.append_nil]
        exact hS
      · rintro _ ⟨⟩
        cases entry with
        | start => trivial
        | write audio => trivial
        | stop => trivial
        | destroy => trivial
    · obtain ⟨j, hj⟩ := hown.reader (by rw [hops]; simp)
      obtain ⟨c, hc⟩ := hI.spawn hj
      obtain ⟨hinv, hholds⟩ := readerStep_stops hS ⟨j, c, hc⟩ hr
      refine ⟨hinv, fun pc hpc => ?_, hholds, by simp⟩
      rw [hcall] at hpc; cases hpc
  · intro i j tr sh es sh' t hne hI hown _ _ ha hg
    exact ha.stable hne hI hown hg

theorem stops_initial (voiceId : Bytes) : Stops [] (initial voiceId).shared where
  returns := causal_nil
  done h := nomatch h
  terminal := fun ⟨_, h⟩ => absurd h List.not_mem_nil
  conn := fun ⟨_, h⟩ => absurd h List.not_mem_nil

/-- Every callback that was made has returned or thrown. -/
def AllReturned (tr : List Event) : Prop := (callbacks tr).length ≤ finishedCallbacks tr

/-- After `SignalDone` every callback has returned and no other one follows. -/
theorem quiet_after_done {cfg : Config} {before after : List Event}
    (h : Causal (Told cfg) (before ++ after)) (hd : Done before) :
    callbacks (before ++ after) = callbacks before ∧ AllReturned before := by
  obtain ⟨j, hj⟩ := hd
  obtain ⟨pre, mid, rfl⟩ := List.append_of_mem hj
  have hbefore := (silent_after_done h.of_append).1
  have hcount := (h.of_append pre _ mid rfl).2.2
  constructor
  · rw [hbefore]
    rw [List.append_assoc, List.cons_append] at h ⊢
    exact (silent_after_done h).1
  · unfold AllReturned
    rw [hbefore, ← hcount]
    unfold finishedCallbacks
    rw [List.countP_append]
    exact Nat.le_add_right _ _

/-- **A `Stop` on a thread other than the reader thread waits for the session**, for every run:
    when it returns, either the reader thread has signalled done, every callback has returned
    and none follows; or its wait found the deadline passed while no terminal response had been
    recorded, and the connection has been closed.  In particular, when a terminal response was
    recorded before the deadline check, it is the former. -/
theorem stop_waits (cfg : Config) (voiceId : Bytes) {acts : List (ℕ × Choice)}
    {p : Pool Shared Thread} {tr before after : List Event} {i : ℕ}
    (h : (session cfg).pool.run (initial voiceId) acts = some (p, tr))
    (htr : tr = before ++ (i, .returned .stop) :: after)
    (hi : ∀ j, (j, EventKind.spawned i) ∉ before) :
    (Done before ∧ callbacks tr = callbacks before ∧ AllReturned before ∨ Expired i before) ∧
      ∀ pre j post, before = pre ++ (j, .terminal) :: post →
        (∀ deadline now, (i, EventKind.expired deadline now) ∉ pre) →
        Done before ∧ callbacks tr = callbacks before ∧ AllReturned before := by
  have hS := ((stopping cfg).run ⟨lifecycle_initial voiceId, stops_initial voiceId⟩
    (fun i => ⟨owns_initial voiceId i, nofun⟩) h).1.2
  have htold := ((told cfg).run ⟨lifecycle_initial voiceId, session_initial cfg voiceId⟩
    (fun i => ⟨owns_initial voiceId i, nofun⟩) h).1.2.told
  subst htr
  have hdone : Done before →
      Done before ∧ callbacks (before ++ (i, .returned .stop) :: after) = callbacks before ∧
        AllReturned before :=
    fun hd => ⟨hd, quiet_after_done htold hd⟩
  have hwaited : Done before ∨ Expired i before :=
    (hS.returns before _ after rfl).resolve_left fun ⟨j, hj⟩ => hi j hj
  refine ⟨hwaited.imp hdone id, ?_⟩
  rintro pre j post rfl hearly
  rcases hwaited with hd | ⟨c, ⟨pre', post', deadline, now, heq, -, -, hnt, -⟩, -⟩
  · exact hdone hd
  · -- the check came either before the terminal response or after it
    rcases split_append heq with ⟨rest, rfl⟩ | ⟨mid, hpre', hmid⟩
    · exact absurd (by simp) (hearly deadline now)
    · refine absurd ⟨j, ?_⟩ hnt
      cases mid with
      | nil => cases hmid
      | cons e mid =>
        obtain ⟨rfl, -⟩ := List.cons.inj hmid
        rw [hpre']
        simp

/-- A `Stop` whose deadline passes while the terminal callback is still running. -/
def sampleStop : List (ℕ × Choice) :=
  sampleStart ++ [(1, .go), (1, .go), (1, .returns), (1, .go), (0, .enter .stop), (0, .go), (0, .go),
    (0, .go), (0, .go), (0, .go), (0, .sent (.ok ())), (0, .go), (0, .go), (0, .go),
    (1, .read (.frame 0x1 sampleFinal)), (1, .go), (1, .go), (1, .go), (1, .go), (0, .tick 20000),
    (0, .wake true), (0, .go), (0, .go), (0, .wake true), (1, .returns), (1, .go), (1, .go),
    (0, .wake false), (0, .go)]

theorem stop_waits_for_terminal_callback : ∃ p tr before,
    (session sampleConfig).pool.run (initial []) sampleStop = some (p, tr) ∧
      tr = before ++ [(0, .returned .stop)] ∧ Done before ∧ AllReturned before := by
  have run : ∃ p tr, (session sampleConfig).pool.run (initial []) sampleStop = some (p, tr) ∧
      tr = tr.take 13 ++ (1, .terminal) :: (tr.drop 14).dropLast ++ [(0, .returned .stop)] ∧
      tr.all fun e => match e.2 with
        | .expired _ _ | .spawned 0 => false
        | _ => true := ⟨_, _, rfl, rfl, by decide⟩
  obtain ⟨p, tr, hrun, htr, hall⟩ := run
  have hno : ∀ e ∈ tr.take 13 ++ (1, .terminal) :: (tr.drop 14).dropLast, (match e.2 with
      | .expired _ _ | .spawned 0 => false
      | _ => true) = true := by
    intro e he
    refine List.all_eq_true.1 hall e ?_
    rw [htr]
    exact List.mem_append_left _ he
  obtain ⟨-, hwait⟩ := stop_waits sampleConfig [] hrun htr fun j hj => nomatch hno _ hj
  obtain ⟨hd, -, hret⟩ := hwait _ 1 _ rfl fun deadline now hm =>
    nomatch hno _ (List.mem_append_left _ hm)
  exact ⟨p, tr, _, hrun, htr, hd, hret⟩

end TrtcAsr.Speech
