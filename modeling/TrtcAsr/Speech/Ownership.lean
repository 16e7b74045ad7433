/-
  Who owns what in a session: the state machine and the two mutexes that are held across
  steps.

  A session runs at most once.  `Start` owns the starting state from its compare-and-swap on;
  the running state is entered once and left for good; a `Stop` that wins its
  compare-and-swap is the only one that ever does; `write_mu` and `done_mu` exclude.

  * `Lifecycle` relates the history to the state; `Owns` is what a thread knows at each point
    of its call.
  * `ownership`: the rely-guarantee proof of both.
-/
import TrtcAsr.Speech.Session

namespace TrtcAsr.Speech

/-! ## Histories -/

/-- The thread of the last `Start` that took the starting state and has not given it back. -/
def starter (tr : List Event) : Option ℕ :=
  tr.foldl (fun o e => match e.2 with
    | .starting => some e.1
    | .startFailed => none
    | _ => o) none

def Ran (tr : List Event) : Prop := ∃ i c, (i, EventKind.running c) ∈ tr

def Running (c : ℕ) (tr : List Event) : Prop := ∃ i, (i, EventKind.running c) ∈ tr

/-- The events of the state machine. -/
def EventKind.lifecycle : EventKind → Bool
  | starting | startFailed | running _ | spawned _ | stopping => true
  | _ => false

/-- The lasting ones of them. -/
def EventKind.landmark : EventKind → Bool
  | running _ | spawned _ | stopping => true
  | _ => false

/-- No event of the state machine. -/
def Quiet (ks : List EventKind) : Prop := ∀ k ∈ ks, k.lifecycle = false

def NoLandmark (ks : List EventKind) : Prop := ∀ k ∈ ks, k.landmark = false

theorem mem_tagged {i j : ℕ} {k : EventKind} {ks : List EventKind} :
    (j, k) ∈ ks.map (i, ·) ↔ j = i ∧ k ∈ ks := by
  rw [List.mem_map]
  constructor
  · rintro ⟨k', hk, heq⟩
    cases heq
    exact ⟨rfl, hk⟩
  · rintro ⟨rfl, hk⟩
    exact ⟨k, hk, rfl⟩

theorem starter_append_quiet {ks : List EventKind} (h : Quiet ks) (i : ℕ) (tr : List Event) :
    starter (tr ++ ks.map (i, ·)) = starter tr := by
  unfold starter
  rw [List.foldl_append]
  generalize List.foldl _ none tr = o
  induction ks generalizing o with
  | nil => rfl
  | cons k ks ih =>
    obtain ⟨hk, hks⟩ := List.forall_mem_cons.1 h
    rw [List.map_cons, List.foldl_cons]
    cases k with
    | starting => cases hk
    | startFailed => cases hk
    | _ => exact ih hks o

/-- A history grows. -/
theorem mem_grow {e : Event} {tr es : List Event} (h : e ∈ tr) : e ∈ tr ++ es :=
  List.mem_append_left es h

/-! ## The invariant -/

structure Lifecycle (tr : List Event) (sh : Shared) : Prop where
  ran : Ran tr ↔ sh.state ≠ .idle ∧ sh.state ≠ .starting
  once : ∀ {i j c d}, (i, EventKind.running c) ∈ tr → (j, EventKind.running d) ∈ tr → i = j ∧ c = d
  stop : ∀ {i}, (i, EventKind.stopping) ∈ tr → sh.state = .stopping ∨ sh.state = .stopped
  stopOnce : ∀ {i j}, (i, EventKind.stopping) ∈ tr → (j, EventKind.stopping) ∈ tr → i = j
  spawn : ∀ {i t}, (i, EventKind.spawned t) ∈ tr → ∃ c, (i, EventKind.running c) ∈ tr
  spawnOnce : ∀ {i j t u}, (i, EventKind.spawned t) ∈ tr → (j, EventKind.spawned u) ∈ tr → t = u
  tid : ∀ {r}, sh.readerTid = some r → ∃ i, (i, EventKind.spawned r) ∈ tr

/-- The starting state is this thread's. -/
def Starting (i : ℕ) (tr : List Event) (sh : Shared) : Prop :=
  sh.state = .starting ∧ starter tr = some i

def ownsStart (i : ℕ) (tr : List Event) (sh : Shared) : StartPc → Prop
  | .cas => True
  | .timeout | .spawn =>
    (∃ c, (i, EventKind.running c) ∈ tr) ∧ ∀ j t, (j, EventKind.spawned t) ∉ tr
  | _ => Starting i tr sh

def ownsWrite (i : ℕ) (tr : List Event) (sh : Shared) : WritePc → Prop
  | .args _ | .check _ => True
  | .fetch _ | .lock _ _ => Ran tr
  | _ => Ran tr ∧ sh.writeMu = some i

def ownsStop (i : ℕ) (tr : List Event) (sh : Shared) : StopPc → Prop
  | .cas => True
  | .check _ | .send _ | .sent => (i, EventKind.stopping) ∈ tr ∧ sh.writeMu = some i
  | _ => (i, EventKind.stopping) ∈ tr

def ownsWait (i : ℕ) (tr : List Event) (sh : Shared) (w : Waiter) (pc : WaitPc) : Prop :=
  (w ≠ .watchdog → (i, EventKind.stopping) ∈ tr) ∧
    match pc with
    | .test _ | .timedOut _ | .close | .grace => sh.doneMu = some i
    | _ => True

def ownsCall (i : ℕ) (tr : List Event) (sh : Shared) : CallPc → Prop
  | .start pc => ownsStart i tr sh pc
  | .write pc => ownsWrite i tr sh pc
  | .stop _ pc => ownsStop i tr sh pc
  | .wait w pc => ownsWait i tr sh w pc
  | .destroy | .join => True

/-- What a thread knows at the point where it is. -/
structure Owns (i : ℕ) (tr : List Event) (sh : Shared) (t : Thread) : Prop where
  call : ∀ pc, t.call = some pc → ownsCall i tr sh pc
  reader : t.reader ≠ none → ∃ j, (j, EventKind.spawned i) ∈ tr

/-- A mutex that another thread holds stays with it. -/
def Kept (i : ℕ) (m m' : Option ℕ) : Prop := ∀ j ≠ i, m = some j → m' = some j

/-- What a step of thread `i` leaves to the others. -/
structure Leaves (i : ℕ) (tr : List Event) (sh : Shared) (es : List Event) (sh' : Shared) :
    Prop where
  writeMu : Kept i sh.writeMu sh'.writeMu
  doneMu : Kept i sh.doneMu sh'.doneMu
  starting : ∀ j ≠ i, Starting j tr sh → Starting j (tr ++ es) sh'
  stopped : sh.state = .stopped → sh'.state = .stopped
  spawn : ∀ j t, (j, EventKind.spawned t) ∈ es → ∃ c, (j, EventKind.running c) ∈ tr
  tagged : ∀ e ∈ es, e.1 = i

/-! ## Stability -/

theorem Ran.grow {tr es : List Event} : Ran tr → Ran (tr ++ es) :=
  fun ⟨i, c, h⟩ => ⟨i, c, mem_grow h⟩

theorem Running.grow {c : ℕ} {tr es : List Event} : Running c tr → Running c (tr ++ es) :=
  fun ⟨i, h⟩ => ⟨i, mem_grow h⟩

theorem Running.ran {c : ℕ} {tr : List Event} (h : Running c tr) : Ran tr :=
  h.imp fun _ hi => ⟨c, hi⟩

theorem Owns.stable {i j : ℕ} {tr es : List Event} {sh sh' : Shared} {t : Thread} (hne : j ≠ i)
    (hI : Lifecycle tr sh) (h : Owns j tr sh t) (hg : Leaves i tr sh es sh') :
    Owns j (tr ++ es) sh' t := by
  refine ⟨fun pc hpc => ?_, fun hr => ?_⟩
  swap
  · obtain ⟨k, hk⟩ := h.reader hr
    exact ⟨k, mem_grow hk⟩
  have hc := h.call pc hpc
  cases pc with
  | start pc =>
    have hstart : Starting j tr sh → Starting j (tr ++ es) sh' := hg.starting j hne
    have hspawn : (∃ c, (j, EventKind.running c) ∈ tr) ∧ (∀ k t, (k, EventKind.spawned t) ∉ tr) →
        (∃ c, (j, EventKind.running c) ∈ tr ++ es) ∧
          ∀ k t, (k, EventKind.spawned t) ∉ tr ++ es := by
      rintro ⟨⟨c, hrun⟩, hno⟩
      refine ⟨⟨c, mem_grow hrun⟩, fun k t hk => ?_⟩
      rcases List.mem_append.1 hk with hk | hk
      · exact hno k t hk
      · -- only the thread that ran the session spawns, and that is `j`
        obtain ⟨d, hd⟩ := hg.spawn k t hk
        exact hne ((hI.once hrun hd).1.trans (hg.tagged _ hk))
    cases pc with
    | cas => trivial
    | timeout => exact hspawn hc
    | spawn => exact hspawn hc
    | _ => exact hstart hc
  | write pc =>
    cases pc with
    | args audio => trivial
    | check data => trivial
    | fetch data => exact Ran.grow hc
    | lock c data => exact Ran.grow hc
    | _ => exact ⟨Ran.grow hc.1, hg.writeMu j hne hc.2⟩
  | stop dtor pc =>
    cases pc with
    | cas => trivial
    | check c => exact ⟨mem_grow hc.1, hg.writeMu j hne hc.2⟩
    | send c => exact ⟨mem_grow hc.1, hg.writeMu j hne hc.2⟩
    | sent => exact ⟨mem_grow hc.1, hg.writeMu j hne hc.2⟩
    | _ => exact List.mem_append_left es hc
  | wait w pc =>
    refine ⟨fun hw => mem_grow (hc.1 hw), ?_⟩
    cases pc with
    | test deadline => exact hg.doneMu j hne hc.2
    | timedOut deadline => exact hg.doneMu j hne hc.2
    | close => exact hg.doneMu j hne hc.2
    | grace => exact hg.doneMu j hne hc.2
    | _ => trivial
  | destroy => trivial
  | join => trivial

/-! ## Steps without an event of the state machine -/

theorem Kept.same {i : ℕ} {m : Option ℕ} : Kept i m m := fun _ _ h => h

theorem Kept.free {i : ℕ} {m m' : Option ℕ} (h : m = none) : Kept i m m' := by
  intro j _ hj
  rw [h] at hj
  cases hj

theorem Kept.mine {i : ℕ} {m m' : Option ℕ} (h : m = some i) : Kept i m m' := by
  intro j hne hj
  rw [h] at hj
  exact absurd (Option.some.inj hj).symm hne

section

variable {i : ℕ} {tr : List Event} {sh sh' : Shared} {ks : List EventKind}

theorem Quiet.noLandmark (h : Quiet ks) : NoLandmark ks := by
  intro k hk
  have := h k hk
  cases k with
  | running c => cases this
  | spawned t => cases this
  | stopping => cases this
  | _ => rfl

theorem mem_of_append {j : ℕ} {k : EventKind} (h : (j, k) ∈ tr ++ ks.map (i, ·)) (hk : k ∉ ks) :
    (j, k) ∈ tr := by
  rcases List.mem_append.1 h with h | h
  · exact h
  · exact absurd (mem_tagged.1 h).2 hk

theorem mem_append_noLandmark (hq : NoLandmark ks) {j : ℕ} {k : EventKind}
    (hk : k.landmark = true) : (j, k) ∈ tr ++ ks.map (i, ·) ↔ (j, k) ∈ tr := by
  rw [List.mem_append, or_iff_left]
  intro h
  rw [hq k (mem_tagged.1 h).2] at hk
  cases hk

theorem ran_append_noLandmark (hq : NoLandmark ks) : Ran (tr ++ ks.map (i, ·)) ↔ Ran tr :=
  exists_congr fun _ => exists_congr fun _ => mem_append_noLandmark hq rfl

theorem Starting.append_quiet (hq : Quiet ks) (h : Starting i tr sh) (hs : sh'.state = sh.state)
    {j : ℕ} : Starting i (tr ++ ks.map (j, ·)) sh' :=
  ⟨hs.trans h.1, (starter_append_quiet hq j tr).trans h.2⟩

/-- The invariant after a step with a state that suits the history. -/
theorem Lifecycle.append (hI : Lifecycle tr sh) (hq : NoLandmark ks)
    (hran : Ran tr ↔ sh'.state ≠ .idle ∧ sh'.state ≠ .starting)
    (hstop : ∀ {j}, (j, EventKind.stopping) ∈ tr → sh'.state = .stopping ∨ sh'.state = .stopped)
    (htid : sh'.readerTid = sh.readerTid) : Lifecycle (tr ++ ks.map (i, ·)) sh' where
  ran := (ran_append_noLandmark hq).trans hran
  once h h' := hI.once ((mem_append_noLandmark hq rfl).1 h) ((mem_append_noLandmark hq rfl).1 h')
  stop h := hstop ((mem_append_noLandmark hq rfl).1 h)
  stopOnce h h' :=
    hI.stopOnce ((mem_append_noLandmark hq rfl).1 h) ((mem_append_noLandmark hq rfl).1 h')
  spawn h := (hI.spawn ((mem_append_noLandmark hq rfl).1 h)).imp fun _ => mem_grow
  spawnOnce h h' :=
    hI.spawnOnce ((mem_append_noLandmark hq rfl).1 h) ((mem_append_noLandmark hq rfl).1 h')
  tid h := (hI.tid (htid ▸ h)).imp fun _ => mem_grow

theorem Lifecycle.same (hI : Lifecycle tr sh) (hq : Quiet ks) (hs : sh'.state = sh.state)
    (htid : sh'.readerTid = sh.readerTid) : Lifecycle (tr ++ ks.map (i, ·)) sh' :=
  hI.append hq.noLandmark (by rw [hs]; exact hI.ran) (by rw [hs]; exact hI.stop) htid

/-- A session that has run may go to the stopped state. -/
theorem Lifecycle.stopped (hI : Lifecycle tr sh) (hq : Quiet ks) (hran : Ran tr)
    (hs : sh'.state = .stopped) (htid : sh'.readerTid = sh.readerTid) :
    Lifecycle (tr ++ ks.map (i, ·)) sh' :=
  hI.append hq.noLandmark (by simp [hran, hs]) (fun _ => .inr hs) htid

theorem Leaves.quiet (hq : Quiet ks) (hs : sh.state = .starting → sh'.state = .starting)
    (hstop : sh.state = .stopped → sh'.state = .stopped)
    (hw : Kept i sh.writeMu sh'.writeMu) (hd : Kept i sh.doneMu sh'.doneMu) :
    Leaves i tr sh (ks.map (i, ·)) sh' where
  writeMu := hw
  doneMu := hd
  starting _ _ h := ⟨hs h.1, (starter_append_quiet hq i tr).trans h.2⟩
  stopped := hstop
  spawn _ _ h := Bool.noConfusion (hq _ (mem_tagged.1 h).2)
  tagged _ h := (mem_tagged.1 h).1

/-- What a step of a call owes to the invariant, to its thread and to the others. -/
structure CallKeeps (i : ℕ) (tr : List Event) (sh : Shared) (r : CallResult) : Prop where
  inv : Lifecycle (tr ++ r.events.map (i, ·)) r.sh
  call : ∀ pc, r.call = some pc → ownsCall i (tr ++ r.events.map (i, ·)) r.sh pc
  leaves : Leaves i tr sh (r.events.map (i, ·)) r.sh
  spawned : ∀ j t, r.spawned = some (j, t) → Owns j (tr ++ r.events.map (i, ·)) r.sh t

/-- A step that leaves the state as it is. -/
theorem CallKeeps.same {r : CallResult} (hI : Lifecycle tr sh) (hq : Quiet r.events)
    (hs : r.sh.state = sh.state) (htid : r.sh.readerTid = sh.readerTid)
    (hw : Kept i sh.writeMu r.sh.writeMu) (hd : Kept i sh.doneMu r.sh.doneMu)
    (hc : ∀ pc, r.call = some pc → ownsCall i (tr ++ r.events.map (i, ·)) r.sh pc)
    (hn : r.spawned = none) : CallKeeps i tr sh r where
  inv := hI.same hq hs htid
  call := hc
  leaves := Leaves.quiet hq (fun h => hs.trans h) (fun h => hs.trans h) hw hd
  spawned j t h := by rw [hn] at h; cases h

/-- A step that stores the stopped state. -/
theorem CallKeeps.stopped {r : CallResult} (hI : Lifecycle tr sh) (hq : Quiet r.events)
    (hran : Ran tr) (hs : r.sh.state = .stopped) (htid : r.sh.readerTid = sh.readerTid)
    (hw : r.sh.writeMu = sh.writeMu) (hd : r.sh.doneMu = sh.doneMu)
    (hc : ∀ pc, r.call = some pc → ownsCall i (tr ++ r.events.map (i, ·)) r.sh pc)
    (hn : r.spawned = none) : CallKeeps i tr sh r where
  inv := hI.stopped hq hran hs htid
  call := hc
  leaves := Leaves.quiet hq (fun h => absurd h (hI.ran.1 hran).2) (fun _ => hs) (hw ▸ Kept.same)
    (hd ▸ Kept.same)
  spawned j t h := by rw [hn] at h; cases h

theorem quiet_nil : Quiet [] := fun _ h => absurd h List.not_mem_nil

/-- The events of a step can be checked one by one. -/
theorem quiet_of_all {ks : List EventKind} (h : ks.all fun k => !k.lifecycle) : Quiet ks := by
  intro k hk
  simpa using List.all_eq_true.1 h k hk

theorem close_same (sh : Shared) : sh.close.1.state = sh.state ∧
    sh.close.1.readerTid = sh.readerTid ∧ sh.close.1.writeMu = sh.writeMu ∧
    sh.close.1.doneMu = sh.doneMu ∧ Quiet sh.close.2 := by
  unfold Shared.close
  cases sh.conn with
  | none => exact ⟨rfl, rfl, rfl, rfl, quiet_nil⟩
  | some c => exact ⟨rfl, rfl, rfl, rfl, quiet_of_all rfl⟩

/-! ## Start -/

theorem ran_of_stopping (hI : Lifecycle tr sh) (h : (i, EventKind.stopping) ∈ tr) : Ran tr := by
  refine hI.ran.2 ?_
  rcases hI.stop h with hs | hs
  · rw [hs]; exact ⟨by decide, by decide⟩
  · rw [hs]; exact ⟨by decide, by decide⟩

/-- A step of `Start` between its compare-and-swap and its outcome. -/
theorem CallKeeps.starting {r : CallResult} (hI : Lifecycle tr sh) (hown : Starting i tr sh)
    (hq : Quiet r.events) (hs : r.sh.state = sh.state) (htid : r.sh.readerTid = sh.readerTid)
    (hw : r.sh.writeMu = sh.writeMu) (hd : r.sh.doneMu = sh.doneMu)
    (hc : ∀ pc, r.call = some pc → ∃ q, pc = .start q ∧
      (Starting i (tr ++ r.events.map (i, ·)) r.sh → ownsStart i (tr ++ r.events.map (i, ·)) r.sh q))
    (hn : r.spawned = none) : CallKeeps i tr sh r := by
  refine .same hI hq hs htid (hw ▸ Kept.same) (hd ▸ Kept.same) (fun pc hpc => ?_) hn
  obtain ⟨q, rfl, hq'⟩ := hc pc hpc
  exact hq' (hown.append_quiet hq hs)

theorem not_ran_of_starting (hI : Lifecycle tr sh) (h : sh.state = .starting) : ¬ Ran tr :=
  fun hran => (hI.ran.1 hran).2 h

theorem cas_keeps (hI : Lifecycle tr sh) (hidle : sh.state = .idle) :
    CallKeeps i tr sh { sh := { sh with state := .starting }, call := some (.start .validate)
                        events := [.starting] } := by
  have hnr : ¬ Ran tr := fun hran => (hI.ran.1 hran).1 hidle
  have hq : NoLandmark [EventKind.starting] := by
    intro k hk
    rw [List.mem_singleton.1 hk]
    rfl
  refine ⟨hI.append hq (iff_of_false hnr fun h => h.2 rfl) ?_ rfl, ?_, ?_, by simp⟩
  · exact fun h => absurd (ran_of_stopping hI h) hnr
  · rintro _ ⟨⟩
    exact ⟨rfl, by simp [starter]⟩
  · refine ⟨Kept.same, Kept.same, fun j _ h => ?_, fun h => ?_, fun j t h => ?_, fun e h => ?_⟩
    · rw [h.1] at hidle; cases hidle
    · rw [h] at hidle; cases hidle
    · cases List.mem_singleton.1 (mem_tagged.1 h).2
    · exact (mem_tagged.1 h).1

theorem fail_keeps (hI : Lifecycle tr sh) (hown : Starting i tr sh) {e : Exn} :
    CallKeeps i tr sh { sh := { sh with state := .idle }, call := none
                        events := [.startFailed, .threw .start e] } := by
  have hq : NoLandmark [EventKind.startFailed, .threw .start e] := by
    intro k hk
    rcases List.mem_cons.1 hk with rfl | hk
    · rfl
    · rw [List.mem_singleton.1 hk]
      rfl
  refine ⟨hI.append hq ?_ ?_ rfl, by simp, ?_, by simp⟩
  · exact iff_of_false (not_ran_of_starting hI hown.1) fun h => h.1 rfl
  · exact fun h => absurd (ran_of_stopping hI h) (not_ran_of_starting hI hown.1)
  · refine ⟨Kept.same, Kept.same, fun j hne h => ?_, fun h => ?_, fun j t h => ?_, fun e h => ?_⟩
    · exact absurd (Option.some.inj (h.2.symm.trans hown.2)) hne
    · exact absurd (h.symm.trans hown.1) (by simp)
    · have hk := hq _ (mem_tagged.1 h).2
      cases hk
    · exact (mem_tagged.1 h).1

theorem run_keeps (hI : Lifecycle tr sh) (hown : Starting i tr sh) {c : ℕ} :
    CallKeeps i tr sh { sh := { sh with state := .running }, call := some (.start .timeout)
                        events := [.running c] } := by
  have hnr := not_ran_of_starting hI hown.1
  have hnew : ∀ {j d}, (j, EventKind.running d) ∈ tr ++ [EventKind.running c].map (i, ·) →
      j = i ∧ d = c := by
    intro j d h
    rcases List.mem_append.1 h with h | h
    · exact absurd ⟨j, d, h⟩ hnr
    · obtain ⟨rfl, hk⟩ := mem_tagged.1 h
      cases List.mem_singleton.1 hk
      exact ⟨rfl, rfl⟩
  have hrun : (i, EventKind.running c) ∈ tr ++ [EventKind.running c].map (i, ·) :=
    List.mem_append_right tr (mem_tagged.2 ⟨rfl, List.mem_singleton.2 rfl⟩)
  have hnospawn : ∀ {j t}, (j, EventKind.spawned t) ∉ tr ++ [EventKind.running c].map (i, ·) := by
    intro j t h
    obtain ⟨d, hd⟩ := hI.spawn (mem_of_append h (by simp))
    exact hnr ⟨j, d, hd⟩
  refine ⟨?_, ?_, ?_, by simp⟩
  · refine ⟨iff_of_true ⟨i, c, hrun⟩ ⟨by simp, by simp⟩, ?_, ?_, ?_, ?_, ?_, ?_⟩
    · intro j k d d' h h'
      obtain ⟨rfl, rfl⟩ := hnew h
      obtain ⟨rfl, rfl⟩ := hnew h'
      exact ⟨rfl, rfl⟩
    · exact fun h => absurd (ran_of_stopping hI (mem_of_append h (by simp))) hnr
    · intro j k h h'
      exact hI.stopOnce (mem_of_append h (by simp)) (mem_of_append h' (by simp))
    · exact fun h => absurd h hnospawn
    · exact fun h => absurd h hnospawn
    · intro r h
      obtain ⟨j, hj⟩ := hI.tid h
      exact absurd (mem_grow hj) hnospawn
  · rintro _ ⟨⟩
    exact ⟨⟨c, hrun⟩, fun _ _ => hnospawn⟩
  · refine ⟨Kept.same, Kept.same, fun j hne h => ?_, fun h => ?_, fun j t h => ?_, fun e h => ?_⟩
    · exact absurd (Option.some.inj (h.2.symm.trans hown.2)) hne
    · exact absurd (h.symm.trans hown.1) (by simp)
    · exact absurd (List.mem_append_right tr h) hnospawn
    · exact (mem_tagged.1 h).1

theorem spawn_keeps (hI : Lifecycle tr sh) (hown : ownsStart i tr sh .spawn) {t : ℕ} :
    CallKeeps i tr sh { sh := { sh with readerThread := some t }, call := none
                        spawned := some (t, { reader := some readLoop })
                        events := [.spawned t, .returned .start] } := by
  obtain ⟨⟨c, hrun⟩, hno⟩ := hown
  have hran : Ran tr := ⟨i, c, hrun⟩
  have hnew : ∀ {j u}, (j, EventKind.spawned u) ∈
      tr ++ [EventKind.spawned t, .returned .start].map (i, ·) → j = i ∧ u = t := by
    intro j u h
    rcases List.mem_append.1 h with h | h
    · exact absurd h (hno j u)
    · obtain ⟨rfl, hk⟩ := mem_tagged.1 h
      rcases List.mem_cons.1 hk with hk | hk
      · cases hk
        exact ⟨rfl, rfl⟩
      · cases List.mem_singleton.1 hk
  refine ⟨?_, by simp, ?_, ?_⟩
  · refine ⟨iff_of_true hran.grow (hI.ran.1 hran), ?_, ?_, ?_, ?_, ?_, ?_⟩
    · intro j k d d' h h'
      exact hI.once (mem_of_append h (by simp)) (mem_of_append h' (by simp))
    · exact fun h => hI.stop (mem_of_append h (by simp))
    · intro j k h h'
      exact hI.stopOnce (mem_of_append h (by simp)) (mem_of_append h' (by simp))
    · intro j u h
      obtain ⟨rfl, rfl⟩ := hnew h
      exact ⟨c, mem_grow hrun⟩
    · exact fun h h' => (hnew h).2.trans (hnew h').2.symm
    · intro r h
      obtain ⟨j, hj⟩ := hI.tid h
      exact ⟨j, mem_grow hj⟩
  · refine ⟨Kept.same, Kept.same, fun j _ h => ?_, id, fun j u h => ?_, fun e h => ?_⟩
    · exact absurd hran (not_ran_of_starting hI h.1)
    · obtain ⟨rfl, rfl⟩ := hnew (List.mem_append_right tr h)
      exact ⟨c, hrun⟩
    · exact (mem_tagged.1 h).1
  · rintro j l ⟨⟩
    refine ⟨by simp, fun _ => ⟨i, ?_⟩⟩
    exact List.mem_append_right tr (mem_tagged.2 ⟨rfl, List.mem_cons_self ..⟩)

theorem startStep_keeps {cfg : Config} {pc : StartPc} {ch : Choice} {r : CallResult}
    (hI : Lifecycle tr sh) (hown : ownsStart i tr sh pc)
    (h : startStep cfg sh pc ch = some r) : CallKeeps i tr sh r := by
  unfold startStep at h
  split at h
  · -- cas
    split at h
    · rename_i hidle
      cases h
      exact cas_keeps hI hidle
    · cases h
      exact .same hI (quiet_of_all rfl) rfl rfl Kept.same Kept.same (by simp) rfl
  · -- validate
    cases h
    exact .starting hI hown quiet_nil rfl rfl rfl rfl (by rintro _ ⟨⟩; exact ⟨_, rfl, id⟩) rfl
  · cases h
    exact .starting hI hown quiet_nil rfl rfl rfl rfl (by rintro _ ⟨⟩; exact ⟨_, rfl, id⟩) rfl
  · -- connect
    cases h
    exact .starting hI hown quiet_nil rfl rfl rfl rfl (by rintro _ ⟨⟩; exact ⟨_, rfl, id⟩) rfl
  · cases h
    refine .starting hI hown quiet_nil rfl rfl rfl rfl ?_ rfl
    rintro _ ⟨⟩
    refine ⟨_, rfl, fun h => ?_⟩
    cases cfg.version with
    | v2 => exact h
    | v3 => exact h
  · -- send
    cases h
    exact .starting hI hown (quiet_of_all rfl) rfl rfl rfl rfl
      (by rintro _ ⟨⟩; exact ⟨_, rfl, id⟩) rfl
  · -- sent
    cases h
    exact .starting hI hown quiet_nil rfl rfl rfl rfl (by rintro _ ⟨⟩; exact ⟨_, rfl, id⟩) rfl
  · cases h
    exact .starting hI hown quiet_nil rfl rfl rfl rfl (by rintro _ ⟨⟩; exact ⟨_, rfl, id⟩) rfl
  · -- drop
    cases h
    exact .starting hI hown (quiet_of_all rfl) rfl rfl rfl rfl
      (by rintro _ ⟨⟩; exact ⟨_, rfl, id⟩) rfl
  · -- publish
    cases h
    refine .starting hI hown quiet_nil rfl rfl rfl rfl ?_ rfl
    rintro _ ⟨⟩
    refine ⟨_, rfl, fun h => ?_⟩
    cases cfg.version with
    | v2 => exact h
    | v3 => exact h
  · -- ack
    cases h
    refine .starting hI hown quiet_nil rfl rfl rfl rfl ?_ rfl
    rintro _ ⟨⟩
    refine ⟨_, rfl, fun h => ?_⟩
    split
    · exact h
    · exact h
  · cases h
    exact .starting hI hown quiet_nil rfl rfl rfl rfl (by rintro _ ⟨⟩; exact ⟨_, rfl, id⟩) rfl
  · split at h
    · cases h
      exact .starting hI hown quiet_nil rfl rfl rfl rfl (by rintro _ ⟨⟩; exact ⟨_, rfl, id⟩) rfl
    split at h
    · cases h
      exact .starting hI hown quiet_nil rfl rfl rfl rfl (by rintro _ ⟨⟩; exact ⟨_, rfl, id⟩) rfl
    split at h
    · cases h
      exact .starting hI hown quiet_nil rfl rfl rfl rfl (by rintro _ ⟨⟩; exact ⟨_, rfl, id⟩) rfl
    · cases h
      exact .starting hI hown quiet_nil rfl rfl rfl rfl (by rintro _ ⟨⟩; exact ⟨_, rfl, id⟩) rfl
    · cases h
      exact .starting hI hown (quiet_of_all rfl) rfl rfl rfl rfl
        (by rintro _ ⟨⟩; exact ⟨_, rfl, id⟩) rfl
  · -- close
    cases h
    obtain ⟨hs, ht, hw, hd, hq⟩ := close_same sh
    exact .starting hI hown hq hs ht hw hd (by rintro _ ⟨⟩; exact ⟨_, rfl, id⟩) rfl
  · -- fail
    cases h
    exact fail_keeps hI hown
  · -- run
    cases h
    exact run_keeps hI hown
  · -- timeout
    cases h
    refine .same hI quiet_nil rfl rfl Kept.same Kept.same ?_ rfl
    rintro _ ⟨⟩
    obtain ⟨⟨c, hrun⟩, hno⟩ := hown
    exact ⟨⟨c, mem_grow hrun⟩, fun j t h => hno j t (mem_of_append h List.not_mem_nil)⟩
  · -- spawn
    cases h
    exact spawn_keeps hI hown
  · cases h

/-! ## Write -/

theorem writeStep_keeps {cfg : Config} {pc : WritePc} {ch : Choice} {r : CallResult}
    (hI : Lifecycle tr sh) (hown : ownsWrite i tr sh pc)
    (h : writeStep cfg i sh pc ch = some r) : CallKeeps i tr sh r := by
  unfold writeStep at h
  split at h
  · -- args
    split at h
    · cases h
      exact .same hI (quiet_of_all rfl) rfl rfl Kept.same Kept.same (by simp) rfl
    · cases h
      exact .same hI quiet_nil rfl rfl Kept.same Kept.same (by rintro _ ⟨⟩; trivial) rfl
  · -- check
    split at h
    · cases h
      rename_i hrun
      refine .same hI quiet_nil rfl rfl Kept.same Kept.same ?_ rfl
      rintro _ ⟨⟩
      exact Ran.grow (hI.ran.2 (by simp [hrun]))
    · cases h
      exact .same hI (quiet_of_all rfl) rfl rfl Kept.same Kept.same (by simp) rfl
  · -- fetch
    split at h
    · cases h
      exact .same hI (quiet_of_all rfl) rfl rfl Kept.same Kept.same (by simp) rfl
    · cases h
      exact .same hI quiet_nil rfl rfl Kept.same Kept.same
        (by rintro _ ⟨⟩; exact Ran.grow hown) rfl
  · -- lock
    split at h
    · rename_i hfree
      cases h
      exact .same hI quiet_nil rfl rfl (Kept.free hfree) Kept.same
        (by rintro _ ⟨⟩; exact ⟨Ran.grow hown, rfl⟩) rfl
    · cases h
  · -- recheck
    split at h
    · cases h
      exact .same hI quiet_nil rfl rfl Kept.same Kept.same
        (by rintro _ ⟨⟩; exact ⟨Ran.grow hown.1, hown.2⟩) rfl
    · cases h
      exact .same hI (quiet_of_all rfl) rfl rfl (Kept.mine hown.2) Kept.same (by simp) rfl
  · -- send
    cases h
    exact .same hI (quiet_of_all rfl) rfl rfl Kept.same Kept.same
      (by rintro _ ⟨⟩; exact ⟨Ran.grow hown.1, hown.2⟩) rfl
  · -- sent
    cases h
    exact .same hI (quiet_of_all rfl) rfl rfl (Kept.mine hown.2) Kept.same (by simp) rfl
  · cases h
    exact .same hI (quiet_of_all rfl) rfl rfl (Kept.mine hown.2) Kept.same (by simp) rfl
  · cases h

/-! ## Stop -/

theorem owns_afterStop {dtor : Bool} :
    ∀ pc, afterStop dtor = some pc → ownsCall i tr sh pc := by
  intro pc hpc
  cases dtor with
  | false => cases hpc
  | true => cases hpc; trivial

/-- The compare-and-swap of a `Stop` that wins. -/
theorem stopping_keeps (hI : Lifecycle tr sh) (hrun : sh.state = .running) {call : Option CallPc}
    (hc : ∀ pc, call = some pc → ownsCall i (tr ++ [.stopping].map (i, ·))
      { sh with state := .stopping } pc) :
    CallKeeps i tr sh { sh := { sh with state := .stopping }, call, events := [.stopping] } := by
  have hran : Ran tr := hI.ran.2 (by simp [hrun])
  have hnew : ∀ {j}, (j, EventKind.stopping) ∈ tr ++ [EventKind.stopping].map (i, ·) → j = i := by
    intro j h
    rcases List.mem_append.1 h with h | h
    · rcases hI.stop h with hs | hs
      · rw [hs] at hrun; cases hrun
      · rw [hs] at hrun; cases hrun
    · exact (mem_tagged.1 h).1
  refine ⟨?_, hc, ?_, by simp⟩
  · refine ⟨?_, ?_, fun _ => .inl rfl, ?_, ?_, ?_, ?_⟩
    · exact iff_of_true hran.grow ⟨by simp, by simp⟩
    · intro j k c d h h'
      exact hI.once (mem_of_append h (by simp)) (mem_of_append h' (by simp))
    · exact fun h h' => (hnew h).trans (hnew h').symm
    · intro j t h
      obtain ⟨c, hc⟩ := hI.spawn (mem_of_append h (by simp))
      exact ⟨c, mem_grow hc⟩
    · intro j k t u h h'
      exact hI.spawnOnce (mem_of_append h (by simp)) (mem_of_append h' (by simp))
    · intro r h
      obtain ⟨j, hj⟩ := hI.tid h
      exact ⟨j, mem_grow hj⟩
  · refine ⟨Kept.same, Kept.same, fun j _ h => ?_, fun h => ?_, ?_, fun e h => ?_⟩
    · rw [h.1] at hrun; cases hrun
    · rw [h] at hrun; cases hrun
    · intro j t h; cases (List.mem_singleton.1 (mem_tagged.1 h).2)
    · exact (mem_tagged.1 h).1

theorem stopStep_keeps {dtor : Bool} {pc : StopPc} {ch : Choice} {r : CallResult}
    (hI : Lifecycle tr sh) (hown : ownsStop i tr sh pc)
    (h : stopStep i sh dtor pc ch = some r) : CallKeeps i tr sh r := by
  unfold stopStep at h
  split at h
  · -- cas
    split at h
    · rename_i hrun
      cases h
      refine stopping_keeps hI hrun ?_
      rintro _ ⟨⟩
      exact List.mem_append_right tr (List.mem_singleton.2 rfl)
    · cases h
      exact .same hI (quiet_of_all rfl) rfl rfl Kept.same Kept.same owns_afterStop rfl
  · -- fetch
    split at h
    · cases h
      exact .stopped hI (quiet_of_all rfl) (ran_of_stopping hI hown) rfl rfl rfl rfl
        owns_afterStop rfl
    · cases h
      exact .same hI quiet_nil rfl rfl Kept.same Kept.same
        (by rintro _ ⟨⟩; exact mem_grow hown) rfl
  · -- lock
    split at h
    · rename_i hfree
      cases h
      exact .same hI quiet_nil rfl rfl (Kept.free hfree) Kept.same
        (by rintro _ ⟨⟩; exact ⟨mem_grow hown, rfl⟩) rfl
    · cases h
  · -- check
    split at h
    · cases h
      exact .same hI quiet_nil rfl rfl (Kept.mine hown.2) Kept.same
        (by rintro _ ⟨⟩; exact ⟨fun _ => mem_grow hown.1, trivial⟩) rfl
    · cases h
      exact .same hI quiet_nil rfl rfl Kept.same Kept.same
        (by rintro _ ⟨⟩; exact ⟨mem_grow hown.1, hown.2⟩) rfl
  · -- send
    cases h
    exact .same hI (quiet_of_all rfl) rfl rfl Kept.same Kept.same
      (by rintro _ ⟨⟩; exact ⟨mem_grow hown.1, hown.2⟩) rfl
  · -- sent
    cases h
    exact .same hI quiet_nil rfl rfl (Kept.mine hown.2) Kept.same
      (by rintro _ ⟨⟩; exact mem_grow hown.1) rfl
  · cases h
    exact .same hI quiet_nil rfl rfl (Kept.mine hown.2) Kept.same
      (by rintro _ ⟨⟩; exact mem_grow hown.1) rfl
  · -- failed
    cases h
    refine .same hI quiet_nil rfl rfl Kept.same Kept.same ?_ rfl
    rintro _ ⟨⟩
    split
    · exact ⟨fun _ => mem_grow hown, trivial⟩
    · exact mem_grow hown
  · -- close
    cases h
    obtain ⟨hs, ht, hw, hd, hq⟩ := close_same sh
    exact .same hI hq hs ht (hw ▸ Kept.same) (hd ▸ Kept.same)
      (by rintro _ ⟨⟩; exact mem_grow hown) rfl
  · -- store
    cases h
    exact .stopped hI (quiet_of_all rfl) (ran_of_stopping hI hown) rfl rfl rfl rfl
      owns_afterStop rfl
  · -- self
    cases h
    refine .same hI quiet_nil rfl rfl Kept.same Kept.same ?_ rfl
    rintro _ ⟨⟩
    split
    · exact mem_grow hown
    · exact ⟨fun _ => mem_grow hown, trivial⟩
  · -- watchdog
    cases h
    refine ⟨hI.same (quiet_of_all rfl) rfl rfl, owns_afterStop,
      Leaves.quiet (quiet_of_all rfl) id id Kept.same Kept.same, ?_⟩
    rintro j t ⟨⟩
    refine ⟨?_, fun hr => absurd rfl hr⟩
    rintro _ ⟨⟩
    exact ⟨fun hw => absurd rfl hw, trivial⟩
  · -- finish
    cases h
    exact .stopped hI (quiet_of_all rfl) (ran_of_stopping hI hown) rfl rfl rfl rfl
      owns_afterStop rfl
  · cases h

/-! ## The wait -/

theorem owns_after {w : Waiter} (h : w ≠ .watchdog → (i, EventKind.stopping) ∈ tr) :
    ∀ pc, w.after.1 = some pc → ownsCall i tr sh pc := by
  intro pc hpc
  cases w with
  | watchdog => cases hpc
  | stop dtor stores =>
    cases stores with
    | false => exact owns_afterStop pc hpc
    | true => cases hpc; exact h (by simp)

theorem waitReturn_keeps {w : Waiter} (hI : Lifecycle tr sh)
    (hst : w ≠ .watchdog → (i, EventKind.stopping) ∈ tr) (hmu : Kept i sh.doneMu none) :
    CallKeeps i tr sh (waitReturn sh w) := by
  have hq : Quiet w.after.2 := by
    cases w with
    | watchdog => exact quiet_nil
    | stop dtor stores =>
      cases stores with
      | false => exact quiet_of_all rfl
      | true => exact quiet_nil
  exact .same hI hq rfl rfl Kept.same hmu (owns_after fun hw => mem_grow (hst hw)) rfl

theorem waitStep_keeps {w : Waiter} {pc : WaitPc} {ch : Choice} {r : CallResult}
    (hI : Lifecycle tr sh) (hown : ownsWait i tr sh w pc)
    (h : waitStep i sh w pc ch = some r) : CallKeeps i tr sh r := by
  obtain ⟨hst, hmu⟩ := hown
  have hst' : ∀ es, w ≠ .watchdog → (i, EventKind.stopping) ∈ tr ++ es :=
    fun _ hw => mem_grow (hst hw)
  unfold waitStep at h
  split at h
  · -- enter
    split at h
    · rename_i hfree
      cases h
      exact .same hI (quiet_of_all rfl) rfl rfl Kept.same (Kept.free hfree)
        (by rintro _ ⟨⟩; exact ⟨hst' _, rfl⟩) rfl
    · cases h
  · -- test
    split at h
    · cases h
      exact waitReturn_keeps hI hst (Kept.mine hmu)
    · cases h
      refine .same hI quiet_nil rfl rfl Kept.same (Kept.mine hmu) ?_ rfl
      rintro _ ⟨⟩
      cases sh.terminalReceived with
      | true => exact ⟨hst' _, trivial⟩
      | false => exact ⟨hst' _, trivial⟩
  · -- unbounded
    split at h
    · rename_i hfree
      split at h
      · cases h
        exact waitReturn_keeps hI hst (Kept.free hfree)
      · cases h
        exact .same hI quiet_nil rfl rfl Kept.same Kept.same
          (by rintro _ ⟨⟩; exact ⟨hst' _, trivial⟩) rfl
    · cases h
  · -- timed
    split at h
    · rename_i hfree
      split at h
      · split at h
        · cases h
          exact .same hI quiet_nil rfl rfl Kept.same (Kept.free hfree)
            (by rintro _ ⟨⟩; exact ⟨hst' _, rfl⟩) rfl
        · cases h
      · cases h
        exact .same hI quiet_nil rfl rfl Kept.same (Kept.free hfree)
          (by rintro _ ⟨⟩; exact ⟨hst' _, rfl⟩) rfl
    · cases h
  · -- timedOut
    split at h
    · cases h
      exact waitReturn_keeps hI hst (Kept.mine hmu)
    split at h
    · cases h
      exact .same hI quiet_nil rfl rfl Kept.same Kept.same
        (by rintro _ ⟨⟩; exact ⟨hst' _, hmu⟩) rfl
    · cases h
      exact .same hI (quiet_of_all rfl) rfl rfl Kept.same Kept.same
        (by rintro _ ⟨⟩; exact ⟨hst' _, hmu⟩) rfl
  · -- close
    cases h
    obtain ⟨hs, ht, hw, hd, hq⟩ := close_same sh
    exact .same hI hq hs ht (hw ▸ Kept.same) (hd ▸ Kept.same)
      (by rintro _ ⟨⟩; exact ⟨hst' _, hd.trans hmu⟩) rfl
  · -- grace
    cases h
    exact .same hI quiet_nil rfl rfl Kept.same (Kept.mine hmu)
      (by rintro _ ⟨⟩; exact ⟨hst' _, trivial⟩) rfl
  · -- graceEnd
    split at h
    · rename_i hfree
      cases h
      exact waitReturn_keeps hI hst (Kept.free hfree)
    · cases h
  · cases h

/-! ## All steps -/

theorem callStep_keeps {cfg : Config} {pc : CallPc} {ch : Choice} {r : CallResult}
    (hI : Lifecycle tr sh) (hown : ownsCall i tr sh pc)
    (h : callStep cfg i sh pc ch = some r) : CallKeeps i tr sh r := by
  unfold callStep at h
  split at h
  · exact startStep_keeps hI hown h
  · exact writeStep_keeps hI hown h
  · exact stopStep_keeps hI hown h
  · exact waitStep_keeps hI hown h
  · -- destroy
    cases h
    refine .same hI quiet_nil rfl rfl Kept.same Kept.same ?_ rfl
    rintro _ ⟨⟩
    split
    · trivial
    · trivial
  · -- join
    split at h
    · cases h
    · cases h
      exact .same hI (quiet_of_all rfl) rfl rfl Kept.same Kept.same (by simp) rfl
  · cases h

/-- The reader thread stores the stopped state and its thread id. -/
theorem readerStep_keeps {cfg : Config} {rest : List ReaderOp} {op : ReaderOp} {ch : Choice}
    {r : ReaderResult} (hI : Lifecycle tr sh) (hsp : ∃ j, (j, EventKind.spawned i) ∈ tr)
    (h : readerStep cfg i sh rest op ch = some r) :
    Lifecycle (tr ++ r.events.map (i, ·)) r.sh ∧ Leaves i tr sh (r.events.map (i, ·)) r.sh := by
  obtain ⟨k, hk⟩ := hsp
  obtain ⟨c, hc⟩ := hI.spawn hk
  have hran : Ran tr := ⟨k, c, hc⟩
  have same : ∀ {sh' ks}, Quiet ks → sh'.state = sh.state → sh'.readerTid = sh.readerTid →
      sh'.writeMu = sh.writeMu → Kept i sh.doneMu sh'.doneMu →
      Lifecycle (tr ++ ks.map (i, ·)) sh' ∧ Leaves i tr sh (ks.map (i, ·)) sh' :=
    fun hq hs ht hw hd => ⟨hI.same hq hs ht,
      .quiet hq (fun h => hs.trans h) (fun h => hs.trans h) (hw ▸ Kept.same) hd⟩
  unfold readerStep at h
  split at h
  · -- setTid
    cases h
    refine ⟨⟨(ran_append_noLandmark quiet_nil.noLandmark).trans hI.ran, ?_, ?_, ?_, ?_, ?_, ?_⟩,
      .quiet quiet_nil id id Kept.same Kept.same⟩
    · intro j j' d d' h h'
      exact hI.once (mem_of_append h List.not_mem_nil) (mem_of_append h' List.not_mem_nil)
    · exact fun h => hI.stop (mem_of_append h List.not_mem_nil)
    · intro j j' h h'
      exact hI.stopOnce (mem_of_append h List.not_mem_nil) (mem_of_append h' List.not_mem_nil)
    · intro j t h
      obtain ⟨d, hd⟩ := hI.spawn (mem_of_append h List.not_mem_nil)
      exact ⟨d, mem_grow hd⟩
    · intro j j' t u h h'
      exact hI.spawnOnce (mem_of_append h List.not_mem_nil) (mem_of_append h' List.not_mem_nil)
    · rintro _ ⟨⟩
      exact ⟨k, mem_grow hk⟩
  · -- callStart
    cases h
    exact same (quiet_of_all rfl) rfl rfl rfl Kept.same
  · -- call
    cases h
    exact same (quiet_of_all rfl) rfl rfl rfl Kept.same
  · -- inside
    cases h
    exact same (quiet_of_all rfl) rfl rfl rfl Kept.same
  · cases h
    exact same (quiet_of_all rfl) rfl rfl rfl Kept.same
  · -- fetch
    cases h
    exact same quiet_nil rfl rfl rfl Kept.same
  · -- read
    cases h
    exact same (quiet_of_all rfl) rfl rfl rfl Kept.same
  · -- checkStopped
    cases h
    exact same quiet_nil rfl rfl rfl Kept.same
  · -- checkStopping
    cases h
    exact same quiet_nil rfl rfl rfl Kept.same
  · -- storeSpeaker
    cases h
    exact same quiet_nil rfl rfl rfl Kept.same
  · -- finish
    split at h
    · cases h
      exact same quiet_nil rfl rfl rfl Kept.same
    · cases h
      exact ⟨hI.stopped quiet_nil hran rfl rfl, .quiet quiet_nil
        (fun h => absurd hran (not_ran_of_starting hI h)) (fun _ => rfl) Kept.same Kept.same⟩
  · -- close
    cases h
    obtain ⟨hs, ht, hw, hd, hq⟩ := close_same sh
    exact same hq hs ht hw (hd ▸ Kept.same)
  · -- mark
    split at h
    · cases h
      exact same (quiet_of_all rfl) rfl rfl rfl Kept.same
    · cases h
  · -- signalDone
    split at h
    · cases h
      exact same (quiet_of_all rfl) rfl rfl rfl Kept.same
    · cases h
  · cases h

end

theorem entry_owned {i : ℕ} {tr : List Event} {sh : Shared} (entry : Entry) :
    ownsCall i tr sh entry.pc := by
  cases entry with
  | start => trivial
  | write audio => trivial
  | stop => trivial
  | destroy => trivial

/-- **The threads of a session keep the state machine and the two mutexes.** -/
theorem ownership (cfg : Config) : RelyGuarantee (session cfg) Lifecycle Owns Leaves where
  stable hne hI hown hg := hown.stable hne hI hg
  step := by
    intro i tr sh t ch o hI hown ho
    rcases threadStep_cases ho with ⟨d, rfl⟩ | ⟨pc, r, hpc, hr, rfl⟩ | ⟨entry, -, -, rfl⟩ |
      ⟨op, rest, r, hcall, hops, hr, rfl⟩
    · have hq : Leaves i tr sh ([].map (i, ·)) { sh with now := sh.now + d } :=
        .quiet quiet_nil id id Kept.same Kept.same
      refine ⟨hI.same (i := i) quiet_nil rfl rfl, ?_, hq, by simp⟩
      refine ⟨fun pc hpc => ?_, fun hr => ?_⟩
      · have := hown.call pc hpc
        rw [List.append_nil]
        cases pc with
        | start pc => cases pc <;> exact this
        | write pc => cases pc <;> exact this
        | stop dtor pc => cases pc <;> exact this
        | wait w pc => cases pc <;> exact this
        | destroy => trivial
        | join => trivial
      · rw [List.append_nil]
        exact hown.reader hr
    · have hk := callStep_keeps hI (hown.call pc hpc) hr
      refine ⟨hk.inv, ⟨hk.call, fun hr => ?_⟩, hk.leaves, hk.spawned⟩
      obtain ⟨j, hj⟩ := hown.reader hr
      exact ⟨j, mem_grow hj⟩
    · have hq : Leaves i tr sh ([].map (i, ·)) sh := .quiet quiet_nil id id Kept.same Kept.same
      refine ⟨hI.same (i := i) quiet_nil rfl rfl, ⟨?_, fun hr => ?_⟩, hq, by simp⟩
      · rintro _ ⟨⟩
        exact entry_owned entry
      · rw [List.append_nil]
        exact hown.reader hr
    · have hsp : ∃ j, (j, EventKind.spawned i) ∈ tr := hown.reader (by rw [hops]; simp)
      obtain ⟨hinv, hg⟩ := readerStep_keeps hI hsp hr
      refine ⟨hinv, ⟨fun pc hpc => ?_, fun _ => ?_⟩, hg, by simp⟩
      · rw [hcall] at hpc; cases hpc
      · obtain ⟨j, hj⟩ := hsp
        exact ⟨j, mem_grow hj⟩

theorem lifecycle_initial (voiceId : Bytes) : Lifecycle [] (initial voiceId).shared where
  ran := iff_of_false (fun ⟨_, _, h⟩ => absurd h List.not_mem_nil) fun h => h.1 rfl
  once h := absurd h List.not_mem_nil
  stop h := absurd h List.not_mem_nil
  stopOnce h := absurd h List.not_mem_nil
  spawn h := absurd h List.not_mem_nil
  spawnOnce h := absurd h List.not_mem_nil
  tid h := nomatch h

theorem owns_initial (voiceId : Bytes) (i : ℕ) :
    Owns i [] (initial voiceId).shared ((initial voiceId).threads i) where
  call _ h := nomatch h
  reader h := absurd rfl h

end TrtcAsr.Speech
