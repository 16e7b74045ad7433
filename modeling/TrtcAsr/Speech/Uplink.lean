/-
  What a session sends: the frames that are handed to a connection, for every order of the
  steps of its threads.

  * `Permitted` says of each event what must have come before it; `Shape` is the form of what
    one connection is handed, and `shape_of_causal` derives it.
  * `Uplink` adds what the shared state says about the history, `sends` what a thread knows
    where it is about to send: under `write_mu` and with the running state, no end signal has
    been sent; only the `Stop` that won sends one.
  * `uplink_order`: the shape holds of every connection after every run.
-/
import Mathlib.Data.List.Induction
import TrtcAsr.Speech.Ownership

namespace TrtcAsr.Speech

/-! ## Histories -/

/-- The frames that connection `c` has been handed. -/
def frames (c : ℕ) (tr : List Event) : List UplinkFrame :=
  tr.filterMap fun e => match e.2 with
    | .sent d f => if d = c then some f else none
    | _ => none

/-- The connections that have been handed an end signal, one for each. -/
def ends (tr : List Event) : List ℕ :=
  tr.filterMap fun e => match e.2 with
    | .sent c .endSignal => some c
    | _ => none

/-- `audio* end?`. -/
def isBody : List UplinkFrame → Bool
  | [] => true
  | [.endSignal] => true
  | .audio _ :: fs => isBody fs
  | _ => false

/-- `audio* end?` on v2 and `start audio* end?` on v3, once anything has been sent. -/
def Shape : Version → List UplinkFrame → Bool
  | .v2, fs => isBody fs
  | .v3, [] => true
  | .v3, .start _ :: fs => isBody fs
  | .v3, _ => false

def Acked (c : ℕ) (tr : List Event) : Prop := ∃ j, (j, EventKind.acked c) ∈ tr

def NoEnd (tr : List Event) : Prop := ∀ j c, (j, EventKind.sent c .endSignal) ∉ tr

/-- What the events before it allow. -/
def Permitted (v : Version) (pre : List Event) : Event → Prop
  | (_, .sent c (.start _)) => v = .v3 ∧ frames c pre = []
  | (_, .sent c (.audio _)) => Running c pre ∧ NoEnd pre
  | (i, .sent c .endSignal) => Running c pre ∧ NoEnd pre ∧ (i, .stopping) ∈ pre
  | (_, .acked c) => frames c pre ≠ []
  | (_, .running c) => v = .v3 → Acked c pre
  | _ => True

theorem frames_append (c : ℕ) (tr es : List Event) :
    frames c (tr ++ es) = frames c tr ++ frames c es :=
  List.filterMap_append

theorem ends_append (tr es : List Event) : ends (tr ++ es) = ends tr ++ ends es :=
  List.filterMap_append

theorem mem_frames {c : ℕ} {f : UplinkFrame} {tr : List Event} :
    f ∈ frames c tr ↔ ∃ j, (j, EventKind.sent c f) ∈ tr := by
  unfold frames
  rw [List.mem_filterMap]
  constructor
  · rintro ⟨⟨j, k⟩, he, hk⟩
    cases k with
    | sent d g =>
      simp only at hk
      split at hk
      · rename_i hd
        cases hk
        exact ⟨j, hd ▸ he⟩
      · cases hk
    | _ => cases hk
  · rintro ⟨j, he⟩
    exact ⟨_, he, if_pos rfl⟩

theorem frames_ne_nil {c : ℕ} {tr es : List Event} (h : frames c tr ≠ []) :
    frames c (tr ++ es) ≠ [] := by
  rw [frames_append]
  exact List.append_ne_nil_of_left_ne_nil h _

theorem ends_eq_nil {tr : List Event} (h : NoEnd tr) : ends tr = [] := by
  refine List.filterMap_eq_nil_iff.2 ?_
  rintro ⟨j, k⟩ he
  cases k with
  | sent c f =>
    cases f with
    | endSignal => exact absurd he (h j c)
    | start text => rfl
    | audio data => rfl
  | _ => rfl

theorem Acked.grow {c : ℕ} {tr es : List Event} : Acked c tr → Acked c (tr ++ es) :=
  fun ⟨j, h⟩ => ⟨j, mem_grow h⟩

theorem isBody_snoc {fs : List UplinkFrame} {f : UplinkFrame} (h : isBody fs)
    (hend : .endSignal ∉ fs) (hf : isBody [f]) : isBody (fs ++ [f]) := by
  induction fs with
  | nil => exact hf
  | cons g fs ih =>
    cases g with
    | audio data => exact ih h fun hm => hend (List.mem_cons_of_mem _ hm)
    | endSignal => exact absurd (List.mem_cons_self ..) hend
    | start text => cases h

theorem acked_of_running {v : Version} {tr : List Event} {c : ℕ} (h : Causal (Permitted v) tr)
    (hrun : Running c tr) (hv : v = .v3) : Acked c tr := by
  obtain ⟨j, hj⟩ := hrun
  obtain ⟨pre, ⟨post, rfl⟩, hpre⟩ := h.mem hj
  exact (hpre hv).grow

/-- A permitted history has sent the start frame on a connection that runs. -/
theorem started_of_running {v : Version} {tr : List Event} {c : ℕ} (h : Causal (Permitted v) tr)
    (hrun : Running c tr) (hv : v = .v3) : frames c tr ≠ [] := by
  obtain ⟨j, hj⟩ := acked_of_running h hrun hv
  obtain ⟨pre, ⟨post, rfl⟩, hack⟩ := h.mem hj
  exact frames_ne_nil hack

/-- Audio and the end signal may follow what a running connection was handed before the end. -/
theorem shape_snoc {v : Version} {fs : List UplinkFrame} {f : UplinkFrame} (h : Shape v fs)
    (hstart : v = .v3 → fs ≠ []) (hend : .endSignal ∉ fs) (hf : isBody [f]) :
    Shape v (fs ++ [f]) := by
  cases v with
  | v2 => exact isBody_snoc h hend hf
  | v3 =>
    cases fs with
    | nil => exact absurd rfl (hstart rfl)
    | cons g fs =>
      cases g with
      | start text => exact isBody_snoc h (fun hm => hend (List.mem_cons_of_mem _ hm)) hf
      | audio data => cases h
      | endSignal => cases h

/-- **The form of what a connection is handed in a permitted history.** -/
theorem shape_of_causal {v : Version} {tr : List Event} (h : Causal (Permitted v) tr) (c : ℕ) :
    Shape v (frames c tr) := by
  induction tr using List.reverseRecOn with
  | nil => cases v <;> rfl
  | append_singleton tr e ih =>
    have hsh := ih h.of_append
    have he := h.last
    rw [frames_append]
    obtain ⟨j, k⟩ := e
    cases k with
    | sent d f =>
      by_cases hd : d = c
      swap
      · have hnil : frames c [(j, .sent d f)] = [] := by simp [frames, hd]
        rwa [hnil, List.append_nil]
      subst hd
      have hone : frames d [(j, .sent d f)] = [f] := by simp [frames]
      rw [hone]
      have hnoend : NoEnd tr → .endSignal ∉ frames d tr := by
        intro hno hm
        obtain ⟨k, hk⟩ := mem_frames.1 hm
        exact hno k d hk
      cases f with
      | start text =>
        obtain ⟨rfl, hnil⟩ := he
        rw [hnil]
        rfl
      | audio data =>
        exact shape_snoc hsh (started_of_running h.of_append he.1) (hnoend he.2) rfl
      | endSignal =>
        exact shape_snoc hsh (started_of_running h.of_append he.1) (hnoend he.2.1) rfl
    | _ => exact (List.append_nil (frames c tr)).symm ▸ hsh

theorem ends_of_causal {v : Version} {tr : List Event} (h : Causal (Permitted v) tr) :
    (ends tr).length ≤ 1 := by
  induction tr using List.reverseRecOn with
  | nil => exact Nat.zero_le 1
  | append_singleton tr e ih =>
    have hlen := ih h.of_append
    have he := h.last
    rw [ends_append]
    obtain ⟨j, k⟩ := e
    cases k with
    | sent d f =>
      cases f with
      | endSignal => rw [ends_eq_nil he.2.1]; exact le_refl 1
      | start text => exact (List.append_nil (ends tr)).symm ▸ hlen
      | audio data => exact (List.append_nil (ends tr)).symm ▸ hlen
    | _ => exact (List.append_nil (ends tr)).symm ▸ hlen

/-! ## The invariant -/

structure Uplink (v : Version) (tr : List Event) (sh : Shared) : Prop where
  causal : Causal (Permitted v) tr
  sent : ∀ {j c f}, (j, EventKind.sent c f) ∈ tr → c < sh.dialed
  running : ∀ {c}, Running c tr → c < sh.dialed
  conn : Ran tr → ∀ {c}, sh.conn = some c → Running c tr

/-- The connection is the one that this `Start` has dialed, and nothing took its place. -/
def Fresh (sh : Shared) (c : ℕ) : Prop :=
  c < sh.dialed ∧ ∀ d, sh.conn = some d → d = c

def sendsStart (v : Version) (tr : List Event) (sh : Shared) : StartPc → Prop
  | .send c _ => v = .v3 ∧ frames c tr = [] ∧ c < sh.dialed
  | .sent c => frames c tr ≠ [] ∧ c < sh.dialed
  | .publish c => (v = .v3 → frames c tr ≠ []) ∧ c < sh.dialed
  | .ack c _ => frames c tr ≠ [] ∧ Fresh sh c
  | .run c => (v = .v3 → Acked c tr) ∧ Fresh sh c
  | _ => True

def sendsWrite (tr : List Event) : WritePc → Prop
  | .lock c _ | .recheck c _ => Running c tr
  | .send c _ => Running c tr ∧ NoEnd tr
  | _ => True

def sendsStop (tr : List Event) : StopPc → Prop
  | .fetch => NoEnd tr
  | .lock c | .check c | .send c => Running c tr ∧ NoEnd tr
  | _ => True

/-- What a thread that sends knows at the point where it is. -/
def sendsCall (v : Version) (tr : List Event) (sh : Shared) : CallPc → Prop
  | .start pc => sendsStart v tr sh pc
  | .write pc => sendsWrite tr pc
  | .stop _ pc => sendsStop tr pc
  | _ => True

def sends (v : Version) (_ : ℕ) (tr : List Event) (sh : Shared) (t : Thread) : Prop :=
  ∀ pc, t.call = some pc → sendsCall v tr sh pc

/-- What a step of thread `i` does to what is sent. -/
structure SendsOnly (i : ℕ) (tr : List Event) (sh : Shared) (es : List Event) (sh' : Shared) :
    Prop where
  dialed : sh.dialed ≤ sh'.dialed
  conn : ∀ {c}, sh'.conn = some c → sh.conn = some c ∨ Starting i tr sh
  sent : ∀ {j c f}, (j, EventKind.sent c f) ∈ es → Starting i tr sh ∨ Ran tr
  ended : ∀ {j c}, (j, EventKind.sent c .endSignal) ∈ es →
    (i, EventKind.stopping) ∈ tr ∧ sh.writeMu = some i

/-! ## Stability -/

theorem NoEnd.append {tr es : List Event} (h : NoEnd tr) (hes : NoEnd es) : NoEnd (tr ++ es) :=
  fun j c hm => (List.mem_append.1 hm).elim (h j c) (hes j c)

theorem sends.stable {v : Version} {i j : ℕ} {tr es : List Event} {sh sh' : Shared} {t : Thread}
    (hne : j ≠ i) (hI : Lifecycle tr sh) (hown : Owns j tr sh t) (h : sends v j tr sh t)
    (hg : SendsOnly i tr sh es sh') : sends v j (tr ++ es) sh' t := by
  intro pc hpc
  have hc := h pc hpc
  have ho := hown.call pc hpc
  cases pc with
  | start pc =>
    have alone : Starting j tr sh → ¬ Starting i tr sh ∧ ¬ Ran tr := by
      refine fun hs => ⟨fun hi => ?_, not_ran_of_starting hI hs.1⟩
      exact hne (Option.some.inj (hs.2.symm.trans hi.2))
    have same : ∀ c, Starting j tr sh → frames c tr = [] → frames c (tr ++ es) = [] := by
      intro c hs hnil
      refine List.eq_nil_iff_forall_not_mem.2 fun f hf => ?_
      rw [frames_append, hnil] at hf
      obtain ⟨k, hk⟩ := mem_frames.1 hf
      exact (hg.sent hk).elim (alone hs).1 (alone hs).2
    have fresh : ∀ c, Starting j tr sh → Fresh sh c → Fresh sh' c := by
      intro c hs hf
      refine ⟨lt_of_lt_of_le hf.1 hg.dialed, fun d hd => ?_⟩
      exact (hg.conn hd).elim (hf.2 d) fun hi => absurd hi (alone hs).1
    cases pc with
    | send c text => exact ⟨hc.1, same c ho hc.2.1, lt_of_lt_of_le hc.2.2 hg.dialed⟩
    | sent c => exact ⟨frames_ne_nil hc.1, lt_of_lt_of_le hc.2 hg.dialed⟩
    | publish c => exact ⟨fun hv => frames_ne_nil (hc.1 hv), lt_of_lt_of_le hc.2 hg.dialed⟩
    | ack c deadline => exact ⟨frames_ne_nil hc.1, fresh c ho hc.2⟩
    | run c => exact ⟨fun hv => (hc.1 hv).grow, fresh c ho hc.2⟩
    | _ => trivial
  | write pc =>
    cases pc with
    | lock c data => exact Running.grow hc
    | recheck c data => exact Running.grow hc
    | send c data =>
      -- the end signal is only sent under `write_mu`, and `j` holds it
      refine ⟨hc.1.grow, hc.2.append fun k d hk => hne ?_⟩
      exact Option.some.inj (ho.2.symm.trans (hg.ended hk).2)
    | _ => trivial
  | stop dtor pc =>
    have noEnd : (j, EventKind.stopping) ∈ tr → NoEnd tr → NoEnd (tr ++ es) := by
      -- only one `Stop` ever wins
      refine fun hst hno => hno.append fun k d hk => hne ?_
      exact hI.stopOnce hst (hg.ended hk).1
    cases pc with
    | fetch => exact noEnd ho hc
    | lock c => exact ⟨hc.1.grow, noEnd ho hc.2⟩
    | check c => exact ⟨hc.1.grow, noEnd ho.1 hc.2⟩
    | send c => exact ⟨hc.1.grow, noEnd ho.1 hc.2⟩
    | _ => trivial
  | _ => trivial

/-! ## Steps that send nothing -/

/-- The events that the invariant is about. -/
def EventKind.uplink : EventKind → Bool
  | sent _ _ | acked _ | running _ => true
  | _ => false

/-- A step that neither sends nor brings a connection. -/
structure Bystands (sh sh' : Shared) (ks : List EventKind) : Prop where
  dialed : sh'.dialed = sh.dialed
  conn : sh'.conn = sh.conn ∨ sh'.conn = none
  quiet : ∀ k ∈ ks, k.uplink = false

section

variable {v : Version} {i : ℕ} {tr : List Event} {sh sh' : Shared} {ks : List EventKind}

theorem Bystands.mem (h : Bystands sh sh' ks) {j : ℕ} {k : EventKind} (hk : k.uplink = true) :
    (j, k) ∈ tr ++ ks.map (i, ·) ↔ (j, k) ∈ tr := by
  rw [List.mem_append, or_iff_left]
  intro hm
  rw [h.quiet k (mem_tagged.1 hm).2] at hk
  cases hk

theorem Bystands.conn_of (h : Bystands sh sh' ks) {c : ℕ} (hc : sh'.conn = some c) :
    sh.conn = some c := by
  rcases h.conn with heq | hnone
  · rw [← heq, hc]
  · rw [hnone] at hc; cases hc

theorem Bystands.noEnd (h : Bystands sh sh' ks) (hno : NoEnd tr) : NoEnd (tr ++ ks.map (i, ·)) :=
  fun j c hm => hno j c ((h.mem rfl).1 hm)

theorem Uplink.bystands (hU : Uplink v tr sh) (h : Bystands sh sh' ks) :
    Uplink v (tr ++ ks.map (i, ·)) sh' where
  causal := by
    refine hU.causal.append fun mid e post heq => ?_
    obtain ⟨j, k⟩ := e
    have hk := h.quiet k (mem_tagged.1 (heq ▸ List.mem_append_right mid (List.mem_cons_self ..))).2
    cases k with
    | sent c f => cases hk
    | acked c => cases hk
    | running c => cases hk
    | _ => trivial
  sent hm := h.dialed ▸ hU.sent ((h.mem rfl).1 hm)
  running := fun ⟨j, hm⟩ => h.dialed ▸ hU.running ⟨j, (h.mem rfl).1 hm⟩
  conn := by
    rintro ⟨j, d, hm⟩ c hc
    exact (hU.conn ⟨j, d, (h.mem rfl).1 hm⟩ (h.conn_of hc)).grow

theorem Bystands.sendsOnly (h : Bystands sh sh' ks) : SendsOnly i tr sh (ks.map (i, ·)) sh' where
  dialed := le_of_eq h.dialed.symm
  conn hc := .inl (h.conn_of hc)
  sent hm := Bool.noConfusion (h.quiet _ (mem_tagged.1 hm).2)
  ended hm := Bool.noConfusion (h.quiet _ (mem_tagged.1 hm).2)

/-- What a step of a call owes to the invariant, to its thread and to the others. -/
structure CallSends (v : Version) (i : ℕ) (tr : List Event) (sh : Shared) (r : CallResult) :
    Prop where
  inv : Uplink v (tr ++ r.events.map (i, ·)) r.sh
  call : ∀ pc, r.call = some pc → sendsCall v (tr ++ r.events.map (i, ·)) r.sh pc
  sends : SendsOnly i tr sh (r.events.map (i, ·)) r.sh

theorem CallSends.bystands {r : CallResult} (hU : Uplink v tr sh) (hb : Bystands sh r.sh r.events)
    (hc : ∀ pc, r.call = some pc → sendsCall v (tr ++ r.events.map (i, ·)) r.sh pc) :
    CallSends v i tr sh r :=
  ⟨hU.bystands hb, hc, hb.sendsOnly⟩

/-- The events of a step can be checked one by one. -/
theorem bystands_of (hd : sh'.dialed = sh.dialed) (hc : sh'.conn = sh.conn)
    (h : ks.all fun k => !k.uplink) : Bystands sh sh' ks :=
  ⟨hd, .inl hc, fun k hk => by simpa using List.all_eq_true.1 h k hk⟩

theorem bystands_close (sh : Shared) : Bystands sh sh.close.1 sh.close.2 := by
  unfold Shared.close
  cases sh.conn with
  | none => exact bystands_of rfl rfl rfl
  | some c => exact ⟨rfl, .inr rfl, by simp [EventKind.uplink]⟩

/-! ## Steps that send -/

/-- A step with a permitted event other than that of the running state. -/
theorem Uplink.emit (hU : Uplink v tr sh) {k : EventKind} (hp : Permitted v tr (i, k))
    (hsent : ∀ c f, k = .sent c f → c < sh.dialed) (hrun : ∀ c, k ≠ .running c)
    (hd : sh'.dialed = sh.dialed) (hc : sh'.conn = sh.conn) :
    Uplink v (tr ++ [k].map (i, ·)) sh' where
  causal := hU.causal.snoc hp
  sent hm := by
    rw [hd]
    rcases List.mem_append.1 hm with hm | hm
    · exact hU.sent hm
    · exact hsent _ _ (List.mem_singleton.1 (mem_tagged.1 hm).2).symm
  running := fun ⟨j, hm⟩ =>
    hd ▸ hU.running ⟨j, mem_of_append hm fun h => hrun _ (List.mem_singleton.1 h).symm⟩
  conn := by
    rintro ⟨j, d, hm⟩ c hconn
    have hold := mem_of_append hm fun h => hrun _ (List.mem_singleton.1 h).symm
    exact (hU.conn ⟨j, d, hold⟩ (hc ▸ hconn)).grow

/-- Audio, or the end signal, on a running connection before any end signal. -/
theorem CallSends.send (hU : Uplink v tr sh) {c : ℕ} {f : UplinkFrame} (hrun : Running c tr)
    (hno : NoEnd tr) (hf : isBody [f])
    (hend : f = .endSignal → (i, EventKind.stopping) ∈ tr ∧ sh.writeMu = some i) {pc : CallPc}
    (hpc : ∀ tr', sendsCall v tr' sh pc) :
    CallSends v i tr sh { sh, call := some pc, events := [.sent c f] } := by
  refine ⟨hU.emit ?_ ?_ (by simp) rfl rfl, ?_, ⟨le_refl _, .inl, fun _ => .inr hrun.ran, ?_⟩⟩
  · cases f with
    | start text => cases hf
    | audio data => exact ⟨hrun, hno⟩
    | endSignal => exact ⟨hrun, hno, (hend rfl).1⟩
  · rintro _ _ ⟨⟩
    exact hU.running hrun
  · rintro _ ⟨⟩
    exact hpc _
  · intro j d hm
    cases List.mem_singleton.1 (mem_tagged.1 hm).2
    exact hend rfl

/-! ## Start -/

theorem dial_sends (hU : Uplink v tr sh) {voiceId : Bytes} {pc : StartPc}
    (hpc : sendsStart v tr { sh with voiceId, dialed := sh.dialed + 1 } pc) :
    CallSends v i tr sh { sh := { sh with voiceId, dialed := sh.dialed + 1 }
                          call := some (.start pc) } := by
  refine ⟨?_, ?_, ⟨Nat.le_succ _, .inl, fun h => absurd h List.not_mem_nil,
    fun h => absurd h List.not_mem_nil⟩⟩
  · rw [List.map_nil, List.append_nil]
    exact ⟨hU.causal, fun h => Nat.lt_succ_of_lt (hU.sent h),
      fun h => Nat.lt_succ_of_lt (hU.running h), hU.conn⟩
  · rintro _ ⟨⟩
    rw [List.map_nil, List.append_nil]
    exact hpc

theorem startFrame_sends (hU : Uplink v tr sh) (hs : Starting i tr sh) {c : ℕ} {text : Bytes}
    (hc : sendsStart v tr sh (.send c text)) :
    CallSends v i tr sh
      { sh, call := some (.start (.sent c)), events := [.sent c (.start text)] } := by
  obtain ⟨hv, hnil, hlt⟩ := hc
  refine ⟨hU.emit ⟨hv, hnil⟩ ?_ (by simp) rfl rfl, ?_, ⟨le_refl _, .inl, fun _ => .inl hs, ?_⟩⟩
  · rintro _ _ ⟨⟩
    exact hlt
  · rintro _ ⟨⟩
    refine ⟨?_, hlt⟩
    rw [frames_append]
    exact List.append_ne_nil_of_right_ne_nil _ (by simp [frames])
  · intro j d hm
    cases List.mem_singleton.1 (mem_tagged.1 hm).2

theorem publish_sends (hI : Lifecycle tr sh) (hU : Uplink v tr sh) (hs : Starting i tr sh) {c : ℕ}
    {pc : StartPc} (hpc : sendsStart v tr { sh with conn := some c } pc) :
    CallSends v i tr sh { sh := { sh with conn := some c }, call := some (.start pc) } := by
  refine ⟨?_, ?_, ⟨le_refl _, fun _ => .inr hs, fun h => absurd h List.not_mem_nil,
    fun h => absurd h List.not_mem_nil⟩⟩
  · rw [List.map_nil, List.append_nil]
    exact ⟨hU.causal, hU.sent, hU.running,
      fun hran => absurd hran (not_ran_of_starting hI hs.1)⟩
  · rintro _ ⟨⟩
    rw [List.map_nil, List.append_nil]
    exact hpc

theorem run_sends (hI : Lifecycle tr sh) (hU : Uplink v tr sh) (hs : Starting i tr sh) {c : ℕ}
    (hc : sendsStart v tr sh (.run c)) :
    CallSends v i tr sh { sh := { sh with state := .running }, call := some (.start .timeout)
                          events := [.running c] } := by
  obtain ⟨hack, hlt, hconn⟩ := hc
  have hrun : ∀ {d}, Running d (tr ++ [EventKind.running c].map (i, ·)) → d = c := by
    rintro d ⟨j, hm⟩
    rcases List.mem_append.1 hm with hm | hm
    · exact absurd ⟨j, d, hm⟩ (not_ran_of_starting hI hs.1)
    · cases List.mem_singleton.1 (mem_tagged.1 hm).2
      rfl
  refine ⟨⟨hU.causal.snoc hack, ?_, ?_, ?_⟩, by rintro _ ⟨⟩; trivial,
    ⟨le_refl _, .inl, fun _ => .inl hs, ?_⟩⟩
  · exact fun hm => hU.sent (mem_of_append hm (by simp))
  · exact fun hr => hrun hr ▸ hlt
  · intro _ d hd
    rw [hconn d hd]
    exact ⟨i, List.mem_append_right tr (mem_tagged.2 ⟨rfl, List.mem_singleton.2 rfl⟩)⟩
  · intro j d hm
    cases List.mem_singleton.1 (mem_tagged.1 hm).2

theorem startStep_sends {cfg : Config} {pc : StartPc} {ch : Choice} {r : CallResult}
    (hI : Lifecycle tr sh) (hU : Uplink cfg.version tr sh) (hown : ownsStart i tr sh pc)
    (hc : sendsStart cfg.version tr sh pc) (h : startStep cfg sh pc ch = some r) :
    CallSends cfg.version i tr sh r := by
  unfold startStep at h
  split at h
  · -- cas
    split at h
    · cases h
      exact .bystands hU (bystands_of rfl rfl rfl) (by rintro _ ⟨⟩; trivial)
    · cases h
      exact .bystands hU (bystands_of rfl rfl rfl) (by simp)
  · -- validate
    cases h
    exact .bystands hU (bystands_of rfl rfl rfl) (by rintro _ ⟨⟩; trivial)
  · cases h
    exact .bystands hU (bystands_of rfl rfl rfl) (by rintro _ ⟨⟩; trivial)
  · -- connect
    cases h
    exact .bystands hU (bystands_of rfl rfl rfl) (by rintro _ ⟨⟩; trivial)
  · cases h
    refine dial_sends hU ?_
    cases cfg.version with
    | v2 => exact ⟨by simp, Nat.lt_succ_self _⟩
    | v3 =>
      -- no frame has been handed to a connection that was not dialed
      refine ⟨rfl, List.eq_nil_iff_forall_not_mem.2 fun f hf => ?_, Nat.lt_succ_self _⟩
      obtain ⟨j, hj⟩ := mem_frames.1 hf
      exact absurd (hU.sent hj) (lt_irrefl _)
  · -- send
    cases h
    exact startFrame_sends hU hown hc
  · -- sent
    cases h
    refine .bystands hU (bystands_of rfl rfl rfl) ?_
    rintro _ ⟨⟩
    exact ⟨fun _ => frames_ne_nil hc.1, hc.2⟩
  · cases h
    exact .bystands hU (bystands_of rfl rfl rfl) (by rintro _ ⟨⟩; trivial)
  · -- drop
    cases h
    exact .bystands hU (bystands_of rfl rfl rfl) (by rintro _ ⟨⟩; trivial)
  · -- publish
    cases h
    refine publish_sends hI hU hown ?_
    have fresh : ∀ c d : ℕ, some c = some d → d = c := fun _ _ h => (Option.some.inj h).symm
    cases hv : cfg.version with
    | v2 => exact ⟨by simp, hc.2, fresh _⟩
    | v3 => exact ⟨hc.1 hv, hc.2, fresh _⟩
  · -- ack
    cases h
    refine .bystands hU (bystands_of rfl rfl rfl) ?_
    rintro _ ⟨⟩
    split
    · trivial
    · exact ⟨frames_ne_nil hc.1, hc.2⟩
  · cases h
    exact .bystands hU (bystands_of rfl rfl rfl) (by rintro _ ⟨⟩; trivial)
  · split at h
    · cases h
      exact .bystands hU (bystands_of rfl rfl rfl) (by rintro _ ⟨⟩; trivial)
    split at h
    · cases h
      exact .bystands hU (bystands_of rfl rfl rfl)
        (by rintro _ ⟨⟩; exact ⟨frames_ne_nil hc.1, hc.2⟩)
    split at h
    · cases h
      exact .bystands hU (bystands_of rfl rfl rfl) (by rintro _ ⟨⟩; trivial)
    · cases h
      exact .bystands hU (bystands_of rfl rfl rfl) (by rintro _ ⟨⟩; trivial)
    · cases h
      refine ⟨hU.emit hc.1 (by simp) (by simp) rfl rfl, ?_, ⟨le_refl _, .inl, ?_, ?_⟩⟩
      · rintro _ ⟨⟩
        exact ⟨fun _ => ⟨i, List.mem_append_right tr (List.mem_singleton.2 rfl)⟩, hc.2⟩
      · intro j d f hm
        cases List.mem_singleton.1 (mem_tagged.1 hm).2
      · intro j d hm
        cases List.mem_singleton.1 (mem_tagged.1 hm).2
  · -- close
    cases h
    exact .bystands hU (bystands_close sh) (by rintro _ ⟨⟩; trivial)
  · -- fail
    cases h
    exact .bystands hU (bystands_of rfl rfl rfl) (by simp)
  · -- run
    cases h
    exact run_sends hI hU hown hc
  · -- timeout
    cases h
    exact .bystands hU (bystands_of rfl rfl rfl) (by rintro _ ⟨⟩; trivial)
  · -- spawn
    cases h
    exact .bystands hU (bystands_of rfl rfl rfl) (by simp)
  · cases h

/-! ## Write -/

/-- In the running state no end signal has been sent. -/
theorem Uplink.noEnd (hI : Lifecycle tr sh) (hU : Uplink v tr sh) (h : sh.state = .running) :
    NoEnd tr := by
  intro j c hm
  obtain ⟨pre, hpre, -, -, hst⟩ := hU.causal.mem hm
  rcases hI.stop (hpre.subset hst) with hs | hs
  · rw [hs] at h; cases h
  · rw [hs] at h; cases h

theorem writeStep_sends {cfg : Config} {pc : WritePc} {ch : Choice} {r : CallResult}
    (hI : Lifecycle tr sh) (hU : Uplink v tr sh) (hown : ownsWrite i tr sh pc)
    (hc : sendsWrite tr pc) (h : writeStep cfg i sh pc ch = some r) : CallSends v i tr sh r := by
  unfold writeStep at h
  split at h
  · -- args
    split at h
    · cases h
      exact .bystands hU (bystands_of rfl rfl rfl) (by simp)
    · cases h
      exact .bystands hU (bystands_of rfl rfl rfl) (by rintro _ ⟨⟩; trivial)
  · -- check
    split at h
    · cases h
      exact .bystands hU (bystands_of rfl rfl rfl) (by rintro _ ⟨⟩; trivial)
    · cases h
      exact .bystands hU (bystands_of rfl rfl rfl) (by simp)
  · -- fetch
    split at h
    · cases h
      exact .bystands hU (bystands_of rfl rfl rfl) (by simp)
    · rename_i c hconn
      cases h
      exact .bystands hU (bystands_of rfl rfl rfl)
        (by rintro _ ⟨⟩; exact (hU.conn hown hconn).grow)
  · -- lock
    split at h
    · cases h
      exact .bystands hU (bystands_of rfl rfl rfl) (by rintro _ ⟨⟩; exact Running.grow hc)
    · cases h
  · -- recheck
    split at h
    · rename_i hrun
      cases h
      refine .bystands hU (bystands_of rfl rfl rfl) ?_
      rintro _ ⟨⟩
      exact ⟨Running.grow hc, (hU.noEnd hI hrun).append fun _ _ => List.not_mem_nil⟩
    · cases h
      exact .bystands hU (bystands_of rfl rfl rfl) (by simp)
  · -- send
    cases h
    refine .send hU hc.1 hc.2 rfl ?_ fun _ => ?_
    · nofun
    · trivial
  · -- sent
    cases h
    exact .bystands hU (bystands_of rfl rfl rfl) (by simp)
  · cases h
    exact .bystands hU (bystands_of rfl rfl rfl) (by simp)
  · cases h

/-! ## Stop -/

theorem sends_afterStop {dtor : Bool} :
    ∀ pc, afterStop dtor = some pc → sendsCall v tr sh pc := by
  intro pc hpc
  cases dtor with
  | false => cases hpc
  | true => cases hpc; trivial

theorem stopStep_sends {dtor : Bool} {pc : StopPc} {ch : Choice} {r : CallResult}
    (hI : Lifecycle tr sh) (hU : Uplink v tr sh) (hown : ownsStop i tr sh pc)
    (hc : sendsStop tr pc) (h : stopStep i sh dtor pc ch = some r) : CallSends v i tr sh r := by
  have quiet : ∀ {ks : List EventKind}, (ks.all fun k => !k.uplink) → NoEnd tr →
      NoEnd (tr ++ ks.map (i, ·)) := by
    intro ks hks
    have hb : Bystands sh sh ks := bystands_of rfl rfl hks
    exact hb.noEnd
  unfold stopStep at h
  split at h
  · -- cas
    split at h
    · rename_i hrun
      cases h
      refine .bystands hU (bystands_of rfl rfl rfl) ?_
      rintro _ ⟨⟩
      exact quiet rfl (hU.noEnd hI hrun)
    · cases h
      exact .bystands hU (bystands_of rfl rfl rfl) sends_afterStop
  · -- fetch
    split at h
    · cases h
      exact .bystands hU (bystands_of rfl rfl rfl) sends_afterStop
    · rename_i c hconn
      cases h
      refine .bystands hU (bystands_of rfl rfl rfl) ?_
      rintro _ ⟨⟩
      exact ⟨(hU.conn (ran_of_stopping hI hown) hconn).grow, quiet rfl hc⟩
  · -- lock
    split at h
    · cases h
      exact .bystands hU (bystands_of rfl rfl rfl)
        (by rintro _ ⟨⟩; exact ⟨hc.1.grow, quiet rfl hc.2⟩)
    · cases h
  · -- check
    split at h
    · cases h
      exact .bystands hU (bystands_of rfl rfl rfl) (by rintro _ ⟨⟩; trivial)
    · cases h
      exact .bystands hU (bystands_of rfl rfl rfl)
        (by rintro _ ⟨⟩; exact ⟨hc.1.grow, quiet rfl hc.2⟩)
  · -- send
    cases h
    exact .send hU hc.1 hc.2 rfl (fun _ => hown) fun _ => trivial
  · -- sent
    cases h
    exact .bystands hU (bystands_of rfl rfl rfl) (by rintro _ ⟨⟩; trivial)
  · cases h
    exact .bystands hU (bystands_of rfl rfl rfl) (by rintro _ ⟨⟩; trivial)
  · -- failed
    cases h
    refine .bystands hU (bystands_of rfl rfl rfl) ?_
    rintro _ ⟨⟩
    split
    · trivial
    · trivial
  · -- close
    cases h
    exact .bystands hU (bystands_close sh) (by rintro _ ⟨⟩; trivial)
  · -- store
    cases h
    exact .bystands hU (bystands_of rfl rfl rfl) sends_afterStop
  · -- self
    cases h
    refine .bystands hU (bystands_of rfl rfl rfl) ?_
    rintro _ ⟨⟩
    split
    · trivial
    · trivial
  · -- watchdog
    cases h
    exact .bystands hU (bystands_of rfl rfl rfl) sends_afterStop
  · -- finish
    cases h
    exact .bystands hU (bystands_of rfl rfl rfl) sends_afterStop
  · cases h

/-! ## The other steps -/

theorem waitStep_bystands {w : Waiter} {pc : WaitPc} {ch : Choice} {r : CallResult}
    (h : waitStep i sh w pc ch = some r) : Bystands sh r.sh r.events := by
  have after : w.after.2.all fun k => !k.uplink := by
    cases w with
    | watchdog => rfl
    | stop dtor stores => cases stores <;> rfl
  unfold waitStep waitReturn at h
  repeat' split at h
  all_goals cases h
  all_goals first
    | exact bystands_of rfl rfl rfl
    | exact bystands_of rfl rfl after
    | exact bystands_close sh

/-- A wait goes on waiting, or to what follows it. -/
theorem waitStep_sends {w : Waiter} {pc : WaitPc} {ch : Choice} {r : CallResult}
    (hU : Uplink v tr sh) (h : waitStep i sh w pc ch = some r) : CallSends v i tr sh r := by
  have after : ∀ {tr' sh'} pc, w.after.1 = some pc → sendsCall v tr' sh' pc := by
    intro tr' sh' pc hpc
    cases w with
    | watchdog => cases hpc
    | stop dtor stores =>
      cases stores with
      | false => exact sends_afterStop pc hpc
      | true => cases hpc; trivial
  refine .bystands hU (waitStep_bystands h) fun pc' hpc => ?_
  unfold waitStep waitReturn at h
  repeat' split at h
  all_goals cases h
  all_goals first
    | exact after pc' hpc
    | cases hpc; trivial

theorem callStep_sends {cfg : Config} {pc : CallPc} {ch : Choice} {r : CallResult}
    (hI : Lifecycle tr sh) (hU : Uplink cfg.version tr sh) (hown : ownsCall i tr sh pc)
    (hc : sendsCall cfg.version tr sh pc) (h : callStep cfg i sh pc ch = some r) :
    CallSends cfg.version i tr sh r := by
  unfold callStep at h
  split at h
  · exact startStep_sends hI hU hown hc h
  · exact writeStep_sends hI hU hown hc h
  · exact stopStep_sends hI hU hown hc h
  · exact waitStep_sends hU h
  · -- destroy
    cases h
    refine .bystands hU (bystands_of rfl rfl rfl) ?_
    rintro _ ⟨⟩
    split
    · trivial
    · trivial
  · -- join
    split at h
    · cases h
    · cases h
      exact .bystands hU (bystands_of rfl rfl rfl) (by simp)
  · cases h

theorem readerStep_bystands {cfg : Config} {rest : List ReaderOp} {op : ReaderOp} {ch : Choice}
    {r : ReaderResult} (h : readerStep cfg i sh rest op ch = some r) :
    Bystands sh r.sh r.events := by
  unfold readerStep at h
  repeat' split at h
  all_goals cases h
  all_goals first
    | exact bystands_of rfl rfl rfl
    | exact bystands_close sh

end

/-! ## The order of the uplink -/

/-- **The threads of a session keep the order of what is sent.** -/
theorem uplink (cfg : Config) :
    RelyGuarantee (session cfg) (fun tr sh => Lifecycle tr sh ∧ Uplink cfg.version tr sh)
      (fun i tr sh t => Owns i tr sh t ∧ sends cfg.version i tr sh t)
      (fun i tr sh es sh' => Leaves i tr sh es sh' ∧ SendsOnly i tr sh es sh') := by
  refine (ownership cfg).extend ?_ ?_
  · intro i tr sh t ch o hI hown hk hU hs ho
    rcases threadStep_cases ho with ⟨d, rfl⟩ | ⟨pc, r, hpc, hr, rfl⟩ | ⟨entry, -, -, rfl⟩ |
      ⟨op, rest, r, hcall, -, hr, rfl⟩
    · have hb : Bystands sh { sh with now := sh.now + d } [] := bystands_of rfl rfl rfl
      refine ⟨hU.bystands (i := i) hb, fun pc hpc => ?_, hb.sendsOnly (i := i), by simp⟩
      rw [List.append_nil]
      have := hs pc hpc
      cases pc with
      | start pc => cases pc <;> exact this
      | _ => exact this
    · have hc := callStep_sends hI hU (hown.call pc hpc) (hs pc hpc) hr
      refine ⟨hc.inv, hc.call, hc.sends, fun j t' hspawn pc' hpc' => ?_⟩
      rcases callStep_spawned hr hspawn with ⟨-, rfl⟩ | ⟨-, rfl⟩
      · cases hpc'
      · cases hpc'; trivial
    · have hb : Bystands sh sh [] := bystands_of rfl rfl rfl
      refine ⟨hU.bystands (i := i) hb, ?_, hb.sendsOnly (i := i), by simp⟩
      rintro _ ⟨⟩
      cases entry with
      | start => trivial
      | write audio => trivial
      | stop => trivial
      | destroy => trivial
    · have hb := readerStep_bystands hr
      refine ⟨hU.bystands hb, fun pc hpc => ?_, hb.sendsOnly, by simp⟩
      rw [hcall] at hpc; cases hpc
  · intro i j tr sh es sh' t hne hI hown _ _ hs hg
    exact hs.stable hne hI hown hg

theorem uplink_initial (v : Version) (voiceId : Bytes) : Uplink v [] (initial voiceId).shared where
  causal := causal_nil
  sent h := absurd h List.not_mem_nil
  running := fun ⟨_, h⟩ => absurd h List.not_mem_nil
  conn := fun ⟨_, _, h⟩ => absurd h List.not_mem_nil

/-- **The order of the uplink**, for every run of a session: each connection is handed `audio* end?`
    on v2 and `start audio* end?` on v3, audio only on a running (v3: acknowledged) connection and
    before any end signal, and at most one end signal is ever sent. -/
theorem uplink_order (cfg : Config) (voiceId : Bytes) {acts : List (ℕ × Choice)}
    {p : Pool Shared Thread} {tr : List Event}
    (h : (session cfg).pool.run (initial voiceId) acts = some (p, tr)) :
    (∀ c, Shape cfg.version (frames c tr)) ∧
      (∀ pre i c data post, tr = pre ++ (i, .sent c (.audio data)) :: post →
        Running c pre ∧ (cfg.version = .v3 → Acked c pre) ∧ NoEnd pre) ∧
      (ends tr).length ≤ 1 := by
  have hcausal : Causal (Permitted cfg.version) tr :=
    ((uplink cfg).run ⟨lifecycle_initial voiceId, uplink_initial cfg.version voiceId⟩
      (fun i => ⟨owns_initial voiceId i, nofun⟩) h).1.2.causal
  refine ⟨shape_of_causal hcausal, ?_, ends_of_causal hcausal⟩
  rintro pre i c data post rfl
  obtain ⟨hrun, hno⟩ := hcausal pre _ post rfl
  exact ⟨hrun, acked_of_running hcausal.of_append hrun, hno⟩

/-- A write that `Stop` overtakes between the second check and the send. -/
def sampleWriteStop : List (ℕ × Choice) :=
  sampleStart ++ [(2, .enter (.write (.bytes [0x70]))), (2, .go), (2, .go), (2, .go), (2, .go),
    (2, .go), (0, .enter .stop), (0, .go), (0, .go), (2, .go), (2, .sent (.ok ())), (0, .go),
    (0, .go), (0, .go)]

theorem uplink_order_write_stop : ∃ p tr,
    (session sampleConfig).pool.run (initial []) sampleWriteStop = some (p, tr) ∧
      frames 0 tr = [.start [0x73], .audio [0x70], .endSignal] ∧
      ∀ c, Shape .v3 (frames c tr) := by
  have run : ∃ p tr, (session sampleConfig).pool.run (initial []) sampleWriteStop = some (p, tr) ∧
      frames 0 tr = [.start [0x73], .audio [0x70], .endSignal] := ⟨_, _, rfl, rfl⟩
  obtain ⟨p, tr, hrun, hframes⟩ := run
  exact ⟨p, tr, hrun, hframes, (uplink_order sampleConfig [] hrun).1⟩

end TrtcAsr.Speech
