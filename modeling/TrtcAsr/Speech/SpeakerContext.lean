/-
  What `GetSpeakerContinue` returns (speech_recognizer.h, v3.h).

  In v2 the reader thread stores the speaker context of every response that has one, before the
  callback of that response; in v3 `Start` stores that of the acknowledgement, and the session
  delivers it with `OnRecognitionStart`.

  * `latestContext`: the speaker context of the last response that has one.
  * `Stores`: what the reader thread has stored and has still to store of what it has read.
  * `speakers`: the rely-guarantee proof that nobody else stores one while it runs.
  * `speaker_context_current`: what any thread finds at any time.
-/
import TrtcAsr.Lib.Progress
import TrtcAsr.Speech.Lifecycle

namespace TrtcAsr.Speech

/-- The speaker context that a `Read` brings: that of a text frame with a response. -/
def contextOf (deps : Deps) : ReadOutcome → Option SpeakerContinue
  | .frame opcode payload =>
    if opcode = 0x1 then
      match parseSpeechResponse deps payload with
      | .ok resp => resp.speakerContinue
      | .error _ => none
    else none
  | _ => none

/-- The last one. -/
def latestContext (deps : Deps) (rs : List ReadOutcome) : Option SpeakerContinue :=
  rs.foldl (fun o r => (contextOf deps r).or o) none

theorem latestContext_snoc (deps : Deps) (rs : List ReadOutcome) (r : ReadOutcome) :
    latestContext deps (rs ++ [r]) = (contextOf deps r).or (latestContext deps rs) := by
  simp [latestContext]

/-! ## The reader thread -/

/-- The operation stores no speaker context and does not begin the session. -/
def ReaderOp.ordinary : ReaderOp → Bool
  | storeSpeaker _ | call (.recognitionStart _) => false
  | _ => true

def Ordinary (ops : List ReaderOp) : Prop := ∀ op ∈ ops, op.ordinary = true

/-- What the reader thread does after a `Read`, up to the speaker context that it stores first. -/
theorem afterRead_stores (cfg : Config) (c : ℕ) (r : ReadOutcome) :
    (cfg.version = .v3 ∨ contextOf cfg.deps r = none) ∧ Ordinary (afterRead cfg c r) ∨
      cfg.version = .v2 ∧ ∃ s rest, contextOf cfg.deps r = some s ∧
        afterRead cfg c r = .storeSpeaker s :: rest ∧ Ordinary rest := by
  have dispatch : ∀ resp : SpeechResponse, Ordinary (dispatchEvent resp) := by
    intro resp
    unfold dispatchEvent
    repeat' split
    all_goals simp [Ordinary, ReaderOp.ordinary]
  have response : ∀ resp : SpeechResponse, Ordinary (afterResponse c resp) := by
    intro resp
    have hleave : Ordinary leave := by simp [Ordinary, leave, ReaderOp.ordinary]
    unfold afterResponse
    split
    · simp [Ordinary, leave, ReaderOp.ordinary]
    split
    · simp only [Ordinary, List.forall_mem_append]
      exact ⟨⟨⟨by simp [ReaderOp.ordinary], dispatch resp⟩, by simp [ReaderOp.ordinary]⟩, hleave⟩
    split
    · simp [Ordinary, ReaderOp.ordinary]
    · simp only [Ordinary, List.forall_mem_append]
      exact ⟨dispatch resp, by simp [ReaderOp.ordinary]⟩
  cases r with
  | timeout => exact .inl ⟨.inr rfl, by simp [afterRead, Ordinary, ReaderOp.ordinary]⟩
  | error what => exact .inl ⟨.inr rfl, by simp [afterRead, Ordinary, ReaderOp.ordinary]⟩
  | frame opcode payload =>
    by_cases ho : opcode = 0x1
    · have hcode : ¬ (opcode = 0x2) ∧ ¬ (opcode = 0x8) := by omega
      simp only [contextOf, afterRead, ho, if_true]
      cases hp : parseSpeechResponse cfg.deps payload with
      | error e => exact .inl ⟨.inr rfl, by simp [Ordinary, ReaderOp.ordinary]⟩
      | ok resp =>
        cases hv : cfg.version with
        | v3 => exact .inl ⟨.inl rfl, by simpa [storeSpeaker] using response resp⟩
        | v2 =>
          cases hs : resp.speakerContinue with
          | none =>
            refine .inl ⟨.inr hs, ?_⟩
            simpa [storeSpeaker, hs] using response resp
          | some s => exact .inr ⟨rfl, s, _, hs, by simp [storeSpeaker, hs], response resp⟩
    · refine .inl ⟨.inr (by simp only [contextOf, ho, if_false]), ?_⟩
      simp only [afterRead, if_pos ho]
      split
      · simp [Ordinary, ReaderOp.ordinary]
      split
      · simp [Ordinary, ReaderOp.ordinary]
      · simp [Ordinary, ReaderOp.ordinary]

/-- What the reader thread has stored of the speaker contexts that it has read, with the operations
    that are left. -/
inductive Stores (cfg : Config) (rs : List ReadOutcome) (stored : Option SpeakerContinue) :
    List ReaderOp → Prop where
  | current {ops} (h : cfg.version = .v3 ∨ stored = latestContext cfg.deps rs) (hops : Ordinary ops) :
    Stores cfg rs stored ops
  | pending {front r s ops} (hrs : rs = front ++ [r]) (hr : contextOf cfg.deps r = some s)
    (hv : cfg.version = .v2) (h : stored = latestContext cfg.deps front) (hops : Ordinary ops) :
    Stores cfg rs stored (.storeSpeaker s :: ops)

/-- What `OnRecognitionStart` is given of the speaker context. -/
def startContext (version : Version) (sh : Shared) : Option SpeakerContinue :=
  match version with
  | .v2 => none
  | .v3 => sh.speakerContinue

section

variable {cfg : Config} {i : ℕ} {sh : Shared} {tr : List Event}

/-- What a step of the reader thread owes. -/
structure ReaderStores (cfg : Config) (i : ℕ) (tr : List Event) (sh : Shared) (r : ReaderResult) :
    Prop where
  stores : Stores cfg (reads (tr ++ r.events.map (i, ·))) r.sh.speakerContinue r.ops
  same : cfg.version = .v3 → r.sh.speakerContinue = sh.speakerContinue
  start : ∀ resp, .recognitionStart resp ∈ callbacks (r.events.map (i, ·)) →
    resp.speakerContinue = startContext cfg.version sh

/-- A step that reads nothing and stores nothing. -/
theorem ReaderStores.quiet {r : ReaderResult}
    (h : cfg.version = .v3 ∨ sh.speakerContinue = latestContext cfg.deps (reads tr))
    (hreads : reads (r.events.map (i, ·)) = []) (hsc : r.sh.speakerContinue = sh.speakerContinue)
    (hops : Ordinary r.ops)
    (hstart : ∀ resp, .recognitionStart resp ∈ callbacks (r.events.map (i, ·)) →
      resp.speakerContinue = startContext cfg.version sh) : ReaderStores cfg i tr sh r where
  stores := by
    rw [reads_append, hreads, List.append_nil, hsc]
    exact .current h hops
  same _ := hsc
  start := hstart

theorem close_speaker (sh : Shared) (i : ℕ) : sh.close.1.speakerContinue = sh.speakerContinue ∧
    reads (sh.close.2.map (i, ·)) = [] ∧ callbacks (sh.close.2.map (i, ·)) = [] := by
  unfold Shared.close
  cases sh.conn with
  | none => exact ⟨rfl, rfl, rfl⟩
  | some c => exact ⟨rfl, rfl, rfl⟩

/-- **A step of the reader thread**: the speaker context that it reads it stores before anything
    else, and it begins the session with what is stored. -/
theorem readerStep_stores {op : ReaderOp} {rest : List ReaderOp} {ch : Choice} {r : ReaderResult}
    (h : Stores cfg (reads tr) sh.speakerContinue (op :: rest))
    (hs : readerStep cfg i sh rest op ch = some r) : ReaderStores cfg i tr sh r := by
  cases h with
  | pending hrs hr hv hstored hrest =>
    -- the context that has just been read is stored
    cases ch with
    | go =>
      simp only [readerStep, Option.some.injEq] at hs
      subst hs
      refine ⟨.current (.inr ?_) hrest, fun h3 => ?_, fun resp hm => ?_⟩
      · rw [List.map_nil, List.append_nil, hrs, latestContext_snoc, hr]
        rfl
      · rw [hv] at h3
        cases h3
      · cases hm
    | _ => simp [readerStep] at hs
  | current hstored hops =>
    obtain ⟨hop, hrest⟩ := List.forall_mem_cons.1 hops
    have leaves : Ordinary leave := by simp [Ordinary, leave, ReaderOp.ordinary]
    unfold readerStep at hs
    split at hs
    · -- setTid
      cases hs
      exact .quiet hstored rfl rfl hrest (by simp [callbacks])
    · -- callStart
      cases hs
      refine .quiet hstored rfl rfl (List.forall_mem_cons.2 ⟨rfl, hrest⟩) fun resp hm => ?_
      have heq : resp = startResponse cfg.version sh := by simpa [callbacks] using hm
      rw [heq]
      rfl
    · -- call
      rename_i cb
      cases hs
      refine .quiet hstored rfl rfl (List.forall_mem_cons.2 ⟨rfl, hrest⟩) fun resp hm => ?_
      have heq : cb = .recognitionStart resp := by
        simpa [callbacks, eq_comm] using hm
      rw [heq] at hop
      cases hop
    · -- inside
      cases hs
      exact .quiet hstored rfl rfl hrest (by simp [callbacks])
    · cases hs
      refine .quiet hstored rfl rfl ?_ (by simp [callbacks])
      show Ordinary (if _ then _ else _)
      split
      · exact hrest
      · simp [Ordinary, caught, leave, ReaderOp.ordinary]
    · -- fetch
      cases hs
      refine .quiet hstored rfl rfl ?_ (by simp [callbacks])
      dsimp only
      cases sh.conn with
      | none => exact leaves
      | some c => simp [Ordinary, ReaderOp.ordinary]
    · -- read
      rename_i c rc
      cases hs
      have hreads : reads (tr ++ [EventKind.read rc].map (i, ·)) = reads tr ++ [rc] :=
        reads_append tr _
      refine ⟨?_, fun _ => rfl, by simp [callbacks]⟩
      rw [hreads]
      rcases afterRead_stores cfg c rc with ⟨hno, hord⟩ | ⟨hv, s, rest', hctx, heq, hord⟩
      · refine .current ?_ hord
        rcases hno with h3 | hnone
        · exact .inl h3
        · rw [latestContext_snoc, hnone, Option.none_or]
          exact hstored
      · show Stores cfg _ _ (afterRead cfg c rc)
        rw [heq]
        refine .pending rfl hctx hv (hstored.resolve_left fun h3 => ?_) hord
        rw [hv] at h3
        cases h3
    · -- checkStopped
      cases hs
      refine .quiet hstored rfl rfl ?_ (by simp [callbacks])
      show Ordinary (if _ then _ else _)
      split
      · exact leaves
      · simp [Ordinary, ReaderOp.ordinary]
    · -- checkStopping
      cases hs
      refine .quiet hstored rfl rfl ?_ (by simp [callbacks])
      show Ordinary (if _ then _ else _)
      split
      · exact leaves
      · simp [Ordinary, leave, ReaderOp.ordinary]
    · -- storeSpeaker
      cases hop
    · -- finish
      split at hs
      · cases hs
        exact .quiet hstored rfl rfl hrest (by simp [callbacks])
      · cases hs
        exact .quiet hstored rfl rfl (List.forall_mem_cons.2 ⟨rfl, hrest⟩) (by simp [callbacks])
    · -- close
      cases hs
      obtain ⟨hsc, hrd, hcb⟩ := close_speaker sh i
      refine .quiet hstored hrd hsc hrest fun resp hm => ?_
      rw [hcb] at hm
      cases hm
    · -- mark
      split at hs
      · cases hs
        exact .quiet hstored rfl rfl hrest (by simp [callbacks])
      · cases hs
    · -- signalDone
      split at hs
      · cases hs
        exact .quiet hstored rfl rfl hrest (by simp [callbacks])
      · cases hs
    · cases hs

/-! ## The other threads -/

/-- A call stores a speaker context only where it takes the acknowledgement. -/
theorem callStep_speaker {pc : CallPc} {ch : Choice} {r : CallResult}
    (h : callStep cfg i sh pc ch = some r) :
    r.sh.speakerContinue = sh.speakerContinue ∨ ∃ c deadline, pc = .start (.ack c deadline) := by
  unfold callStep startStep writeStep stopStep waitStep waitReturn at h
  repeat' split at h
  all_goals cases h
  all_goals first
    | exact .inl rfl
    | exact .inl (close_speaker sh i).1
    | exact .inr ⟨_, _, rfl⟩

/-- What is in a `Start` after a step was in one before. -/
theorem start_of_callStep {pc : CallPc} {ch : Choice} {r : CallResult}
    (h : callStep cfg i sh pc ch = some r) {next : StartPc} (hr : r.call = some (.start next)) :
    ∃ q, pc = .start q := by
  have after : ∀ dtor, afterStop dtor ≠ some (.start next) := by
    intro dtor
    cases dtor <;> simp [afterStop]
  have waiter : ∀ w : Waiter, w.after.1 ≠ some (.start next) := by
    intro w
    cases w with
    | watchdog => simp [Waiter.after]
    | stop dtor stores =>
      cases stores
      · exact after dtor
      · simp [Waiter.after]
  cases pc with
  | start q => exact ⟨q, rfl⟩
  | write pc =>
    change writeStep cfg i sh pc ch = some r at h
    unfold writeStep at h
    repeat' split at h
    all_goals cases h
    all_goals simp at hr
  | stop dtor pc =>
    change stopStep i sh dtor pc ch = some r at h
    unfold stopStep at h
    repeat' split at h
    all_goals cases h
    all_goals first
      | exact absurd hr (after _)
      | simp at hr
  | wait w pc =>
    change waitStep i sh w pc ch = some r at h
    unfold waitStep waitReturn at h
    repeat' split at h
    all_goals cases h
    all_goals first
      | exact absurd hr (waiter _)
      | simp at hr
  | destroy =>
    cases ch with
    | go =>
      cases h
      cases hd : sh.state <;> simp [hd] at hr
    | _ => cases h
  | join =>
    cases ch with
    | go =>
      change (if sh.readerThread.isSome ∧ ¬ sh.done then none
        else some { sh, call := none, events := [.returned .destroy] }) = some r at h
      split at h
      · cases h
      · cases h
        cases hr
    | _ => cases h

/-- Only v3 waits for an acknowledgement. -/
theorem callStep_ack {pc : CallPc} {ch : Choice} {r : CallResult}
    (hpc : ∀ c deadline, pc = .start (.ack c deadline) → cfg.version = .v3)
    (h : callStep cfg i sh pc ch = some r) {c deadline : ℕ}
    (hr : r.call = some (.start (.ack c deadline))) : cfg.version = .v3 := by
  obtain ⟨q, rfl⟩ := start_of_callStep h hr
  change startStep cfg sh q ch = some r at h
  unfold startStep at h
  repeat' split at h
  all_goals cases h
  all_goals first
    | exact hpc _ _ rfl
    | assumption
    | simp at hr

/-! ## The threads together -/

/-- The speaker context of the session, before and after the reader thread is started. -/
structure Speaks (cfg : Config) (tr : List Event) (sh : Shared) : Prop where
  fresh : cfg.version = .v2 → (∀ j t, (j, EventKind.spawned t) ∉ tr) → sh.speakerContinue = none
  start : ∀ resp, .recognitionStart resp ∈ callbacks tr →
    resp.speakerContinue = startContext cfg.version sh

def speaks (cfg : Config) (_ : ℕ) (tr : List Event) (sh : Shared) (t : Thread) : Prop :=
  (∀ ops, t.reader = some ops → Stores cfg (reads tr) sh.speakerContinue ops) ∧
    ∀ c deadline, t.call = some (.start (.ack c deadline)) → cfg.version = .v3

/-- Who stores a speaker context: in v2 the reader thread, in v3 a `Start` before it. -/
def SpeaksOnly (cfg : Config) (i : ℕ) (tr : List Event) (sh : Shared) (_ : List Event)
    (sh' : Shared) : Prop :=
  sh'.speakerContinue = sh.speakerContinue ∨ cfg.version = .v2 ∧ ReaderThread i tr ∨
    cfg.version = .v3 ∧ ¬ Ran tr

/-- Before the reader thread is started, nothing has been read. -/
theorem reads_unspawned (hS : Session cfg tr sh) (hno : ∀ j t, (j, EventKind.spawned t) ∉ tr) :
    reads tr = [] := by
  refine List.eq_nil_iff_forall_not_mem.2 fun r hr => ?_
  obtain ⟨j, hj⟩ := mem_reads.1 hr
  obtain ⟨m, hm⟩ := hS.byReader hj rfl
  exact hno m j hm

/-- What the listener has been told was told after the session ran. -/
theorem ran_of_callback (hI : Lifecycle tr sh) (hS : Session cfg tr sh) {cb : Callback}
    (h : cb ∈ callbacks tr) : Ran tr := by
  obtain ⟨j, hj⟩ := mem_callbacks.1 h
  obtain ⟨m, hm⟩ := hS.byReader hj rfl
  obtain ⟨c, hc⟩ := hI.spawn hm
  exact ⟨m, c, hc⟩

/-- A step that tells the listener nothing, and stores a context before the session runs or not
    at all. -/
theorem Speaks.outside {sh' : Shared} {es : List Event} (hI : Lifecycle tr sh)
    (hS : Session cfg tr sh) (h : Speaks cfg tr sh) (hes : ∀ e ∈ es, e.2.ofReader = false)
    (hsc : sh'.speakerContinue = sh.speakerContinue ∨ cfg.version = .v3 ∧ ¬ Ran tr) :
    Speaks cfg (tr ++ es) sh' where
  fresh hv hno := by
    rcases hsc with heq | ⟨h3, -⟩
    · rw [heq]
      exact h.fresh hv fun j t hm => hno j t (mem_grow hm)
    · rw [hv] at h3
      cases h3
  start resp hm := by
    rw [callbacks_untold fun e he => told_of_ofReader (hes e he)] at hm
    rw [h.start resp hm]
    rcases hsc with heq | ⟨-, hno⟩
    · unfold startContext
      rw [heq]
    · exact absurd (ran_of_callback hI hS hm) hno

end

/-- **The threads of a session keep the speaker context.** -/
theorem speakers (cfg : Config) :
    RelyGuarantee (session cfg)
      (fun tr sh => (Lifecycle tr sh ∧ Session cfg tr sh) ∧ Speaks cfg tr sh)
      (fun i tr sh t => (Owns i tr sh t ∧ tells cfg i tr sh t) ∧ speaks cfg i tr sh t)
      (fun i tr sh es sh' => (Leaves i tr sh es sh' ∧ TellsOnly i tr sh es sh') ∧
        SpeaksOnly cfg i tr sh es sh') := by
  refine (told cfg).extend ?_ ?_
  · rintro i tr sh t ch o ⟨hI, hS⟩ ⟨hown, -⟩ hk hP ⟨hread, hack⟩ ho
    rcases threadStep_cases ho with ⟨d, rfl⟩ | ⟨pc, r, hpc, hr, rfl⟩ | ⟨entry, -, -, rfl⟩ |
      ⟨op, rest, r, hcall, hops, hr, rfl⟩
    · have hsame : Speaks cfg (tr ++ []) { sh with now := sh.now + d } :=
        hP.outside hI hS (by simp) (.inl rfl)
      refine ⟨hsame, ⟨fun ops hops => ?_, hack⟩, .inl rfl, by simp⟩
      rw [List.append_nil]
      exact hread ops hops
    · -- a call reads nothing, and only the acknowledgement stores
      have hout := callStep_outside hr
      have hes : ∀ e ∈ r.events.map (i, ·), e.2.ofReader = false := by
        rintro ⟨j, k⟩ he
        exact hout.quiet k (mem_tagged.1 he).2
      have hsc : r.sh.speakerContinue = sh.speakerContinue ∨ cfg.version = .v3 ∧ ¬ Ran tr := by
        rcases callStep_speaker hr with heq | ⟨c, deadline, rfl⟩
        · exact .inl heq
        · exact .inr ⟨hack c deadline hpc, not_ran_of_starting hI (hown.call _ hpc).1⟩
      have hrd : reads (tr ++ r.events.map (i, ·)) = reads tr :=
        reads_untold fun e he => told_of_ofReader (hes e he)
      refine ⟨hP.outside hI hS hes hsc, ⟨fun ops hops => ?_, fun c deadline hc => ?_⟩,
        hsc.imp id .inr, fun j t' hspawn => ?_⟩
      · show Stores cfg (reads (tr ++ r.events.map (i, ·))) r.sh.speakerContinue ops
        rw [hrd]
        obtain ⟨m, hm⟩ := hown.reader (by rw [hops]; simp)
        obtain ⟨c, hc⟩ := hI.spawn hm
        rw [hsc.resolve_right fun h => h.2 ⟨m, c, hc⟩]
        exact hread ops hops
      · exact callStep_ack (fun c d heq => hack c d (heq ▸ hpc)) hr hc
      · rcases callStep_spawned hr hspawn with ⟨rfl, rfl⟩ | ⟨-, rfl⟩
        · -- the reader thread begins where nothing has been read
          refine ⟨fun ops hops => ?_, fun c deadline hc => ?_⟩
          swap
          · cases hc
          cases hops
          show Stores cfg (reads (tr ++ r.events.map (i, ·))) r.sh.speakerContinue readLoop
          have hno := (hown.call _ hpc).2
          refine .current ?_ (by simp [Ordinary, readLoop, ReaderOp.ordinary])
          cases hv : cfg.version with
          | v3 => exact .inl rfl
          | v2 =>
            refine .inr ?_
            rw [hrd, reads_unspawned hS hno]
            rcases hsc with heq | ⟨h3, -⟩
            · rw [heq]
              exact hP.fresh hv hno
            · rw [hv] at h3
              cases h3
        · refine ⟨fun ops hops => ?_, fun c deadline hc => ?_⟩
          · cases hops
          · cases hc
    · have hsame : Speaks cfg (tr ++ []) sh := hP.outside hI hS (by simp) (.inl rfl)
      refine ⟨hsame, ⟨fun ops hops => ?_, fun c deadline hc => ?_⟩, .inl rfl, by simp⟩
      · rw [List.append_nil]
        exact hread ops hops
      · cases entry <;> cases hc
    · -- the reader thread
      obtain ⟨m, hm⟩ := hown.reader (by rw [hops]; simp)
      obtain ⟨hst, hsame, hstart⟩ := readerStep_stores (hread _ hops) hr
      refine ⟨⟨fun hv hno => absurd (mem_grow hm) (hno m i), fun resp hmem => ?_⟩,
        ⟨fun ops heq => ?_, hack⟩, ?_, by simp⟩
      · have hctx : startContext cfg.version r.sh = startContext cfg.version sh := by
          cases hv : cfg.version with
          | v2 => rfl
          | v3 => exact hsame hv
        show resp.speakerContinue = startContext cfg.version r.sh
        rw [hctx]
        rw [callbacks_append, List.mem_append] at hmem
        exact hmem.elim (hP.start resp) (hstart resp)
      · cases heq
        exact hst
      · cases hv : cfg.version with
        | v2 => exact .inr (.inl ⟨hv, m, hm⟩)
        | v3 => exact .inl (hsame hv)
  · -- beside the reader thread nobody reads, and nobody stores once it runs
    rintro i j tr sh es sh' t hne ⟨hI, -⟩ ⟨hown, -⟩ ⟨-, htells⟩ - ⟨hread, hack⟩ hg
    refine ⟨fun ops hops => ?_, hack⟩
    obtain ⟨m, hm⟩ := hown.reader (by rw [hops]; simp)
    obtain ⟨c, hc⟩ := hI.spawn hm
    have hno : ¬ ReaderThread i tr := by
      rintro ⟨k, hk⟩
      exact hne (hI.spawnOnce hm hk)
    have hes : ∀ e ∈ es, e.2.told = false := fun e he => told_of_ofReader
      (Bool.eq_false_iff.2 fun h => hno (htells.events e he h))
    rw [reads_untold hes]
    rcases hg with heq | ⟨-, hr⟩ | ⟨-, hran⟩
    · rw [heq]
      exact hread ops hops
    · exact absurd hr hno
    · exact absurd ⟨m, c, hc⟩ hran

/-! ## Runs -/

theorem spawned_close (sh : Shared) (t : ℕ) : .spawned t ∉ sh.close.2 := by
  unfold Shared.close
  cases sh.conn with
  | none => exact List.not_mem_nil
  | some c => simp

/-- The event is that of the start of the reader thread. -/
theorem spawned_of_callStep {cfg : Config} {i t : ℕ} {sh : Shared} {pc : CallPc} {ch : Choice}
    {r : CallResult} (h : callStep cfg i sh pc ch = some r) (ht : .spawned t ∈ r.events) :
    r.spawned = some (t, { reader := some readLoop }) := by
  have waiter : ∀ w : Waiter, .spawned t ∉ w.after.2 := by
    intro w
    cases w with
    | watchdog => simp [Waiter.after]
    | stop dtor stores => cases stores <;> simp [Waiter.after]
  unfold callStep startStep writeStep stopStep waitStep waitReturn at h
  repeat' split at h
  all_goals cases h
  all_goals first
    | exact absurd ht (spawned_close sh t)
    | exact absurd ht (waiter _)
    | simp at ht; done
    | skip
  obtain rfl : t = _ := by simpa using ht
  rfl

section

variable {cfg : Config} {voiceId : Bytes} {acts : List (ℕ × Choice)} {p : Pool Shared Thread}
  {tr : List Event}

/-- The thread that has been started as the reader thread is one. -/
theorem reader_of_spawned (h : (session cfg).pool.run (initial voiceId) acts = some (p, tr))
    {i t : ℕ} (ht : (i, EventKind.spawned t) ∈ tr) : (p.threads t).reader ≠ none := by
  refine Lts.run_invariant (I := fun tr p => ∀ i t, (i, EventKind.spawned t) ∈ tr →
    (p.threads t).reader ≠ none) ?_ (fun i t hm => absurd hm List.not_mem_nil) h i t ht
  rintro tr p ⟨i, ch⟩ p' es hinv hs j t hm
  obtain ⟨o, ho, -, rfl, hthreads⟩ := Threads.poolStep_cases hs
  have hnext : (p.threads i).reader ≠ none → o.next.reader ≠ none := by
    intro hr
    rcases threadStep_cases ho with ⟨d, rfl⟩ | ⟨pc, r, -, -, rfl⟩ | ⟨entry, -, -, rfl⟩ |
      ⟨op, rest, r, -, -, -, rfl⟩
    · exact hr
    · exact hr
    · exact hr
    · simp
  rcases List.mem_append.1 hm with hm | hm
  · have hr := hinv j t hm
    rcases hthreads t with ⟨rfl, heq⟩ | ⟨-, l, -, hidle, -⟩ | ⟨-, heq⟩
    · rw [heq]
      exact hnext hr
    · have hempty : p.threads t = {} := of_decide_eq_true hidle
      rw [hempty] at hr
      exact absurd rfl hr
    · rw [heq]
      exact hr
  · -- the step that starts it
    have hspawn : o.spawned = some (t, { reader := some readLoop }) := by
      rcases threadStep_cases ho with ⟨d, rfl⟩ | ⟨pc, r, -, hr, rfl⟩ | ⟨entry, -, -, rfl⟩ |
        ⟨op, rest, r, -, -, hr, rfl⟩
      · cases hm
      · exact spawned_of_callStep hr (mem_tagged.1 hm).2
      · cases hm
      · have hk := (mem_tagged.1 hm).2
        unfold readerStep at hr
        repeat' split at hr
        all_goals cases hr
        all_goals first
          | exact absurd hk (spawned_close _ t)
          | simp at hk
    rw [(Threads.poolStep_spawned hs ho hspawn).2.2]
    simp

theorem speakers_run (h : (session cfg).pool.run (initial voiceId) acts = some (p, tr)) :
    ((Lifecycle tr p.shared ∧ Session cfg tr p.shared) ∧ Speaks cfg tr p.shared) ∧
      ∀ i, (Owns i tr p.shared (p.threads i) ∧ tells cfg i tr p.shared (p.threads i)) ∧
        speaks cfg i tr p.shared (p.threads i) := by
  refine (speakers cfg).run ⟨⟨lifecycle_initial voiceId, session_initial cfg voiceId⟩, ?_⟩ ?_ h
  · exact ⟨fun _ _ => rfl, fun resp hm => absurd hm List.not_mem_nil⟩
  · intro i
    refine ⟨⟨owns_initial voiceId i, fun ops hops => ?_⟩, fun ops hops => ?_, fun c d hc => ?_⟩
    · cases hops
    · cases hops
    · cases hc

/-- **What `GetSpeakerContinue` returns**, after every run.  In v2 it is the speaker context of the
    last response that had one, unless the reader thread is about to store that of the response that
    it has just read, and then it is that of the responses before; in v3, `OnRecognitionStart` has
    been given it, and once the session runs it stays as it is. -/
theorem speaker_context_current (cfg : Config) (voiceId : Bytes) {acts : List (ℕ × Choice)}
    {p : Pool Shared Thread} {tr : List Event}
    (h : (session cfg).pool.run (initial voiceId) acts = some (p, tr)) :
    (cfg.version = .v2 →
      (∀ i s rest, (p.threads i).reader = some (.storeSpeaker s :: rest) →
        ∃ front r, reads tr = front ++ [r] ∧ contextOf cfg.deps r = some s ∧
          p.shared.speakerContinue = latestContext cfg.deps front) ∧
      ((∀ i s rest, (p.threads i).reader ≠ some (.storeSpeaker s :: rest)) →
        p.shared.speakerContinue = latestContext cfg.deps (reads tr))) ∧
    (∀ resp, .recognitionStart resp ∈ callbacks tr →
      resp.speakerContinue = startContext cfg.version p.shared) ∧
    (cfg.version = .v3 → Ran tr → ∀ acts' p' tr', (session cfg).pool.run p acts' = some (p', tr') →
      p'.shared.speakerContinue = p.shared.speakerContinue) := by
  obtain ⟨⟨⟨hI, hS⟩, hP⟩, hthreads⟩ := speakers_run h
  refine ⟨fun hv => ⟨fun i s rest hops => ?_, fun hno => ?_⟩, hP.start, ?_⟩
  · cases (hthreads i).2.1 _ hops with
    | pending hrs hr _ hstored _ => exact ⟨_, _, hrs, hr, hstored⟩
    | current _ hord =>
      have hop := hord _ (List.mem_cons_self ..)
      cases hop
  · by_cases hsp : ∀ j t, (j, EventKind.spawned t) ∉ tr
    · rw [reads_unspawned hS hsp]
      exact hP.fresh hv hsp
    · push Not at hsp
      obtain ⟨j, t, ht⟩ := hsp
      obtain ⟨ops, hops⟩ := Option.ne_none_iff_exists'.1 (reader_of_spawned h ht)
      cases (hthreads t).2.1 ops hops with
      | pending _ _ _ _ _ => exact absurd hops (hno t _ _)
      | current hstored _ =>
        refine hstored.resolve_left fun h3 => ?_
        rw [hv] at h3
        cases h3
  · intro hv hran acts' p' tr' hrun
    refine Lts.run_reachable (I := fun _ q => q.shared.speakerContinue = p.shared.speakerContinue)
      ?_ rfl hrun
    rintro as tr'' q ⟨i, ch⟩ q' es hq heq hs
    obtain ⟨o, ho, hsh, rfl, -⟩ := Threads.poolStep_cases hs
    obtain ⟨hinv, hown⟩ := speakers_run (Lts.run_append h hq)
    rw [hsh, ← heq]
    rcases ((speakers cfg).step hinv (hown i) ho).guar.2 with hsame | ⟨hv', -⟩ | ⟨-, hno⟩
    · exact hsame
    · rw [hv] at hv'
      cases hv'
    · exact absurd hran.grow hno

end

def sampleSpeaker : Bytes :=
  ascii "\x7b\"speaker_continue\":\x7b\"continue_status\":\"new\"\x7d\x7d"

def sampleSpeakerConfig : Config where
  version := .v2
  deps := sampleDeps [(sampleSpeaker,
    .obj [("speaker_continue", .obj [("continue_status", .str (ascii "new"))])])]
  stopTimeout := 10000
  ackTimeout := 3000

/-- A v2 session whose reader thread has read a speaker context. -/
def sampleSpeakerRead : List (ℕ × Choice) :=
  [(0, .enter .start), (0, .go), (0, .validated (.ok ())), (0, .dialed [0x61] (.ok [])), (0, .go),
    (0, .go), (0, .go), (0, .spawn 1), (1, .go), (1, .go), (1, .returns), (1, .go),
    (1, .read (.frame 0x1 sampleSpeaker))]

theorem speaker_context_current_read : ∃ p tr s rest front r,
    (session sampleSpeakerConfig).pool.run (initial []) sampleSpeakerRead = some (p, tr) ∧
      (p.threads 1).reader = some (.storeSpeaker s :: rest) ∧ reads tr = front ++ [r] ∧
      contextOf sampleSpeakerConfig.deps r = some s ∧
      p.shared.speakerContinue = latestContext sampleSpeakerConfig.deps front := by
  have run : ∃ p tr s rest,
      (session sampleSpeakerConfig).pool.run (initial []) sampleSpeakerRead = some (p, tr) ∧
        (p.threads 1).reader = some (.storeSpeaker s :: rest) := ⟨_, _, _, _, rfl, rfl⟩
  obtain ⟨p, tr, s, rest, hrun, hops⟩ := run
  obtain ⟨front, r, hreads, hr, hstored⟩ :=
    ((speaker_context_current sampleSpeakerConfig [] hrun).1 rfl).1 1 s rest hops
  exact ⟨p, tr, s, rest, front, r, hrun, hops, hreads, hr, hstored⟩

end TrtcAsr.Speech
