/-
  The SIGPIPE guard of TLS calls (ws_client.h, ws_client.cc, `ScopedSigpipeSuppressor`).

  A thread runs under the scopes that it has opened and not yet left, the innermost first.  A run
  is observed through the signals that are delivered and the `errno` that guarded calls leave.

  * `Nested`: what the open scopes have sampled is, scope by scope, the mask and the pending state
    that the next outer scope runs with;
  * `guard_step`: one step keeps that, and delivers nothing;
  * `guard_transparent`: so does a run, and outside all scopes the thread is as it was.
-/
import Mathlib.Data.Finset.Insert
import TrtcAsr.Lib.Transition

namespace TrtcAsr

def SIGPIPE : ℕ := 13
def EPIPE : ℤ := 32
def EINTR : ℤ := 4

/-- What a thread has of the signals: those it blocks, and whether a `SIGPIPE` is pending for it. -/
structure SigThread where
  mask : Finset ℕ
  pending : Bool
  errno : ℤ
  deriving DecidableEq

/-- What is observed: a `SIGPIPE` is delivered, a guarded call returns and leaves its `errno`. -/
inductive SigEvent where
  | delivered
  | left (errno : ℤ)
  deriving DecidableEq, Repr

/-! ## System calls -/

namespace SigThread

/-- A write finds its pipe broken: the thread gets a `SIGPIPE`, which stays pending while it is
    blocked; a second one adds nothing. -/
def brokenPipe (t : SigThread) : SigThread × List SigEvent :=
  if SIGPIPE ∈ t.mask then ({ t with pending := true, errno := EPIPE }, [])
  else ({ t with errno := EPIPE }, [.delivered])

/-- `pthread_sigmask(SIG_SETMASK, &mask, nullptr)`: what is pending and no longer blocked is
    delivered. -/
def setMask (t : SigThread) (mask : Finset ℕ) : SigThread × List SigEvent :=
  if t.pending ∧ SIGPIPE ∉ mask then ({ t with mask, pending := false }, [.delivered])
  else ({ t with mask }, [])

/-- The loop around `sigtimedwait`, which is interrupted some times before it takes the signal. -/
def drain : ℕ → SigThread → SigThread
  | 0, t => { t with pending := false }
  | interrupts + 1, t => drain interrupts { t with errno := EINTR }

theorem drain_eq (interrupts : ℕ) (t : SigThread) :
    (drain interrupts t).mask = t.mask ∧ (drain interrupts t).pending = false := by
  induction interrupts generalizing t with
  | zero => exact ⟨rfl, rfl⟩
  | succ interrupts ih => exact ih { t with errno := EINTR }

end SigThread

/-! ## The guard -/

/-- The members of `ScopedSigpipeSuppressor`. -/
structure ScopedSigpipeSuppressor where
  oldMask : Finset ℕ
  blocked : Bool
  wasPending : Bool
  deriving DecidableEq

namespace ScopedSigpipeSuppressor

/-- The constructor; its two calls succeed. -/
def construct (t : SigThread) : ScopedSigpipeSuppressor × SigThread :=
  ({ oldMask := t.mask, blocked := true, wasPending := t.pending },
    { t with mask := insert SIGPIPE t.mask })

/-- The destructor. -/
def destruct (g : ScopedSigpipeSuppressor) (interrupts : ℕ) (t : SigThread) :
    SigThread × List SigEvent :=
  if ¬ g.blocked then (t, [])
  else
    let savedErrno := t.errno
    let t := if ¬ g.wasPending ∧ t.pending then t.drain interrupts else t
    let (t, events) := t.setMask g.oldMask
    ({ t with errno := savedErrno }, events)

end ScopedSigpipeSuppressor

inductive GuardLabel where
  /-- A scope begins. -/
  | enter
  /-- A guarded call writes to a broken pipe. -/
  | write
  /-- A guarded call returns otherwise. -/
  | call (errno : ℤ)
  /-- The innermost scope ends. -/
  | exit (interrupts : ℕ)

structure GuardState where
  thread : SigThread
  scopes : List ScopedSigpipeSuppressor

/-- A thread that makes its calls inside of scopes. -/
def guarded : Lts GuardState GuardLabel SigEvent where
  step s a :=
    match a, s.scopes with
    | .enter, scopes =>
      let (g, t) := ScopedSigpipeSuppressor.construct s.thread
      some (⟨t, g :: scopes⟩, [])
    | _, [] => none
    | .write, scopes =>
      let (t, events) := s.thread.brokenPipe
      some (⟨t, scopes⟩, events ++ [.left EPIPE])
    | .call errno, scopes => some (⟨{ s.thread with errno }, scopes⟩, [.left errno])
    | .exit interrupts, g :: scopes =>
      let (t, events) := g.destruct interrupts s.thread
      some (⟨t, scopes⟩, events)

/-! ## Nested scopes -/

/-- The pending state goes with the mask: an unblocked `SIGPIPE` does not stay pending. -/
def Consistent (mask : Finset ℕ) (pending : Bool) : Prop := pending → SIGPIPE ∈ mask

/-- Each open scope has sampled the mask and the pending state of the scope around it, and a signal
    that was pending then still is. -/
inductive Nested (t₀ : SigThread) : List ScopedSigpipeSuppressor → Finset ℕ → Bool → Prop where
  | outside : Nested t₀ [] t₀.mask t₀.pending
  | inside {scopes : List ScopedSigpipeSuppressor} {mask : Finset ℕ} {outer inner : Bool}
      (hpending : outer → inner) (h : Nested t₀ scopes mask outer) :
      Nested t₀ (⟨mask, true, outer⟩ :: scopes) (insert SIGPIPE mask) inner

variable {t₀ : SigThread} {scopes : List ScopedSigpipeSuppressor} {mask : Finset ℕ} {pending : Bool}

theorem Nested.consistent (h₀ : Consistent t₀.mask t₀.pending) (h : Nested t₀ scopes mask pending) :
    Consistent mask pending := by
  cases h with
  | outside => exact h₀
  | inside _ _ => exact fun _ => Finset.mem_insert_self _ _

theorem Nested.nil_iff : Nested t₀ [] mask pending ↔ mask = t₀.mask ∧ pending = t₀.pending := by
  constructor
  · rintro ⟨⟩
    exact ⟨rfl, rfl⟩
  · rintro ⟨rfl, rfl⟩
    exact .outside

theorem Nested.cons {g : ScopedSigpipeSuppressor} (h : Nested t₀ (g :: scopes) mask pending) :
    ∃ outerMask outer, g = ⟨outerMask, true, outer⟩ ∧ mask = insert SIGPIPE outerMask ∧
      (outer → pending) ∧ Nested t₀ scopes outerMask outer := by
  cases h with
  | @inside scopes outerMask outer inner hpending hout =>
    exact ⟨outerMask, outer, rfl, rfl, hpending, hout⟩

/-- The `errno` after a history. -/
def leftErrno (errno₀ : ℤ) (history : List SigEvent) : ℤ :=
  history.foldl (fun errno event => match event with
    | .left errno => errno
    | .delivered => errno) errno₀

/-- What holds of the thread after a history. -/
structure Transparent (t₀ : SigThread) (history : List SigEvent) (s : GuardState) : Prop where
  nested : Nested t₀ s.scopes s.thread.mask s.thread.pending
  quiet : .delivered ∉ history
  errno : s.thread.errno = leftErrno t₀.errno history

theorem leftErrno_append (errno₀ : ℤ) (history events : List SigEvent) :
    leftErrno errno₀ (history ++ events) = leftErrno (leftErrno errno₀ history) events :=
  List.foldl_append

/-- A scope that ends gives back the mask and the pending state around it. -/
theorem destruct_inside {outer inner : Bool} {t : SigThread} (interrupts : ℕ)
    (hcons : Consistent mask outer) (hinner : t.pending = inner) (hpending : outer → inner) :
    (ScopedSigpipeSuppressor.mk mask true outer).destruct interrupts t =
      ({ t with mask, pending := outer }, []) := by
  subst hinner
  unfold ScopedSigpipeSuppressor.destruct SigThread.setMask
  cases outer with
  | true =>
    -- the signal was pending before the scope: it stays, and the mask around the scope blocks it
    have hblocked : SIGPIPE ∈ mask := hcons rfl
    have hstill : t.pending = true := hpending rfl
    simp [hblocked, hstill]
  | false =>
    cases hp : t.pending with
    | true =>
      obtain ⟨-, hdrained⟩ := t.drain_eq interrupts
      simp [hdrained]
    | false => simp [hp]

/-- **One step** of a thread keeps its scopes nested and delivers nothing. -/
theorem guard_step (h₀ : Consistent t₀.mask t₀.pending) {history events : List SigEvent}
    {s s' : GuardState} {a : GuardLabel} (hi : Transparent t₀ history s)
    (h : guarded.step s a = some (s', events)) : Transparent t₀ (history ++ events) s' := by
  obtain ⟨hnested, hquiet, herrno⟩ := hi
  obtain ⟨t, scopes⟩ := s
  dsimp only at hnested herrno
  cases a with
  | enter =>
    cases h
    refine ⟨.inside id hnested, ?_, ?_⟩
    · rwa [List.append_nil]
    · rwa [List.append_nil]
  | write =>
    cases scopes with
    | nil => cases h
    | cons g scopes =>
      obtain ⟨mask, outer, rfl, hmask, -, hout⟩ := hnested.cons
      have hblocked : SIGPIPE ∈ t.mask := hmask ▸ Finset.mem_insert_self _ _
      have hbroken : t.brokenPipe = ({ t with pending := true, errno := EPIPE }, []) :=
        if_pos hblocked
      simp only [guarded, hbroken, List.nil_append, Option.some.injEq, Prod.mk.injEq] at h
      obtain ⟨rfl, rfl⟩ := h
      refine ⟨?_, ?_, ?_⟩
      · show Nested t₀ _ t.mask true
        rw [hmask]
        exact .inside (fun _ => rfl) hout
      · rw [List.mem_append, not_or, List.mem_singleton]
        exact ⟨hquiet, by simp⟩
      · rw [leftErrno_append]
        rfl
  | call errno =>
    cases scopes with
    | nil => cases h
    | cons g scopes =>
      cases h
      refine ⟨hnested, ?_, ?_⟩
      · rw [List.mem_append, not_or]
        exact ⟨hquiet, by rw [List.mem_singleton]; exact (by simp)⟩
      · rw [leftErrno_append]
        rfl
  | exit interrupts =>
    cases scopes with
    | nil => cases h
    | cons g scopes =>
      obtain ⟨mask, outer, rfl, -, hpending, hout⟩ := hnested.cons
      have hend := destruct_inside interrupts (hout.consistent h₀) rfl hpending
      simp only [guarded, hend, Option.some.injEq, Prod.mk.injEq] at h
      obtain ⟨rfl, rfl⟩ := h
      refine ⟨hout, ?_, ?_⟩
      · rwa [List.append_nil]
      · rwa [List.append_nil]

/-- **The guard is transparent to the host.**  Whatever scopes a thread opens and leaves, and
    whatever pipes break inside them, no `SIGPIPE` is delivered; outside all scopes the mask and the
    pending state are those that the thread began with, and `errno` is what the last guarded call
    has left. -/
theorem guard_transparent (t₀ : SigThread) (h₀ : Consistent t₀.mask t₀.pending)
    {labels : List GuardLabel} {s : GuardState} {history : List SigEvent}
    (h : guarded.run ⟨t₀, []⟩ labels = some (s, history)) :
    .delivered ∉ history ∧ s.thread.errno = leftErrno t₀.errno history ∧
      (s.scopes = [] → s.thread.mask = t₀.mask ∧ s.thread.pending = t₀.pending) := by
  have hinit : Transparent t₀ [] ⟨t₀, []⟩ := ⟨.outside, List.not_mem_nil, rfl⟩
  obtain ⟨hnested, hquiet, herrno⟩ := Lts.run_invariant (guard_step h₀) hinit h
  refine ⟨hquiet, herrno, fun hscopes => ?_⟩
  rw [hscopes] at hnested
  exact Nested.nil_iff.1 hnested

/-- A pipe breaks in a scope and in the one inside it, for a host with another signal blocked. -/
theorem guard_transparent_nested :
    ∃ s history, guarded.run ⟨⟨{2}, false, 0⟩, []⟩
        [.enter, .write, .enter, .write, .exit 1, .call 11, .exit 0] = some (s, history) ∧
      .delivered ∉ history ∧ s.thread.errno = 11 ∧ s.thread.mask = {2} ∧
        s.thread.pending = false := by
  have hrun : guarded.run ⟨⟨{2}, false, 0⟩, []⟩
      [.enter, .write, .enter, .write, .exit 1, .call 11, .exit 0] =
        some (⟨⟨{2}, false, 11⟩, []⟩, [.left EPIPE, .left EPIPE, .left 11]) := rfl
  obtain ⟨hquiet, -, hhost⟩ := guard_transparent ⟨{2}, false, 0⟩ nofun hrun
  exact ⟨_, _, hrun, hquiet, rfl, hhost rfl⟩

end TrtcAsr
