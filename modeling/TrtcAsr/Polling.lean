/-
  Waiting for the result of a task (file_recognizer.cc, v3.cc, `WaitForResultWithInterval`).

  Both clients ask for the status of the task, pause and ask again, until the task has ended, until
  an answer cannot be had, or until the clock is past the deadline.

  * `waitRule`: what the two loops make of an answer; `V2.waitForResult_eq`, `V3.waitForResult_eq`:
    they are the loop of that rule;
  * `waits_end`: with a pause of at least `interval` they end, after a bounded number of requests,
    and with what the last answer says;
  * `waits_agree`: told the same, the two clients ask as often and end alike.
-/
import TrtcAsr.Lib.Polling
import TrtcAsr.V2.Responses
import TrtcAsr.V3.Offline

namespace TrtcAsr

open Polling (Paced Pass Rule)

/-! ## The loop of v2 -/

namespace V2

def kTaskStatusSuccess : ℤ := 2
def kTaskStatusFailed : ℤ := 3

/-- One pass of the polling loop: what its `DescribeTaskStatus` draws, its transport, and the clock
    after it. -/
structure Poll where
  env : CallEnv
  curl : HttpRequest → CurlOutcome
  clock : ℤ

def taskFailed (status : TaskStatus) : ASRError :=
  ⟨kErrServerError, ascii "task failed: " ++ status.errorMsg ++ ascii " (RecTaskId: " ++
    status.recTaskId ++ ascii ")"⟩

def notCompleted (recTaskId : Bytes) (timeout : ℤ) (status : TaskStatus) : ASRError :=
  ⟨kErrTimeout, ascii "task not completed within " ++ toDec timeout ++ ascii "ms" ++
    ascii " (RecTaskId: " ++ recTaskId ++ ascii ", Status: " ++ status.statusStr ++ ascii ")"⟩

/-- One pass of the loop of `WaitForResultWithInterval`; `none` is another pass after a sleep. -/
def pollOnce (deps : Deps) (client : Client) (recTaskId : Bytes) (timeout deadline : ℤ)
    (p : Poll) : Option (Except Exn TaskStatus) :=
  match describeTaskStatus deps client p.env p.curl recTaskId with
  | .error e => some (.error e)
  | .ok status =>
    if status.status = kTaskStatusSuccess then some (.ok status)
    else if status.status = kTaskStatusFailed then some (.error (.asr (taskFailed status)))
    else if p.clock > deadline then some (.error (.asr (notCompleted recTaskId timeout status)))
    else none

/-- `WaitForResultWithInterval` over the passes `polls`; `none` while it is still waiting. -/
def waitForResult (deps : Deps) (client : Client) (recTaskId : Bytes) (timeout deadline : ℤ) :
    List Poll → Option (Except Exn TaskStatus)
  | [] => none
  | p :: polls =>
    match pollOnce deps client recTaskId timeout deadline p with
    | some result => some result
    | none => waitForResult deps client recTaskId timeout deadline polls

end V2

namespace V3

def taskFailed (status : TranscriptionStatus) : ASRError :=
  ⟨kErrServerError, ascii "task failed: " ++ status.errorMsg ++ ascii " (transcription_id: " ++
    status.transcriptionId ++ ascii ")"⟩

def notCompleted (transcriptionId : Bytes) (timeout : ℤ) (status : TranscriptionStatus) : ASRError :=
  ⟨kErrTimeout, ascii "task not completed within " ++ toDec timeout ++
    ascii "ms (transcription_id: " ++ transcriptionId ++ ascii ", Status: " ++ status.statusStr ++
    ascii ")"⟩

end V3

/-! ## The rule of both -/

section

variable {σ : Type} (code : σ → ℤ) (failed late : σ → ASRError)

/-- What an answer to the question for the status, which has its code at `code`, means for the
    loop. -/
def waitRule : Rule (Except Exn σ) (Except Exn σ) where
  decides
    | .error e => some (.error e)
    | .ok status =>
      if code status = V3.kTaskStatusSuccess then some (.ok status)
      else if code status = V3.kTaskStatusFailed then some (.error (.asr (failed status)))
      else none
  late
    | .error e => .error e
    | .ok status => .error (.asr (late status))

/-- The answer of a task that has not ended. -/
def Pending (answer : Except Exn σ) : Prop :=
  ∃ status, answer = .ok status ∧ code status ≠ V3.kTaskStatusSuccess ∧
    code status ≠ V3.kTaskStatusFailed

/-- How a wait ends on its last answer: the answer is an error, it is of a task that has succeeded
    or failed, or the deadline has passed. -/
inductive Concludes (deadline clock : ℤ) : Except Exn σ → Except Exn σ → Prop where
  | error (e : Exn) : Concludes deadline clock (.error e) (.error e)
  | success (status : σ) (h : code status = V3.kTaskStatusSuccess) :
    Concludes deadline clock (.ok status) (.ok status)
  | failure (status : σ) (h : code status = V3.kTaskStatusFailed) :
    Concludes deadline clock (.ok status) (.error (.asr (failed status)))
  | late (status : σ) (h : Pending code (.ok status)) (hclock : deadline < clock) :
    Concludes deadline clock (.ok status) (.error (.asr (late status)))

variable {code failed late} {deadline : ℤ}

theorem decides_eq_none_iff {answer : Except Exn σ} :
    (waitRule code failed late).decides answer = none ↔ Pending code answer := by
  cases answer with
  | error e => simp [waitRule, Pending]
  | ok status =>
    unfold waitRule Pending
    by_cases hs : code status = V3.kTaskStatusSuccess
    · simp [hs]
    by_cases hf : code status = V3.kTaskStatusFailed
    · simp [hf, show V3.kTaskStatusFailed ≠ V3.kTaskStatusSuccess by decide]
    · simp [hs, hf]

theorem concludes_of_verdict {before : List (Pass (Except Exn σ))} {last : Pass (Except Exn σ)}
    {result : Except Exn σ}
    (h : (waitRule code failed late).Verdict deadline before last result) :
    Concludes code failed late deadline last.told last.answer result := by
  rcases h.verdict with hdecides | ⟨hnone, htold, hlate⟩
  · cases hanswer : last.answer with
    | error e =>
      rw [hanswer] at hdecides
      cases hdecides
      exact .error e
    | ok status =>
      rw [hanswer] at hdecides
      change (if _ then _ else _) = _ at hdecides
      split at hdecides
      · rename_i hs
        cases hdecides
        exact .success status hs
      split at hdecides
      · rename_i hf
        cases hdecides
        exact .failure status hf
      · cases hdecides
  · have hpending := decides_eq_none_iff.1 hnone
    obtain ⟨status, hanswer, -⟩ := id hpending
    rw [hanswer] at hpending hlate
    cases hlate
    rw [hanswer]
    exact .late status hpending htold

/-- A pass of the two loops. -/
theorem pass_waitRule (asked told : ℤ) (answer : Except Exn σ) :
    (waitRule code failed late).pass deadline ⟨asked, answer, told⟩ =
      match answer with
      | .error e => some (.error e)
      | .ok status =>
        if code status = V3.kTaskStatusSuccess then some (.ok status)
        else if code status = V3.kTaskStatusFailed then some (.error (.asr (failed status)))
        else if told > deadline then some (.error (.asr (late status)))
        else none := by
  cases answer with
  | error e => rfl
  | ok status =>
    unfold Rule.pass waitRule
    dsimp only
    by_cases hs : code status = V3.kTaskStatusSuccess
    · simp only [hs, if_true]
    by_cases hf : code status = V3.kTaskStatusFailed
    · simp only [if_neg hs, if_pos hf]
    · simp only [hs, hf, if_false]

/-- A wait ends, after `most` passes and one more: each of them finds the task still going on, and
    the last one gives the result, whatever would be asked after it. -/
def EndsWithin {π : Type} (code : σ → ℤ) (failed late : σ → ASRError) (deadline most : ℤ)
    (passOf : π → Pass (Except Exn σ)) (wait : List π → Option (Except Exn σ)) (polls : List π) :
    Prop :=
  ∃ before last after result, polls = before ++ last :: after ∧ (before.length : ℤ) ≤ most ∧
    (∀ p ∈ before, Pending code (passOf p).answer ∧ (passOf p).told ≤ deadline) ∧
    Concludes code failed late deadline (passOf last).told (passOf last).answer result ∧
    ∀ unasked, wait (before ++ last :: unasked) = some result

theorem endsWithin_of_paced {π : Type} {passOf : π → Pass (Except Exn σ)}
    {wait : List π → Option (Except Exn σ)}
    (hwait : ∀ polls, wait polls = (waitRule code failed late).run deadline (polls.map passOf))
    {interval start : ℤ} (hinterval : 0 < interval) {polls : List π}
    (hpaced : Paced interval start (polls.map passOf))
    (hlong : max (deadline - start) 0 / interval + 1 < polls.length) :
    EndsWithin code failed late deadline (max (deadline - start) 0 / interval + 1) passOf wait
      polls := by
  obtain ⟨before, last, after, result, hpasses, hverdict, hlength⟩ :=
    (waitRule code failed late).ends_of_paced hpaced hinterval (by simpa using hlong)
  obtain ⟨before, rest, rfl, rfl, hrest⟩ := List.map_eq_append_iff.1 hpasses
  obtain ⟨last, after, rfl, rfl, rfl⟩ := List.map_eq_cons_iff.1 hrest
  refine ⟨before, last, after, result, rfl, by simpa using hlength, fun p hp => ?_,
    concludes_of_verdict hverdict, fun unasked => ?_⟩
  · obtain ⟨hdecides, htold⟩ := hverdict.waits _ (List.mem_map_of_mem hp)
    exact ⟨decides_eq_none_iff.1 hdecides, htold⟩
  · rw [hwait, List.map_append, List.map_cons]
    exact hverdict.run _

end

/-! ## The loops are loops of the rule -/

namespace V2

variable (deps : Deps) (client : Client) (recTaskId : Bytes) (timeout deadline : ℤ)

/-- A pass of the loop, with the time at which its request is made. -/
def passOf (p : ℤ × Poll) : Pass (Except Exn TaskStatus) :=
  ⟨p.1, describeTaskStatus deps client p.2.env p.2.curl recTaskId, p.2.clock⟩

theorem pollOnce_eq (asked : ℤ) (p : Poll) :
    pollOnce deps client recTaskId timeout deadline p =
      (waitRule TaskStatus.status taskFailed (notCompleted recTaskId timeout)).pass deadline
        (passOf deps client recTaskId (asked, p)) := by
  rw [passOf, pass_waitRule, pollOnce]
  cases describeTaskStatus deps client p.env p.curl recTaskId with
  | error e => rfl
  | ok status => rfl

theorem waitForResult_eq (polls : List (ℤ × Poll)) :
    waitForResult deps client recTaskId timeout deadline (polls.map Prod.snd) =
      (waitRule TaskStatus.status taskFailed (notCompleted recTaskId timeout)).run deadline
        (polls.map (passOf deps client recTaskId)) := by
  induction polls with
  | nil => rfl
  | cons p polls ih =>
    rw [List.map_cons, List.map_cons, waitForResult, Rule.run, ← pollOnce_eq]
    cases pollOnce deps client recTaskId timeout deadline p.2 with
    | some result => rfl
    | none => exact ih

end V2

namespace V3

variable (deps : Deps) (client : Client) (transcriptionId : Bytes) (timeout deadline : ℤ)

/-- A pass of the loop, with the time at which its request is made. -/
def passOf (p : ℤ × Poll) : Pass (Except Exn TranscriptionStatus) :=
  ⟨p.1, describeTask deps client p.2.env transcriptionId, p.2.clock⟩

theorem pollOnce_eq (asked : ℤ) (p : Poll) :
    pollOnce deps client transcriptionId timeout deadline p =
      (waitRule TranscriptionStatus.status taskFailed (notCompleted transcriptionId timeout)).pass
        deadline (passOf deps client transcriptionId (asked, p)) := by
  rw [passOf, pass_waitRule, pollOnce]
  cases describeTask deps client p.env transcriptionId with
  | error e => rfl
  | ok status => rfl

theorem waitForResult_eq (polls : List (ℤ × Poll)) :
    waitForResult deps client transcriptionId timeout deadline (polls.map Prod.snd) =
      (waitRule TranscriptionStatus.status taskFailed (notCompleted transcriptionId timeout)).run
        deadline (polls.map (passOf deps client transcriptionId)) := by
  induction polls with
  | nil => rfl
  | cons p polls ih =>
    rw [List.map_cons, List.map_cons, waitForResult, Rule.run, ← pollOnce_eq]
    cases pollOnce deps client transcriptionId timeout deadline p.2 with
    | some result => rfl
    | none => exact ih

end V3

/-! ## The two waits -/

/-- The two clients are told the same: a status with the same code, or an error with the same
    code. -/
def SameAnswer : Except Exn V2.TaskStatus → Except Exn V3.TranscriptionStatus → Prop
  | .ok status, .ok status' => status.status = status'.status
  | .error (.asr e), .error (.asr e') => e.code = e'.code
  | _, _ => False

theorem alike_waitRule (recTaskId transcriptionId : Bytes) (timeout : ℤ) :
    (waitRule V2.TaskStatus.status V2.taskFailed (V2.notCompleted recTaskId timeout)).Alike
      (waitRule V3.TranscriptionStatus.status V3.taskFailed
        (V3.notCompleted transcriptionId timeout)) SameAnswer SameAnswer := by
  constructor
  · intro a a' h
    cases a with
    | error e =>
      cases a' with
      | error e' => exact .some h
      | ok status' => cases e <;> exact h.elim
    | ok status =>
      cases a' with
      | error e' => exact h.elim
      | ok status' =>
        change Option.Rel SameAnswer (if _ then _ else _) (if _ then _ else _)
        rw [show status.status = status'.status from h]
        split
        · exact .some h
        split
        · exact .some rfl
        · exact .none
  · intro a a' h hnone
    cases a with
    | error e => cases hnone
    | ok status =>
      cases a' with
      | error e' => exact h.elim
      | ok status' => exact (rfl : kErrTimeout = kErrTimeout)

/-- **Both waits end.** With a pause of at least `interval` between two requests, a wait makes at
    most one request more than there are intervals in its timeout, and one to end; each but the
    last finds the task still going on, and the last one gives the result. And when the two clients
    are told the same at the same time, either both are still waiting or both end alike. -/
theorem waits_end {deps : Deps} {client₂ : V2.Client} {client₃ : V3.Client} {id : Bytes}
    {interval start timeout : ℤ} (hinterval : 0 < interval) {polls₂ : List (ℤ × V2.Poll)}
    {polls₃ : List (ℤ × V3.Poll)}
    (hpaced₂ : Paced interval start (polls₂.map (V2.passOf deps client₂ id)))
    (hpaced₃ : Paced interval start (polls₃.map (V3.passOf deps client₃ id))) :
    (max timeout 0 / interval + 1 < polls₂.length →
      EndsWithin V2.TaskStatus.status V2.taskFailed (V2.notCompleted id timeout) (start + timeout)
        (max timeout 0 / interval + 1) (V2.passOf deps client₂ id)
        (fun polls => V2.waitForResult deps client₂ id timeout (start + timeout)
          (polls.map Prod.snd)) polls₂) ∧
    (max timeout 0 / interval + 1 < polls₃.length →
      EndsWithin V3.TranscriptionStatus.status V3.taskFailed (V3.notCompleted id timeout)
        (start + timeout) (max timeout 0 / interval + 1) (V3.passOf deps client₃ id)
        (fun polls => V3.waitForResult deps client₃ id timeout (start + timeout)
          (polls.map Prod.snd)) polls₃) ∧
    (List.Forall₂ (fun p p' => p.2.clock = p'.2.clock ∧
        SameAnswer (V2.passOf deps client₂ id p).answer (V3.passOf deps client₃ id p').answer)
      polls₂ polls₃ →
      Option.Rel SameAnswer
        (V2.waitForResult deps client₂ id timeout (start + timeout) (polls₂.map Prod.snd))
        (V3.waitForResult deps client₃ id timeout (start + timeout) (polls₃.map Prod.snd))) := by
  have hspan : start + timeout - start = timeout := by omega
  refine ⟨fun hlong => ?_, fun hlong => ?_, fun hsame => ?_⟩
  · have hends := endsWithin_of_paced (V2.waitForResult_eq deps client₂ id timeout (start + timeout))
      hinterval hpaced₂ (by rwa [hspan])
    rwa [hspan] at hends
  · have hends := endsWithin_of_paced (V3.waitForResult_eq deps client₃ id timeout (start + timeout))
      hinterval hpaced₃ (by rwa [hspan])
    rwa [hspan] at hends
  · rw [V2.waitForResult_eq, V3.waitForResult_eq]
    exact Rule.run_alike (alike_waitRule id id timeout)
      (List.forall₂_map_left_iff.2 (List.forall₂_map_right_iff.2 hsame))

/-! A task that is still running at the first pass and has succeeded at the second. -/

def sampleAnswer (status : String) : Bytes :=
  ascii "\x7b\"Response\":\x7b\"Data\":\x7b\"Status\":" ++ ascii status ++
    ascii "\x7d\x7d,\"status\":" ++ ascii status ++ ascii "\x7d"

def sampleStatusJson (status : ℕ) : Json :=
  .obj [("Response", .obj [("Data", .obj [("Status", .uint status)])]), ("status", .uint status)]

def samplePollDeps : Deps :=
  sampleDeps [(sampleAnswer "1", sampleStatusJson 1), (sampleAnswer "2", sampleStatusJson 2)]

def samplePolls₂ : List (ℤ × V2.Poll) :=
  [(0, ⟨⟨.replicate 16 0, 0, 0⟩, fun _ => .done 200 (sampleAnswer "1"), 0⟩),
    (1, ⟨⟨.replicate 16 1, 0, 0⟩, fun _ => .done 200 (sampleAnswer "2"), 1⟩)]

def samplePolls₃ : List (ℤ × V3.Poll) :=
  [(0, ⟨⟨.replicate 16 0, 0, fun _ => .done 200 (sampleAnswer "1")⟩, 0⟩),
    (1, ⟨⟨.replicate 16 1, 0, fun _ => .done 200 (sampleAnswer "2")⟩, 1⟩)]

def sampleWaiters : V2.Client × V3.Client :=
  ({ account := { sampleCredential with appId := 1300000000 } }, { credential := sampleCredential })

/-- Both return the status of the second pass. -/
theorem waits_end_success :
    ∃ status status',
      V2.waitForResult samplePollDeps sampleWaiters.1 (ascii "t") 0 0 (samplePolls₂.map Prod.snd) =
        some (.ok status) ∧
      V3.waitForResult samplePollDeps sampleWaiters.2 (ascii "t") 0 0 (samplePolls₃.map Prod.snd) =
        some (.ok status') ∧
      status.status = status'.status ∧
      ∃ before last after result, samplePolls₃ = before ++ last :: after ∧
        (before.length : ℤ) ≤ max 0 0 / 1 + 1 ∧
        Concludes V3.TranscriptionStatus.status V3.taskFailed (V3.notCompleted (ascii "t") 0) 0
          last.2.clock (V3.passOf samplePollDeps sampleWaiters.2 (ascii "t") last).answer result := by
  have hpaced₂ : Paced 1 0 (samplePolls₂.map
      (V2.passOf samplePollDeps sampleWaiters.1 (ascii "t"))) :=
    ⟨by decide, by decide, by decide, by decide, trivial⟩
  have hpaced₃ : Paced 1 0 (samplePolls₃.map
      (V3.passOf samplePollDeps sampleWaiters.2 (ascii "t"))) :=
    ⟨by decide, by decide, by decide, by decide, trivial⟩
  obtain ⟨-, hends, hagree⟩ := @waits_end samplePollDeps _ _ (ascii "t") 1 0 0 (by decide)
    samplePolls₂ samplePolls₃ hpaced₂ hpaced₃
  have hfirst : ∃ status, V2.waitForResult samplePollDeps sampleWaiters.1 (ascii "t") 0 0
      (samplePolls₂.map Prod.snd) = some (.ok status) := ⟨_, rfl⟩
  have hsecond : ∃ status, V3.waitForResult samplePollDeps sampleWaiters.2 (ascii "t") 0 0
      (samplePolls₃.map Prod.snd) = some (.ok status) := ⟨_, rfl⟩
  obtain ⟨status, hstatus⟩ := hfirst
  obtain ⟨status', hstatus'⟩ := hsecond
  have hsame := hagree (.cons ⟨rfl, rfl⟩ (.cons ⟨rfl, rfl⟩ .nil))
  rw [show (0 : ℤ) + 0 = 0 from rfl, hstatus, hstatus'] at hsame
  obtain ⟨before, last, after, result, heq, hlength, -, hconcludes, -⟩ := hends (by decide)
  cases hsame with
  | some hcode =>
    exact ⟨status, status', hstatus, hstatus', hcode, before, last, after, result, heq, hlength,
      hconcludes⟩

end TrtcAsr
