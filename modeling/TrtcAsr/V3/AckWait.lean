/-
  How long `Connect` waits for the acknowledgement of a start frame (v3.cc).

  * `awaitAck_eq_none_iff`: after which reads the loop reads again;
  * `deadline_honoured_iff`: the loop ends at its deadline, whatever it reads, exactly when no frame
    that it skips is read at or after the deadline;
  * `awaitAck_binary`: a server that only sends binary frames keeps it waiting.
-/
import TrtcAsr.V3.Start

namespace TrtcAsr.V3.SpeechOptions

open TrtcAsr.Speech

/-- The time that reads have taken. -/
def elapsed (reads : List (ℕ × ReadOutcome)) : ℕ := (reads.map Prod.fst).sum

/-- A read that neither accepts nor rejects: nothing in the poll window, or a frame that is neither
    text nor a close. -/
def Undecided : ReadOutcome → Prop
  | .timeout => True
  | .frame opcode _ => opcode ≠ 0x1 ∧ opcode ≠ 0x8
  | .error _ => False

/-- The loop reads again after these reads: none decides, and those that time out do so before the
    deadline. -/
def StillWaits (deadline now : ℕ) (reads : List (ℕ × ReadOutcome)) : Prop :=
  ∀ before d r, before ++ [(d, r)] <+: reads →
    Undecided r ∧ (r = .timeout → now + elapsed before + d < deadline)

/-- `throw ASRError(kErrReadFailed, "read start ack failed: ack timeout")`. -/
def ackTimedOut : Ack := .close (connectFailed (ascii "read start ack failed: ack timeout"))

/-- A read that decides nothing and ends at or after the deadline is the last one, and the wait ends
    in the timeout error. -/
def HonoursDeadline (deps : Deps) (deadline now : ℕ) (reads : List (ℕ × ReadOutcome)) : Prop :=
  ∀ before d r, before ++ [(d, r)] <+: reads → StillWaits deadline now before → Undecided r →
    deadline ≤ now + elapsed before + d →
    awaitAck deps deadline now (before ++ [(d, r)]) =
        some (now + elapsed before + d, ackTimedOut) ∧
      awaitAck deps deadline now reads = some (now + elapsed before + d, ackTimedOut)

variable {deps : Deps} {deadline now : ℕ} {reads before after : List (ℕ × ReadOutcome)}

theorem stillWaits_nil : StillWaits deadline now [] := by
  intro before d r h
  have hnil := List.prefix_nil.1 h
  simp at hnil

theorem stillWaits_cons {d : ℕ} {r : ReadOutcome} :
    StillWaits deadline now ((d, r) :: reads) ↔
      (Undecided r ∧ (r = .timeout → now + d < deadline)) ∧ StillWaits deadline (now + d) reads := by
  constructor
  · intro h
    refine ⟨by simpa [elapsed] using h [] d r (by simp), fun before d' r' hp => ?_⟩
    obtain ⟨hund, hlate⟩ := h ((d, r) :: before) d' r' (List.cons_prefix_cons.2 ⟨rfl, hp⟩)
    refine ⟨hund, fun hr => ?_⟩
    have := hlate hr
    simp only [elapsed, List.map_cons, List.sum_cons] at this ⊢
    omega
  · rintro ⟨hfirst, hrest⟩ before d' r' hp
    cases before with
    | nil =>
      obtain ⟨heq, -⟩ := List.cons_prefix_cons.1 hp
      cases heq
      simpa [elapsed] using hfirst
    | cons x before =>
      obtain ⟨rfl, htail⟩ := List.cons_prefix_cons.1 hp
      obtain ⟨hund, hlate⟩ := hrest before d' r' htail
      refine ⟨hund, fun hr => ?_⟩
      have := hlate hr
      simp only [elapsed, List.map_cons, List.sum_cons] at this ⊢
      omega

/-- The loop goes on behind reads after which it still waits. -/
theorem awaitAck_append (h : StillWaits deadline now before) :
    awaitAck deps deadline now (before ++ after) =
      awaitAck deps deadline (now + elapsed before) after := by
  induction before generalizing now with
  | nil => rfl
  | cons x before ih =>
    obtain ⟨d, r⟩ := x
    obtain ⟨⟨hund, hlate⟩, hrest⟩ := stillWaits_cons.1 h
    have helapsed : now + elapsed ((d, r) :: before) = now + d + elapsed before := by
      simp only [elapsed, List.map_cons, List.sum_cons]
      omega
    rw [helapsed, ← ih hrest, List.cons_append]
    cases r with
    | timeout =>
      have hearly := hlate rfl
      rw [awaitAck, if_neg (by omega)]
    | error what => exact hund.elim
    | frame opcode payload => rw [awaitAck, if_neg hund.2, if_pos hund.1]

/-- **After which reads the loop reads again.** -/
theorem awaitAck_eq_none_iff :
    awaitAck deps deadline now reads = none ↔ StillWaits deadline now reads := by
  induction reads generalizing now with
  | nil => exact iff_of_true rfl stillWaits_nil
  | cons x reads ih =>
    obtain ⟨d, r⟩ := x
    rw [stillWaits_cons, ← ih]
    cases r with
    | timeout =>
      by_cases hlate : deadline ≤ now + d
      · have hnot : ¬ now + d < deadline := by omega
        simp [awaitAck, hlate, hnot]
      · have hearly : now + d < deadline := by omega
        simp [awaitAck, hlate, hearly, Undecided]
    | error what => simp [awaitAck, Undecided]
    | frame opcode payload =>
      by_cases hclose : opcode = 0x8
      · simp [awaitAck, hclose, Undecided]
      by_cases htext : opcode = 0x1
      · simp [awaitAck, htext, Undecided]
      · simp [awaitAck, hclose, htext, Undecided]

/-- **The wait ends at its deadline**, exactly when every frame that the loop skips is read before
    it. -/
theorem deadline_honoured_iff :
    HonoursDeadline deps deadline now reads ↔
      ∀ before d opcode payload, before ++ [(d, .frame opcode payload)] <+: reads →
        StillWaits deadline now before → opcode ≠ 0x1 → opcode ≠ 0x8 →
        now + elapsed before + d < deadline := by
  constructor
  · intro h before d opcode payload hp hwaits htext hclose
    by_contra hlate
    obtain ⟨hend, -⟩ := h before d _ hp hwaits ⟨htext, hclose⟩ (by omega)
    rw [awaitAck_append hwaits, awaitAck, if_neg hclose, if_pos htext, awaitAck] at hend
    cases hend
  · intro h before d r hp hwaits hund hlate
    have hend : ∀ after, awaitAck deps deadline now (before ++ (d, r) :: after) =
        some (now + elapsed before + d, ackTimedOut) := by
      intro after
      rw [awaitAck_append hwaits]
      cases r with
      | timeout => rw [awaitAck, if_pos hlate]; rfl
      | error what => exact hund.elim
      | frame opcode payload =>
        have := h before d opcode payload hp hwaits hund.1 hund.2
        omega
    obtain ⟨after, rfl⟩ := hp
    refine ⟨hend [], ?_⟩
    rw [List.append_assoc]
    exact hend after

/-- **Binary frames keep `Start` waiting**, however many there are and whatever time they take. -/
theorem awaitAck_binary (durations : List ℕ) :
    awaitAck deps deadline now (durations.map fun d => (d, .frame 0x2 [])) = none := by
  induction durations generalizing now with
  | nil => rfl
  | cons d durations ih =>
    rw [List.map_cons, awaitAck, if_neg (by omega), if_pos (by omega)]
    exact ih

/-- A binary frame that is read at the deadline of five seconds is skipped. -/
theorem binary_outlasts_deadline :
    ¬ ∀ (deps : Deps) (deadline now : ℕ) (reads : List (ℕ × ReadOutcome)),
      HonoursDeadline deps deadline now reads := by
  intro h
  obtain ⟨hend, -⟩ := h (sampleDeps []) kAckTimeout 0 [(5000, .frame 0x2 [])] [] 5000 _
    List.prefix_rfl stillWaits_nil ⟨by decide, by decide⟩ (by decide)
  cases hend

end TrtcAsr.V3.SpeechOptions
