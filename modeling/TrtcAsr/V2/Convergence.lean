/-
  How the v2 recognition operations end (sentence_recognizer.cc, file_recognizer.cc).

  * `checkEnvelope_eq`: what the envelope comes to, without the accesses that could throw;
  * `responses_converge`: once its request is sent an operation returns or throws an `ASRError`,
    whatever the transport and the server do;
  * `reported_error_iff`: an operation returns only on responses that report no error, exactly
    when the error is an object or the rest of the response is refused anyway;
  * `string_error_succeeds`: an error that is a string.
-/
import TrtcAsr.V2.Responses

namespace TrtcAsr.V2

/-! ## The envelope -/

/-- The member `k`, where it is an object. -/
def objectMember (j : Json) (k : String) : Option Json :=
  (j.member k).filter Json.isObject

/-- **No access of the envelope throws**: each is made on an object that has the member. -/
theorem checkEnvelope_eq (root : Json) :
    checkEnvelope root =
      match objectMember root "Response" with
      | none => throwAsr kErrServerError (ascii "empty response from server")
      | some response =>
        match objectMember response "Error" with
        | none => .ok response
        | some apiErr => throwAsr kErrServerError (serverErrorText response apiErr) := by
  unfold checkEnvelope objectMember
  simp only [Json.hasObject_eq, Except.mapError, bind, Except.bind]
  cases hroot : root.member "Response" with
  | none => rfl
  | some response =>
    rw [Json.index_of_member hroot]
    by_cases hresp : response.isObject
    swap
    · simp [hresp, Option.filter_some]
    simp only [Option.any_some, Option.filter_some, hresp, not_true, if_true, if_false]
    cases herr : response.member "Error" with
    | none => rfl
    | some apiErr =>
      rw [Json.index_of_member herr]
      by_cases hobj : apiErr.isObject
      · simp [hobj, Option.filter_some]
      · simp [hobj, Option.filter_some, pure, Except.pure]

section

variable {α : Type} {deps : Deps} {curl : HttpRequest → CurlOutcome}

theorem converges_throwAsr (code : ℤ) (message : Bytes) :
    Converges (throwAsr code message : Except Exn α) :=
  trivial

theorem converges_unmarshal (x : Except JsonError α) : Converges (unmarshal deps x) := by
  cases x with
  | error e => trivial
  | ok a => trivial

theorem converges_checkEnvelope (root : Json) : Converges (checkEnvelope root) := by
  rw [checkEnvelope_eq]
  split
  · exact converges_throwAsr _ _
  split
  · trivial
  · exact converges_throwAsr _ _

theorem converges_parseApiEnvelope (body : Bytes) : Converges (parseApiEnvelope deps body) := by
  unfold parseApiEnvelope
  split
  · exact converges_throwAsr _ _
  · exact converges_checkEnvelope _

theorem converges_httpBody (req : HttpRequest) : Converges (httpBody curl req) := by
  unfold httpBody httpPost
  cases curl req with
  | initFailed => exact converges_throwAsr _ _
  | failed strerror body => exact converges_throwAsr _ _
  | done status body =>
    by_cases hstatus : status = 200
    · simp [hstatus, bind, Except.bind, pure, Except.pure, Converges]
    · simp [hstatus, bind, Except.bind, throwAsr, Converges]

/-- A call whose reading converges does so from the moment that its request is sent. -/
theorem call_converges_iff {request : Except Exn HttpRequest} {read : Json → Except Exn α}
    (hread : ∀ response, Converges (read response)) :
    Converges (call deps curl request read) ↔ Converges request := by
  unfold call
  rw [converges_bind]
  refine and_iff_left fun req _ => ?_
  refine converges_bind.2 ⟨converges_httpBody req, fun body _ => ?_⟩
  exact converges_bind.2 ⟨converges_parseApiEnvelope body, fun response _ => hread response⟩

theorem converges_createdTaskId (response : Json) : Converges (createdTaskId deps response) := by
  refine converges_bind.2 ⟨converges_unmarshal _, fun taskId _ => ?_⟩
  by_cases h : taskId = []
  · rw [if_pos h]
    exact converges_throwAsr _ _
  · rw [if_neg h]
    trivial

theorem converges_describedStatus (response : Json) :
    Converges (describedStatus deps response) := by
  unfold describedStatus
  rw [Json.hasObject_eq]
  by_cases h : (response.member "Data").any Json.isObject
  · simp only [h, not_true, if_false, Except.mapError, bind, Except.bind]
    exact converges_unmarshal _
  · simp only [h, Except.mapError, bind, Except.bind]
    exact converges_throwAsr _ _

end

/-- **Every response ends an operation by a value or an `ASRError`.** Only what keeps a request
    from being sent can leave it otherwise. -/
theorem responses_converge (deps : Deps) (client : Client) (env : CallEnv)
    (curl : HttpRequest → CurlOutcome) (sreq : SentenceRecognitionRequest)
    (creq : CreateRecTaskRequest) (recTaskId : Bytes) :
    (Converges (recognize deps client env curl sreq) ↔
      Converges (recognizeRequest deps client env sreq)) ∧
    (Converges (createTask deps client env curl creq) ↔
      Converges (createTaskRequest deps client env creq)) ∧
    (Converges (describeTaskStatus deps client env curl recTaskId) ↔
      Converges (describeTaskStatusRequest deps client env recTaskId)) :=
  ⟨call_converges_iff fun _ => converges_unmarshal _, call_converges_iff converges_createdTaskId,
    call_converges_iff converges_describedStatus⟩

/-! ## What the decoders accept -/

def wordSchema : List (String × Json.Kind) :=
  [("Word", .str), ("StartTime", .int64), ("EndTime", .int64)]

def resultSchema : List (String × Json.Kind) :=
  [("Result", .str), ("AudioDuration", .int64), ("WordSize", .int), ("RequestId", .str)]

def detailSchema : List (String × Json.Kind) :=
  [("FinalSentence", .str), ("SliceSentence", .str), ("WrittenText", .str), ("StartMs", .int64),
    ("EndMs", .int64), ("WordsNum", .int), ("SpeechSpeed", .double), ("SilenceTime", .int64),
    ("SpeakerId", .int), ("SpeakerRoleName", .str), ("ChannelId", .int), ("Language", .str)]

def statusSchema : List (String × Json.Kind) :=
  [("RecTaskId", .str), ("Status", .int), ("StatusStr", .str), ("Progress", .int),
    ("Result", .str), ("ErrorMsg", .str), ("AudioDuration", .double)]

/-- What stands under the first of two keys that has a value is a number. -/
def PicksInt (j : Json) (primary fallback : String) : Prop :=
  ∀ v, (presentAt j primary).or (presentAt j fallback) = some v → v.getInt64.isSome

/-- The schema of each decoder, elements of its arrays included. -/
def ResultTyped (j : Json) : Prop :=
  j.Has resultSchema ∧ ∀ w ∈ j.arrayAt "WordList", w.Has wordSchema

def WordsTyped (j : Json) : Prop :=
  j.Has [("Word", .str)] ∧ PicksInt j "StartTime" "OffsetStartMs" ∧
    PicksInt j "EndTime" "OffsetEndMs"

def DetailTyped (j : Json) : Prop :=
  j.Has detailSchema ∧ ∀ w ∈ j.arrayAt "Words", WordsTyped w

def StatusTyped (j : Json) : Prop :=
  j.Has statusSchema ∧ ∀ d ∈ j.arrayAt "ResultDetail", DetailTyped d

/-- `Data` names a task. -/
def NamesTask (response : Json) : Prop :=
  ∃ data id, objectMember response "Data" = some data ∧
    data.member "RecTaskId" = some (.str id) ∧ id ≠ []

/-- `Data` is the status of a task. -/
def DescribesTask (response : Json) : Prop :=
  ∃ data, objectMember response "Data" = some data ∧ StatusTyped data

theorem pickInt_ok_iff {j : Json} {primary fallback : String} :
    (∃ n, pickInt j primary fallback = .ok n) ↔ PicksInt j primary fallback := by
  unfold pickInt PicksInt
  cases (presentAt j primary).or (presentAt j fallback) with
  | none => simp
  | some v => cases hv : v.getInt64 with
    | none => simp [hv]
    | some n => simp [hv]

theorem parseSentenceWord_ok_iff {j : Json} :
    (∃ w, parseSentenceWord j = .ok w) ↔ j.Has wordSchema := by
  simp only [parseSentenceWord, exists_bind_ok, exists_pure_ok, exists_and_right,
    Json.value_ok_iff, and_true]
  by_cases hj : j.isObject
  · simp [hj, Json.Has, wordSchema, Json.Reads, Json.Kind.Accepts]
  · simp [hj, Json.Has]

theorem parseResult_ok_iff {j : Json} : (∃ r, parseResult j = .ok r) ↔ ResultTyped j := by
  simp only [parseResult, exists_bind_ok, exists_pure_ok, exists_and_right, Json.value_ok_iff,
    exists_mapM_ok, parseSentenceWord_ok_iff, and_true]
  by_cases hj : j.isObject
  · simp [hj, ResultTyped, Json.Has, resultSchema, Json.Reads, Json.Kind.Accepts, and_assoc]
  · simp [hj, ResultTyped, Json.Has]

theorem parseSentenceWords_ok_iff {j : Json} :
    (∃ w, parseSentenceWords j = .ok w) ↔ WordsTyped j := by
  simp only [parseSentenceWords, exists_bind_ok, exists_pure_ok, exists_and_right,
    Json.value_ok_iff, pickInt_ok_iff, and_true]
  by_cases hj : j.isObject
  · simp [hj, WordsTyped, Json.Has, Json.Reads, Json.Kind.Accepts]
  · simp [hj, WordsTyped, Json.Has]

theorem parseSentenceDetail_ok_iff {j : Json} :
    (∃ d, parseSentenceDetail j = .ok d) ↔ DetailTyped j := by
  simp only [parseSentenceDetail, exists_bind_ok, exists_pure_ok, exists_and_right,
    Json.value_ok_iff, exists_mapM_ok, parseSentenceWords_ok_iff, and_true]
  by_cases hj : j.isObject
  · simp [hj, DetailTyped, Json.Has, detailSchema, Json.Reads, Json.Kind.Accepts, and_assoc]
  · simp [hj, DetailTyped, Json.Has]

theorem parseTaskStatus_ok_iff {j : Json} :
    (∃ s, parseTaskStatus j = .ok s) ↔ StatusTyped j := by
  simp only [parseTaskStatus, exists_bind_ok, exists_pure_ok, exists_and_right,
    Json.value_ok_iff, exists_mapM_ok, parseSentenceDetail_ok_iff, and_true]
  by_cases hj : j.isObject
  · simp [hj, StatusTyped, Json.Has, statusSchema, Json.Reads, Json.Kind.Accepts, and_assoc]
  · simp [hj, StatusTyped, Json.Has]

section

variable {α : Type} {deps : Deps}

theorem unmarshal_eq_ok {x : Except JsonError α} {a : α} :
    unmarshal deps x = .ok a ↔ x = .ok a :=
  mapError_eq_ok

theorem sentenceResult_ok_iff {response : Json} :
    (∃ r, sentenceResult deps response = .ok r) ↔ ResultTyped response := by
  simp only [sentenceResult, unmarshal_eq_ok, parseResult_ok_iff]

theorem objectMember_eq_some {j v : Json} {k : String} :
    objectMember j k = some v ↔ j.member k = some v ∧ v.isObject := by
  simp [objectMember, Option.filter_eq_some_iff]

theorem recTaskId_eq (response : Json) :
    recTaskId response =
      match objectMember response "Data" with
      | none => .ok []
      | some data => data.value Json.getStr "RecTaskId" [] := by
  unfold recTaskId objectMember
  rw [Json.hasObject_eq]
  cases h : response.member "Data" with
  | none => rfl
  | some data =>
    rw [Json.index_of_member h]
    by_cases hobj : data.isObject
    · simp [hobj, Option.filter_some, bind, Except.bind]
    · simp [hobj, Option.filter_some, bind, Except.bind, pure, Except.pure]

theorem createdTaskId_ok_iff {response : Json} :
    (∃ id, createdTaskId deps response = .ok id) ↔ NamesTask response := by
  have hread : (∃ id, createdTaskId deps response = .ok id) ↔
      ∃ id, recTaskId response = .ok id ∧ id ≠ [] := by
    simp only [createdTaskId, exists_bind_ok, unmarshal_eq_ok]
    refine exists_congr fun id => and_congr_right fun _ => ?_
    by_cases hid : id = []
    · simp [hid, throwAsr]
    · simp [hid, pure, Except.pure]
  rw [hread, recTaskId_eq, NamesTask]
  cases hdata : objectMember response "Data" with
  | none => simp
  | some data =>
    obtain ⟨ms, rfl⟩ : ∃ ms, data = .obj ms := by
      have hobj := (objectMember_eq_some.1 hdata).2
      cases data with
      | obj ms => exact ⟨ms, rfl⟩
      | _ => cases hobj
    simp only [Json.value, Json.member, Option.some.injEq, exists_eq_left', exists_and_left]
    cases ms.lookup "RecTaskId" with
    | none => simp
    | some v =>
      cases v with
      | str id => simp [Json.getStr]
      | _ => simp [Json.getStr]

theorem describedStatus_ok_iff {response : Json} :
    (∃ s, describedStatus deps response = .ok s) ↔ DescribesTask response := by
  unfold describedStatus DescribesTask objectMember
  rw [Json.hasObject_eq]
  cases hdata : response.member "Data" with
  | none => simp [throwAsr, bind, Except.bind, Except.mapError]
  | some data =>
    rw [Json.index_of_member hdata]
    by_cases hobj : data.isObject
    · simp only [Option.any_some, hobj, Option.filter_some, if_true, Option.some.injEq,
        exists_eq_left', ← parseTaskStatus_ok_iff]
      exact exists_congr fun _ => unmarshal_eq_ok
    · simp [hobj, Option.filter_some, throwAsr, bind, Except.bind, Except.mapError]

/-! ## Reported errors -/

/-- The response that an outcome of the transport carries. -/
def Enveloped (deps : Deps) (outcome : CurlOutcome) (response : Json) : Prop :=
  ∃ body root, outcome = .done 200 body ∧ deps.parse body = .ok root ∧
    objectMember root "Response" = some response

/-- The outcome carries a response, and its error is absent or null. -/
def NoError (deps : Deps) (outcome : CurlOutcome) : Prop :=
  ∃ response, Enveloped deps outcome response ∧ ∀ e, response.member "Error" = some e → e.isNull

/-- A result is returned only on a response that reports no error, and every other outcome of the
    transport ends in an `ASRError`. -/
structure ErrorsThrown (deps : Deps) (curl : HttpRequest → CurlOutcome)
    (request : Except Exn HttpRequest) (result : Except Exn α) : Prop where
  returns : ∀ v, result = .ok v → ∃ req, request = .ok req ∧ NoError deps (curl req)
  throws : ∀ req, request = .ok req → ¬ NoError deps (curl req) → ∃ e, result = .error (.asr e)

/-- An error in the response is an object, or what the operation reads next is refused. -/
def ErrorsRefused (deps : Deps) (curl : HttpRequest → CurlOutcome) (typed : Json → Prop)
    (request : Except Exn HttpRequest) : Prop :=
  ∀ req response e, request = .ok req → Enveloped deps (curl req) response →
    response.member "Error" = some e → e.isNull ∨ e.isObject ∨ ¬ typed response

theorem enveloped_unique {outcome : CurlOutcome} {r₁ r₂ : Json} (h₁ : Enveloped deps outcome r₁)
    (h₂ : Enveloped deps outcome r₂) : r₁ = r₂ := by
  obtain ⟨body, root, rfl, hparse, hresp⟩ := h₁
  obtain ⟨body', root', hdone, hparse', hresp'⟩ := h₂
  cases hdone
  cases hparse.symm.trans hparse'
  exact Option.some.inj (hresp.symm.trans hresp')

theorem httpBody_eq_ok {curl : HttpRequest → CurlOutcome} {req : HttpRequest} {body : Bytes} :
    httpBody curl req = .ok body ↔ curl req = .done 200 body := by
  unfold httpBody httpPost
  cases curl req with
  | initFailed => exact iff_of_false nofun nofun
  | failed strerror part => exact iff_of_false nofun nofun
  | done status part =>
    by_cases hstatus : status = 200
    · simp [hstatus, bind, Except.bind, pure, Except.pure]
    · simp [hstatus, bind, Except.bind, throwAsr]

theorem checkEnvelope_eq_ok {root response : Json} :
    checkEnvelope root = .ok response ↔
      objectMember root "Response" = some response ∧
        ∀ e, response.member "Error" = some e → ¬ e.isObject := by
  rw [checkEnvelope_eq]
  cases objectMember root "Response" with
  | none => simp [throwAsr]
  | some response' =>
    have hnone : objectMember response' "Error" = none ↔
        ∀ e, response'.member "Error" = some e → ¬ e.isObject := by
      simp [objectMember, Option.filter_eq_none_iff]
    dsimp only
    cases herr : objectMember response' "Error" with
    | none =>
      simp only [Except.ok.injEq, Option.some.injEq]
      exact ⟨by rintro rfl; exact ⟨rfl, hnone.1 herr⟩, And.left⟩
    | some e =>
      refine iff_of_false nofun ?_
      rintro ⟨⟨⟩, hno⟩
      rw [hnone.2 hno] at herr
      cases herr

/-- **When an operation returns**: on a response whose error, if any, is no object. -/
theorem call_eq_ok {curl : HttpRequest → CurlOutcome} {request : Except Exn HttpRequest}
    {read : Json → Except Exn α} {v : α} :
    call deps curl request read = .ok v ↔
      ∃ req response, request = .ok req ∧ Enveloped deps (curl req) response ∧
        (∀ e, response.member "Error" = some e → ¬ e.isObject) ∧ read response = .ok v := by
  have hparse : ∀ {body response}, parseApiEnvelope deps body = .ok response ↔
      ∃ root, deps.parse body = .ok root ∧ checkEnvelope root = .ok response := by
    intro body response
    unfold parseApiEnvelope
    cases deps.parse body with
    | error what => exact iff_of_false nofun (by rintro ⟨_, ⟨⟩, _⟩)
    | ok root => exact ⟨fun h => ⟨root, rfl, h⟩, by rintro ⟨_, ⟨⟩, h⟩; exact h⟩
  simp only [call, bind_eq_ok, httpBody_eq_ok, hparse, checkEnvelope_eq_ok, Enveloped]
  constructor
  · rintro ⟨req, hreq, body, hdone, response, ⟨root, hroot, hresp, hno⟩, hread⟩
    exact ⟨req, response, hreq, ⟨body, root, hdone, hroot, hresp⟩, hno, hread⟩
  · rintro ⟨req, response, hreq, ⟨body, root, hdone, hroot, hresp⟩, hno, hread⟩
    exact ⟨req, hreq, body, hdone, response, ⟨root, hroot, hresp, hno⟩, hread⟩

/-- An operation that reads a response exactly when it has a type throws every error exactly when
    those that are no objects come with a response without the type. -/
theorem errorsThrown_iff {curl : HttpRequest → CurlOutcome} {request : Except Exn HttpRequest}
    {read : Json → Except Exn α} {typed : Json → Prop}
    (hconv : ∀ response, Converges (read response))
    (htyped : ∀ {response}, (∃ v, read response = .ok v) ↔ typed response) :
    ErrorsThrown deps curl request (call deps curl request read) ↔
      ErrorsRefused deps curl typed request := by
  constructor
  · intro h req response e hreq henv he
    by_contra hcon
    push Not at hcon
    obtain ⟨hnull, hobj, ht⟩ := hcon
    obtain ⟨v, hv⟩ := htyped.2 ht
    have hno : ∀ e', response.member "Error" = some e' → ¬ e'.isObject := by
      intro e' he'
      cases he.symm.trans he'
      exact hobj
    obtain ⟨req', hreq', response', henv', hall⟩ :=
      h.returns v (call_eq_ok.2 ⟨req, response, hreq, henv, hno, hv⟩)
    cases hreq.symm.trans hreq'
    cases enveloped_unique henv henv'
    exact hnull (hall e he)
  · intro h
    have hreturns : ∀ v, call deps curl request read = .ok v →
        ∃ req, request = .ok req ∧ NoError deps (curl req) := by
      intro v hv
      obtain ⟨req, response, hreq, henv, hno, hread⟩ := call_eq_ok.1 hv
      refine ⟨req, hreq, response, henv, fun e he => ?_⟩
      rcases h req response e hreq henv he with hnull | hobj | ht
      · exact hnull
      · exact absurd hobj (hno e he)
      · exact absurd (htyped.1 ⟨v, hread⟩) ht
    refine ⟨hreturns, fun req hreq hbad => ?_⟩
    have hend : Converges (call deps curl request read) :=
      (call_converges_iff hconv).2 (by rw [hreq]; trivial)
    cases hcall : call deps curl request read with
    | error e =>
      rw [hcall] at hend
      obtain ⟨e', rfl⟩ := converges_error.1 hend
      exact ⟨e', rfl⟩
    | ok v =>
      obtain ⟨req', hreq', hgood⟩ := hreturns v hcall
      cases hreq.symm.trans hreq'
      exact absurd hgood hbad

end

/-- **A result means that no error was reported**, exactly when every error that is not an object
    comes with a response that the operation refuses anyway. -/
theorem reported_error_iff (deps : Deps) (client : Client) (env : CallEnv)
    (curl : HttpRequest → CurlOutcome) (sreq : SentenceRecognitionRequest)
    (creq : CreateRecTaskRequest) (recTaskId : Bytes) :
    (ErrorsThrown deps curl (recognizeRequest deps client env sreq)
        (recognize deps client env curl sreq) ↔
      ErrorsRefused deps curl ResultTyped (recognizeRequest deps client env sreq)) ∧
    (ErrorsThrown deps curl (createTaskRequest deps client env creq)
        (createTask deps client env curl creq) ↔
      ErrorsRefused deps curl NamesTask (createTaskRequest deps client env creq)) ∧
    (ErrorsThrown deps curl (describeTaskStatusRequest deps client env recTaskId)
        (describeTaskStatus deps client env curl recTaskId) ↔
      ErrorsRefused deps curl DescribesTask
        (describeTaskStatusRequest deps client env recTaskId)) :=
  ⟨errorsThrown_iff (fun _ => converges_unmarshal _) sentenceResult_ok_iff,
    errorsThrown_iff converges_createdTaskId createdTaskId_ok_iff,
    errorsThrown_iff converges_describedStatus describedStatus_ok_iff⟩

/-! A fixed recognizer, for the runs on fixed inputs. -/

def sampleClient : Client where
  account := { sampleCredential with appId := 1300403317 }

def sampleEnv : CallEnv where
  uuid := Vector.replicate 16 0
  now := 0
  timestamp := 0

def sampleSentenceRequest : SentenceRecognitionRequest where
  engServiceType := ascii "16k_zh"
  voiceFormat := ascii "pcm"
  url := ascii "https://a/b.pcm"

def sampleStringError : Bytes := ascii "\x7b\"Response\":\x7b\"Error\":\"boom\"\x7d\x7d"

/-- **An error that is a string ends in an empty success.** -/
theorem string_error_succeeds :
    ¬ ∀ (deps : Deps) (client : Client) (env : CallEnv) (curl : HttpRequest → CurlOutcome)
      (req : SentenceRecognitionRequest),
      ErrorsThrown deps curl (recognizeRequest deps client env req)
        (recognize deps client env curl req) := by
  intro h
  obtain ⟨req, -, response, ⟨body, root, hdone, hroot, hresp⟩, hall⟩ :=
    (h (sampleDeps [(sampleStringError,
        .obj [("Response", .obj [("Error", .str (ascii "boom"))])])])
      sampleClient sampleEnv (fun _ => .done 200 sampleStringError) sampleSentenceRequest).returns
      { result := [], audioDuration := 0, wordSize := 0, wordList := [], requestId := [] } rfl
  cases hdone
  cases hroot
  cases hresp
  cases hall _ rfl

end TrtcAsr.V2
