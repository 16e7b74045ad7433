/-
  How the v3 offline operations end (v3.cc).

  An operation should return a value or throw an `ASRError`, whatever the transport and
  the server do.  It does so exactly when the transport succeeds and every member that
  the operation reads from the response has the type it is read with.

  * `transport_safe_iff`: no operation writes through the null error pointer, exactly
    when the transport of its request does not fail.
  * `Readable`: the condition on a status and a body, with a schema for each decoder.
  * `readResponse_converges`: the reading of a response converges exactly then.
  * `operations_converge_iff`: the operations and the polling loop converge exactly when
    their requests can be dumped, are answered, and the answers are readable.
-/
import TrtcAsr.V3.Offline

namespace TrtcAsr.V3

/-! ## The null error pointer -/

section

variable {α β : Type}

theorem httpPost_null {curl : HttpRequest → CurlOutcome} {r : HttpRequest} :
    httpPost curl r false = .error .nullWrite ↔ (curl r).Failed := by
  unfold httpPost
  cases curl r with
  | initFailed => simp [CurlOutcome.Failed]
  | failed strerror body => simp [CurlOutcome.Failed]
  | done status body => simp [CurlOutcome.Failed]

/-- `x` writes through no null pointer. -/
def NoNullWrite (x : Except Exn α) : Prop := x ≠ .error .nullWrite

theorem NoNullWrite.bind {x : Except Exn α} {f : α → Except Exn β} (hx : NoNullWrite x)
    (hf : ∀ a, NoNullWrite (f a)) : NoNullWrite (x >>= f) := by
  cases x with
  | error e => exact fun h => hx (by cases h; rfl)
  | ok a => exact hf a

theorem NoNullWrite.ok (a : α) : NoNullWrite (.ok a) := nofun

theorem NoNullWrite.asr (e : ASRError) : NoNullWrite (α := α) (.error (.asr e)) := nofun

theorem NoNullWrite.mapError_asr (x : Except ASRError α) : NoNullWrite (x.mapError .asr) := by
  cases x with
  | error e => exact nofun
  | ok a => exact nofun

theorem NoNullWrite.mapError_json (x : Except JsonError α) : NoNullWrite (x.mapError .json) := by
  cases x with
  | error e => exact nofun
  | ok a => exact nofun

theorem noNullWrite_field {get : Json → Option α} {j : Json} {k : String} {d : α} :
    NoNullWrite (field get j k d) :=
  .mapError_json _

theorem noNullWrite_decoded {decode : Json → Except JsonError α} (j : Json) :
    NoNullWrite (decoded decode j) :=
  .mapError_json _

theorem noNullWrite_transcriptionId (j : Json) : NoNullWrite (transcriptionIdFromJson j) := by
  refine noNullWrite_field.bind fun id => ?_
  by_cases hid : id = []
  · rw [if_pos hid]; exact .asr _
  · rw [if_neg hid]; exact .ok _

theorem noNullWrite_offlineRequest {deps : Deps} {client : Client} {env : CallEnv} {path : Bytes}
    {validate : Except ASRError Unit} {params : Json} :
    NoNullWrite (offlineRequest deps client env path validate params) := by
  refine (NoNullWrite.mapError_asr _).bind fun _ => ?_
  refine (NoNullWrite.mapError_asr _).bind fun body => ?_
  refine (NoNullWrite.mapError_asr _).bind fun base => ?_
  exact (NoNullWrite.mapError_json _).bind fun jsonBody => .ok _

theorem noNullWrite_flatResponse {deps : Deps} {resp : HttpResponse} :
    NoNullWrite (flatResponse deps resp) := by
  unfold flatResponse
  cases deps.parse resp.body with
  | error what => exact .asr _
  | ok data =>
    by_cases hobj : data.isObject
    · simp only [hobj, not_true, if_false]
      refine noNullWrite_field.bind fun code => ?_
      split
      · exact .asr _
      · exact .ok _
    · simp only [hobj]; exact .asr _

theorem noNullWrite_checkCode {data : Json} : NoNullWrite (checkCode data) := by
  refine noNullWrite_field.bind fun code => ?_
  by_cases hcode : code ≠ 0
  · rw [if_pos hcode]
    exact noNullWrite_field.bind fun _ => noNullWrite_field.bind fun _ => .asr _
  · rw [if_neg hcode]; exact .ok _

theorem noNullWrite_readResponse {deps : Deps} {decode : Json → Except Exn α}
    (hd : ∀ j, NoNullWrite (decode j)) (resp : HttpResponse) :
    NoNullWrite (readResponse deps decode resp) :=
  noNullWrite_flatResponse.bind fun data => noNullWrite_checkCode.bind fun _ => hd data

/-- A call writes through no null pointer, and a failure of the transport ends in a thrown
    `ASRError`. -/
def TransportSafe (env : CallEnv) (request : Except Exn HttpRequest) (result : Except Exn α) :
    Prop :=
  NoNullWrite result ∧
    ∀ r, request = .ok r → (env.curl r).Failed → ∃ e, result = .error (.asr e)

/-- The call is rejected before `HttpPost`, or its transport does not fail. -/
def Delivered (env : CallEnv) (request : Except Exn HttpRequest) : Prop :=
  ∀ r, request = .ok r → ¬ (env.curl r).Failed

theorem offlineCall_transport_safe_iff {deps : Deps} {env : CallEnv}
    {request : Except Exn HttpRequest} {decode : Json → Except Exn α}
    (hr : NoNullWrite request) (hd : ∀ j, NoNullWrite (decode j)) :
    TransportSafe env request (offlineCall deps env request decode) ↔ Delivered env request := by
  cases request with
  | error e =>
    refine ⟨fun _ => nofun, fun _ => ⟨?_, nofun⟩⟩
    exact fun h => hr (by cases h; rfl)
  | ok r =>
    constructor
    · rintro ⟨hsafe, -⟩ r' hr' hfail
      cases hr'
      apply hsafe
      simp only [offlineCall, bind, Except.bind, httpPost_null.2 hfail]
    · intro hdel
      have hfail := hdel r rfl
      refine ⟨?_, fun r' hr' h => absurd h (hdel r' hr')⟩
      have hpost : NoNullWrite (httpPost env.curl r false) := fun h => hfail (httpPost_null.1 h)
      exact hpost.bind fun p => noNullWrite_readResponse hd p.1

variable (deps : Deps) (client : Client) (env : CallEnv)

/-- **No null pointer is written, exactly when the transport does not fail.** -/
theorem transport_safe_iff (treq : TranscribeRequest) (creq : CreateTranscriptionRequest)
    (transcriptionId : Bytes) :
    (TransportSafe env (recognizeRequest deps client env treq) (recognize deps client env treq) ↔
      Delivered env (recognizeRequest deps client env treq)) ∧
    (TransportSafe env (createTaskRequest deps client env creq)
        (createTask deps client env creq) ↔
      Delivered env (createTaskRequest deps client env creq)) ∧
    (TransportSafe env (describeTaskRequest deps client env transcriptionId)
        (describeTask deps client env transcriptionId) ↔
      Delivered env (describeTaskRequest deps client env transcriptionId)) :=
  ⟨offlineCall_transport_safe_iff noNullWrite_offlineRequest noNullWrite_decoded,
    offlineCall_transport_safe_iff noNullWrite_offlineRequest noNullWrite_transcriptionId,
    offlineCall_transport_safe_iff noNullWrite_offlineRequest noNullWrite_decoded⟩

end

/-! A fixed recognizer, for the runs on fixed inputs. -/

def sampleClient : Client where
  credential := sampleCredential

def sampleEnv (outcome : CurlOutcome) : CallEnv where
  uuid := Vector.replicate 16 0
  now := 0
  curl _ := outcome

/-- **A failed transport writes through the null pointer**: the handle cannot be created. -/
theorem init_failed_null_write :
    describeTask (sampleDeps []) sampleClient (sampleEnv .initFailed) (ascii "t") =
      .error .nullWrite :=
  rfl

/-! ## Readable responses -/

def wordSchema : List (String × Json.Kind) :=
  [("word", .str), ("start_time", .int), ("end_time", .int)]

def transcribeSchema : List (String × Json.Kind) :=
  [("code", .int), ("message", .str), ("request_id", .str), ("result", .str),
    ("audio_duration", .int), ("language", .str), ("language_b47", .str), ("word_size", .int)]

def sentenceSchema : List (String × Json.Kind) :=
  [("final_sentence", .str), ("slice_sentence", .str), ("written_text", .str), ("start_ms", .int),
    ("end_ms", .int), ("words_num", .int), ("speech_speed", .double), ("speaker_id", .int),
    ("channel_id", .int), ("speaker_role_name", .str), ("silence_time", .int), ("language", .str),
    ("language_b47", .str)]

def statusSchema : List (String × Json.Kind) :=
  [("code", .int), ("message", .str), ("request_id", .str), ("transcription_id", .str),
    ("status", .int), ("status_str", .str), ("progress", .int), ("audio_duration", .double),
    ("result", .str), ("error_msg", .str)]

/-- The schema of each decoder, elements of its arrays included. -/
def TranscribeTyped (j : Json) : Prop :=
  j.Has transcribeSchema ∧ ∀ w ∈ j.arrayAt "word_list", w.Has wordSchema

def SentenceTyped (j : Json) : Prop :=
  j.Has sentenceSchema ∧ ∀ w ∈ j.arrayAt "words", w.Has wordSchema

def StatusTyped (j : Json) : Prop :=
  j.Has statusSchema ∧ ∀ d ∈ j.arrayAt "result_detail", SentenceTyped d

def IdTyped (j : Json) : Prop := j.Has [("transcription_id", .str)]

theorem wordFromJson_ok_iff {j : Json} : (∃ w, wordFromJson j = .ok w) ↔ j.Has wordSchema := by
  simp only [wordFromJson, exists_bind_ok, exists_pure_ok, exists_and_right, Json.value_ok_iff,
    and_true]
  by_cases hj : j.isObject
  · simp [hj, Json.Has, wordSchema, Json.Reads, Json.Kind.Accepts]
  · simp [hj, Json.Has]

theorem transcribeResponseFromJson_ok_iff {j : Json} :
    (∃ r, transcribeResponseFromJson j = .ok r) ↔ TranscribeTyped j := by
  simp only [transcribeResponseFromJson, exists_bind_ok, exists_pure_ok, exists_and_right,
    Json.value_ok_iff, exists_mapM_ok, wordFromJson_ok_iff, and_true]
  by_cases hj : j.isObject
  · simp [hj, TranscribeTyped, Json.Has, transcribeSchema, Json.Reads, Json.Kind.Accepts,
      and_assoc]
  · simp [hj, TranscribeTyped, Json.Has]

theorem sentenceDetailFromJson_ok_iff {j : Json} :
    (∃ d, sentenceDetailFromJson j = .ok d) ↔ SentenceTyped j := by
  simp only [sentenceDetailFromJson, exists_bind_ok, exists_pure_ok, exists_and_right,
    Json.value_ok_iff, exists_mapM_ok, wordFromJson_ok_iff, and_true]
  by_cases hj : j.isObject
  · simp only [hj, SentenceTyped, Json.Has, sentenceSchema, Json.Reads, Json.Kind.Accepts,
      true_and, List.forall_mem_cons, List.not_mem_nil, false_imp_iff, implies_true, and_true]
    tauto
  · simp [hj, SentenceTyped, Json.Has]

theorem transcriptionStatusFromJson_ok_iff {j : Json} :
    (∃ s, transcriptionStatusFromJson j = .ok s) ↔ StatusTyped j := by
  simp only [transcriptionStatusFromJson, exists_bind_ok, exists_pure_ok, exists_and_right,
    Json.value_ok_iff, exists_mapM_ok, sentenceDetailFromJson_ok_iff, and_true]
  by_cases hj : j.isObject
  · simp only [hj, StatusTyped, Json.Has, statusSchema, Json.Reads, Json.Kind.Accepts,
      true_and, List.forall_mem_cons, List.not_mem_nil, false_imp_iff, implies_true, and_true]
    tauto
  · simp [hj, StatusTyped, Json.Has]

/-- The code of a response, 0 without one. -/
def codeOf (j : Json) : ℤ := ((j.member "code").bind Json.getInt).getD 0

/-- The members that are read from a response have their types: the code; with a non-zero code
    the texts of the error; otherwise, with a status in 200..299, what the decoder reads. -/
def Readable (deps : Deps) (typed : Json → Prop) (status : ℤ) (body : Bytes) : Prop :=
  ∀ data, deps.parse body = .ok data → data.isObject →
    data.Has [("code", .int)] ∧
    (codeOf data ≠ 0 → data.Has [("message", .str), ("request_id", .str)]) ∧
    (codeOf data = 0 → 200 ≤ status → status ≤ 299 → typed data)

/-- The request of a call can be dumped, and if it is sent it gets a readable response. -/
def Answered (deps : Deps) (env : CallEnv) (typed : Json → Prop)
    (request : Except Exn HttpRequest) : Prop :=
  (∀ e, request ≠ .error (.json e)) ∧
    ∀ r, request = .ok r → ∃ status body, env.curl r = .done status body ∧
      Readable deps typed status body

/-! ## Reading a response -/

section

variable {α : Type}

theorem converges_decoded {decode : Json → Except JsonError α} {j : Json} :
    Converges (decoded decode j) ↔ ∃ a, decode j = .ok a := by
  unfold decoded
  cases decode j with
  | error e => exact ⟨nofun, nofun⟩
  | ok a => exact ⟨fun _ => ⟨a, rfl⟩, fun _ => trivial⟩

/-- A typed access in a call: with the type it gives a value, otherwise it leaves the call. -/
theorem field_cases (get : Json → Option α) {j : Json} (hj : j.isObject) (k : String) (d : α) :
    (j.Reads get k ∧ field get j k d = .ok (((j.member k).bind get).getD d)) ∨
      (¬ j.Reads get k ∧ ∃ e, field get j k d = .error (.json e)) := by
  obtain ⟨ms, rfl⟩ : ∃ ms, j = .obj ms := by
    cases j with
    | obj ms => exact ⟨ms, rfl⟩
    | _ => cases hj
  simp only [field, Json.value, Json.Reads, Json.member]
  cases ms.lookup k with
  | none => exact .inl ⟨by simp, rfl⟩
  | some v =>
    cases hg : get v with
    | none => exact .inr ⟨fun h => by simpa [hg] using h v rfl, _, by simp only [hg]; rfl⟩
    | some a =>
      refine .inl ⟨?_, by simp only [Option.bind_some, hg]; rfl⟩
      rintro v' ⟨⟩
      rw [hg]; rfl

theorem converges_checkCode {data : Json} (hj : data.isObject)
    (hcode : data.Reads Json.getInt "code") {next : Except Exn α} :
    Converges (checkCode data >>= fun _ => next) ↔
      (codeOf data ≠ 0 → data.Has [("message", .str), ("request_id", .str)]) ∧
      (codeOf data = 0 → Converges next) := by
  have hval : field Json.getInt data "code" 0 = .ok (codeOf data) := by
    rcases field_cases Json.getInt hj "code" 0 with ⟨-, h⟩ | ⟨h, -⟩
    · exact h
    · exact absurd hcode h
  unfold checkCode
  rw [hval]
  by_cases hc : codeOf data = 0
  · simp [hc, bind, Except.bind, pure, Except.pure]
  have htexts : data.Has [("message", .str), ("request_id", .str)] ↔
      data.Reads Json.getStr "message" ∧ data.Reads Json.getStr "request_id" := by
    simp [Json.Has, hj, Json.Reads, Json.Kind.Accepts]
  simp only [hc, ne_eq, not_false_eq_true, if_true, true_imp_iff, false_imp_iff, and_true, htexts,
    bind, Except.bind]
  rcases field_cases Json.getStr hj "message" [] with ⟨hm, h⟩ | ⟨hm, e, h⟩
  · rcases field_cases Json.getStr hj "request_id" [] with ⟨hr, h'⟩ | ⟨hr, e, h'⟩
    · simp [h, h', hm, hr, Converges]
    · simp [h, h', hr, Converges]
  · simp [h, hm, Converges]

/-- `PostFlat` on an object whose code can be read. -/
theorem flatResponse_object {deps : Deps} {status : ℤ} {body : Bytes} {data : Json}
    (hp : deps.parse body = .ok data) (hj : data.isObject)
    (hcode : data.Reads Json.getInt "code") :
    (((status < 200 ∨ status > 299) ∧ codeOf data = 0) ∧
      ∃ e, flatResponse deps { status := status, body := body } = .error (.asr e)) ∨
    (¬ ((status < 200 ∨ status > 299) ∧ codeOf data = 0) ∧
      flatResponse deps { status := status, body := body } = .ok data) := by
  have hval : field Json.getInt data "code" 0 = .ok (codeOf data) := by
    rcases field_cases Json.getInt hj "code" 0 with ⟨-, h⟩ | ⟨h, -⟩
    · exact h
    · exact absurd hcode h
  unfold flatResponse
  simp only [hp, hj, not_true, if_false, hval, bind, Except.bind]
  by_cases hbad : (status < 200 ∨ status > 299) ∧ codeOf data = 0
  · exact .inl ⟨hbad, _, if_pos hbad⟩
  · exact .inr ⟨hbad, if_neg hbad⟩

/-- **The reading of a response converges exactly when it is readable.** -/
theorem readResponse_converges {deps : Deps} {decode : Json → Except Exn α} {typed : Json → Prop}
    (hd : ∀ j, j.isObject → (Converges (decode j) ↔ typed j)) (status : ℤ) (body : Bytes) :
    Converges (readResponse deps decode { status := status, body := body }) ↔
      Readable deps typed status body := by
  unfold Readable
  cases hp : deps.parse body with
  | error what =>
    simp [readResponse, flatResponse, hp, serverError, Converges, bind, Except.bind]
  | ok data =>
  by_cases hj : data.isObject
  swap
  · simp [readResponse, flatResponse, hp, hj, serverError, Converges, bind, Except.bind]
  have hhas : data.Has [("code", .int)] ↔ data.Reads Json.getInt "code" := by
    simp [Json.Has, hj, Json.Reads, Json.Kind.Accepts]
  simp only [Except.ok.injEq, forall_eq', hj, true_imp_iff, hhas]
  by_cases hread : data.Reads Json.getInt "code"
  swap
  · rcases field_cases Json.getInt hj "code" 0 with ⟨h, -⟩ | ⟨-, e, herr⟩
    · exact absurd h hread
    · simp [readResponse, flatResponse, hp, hj, herr, hread, Converges, bind, Except.bind]
  rcases flatResponse_object hp hj hread with ⟨⟨hbad, hzero⟩, e, h⟩ | ⟨hgood, h⟩
  · have hthrown : readResponse deps decode { status := status, body := body } =
        .error (.asr e) := by rw [readResponse, h]; rfl
    rw [hthrown]
    refine ⟨fun _ => ⟨hread, fun hne => absurd hzero hne, fun _ h1 h2 => ?_⟩, fun _ => trivial⟩
    omega
  · have hnext : readResponse deps decode { status := status, body := body } =
        checkCode data >>= fun _ => decode data := by
      rw [readResponse, h]; rfl
    rw [hnext, converges_checkCode hj hread, hd data hj]
    constructor
    · rintro ⟨h1, h2⟩
      exact ⟨hread, h1, fun hz _ _ => h2 hz⟩
    · rintro ⟨-, h1, h2⟩
      exact ⟨h1, fun hz => h2 hz (by omega) (by omega)⟩

/-- A call converges exactly when its request can be dumped and is answered readably. -/
theorem offlineCall_converges_iff {deps : Deps} {env : CallEnv}
    {request : Except Exn HttpRequest} {decode : Json → Except Exn α} {typed : Json → Prop}
    (hr : NoNullWrite request) (hd : ∀ j, j.isObject → (Converges (decode j) ↔ typed j)) :
    Converges (offlineCall deps env request decode) ↔ Answered deps env typed request := by
  rcases request with (e | e | -) | r
  · exact ⟨fun _ => ⟨by simp, by simp⟩, fun _ => trivial⟩
  · exact ⟨nofun, fun h => h.1 e rfl⟩
  · exact absurd rfl hr
  constructor
  · intro h
    refine ⟨by simp, ?_⟩
    rintro r' ⟨⟩
    cases hc : env.curl r with
    | initFailed => simp [offlineCall, httpPost, hc, bind, Except.bind, Converges] at h
    | failed strerror body => simp [offlineCall, httpPost, hc, bind, Except.bind, Converges] at h
    | done status body =>
      refine ⟨status, body, rfl, (readResponse_converges hd status body).1 ?_⟩
      simpa only [offlineCall, httpPost, hc, bind, Except.bind] using h
  · rintro ⟨-, h⟩
    obtain ⟨status, body, hc, hread⟩ := h r rfl
    simpa only [offlineCall, httpPost, hc, bind, Except.bind] using
      (readResponse_converges hd status body).2 hread

theorem converges_transcriptionId {j : Json} (hj : j.isObject) :
    Converges (transcriptionIdFromJson j) ↔ IdTyped j := by
  have htyped : IdTyped j ↔ j.Reads Json.getStr "transcription_id" := by
    simp [IdTyped, Json.Has, hj, Json.Reads, Json.Kind.Accepts]
  rw [htyped]
  unfold transcriptionIdFromJson
  rcases field_cases Json.getStr hj "transcription_id" [] with ⟨hread, h⟩ | ⟨hread, e, h⟩
  · simp only [h, hread, bind, Except.bind, iff_true]
    split
    · trivial
    · trivial
  · simp [h, hread, bind, Except.bind, Converges]

variable {deps : Deps} {client : Client} {env : CallEnv}

theorem describeTask_converges_iff {transcriptionId : Bytes} :
    Converges (describeTask deps client env transcriptionId) ↔
      Answered deps env StatusTyped (describeTaskRequest deps client env transcriptionId) :=
  offlineCall_converges_iff noNullWrite_offlineRequest fun _ _ =>
    converges_decoded.trans transcriptionStatusFromJson_ok_iff

/-! ## The polling loop -/

/-- A pass ends the loop as its `DescribeTask` ends, and goes on only after it returned. -/
theorem pollOnce_converges {transcriptionId : Bytes} {timeout deadline : ℤ} {p : Poll} :
    match pollOnce deps client transcriptionId timeout deadline p with
    | none => Converges (describeTask deps client p.env transcriptionId)
    | some x => Converges x ↔ Converges (describeTask deps client p.env transcriptionId) := by
  unfold pollOnce
  cases describeTask deps client p.env transcriptionId with
  | error e => exact Iff.rfl
  | ok status =>
    dsimp only
    split_ifs
    · exact Iff.rfl
    · exact Iff.rfl
    · exact Iff.rfl
    · trivial

/-- When none of the passes before the last one ends the loop, it ends as the last one does, and
    the `DescribeTask` of each earlier one has returned. -/
theorem waitForResult_last {transcriptionId : Bytes} {timeout deadline : ℤ} {polls : List Poll}
    {x : Except Exn TranscriptionStatus}
    (hx : waitForResult deps client transcriptionId timeout deadline polls = some x)
    (hlast : waitForResult deps client transcriptionId timeout deadline polls.dropLast = none) :
    Converges x ↔ ∀ p ∈ polls, Converges (describeTask deps client p.env transcriptionId) := by
  induction polls with
  | nil => cases hx
  | cons p polls ih =>
    have hpass := @pollOnce_converges deps client transcriptionId timeout deadline p
    rw [waitForResult] at hx
    rw [List.forall_mem_cons]
    cases polls with
    | nil =>
      cases hp : pollOnce deps client transcriptionId timeout deadline p with
      | none => rw [hp] at hx; cases hx
      | some y =>
        rw [hp] at hx hpass
        cases hx
        simpa using hpass
    | cons q polls =>
      rw [List.dropLast_cons_cons, waitForResult] at hlast
      cases hp : pollOnce deps client transcriptionId timeout deadline p with
      | none =>
        rw [hp] at hx hpass hlast
        rw [ih hx hlast]
        exact ⟨fun h => ⟨hpass, h⟩, And.right⟩
      | some y => rw [hp] at hlast; cases hlast

end

/-- **The operations converge exactly when they are answered readably**, and the polling loop
    when each of the passes it makes is. -/
theorem operations_converge_iff (deps : Deps) (client : Client) (env : CallEnv)
    (treq : TranscribeRequest) (creq : CreateTranscriptionRequest) (transcriptionId : Bytes)
    (timeout deadline : ℤ) (polls : List Poll) :
    (Converges (recognize deps client env treq) ↔
      Answered deps env TranscribeTyped (recognizeRequest deps client env treq)) ∧
    (Converges (createTask deps client env creq) ↔
      Answered deps env IdTyped (createTaskRequest deps client env creq)) ∧
    (Converges (describeTask deps client env transcriptionId) ↔
      Answered deps env StatusTyped (describeTaskRequest deps client env transcriptionId)) ∧
    (waitForResult deps client transcriptionId timeout deadline polls.dropLast = none →
      ∀ x, waitForResult deps client transcriptionId timeout deadline polls = some x →
        (Converges x ↔ ∀ p ∈ polls, Answered deps p.env StatusTyped
          (describeTaskRequest deps client p.env transcriptionId))) := by
  refine ⟨?_, ?_, describeTask_converges_iff, ?_⟩
  · exact offlineCall_converges_iff noNullWrite_offlineRequest fun _ _ =>
      converges_decoded.trans transcribeResponseFromJson_ok_iff
  · exact offlineCall_converges_iff noNullWrite_offlineRequest fun _ => converges_transcriptionId
  · intro hlast x hx
    rw [waitForResult_last hx hlast]
    exact forall₂_congr fun p _ => describeTask_converges_iff

/-- A task that is still running at the first pass and has succeeded at the second. -/
theorem operations_converge_two_passes :
    let deps := sampleDeps [(ascii "\x7b\"status\":1\x7d", .obj [("status", .uint 1)]),
      (ascii "\x7b\"status\":2\x7d", .obj [("status", .uint 2)])]
    let polls := [⟨sampleEnv (.done 200 (ascii "\x7b\"status\":1\x7d")), 0⟩,
      ⟨sampleEnv (.done 200 (ascii "\x7b\"status\":2\x7d")), 0⟩]
    (∃ status, waitForResult deps sampleClient (ascii "t") 9 9 polls = some (.ok status)) ∧
      ∀ p ∈ polls, Answered deps p.env StatusTyped
        (describeTaskRequest deps sampleClient p.env (ascii "t")) := by
  intro deps polls
  refine ⟨⟨_, rfl⟩, ?_⟩
  exact ((operations_converge_iff deps sampleClient (sampleEnv .initFailed)
    { engineModelType := [] } { engineModelType := [] } (ascii "t") 9 9 polls).2.2.2 rfl _ rfl).1
    trivial

/-- **A null code leaves the operation as an exception of the JSON library.** -/
theorem null_code_escapes :
    describeTask (sampleDeps [(ascii "\x7b\"code\":null\x7d", .obj [("code", .null)])]) sampleClient
        (sampleEnv (.done 200 (ascii "\x7b\"code\":null\x7d"))) (ascii "t") =
      .error (.json (.typeError 302)) :=
  rfl

end TrtcAsr.V3
