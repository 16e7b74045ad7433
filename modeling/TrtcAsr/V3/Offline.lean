/-
  The v3 offline operations (v3.cc): the request envelope, the flat response and its
  decoders, `Recognize`, `CreateTask`, `DescribeTask` and the polling loop.

  An operation is the request it sends (`offlineRequest`), the transport, and the
  reading of the response (`readResponse`).
-/
import TrtcAsr.Credential
import TrtcAsr.Http
import TrtcAsr.V3.Requests

namespace TrtcAsr.V3

/-- What a recognizer is configured with. -/
structure Client where
  credential : Credential
  endpoint : Bytes := []
  timeout : ℤ := 30
  deriving DecidableEq, Repr

/-- The environment of one call: the UUID and the time drawn by it, and its transport. -/
structure CallEnv where
  uuid : Vector UInt8 16
  now : ℤ
  curl : HttpRequest → CurlOutcome

/-! ## The request -/

/-- `OfflineEnvelope`. -/
def offlineEnvelope (deps : Deps) (credential : Credential) (requestId : Bytes) (now : ℤ)
    (params : Members) : Except ASRError Json := do
  let userSig ← resolveUserSig deps credential requestId now
  let auth := Members.empty
    |>.put "sdkappid" (.str (toDec credential.sdkAppId))
    |>.put "usersig" (.str userSig)
    |>.put "request_id" (.str requestId)
  return .obj <| Members.empty
    |>.put "auth" (.obj auth)
    |>.put "params" (.obj (params.put "sdk_info" sdkReportParams))

/-- The members of a `params` block. -/
def membersOf : Json → Members
  | .obj ms => ms
  | _ => []

/-- The request of an operation: validation, the envelope, and the URL and body of `PostFlat`. -/
def offlineRequest (deps : Deps) (client : Client) (env : CallEnv) (path : Bytes)
    (validate : Except ASRError Unit) (params : Json) : Except Exn HttpRequest := do
  validate.mapError .asr
  let body ← (offlineEnvelope deps client.credential (generateUuid env.uuid) env.now
    (membersOf params)).mapError .asr
  let base ← (resolveHTTPEndpoint client.endpoint client.credential.site).mapError .asr
  let jsonBody ← (deps.dump body).mapError .json
  return { url := base ++ path
           jsonBody := jsonBody
           headers := [ascii "Content-Type: application/json; charset=utf-8"]
           timeoutSeconds := toInt32 client.timeout }

/-! ## The response -/

/-- `j.value(k, d)` as part of a call. -/
def field {α : Type} (get : Json → Option α) (j : Json) (k : String) (d : α) : Except Exn α :=
  (j.value get k d).mapError .json

def serverError {α : Type} (message : Bytes) : Except Exn α :=
  .error (.asr ⟨kErrServerError, message⟩)

/-- The first 256 bytes of a body. -/
def preview (body : Bytes) : Bytes :=
  body.take 256 ++ if body.length > 256 then ascii "..." else []

/-- `PostFlat` after `HttpPost`: only an object is accepted, and without a code only with a
    status in 200..299. -/
def flatResponse (deps : Deps) (resp : HttpResponse) : Except Exn Json :=
  match deps.parse resp.body with
  | .error what => serverError (ascii "invalid response (http " ++ toDec resp.status ++
      ascii "): " ++ what)
  | .ok data =>
    if ¬ data.isObject then
      serverError (ascii "invalid response (http " ++ toDec resp.status ++
        ascii "): not a JSON object")
    else do
      let code ← field Json.getInt data "code" 0
      if (resp.status < 200 ∨ resp.status > 299) ∧ code = 0 then
        serverError (ascii "http " ++ toDec resp.status ++
          ascii " with non-v3 response body: " ++ preview resp.body)
      else return data

/-- `CheckCode`, with `ServerError`. -/
def checkCode (data : Json) : Except Exn Unit := do
  let code ← field Json.getInt data "code" 0
  if code ≠ 0 then do
    let message ← field Json.getStr data "message" []
    let requestId ← field Json.getStr data "request_id" []
    .error (.asr ⟨code, message ++
      if requestId ≠ [] then ascii " (request_id: " ++ requestId ++ ascii ")" else []⟩)
  else return ()

/-- `CheckCode(PostFlat(...))` and the decoding of the body. -/
def readResponse {α : Type} (deps : Deps) (decode : Json → Except Exn α) (resp : HttpResponse) :
    Except Exn α := do
  let data ← flatResponse deps resp
  checkCode data
  decode data

/-- An operation; `PostFlat` passes no error pointer to `HttpPost`. -/
def offlineCall {α : Type} (deps : Deps) (env : CallEnv) (request : Except Exn HttpRequest)
    (decode : Json → Except Exn α) : Except Exn α := do
  let req ← request
  let (resp, _) ← httpPost env.curl req false
  readResponse deps decode resp

structure Word where
  word : Bytes
  startTime : ℤ
  endTime : ℤ
  deriving DecidableEq, Repr

structure TranscribeResponse where
  code : ℤ
  message : Bytes
  requestId : Bytes
  result : Bytes
  audioDuration : ℤ
  language : Bytes
  languageB47 : Bytes
  wordSize : ℤ
  wordList : List Word
  deriving DecidableEq, Repr

structure SentenceDetail where
  finalSentence : Bytes
  sliceSentence : Bytes
  writtenText : Bytes
  startMs : ℤ
  endMs : ℤ
  wordsNum : ℤ
  words : List Word
  speechSpeed : Binary64
  speakerId : ℤ
  channelId : ℤ
  speakerRoleName : Bytes
  silenceTime : ℤ
  language : Bytes
  languageB47 : Bytes
  deriving DecidableEq, Repr

structure TranscriptionStatus where
  code : ℤ
  message : Bytes
  requestId : Bytes
  transcriptionId : Bytes
  status : ℤ
  statusStr : Bytes
  progress : ℤ
  audioDuration : Binary64
  result : Bytes
  resultDetail : List SentenceDetail
  errorMsg : Bytes
  deriving DecidableEq, Repr

def wordFromJson (j : Json) : Except JsonError Word := do
  let word ← j.value Json.getStr "word" []
  let startTime ← j.value Json.getInt "start_time" 0
  let endTime ← j.value Json.getInt "end_time" 0
  return { word, startTime, endTime }

def transcribeResponseFromJson (j : Json) : Except JsonError TranscribeResponse := do
  let code ← j.value Json.getInt "code" 0
  let message ← j.value Json.getStr "message" []
  let requestId ← j.value Json.getStr "request_id" []
  let result ← j.value Json.getStr "result" []
  let audioDuration ← j.value Json.getInt "audio_duration" 0
  let language ← j.value Json.getStr "language" []
  let languageB47 ← j.value Json.getStr "language_b47" []
  let wordSize ← j.value Json.getInt "word_size" 0
  let wordList ← (j.arrayAt "word_list").mapM wordFromJson
  return { code, message, requestId, result, audioDuration, language, languageB47, wordSize
           wordList }

def sentenceDetailFromJson (j : Json) : Except JsonError SentenceDetail := do
  let finalSentence ← j.value Json.getStr "final_sentence" []
  let sliceSentence ← j.value Json.getStr "slice_sentence" []
  let writtenText ← j.value Json.getStr "written_text" []
  let startMs ← j.value Json.getInt "start_ms" 0
  let endMs ← j.value Json.getInt "end_ms" 0
  let wordsNum ← j.value Json.getInt "words_num" 0
  let words ← (j.arrayAt "words").mapM wordFromJson
  let speechSpeed ← j.value Json.getDouble "speech_speed" .zero
  let speakerId ← j.value Json.getInt "speaker_id" 0
  let channelId ← j.value Json.getInt "channel_id" 0
  let speakerRoleName ← j.value Json.getStr "speaker_role_name" []
  let silenceTime ← j.value Json.getInt "silence_time" 0
  let language ← j.value Json.getStr "language" []
  let languageB47 ← j.value Json.getStr "language_b47" []
  return { finalSentence, sliceSentence, writtenText, startMs, endMs, wordsNum, words, speechSpeed
           speakerId, channelId, speakerRoleName, silenceTime, language, languageB47 }

def transcriptionStatusFromJson (j : Json) : Except JsonError TranscriptionStatus := do
  let code ← j.value Json.getInt "code" 0
  let message ← j.value Json.getStr "message" []
  let requestId ← j.value Json.getStr "request_id" []
  let transcriptionId ← j.value Json.getStr "transcription_id" []
  let status ← j.value Json.getInt "status" 0
  let statusStr ← j.value Json.getStr "status_str" []
  let progress ← j.value Json.getInt "progress" 0
  let audioDuration ← j.value Json.getDouble "audio_duration" .zero
  let result ← j.value Json.getStr "result" []
  let resultDetail ← (j.arrayAt "result_detail").mapM sentenceDetailFromJson
  let errorMsg ← j.value Json.getStr "error_msg" []
  return { code, message, requestId, transcriptionId, status, statusStr, progress, audioDuration
           result, resultDetail, errorMsg }

/-- The exceptions of a decoder leave the operation. -/
def decoded {α : Type} (decode : Json → Except JsonError α) (j : Json) : Except Exn α :=
  (decode j).mapError .json

/-- `CreateTask` after `CheckCode`. -/
def transcriptionIdFromJson (j : Json) : Except Exn Bytes := do
  let id ← field Json.getStr j "transcription_id" []
  if id = [] then serverError (ascii "empty transcription_id in response") else return id

/-! ## The operations -/

section

variable (deps : Deps) (client : Client) (env : CallEnv)

def recognizeRequest (req : TranscribeRequest) : Except Exn HttpRequest :=
  offlineRequest deps client env (ascii "/v3/transcribe") req.validate (transcribeRequestToWire req)

/-- `SentenceRecognizer::Recognize`. -/
def recognize (req : TranscribeRequest) : Except Exn TranscribeResponse :=
  offlineCall deps env (recognizeRequest deps client env req) (decoded transcribeResponseFromJson)

def createTaskRequest (req : CreateTranscriptionRequest) : Except Exn HttpRequest :=
  offlineRequest deps client env (ascii "/v3/create_transcription") req.validate
    (createTranscriptionRequestToWire req)

/-- `FileRecognizer::CreateTask`. -/
def createTask (req : CreateTranscriptionRequest) : Except Exn Bytes :=
  offlineCall deps env (createTaskRequest deps client env req) transcriptionIdFromJson

def describeTaskRequest (transcriptionId : Bytes) : Except Exn HttpRequest :=
  offlineRequest deps client env (ascii "/v3/describe_transcription")
    (rejectIf (transcriptionId = []) (ascii "transcription_id is empty"))
    (.obj (Members.empty.put "transcription_id" (.str transcriptionId)))

/-- `FileRecognizer::DescribeTask`. -/
def describeTask (transcriptionId : Bytes) : Except Exn TranscriptionStatus :=
  offlineCall deps env (describeTaskRequest deps client env transcriptionId)
    (decoded transcriptionStatusFromJson)

end

def kTaskStatusSuccess : ℤ := 2
def kTaskStatusFailed : ℤ := 3

/-- One pass of the polling loop: the environment of its `DescribeTask` and the clock after it. -/
structure Poll where
  env : CallEnv
  clock : ℤ

/-- One pass of the loop of `WaitForResultWithInterval`; `none` is another pass after a sleep. -/
def pollOnce (deps : Deps) (client : Client) (transcriptionId : Bytes) (timeout deadline : ℤ)
    (p : Poll) : Option (Except Exn TranscriptionStatus) :=
  match describeTask deps client p.env transcriptionId with
  | .error e => some (.error e)
  | .ok status =>
    if status.status = kTaskStatusSuccess then some (.ok status)
    else if status.status = kTaskStatusFailed then
      some (serverError (ascii "task failed: " ++ status.errorMsg ++ ascii " (transcription_id: " ++
        status.transcriptionId ++ ascii ")"))
    else if p.clock > deadline then
      some (.error (.asr ⟨kErrTimeout, ascii "task not completed within " ++ toDec timeout ++
        ascii "ms (transcription_id: " ++ transcriptionId ++ ascii ", Status: " ++
        status.statusStr ++ ascii ")"⟩))
    else none

/-- `WaitForResultWithInterval` over the passes `polls`; `none` while it is still waiting. -/
def waitForResult (deps : Deps) (client : Client) (transcriptionId : Bytes)
    (timeout deadline : ℤ) : List Poll → Option (Except Exn TranscriptionStatus)
  | [] => none
  | p :: polls =>
    match pollOnce deps client transcriptionId timeout deadline p with
    | some result => some result
    | none => waitForResult deps client transcriptionId timeout deadline polls

end TrtcAsr.V3
