/-
  The responses of the v2 recognition interfaces (sentence_recognizer.cc, file_recognizer.cc):
  the HTTP status, the envelope with its error, the decoders, and the whole operations.
-/
import TrtcAsr.V2.Offline

namespace TrtcAsr.V2

/-- `throw ASRError(code, message)`. -/
def throwAsr {α : Type} (code : ℤ) (message : Bytes) : Except Exn α :=
  .error (.asr ⟨code, message⟩)

/-- `catch (const std::exception& e)`, around what reads a response. -/
def unmarshal {α : Type} (deps : Deps) (x : Except JsonError α) : Except Exn α :=
  x.mapError fun e => .asr ⟨kErrReadFailed, ascii "unmarshal response failed: " ++ deps.what e⟩

/-- `StringFieldOrEmpty`. -/
def stringFieldOrEmpty (j : Json) (k : String) : Bytes :=
  ((j.member k).bind Json.getStr).getD []

/-! ## The envelope -/

/-- `HttpPost` with an error pointer, and the checks after it: the body of the response. -/
def httpBody (curl : HttpRequest → CurlOutcome) (req : HttpRequest) : Except Exn Bytes := do
  let (resp, written) ← httpPost curl req true
  let err := written.getD []
  if err ≠ [] then throwAsr kErrConnectFailed err
  else if resp.status ≠ 200 then
    throwAsr kErrServerError (ascii "http status " ++ toDec resp.status ++ ascii ": " ++ resp.body)
  else return resp.body

/-- The message of an error in the response. -/
def serverErrorText (response apiErr : Json) : Bytes :=
  ascii "server error [" ++ stringFieldOrEmpty apiErr "Code" ++ ascii "]: " ++
    stringFieldOrEmpty apiErr "Message" ++ ascii " (RequestId: " ++
    stringFieldOrEmpty response "RequestId" ++ ascii ")"

/-- What `ParseApiEnvelope` and `Recognize` do with a parsed body; none of it is in a `try`
    block. -/
def checkEnvelope (root : Json) : Except Exn Json := do
  let present ← (root.hasObject "Response").mapError .json
  if ¬ present then throwAsr kErrServerError (ascii "empty response from server")
  else do
    let response ← (root.index "Response").mapError .json
    let failed ← (response.hasObject "Error").mapError .json
    if failed then do
      let apiErr ← (response.index "Error").mapError .json
      throwAsr kErrServerError (serverErrorText response apiErr)
    else return response

/-- `ParseApiEnvelope`; `Recognize` has the same statements in its own body. -/
def parseApiEnvelope (deps : Deps) (body : Bytes) : Except Exn Json :=
  match deps.parse body with
  | .error what => throwAsr kErrReadFailed (ascii "unmarshal response failed: " ++ what)
  | .ok root => checkEnvelope root

/-! ## The decoders -/

structure SentenceWord where
  word : Bytes
  startTime : ℤ
  endTime : ℤ
  deriving DecidableEq, Repr

structure SentenceRecognitionResult where
  result : Bytes
  audioDuration : ℤ
  wordSize : ℤ
  wordList : List SentenceWord
  requestId : Bytes
  deriving DecidableEq, Repr

structure SentenceWords where
  word : Bytes
  offsetStartMs : ℤ
  offsetEndMs : ℤ
  deriving DecidableEq, Repr

structure SentenceDetail where
  finalSentence : Bytes
  sliceSentence : Bytes
  writtenText : Bytes
  startMs : ℤ
  endMs : ℤ
  wordsNum : ℤ
  words : List SentenceWords
  speechSpeed : Binary64
  silenceTime : ℤ
  speakerId : ℤ
  speakerRoleName : Bytes
  channelId : ℤ
  language : Bytes
  deriving DecidableEq, Repr

structure TaskStatus where
  recTaskId : Bytes
  status : ℤ
  statusStr : Bytes
  progress : ℤ
  result : Bytes
  errorMsg : Bytes
  resultDetail : List SentenceDetail
  audioDuration : Binary64
  deriving DecidableEq, Repr

/-- The loop body of `ParseResult`. -/
def parseSentenceWord (j : Json) : Except JsonError SentenceWord := do
  let word ← j.value Json.getStr "Word" []
  let startTime ← j.value Json.getInt64 "StartTime" 0
  let endTime ← j.value Json.getInt64 "EndTime" 0
  return { word, startTime, endTime }

def parseResult (response : Json) : Except JsonError SentenceRecognitionResult := do
  let result ← response.value Json.getStr "Result" []
  let audioDuration ← response.value Json.getInt64 "AudioDuration" 0
  let wordSize ← response.value Json.getInt "WordSize" 0
  let requestId ← response.value Json.getStr "RequestId" []
  let wordList ← (response.arrayAt "WordList").mapM parseSentenceWord
  return { result, audioDuration, wordSize, wordList, requestId }

/-- `it != end() && !it->is_null()`. -/
def presentAt (j : Json) (k : String) : Option Json :=
  (j.member k).filter fun v => !v.isNull

/-- `PickInt`: the fallback is only read where the primary key has no value. -/
def pickInt (j : Json) (primary fallback : String) : Except JsonError ℤ :=
  match (presentAt j primary).or (presentAt j fallback) with
  | some v =>
    match v.getInt64 with
    | some n => .ok n
    | none => .error (.typeError 302)
  | none => .ok 0

/-- The inner loop body of `ParseSentenceDetail`. -/
def parseSentenceWords (j : Json) : Except JsonError SentenceWords := do
  let word ← j.value Json.getStr "Word" []
  let offsetStartMs ← pickInt j "StartTime" "OffsetStartMs"
  let offsetEndMs ← pickInt j "EndTime" "OffsetEndMs"
  return { word, offsetStartMs, offsetEndMs }

def parseSentenceDetail (j : Json) : Except JsonError SentenceDetail := do
  let finalSentence ← j.value Json.getStr "FinalSentence" []
  let sliceSentence ← j.value Json.getStr "SliceSentence" []
  let writtenText ← j.value Json.getStr "WrittenText" []
  let startMs ← j.value Json.getInt64 "StartMs" 0
  let endMs ← j.value Json.getInt64 "EndMs" 0
  let wordsNum ← j.value Json.getInt "WordsNum" 0
  let speechSpeed ← j.value Json.getDouble "SpeechSpeed" .zero
  let silenceTime ← j.value Json.getInt64 "SilenceTime" 0
  let speakerId ← j.value Json.getInt "SpeakerId" 0
  let speakerRoleName ← j.value Json.getStr "SpeakerRoleName" []
  let channelId ← j.value Json.getInt "ChannelId" 0
  let language ← j.value Json.getStr "Language" []
  let words ← (j.arrayAt "Words").mapM parseSentenceWords
  return { finalSentence, sliceSentence, writtenText, startMs, endMs, wordsNum, words, speechSpeed
           silenceTime, speakerId, speakerRoleName, channelId, language }

def parseTaskStatus (j : Json) : Except JsonError TaskStatus := do
  let recTaskId ← j.value Json.getStr "RecTaskId" []
  let status ← j.value Json.getInt "Status" 0
  let statusStr ← j.value Json.getStr "StatusStr" []
  let progress ← j.value Json.getInt "Progress" 0
  let result ← j.value Json.getStr "Result" []
  let errorMsg ← j.value Json.getStr "ErrorMsg" []
  let audioDuration ← j.value Json.getDouble "AudioDuration" .zero
  let resultDetail ← (j.arrayAt "ResultDetail").mapM parseSentenceDetail
  return { recTaskId, status, statusStr, progress, result, errorMsg, resultDetail, audioDuration }

/-! ## The operations -/

/-- `Recognize`, with the response of the envelope. -/
def sentenceResult (deps : Deps) (response : Json) : Except Exn SentenceRecognitionResult :=
  unmarshal deps (parseResult response)

/-- The `try` block of `CreateTask`. -/
def recTaskId (response : Json) : Except JsonError Bytes := do
  let present ← response.hasObject "Data"
  if present then do
    let data ← response.index "Data"
    data.value Json.getStr "RecTaskId" []
  else return []

/-- `CreateTask`, with the response of the envelope. -/
def createdTaskId (deps : Deps) (response : Json) : Except Exn Bytes := do
  let taskId ← unmarshal deps (recTaskId response)
  if taskId = [] then throwAsr kErrServerError (ascii "empty RecTaskId in response")
  else return taskId

/-- `DescribeTaskStatus`, with the response of the envelope. -/
def describedStatus (deps : Deps) (response : Json) : Except Exn TaskStatus := do
  let present ← (response.hasObject "Data").mapError .json
  if ¬ present then throwAsr kErrServerError (ascii "empty response from server")
  else unmarshal deps do
    let data ← response.index "Data"
    parseTaskStatus data

/-- An operation: its request, the transport, the envelope and what it reads from it. -/
def call {α : Type} (deps : Deps) (curl : HttpRequest → CurlOutcome)
    (request : Except Exn HttpRequest) (read : Json → Except Exn α) : Except Exn α := do
  let req ← request
  let body ← httpBody curl req
  let response ← parseApiEnvelope deps body
  read response

section

variable (deps : Deps) (client : Client) (env : CallEnv) (curl : HttpRequest → CurlOutcome)

/-- `SentenceRecognizer::Recognize`. -/
def recognize (req : SentenceRecognitionRequest) : Except Exn SentenceRecognitionResult :=
  call deps curl (recognizeRequest deps client env req) (sentenceResult deps)

/-- `FileRecognizer::CreateTask`. -/
def createTask (req : CreateRecTaskRequest) : Except Exn Bytes :=
  call deps curl (createTaskRequest deps client env req) (createdTaskId deps)

/-- `FileRecognizer::DescribeTaskStatus`. -/
def describeTaskStatus (recTaskId : Bytes) : Except Exn TaskStatus :=
  call deps curl (describeTaskStatusRequest deps client env recTaskId) (describedStatus deps)

end

end TrtcAsr.V2
