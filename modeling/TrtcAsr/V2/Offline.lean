/-
  The requests that the v2 recognition operations send (sentence_recognizer.cc,
  file_recognizer.cc), up to the call of `HttpPost`.
-/
import TrtcAsr.Http
import TrtcAsr.V2.Requests

namespace TrtcAsr.V2

/-- A credential with the account, which only the v2 interfaces name. -/
structure Account extends Credential where
  appId : ℤ
  deriving DecidableEq, Repr

/-- What a recognizer is configured with. -/
structure Client where
  account : Account
  endpoint : Bytes := []
  deriving DecidableEq, Repr

/-- What one call draws: a UUID, the time of the UserSig and the time in the URL. -/
structure CallEnv where
  uuid : Vector UInt8 16
  now : ℤ
  timestamp : ℤ

/-- `SdkReportQuery`. -/
def sdkReportQuery : Bytes :=
  writeQuery (sdkReport.foldl (fun m kv => m.put kv.1 kv.2) SortedMap.empty)

section

variable (deps : Deps) (client : Client) (env : CallEnv)

def requestUrl (path requestId : Bytes) : Except ASRError Bytes := do
  let base ← resolveHTTPEndpoint client.endpoint client.account.site
  return base ++ path ++ ascii "?AppId=" ++ toDec client.account.appId ++ ascii "&Secretid=" ++
    toDec client.account.appId ++ ascii "&RequestId=" ++ requestId ++ ascii "&Timestamp=" ++
    toDec env.timestamp ++ ascii "&" ++ sdkReportQuery

def requestHeaders (userSig : Bytes) : List Bytes :=
  [ascii "Content-Type: application/json; charset=utf-8",
    ascii "X-TRTC-SdkAppId: " ++ toDec client.account.sdkAppId,
    ascii "X-TRTC-UserSig: " ++ userSig]

/-- `SentenceRecognizer::Recognize`. -/
def recognizeRequest (req : SentenceRecognitionRequest) : Except Exn HttpRequest := do
  req.validate.mapError .asr
  let requestId := generateUuid env.uuid
  let userSig ← (resolveUserSig deps client.account.toCredential requestId env.now).mapError .asr
  let url ← (requestUrl client env (ascii "/v1/SentenceRecognition") requestId).mapError .asr
  let jsonBody ← (req.serialize deps).mapError .json
  return { url, jsonBody, headers := requestHeaders client userSig, timeoutSeconds := 30 }

/-- `FileRecognizer::DoRequest`. -/
def doRequest (path jsonBody : Bytes) : Except Exn HttpRequest := do
  let requestId := generateUuid env.uuid
  let userSig ← (resolveUserSig deps client.account.toCredential requestId env.now).mapError .asr
  let url ← (requestUrl client env path requestId).mapError .asr
  return { url, jsonBody, headers := requestHeaders client userSig, timeoutSeconds := 60 }

/-- `FileRecognizer::CreateTask`. -/
def createTaskRequest (req : CreateRecTaskRequest) : Except Exn HttpRequest := do
  req.validate.mapError .asr
  let jsonBody ← (req.serialize deps).mapError .json
  doRequest deps client env (ascii "/v1/CreateRecTask") jsonBody

/-- `FileRecognizer::DescribeTaskStatus`. -/
def describeTaskStatusRequest (recTaskId : Bytes) : Except Exn HttpRequest := do
  (rejectIf (recTaskId = []) (ascii "RecTaskId is empty")).mapError .asr
  let body := .obj (Members.empty.put "RecTaskId" (.str recTaskId))
  let jsonBody ← (deps.dump body).mapError .json
  doRequest deps client env (ascii "/v1/DescribeTaskStatus") jsonBody

end

end TrtcAsr.V2
