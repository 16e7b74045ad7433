/-
  The options of a v2 streaming session (speech_recognizer.h, speech_recognizer.cc): their local
  checks and the URL that `Connect` dials.
-/
import TrtcAsr.V2.Offline

namespace TrtcAsr.V2

open TrtcAsr.V3 (SpeakerRole)

/-- The members of `SpeechRecognizer` that the setters write. -/
structure SpeechOptions where
  account : Account
  engineModelType : Bytes
  endpoint : Bytes := []
  voiceFormat : ℤ := 1
  needVad : ℤ := 1
  convertNumMode : ℤ := 1
  hotwordId : Bytes := []
  hotwordList : Bytes := []
  customizationId : Bytes := []
  replaceTextId : Bytes := []
  filterDirty : ℤ := 0
  filterModal : ℤ := 0
  filterPunc : ℤ := 0
  filterEmptyResult : Option ℤ := none
  wordInfo : ℤ := 0
  vadSilenceTime : ℤ := 0
  vadLevel : Option ℤ := none
  noiseThreshold : Option Binary64 := none
  maxSpeakTime : ℤ := 0
  inputSampleRate : ℤ := 0
  speakerDiarization : ℤ := 0
  enableSpeakerContext : ℤ := 0
  speakerContextId : Bytes := []
  speakerNumber : ℤ := 0
  speakerRoles : List SpeakerRole := []
  voiceprintIds : List Bytes := []
  voiceId : Bytes := []
  language : Bytes := []
  deriving DecidableEq, Repr

/-- What a `Connect` draws: the UUID, the time of the UserSig and the time and the random number of
    the query. -/
structure ConnectEnv where
  uuid : Vector UInt8 16
  now : ℤ
  timestamp : ℤ
  random : UInt32

namespace SpeechOptions

/-- `ValidateOptions`. -/
def validateOptions (o : SpeechOptions) : Except ASRError Unit := do
  validateSpeakerDiarization o.speakerDiarization o.speakerNumber o.speakerRoles o.voiceprintIds
  rejectIf (o.enableSpeakerContext ≠ 0 ∧ o.enableSpeakerContext ≠ 1 ∧ o.enableSpeakerContext ≠ 2)
    (ascii "EnableSpeakerContext must be 0 (off), 1 (sync) or 2 (async), got " ++
      toDec o.enableSpeakerContext)
  rejectIf (o.enableSpeakerContext ≠ 0 ∧ o.speakerDiarization = 0)
    (ascii "EnableSpeakerContext requires SetSpeakerDiarization(1) or (3)")
  validateVadTuning o.vadLevel o.noiseThreshold
  (match o.filterEmptyResult with
    | some filterEmptyResult =>
      validateEnumOption (ascii "FilterEmptyResult") filterEmptyResult [0, 1]
    | none => .ok ())
  validateEnumOption (ascii "InputSampleRate") o.inputSampleRate [0, 8000]

/-- The constructor of `SignatureParams`, and the assignments of `Connect`. -/
def signatureParams (o : SpeechOptions) (voiceId : Bytes) (env : ConnectEnv) : SignatureParams where
  appId := o.account.appId
  timestamp := env.timestamp
  expired := env.timestamp + 86400
  nonce := env.random.toNat % 9999999 + 1
  engineModelType := o.engineModelType
  voiceId := voiceId
  sdkAppId := o.account.sdkAppId
  voiceFormat := o.voiceFormat
  needVad := o.needVad
  convertNumMode := o.convertNumMode
  hotwordId := o.hotwordId
  hotwordList := o.hotwordList
  customizationId := o.customizationId
  replaceTextId := o.replaceTextId
  filterDirty := o.filterDirty
  filterModal := o.filterModal
  filterPunc := o.filterPunc
  filterEmptyResult := o.filterEmptyResult
  wordInfo := o.wordInfo
  vadSilenceTime := o.vadSilenceTime
  vadLevel := o.vadLevel
  noiseThreshold := o.noiseThreshold
  maxSpeakTime := o.maxSpeakTime
  inputSampleRate := o.inputSampleRate
  speakerDiarization := o.speakerDiarization
  enableSpeakerContext := o.enableSpeakerContext
  speakerContextId := if o.enableSpeakerContext ≠ 0 then o.speakerContextId else []
  speakerNumber := o.speakerNumber
  speakerRoles := o.speakerRoles
  voiceprintIds := o.voiceprintIds
  language := o.language

/-- `voice_id_` when `Connect` uses it: the one that was set, or a generated one. -/
def sessionId (o : SpeechOptions) (uuid : Vector UInt8 16) : Bytes :=
  if o.voiceId = [] then generateUuid uuid else o.voiceId

/-- `Connect`, up to the call of `WsClient::Connect` with the URL. -/
def prepare (deps : Deps) (o : SpeechOptions) (env : ConnectEnv) : Except Exn Bytes := do
  let voiceId := o.sessionId env.uuid
  let userSig ← (resolveUserSig deps o.account.toCredential voiceId env.now).mapError .asr
  let query ← ((o.signatureParams voiceId env).buildQueryStringWithSignature deps userSig).mapError
    .json
  let base ← (resolveWSEndpoint o.endpoint o.account.site).mapError .asr
  return base ++ ascii "/asr/v2/" ++ toDec o.account.appId ++ ascii "?" ++ query

/-- `Start`, up to the same point. -/
def startRequest (deps : Deps) (o : SpeechOptions) (env : ConnectEnv) : Except Exn Bytes := do
  o.validateOptions.mapError .asr
  o.prepare deps env

end SpeechOptions

end TrtcAsr.V2
