/-
  The options of a v3 streaming session (v3.h, v3.cc): their local checks, the start frame
  and the URL that `Connect` dials.
-/
import TrtcAsr.Credential
import TrtcAsr.V3.Requests
import TrtcAsr.Ws.Dial

namespace TrtcAsr.V3

def kMaxVoiceIdLen : ℕ := 128
def kMinMaxSpeakTime : ℤ := 5000
def kMaxMaxSpeakTime : ℤ := 90000
def kMinVadSilenceTimeMs : ℤ := 240
def kMaxVadSilenceTimeMs : ℤ := 2000
def kStartFrameMaxBytes : ℕ := 64 * 1024

/-- The members of `SpeechRecognizer` that the setters write. -/
structure SpeechOptions where
  credential : Credential
  engineModelType : Bytes
  endpoint : Bytes := []
  voiceFormat : ℤ := 1
  needVad : ℤ := 1
  convertNumMode : ℤ := 1
  hotwordId : Bytes := []
  hotwordList : Bytes := []
  filterDirty : ℤ := 0
  filterModal : ℤ := 0
  filterPunc : ℤ := 0
  filterEmptyResult : Option ℤ := none
  wordInfo : ℤ := 0
  wordWithSpace : ℤ := 0
  vadSilenceTime : ℤ := 0
  vadLevel : Option ℤ := none
  noiseThreshold : Option Binary64 := none
  maxSpeakTime : ℤ := 0
  inputSampleRate : ℤ := 0
  speakerDiarization : ℤ := 0
  speakerNumber : ℤ := 0
  speakerRoles : List SpeakerRole := []
  voiceprintIds : List Bytes := []
  voiceId : Bytes := []
  language : Bytes := []
  enableSpeakerContext : ℤ := 0
  speakerContextId : Bytes := []
  deriving DecidableEq, Repr

namespace SpeechOptions

/-! ## Validation -/

def validateMaxSpeakTime (o : SpeechOptions) : Except ASRError Unit :=
  rejectIf (o.maxSpeakTime ≠ 0 ∧
      (o.maxSpeakTime < kMinMaxSpeakTime ∨ o.maxSpeakTime > kMaxMaxSpeakTime))
    (ascii "MaxSpeakTime must be between " ++ toDec kMinMaxSpeakTime ++ ascii " and " ++
      toDec kMaxMaxSpeakTime ++ ascii " ms, got " ++ toDec o.maxSpeakTime)

def validateVadSilenceTime (o : SpeechOptions) : Except ASRError Unit :=
  rejectIf (o.vadSilenceTime ≠ 0 ∧ o.needVad = 1 ∧
      (o.vadSilenceTime < kMinVadSilenceTimeMs ∨ o.vadSilenceTime > kMaxVadSilenceTimeMs))
    (ascii "VadSilenceTime must be between " ++ toDec kMinVadSilenceTimeMs ++ ascii " and " ++
      toDec kMaxVadSilenceTimeMs ++ ascii " ms (needvad=1), got " ++ toDec o.vadSilenceTime)

/-- `ValidateOptions`. -/
def validateOptions (o : SpeechOptions) : Except ASRError Unit := do
  rejectIf (o.voiceId.length > kMaxVoiceIdLen)
    (ascii "VoiceID length must not exceed " ++ toDec kMaxVoiceIdLen)
  validateSpeakerDiarization o.speakerDiarization o.speakerNumber o.speakerRoles o.voiceprintIds
  validateSpeakerContext o.enableSpeakerContext o.speakerDiarization
  validateVadTuning o.vadLevel o.noiseThreshold
  o.validateMaxSpeakTime
  o.validateVadSilenceTime
  validateEnumOption (ascii "NeedVad") o.needVad [0, 1]
  validateEnumOption (ascii "ConvertNumMode") o.convertNumMode [0, 1, 3]
  validateEnumOption (ascii "FilterDirty") o.filterDirty [0, 1, 2]
  validateEnumOption (ascii "FilterModal") o.filterModal [0, 1, 2]
  validateEnumOption (ascii "FilterPunc") o.filterPunc [0, 1]
  validateEnumOption (ascii "WordInfo") o.wordInfo [0, 1, 2, 100]
  validateEnumOption (ascii "WordWithSpace") o.wordWithSpace [0, 1]
  validateEnumOption (ascii "VoiceFormat") o.voiceFormat [1, 4, 6, 8, 10, 11, 12, 14, 16]
  (match o.filterEmptyResult with
    | some filterEmptyResult =>
      validateEnumOption (ascii "FilterEmptyResult") filterEmptyResult [0, 1]
    | none => .ok ())
  validateEnumOption (ascii "InputSampleRate") o.inputSampleRate [0, 8000]

/-! ## The start frame -/

/-- `params` of the start frame of a session `voiceId`. -/
def params (o : SpeechOptions) (voiceId : Bytes) : Members :=
  let voiceprint := o.speakerDiarization = kSpeakerDiarizationVoiceprint
  Members.empty
    |>.put "voice_id" (.str voiceId)
    |>.put "engine_model_type" (.str o.engineModelType)
    |>.putIf (o.language ≠ []) "language" (.str o.language)
    |>.put "voice_format" (.int o.voiceFormat)
    |>.put "needvad" (.int o.needVad)
    |>.put "convert_num_mode" (.int o.convertNumMode)
    |>.put "sdk_info" sdkReportParams
    |>.putIf (o.hotwordId ≠ []) "hotword_id" (.str o.hotwordId)
    |>.putIf (o.hotwordList ≠ []) "hotword_list" (.str o.hotwordList)
    |>.putIf (o.filterDirty ≠ 0) "filter_dirty" (.int o.filterDirty)
    |>.putIf (o.filterModal ≠ 0) "filter_modal" (.int o.filterModal)
    |>.putIf (o.filterPunc ≠ 0) "filter_punc" (.int o.filterPunc)
    |>.putSome o.filterEmptyResult "filter_empty_result" .int
    |>.putIf (o.wordInfo ≠ 0) "word_info" (.int o.wordInfo)
    |>.putIf (o.wordWithSpace ≠ 0) "word_with_space" (.int o.wordWithSpace)
    |>.putIf (o.vadSilenceTime ≠ 0) "vad_silence_time" (.int o.vadSilenceTime)
    |>.putSome o.vadLevel "vad_level" .int
    |>.putSome o.noiseThreshold "noise_threshold" .float
    |>.putIf (o.maxSpeakTime ≠ 0) "max_speak_time" (.int o.maxSpeakTime)
    |>.putIf (o.inputSampleRate ≠ 0) "input_sample_rate" (.int o.inputSampleRate)
    |>.putIf (o.speakerDiarization ≠ 0) "speaker_diarization" (.int o.speakerDiarization)
    |>.putIf (o.speakerDiarization ≠ 0 ∧ o.speakerNumber ≠ 0) "speaker_number"
      (.int o.speakerNumber)
    |>.putIf (voiceprint ∧ o.voiceprintIds ≠ []) "voiceprint_ids" (strings o.voiceprintIds)
    |>.putIf (voiceprint ∧ o.speakerRoles ≠ []) "speaker_roles"
      (.arr (o.speakerRoles.map SpeakerRole.toWire))
    |>.putIf (o.enableSpeakerContext ≠ 0) "enable_speaker_context" (.int o.enableSpeakerContext)
    |>.putIf (o.enableSpeakerContext ≠ 0 ∧ o.speakerContextId ≠ []) "speaker_context_id"
      (.str o.speakerContextId)

def startFrame (o : SpeechOptions) (voiceId userSig : Bytes) : Json :=
  let auth := Members.empty
    |>.put "sdkappid" (.str (toDec o.credential.sdkAppId))
    |>.put "usersig" (.str userSig)
  .obj <| Members.empty
    |>.put "type" (.str (ascii "start"))
    |>.put "auth" (.obj auth)
    |>.put "params" (.obj (o.params voiceId))

/-- `voice_id_` when `Connect` uses it: the one that was set, or a generated one. -/
def sessionId (o : SpeechOptions) (uuid : Vector UInt8 16) : Bytes :=
  if o.voiceId = [] then generateUuid uuid else o.voiceId

/-- What `Connect` has before it dials. -/
structure Prepared where
  frame : Json
  startFrame : Bytes
  wsUrl : Bytes

/-- `Connect`, up to the call of `WsClient::Connect`. -/
def prepare (deps : Deps) (o : SpeechOptions) (uuid : Vector UInt8 16) (now : ℤ) :
    Except Exn Prepared := do
  let voiceId := o.sessionId uuid
  let userSig ← (resolveUserSig deps o.credential voiceId now).mapError .asr
  let frame := o.startFrame voiceId userSig
  let startFrame ← (deps.dump frame).mapError .json
  (rejectIf (startFrame.length > kStartFrameMaxBytes) (ascii "start frame exceeds " ++
    toDec kStartFrameMaxBytes ++ ascii " bytes")).mapError .asr
  let base ← (resolveWSEndpoint o.endpoint o.credential.site).mapError .asr
  return { frame, startFrame, wsUrl := base ++ (ascii "/asr/v3?voice_id=" ++ voiceId) }

/-- `Start`, up to the same point. -/
def startRequest (deps : Deps) (o : SpeechOptions) (uuid : Vector UInt8 16) (now : ℤ) :
    Except Exn Prepared := do
  o.validateOptions.mapError .asr
  o.prepare deps uuid now

/-- A dial that gets as far as its upgrade request. -/
structure Handshake extends Prepared where
  parts : UrlParts
  nonce : Vector UInt8 16

/-- The request that `WsClient::Connect` writes. -/
def Handshake.request (hs : Handshake) : Bytes :=
  upgradeRequest hs.parts (base64Encode hs.nonce.toList)

/-- `Connect` up to the upgrade request, when the transport comes up. -/
def handshake (deps : Deps) (o : SpeechOptions) (uuid : Vector UInt8 16) (now : ℤ)
    (nonce : Vector UInt8 16) : Except Exn Handshake := do
  let prepared ← o.prepare deps uuid now
  let parts ← (parseWsUrl prepared.wsUrl).mapError fun err => .asr ⟨kErrConnectFailed,
    ascii "websocket dial failed: invalid endpoint url: " ++ err⟩
  return { prepared with parts, nonce }

end SpeechOptions

end TrtcAsr.V3
