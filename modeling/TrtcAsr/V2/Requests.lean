/-
  The requests of the v2 recognition interfaces (sentence_recognizer.h, file_recognizer.h): the
  local checks, with those of params.cc, and the JSON body that each is encoded to.
-/
import TrtcAsr.V2.SignatureParams

namespace TrtcAsr.V2

open TrtcAsr.V3 (SpeakerRole strings validateVadLevel validateVoiceprintIds kSpeakerDiarizationOff
  kSpeakerDiarizationVoiceprint)

def kSpeakerDiarizationCluster : ℤ := 1
def kMinNoiseThreshold : ℤ := 0
def kMaxNoiseThreshold : ℤ := 4
def kSourceTypeURL : ℤ := 0
def kSourceTypeData : ℤ := 1

/-! ## Shared checks -/

/-- `ValidateEnumOption` of params.cc; it differs from the one of v3 in how it writes its loop. -/
def validateEnumOption (name : Bytes) (value : ℤ) (allowed : List ℤ) : Except ASRError Unit :=
  V3.validateEnumOption name value allowed

/-- What stands before and after the first `://`. -/
def cutScheme : Bytes → Option (Bytes × Bytes)
  | [] => none
  | c :: s =>
    if (ascii "://").isPrefixOf (c :: s) then some ([], s.drop 2)
    else (cutScheme s).map fun p => (c :: p.1, p.2)

def validateEnrollmentURL (index : ℕ) (rawUrl : Bytes) : Except ASRError Unit :=
  let fail (what : Bytes) := invalidParam (ascii "SpeakerRoles[" ++ toDec index ++
    ascii "].AudioUrl " ++ what)
  if rawUrl.all (ascii " \t\r\n").contains then fail (ascii "is empty")
  else if rawUrl.any fun c => c < 0x20 || c = 0x7F then
    fail (ascii "is not a valid URL: contains control character")
  else if rawUrl.contains 0x20 then fail (ascii "is not a valid URL: contains space")
  else
    match cutScheme rawUrl with
    | none => fail (ascii "is not a valid URL: missing scheme")
    | some (scheme, rest) =>
      if scheme = [] then fail (ascii "is not a valid URL: missing scheme")
      else if scheme ≠ ascii "http" ∧ scheme ≠ ascii "https" then
        fail (ascii "must use http or https, got \"" ++ scheme ++ ascii "\"")
      else if rest.takeWhile (fun c => !(ascii "/?#").contains c) = [] then fail (ascii "has no host")
      else .ok ()

/-- The loop over the temporary voiceprints, from position `i` on. -/
def validateRoles : ℕ → List SpeakerRole → Except ASRError Unit
  | _, [] => .ok ()
  | i, role :: roles =>
    if role.roleName = [] then
      invalidParam (ascii "SpeakerRoles[" ++ toDec i ++ ascii "].RoleName is empty")
    else do
      validateEnrollmentURL i role.audioUrl
      validateRoles (i + 1) roles

def validateSpeakerDiarization (mode speakerNumber : ℤ) (roles : List SpeakerRole)
    (voiceprintIds : List Bytes) : Except ASRError Unit := do
  rejectIf (mode ≠ kSpeakerDiarizationOff ∧ mode ≠ kSpeakerDiarizationCluster ∧
      mode ≠ kSpeakerDiarizationVoiceprint)
    (ascii "SpeakerDiarization must be 0 (off), 1 (cluster) or 3 (voiceprint), got " ++ toDec mode)
  rejectIf (speakerNumber < 0)
    (ascii "SpeakerNumber must be >= 0 (0 = auto detection), got " ++ toDec speakerNumber)
  rejectIf (mode ≠ kSpeakerDiarizationVoiceprint ∧ (roles ≠ [] ∨ voiceprintIds ≠ []))
    (ascii "SpeakerRoles/VoiceprintIds require SpeakerDiarization=3")
  validateRoles 0 roles
  validateVoiceprintIds 0 voiceprintIds

def validateNoiseThreshold : Option Binary64 → Except ASRError Unit
  | some threshold => rejectIf (¬ threshold.within kMinNoiseThreshold kMaxNoiseThreshold)
      (ascii "NoiseThreshold must be between 0.0 and 4.0, got " ++ threshold.toGeneral)
  | none => .ok ()

def validateVadTuning (vadLevel : Option ℤ) (noiseThreshold : Option Binary64) :
    Except ASRError Unit := do
  validateVadLevel vadLevel
  validateNoiseThreshold noiseThreshold

/-! ## Sentence recognition -/

structure SentenceRecognitionRequest where
  engServiceType : Bytes
  sourceType : ℤ := 0
  voiceFormat : Bytes
  url : Bytes := []
  data : Bytes := []
  dataLen : ℤ := 0
  wordInfo : ℤ := 0
  filterDirty : ℤ := 0
  filterModal : ℤ := 0
  filterPunc : ℤ := 0
  convertNumMode : ℤ := 0
  hotwordId : Bytes := []
  hotwordList : Bytes := []
  customizationId : Bytes := []
  inputSampleRate : ℤ := 0
  language : Bytes := []
  deriving DecidableEq, Repr

namespace SentenceRecognitionRequest

/-- `ValidateRequest`. -/
def validate (req : SentenceRecognitionRequest) : Except ASRError Unit := do
  rejectIf (req.engServiceType = []) (ascii "EngServiceType is required")
  rejectIf (req.voiceFormat = []) (ascii "VoiceFormat is required")
  rejectIf (req.sourceType = kSourceTypeURL ∧ req.url = [])
    (ascii "Url is required when SourceType=0")
  rejectIf (req.sourceType = kSourceTypeData ∧ req.data = [])
    (ascii "Data is required when SourceType=1")

def toWire (req : SentenceRecognitionRequest) : Json :=
  .obj <| Members.empty
    |>.put "EngSerViceType" (.str req.engServiceType)
    |>.put "SourceType" (.int req.sourceType)
    |>.put "VoiceFormat" (.str req.voiceFormat)
    |>.putIf (req.url ≠ []) "Url" (.str req.url)
    |>.putIf (req.data ≠ []) "Data" (.str req.data)
    |>.putIf (req.dataLen ≠ 0) "DataLen" (.int req.dataLen)
    |>.putIf (req.wordInfo ≠ 0) "WordInfo" (.int req.wordInfo)
    |>.putIf (req.filterDirty ≠ 0) "FilterDirty" (.int req.filterDirty)
    |>.putIf (req.filterModal ≠ 0) "FilterModal" (.int req.filterModal)
    |>.putIf (req.filterPunc ≠ 0) "FilterPunc" (.int req.filterPunc)
    |>.putIf (req.convertNumMode ≠ 0) "ConvertNumMode" (.int req.convertNumMode)
    |>.putIf (req.hotwordId ≠ []) "HotwordId" (.str req.hotwordId)
    |>.putIf (req.hotwordList ≠ []) "HotwordList" (.str req.hotwordList)
    |>.putIf (req.customizationId ≠ []) "CustomizationId" (.str req.customizationId)
    |>.putIf (req.inputSampleRate ≠ 0) "InputSampleRate" (.int req.inputSampleRate)
    |>.putIf (req.language ≠ []) "Language" (.str req.language)

/-- `SerializeRequest`. -/
def serialize (deps : Deps) (req : SentenceRecognitionRequest) : Except JsonError Bytes :=
  deps.dump req.toWire

end SentenceRecognitionRequest

/-! ## File recognition -/

structure CreateRecTaskRequest where
  engineModelType : Bytes
  channelNum : ℤ := 0
  resTextFormat : ℤ := 0
  sourceType : ℤ := 0
  url : Bytes := []
  data : Bytes := []
  dataLen : ℤ := 0
  callbackUrl : Bytes := []
  filterDirty : ℤ := 0
  filterModal : ℤ := 0
  filterPunc : ℤ := 0
  convertNumMode : ℤ := 0
  hotwordId : Bytes := []
  hotwordList : Bytes := []
  customizationId : Bytes := []
  replaceTextId : Bytes := []
  language : Bytes := []
  speakerDiarization : ℤ := 0
  speakerNumber : ℤ := 0
  speakerRoles : List SpeakerRole := []
  voiceprintIds : List Bytes := []
  vadSilenceMs : ℤ := 0
  vadLevel : Option ℤ := none
  noiseThreshold : Option Binary64 := none
  deriving DecidableEq, Repr

namespace CreateRecTaskRequest

/-- `ValidateCreateRequest`. -/
def validate (req : CreateRecTaskRequest) : Except ASRError Unit := do
  rejectIf (req.engineModelType = []) (ascii "EngineModelType is required")
  rejectIf (req.channelNum ≤ 0) (ascii "ChannelNum must be positive")
  rejectIf (req.sourceType = 0 ∧ req.url = []) (ascii "Url is required when SourceType=0")
  rejectIf (req.sourceType = 1 ∧ req.data = []) (ascii "Data is required when SourceType=1")
  validateSpeakerDiarization req.speakerDiarization req.speakerNumber req.speakerRoles
    req.voiceprintIds
  validateVadTuning req.vadLevel req.noiseThreshold

/-- The body, with the value that is sent as `SpeakerRoles`. -/
def toWire (req : CreateRecTaskRequest) (roles : Option Json) : Json :=
  .obj <| Members.empty
    |>.put "EngineModelType" (.str req.engineModelType)
    |>.put "ChannelNum" (.int req.channelNum)
    |>.put "ResTextFormat" (.int req.resTextFormat)
    |>.put "SourceType" (.int req.sourceType)
    |>.putIf (req.url ≠ []) "Url" (.str req.url)
    |>.putIf (req.data ≠ []) "Data" (.str req.data)
    |>.putIf (req.dataLen ≠ 0) "DataLen" (.int req.dataLen)
    |>.putIf (req.callbackUrl ≠ []) "CallbackUrl" (.str req.callbackUrl)
    |>.putIf (req.filterDirty ≠ 0) "FilterDirty" (.int req.filterDirty)
    |>.putIf (req.filterModal ≠ 0) "FilterModal" (.int req.filterModal)
    |>.putIf (req.filterPunc ≠ 0) "FilterPunc" (.int req.filterPunc)
    |>.putIf (req.convertNumMode ≠ 0) "ConvertNumMode" (.int req.convertNumMode)
    |>.putIf (req.hotwordId ≠ []) "HotwordId" (.str req.hotwordId)
    |>.putIf (req.hotwordList ≠ []) "HotwordList" (.str req.hotwordList)
    |>.putIf (req.customizationId ≠ []) "CustomizationId" (.str req.customizationId)
    |>.putIf (req.replaceTextId ≠ []) "ReplaceTextId" (.str req.replaceTextId)
    |>.putIf (req.language ≠ []) "Language" (.str req.language)
    |>.putIf (req.speakerDiarization ≠ 0) "SpeakerDiarization" (.int req.speakerDiarization)
    |>.putIf (req.speakerNumber ≠ 0) "SpeakerNumber" (.int req.speakerNumber)
    |>.putSome roles "SpeakerRoles" id
    |>.putIf (req.voiceprintIds ≠ []) "VoiceprintIds" (strings req.voiceprintIds)
    |>.putIf (req.vadSilenceMs ≠ 0) "VadSilenceMs" (.int req.vadSilenceMs)
    |>.putSome req.vadLevel "VadLevel" .int
    |>.putSome req.noiseThreshold "NoiseThreshold" .float

/-- The value that is sent as `SpeakerRoles`: the roles are written out and parsed again. -/
def rolesValue (deps : Deps) (roles : List SpeakerRole) : Except JsonError (Option Json) :=
  if roles ≠ [] then do
    let text ← serializeSpeakerRoles deps roles
    let value ← (deps.parse text).mapError fun _ => .parseError
    return some value
  else return none

/-- `SerializeRequest`. -/
def serialize (deps : Deps) (req : CreateRecTaskRequest) : Except JsonError Bytes := do
  let roles ← rolesValue deps req.speakerRoles
  deps.dump (req.toWire roles)

end CreateRecTaskRequest

end TrtcAsr.V2
