/-
  The requests of the v3 offline interfaces (v3.h, v3.cc): their local checks and the
  `params` block that each is encoded to.
-/
import TrtcAsr.Errors

namespace TrtcAsr.V3

def kSourceTypeUrl : ℤ := 0
def kSourceTypeData : ℤ := 1
def kSpeakerDiarizationOff : ℤ := 0
def kSpeakerDiarizationVoiceprint : ℤ := 3
def kSpeakerContextOff : ℤ := 0
def kSpeakerContextSync : ℤ := 1
def kSpeakerContextAsync : ℤ := 2

structure SpeakerRole where
  roleName : Bytes
  audioUrl : Bytes
  deriving DecidableEq, Repr

structure AudioURLItem where
  index : ℤ := 0
  url : Bytes
  label : Bytes := []
  deriving DecidableEq, Repr

structure TranscribeRequest where
  engineModelType : Bytes
  sourceType : ℤ := kSourceTypeData
  voiceFormat : Bytes := ascii "pcm"
  url : Bytes := []
  data : Bytes := []
  dataLen : ℤ := 0
  wordInfo : ℤ := 0
  filterDirty : ℤ := 0
  filterModal : ℤ := 0
  filterPunc : ℤ := 0
  convertNumMode : ℤ := 0
  hotwordId : Bytes := []
  customizationId : Bytes := []
  hotwordList : Bytes := []
  inputSampleRate : ℤ := 0
  needvad : Option ℤ := none
  vadSilenceTime : Option ℤ := none
  language : Bytes := []
  speakerDiarization : ℤ := 0
  speakerNumber : ℤ := 0
  deriving DecidableEq, Repr

structure CreateTranscriptionRequest where
  engineModelType : Bytes
  channelNum : ℤ := 1
  resTextFormat : ℤ := 1
  sourceType : ℤ := kSourceTypeData
  url : Bytes := []
  data : Bytes := []
  dataLen : ℤ := 0
  audioUrls : List AudioURLItem := []
  callbackUrl : Bytes := []
  speakerDiarization : ℤ := 0
  speakerNumber : ℤ := 0
  voiceprintIds : List Bytes := []
  speakerRoles : List SpeakerRole := []
  hotwordId : Bytes := []
  customizationId : Bytes := []
  hotwordList : Bytes := []
  keywordLibIdList : List Bytes := []
  replaceTextId : Bytes := []
  convertNumMode : ℤ := 0
  filterDirty : ℤ := 0
  filterPunc : ℤ := 0
  filterModal : ℤ := 0
  sentenceMaxLength : ℤ := 0
  extra : Bytes := []
  vadSilenceMs : ℤ := 0
  vadLevel : Option ℤ := none
  noiseThreshold : Option Binary64 := none
  language : Bytes := []
  deriving DecidableEq, Repr

/-! ## Validation -/

/-- The elements of a list, joined by `", "`. -/
def commaList (l : List ℤ) : Bytes := (ascii ", ").intercalate (l.map toDec)

def validateEnumOption (name : Bytes) (value : ℤ) (allowed : List ℤ) : Except ASRError Unit :=
  if value ∈ allowed then .ok ()
  else invalidParam (name ++ ascii " must be one of [" ++ commaList allowed ++ ascii "], got " ++
    toDec value)

def validateVadLevel : Option ℤ → Except ASRError Unit
  | some level => rejectIf (level ≠ 0 ∧ level ≠ 1)
      (ascii "VadLevel must be 0 (high recall) or 1 (far-field filtering), got " ++ toDec level)
  | none => .ok ()

def validateNoiseThreshold : Option Binary64 → Except ASRError Unit
  | some threshold => rejectIf (¬ threshold.within 0 4)
      (ascii "NoiseThreshold must be between 0.0 and 4.0, got " ++ threshold.toFixed6)
  | none => .ok ()

def validateVadTuning (vadLevel : Option ℤ) (noiseThreshold : Option Binary64) :
    Except ASRError Unit := do
  validateVadLevel vadLevel
  validateNoiseThreshold noiseThreshold

def validateSpeakerContext (mode diarization : ℤ) : Except ASRError Unit := do
  rejectIf (mode ≠ kSpeakerContextOff ∧ mode ≠ kSpeakerContextSync ∧ mode ≠ kSpeakerContextAsync)
    (ascii "EnableSpeakerContext must be 0 (off), 1 (sync) or 2 (async), got " ++ toDec mode)
  rejectIf (mode ≠ kSpeakerContextOff ∧ diarization = kSpeakerDiarizationOff)
    (ascii "EnableSpeakerContext requires SpeakerDiarization=1 or 3")

/-- `url.find("http://") == 0 || url.find("https://") == 0`. -/
def isHttpUrl (url : Bytes) : Bool :=
  (ascii "http://").isPrefixOf url || (ascii "https://").isPrefixOf url

/-- The loop over the temporary voiceprints, from position `i` on. -/
def validateRoles : ℕ → List SpeakerRole → Except ASRError Unit
  | _, [] => .ok ()
  | i, role :: roles =>
    if role.roleName = [] then
      invalidParam (ascii "SpeakerRoles[" ++ toDec i ++ ascii "].RoleName is empty")
    else if ¬ isHttpUrl role.audioUrl then
      invalidParam (ascii "SpeakerRoles[" ++ toDec i ++
        ascii "].AudioURL must be a valid http/https URL")
    else validateRoles (i + 1) roles

/-- The loop over the enrolled voiceprints, from position `i` on. -/
def validateVoiceprintIds : ℕ → List Bytes → Except ASRError Unit
  | _, [] => .ok ()
  | i, id :: ids =>
    if id = [] then invalidParam (ascii "VoiceprintIds[" ++ toDec i ++ ascii "] is empty")
    else validateVoiceprintIds (i + 1) ids

def validateSpeakerDiarization (mode speakerNumber : ℤ) (roles : List SpeakerRole)
    (voiceprintIds : List Bytes) : Except ASRError Unit := do
  rejectIf (mode ≠ kSpeakerDiarizationOff ∧ mode ≠ 1 ∧ mode ≠ kSpeakerDiarizationVoiceprint)
    (ascii "SpeakerDiarization must be 0 (off), 1 (cluster) or 3 (voiceprint), got " ++ toDec mode)
  rejectIf (speakerNumber < 0)
    (ascii "SpeakerNumber must be >= 0 (0 = auto detection), got " ++ toDec speakerNumber)
  rejectIf (mode ≠ kSpeakerDiarizationVoiceprint ∧ (roles ≠ [] ∨ voiceprintIds ≠ []))
    (ascii "SpeakerRoles/VoiceprintIds require SpeakerDiarization=3")
  validateRoles 0 roles
  validateVoiceprintIds 0 voiceprintIds

/-- The loop over the pieces, from position `i` on, with the indexes `seen` before. -/
def validateItems : ℕ → List ℤ → List AudioURLItem → Except ASRError Unit
  | _, _, [] => .ok ()
  | i, seen, item :: items =>
    if item.index < 0 then
      invalidParam (ascii "AudioURLs[" ++ toDec i ++ ascii "].Index must be non-negative")
    else if item.index ∈ seen then
      invalidParam (ascii "AudioURLs index duplicated: " ++ toDec item.index)
    else if ¬ isHttpUrl item.url then
      invalidParam (ascii "AudioURLs[" ++ toDec i ++ ascii "].URL must be a valid http/https URL")
    else validateItems (i + 1) (seen ++ [item.index]) items

def validateAudioURLs (sourceType : ℤ) (url data : Bytes) (audioUrls : List AudioURLItem) :
    Except ASRError Unit :=
  if sourceType ≠ kSourceTypeUrl ∨ url ≠ [] ∨ data ≠ [] then
    invalidParam (ascii "AudioURLs cannot be used together with non-zero sourceType, url or data")
  else validateItems 0 [] audioUrls

def TranscribeRequest.validate (req : TranscribeRequest) : Except ASRError Unit := do
  rejectIf (req.engineModelType = []) (ascii "engine_model_type is required")
  rejectIf (req.voiceFormat = []) (ascii "voice_format is required")
  rejectIf (req.sourceType = kSourceTypeUrl ∧ req.url = [])
    (ascii "url is required when source_type=0")
  rejectIf (req.sourceType = kSourceTypeData ∧ req.data = [])
    (ascii "data is required when source_type=1")
  (if req.speakerDiarization ≠ 0 ∨ req.speakerNumber ≠ 0 then
    validateSpeakerDiarization req.speakerDiarization req.speakerNumber [] [] else .ok ())
  (match req.needvad with
    | some needvad => validateEnumOption (ascii "needvad") needvad [0, 1]
    | none => .ok ())
  validateEnumOption (ascii "input_sample_rate") req.inputSampleRate [0, 8000]

/-- The check of the source: of `audio_urls`, or of the one that `source_type` selects. -/
def CreateTranscriptionRequest.validateSource (req : CreateTranscriptionRequest) :
    Except ASRError Unit :=
  if req.audioUrls ≠ [] then validateAudioURLs req.sourceType req.url req.data req.audioUrls
  else do
    rejectIf (req.sourceType = kSourceTypeUrl ∧ req.url = [])
      (ascii "url is required when source_type=0")
    rejectIf (req.sourceType = kSourceTypeData ∧ req.data = [])
      (ascii "data is required when source_type=1")

def CreateTranscriptionRequest.validate (req : CreateTranscriptionRequest) :
    Except ASRError Unit := do
  rejectIf (req.engineModelType = []) (ascii "engine_model_type is required")
  rejectIf (req.channelNum ≠ 1 ∧ req.channelNum ≠ 2) (ascii "channel_num must be 1 or 2")
  rejectIf (req.resTextFormat < 0 ∨ req.resTextFormat > 3)
    (ascii "res_text_format must be one of [0, 1, 2, 3], got " ++ toDec req.resTextFormat)
  rejectIf (req.channelNum = 2 ∧ req.speakerDiarization ≠ 0)
    (ascii "speaker_diarization is not supported for stereo (channel_num=2); " ++
      ascii "sentences carry channel_id instead")
  req.validateSource
  validateSpeakerDiarization req.speakerDiarization req.speakerNumber req.speakerRoles
    req.voiceprintIds
  validateVadTuning req.vadLevel req.noiseThreshold

/-! ## Encoding -/

def strings (l : List Bytes) : Json := .arr (l.map .str)

/-- An element of `speaker_roles`. -/
def SpeakerRole.toWire (role : SpeakerRole) : Json :=
  .obj <| Members.empty
    |>.put "role_name" (.str role.roleName)
    |>.put "audio_url" (.str role.audioUrl)

/-- An element of `audio_urls`. -/
def AudioURLItem.toWire (item : AudioURLItem) : Json :=
  .obj <| Members.empty
    |>.put "index" (.int item.index)
    |>.put "req.url" (.str item.url)
    |>.putIf (item.label ≠ []) "label" (.str item.label)

def transcribeRequestToWire (req : TranscribeRequest) : Json :=
  let d := Members.empty
    |>.put "engine_model_type" (.str req.engineModelType)
    |>.put "source_type" (.int req.sourceType)
    |>.put "voice_format" (.str req.voiceFormat)
  let d := if req.sourceType = kSourceTypeUrl then d.put "url" (.str req.url)
    else (d.put "data" (.str req.data)).put "data_len" (.int req.dataLen)
  .obj <| d
    |>.putIf (req.wordInfo ≠ 0) "word_info" (.int req.wordInfo)
    |>.putIf (req.filterDirty ≠ 0) "filter_dirty" (.int req.filterDirty)
    |>.putIf (req.filterModal ≠ 0) "filter_modal" (.int req.filterModal)
    |>.putIf (req.filterPunc ≠ 0) "filter_punc" (.int req.filterPunc)
    |>.putIf (req.convertNumMode ≠ 0) "convert_num_mode" (.int req.convertNumMode)
    |>.putIf (req.hotwordId ≠ []) "hotword_id" (.str req.hotwordId)
    |>.putIf (req.customizationId ≠ []) "customization_id" (.str req.customizationId)
    |>.putIf (req.hotwordList ≠ []) "hotword_list" (.str req.hotwordList)
    |>.putIf (req.inputSampleRate ≠ 0) "input_sample_rate" (.int req.inputSampleRate)
    |>.putSome req.needvad "needvad" .int
    |>.putSome req.vadSilenceTime "vad_silence_time" .int
    |>.putIf (req.language ≠ []) "language" (.str req.language)
    |>.putIf (req.speakerDiarization ≠ 0) "speaker_diarization" (.int req.speakerDiarization)
    |>.putIf (req.speakerDiarization ≠ 0 ∧ req.speakerNumber ≠ 0) "speaker_number"
      (.int req.speakerNumber)

/-- The single-audio source: `url`, or `data` with `data_len`, or neither. -/
def CreateTranscriptionRequest.putSource (req : CreateTranscriptionRequest) (d : Members) :
    Members :=
  if req.sourceType = kSourceTypeUrl ∧ req.url ≠ [] then d.put "url" (.str req.url)
  else if req.sourceType = kSourceTypeData ∧ req.data ≠ [] then
    (d.put "data" (.str req.data)).put "data_len" (.int req.dataLen)
  else d

def createTranscriptionRequestToWire (req : CreateTranscriptionRequest) : Json :=
  let voiceprint := req.speakerDiarization = kSpeakerDiarizationVoiceprint
  .obj <| Members.empty
    |>.put "engine_model_type" (.str req.engineModelType)
    |>.put "channel_num" (.int req.channelNum)
    |>.put "res_text_format" (.int req.resTextFormat)
    |>.put "source_type" (.int req.sourceType)
    |> req.putSource
    |>.putIf (req.audioUrls ≠ []) "audio_urls" (.arr (req.audioUrls.map AudioURLItem.toWire))
    |>.putIf (req.callbackUrl ≠ []) "callback_url" (.str req.callbackUrl)
    |>.putIf (req.speakerDiarization ≠ 0) "speaker_diarization" (.int req.speakerDiarization)
    |>.putIf (req.speakerDiarization ≠ 0 ∧ req.speakerNumber ≠ 0) "speaker_number"
      (.int req.speakerNumber)
    |>.putIf (voiceprint ∧ req.voiceprintIds ≠ []) "voiceprint_ids" (strings req.voiceprintIds)
    |>.putIf (voiceprint ∧ req.speakerRoles ≠ []) "speaker_roles"
      (.arr (req.speakerRoles.map SpeakerRole.toWire))
    |>.putIf (req.hotwordId ≠ []) "hotword_id" (.str req.hotwordId)
    |>.putIf (req.customizationId ≠ []) "customization_id" (.str req.customizationId)
    |>.putIf (req.hotwordList ≠ []) "hotword_list" (.str req.hotwordList)
    |>.putIf (req.keywordLibIdList ≠ []) "keyword_lib_id_list" (strings req.keywordLibIdList)
    |>.putIf (req.replaceTextId ≠ []) "replace_text_id" (.str req.replaceTextId)
    |>.putIf (req.convertNumMode ≠ 0) "convert_num_mode" (.int req.convertNumMode)
    |>.putIf (req.filterDirty ≠ 0) "filter_dirty" (.int req.filterDirty)
    |>.putIf (req.filterPunc ≠ 0) "filter_punc" (.int req.filterPunc)
    |>.putIf (req.filterModal ≠ 0) "filter_modal" (.int req.filterModal)
    |>.putIf (req.sentenceMaxLength ≠ 0) "sentence_max_length" (.int req.sentenceMaxLength)
    |>.putIf (req.extra ≠ []) "extra" (.str req.extra)
    |>.putIf (req.vadSilenceMs ≠ 0) "vad_silence_ms" (.int req.vadSilenceMs)
    |>.putSome req.vadLevel "vad_level" .int
    |>.putSome req.noiseThreshold "noise_threshold" .float
    |>.putIf (req.language ≠ []) "language" (.str req.language)

end TrtcAsr.V3
