/-
  The documented wire format of the requests that have one JSON object as their body or `params`
  (sentence_recognizer.cc, file_recognizer.cc, v3.cc), and what of a request survives it.

  * `ofWire` reads an object by the field names of the documentation; an absent field stands for the
    default of the struct.
  * `SentenceRecognitionRequest.read_serialize`, `CreateRecTaskRequest.read_serialize_iff`,
    `TranscribeRequest.ofWire_toWire`: the three encoders.
  * `requests_read_back`: them together.
-/
import TrtcAsr.Lib.JsonReread
import TrtcAsr.Serialization

namespace TrtcAsr

open Json (InInt InInt64 fits_of_inInt fits_of_inInt64 lookup_reread)
open V3 (SpeakerRole getStr_str readField readFloat readField_int readField_int_if
  readField_list_ne_nil readField_none readField_some readField_str readInt readInt_int readList
  readOption readOption_map strings)

/-- The library writes a value whose strings are UTF-8, and parses the text. -/
def Deps.Rereads (deps : Deps) (j : Json) : Prop :=
  j.isUtf8 → j.fits → ∃ text, deps.dump j = .ok text ∧ deps.parse text = .ok j.reread

/-! ## Readers -/

section

variable {α : Type} {get : Json → Option α}

theorem readsAlike_int : ReadsAlike readInt := by
  intro j
  cases j with
  | int n =>
    rw [Json.reread, Json.number]
    split
    · rename_i h
      show some ((n.toNat : ℕ) : ℤ) = some n
      rw [Int.toNat_of_nonneg h]
    · rfl
  | float x =>
    rw [Json.reread]
    split
    · rfl
    · rfl
  | _ => rfl

theorem readsAlike_list (h : ReadsAlike get) : ReadsAlike (readList get) := by
  intro j
  cases j with
  | arr items =>
    rw [Json.reread_arr]
    show (items.map Json.reread).mapM get = items.mapM get
    induction items with
    | nil => rfl
    | cons j items ih => rw [List.map_cons, List.mapM_cons, List.mapM_cons, h j, ih]
  | int n =>
    rw [Json.reread, Json.number]
    split
    · rfl
    · rfl
  | float x =>
    rw [Json.reread]
    split
    · rfl
    · rfl
  | _ => rfl

theorem readField_reread (h : ReadsAlike get) (d : α) (o : Option Json) :
    readField get d (o.map Json.reread) = readField get d o := by
  cases o with
  | none => rfl
  | some j => exact h j

theorem readOption_reread (h : ReadsAlike get) (o : Option Json) :
    readOption get (o.map Json.reread) = readOption get o := by
  cases o with
  | none => rfl
  | some j =>
    show (get j.reread).map some = (get j).map some
    rw [h j]

/-- A double is lost unless it is finite. -/
theorem readOption_float_reread (o : Option Binary64) :
    readOption readFloat (((o.map Json.float).or none).map Json.reread) =
      if ∀ x ∈ o, x.isFinite then some o else none := by
  cases o with
  | none => rfl
  | some x =>
    show (readFloat (Json.float x).reread).map some = _
    rw [Json.reread]
    by_cases h : x.isFinite
    · rw [if_pos h, if_pos (by rintro _ ⟨⟩; exact h)]
      rfl
    · rw [if_neg h, if_neg fun hall => h (hall x rfl)]
      rfl

end


/-! ## Sentence recognition -/

namespace V2

namespace SentenceRecognitionRequest

/-- The body read by the documented field names. -/
def ofWire : Json → Option SentenceRecognitionRequest
  | .obj ms => do
    let engServiceType ← readField Json.getStr [] (ms.lookup "EngSerViceType")
    let sourceType ← readField readInt 0 (ms.lookup "SourceType")
    let voiceFormat ← readField Json.getStr [] (ms.lookup "VoiceFormat")
    let url ← readField Json.getStr [] (ms.lookup "Url")
    let data ← readField Json.getStr [] (ms.lookup "Data")
    let dataLen ← readField readInt 0 (ms.lookup "DataLen")
    let wordInfo ← readField readInt 0 (ms.lookup "WordInfo")
    let filterDirty ← readField readInt 0 (ms.lookup "FilterDirty")
    let filterModal ← readField readInt 0 (ms.lookup "FilterModal")
    let filterPunc ← readField readInt 0 (ms.lookup "FilterPunc")
    let convertNumMode ← readField readInt 0 (ms.lookup "ConvertNumMode")
    let hotwordId ← readField Json.getStr [] (ms.lookup "HotwordId")
    let hotwordList ← readField Json.getStr [] (ms.lookup "HotwordList")
    let customizationId ← readField Json.getStr [] (ms.lookup "CustomizationId")
    let inputSampleRate ← readField readInt 0 (ms.lookup "InputSampleRate")
    let language ← readField Json.getStr [] (ms.lookup "Language")
    return { engServiceType, sourceType, voiceFormat, url, data, dataLen, wordInfo, filterDirty
             filterModal, filterPunc, convertNumMode, hotwordId, hotwordList, customizationId
             inputSampleRate, language }
  | _ => none

/-- The numbers are values of their C++ types. -/
structure Valid (req : SentenceRecognitionRequest) : Prop where
  sourceType : InInt req.sourceType
  dataLen : InInt64 req.dataLen
  wordInfo : InInt req.wordInfo
  filterDirty : InInt req.filterDirty
  filterModal : InInt req.filterModal
  filterPunc : InInt req.filterPunc
  convertNumMode : InInt req.convertNumMode
  inputSampleRate : InInt req.inputSampleRate

theorem fits_toWire {req : SentenceRecognitionRequest} (h : req.Valid) : req.toWire.fits := by
  have hint : ∀ {n}, InInt n → Json.fits (.int n) := fits_of_inInt
  rw [toWire, Json.fits_obj]
  repeat' first
    | with_reducible refine Members.values_putIf ?_ ?_
    | with_reducible refine Members.values_put ?_ ?_
  all_goals first
    | exact Members.values_empty
    | rfl
    | exact fits_of_inInt64 h.dataLen
    | exact hint h.sourceType
    | exact hint h.wordInfo
    | exact hint h.filterDirty
    | exact hint h.filterModal
    | exact hint h.filterPunc
    | exact hint h.convertNumMode
    | exact hint h.inputSampleRate

/-- What is parsed is read as what was encoded. -/
theorem ofWire_reread_toWire (req : SentenceRecognitionRequest) :
    ofWire req.toWire.reread = some req := by
  rw [toWire, Json.reread, ofWire]
  simp only [lookup_reread, readField_reread readsAlike_str, readField_reread readsAlike_int,
    Members.lookup_putIf_self, Members.lookup_putIf_of_ne, Members.lookup_put_self,
    Members.lookup_put_of_ne, Members.lookup_empty, readField_str, readField_int, readField_some,
    getStr_str, readInt_int, ne_eq, String.reduceEq, not_false_eq_true]
  rfl

theorem read_serialize {deps : Deps} {req : SentenceRecognitionRequest} (hv : req.Valid)
    (hutf8 : AllUtf8 req.texts) (hdeps : deps.Rereads req.toWire) :
    ∃ text j, req.serialize deps = .ok text ∧ deps.parse text = .ok j ∧ ofWire j = some req := by
  obtain ⟨text, hdump, hparse⟩ := hdeps (req.isUtf8_toWire.2 hutf8) (fits_toWire hv)
  exact ⟨text, _, hdump, hparse, req.ofWire_reread_toWire⟩

end SentenceRecognitionRequest

/-! ## File recognition -/

/-- An element `{RoleName, AudioUrl}` of `SpeakerRoles`. -/
def speakerRoleOfWire : Json → Option SpeakerRole
  | .obj ms => do
    let roleName ← readField Json.getStr [] (ms.lookup "RoleName")
    let audioUrl ← readField Json.getStr [] (ms.lookup "AudioUrl")
    return { roleName, audioUrl }
  | _ => none

theorem speakerRoleOfWire_toWire (role : SpeakerRole) :
    speakerRoleOfWire (speakerRoleToWire role) = some role := rfl

/-- The roles as they are written. -/
def rolesToWire (roles : List SpeakerRole) : Json := .arr (roles.map speakerRoleToWire)

theorem fits_rolesToWire (roles : List SpeakerRole) : (rolesToWire roles).fits := by
  rw [rolesToWire, Json.fits_arr, List.forall_mem_map]
  intro role _
  rfl

/-- Nothing changes in the roles, which hold strings only. -/
theorem reread_rolesToWire (roles : List SpeakerRole) :
    (rolesToWire roles).reread = rolesToWire roles := by
  rw [rolesToWire, Json.reread_arr, List.map_map]
  rfl

namespace CreateRecTaskRequest

/-- The body read by the documented field names. -/
def ofWire : Json → Option CreateRecTaskRequest
  | .obj ms => do
    let engineModelType ← readField Json.getStr [] (ms.lookup "EngineModelType")
    let channelNum ← readField readInt 0 (ms.lookup "ChannelNum")
    let resTextFormat ← readField readInt 0 (ms.lookup "ResTextFormat")
    let sourceType ← readField readInt 0 (ms.lookup "SourceType")
    let url ← readField Json.getStr [] (ms.lookup "Url")
    let data ← readField Json.getStr [] (ms.lookup "Data")
    let dataLen ← readField readInt 0 (ms.lookup "DataLen")
    let callbackUrl ← readField Json.getStr [] (ms.lookup "CallbackUrl")
    let filterDirty ← readField readInt 0 (ms.lookup "FilterDirty")
    let filterModal ← readField readInt 0 (ms.lookup "FilterModal")
    let filterPunc ← readField readInt 0 (ms.lookup "FilterPunc")
    let convertNumMode ← readField readInt 0 (ms.lookup "ConvertNumMode")
    let hotwordId ← readField Json.getStr [] (ms.lookup "HotwordId")
    let hotwordList ← readField Json.getStr [] (ms.lookup "HotwordList")
    let customizationId ← readField Json.getStr [] (ms.lookup "CustomizationId")
    let replaceTextId ← readField Json.getStr [] (ms.lookup "ReplaceTextId")
    let language ← readField Json.getStr [] (ms.lookup "Language")
    let speakerDiarization ← readField readInt 0 (ms.lookup "SpeakerDiarization")
    let speakerNumber ← readField readInt 0 (ms.lookup "SpeakerNumber")
    let speakerRoles ← readField (readList speakerRoleOfWire) [] (ms.lookup "SpeakerRoles")
    let voiceprintIds ← readField (readList Json.getStr) [] (ms.lookup "VoiceprintIds")
    let vadSilenceMs ← readField readInt 0 (ms.lookup "VadSilenceMs")
    let vadLevel ← readOption readInt (ms.lookup "VadLevel")
    let noiseThreshold ← readOption readFloat (ms.lookup "NoiseThreshold")
    return { engineModelType, channelNum, resTextFormat, sourceType, url, data, dataLen, callbackUrl
             filterDirty, filterModal, filterPunc, convertNumMode, hotwordId, hotwordList
             customizationId, replaceTextId, language, speakerDiarization, speakerNumber
             speakerRoles, voiceprintIds, vadSilenceMs, vadLevel, noiseThreshold }
  | _ => none

/-- The numbers are values of their C++ types. -/
structure Valid (req : CreateRecTaskRequest) : Prop where
  channelNum : InInt req.channelNum
  resTextFormat : InInt req.resTextFormat
  sourceType : InInt req.sourceType
  dataLen : InInt64 req.dataLen
  filterDirty : InInt req.filterDirty
  filterModal : InInt req.filterModal
  filterPunc : InInt req.filterPunc
  convertNumMode : InInt req.convertNumMode
  speakerDiarization : InInt req.speakerDiarization
  speakerNumber : InInt req.speakerNumber
  vadSilenceMs : InInt req.vadSilenceMs
  vadLevel : ∀ n ∈ req.vadLevel, InInt n

/-- The body that is sent, when the detour of the roles changes nothing. -/
def body (req : CreateRecTaskRequest) : Json :=
  req.toWire (if req.speakerRoles ≠ [] then some (rolesToWire req.speakerRoles) else none)

theorem fits_body {req : CreateRecTaskRequest} (h : req.Valid) : req.body.fits := by
  have hint : ∀ {n}, InInt n → Json.fits (.int n) := fits_of_inInt
  have hroles : ∀ j ∈ if req.speakerRoles ≠ [] then some (rolesToWire req.speakerRoles) else none,
      (id j).fits := by
    split
    · rintro _ ⟨⟩
      exact fits_rolesToWire req.speakerRoles
    · simp
  have hids : (strings req.voiceprintIds).fits := by
    rw [strings, Json.fits_arr, List.forall_mem_map]
    intro id _
    rfl
  rw [body, toWire, Json.fits_obj]
  repeat' first
    | with_reducible refine Members.values_putIf ?_ ?_
    | with_reducible refine Members.values_putSome ?_ ?_
    | with_reducible refine Members.values_put ?_ ?_
  all_goals first
    | exact Members.values_empty
    | rfl
    | exact hroles
    | exact hids
    | exact fits_of_inInt64 h.dataLen
    | exact hint h.channelNum
    | exact hint h.resTextFormat
    | exact hint h.sourceType
    | exact hint h.filterDirty
    | exact hint h.filterModal
    | exact hint h.filterPunc
    | exact hint h.convertNumMode
    | exact hint h.speakerDiarization
    | exact hint h.speakerNumber
    | exact hint h.vadSilenceMs
    | exact fun n hn => hint (h.vadLevel n hn)
    | exact fun x _ => rfl

theorem isUtf8_rolesToWire (roles : List SpeakerRole) :
    (rolesToWire roles).isUtf8 ↔ AllUtf8 (roles.flatMap SpeakerRole.texts) := by
  simp only [rolesToWire, Json.isUtf8_arr, List.forall_mem_map, isUtf8_speakerRoleToWire,
    allUtf8_flatMap]

/-- **The detour of the roles** through their text changes nothing. -/
theorem rolesValue_eq {deps : Deps} {roles : List SpeakerRole}
    (hutf8 : AllUtf8 (roles.flatMap SpeakerRole.texts)) (hdeps : deps.Rereads (rolesToWire roles)) :
    rolesValue deps roles = .ok (if roles ≠ [] then some (rolesToWire roles) else none) := by
  unfold rolesValue
  by_cases hroles : roles = []
  · rw [if_neg (not_not.2 hroles), if_neg (not_not.2 hroles)]
    rfl
  · rw [if_pos hroles, if_pos hroles]
    obtain ⟨text, hdump, hparse⟩ := hdeps ((isUtf8_rolesToWire _).2 hutf8) (fits_rolesToWire roles)
    rw [reread_rolesToWire] at hparse
    exact bind_eq_ok.2 ⟨text, hdump, bind_eq_ok.2 ⟨_, mapError_eq_ok.2 hparse, rfl⟩⟩

/-- What is parsed is read as what was encoded, or as nothing if the threshold is not finite. -/
theorem ofWire_reread_body (req : CreateRecTaskRequest) :
    ofWire req.body.reread =
      if ∀ x ∈ req.noiseThreshold, x.isFinite then some req else none := by
  have hroles : readField (readList speakerRoleOfWire) [] (((((if req.speakerRoles ≠ [] then
      some (rolesToWire req.speakerRoles) else none).map id).or none)).map Json.reread) =
        some req.speakerRoles := by
    by_cases h : req.speakerRoles = []
    · rw [if_neg (not_not.2 h), h]
      rfl
    · rw [if_pos h]
      show readList speakerRoleOfWire (rolesToWire req.speakerRoles).reread = _
      rw [reread_rolesToWire]
      exact V3.readList_map speakerRoleOfWire_toWire req.speakerRoles
  rw [body, toWire, Json.reread, ofWire]
  simp only [lookup_reread, readField_reread readsAlike_str, readField_reread readsAlike_int,
    readField_reread (readsAlike_list readsAlike_str), readOption_reread readsAlike_int,
    Members.lookup_putIf_self, Members.lookup_putIf_of_ne, Members.lookup_putSome_self,
    Members.lookup_putSome_of_ne, Members.lookup_put_self, Members.lookup_put_of_ne,
    Members.lookup_empty, readField_str, readField_int, strings, readField_list_ne_nil getStr_str,
    hroles, readField_some, getStr_str, readInt_int, readOption_float_reread,
    readOption_map readInt_int, ne_eq, String.reduceEq, not_false_eq_true]
  split
  · rfl
  · rfl

/-- **The body of `CreateTask` is read back** exactly when the threshold is finite, if it is set. -/
theorem read_serialize_iff {deps : Deps} {req : CreateRecTaskRequest} (hv : req.Valid)
    (hutf8 : AllUtf8 (req.texts ++ req.speakerRoles.flatMap SpeakerRole.texts))
    (hroles : deps.Rereads (rolesToWire req.speakerRoles)) (hbody : deps.Rereads req.body) :
    ∃ text j, req.serialize deps = .ok text ∧ deps.parse text = .ok j ∧
      (ofWire j = some req ↔ ∀ x ∈ req.noiseThreshold, x.isFinite) := by
  rw [allUtf8_append] at hutf8
  have hisUtf8 : req.body.isUtf8 := by
    refine (req.isUtf8_toWire _).2 ⟨hutf8.1, ?_⟩
    split
    · rintro _ ⟨⟩
      exact (isUtf8_rolesToWire _).2 hutf8.2
    · simp
  obtain ⟨text, hdump, hparse⟩ := hbody hisUtf8 (fits_body hv)
  refine ⟨text, _, bind_eq_ok.2 ⟨_, rolesValue_eq hutf8.2 hroles, hdump⟩, hparse, ?_⟩
  rw [ofWire_reread_body]
  split
  · rename_i hfinite
    exact iff_of_true rfl hfinite
  · rename_i hinfinite
    exact iff_of_false (by simp) hinfinite

/-- `CreateTask` accepts no threshold that would be lost. -/
theorem isFinite_of_validate {req : CreateRecTaskRequest} (h : req.validate = .ok ()) :
    ∀ x ∈ req.noiseThreshold, x.isFinite := by
  intro x hx
  unfold validate validateVadTuning at h
  obtain ⟨-, -, h⟩ := bind_eq_ok.1 h
  obtain ⟨-, -, h⟩ := bind_eq_ok.1 h
  obtain ⟨-, -, h⟩ := bind_eq_ok.1 h
  obtain ⟨-, -, h⟩ := bind_eq_ok.1 h
  obtain ⟨-, -, h⟩ := bind_eq_ok.1 h
  obtain ⟨-, -, h⟩ := bind_eq_ok.1 h
  rw [Option.mem_def.1 hx, validateNoiseThreshold, rejectIf_eq_ok, not_not] at h
  unfold Binary64.within at h
  rw [Bool.and_eq_true, Bool.and_eq_true] at h
  exact h.1.1

end CreateRecTaskRequest

end V2

/-! ## Transcription of one recording -/

namespace V3.TranscribeRequest

/-- The `params` block read by the documented field names. -/
def ofWire : Json → Option TranscribeRequest
  | .obj ms => do
    let engineModelType ← readField Json.getStr [] (ms.lookup "engine_model_type")
    let sourceType ← readField readInt kSourceTypeData (ms.lookup "source_type")
    let voiceFormat ← readField Json.getStr (ascii "pcm") (ms.lookup "voice_format")
    let url ← readField Json.getStr [] (ms.lookup "url")
    let data ← readField Json.getStr [] (ms.lookup "data")
    let dataLen ← readField readInt 0 (ms.lookup "data_len")
    let wordInfo ← readField readInt 0 (ms.lookup "word_info")
    let filterDirty ← readField readInt 0 (ms.lookup "filter_dirty")
    let filterModal ← readField readInt 0 (ms.lookup "filter_modal")
    let filterPunc ← readField readInt 0 (ms.lookup "filter_punc")
    let convertNumMode ← readField readInt 0 (ms.lookup "convert_num_mode")
    let hotwordId ← readField Json.getStr [] (ms.lookup "hotword_id")
    let customizationId ← readField Json.getStr [] (ms.lookup "customization_id")
    let hotwordList ← readField Json.getStr [] (ms.lookup "hotword_list")
    let inputSampleRate ← readField readInt 0 (ms.lookup "input_sample_rate")
    let needvad ← readOption readInt (ms.lookup "needvad")
    let vadSilenceTime ← readOption readInt (ms.lookup "vad_silence_time")
    let language ← readField Json.getStr [] (ms.lookup "language")
    let speakerDiarization ← readField readInt 0 (ms.lookup "speaker_diarization")
    let speakerNumber ← readField readInt 0 (ms.lookup "speaker_number")
    return { engineModelType, sourceType, voiceFormat, url, data, dataLen, wordInfo, filterDirty
             filterModal, filterPunc, convertNumMode, hotwordId, customizationId, hotwordList
             inputSampleRate, needvad, vadSilenceTime, language, speakerDiarization, speakerNumber }
  | _ => none

/-- The fields of a request that its `source_type` and `speaker_diarization` leave applicable. -/
def effective (req : TranscribeRequest) : TranscribeRequest :=
  { req with
    url := if req.sourceType = kSourceTypeUrl then req.url else []
    data := if req.sourceType = kSourceTypeData then req.data else []
    dataLen := if req.sourceType = kSourceTypeData then req.dataLen else 0
    speakerNumber := if req.speakerDiarization ≠ 0 then req.speakerNumber else 0 }

theorem ofWire_toWire (req : TranscribeRequest)
    (h : req.sourceType = kSourceTypeUrl ∨ req.sourceType = kSourceTypeData) :
    ofWire (transcribeRequestToWire req) = some req.effective := by
  have hne : kSourceTypeUrl ≠ kSourceTypeData := by decide
  rw [transcribeRequestToWire]
  rcases h with hs | hs
  · have hs' : req.sourceType ≠ kSourceTypeData := fun hd => hne (hs.symm.trans hd)
    simp only [if_pos hs, ofWire, Members.lookup_putIf_self, Members.lookup_putIf_of_ne,
      Members.lookup_putSome_self, Members.lookup_putSome_of_ne, Members.lookup_put_self,
      Members.lookup_put_of_ne, Members.lookup_empty, readField_str, readField_int,
      readField_int_if, readField_some, readField_none, getStr_str, readInt_int,
      readOption_map readInt_int, ne_eq, String.reduceEq, not_false_eq_true]
    simp only [effective, if_pos hs, if_neg hs']
    rfl
  · have hs' : req.sourceType ≠ kSourceTypeUrl := fun hu => hne (hu.symm.trans hs)
    simp only [if_neg hs', ofWire, Members.lookup_putIf_self, Members.lookup_putIf_of_ne,
      Members.lookup_putSome_self, Members.lookup_putSome_of_ne, Members.lookup_put_self,
      Members.lookup_put_of_ne, Members.lookup_empty, readField_str, readField_int,
      readField_int_if, readField_some, readField_none, getStr_str, readInt_int,
      readOption_map readInt_int, ne_eq, String.reduceEq, not_false_eq_true]
    simp only [effective, if_neg hs', if_pos hs]
    rfl

end V3.TranscribeRequest

namespace V2

/-! ## The round trips -/

/-- **What the encoders write is read back**, for every request whose strings are UTF-8 and whose
    numbers are of their types, and for every library that parses what it has written: a request
    for a sentence always, one for a file exactly when its threshold, if it is set, is finite, and a
    transcription of one source up to what is inapplicable. -/
theorem requests_read_back (deps : Deps) :
    (∀ req : SentenceRecognitionRequest, req.Valid → AllUtf8 req.texts → deps.Rereads req.toWire →
      ∃ text j, req.serialize deps = .ok text ∧ deps.parse text = .ok j ∧
        SentenceRecognitionRequest.ofWire j = some req) ∧
    (∀ req : CreateRecTaskRequest, req.Valid →
      AllUtf8 (req.texts ++ req.speakerRoles.flatMap SpeakerRole.texts) →
      deps.Rereads (rolesToWire req.speakerRoles) → deps.Rereads req.body →
      ∃ text j, req.serialize deps = .ok text ∧ deps.parse text = .ok j ∧
        (CreateRecTaskRequest.ofWire j = some req ↔ ∀ x ∈ req.noiseThreshold, x.isFinite)) ∧
    ∀ req : V3.TranscribeRequest,
      req.sourceType = V3.kSourceTypeUrl ∨ req.sourceType = V3.kSourceTypeData →
        V3.TranscribeRequest.ofWire (V3.transcribeRequestToWire req) = some req.effective :=
  ⟨fun _ hv hutf8 hdeps => SentenceRecognitionRequest.read_serialize hv hutf8 hdeps,
    fun _ hv hutf8 hroles hbody => CreateRecTaskRequest.read_serialize_iff hv hutf8 hroles hbody,
    fun req h => req.ofWire_toWire h⟩

/-- A task with a voice, an enrolled one, and two options that are zero. -/
def sampleVoiceTask : CreateRecTaskRequest :=
  { sampleTask with
    voiceprintIds := [ascii "vp"]
    vadLevel := some 0
    noiseThreshold := some .zero }

def sampleVoiceTaskText : Bytes :=
  ascii ("\x7b\"ChannelNum\":1,\"EngineModelType\":\"16k_zh\",\"NoiseThreshold\":0.0," ++
    "\"ResTextFormat\":0,\"SourceType\":0,\"SpeakerDiarization\":3,\"SpeakerRoles\":" ++
    "[\x7b\"AudioUrl\":\"https://a/b.wav\",\"RoleName\":\"host\"\x7d]," ++
    "\"Url\":\"https://a/c.wav\",\"VadLevel\":0,\"VoiceprintIds\":[\"vp\"]\x7d")

/-- The library on the two texts of a request: the array of its roles, and its body. -/
def sampleTaskDeps (req : CreateRecTaskRequest) (text : Bytes) : Deps :=
  { sampleDeps [(sampleRolesText, rolesToWire req.speakerRoles), (text, req.body.reread)] with
    dump := fun j => match j with
      | .arr _ => .ok sampleRolesText
      | _ => .ok text }

theorem parse_sampleTaskDeps (req : CreateRecTaskRequest) {text : Bytes}
    (h : text ≠ sampleRolesText) : (sampleTaskDeps req text).parse text = .ok req.body.reread := by
  simp only [sampleTaskDeps, sampleDeps, List.lookup_cons, beq_eq_false_iff_ne.2 h,
    beq_self_eq_true]

theorem requests_read_back_sample :
    ∃ text j, sampleVoiceTask.serialize (sampleTaskDeps sampleVoiceTask sampleVoiceTaskText) =
        .ok text ∧
      (sampleTaskDeps sampleVoiceTask sampleVoiceTaskText).parse text = .ok j ∧
      CreateRecTaskRequest.ofWire j = some sampleVoiceTask := by
  obtain ⟨text, j, hserialize, hparse, hread⟩ :=
    (requests_read_back (sampleTaskDeps sampleVoiceTask sampleVoiceTaskText)).2.1 sampleVoiceTask
      ⟨by decide, by decide, by decide, by decide, by decide, by decide, by decide, by decide,
        by decide, by decide, by decide, by rintro _ ⟨⟩; decide⟩
      (by decide +kernel) (fun _ _ => ⟨sampleRolesText, rfl, rfl⟩)
      (fun _ _ => ⟨sampleVoiceTaskText, rfl, parse_sampleTaskDeps _ (by decide)⟩)
  exact ⟨text, j, hserialize, hparse, hread.2 (by rintro _ ⟨⟩; decide)⟩

/-- A threshold that is infinite. -/
def sampleInfiniteTask : CreateRecTaskRequest :=
  { sampleTask with
    noiseThreshold := some ⟨0x7FF0000000000000⟩ }

def sampleInfiniteTaskText : Bytes :=
  ascii ("\x7b\"ChannelNum\":1,\"EngineModelType\":\"16k_zh\",\"NoiseThreshold\":null," ++
    "\"ResTextFormat\":0,\"SourceType\":0,\"SpeakerDiarization\":3,\"SpeakerRoles\":" ++
    "[\x7b\"AudioUrl\":\"https://a/b.wav\",\"RoleName\":\"host\"\x7d]," ++
    "\"Url\":\"https://a/c.wav\"\x7d")

/-- **The infinite threshold is lost**: it is written as `null`. -/
theorem infinite_threshold_lost :
    AllUtf8 (sampleInfiniteTask.texts ++
        sampleInfiniteTask.speakerRoles.flatMap SpeakerRole.texts) ∧
      sampleInfiniteTask.serialize (sampleTaskDeps sampleInfiniteTask sampleInfiniteTaskText) =
        .ok sampleInfiniteTaskText ∧
      (sampleTaskDeps sampleInfiniteTask sampleInfiniteTaskText).parse sampleInfiniteTaskText =
        .ok sampleInfiniteTask.body.reread ∧
      CreateRecTaskRequest.ofWire sampleInfiniteTask.body.reread = none ∧
      sampleInfiniteTask.validate ≠ .ok () :=
  ⟨by decide +kernel, rfl, rfl, rfl, by decide⟩

end V2

end TrtcAsr
