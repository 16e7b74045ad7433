/-
  The documented wire format of `/v3/create_transcription`, and what of a request
  survives it.

  * `CreateTranscriptionRequest.ofWire` reads the `params` block by the field names of
    the documentation; an absent field stands for zero or empty.
  * `CreateTranscriptionRequest.effective` leaves out what `source_type` and
    `speaker_diarization` make inapplicable.
  * `ofWire_toWire_iff`: reading an encoded request gives the effective request back
    exactly when it has no `audio_urls`.
-/
import TrtcAsr.V3.Requests

namespace TrtcAsr.V3

/-! ## Reading -/

/-- A field that may be absent. -/
def readField {α : Type*} (get : Json → Option α) (d : α) : Option Json → Option α
  | none => some d
  | some v => get v

/-- A field whose absence is a value of its own. -/
def readOption {α : Type*} (get : Json → Option α) : Option Json → Option (Option α)
  | none => some none
  | some v => (get v).map some

def readInt : Json → Option ℤ
  | .int n => some n
  | .uint n => some n
  | _ => none

def readFloat : Json → Option Binary64
  | .float x => some x
  | _ => none

def readList {α : Type*} (get : Json → Option α) : Json → Option (List α)
  | .arr items => items.mapM get
  | _ => none

/-- An item `{index, url, label?}`. -/
def AudioURLItem.ofWire : Json → Option AudioURLItem
  | .obj ms => do
    let index ← (ms.lookup "index").bind readInt
    let url ← (ms.lookup "url").bind Json.getStr
    let label ← readField Json.getStr [] (ms.lookup "label")
    return { index := index, url := url, label := label }
  | _ => none

/-- An item `{role_name, audio_url}`. -/
def SpeakerRole.ofWire : Json → Option SpeakerRole
  | .obj ms => do
    let roleName ← (ms.lookup "role_name").bind Json.getStr
    let audioUrl ← (ms.lookup "audio_url").bind Json.getStr
    return { roleName := roleName, audioUrl := audioUrl }
  | _ => none

/-- The `params` block read by the documented field names. -/
def CreateTranscriptionRequest.ofWire : Json → Option CreateTranscriptionRequest
  | .obj ms => do
    let engineModelType ← (ms.lookup "engine_model_type").bind Json.getStr
    let channelNum ← (ms.lookup "channel_num").bind readInt
    let resTextFormat ← (ms.lookup "res_text_format").bind readInt
    let sourceType ← (ms.lookup "source_type").bind readInt
    let url ← readField Json.getStr [] (ms.lookup "url")
    let data ← readField Json.getStr [] (ms.lookup "data")
    let dataLen ← readField readInt 0 (ms.lookup "data_len")
    let audioUrls ← readField (readList AudioURLItem.ofWire) [] (ms.lookup "audio_urls")
    let callbackUrl ← readField Json.getStr [] (ms.lookup "callback_url")
    let speakerDiarization ← readField readInt 0 (ms.lookup "speaker_diarization")
    let speakerNumber ← readField readInt 0 (ms.lookup "speaker_number")
    let voiceprintIds ← readField (readList Json.getStr) [] (ms.lookup "voiceprint_ids")
    let speakerRoles ← readField (readList SpeakerRole.ofWire) [] (ms.lookup "speaker_roles")
    let hotwordId ← readField Json.getStr [] (ms.lookup "hotword_id")
    let customizationId ← readField Json.getStr [] (ms.lookup "customization_id")
    let hotwordList ← readField Json.getStr [] (ms.lookup "hotword_list")
    let keywordLibIdList ← readField (readList Json.getStr) [] (ms.lookup "keyword_lib_id_list")
    let replaceTextId ← readField Json.getStr [] (ms.lookup "replace_text_id")
    let convertNumMode ← readField readInt 0 (ms.lookup "convert_num_mode")
    let filterDirty ← readField readInt 0 (ms.lookup "filter_dirty")
    let filterPunc ← readField readInt 0 (ms.lookup "filter_punc")
    let filterModal ← readField readInt 0 (ms.lookup "filter_modal")
    let sentenceMaxLength ← readField readInt 0 (ms.lookup "sentence_max_length")
    let extra ← readField Json.getStr [] (ms.lookup "extra")
    let vadSilenceMs ← readField readInt 0 (ms.lookup "vad_silence_ms")
    let vadLevel ← readOption readInt (ms.lookup "vad_level")
    let noiseThreshold ← readOption readFloat (ms.lookup "noise_threshold")
    let language ← readField Json.getStr [] (ms.lookup "language")
    return { engineModelType, channelNum, resTextFormat, sourceType, url, data, dataLen, audioUrls
             callbackUrl, speakerDiarization, speakerNumber, voiceprintIds, speakerRoles, hotwordId
             customizationId, hotwordList, keywordLibIdList, replaceTextId, convertNumMode
             filterDirty, filterPunc, filterModal, sentenceMaxLength, extra, vadSilenceMs, vadLevel
             noiseThreshold, language }
  | _ => none

/-- The fields of a request that its `source_type` and `speaker_diarization` leave applicable. -/
def CreateTranscriptionRequest.effective (req : CreateTranscriptionRequest) :
    CreateTranscriptionRequest :=
  { req with
    url := if req.sourceType = kSourceTypeUrl then req.url else []
    data := if req.sourceType = kSourceTypeData then req.data else []
    dataLen := if req.sourceType = kSourceTypeData then req.dataLen else 0
    speakerNumber := if req.speakerDiarization ≠ 0 then req.speakerNumber else 0
    voiceprintIds :=
      if req.speakerDiarization = kSpeakerDiarizationVoiceprint then req.voiceprintIds else []
    speakerRoles :=
      if req.speakerDiarization = kSpeakerDiarizationVoiceprint then req.speakerRoles else [] }

/-! ## Fields read back -/

section

variable {α : Type*} {get : Json → Option α} {v : α → Json}

@[simp] theorem readField_none (d : α) : readField get d none = some d := rfl

@[simp] theorem readField_some (d : α) (j : Json) : readField get d (some j) = get j := rfl

@[simp] theorem readInt_int (n : ℤ) : readInt (.int n) = some n := rfl

@[simp] theorem readFloat_float (x : Binary64) : readFloat (.float x) = some x := rfl

@[simp] theorem getStr_str (s : Bytes) : (Json.str s).getStr = some s := rfl

theorem readField_int (n : ℤ) :
    readField readInt 0 (if decide (n ≠ 0) then some (.int n) else none) = some n := by
  by_cases h : n = 0
  · simp [h]
  · simp [h]

/-- An integer that is sent when a condition holds and it is not zero. -/
theorem readField_int_if (p : Prop) [Decidable p] (n : ℤ) :
    readField readInt 0 (if decide (p ∧ n ≠ 0) then some (.int n) else none) =
      some (if p then n else 0) := by
  by_cases hp : p
  · by_cases hn : n = 0
    · simp [hn]
    · simp [hp, hn]
  · simp [hp]

theorem readField_str (s : Bytes) :
    readField Json.getStr [] (if decide (s ≠ []) then some (.str s) else none) = some s := by
  by_cases h : s = []
  · simp [h]
  · simp [h]

theorem readOption_map (h : ∀ a, get (v a) = some a) (o : Option α) :
    readOption get ((o.map v).or none) = some o := by
  cases o with
  | none => rfl
  | some a => simp [readOption, h]

theorem readList_map (h : ∀ a, get (v a) = some a) (l : List α) :
    readList get (.arr (l.map v)) = some l := by
  show (l.map v).mapM get = some l
  induction l with
  | nil => rfl
  | cons a l ih => rw [List.map_cons, List.mapM_cons, h, ih]; rfl

/-- A list that is sent when a condition holds and it is not empty. -/
theorem readField_list (h : ∀ a, get (v a) = some a) (p : Prop) [Decidable p] (l : List α) :
    readField (readList get) [] (if decide (p ∧ l ≠ []) then some (.arr (l.map v)) else none) =
      some (if p then l else []) := by
  by_cases hp : p
  · by_cases hl : l = []
    · simp [hl]
    · simp [hp, hl, readList_map h]
  · simp [hp]

/-- A list that is sent when it is not empty. -/
theorem readField_list_ne_nil (h : ∀ a, get (v a) = some a) (l : List α) :
    readField (readList get) [] (if decide (l ≠ []) then some (.arr (l.map v)) else none) =
      some l := by
  have hlist := readField_list h True l
  simpa using hlist

end

theorem SpeakerRole.ofWire_toWire (role : SpeakerRole) : ofWire role.toWire = some role := by
  simp [toWire, ofWire]

/-- An encoded item has no field `url`. -/
theorem AudioURLItem.ofWire_toWire (item : AudioURLItem) : ofWire item.toWire = none := by
  have hurl : List.lookup "url" (Members.empty
      |>.put "index" (.int item.index)
      |>.put "req.url" (.str item.url)
      |>.putIf (item.label ≠ []) "label" (.str item.label)) = none := by simp
  simp only [toWire, ofWire, hurl]
  cases (List.lookup "index" _).bind readInt with
  | none => rfl
  | some n => rfl

/-! ## The source of a request -/

variable {req : CreateTranscriptionRequest} {d : Members}

@[simp] theorem lookup_putSource_of_ne {k : String}
    (h : k ≠ "url" ∧ k ≠ "data" ∧ k ≠ "data_len") :
    (req.putSource d).lookup k = d.lookup k := by
  obtain ⟨hurl, hdata, hlen⟩ := h
  unfold CreateTranscriptionRequest.putSource
  split
  · exact Members.lookup_put_of_ne hurl _ _
  split
  · rw [Members.lookup_put_of_ne hlen, Members.lookup_put_of_ne hdata]
  · rfl

/-- A request that passes the check of its source is read back with that source. -/
theorem readField_putSource (hd : ∀ k ∈ ["url", "data", "data_len"], d.lookup k = none)
    (h : req.sourceType = kSourceTypeData → req.data ≠ []) :
    readField Json.getStr [] ((req.putSource d).lookup "url") = some req.effective.url ∧
      readField Json.getStr [] ((req.putSource d).lookup "data") = some req.effective.data ∧
      readField readInt 0 ((req.putSource d).lookup "data_len") = some req.effective.dataLen := by
  have hurl := hd "url" (by simp)
  have hdata := hd "data" (by simp)
  have hlen := hd "data_len" (by simp)
  simp only [CreateTranscriptionRequest.putSource, CreateTranscriptionRequest.effective]
  by_cases hs : req.sourceType = kSourceTypeUrl
  · have hs' : ¬ req.sourceType = kSourceTypeData := by rw [hs]; decide
    rw [if_pos hs, if_neg hs', if_neg hs']
    by_cases hu : req.url = []
    · rw [if_neg (fun h => h.2 hu), if_neg (fun h => hs' h.1), hurl, hdata, hlen, hu]
      exact ⟨rfl, rfl, rfl⟩
    · rw [if_pos ⟨hs, hu⟩]
      simp [hdata, hlen]
  · rw [if_neg hs, if_neg (fun h => hs h.1)]
    by_cases hs' : req.sourceType = kSourceTypeData
    · rw [if_pos hs', if_pos hs', if_pos ⟨hs', h hs'⟩]
      simp [hurl]
    · rw [if_neg hs', if_neg hs', if_neg (fun h => hs' h.1), hurl, hdata, hlen]
      exact ⟨rfl, rfl, rfl⟩

theorem validateSource_of_validate (h : req.validate = .ok ()) : req.validateSource = .ok () := by
  unfold CreateTranscriptionRequest.validate at h
  obtain ⟨-, -, h⟩ := bind_eq_ok.1 h
  obtain ⟨-, -, h⟩ := bind_eq_ok.1 h
  obtain ⟨-, -, h⟩ := bind_eq_ok.1 h
  obtain ⟨-, -, h⟩ := bind_eq_ok.1 h
  obtain ⟨_, h, -⟩ := bind_eq_ok.1 h
  exact h

/-- Pieces stand alone; without them the source that is selected is there. -/
theorem source_of_validateSource (h : req.validateSource = .ok ()) :
    (req.audioUrls ≠ [] → req.sourceType = kSourceTypeUrl ∧ req.url = [] ∧ req.data = []) ∧
      (req.audioUrls = [] → (req.sourceType = kSourceTypeUrl → req.url ≠ []) ∧
        (req.sourceType = kSourceTypeData → req.data ≠ [])) := by
  unfold CreateTranscriptionRequest.validateSource validateAudioURLs at h
  constructor
  · intro hitems
    rw [if_pos hitems] at h
    split at h
    · cases h
    · rename_i hnone
      push Not at hnone
      exact hnone
  · intro hitems
    rw [if_neg (not_not.2 hitems)] at h
    obtain ⟨_, hurl, hdata⟩ := bind_eq_ok.1 h
    rw [rejectIf_eq_ok, not_and] at hurl hdata
    exact ⟨hurl, hdata⟩

/-- A validated request for local data has data. -/
theorem data_ne_nil_of_validate (h : req.validate = .ok ())
    (hs : req.sourceType = kSourceTypeData) : req.data ≠ [] := by
  obtain ⟨hpieces, hsingle⟩ := source_of_validateSource (validateSource_of_validate h)
  by_cases hitems : req.audioUrls = []
  · exact (hsingle hitems).2 hs
  · have hurl := (hpieces hitems).1
    rw [hs] at hurl
    exact absurd hurl (by decide)

/-! ## The round trip -/

theorem readField_items (items : List AudioURLItem) :
    readField (readList AudioURLItem.ofWire) []
      (if decide (items ≠ []) then some (.arr (items.map AudioURLItem.toWire)) else none) =
        if items = [] then some [] else none := by
  cases items with
  | nil => rfl
  | cons item items =>
    simp only [ne_eq, reduceCtorEq, not_false_eq_true, decide_true, if_true, readField, readList,
      List.map_cons, List.mapM_cons, AudioURLItem.ofWire_toWire, if_false]
    rfl

/-- **Wire fidelity.**  For every request that passes `Validate`, reading the encoded `params`
    block by the documented field names gives back the effective request if and only if the
    request has no `audio_urls`. -/
theorem CreateTranscriptionRequest.ofWire_toWire_iff (req : CreateTranscriptionRequest)
    (h : req.validate = .ok ()) :
    ofWire (createTranscriptionRequestToWire req) = some req.effective ↔ req.audioUrls = [] := by
  have hbase : ∀ k ∈ ["url", "data", "data_len"], List.lookup k (Members.empty
      |>.put "engine_model_type" (.str req.engineModelType)
      |>.put "channel_num" (.int req.channelNum)
      |>.put "res_text_format" (.int req.resTextFormat)
      |>.put "source_type" (.int req.sourceType)) = none := by
    intro k hk
    simp only [List.mem_cons, List.not_mem_nil, or_false] at hk
    rcases hk with rfl | rfl | rfl
    all_goals simp
  obtain ⟨hurl, hdata, hlen⟩ := readField_putSource hbase (data_ne_nil_of_validate h)
  simp only [createTranscriptionRequestToWire, ofWire, Members.lookup_putIf_self,
    Members.lookup_putIf_of_ne, Members.lookup_putSome_self, Members.lookup_putSome_of_ne,
    Members.lookup_put_self, Members.lookup_put_of_ne, Members.lookup_empty,
    lookup_putSource_of_ne, hurl, hdata, hlen, readField_items, readField_str, readField_int,
    readField_int_if, strings, readField_list getStr_str, readField_list_ne_nil getStr_str,
    readField_list SpeakerRole.ofWire_toWire, readOption_map readInt_int,
    readOption_map readFloat_float, ne_eq, String.reduceEq, not_false_eq_true, and_self]
  by_cases ha : req.audioUrls = []
  · simp only [ha, if_true, iff_true]
    rw [← ha]
    rfl
  · simp only [ha, if_false, iff_false]
    simp

/-- A recording from a URL with two voiceprint roles. -/
theorem CreateTranscriptionRequest.ofWire_toWire_roles :
    ofWire (createTranscriptionRequestToWire
      { engineModelType := ascii "bigmodel", sourceType := 0, url := ascii "https://a/b.wav"
        speakerDiarization := 3, vadLevel := some 0
        speakerRoles := [⟨ascii "teacher", ascii "https://a/t.wav"⟩,
          ⟨ascii "pupil", ascii "https://a/p.wav"⟩] }) =
      some { engineModelType := ascii "bigmodel", sourceType := 0, url := ascii "https://a/b.wav"
             speakerDiarization := 3, vadLevel := some 0
             speakerRoles := [⟨ascii "teacher", ascii "https://a/t.wav"⟩,
               ⟨ascii "pupil", ascii "https://a/p.wav"⟩] } :=
  (ofWire_toWire_iff _ (by decide)).2 rfl

/-- **A distributed recording loses its URLs**: the items carry them under another name. -/
theorem CreateTranscriptionRequest.audio_urls_lost :
    ∃ req : CreateTranscriptionRequest, req.validate = .ok () ∧
      req.audioUrls = [{ index := 0, url := ascii "https://a/b.wav" }] ∧
      ofWire (createTranscriptionRequestToWire req) ≠ some req.effective := by
  refine ⟨{ engineModelType := ascii "bigmodel", sourceType := 0
            audioUrls := [{ index := 0, url := ascii "https://a/b.wav" }] }, by decide, rfl, ?_⟩
  decide

end TrtcAsr.V3
