/-
  Recordings that are handed over as audio or by their URL (sentence_recognizer.cc,
  file_recognizer.cc, v3.cc: `…Data`, `…DataWithOptions` and `…URL` of the four recognizers).

  * `fromData`, `withOptions`, `fromUrl`: what the functions of a kind have in common;
  * `recordingOf`: the recording that a server takes from a block of parameters, by the source type;
  * `Hands`: a recognizer hands over the recordings that it is given;
  * `uploads_hand_over`: the four recognizers do, whatever stood in the request objects before.
-/
import TrtcAsr.V2.Responses
import TrtcAsr.V2.WireFormat
import TrtcAsr.V3.Offline
import TrtcAsr.V3.Sources

namespace TrtcAsr

open V3 (readInt readInt_int)

/-! ## The functions -/

/-- The checks of the audio. -/
def checkAudio (limit : ℕ) (tooLong audio : Bytes) : Except Exn Unit := do
  (rejectIf (audio = []) (ascii "audio data is empty")).mapError .asr
  (rejectIf (audio.length > limit) tooLong).mapError .asr

section

variable {ρ γ : Type}

/-- `…Data`: a request with the audio is sent. -/
def fromData (limit : ℕ) (tooLong : Bytes) (request : Bytes → ρ) (send : ρ → Except Exn γ)
    (audio : Bytes) : Except Exn γ := do
  checkAudio limit tooLong audio
  send (request audio)

/-- `…DataWithOptions`: the audio is put into the request of the caller, which is sent. -/
def withOptions (limit : ℕ) (tooLong : Bytes) (fill : ρ → Bytes → ρ) (send : ρ → Except Exn γ)
    (audio : Bytes) : Option ρ → Except Exn γ × Option ρ
  | none => (.error (.asr ⟨kErrInvalidParam, ascii "request is null"⟩), none)
  | some req =>
    match checkAudio limit tooLong audio with
    | .error e => (.error e, some req)
    | .ok () => (send (fill req audio), some (fill req audio))

/-- `…URL`: a request with the URL is sent. -/
def fromUrl (request : Bytes → ρ) (send : ρ → Except Exn γ) (url : Bytes) : Except Exn γ := do
  (rejectIf (url = []) (ascii "audio URL is empty")).mapError .asr
  send (request url)

end

namespace V2

/-- `SentenceRecognizer::kMaxAudioSize` and `FileRecognizer::kMaxAudioSize`. -/
def kMaxSentenceAudioSize : ℕ := 3 * 1024 * 1024
def kMaxFileAudioSize : ℕ := 5 * 1024 * 1024

def sentenceDataRequest (voiceFormat engineModelType audio : Bytes) :
    SentenceRecognitionRequest where
  engServiceType := engineModelType
  sourceType := kSourceTypeData
  voiceFormat := voiceFormat
  data := base64Encode audio
  dataLen := audio.length

def sentenceUrlRequest (voiceFormat engineModelType url : Bytes) : SentenceRecognitionRequest where
  engServiceType := engineModelType
  sourceType := kSourceTypeURL
  voiceFormat := voiceFormat
  url := url

def SentenceRecognitionRequest.fill (req : SentenceRecognitionRequest) (audio : Bytes) :
    SentenceRecognitionRequest :=
  { req with
    sourceType := kSourceTypeData
    data := base64Encode audio
    dataLen := audio.length }

def taskDataRequest (engineModelType audio : Bytes) : CreateRecTaskRequest where
  engineModelType := engineModelType
  channelNum := 1
  resTextFormat := 1
  sourceType := 1
  data := base64Encode audio
  dataLen := audio.length

def taskUrlRequest (engineModelType url : Bytes) : CreateRecTaskRequest where
  engineModelType := engineModelType
  channelNum := 1
  resTextFormat := 1
  sourceType := 0
  url := url

def CreateRecTaskRequest.fill (req : CreateRecTaskRequest) (audio : Bytes) : CreateRecTaskRequest :=
  { req with
    sourceType := 1
    data := base64Encode audio
    dataLen := audio.length }

section

variable (deps : Deps) (client : Client) (curl : HttpRequest → CurlOutcome) (env : CallEnv)

/-- `SentenceRecognizer::RecognizeData`. -/
def recognizeData (voiceFormat engineModelType audio : Bytes) :
    Except Exn SentenceRecognitionResult :=
  fromData kMaxSentenceAudioSize (ascii "audio data exceeds 3MB limit")
    (sentenceDataRequest voiceFormat engineModelType) (recognize deps client env curl) audio

/-- `SentenceRecognizer::RecognizeURL`. -/
def recognizeURL (voiceFormat engineModelType url : Bytes) : Except Exn SentenceRecognitionResult :=
  fromUrl (sentenceUrlRequest voiceFormat engineModelType) (recognize deps client env curl) url

/-- `SentenceRecognizer::RecognizeDataWithOptions`. -/
def recognizeDataWithOptions (audio : Bytes) (req : Option SentenceRecognitionRequest) :
    Except Exn SentenceRecognitionResult × Option SentenceRecognitionRequest :=
  withOptions kMaxSentenceAudioSize (ascii "audio data exceeds 3MB limit")
    SentenceRecognitionRequest.fill (recognize deps client env curl) audio req

/-- `FileRecognizer::CreateTaskFromData`; the voice format is not used. -/
def createTaskFromData (_voiceFormat engineModelType audio : Bytes) : Except Exn Bytes :=
  fromData kMaxFileAudioSize (ascii "audio data exceeds 5MB limit")
    (taskDataRequest engineModelType) (createTask deps client env curl) audio

/-- `FileRecognizer::CreateTaskFromURL`. -/
def createTaskFromURL (engineModelType url : Bytes) : Except Exn Bytes :=
  fromUrl (taskUrlRequest engineModelType) (createTask deps client env curl) url

/-- `FileRecognizer::CreateTaskFromDataWithOptions`. -/
def createTaskFromDataWithOptions (audio : Bytes) (req : Option CreateRecTaskRequest) :
    Except Exn Bytes × Option CreateRecTaskRequest :=
  withOptions kMaxFileAudioSize (ascii "audio data exceeds 5MB limit") CreateRecTaskRequest.fill
    (createTask deps client env curl) audio req

end

end V2

namespace V3

def transcribeDataRequest (voiceFormat engineModelType audio : Bytes) : TranscribeRequest where
  engineModelType := engineModelType
  sourceType := kSourceTypeData
  voiceFormat := voiceFormat
  data := base64Encode audio
  dataLen := audio.length

def transcribeUrlRequest (voiceFormat engineModelType url : Bytes) : TranscribeRequest where
  engineModelType := engineModelType
  sourceType := kSourceTypeUrl
  voiceFormat := voiceFormat
  url := url

def TranscribeRequest.fill (req : TranscribeRequest) (audio : Bytes) : TranscribeRequest :=
  { req with
    sourceType := kSourceTypeData
    data := base64Encode audio
    dataLen := audio.length }

def transcriptionDataRequest (engineModelType audio : Bytes) : CreateTranscriptionRequest where
  engineModelType := engineModelType
  channelNum := 1
  resTextFormat := 1
  sourceType := kSourceTypeData
  data := base64Encode audio
  dataLen := audio.length

def transcriptionUrlRequest (engineModelType url : Bytes) : CreateTranscriptionRequest where
  engineModelType := engineModelType
  channelNum := 1
  resTextFormat := 1
  sourceType := kSourceTypeUrl
  url := url

def CreateTranscriptionRequest.fill (req : CreateTranscriptionRequest) (audio : Bytes) :
    CreateTranscriptionRequest :=
  { req with
    sourceType := kSourceTypeData
    data := base64Encode audio
    dataLen := audio.length }

section

variable (deps : Deps) (client : Client) (env : CallEnv)

/-- `SentenceRecognizer::RecognizeData`. -/
def recognizeData (voiceFormat engineModelType audio : Bytes) : Except Exn TranscribeResponse :=
  fromData (3 * 1024 * 1024) (ascii "audio data exceeds 3MB limit")
    (transcribeDataRequest voiceFormat engineModelType) (recognize deps client env) audio

/-- `SentenceRecognizer::RecognizeUrl`. -/
def recognizeUrl (voiceFormat engineModelType url : Bytes) : Except Exn TranscribeResponse :=
  fromUrl (transcribeUrlRequest voiceFormat engineModelType) (recognize deps client env) url

/-- `SentenceRecognizer::RecognizeDataWithOptions`. -/
def recognizeDataWithOptions (audio : Bytes) (req : Option TranscribeRequest) :
    Except Exn TranscribeResponse × Option TranscribeRequest :=
  withOptions (3 * 1024 * 1024) (ascii "audio data exceeds 3MB limit") TranscribeRequest.fill
    (recognize deps client env) audio req

/-- `FileRecognizer::CreateTaskFromData`. -/
def createTaskFromData (engineModelType audio : Bytes) : Except Exn Bytes :=
  fromData (5 * 1024 * 1024) (ascii "audio data exceeds 5MB limit")
    (transcriptionDataRequest engineModelType) (createTask deps client env) audio

/-- `FileRecognizer::CreateTaskFromUrl`. -/
def createTaskFromUrl (engineModelType url : Bytes) : Except Exn Bytes :=
  fromUrl (transcriptionUrlRequest engineModelType) (createTask deps client env) url

/-- `FileRecognizer::CreateTaskFromDataWithOptions`. -/
def createTaskFromDataWithOptions (audio : Bytes) (req : Option CreateTranscriptionRequest) :
    Except Exn Bytes × Option CreateTranscriptionRequest :=
  withOptions (5 * 1024 * 1024) (ascii "audio data exceeds 5MB limit")
    CreateTranscriptionRequest.fill (createTask deps client env) audio req

end

end V3

/-! ## What a server takes -/

inductive Recording where
  | audio (bytes : Bytes)
  | url (url : Bytes)
  deriving DecidableEq, Repr

/-- The network, as what becomes of each request. -/
abbrev Curl := HttpRequest → CurlOutcome

/-- The names of the fields that give the recording. -/
structure SourceNames where
  sourceType : String
  url : String
  data : String
  dataLen : String

/-- The recording of a block: by its source type, the URL, or the audio if it is as long as the
    block says. -/
def recordingOf (names : SourceNames) (block : Json) : Option Recording := do
  let sourceType ← (block.member names.sourceType).bind readInt
  if sourceType = 0 then
    let url ← (block.member names.url).bind Json.getStr
    return .url url
  else if sourceType = 1 then
    let data ← (block.member names.data).bind Json.getStr
    let dataLen ← (block.member names.dataLen).bind readInt
    match base64Decode data with
    | .ok audio => if audio.length = dataLen then some (.audio audio) else none
    | .error _ => none
  else none

/-- The request hands over the recording: its body is the text of a value, and what is parsed from
    such a text has the recording in the block at `locate`. -/
def HandsOver (deps : Deps) (locate : Json → Option Json) (names : SourceNames) (r : HttpRequest)
    (recording : Recording) : Prop :=
  ∃ body, deps.dump body = .ok r.jsonBody ∧
    (locate body.reread).bind (recordingOf names) = some recording

/-- The request objects of a recognizer, of audio, with audio put into one, and of a URL; and the
    HTTP request that it makes of one. -/
structure Objects (ρ ε : Type) where
  ofData : Bytes → ρ
  fill : ρ → Bytes → ρ
  ofUrl : Bytes → ρ
  request : ε → ρ → Except Exn HttpRequest

/-- What becomes of a recording and the object that holds it, if there is one: it is refused, or the
    request of the object goes out and hands it over. -/
structure Uploaded {ρ : Type} (reads : HttpRequest → Recording → Prop) (refused : Prop)
    (own : ρ → Except Exn HttpRequest) (recording : Recording) (filled : Option ρ)
    (request : Except Exn HttpRequest) : Prop where
  refuses : refused ∨ filled = none →
    ∃ message, request = .error (.asr ⟨kErrInvalidParam, message⟩)
  sends : ¬ refused → ∀ req, filled = some req → request = own req
  hands : ∀ r, request = .ok r → reads r recording

/-- A recognizer whose functions send requests by `sends`, and hand over what they are given: the
    one that takes audio, the one that puts audio into a request object, whatever stood in it, and
    the one that takes a URL. What is sent does not depend on what the network answers. -/
structure Hands {ρ γ ε : Type} (limit : ℕ) (reads : HttpRequest → Recording → Prop)
    (objects : Objects ρ ε) (sends : ε → Curl → Except Exn HttpRequest → Except Exn γ)
    (data : ε → Curl → Bytes → Except Exn γ)
    (options : ε → Curl → Bytes → Option ρ → Except Exn γ × Option ρ)
    (url : ε → Curl → Bytes → Except Exn γ) : Prop where
  data : ∀ env audio, ∃ request,
    Uploaded reads (audio = [] ∨ limit < audio.length) (objects.request env) (.audio audio)
      (some (objects.ofData audio)) request ∧
    ∀ curl, data env curl audio = sends env curl request
  options : ∀ env audio req, ∃ request,
    Uploaded reads (audio = [] ∨ limit < audio.length) (objects.request env) (.audio audio)
      (req.map (objects.fill · audio)) request ∧
    ∀ curl, (options env curl audio req).1 = sends env curl request
  url : ∀ env u, ∃ request,
    Uploaded reads (u = []) (objects.request env) (.url u) (some (objects.ofUrl u)) request ∧
    ∀ curl, url env curl u = sends env curl request

/-! ## Blocks -/

/-- Writing and parsing a block leaves its recording. -/
theorem recordingOf_reread (names : SourceNames) (block : Json) :
    recordingOf names block.reread = recordingOf names block := by
  unfold recordingOf
  simp only [member_reread, bind_reread readsAlike_int, bind_reread readsAlike_str]

theorem recordingOf_audio {names : SourceNames} {block : Json} {audio : Bytes}
    (hsource : block.member names.sourceType = some (.int 1))
    (hdata : block.member names.data = some (.str (base64Encode audio)))
    (hlength : block.member names.dataLen = some (.int audio.length)) :
    recordingOf names block = some (.audio audio) := by
  simp only [recordingOf, hsource, hdata, hlength, Option.bind_some, Option.bind_eq_bind,
    readInt_int, V3.getStr_str, base64Decode_encode]
  simp

theorem recordingOf_url {names : SourceNames} {block : Json} {url : Bytes}
    (hsource : block.member names.sourceType = some (.int 0))
    (hurl : block.member names.url = some (.str url)) :
    recordingOf names block = some (.url url) := by
  simp only [recordingOf, hsource, hurl, Option.bind_some, Option.bind_eq_bind, readInt_int,
    V3.getStr_str, if_true]
  rfl

theorem base64Encode_ne_nil {audio : Bytes} (h : audio ≠ []) : base64Encode audio ≠ [] := by
  intro hnil
  have hdecode := base64Decode_encode audio
  rw [hnil] at hdecode
  cases hdecode
  exact h rfl

/-! ## What the functions of a kind do -/

section

variable {ρ γ ε : Type} {limit : ℕ} {tooLong : Bytes} {reads : HttpRequest → Recording → Prop}
  {fill : ρ → Bytes → ρ}

theorem checkAudio_cases (limit : ℕ) (tooLong audio : Bytes) :
    (∃ message, checkAudio limit tooLong audio = .error (.asr ⟨kErrInvalidParam, message⟩)) ∧
        (audio = [] ∨ limit < audio.length) ∨
      checkAudio limit tooLong audio = .ok () ∧ ¬ (audio = [] ∨ limit < audio.length) := by
  unfold checkAudio rejectIf
  by_cases hempty : audio = []
  · rw [if_pos hempty]
    exact .inl ⟨⟨_, rfl⟩, .inl hempty⟩
  rw [if_neg hempty]
  by_cases hlong : audio.length > limit
  · rw [if_pos hlong]
    exact .inl ⟨⟨_, rfl⟩, .inr hlong⟩
  · rw [if_neg hlong]
    exact .inr ⟨rfl, not_or.2 ⟨hempty, hlong⟩⟩

theorem withOptions_refused {req : ρ} {audio : Bytes} {f : ρ → Except Exn γ} {e : Exn}
    (h : checkAudio limit tooLong audio = .error e) :
    withOptions limit tooLong fill f audio (some req) = (.error e, some req) := by
  unfold withOptions
  rw [h]

theorem withOptions_sent {req : ρ} {audio : Bytes} {f : ρ → Except Exn γ}
    (h : checkAudio limit tooLong audio = .ok ()) :
    withOptions limit tooLong fill f audio (some req) =
      (f (fill req audio), some (fill req audio)) := by
  unfold withOptions
  rw [h]

/-- A recording that is refused before anything is sent. -/
theorem Uploaded.invalid {refused : Prop} {own : ρ → Except Exn HttpRequest}
    {recording : Recording} {filled : Option ρ} (h : refused ∨ filled = none) (message : Bytes) :
    Uploaded reads refused own recording filled (.error (.asr ⟨kErrInvalidParam, message⟩)) where
  refuses _ := ⟨message, rfl⟩
  sends hnot req hreq := by
    rw [hreq] at h
    exact absurd h (not_or.2 ⟨hnot, Option.some_ne_none req⟩)
  hands r hr := by cases hr

/-- The request of an object with the recording. -/
theorem Uploaded.own {refused : Prop} {own : ρ → Except Exn HttpRequest} {recording : Recording}
    {req : ρ} (h : ¬ refused) (hreads : ∀ r, own req = .ok r → reads r recording) :
    Uploaded reads refused own recording (some req) (own req) where
  refuses hor := absurd hor (not_or.2 ⟨h, Option.some_ne_none req⟩)
  sends _ req' hreq := by
    cases hreq
    rfl
  hands := hreads

/-- **One recognizer hands over what it is given**, when its requests do. -/
theorem hands_of (limit : ℕ) (reads : HttpRequest → Recording → Prop) (objects : Objects ρ ε)
    (sends : ε → Curl → Except Exn HttpRequest → Except Exn γ) (tooLong : Bytes)
    (send : ε → Curl → ρ → Except Exn γ)
    (hsend : ∀ env curl req, send env curl req = sends env curl (objects.request env req))
    (herror : ∀ env curl e, sends env curl (.error e) = .error e)
    (hfill : ∀ env req audio r, audio ≠ [] → objects.request env (objects.fill req audio) = .ok r →
      reads r (.audio audio))
    (hdata : ∀ audio, ∃ req, objects.ofData audio = objects.fill req audio)
    (hurl : ∀ env u r, u ≠ [] → objects.request env (objects.ofUrl u) = .ok r → reads r (.url u)) :
    Hands limit reads objects sends
      (fun env curl => fromData limit tooLong objects.ofData (send env curl))
      (fun env curl => withOptions limit tooLong objects.fill (send env curl))
      (fun env curl => fromUrl objects.ofUrl (send env curl)) where
  data env audio := by
    rcases checkAudio_cases limit tooLong audio with ⟨⟨message, hcheck⟩, hrefused⟩ | ⟨hcheck, hnot⟩
    · refine ⟨_, .invalid (.inl hrefused) message, fun curl => ?_⟩
      rw [herror, fromData, hcheck]
      rfl
    · refine ⟨_, .own hnot fun r hr => ?_, fun curl => ?_⟩
      · obtain ⟨req, hreq⟩ := hdata audio
        rw [hreq] at hr
        exact hfill env req audio r (fun h => hnot (.inl h)) hr
      · rw [← hsend, fromData, hcheck]
        rfl
  options env audio req := by
    cases req with
    | none => exact ⟨_, .invalid (.inr rfl) _, fun curl => (herror env curl _).symm⟩
    | some req =>
      rcases checkAudio_cases limit tooLong audio with
        ⟨⟨message, hcheck⟩, hrefused⟩ | ⟨hcheck, hnot⟩
      · refine ⟨_, .invalid (.inl hrefused) message, fun curl => ?_⟩
        rw [herror, withOptions_refused hcheck]
      · refine ⟨_, .own hnot fun r hr => ?_, fun curl => ?_⟩
        · exact hfill env req audio r (fun h => hnot (.inl h)) hr
        · rw [← hsend, withOptions_sent hcheck]
  url env u := by
    unfold fromUrl rejectIf
    by_cases hu : u = []
    · rw [if_pos hu]
      exact ⟨_, .invalid (.inl hu) (ascii "audio URL is empty"), fun curl =>
        (herror env curl _).symm⟩
    · rw [if_neg hu]
      exact ⟨_, .own hu fun r hr => hurl env u r hu hr, fun curl => hsend env curl _⟩

end

/-! ## The bodies of v2 -/

namespace V2

/-- The names of v2. -/
def sourceNames : SourceNames := ⟨"SourceType", "Url", "Data", "DataLen"⟩

variable {deps : Deps} {client : Client} {env : CallEnv} {r : HttpRequest}

/-- The whole body is the block. -/
theorem handsOver_body {body : Json} {recording : Recording}
    (hdump : deps.dump body = .ok r.jsonBody) (hread : recordingOf sourceNames body = some recording) :
    HandsOver deps some sourceNames r recording :=
  ⟨body, hdump, by rw [Option.bind_some, recordingOf_reread, hread]⟩

theorem recognizeRequest_body {req : SentenceRecognitionRequest}
    (h : recognizeRequest deps client env req = .ok r) : deps.dump req.toWire = .ok r.jsonBody := by
  obtain ⟨-, -, h⟩ := bind_eq_ok.1 h
  obtain ⟨userSig, -, h⟩ := bind_eq_ok.1 h
  obtain ⟨url, -, h⟩ := bind_eq_ok.1 h
  obtain ⟨jsonBody, hbody, h⟩ := bind_eq_ok.1 h
  cases h
  exact mapError_eq_ok.1 hbody

theorem doRequest_body {path jsonBody : Bytes}
    (h : doRequest deps client env path jsonBody = .ok r) : r.jsonBody = jsonBody := by
  obtain ⟨userSig, -, h⟩ := bind_eq_ok.1 h
  obtain ⟨url, -, h⟩ := bind_eq_ok.1 h
  cases h
  rfl

theorem createTaskRequest_body {req : CreateRecTaskRequest}
    (h : createTaskRequest deps client env req = .ok r) :
    ∃ roles, deps.dump (req.toWire roles) = .ok r.jsonBody := by
  obtain ⟨-, -, h⟩ := bind_eq_ok.1 h
  obtain ⟨jsonBody, hbody, h⟩ := bind_eq_ok.1 h
  obtain ⟨roles, -, hdump⟩ := bind_eq_ok.1 (mapError_eq_ok.1 hbody)
  exact ⟨roles, doRequest_body h ▸ hdump⟩

theorem recordingOf_sentence (req : SentenceRecognitionRequest) {audio : Bytes} (h : audio ≠ []) :
    recordingOf sourceNames (req.fill audio).toWire = some (.audio audio) := by
  have hdata := base64Encode_ne_nil h
  refine recordingOf_audio ?_ ?_ ?_
  · simp [sourceNames, SentenceRecognitionRequest.toWire, Json.member,
      SentenceRecognitionRequest.fill, kSourceTypeData]
  · simp [sourceNames, SentenceRecognitionRequest.toWire, Json.member,
      SentenceRecognitionRequest.fill, hdata]
  · simp [sourceNames, SentenceRecognitionRequest.toWire, Json.member,
      SentenceRecognitionRequest.fill, h]

theorem recordingOf_task (req : CreateRecTaskRequest) (roles : Option Json) {audio : Bytes}
    (h : audio ≠ []) :
    recordingOf sourceNames ((req.fill audio).toWire roles) = some (.audio audio) := by
  have hdata := base64Encode_ne_nil h
  refine recordingOf_audio ?_ ?_ ?_
  · simp [sourceNames, CreateRecTaskRequest.toWire, Json.member, CreateRecTaskRequest.fill]
  · simp [sourceNames, CreateRecTaskRequest.toWire, Json.member, CreateRecTaskRequest.fill, hdata]
  · simp [sourceNames, CreateRecTaskRequest.toWire, Json.member, CreateRecTaskRequest.fill, h]

end V2

/-! ## The bodies of v3 -/

namespace V3

/-- The names of v3. -/
def sourceNames : SourceNames := ⟨"source_type", "url", "data", "data_len"⟩

variable {deps : Deps} {client : Client} {env : CallEnv} {r : HttpRequest}

/-- The block is the one of the parameters, which has information on the client besides. -/
theorem handsOver_params {path : Bytes} {validate : Except ASRError Unit} {params : Json}
    {recording : Recording} (h : offlineRequest deps client env path validate params = .ok r)
    (hread : recordingOf sourceNames params = some recording) :
    HandsOver deps (·.member "params") sourceNames r recording := by
  obtain ⟨-, -, h⟩ := bind_eq_ok.1 h
  obtain ⟨body, hbody, h⟩ := bind_eq_ok.1 h
  obtain ⟨base, -, h⟩ := bind_eq_ok.1 h
  obtain ⟨jsonBody, hdump, h⟩ := bind_eq_ok.1 h
  obtain ⟨userSig, -, henvelope⟩ := bind_eq_ok.1 (mapError_eq_ok.1 hbody)
  cases h
  cases henvelope
  have hmember : ∀ k, k ≠ "sdk_info" →
      (Json.obj ((membersOf params).put "sdk_info" sdkReportParams)).member k =
        params.member k := by
    intro k hk
    show List.lookup k ((membersOf params).put "sdk_info" sdkReportParams) = _
    rw [Members.lookup_put_of_ne hk]
    cases params <;> rfl
  refine ⟨_, mapError_eq_ok.1 hdump, ?_⟩
  simp only [member_reread]
  simp only [Json.member, Members.lookup_put_self, Option.map_some, Option.bind_some]
  rw [recordingOf_reread, ← hread]
  unfold recordingOf sourceNames
  simp only [hmember _ (by decide : "source_type" ≠ "sdk_info"),
    hmember _ (by decide : "url" ≠ "sdk_info"), hmember _ (by decide : "data" ≠ "sdk_info"),
    hmember _ (by decide : "data_len" ≠ "sdk_info")]

theorem recordingOf_transcribe (req : TranscribeRequest) (audio : Bytes) :
    recordingOf sourceNames (transcribeRequestToWire (req.fill audio)) = some (.audio audio) := by
  obtain ⟨-, hdata, hlength⟩ := TranscribeRequest.member_source (req.fill audio)
  exact recordingOf_audio (TranscribeRequest.member_sourceType _) hdata hlength

theorem recordingOf_transcription (req : CreateTranscriptionRequest) {audio : Bytes}
    (h : audio ≠ []) :
    recordingOf sourceNames (createTranscriptionRequestToWire (req.fill audio)) =
      some (.audio audio) := by
  have hsource : (req.fill audio).sourceType = kSourceTypeData ∧ (req.fill audio).data ≠ [] :=
    ⟨rfl, base64Encode_ne_nil h⟩
  obtain ⟨-, hdata, hlength⟩ := CreateTranscriptionRequest.member_source (req.fill audio)
  rw [if_pos hsource] at hdata hlength
  exact recordingOf_audio (CreateTranscriptionRequest.member_sourceType _) hdata hlength

end V3

/-! ## The four recognizers -/

namespace V2

variable (deps : Deps) (client : Client) (voiceFormat engineModelType : Bytes)

/-- The request objects of `SentenceRecognizer`. -/
def sentenceObjects : Objects SentenceRecognitionRequest CallEnv where
  ofData := sentenceDataRequest voiceFormat engineModelType
  fill := SentenceRecognitionRequest.fill
  ofUrl := sentenceUrlRequest voiceFormat engineModelType
  request := recognizeRequest deps client

/-- The request objects of `FileRecognizer`. -/
def fileObjects : Objects CreateRecTaskRequest CallEnv where
  ofData := taskDataRequest engineModelType
  fill := CreateRecTaskRequest.fill
  ofUrl := taskUrlRequest engineModelType
  request := createTaskRequest deps client

theorem hands_sentence : Hands kMaxSentenceAudioSize (HandsOver deps some sourceNames)
    (sentenceObjects deps client voiceFormat engineModelType)
    (fun _ curl request => call deps curl request (sentenceResult deps))
    (fun env curl => recognizeData deps client curl env voiceFormat engineModelType)
    (fun env curl => recognizeDataWithOptions deps client curl env)
    (fun env curl => recognizeURL deps client curl env voiceFormat engineModelType) := by
  have hhands := hands_of kMaxSentenceAudioSize (HandsOver deps some sourceNames)
    (sentenceObjects deps client voiceFormat engineModelType)
    (fun _ curl request => call deps curl request (sentenceResult deps))
    (ascii "audio data exceeds 3MB limit") (recognize deps client) (fun _ _ _ => rfl)
    (fun _ _ _ => rfl) ?_ ?_ ?_
  · exact hhands
  · intro env req audio r haudio hr
    exact handsOver_body (recognizeRequest_body hr) (recordingOf_sentence req haudio)
  · exact fun audio => ⟨sentenceDataRequest voiceFormat engineModelType [], rfl⟩
  · intro env u r hu hr
    refine handsOver_body (recognizeRequest_body hr) (recordingOf_url ?_ ?_)
    · simp [sourceNames, SentenceRecognitionRequest.toWire, Json.member, sentenceObjects,
        sentenceUrlRequest, kSourceTypeURL]
    · simp [sourceNames, SentenceRecognitionRequest.toWire, Json.member, sentenceObjects,
        sentenceUrlRequest, hu]

theorem hands_file : Hands kMaxFileAudioSize (HandsOver deps some sourceNames)
    (fileObjects deps client engineModelType)
    (fun _ curl request => call deps curl request (createdTaskId deps))
    (fun env curl => createTaskFromData deps client curl env voiceFormat engineModelType)
    (fun env curl => createTaskFromDataWithOptions deps client curl env)
    (fun env curl => createTaskFromURL deps client curl env engineModelType) := by
  have hhands := hands_of kMaxFileAudioSize (HandsOver deps some sourceNames)
    (fileObjects deps client engineModelType)
    (fun _ curl request => call deps curl request (createdTaskId deps))
    (ascii "audio data exceeds 5MB limit") (createTask deps client) (fun _ _ _ => rfl)
    (fun _ _ _ => rfl) ?_ ?_ ?_
  · exact hhands
  · intro env req audio r haudio hr
    obtain ⟨roles, hdump⟩ := createTaskRequest_body hr
    exact handsOver_body hdump (recordingOf_task req roles haudio)
  · exact fun audio => ⟨taskDataRequest engineModelType [], rfl⟩
  · intro env u r hu hr
    obtain ⟨roles, hdump⟩ := createTaskRequest_body hr
    refine handsOver_body hdump (recordingOf_url ?_ ?_)
    · simp [sourceNames, CreateRecTaskRequest.toWire, Json.member, fileObjects, taskUrlRequest]
    · simp [sourceNames, CreateRecTaskRequest.toWire, Json.member, fileObjects, taskUrlRequest, hu]

end V2

namespace V3

variable (deps : Deps) (client : Client) (voiceFormat engineModelType : Bytes)

/-- The network of a call is another. -/
def CallEnv.over (env : CallEnv) (curl : Curl) : CallEnv := { env with curl := curl }

/-- The request objects of `SentenceRecognizer`. -/
def sentenceObjects : Objects TranscribeRequest CallEnv where
  ofData := transcribeDataRequest voiceFormat engineModelType
  fill := TranscribeRequest.fill
  ofUrl := transcribeUrlRequest voiceFormat engineModelType
  request := recognizeRequest deps client

/-- The request objects of `FileRecognizer`. -/
def fileObjects : Objects CreateTranscriptionRequest CallEnv where
  ofData := transcriptionDataRequest engineModelType
  fill := CreateTranscriptionRequest.fill
  ofUrl := transcriptionUrlRequest engineModelType
  request := createTaskRequest deps client

theorem hands_sentence : Hands (3 * 1024 * 1024) (HandsOver deps (·.member "params") sourceNames)
    (sentenceObjects deps client voiceFormat engineModelType)
    (fun env curl request =>
      offlineCall deps (CallEnv.over env curl) request (decoded transcribeResponseFromJson))
    (fun env curl => recognizeData deps client (CallEnv.over env curl) voiceFormat engineModelType)
    (fun env curl => recognizeDataWithOptions deps client (CallEnv.over env curl))
    (fun env curl =>
      recognizeUrl deps client (CallEnv.over env curl) voiceFormat engineModelType) := by
  have hhands := hands_of (3 * 1024 * 1024) (HandsOver deps (·.member "params") sourceNames)
    (sentenceObjects deps client voiceFormat engineModelType)
    (fun env curl request =>
      offlineCall deps (CallEnv.over env curl) request (decoded transcribeResponseFromJson))
    (ascii "audio data exceeds 3MB limit")
    (fun env curl => recognize deps client (CallEnv.over env curl))
    (fun _ _ _ => rfl) (fun _ _ _ => rfl) ?_ ?_ ?_
  · exact hhands
  · intro env req audio r _ hr
    exact handsOver_params hr (recordingOf_transcribe req audio)
  · exact fun audio => ⟨transcribeDataRequest voiceFormat engineModelType [], rfl⟩
  · intro env u r _ hr
    obtain ⟨hurl, -, -⟩ :=
      TranscribeRequest.member_source (transcribeUrlRequest voiceFormat engineModelType u)
    exact handsOver_params hr (recordingOf_url (TranscribeRequest.member_sourceType _) hurl)

theorem hands_file : Hands (5 * 1024 * 1024) (HandsOver deps (·.member "params") sourceNames)
    (fileObjects deps client engineModelType)
    (fun env curl request =>
      offlineCall deps (CallEnv.over env curl) request transcriptionIdFromJson)
    (fun env curl => createTaskFromData deps client (CallEnv.over env curl) engineModelType)
    (fun env curl => createTaskFromDataWithOptions deps client (CallEnv.over env curl))
    (fun env curl => createTaskFromUrl deps client (CallEnv.over env curl) engineModelType) := by
  have hhands := hands_of (5 * 1024 * 1024) (HandsOver deps (·.member "params") sourceNames)
    (fileObjects deps client engineModelType)
    (fun env curl request =>
      offlineCall deps (CallEnv.over env curl) request transcriptionIdFromJson)
    (ascii "audio data exceeds 5MB limit")
    (fun env curl => createTask deps client (CallEnv.over env curl))
    (fun _ _ _ => rfl) (fun _ _ _ => rfl) ?_ ?_ ?_
  · exact hhands
  · intro env req audio r haudio hr
    exact handsOver_params hr (recordingOf_transcription req haudio)
  · exact fun audio => ⟨transcriptionDataRequest engineModelType [], rfl⟩
  · intro env u r hu hr
    obtain ⟨hurl, -, -⟩ :=
      CreateTranscriptionRequest.member_source (transcriptionUrlRequest engineModelType u)
    have hsource : (transcriptionUrlRequest engineModelType u).sourceType = kSourceTypeUrl ∧
        (transcriptionUrlRequest engineModelType u).url ≠ [] := ⟨rfl, hu⟩
    rw [if_pos hsource] at hurl
    exact handsOver_params hr
      (recordingOf_url (CreateTranscriptionRequest.member_sourceType _) hurl)

end V3

/-- **The recognizers hand over what they are given.** Audio that is empty or longer than the limit
    is refused, and so is an empty URL; any other goes out as the request that the recognizer makes
    of the object with the recording in it. Of every request that goes out, a server that goes by
    the source type and reads the documented names takes just the audio, or the URL, that the
    function was given; whatever stood in the request object before. -/
theorem uploads_hand_over (deps : Deps) (client₂ : V2.Client) (client₃ : V3.Client)
    (voiceFormat engineModelType : Bytes) :
    Hands V2.kMaxSentenceAudioSize (HandsOver deps some V2.sourceNames)
      (V2.sentenceObjects deps client₂ voiceFormat engineModelType)
      (fun _ curl request => V2.call deps curl request (V2.sentenceResult deps))
      (fun env curl => V2.recognizeData deps client₂ curl env voiceFormat engineModelType)
      (fun env curl => V2.recognizeDataWithOptions deps client₂ curl env)
      (fun env curl => V2.recognizeURL deps client₂ curl env voiceFormat engineModelType) ∧
    Hands V2.kMaxFileAudioSize (HandsOver deps some V2.sourceNames)
      (V2.fileObjects deps client₂ engineModelType)
      (fun _ curl request => V2.call deps curl request (V2.createdTaskId deps))
      (fun env curl => V2.createTaskFromData deps client₂ curl env voiceFormat engineModelType)
      (fun env curl => V2.createTaskFromDataWithOptions deps client₂ curl env)
      (fun env curl => V2.createTaskFromURL deps client₂ curl env engineModelType) ∧
    Hands (3 * 1024 * 1024) (HandsOver deps (·.member "params") V3.sourceNames)
      (V3.sentenceObjects deps client₃ voiceFormat engineModelType)
      (fun env curl request => V3.offlineCall deps (V3.CallEnv.over env curl) request
        (V3.decoded V3.transcribeResponseFromJson))
      (fun env curl =>
        V3.recognizeData deps client₃ (V3.CallEnv.over env curl) voiceFormat engineModelType)
      (fun env curl => V3.recognizeDataWithOptions deps client₃ (V3.CallEnv.over env curl))
      (fun env curl =>
        V3.recognizeUrl deps client₃ (V3.CallEnv.over env curl) voiceFormat engineModelType) ∧
    Hands (5 * 1024 * 1024) (HandsOver deps (·.member "params") V3.sourceNames)
      (V3.fileObjects deps client₃ engineModelType)
      (fun env curl request => V3.offlineCall deps (V3.CallEnv.over env curl) request
        V3.transcriptionIdFromJson)
      (fun env curl =>
        V3.createTaskFromData deps client₃ (V3.CallEnv.over env curl) engineModelType)
      (fun env curl => V3.createTaskFromDataWithOptions deps client₃ (V3.CallEnv.over env curl))
      (fun env curl =>
        V3.createTaskFromUrl deps client₃ (V3.CallEnv.over env curl) engineModelType) :=
  ⟨V2.hands_sentence deps client₂ voiceFormat engineModelType,
    V2.hands_file deps client₂ voiceFormat engineModelType,
    V3.hands_sentence deps client₃ voiceFormat engineModelType,
    V3.hands_file deps client₃ engineModelType⟩

end TrtcAsr
