/-
  What becomes of a string that is not UTF-8 in an option or a request (v3.cc,
  sentence_recognizer.cc, file_recognizer.cc, speech_recognizer.cc, json_helper.h).

  The operations write their strings as JSON outside of any `try` block, so what `dump` throws
  leaves them.

  * `texts`: the strings of a request, or of a session, that are written as JSON;
  * `strings_converge_iff`: the operations return or throw an `ASRError` exactly when these are
    UTF-8, or the call fails before it writes them;
  * `gbk_escapes`: hotwords in another encoding.
-/
import TrtcAsr.Lib.JsonUtf8
import TrtcAsr.UserSig.Reading
import TrtcAsr.V2.SpeechOptions
import TrtcAsr.V3.Convergence
import TrtcAsr.V3.Start
import TrtcAsr.V3.WireFormat

namespace TrtcAsr

open Json

/-! ## Texts that are ASCII -/

theorem validUtf8_toDec (n : ℤ) : ValidUtf8 (toDec n) :=
  validUtf8_of_lt fun _ hb => lt_of_mem_toDec hb

theorem validUtf8_generateUuid (uuid : Vector UInt8 16) : ValidUtf8 (generateUuid uuid) := by
  have hstands : ∀ b, V3.SpeechOptions.StandsForItself b → b < 0x80 :=
    forall_byte (by decide +kernel)
  exact validUtf8_of_lt fun b hb =>
    hstands b (V3.SpeechOptions.standsForItself_generateUuid uuid b hb)

theorem validUtf8_genUserSig {compress2 : Bytes → Except ℤ Bytes} {sdkAppId : ℤ}
    {key userId userSig : Bytes} {expire now : ℤ}
    (h : genUserSig compress2 sdkAppId key userId expire now = .ok userSig) : ValidUtf8 userSig := by
  unfold genUserSig genUserSigAt at h
  obtain ⟨-, -, h⟩ := bind_eq_ok.1 h
  obtain ⟨-, -, h⟩ := bind_eq_ok.1 h
  obtain ⟨out, -, h⟩ := bind_eq_ok.1 h
  cases h
  exact validUtf8_of_lt fun b hb => lt_of_isTicketChar (isTicketChar_encode out b hb)

/-- A UserSig that is generated is ASCII. -/
theorem validUtf8_resolveUserSig {deps : Deps} {credential : Credential} {userId userSig : Bytes}
    {now : ℤ} (h : resolveUserSig deps credential userId now = .ok userSig) :
    ValidUtf8 userSig ↔ ValidUtf8 credential.userSig := by
  unfold resolveUserSig at h
  split at h
  · cases h
    rfl
  rename_i hnil
  rw [not_not.1 hnil]
  refine iff_of_true ?_ validUtf8_nil
  split at h
  · rename_i sig hsig
    cases h
    exact validUtf8_genUserSig hsig
  · cases h

/-! ## The strings of the v3 requests -/

namespace V3

theorem isUtf8_strings (l : List Bytes) : (strings l).isUtf8 ↔ AllUtf8 l := by
  simp only [strings, isUtf8_arr, List.forall_mem_map, isUtf8_str, AllUtf8]

def SpeakerRole.texts (role : SpeakerRole) : List Bytes := [role.roleName, role.audioUrl]

theorem SpeakerRole.isUtf8_toWire (role : SpeakerRole) : role.toWire.isUtf8 ↔ AllUtf8 role.texts := by
  simp [toWire, texts]

def AudioURLItem.texts (item : AudioURLItem) : List Bytes := [item.url, item.label]

theorem AudioURLItem.isUtf8_toWire (item : AudioURLItem) :
    item.toWire.isUtf8 ↔ AllUtf8 item.texts := by
  simp [toWire, texts]

def TranscribeRequest.texts (req : TranscribeRequest) : List Bytes :=
  [req.engineModelType, req.voiceFormat,
    if req.sourceType = kSourceTypeUrl then req.url else req.data,
    req.hotwordId, req.customizationId, req.hotwordList, req.language]

theorem TranscribeRequest.lookup_sdkInfo (req : TranscribeRequest) :
    (membersOf (transcribeRequestToWire req)).lookup "sdk_info" = none := by
  unfold transcribeRequestToWire
  split
  · simp [membersOf]
  · simp [membersOf]

theorem TranscribeRequest.isUtf8_toWire (req : TranscribeRequest) :
    (transcribeRequestToWire req).isUtf8 ↔ AllUtf8 req.texts := by
  unfold transcribeRequestToWire texts
  split
  · simp [and_assoc]
  · simp [and_assoc]

def CreateTranscriptionRequest.texts (req : CreateTranscriptionRequest) : List Bytes :=
  [req.engineModelType] ++
    (if req.sourceType = kSourceTypeUrl then [req.url] else []) ++
    (if req.sourceType = kSourceTypeData then [req.data] else []) ++
    req.audioUrls.flatMap AudioURLItem.texts ++ [req.callbackUrl] ++
    (if req.speakerDiarization = kSpeakerDiarizationVoiceprint then req.voiceprintIds else []) ++
    (if req.speakerDiarization = kSpeakerDiarizationVoiceprint then
      req.speakerRoles.flatMap SpeakerRole.texts else []) ++
    [req.hotwordId, req.customizationId, req.hotwordList] ++ req.keywordLibIdList ++
    [req.replaceTextId, req.extra, req.language]

theorem isUtf8_putSource {req : CreateTranscriptionRequest} {d : Members}
    (hurl : d.lookup "url" = none) (hdata : d.lookup "data" = none)
    (hlen : d.lookup "data_len" = none) :
    isUtf8 (obj (req.putSource d)) ↔ isUtf8 (obj d) ∧
      (req.sourceType = kSourceTypeUrl → ValidUtf8 req.url) ∧
      (req.sourceType = kSourceTypeData → ValidUtf8 req.data) := by
  have hne : kSourceTypeUrl ≠ kSourceTypeData := by decide
  have hlen' : (d.put "data" (.str req.data)).lookup "data_len" = none := by
    rw [Members.lookup_put_of_ne (by simp), hlen]
  rw [← validUtf8_of_ne_nil (s := req.url), ← validUtf8_of_ne_nil (s := req.data)]
  unfold CreateTranscriptionRequest.putSource
  split
  · rename_i h
    simp [Members.isUtf8_put hurl, h.1, hne]
  rename_i h
  split
  · rename_i h'
    simp [Members.isUtf8_put hlen', Members.isUtf8_put hdata, h'.1, hne.symm]
  · rename_i h'
    rw [not_and] at h h'
    exact (and_iff_left ⟨fun hs hu => absurd hu (h hs), fun hs hd => absurd hd (h' hs)⟩).symm

theorem CreateTranscriptionRequest.lookup_sdkInfo (req : CreateTranscriptionRequest) :
    (membersOf (createTranscriptionRequestToWire req)).lookup "sdk_info" = none := by
  simp [createTranscriptionRequestToWire, membersOf]

theorem CreateTranscriptionRequest.isUtf8_toWire (req : CreateTranscriptionRequest) :
    (createTranscriptionRequestToWire req).isUtf8 ↔ AllUtf8 req.texts := by
  simp [createTranscriptionRequestToWire, texts, isUtf8_putSource, isUtf8_strings,
    AudioURLItem.isUtf8_toWire, SpeakerRole.isUtf8_toWire, and_assoc]

namespace SpeechOptions

def texts (o : SpeechOptions) : List Bytes :=
  [o.voiceId, o.engineModelType, o.language, o.hotwordId, o.hotwordList] ++
    (if o.speakerDiarization = kSpeakerDiarizationVoiceprint then o.voiceprintIds else []) ++
    (if o.speakerDiarization = kSpeakerDiarizationVoiceprint then
      o.speakerRoles.flatMap SpeakerRole.texts else []) ++
    if o.enableSpeakerContext ≠ 0 then [o.speakerContextId] else []

theorem isUtf8_sdkReportParams : sdkReportParams.isUtf8 := by
  simp [sdkReportParams, sdkPlatform, validUtf8_ascii]

theorem isUtf8_params (o : SpeechOptions) (voiceId : Bytes) :
    isUtf8 (obj (o.params voiceId)) ↔ AllUtf8 { o with voiceId }.texts := by
  simp [params, texts, isUtf8_strings, SpeakerRole.isUtf8_toWire, isUtf8_sdkReportParams,
    and_assoc]

theorem isUtf8_startFrame (o : SpeechOptions) (voiceId userSig : Bytes) :
    (o.startFrame voiceId userSig).isUtf8 ↔
      ValidUtf8 userSig ∧ AllUtf8 { o with voiceId }.texts := by
  simp [startFrame, validUtf8_ascii, validUtf8_toDec, isUtf8_params]

end SpeechOptions

end V3

/-! ## The strings of the v2 requests -/

namespace V2

theorem isUtf8_speakerRoleToWire (role : V3.SpeakerRole) :
    (speakerRoleToWire role).isUtf8 ↔ AllUtf8 role.texts := by
  simp [speakerRoleToWire, V3.SpeakerRole.texts]

def SentenceRecognitionRequest.texts (req : SentenceRecognitionRequest) : List Bytes :=
  [req.engServiceType, req.voiceFormat, req.url, req.data, req.hotwordId, req.hotwordList,
    req.customizationId, req.language]

theorem SentenceRecognitionRequest.isUtf8_toWire (req : SentenceRecognitionRequest) :
    req.toWire.isUtf8 ↔ AllUtf8 req.texts := by
  simp [toWire, texts, and_assoc]

def CreateRecTaskRequest.texts (req : CreateRecTaskRequest) : List Bytes :=
  [req.engineModelType, req.url, req.data, req.callbackUrl, req.hotwordId, req.hotwordList,
    req.customizationId, req.replaceTextId, req.language] ++ req.voiceprintIds

theorem CreateRecTaskRequest.isUtf8_toWire (req : CreateRecTaskRequest) (roles : Option Json) :
    (req.toWire roles).isUtf8 ↔ AllUtf8 req.texts ∧ ∀ j ∈ roles, j.isUtf8 := by
  simp [toWire, texts, V3.isUtf8_strings, and_assoc]
  tauto

end V2

/-! ## The serializer -/

/-- `dump` with its strict error handler: it throws on a value with a string that is not UTF-8,
    and on no other. -/
def StrictDump (deps : Deps) : Prop := ∀ j, (∃ text, deps.dump j = .ok text) ↔ j.isUtf8

/-- `parse` accepts the text that `dump` writes for the roles. -/
def Rereads (deps : Deps) (roles : List V3.SpeakerRole) : Prop :=
  ∀ text, V2.serializeSpeakerRoles deps roles = .ok text → ∃ j, deps.parse text = .ok j ∧ j.isUtf8

/-- There is a UserSig for the call: it was set, or it can be generated. -/
def Signed (deps : Deps) (credential : Credential) (userId : Bytes) (now : ℤ) : Prop :=
  ∃ userSig, resolveUserSig deps credential userId now = .ok userSig

/-- There is an origin for the call: it was set, or the site is known. -/
def Located (endpoint site : Bytes) : Prop := ∃ base, resolveHTTPEndpoint endpoint site = .ok base

section

variable {deps : Deps}

namespace V3

theorem isUtf8_offlineEnvelope {credential : Credential} {requestId : Bytes} {now : ℤ}
    {params : Members} {body : Json} (hid : ValidUtf8 requestId)
    (hinfo : params.lookup "sdk_info" = none)
    (h : offlineEnvelope deps credential requestId now params = .ok body) :
    body.isUtf8 ↔ ValidUtf8 credential.userSig ∧ isUtf8 (obj params) := by
  obtain ⟨userSig, hsig, h⟩ := bind_eq_ok.1 h
  cases h
  simp [hinfo, validUtf8_toDec, hid, validUtf8_resolveUserSig hsig,
    SpeechOptions.isUtf8_sdkReportParams]

theorem offlineRequest_converges_iff (hdump : StrictDump deps) {client : Client} {env : CallEnv}
    {path : Bytes} {validate : Except ASRError Unit} {params : Json}
    (hinfo : (membersOf params).lookup "sdk_info" = none) :
    Converges (offlineRequest deps client env path validate params) ↔
      (validate = .ok () ∧ Signed deps client.credential (generateUuid env.uuid) env.now ∧
        Located client.endpoint client.credential.site →
        ValidUtf8 client.credential.userSig ∧ isUtf8 (obj (membersOf params))) := by
  unfold offlineRequest
  simp only [converges_bind, converges_asr, converges_json, converges_pure, true_and,
    mapError_eq_ok, implies_true, and_true, hdump _]
  constructor
  · rintro h ⟨hv, ⟨userSig, hsig⟩, base, hbase⟩
    obtain ⟨body, hbody⟩ : ∃ body, offlineEnvelope deps client.credential (generateUuid env.uuid)
        env.now (membersOf params) = .ok body := ⟨_, bind_eq_ok.2 ⟨userSig, hsig, rfl⟩⟩
    exact (isUtf8_offlineEnvelope (validUtf8_generateUuid _) hinfo hbody).1
      (h () hv body hbody base hbase)
  · intro h _ hv body hbody base hbase
    obtain ⟨userSig, hsig, -⟩ := bind_eq_ok.1 hbody
    exact (isUtf8_offlineEnvelope (validUtf8_generateUuid _) hinfo hbody).2
      (h ⟨hv, ⟨userSig, hsig⟩, base, hbase⟩)

theorem describeTaskRequest_converges_iff (hdump : StrictDump deps) (client : Client)
    (env : CallEnv) (transcriptionId : Bytes) :
    Converges (describeTaskRequest deps client env transcriptionId) ↔
      (transcriptionId ≠ [] ∧ Signed deps client.credential (generateUuid env.uuid) env.now ∧
        Located client.endpoint client.credential.site →
        AllUtf8 [client.credential.userSig, transcriptionId]) := by
  unfold describeTaskRequest
  rw [offlineRequest_converges_iff hdump (Members.lookup_put_of_ne (by simp) _ _),
    rejectIf_eq_ok]
  simp only [membersOf, Members.isUtf8_put (Members.lookup_empty _), Members.isUtf8_empty,
    isUtf8_str, allUtf8_cons, allUtf8_nil, true_and, and_true]

/-- What leaves `startRequest` leaves `Start`. -/
theorem SpeechOptions.start_of_startRequest {o : SpeechOptions} {env : StartEnv} {stopTimeout : ℕ}
    {sh : Speech.Shared} {e : Exn} (hidle : sh.state = .idle)
    (h : o.startRequest deps env.uuid env.time = .error e) :
    ∃ a, o.start deps env stopTimeout sh = some a ∧ a.result = .error e := by
  unfold start
  rw [if_neg (not_not.2 hidle)]
  cases hv : o.validateOptions with
  | error e' =>
    rw [startRequest, hv] at h
    cases h
    exact ⟨_, rfl, rfl⟩
  | ok u =>
    have hp : o.prepare deps env.uuid env.time = .error e := by
      rw [startRequest, hv] at h
      exact h
    simp only [connect, hp]
    exact ⟨_, rfl, rfl⟩

theorem SpeechOptions.startRequest_converges_iff (hdump : StrictDump deps) (o : SpeechOptions)
    (uuid : Vector UInt8 16) (now : ℤ) :
    Converges (o.startRequest deps uuid now) ↔
      (o.validateOptions = .ok () ∧ Signed deps o.credential (o.sessionId uuid) now →
        AllUtf8 (o.credential.userSig :: o.texts)) := by
  have htexts : AllUtf8 { o with voiceId := o.sessionId uuid }.texts ↔ AllUtf8 o.texts := by
    by_cases h : o.voiceId = []
    · simp [texts, sessionId, h, validUtf8_generateUuid, validUtf8_nil]
    · simp only [sessionId, if_neg h]
  unfold startRequest
  simp only [converges_bind, converges_asr, true_and, mapError_eq_ok, prepare_converges_iff, hdump _,
    isUtf8_startFrame, htexts, allUtf8_cons]
  constructor
  · rintro h ⟨hv, userSig, hsig⟩
    exact (and_congr_left' (validUtf8_resolveUserSig hsig)).1 (h () hv userSig hsig)
  · intro h _ hv userSig hsig
    exact (and_congr_left' (validUtf8_resolveUserSig hsig)).2 (h ⟨hv, userSig, hsig⟩)

end V3

namespace V2

theorem recognizeRequest_converges_iff (hdump : StrictDump deps) (client : Client) (env : CallEnv)
    (req : SentenceRecognitionRequest) :
    Converges (recognizeRequest deps client env req) ↔
      (req.validate = .ok () ∧
        Signed deps client.account.toCredential (generateUuid env.uuid) env.now ∧
        Located client.endpoint client.account.site → AllUtf8 req.texts) := by
  unfold recognizeRequest
  simp only [converges_bind, converges_asr, converges_json, converges_pure, true_and,
    mapError_eq_ok, implies_true, and_true, SentenceRecognitionRequest.serialize, hdump _,
    SentenceRecognitionRequest.isUtf8_toWire]
  constructor
  · rintro h ⟨hv, ⟨userSig, hsig⟩, base, hbase⟩
    exact h () hv userSig hsig _ (bind_eq_ok.2 ⟨base, hbase, rfl⟩)
  · intro h _ hv userSig hsig url hurl
    obtain ⟨base, hbase, -⟩ := bind_eq_ok.1 hurl
    exact h ⟨hv, ⟨userSig, hsig⟩, base, hbase⟩

/-- Nothing of the library is called after the body is there. -/
theorem doRequest_converges (client : Client) (env : CallEnv) (path jsonBody : Bytes) :
    Converges (doRequest deps client env path jsonBody) := by
  unfold doRequest
  simp only [converges_bind, converges_asr, converges_pure, implies_true, and_true]

theorem serializeSpeakerRoles_ok_iff (hdump : StrictDump deps) (roles : List V3.SpeakerRole) :
    (∃ text, serializeSpeakerRoles deps roles = .ok text) ↔
      AllUtf8 (roles.flatMap V3.SpeakerRole.texts) := by
  simp only [serializeSpeakerRoles, hdump _, isUtf8_arr, List.forall_mem_map,
    isUtf8_speakerRoleToWire, allUtf8_flatMap]

theorem serializeStringArray_ok_iff (hdump : StrictDump deps) (values : List Bytes) :
    (∃ text, serializeStringArray deps values = .ok text) ↔ AllUtf8 values := by
  simp only [serializeStringArray, hdump _, V3.isUtf8_strings]

theorem CreateRecTaskRequest.serialize_ok_iff (hdump : StrictDump deps)
    {req : CreateRecTaskRequest} (hparse : Rereads deps req.speakerRoles) :
    (∃ text, req.serialize deps = .ok text) ↔
      AllUtf8 (req.texts ++ req.speakerRoles.flatMap V3.SpeakerRole.texts) := by
  unfold serialize rolesValue
  by_cases hroles : req.speakerRoles = []
  · simp [hroles, hdump _, isUtf8_toWire]
  rw [if_pos hroles, allUtf8_append, ← serializeSpeakerRoles_ok_iff hdump]
  simp only [exists_bind_ok, hdump _, isUtf8_toWire]
  constructor
  · rintro ⟨roles, hroles, hreq, -⟩
    obtain ⟨text, htext, -⟩ := bind_eq_ok.1 hroles
    exact ⟨hreq, text, htext⟩
  · rintro ⟨hreq, text, htext⟩
    obtain ⟨j, hj, hutf8⟩ := hparse text htext
    exact ⟨some j, bind_eq_ok.2 ⟨text, htext, bind_eq_ok.2 ⟨j, mapError_eq_ok.2 hj, rfl⟩⟩, hreq,
      by rintro _ ⟨⟩; exact hutf8⟩

theorem createTaskRequest_converges_iff (hdump : StrictDump deps) (client : Client) (env : CallEnv)
    {req : CreateRecTaskRequest} (hparse : Rereads deps req.speakerRoles) :
    Converges (createTaskRequest deps client env req) ↔
      (req.validate = .ok () →
        AllUtf8 (req.texts ++ req.speakerRoles.flatMap V3.SpeakerRole.texts)) := by
  unfold createTaskRequest
  simp only [converges_bind, converges_asr, converges_json, true_and, mapError_eq_ok,
    doRequest_converges, implies_true, and_true, CreateRecTaskRequest.serialize_ok_iff hdump hparse]
  exact ⟨fun h hv => h () hv, fun h _ hv => h hv⟩

theorem describeTaskStatusRequest_converges_iff (hdump : StrictDump deps) (client : Client)
    (env : CallEnv) (recTaskId : Bytes) :
    Converges (describeTaskStatusRequest deps client env recTaskId) ↔ ValidUtf8 recTaskId := by
  unfold describeTaskStatusRequest
  simp only [converges_bind, converges_asr, converges_json, true_and, mapError_eq_ok,
    doRequest_converges, implies_true, and_true, hdump _,
    Members.isUtf8_put (Members.lookup_empty _), Members.isUtf8_empty, isUtf8_str]
  exact ⟨fun h => validUtf8_of_ne_nil.1 fun hne => h () (rejectIf_eq_ok.2 hne), fun h _ _ => h⟩

theorem putText_ok_iff {m : Params} {c : Bool} {k : Bytes} {text : Except JsonError Bytes} :
    (∃ m', SignatureParams.putText m c k text = .ok m') ↔ (c → ∃ t, text = .ok t) := by
  cases c with
  | false => exact iff_of_true ⟨m, rfl⟩ (by simp)
  | true =>
    cases text with
    | error e => simp [SignatureParams.putText, Except.map]
    | ok t => simp [SignatureParams.putText, Except.map]

namespace SpeechOptions

def texts (o : SpeechOptions) : List Bytes :=
  if o.speakerDiarization = V3.kSpeakerDiarizationVoiceprint then
    o.speakerRoles.flatMap V3.SpeakerRole.texts ++ o.voiceprintIds
  else []

/-- The only members that are JSON texts are the voiceprints. -/
theorem query_ok_iff (hdump : StrictDump deps) (o : SpeechOptions) (voiceId userSig : Bytes)
    (env : ConnectEnv) :
    (∃ query, (o.signatureParams voiceId env).buildQueryStringWithSignature deps userSig =
      .ok query) ↔ AllUtf8 o.texts := by
  have hmap : (∃ query, (o.signatureParams voiceId env).buildQueryStringWithSignature deps userSig =
      .ok query) ↔ ∃ m, (o.signatureParams voiceId env).toMap deps = .ok m := by
    unfold SignatureParams.buildQueryStringWithSignature
    cases (o.signatureParams voiceId env).toMap deps with
    | error e => exact iff_of_false nofun nofun
    | ok m => exact iff_of_true ⟨_, rfl⟩ ⟨m, rfl⟩
  rw [hmap]
  unfold SignatureParams.toMap
  simp only [exists_bind_ok, exists_pure_ok, and_true, putText_ok_iff, exists_and_right]
  simp [signatureParams, texts, serializeSpeakerRoles_ok_iff hdump,
    serializeStringArray_ok_iff hdump, imp_and]

theorem startRequest_converges_iff (hdump : StrictDump deps) (o : SpeechOptions) (env : ConnectEnv) :
    Converges (o.startRequest deps env) ↔
      (o.validateOptions = .ok () ∧
        Signed deps o.account.toCredential (o.sessionId env.uuid) env.now →
        AllUtf8 o.texts) := by
  unfold startRequest prepare
  simp only [converges_bind, converges_asr, converges_json, converges_pure, true_and,
    mapError_eq_ok, implies_true, and_true, query_ok_iff hdump]
  constructor
  · rintro h ⟨hv, userSig, hsig⟩
    exact h () hv userSig hsig
  · intro h _ hv userSig hsig
    exact h ⟨hv, userSig, hsig⟩

end SpeechOptions

end V2

/-! ## The operations -/

/-- **What becomes of the strings of a call**, up to its first byte on the wire.  Each operation
    returns or throws an `ASRError` exactly when, once its own checks pass, the strings that it
    writes as JSON are UTF-8. -/
theorem strings_converge_iff (hdump : StrictDump deps) (o : V3.SpeechOptions)
    (uuid : Vector UInt8 16) (now : ℤ) (client : V3.Client) (env : V3.CallEnv)
    (treq : V3.TranscribeRequest) (creq : V3.CreateTranscriptionRequest) (taskId : Bytes)
    (o₂ : V2.SpeechOptions) (cenv : V2.ConnectEnv) (client₂ : V2.Client) (env₂ : V2.CallEnv)
    (sreq : V2.SentenceRecognitionRequest) (freq : V2.CreateRecTaskRequest)
    (hparse : Rereads deps freq.speakerRoles) :
    let sig := client.credential.userSig
    let signed := Signed deps client.credential (generateUuid env.uuid) env.now
    let located := Located client.endpoint client.credential.site
    (Converges (o.startRequest deps uuid now) ↔
      (o.validateOptions = .ok () ∧ Signed deps o.credential (o.sessionId uuid) now →
        AllUtf8 (o.credential.userSig :: o.texts))) ∧
    (Converges (V3.recognizeRequest deps client env treq) ↔
      (treq.validate = .ok () ∧ signed ∧ located → AllUtf8 (sig :: treq.texts))) ∧
    (Converges (V3.createTaskRequest deps client env creq) ↔
      (creq.validate = .ok () ∧ signed ∧ located → AllUtf8 (sig :: creq.texts))) ∧
    (Converges (V3.describeTaskRequest deps client env taskId) ↔
      (taskId ≠ [] ∧ signed ∧ located → AllUtf8 [sig, taskId])) ∧
    (Converges (V2.recognizeRequest deps client₂ env₂ sreq) ↔
      (sreq.validate = .ok () ∧
        Signed deps client₂.account.toCredential (generateUuid env₂.uuid) env₂.now ∧
        Located client₂.endpoint client₂.account.site → AllUtf8 sreq.texts)) ∧
    (Converges (V2.createTaskRequest deps client₂ env₂ freq) ↔
      (freq.validate = .ok () →
        AllUtf8 (freq.texts ++ freq.speakerRoles.flatMap V3.SpeakerRole.texts))) ∧
    (Converges (V2.describeTaskStatusRequest deps client₂ env₂ taskId) ↔ ValidUtf8 taskId) ∧
    (Converges (o₂.startRequest deps cenv) ↔
      (o₂.validateOptions = .ok () ∧
        Signed deps o₂.account.toCredential (o₂.sessionId cenv.uuid) cenv.now →
        AllUtf8 o₂.texts)) := by
  refine ⟨o.startRequest_converges_iff hdump uuid now, ?_, ?_,
    V3.describeTaskRequest_converges_iff hdump client env taskId,
    V2.recognizeRequest_converges_iff hdump client₂ env₂ sreq,
    V2.createTaskRequest_converges_iff hdump client₂ env₂ hparse,
    V2.describeTaskStatusRequest_converges_iff hdump client₂ env₂ taskId,
    o₂.startRequest_converges_iff hdump cenv⟩
  · rw [allUtf8_cons, ← treq.isUtf8_toWire]
    exact V3.offlineRequest_converges_iff hdump treq.lookup_sdkInfo
  · rw [allUtf8_cons, ← creq.isUtf8_toWire]
    exact V3.offlineRequest_converges_iff hdump creq.lookup_sdkInfo

end

/-! For the runs on fixed inputs: `dump` on values without doubles and control characters. -/

mutual

def sampleText : Json → Bytes
  | .null => ascii "null"
  | .bool b => ascii (if b then "true" else "false")
  | .int n => toDec n
  | .uint n => decNat n
  | .float x => x.toGeneral
  | .str s => ascii "\"" ++ jsonEscape s ++ ascii "\""
  | .arr items => ascii "[" ++ sampleItems items ++ ascii "]"
  | .obj ms => ascii "\x7b" ++ sampleMembers ms ++ ascii "\x7d"

def sampleItems : List Json → Bytes
  | [] => []
  | [j] => sampleText j
  | j :: js => sampleText j ++ ascii "," ++ sampleItems js

def sampleMembers : List (String × Json) → Bytes
  | [] => []
  | [(k, j)] => ascii "\"" ++ ascii k ++ ascii "\":" ++ sampleText j
  | (k, j) :: ms => ascii "\"" ++ ascii k ++ ascii "\":" ++ sampleText j ++ ascii "," ++
      sampleMembers ms

end

def sampleStrictDeps (texts : List (Bytes × Json)) : Deps :=
  { sampleDeps texts with
    dump := fun j => if j.isUtf8 then .ok (sampleText j) else .error (.typeError 316) }

theorem strictDump_sample (texts : List (Bytes × Json)) : StrictDump (sampleStrictDeps texts) := by
  intro j
  unfold sampleStrictDeps
  by_cases h : j.isUtf8
  · simp [h]
  · simp [h]

/-- A voice that is enrolled for one task. -/
def sampleRoles : List V3.SpeakerRole := [⟨ascii "host", ascii "https://a/b.wav"⟩]

def sampleRolesText : Bytes :=
  ascii "[\x7b\"AudioUrl\":\"https://a/b.wav\",\"RoleName\":\"host\"\x7d]"

/-- "Hello|10" in Chinese, in the encoding GBK. -/
def sampleGbk : Bytes := [0xC4, 0xE3, 0xBA, 0xC3] ++ ascii "|10"

def sampleRequest (hotwordList : Bytes) : V3.TranscribeRequest where
  engineModelType := ascii "16k_zh"
  data := ascii "AAAA"
  dataLen := 3
  hotwordList := hotwordList

theorem rereads_sample :
    Rereads (sampleStrictDeps [(sampleRolesText, .arr (sampleRoles.map V2.speakerRoleToWire))])
      sampleRoles := by
  intro text h
  have hw : V2.serializeSpeakerRoles (sampleStrictDeps
      [(sampleRolesText, .arr (sampleRoles.map V2.speakerRoleToWire))]) sampleRoles =
        .ok sampleRolesText := by rfl
  rw [hw] at h
  cases h
  exact ⟨_, rfl, by decide +kernel⟩

/-- Two credentials, of v3 and of v2. -/
def sampleClients : V3.Client × V2.Client :=
  ⟨V3.sampleClient, { account := { sampleCredential with appId := 1300000000 } }⟩

def sampleTask : V2.CreateRecTaskRequest where
  engineModelType := ascii "16k_zh"
  channelNum := 1
  url := ascii "https://a/c.wav"
  speakerDiarization := 3
  speakerRoles := sampleRoles

theorem strings_converge_sample :
    let deps := sampleStrictDeps [(sampleRolesText, .arr (sampleRoles.map V2.speakerRoleToWire))]
    Converges (V2.createTaskRequest deps sampleClients.2 ⟨.replicate 16 0, 0, 0⟩ sampleTask) ∧
      ¬ Converges (V3.recognizeRequest deps sampleClients.1 (V3.sampleEnv .initFailed)
        (sampleRequest sampleGbk)) := by
  intro deps
  have h := strings_converge_iff (strictDump_sample _) (V3.SpeechOptions.sampleOptions [])
    (.replicate 16 0) 0 sampleClients.1 (V3.sampleEnv .initFailed) (sampleRequest sampleGbk)
    { engineModelType := [] } [] { account := sampleClients.2.account, engineModelType := [] }
    ⟨.replicate 16 0, 0, 0, 0⟩ sampleClients.2 ⟨.replicate 16 0, 0, 0⟩
    { engServiceType := [], voiceFormat := [] } sampleTask rereads_sample
  obtain ⟨-, hrecognize, -, -, -, hcreate, -⟩ := h
  refine ⟨hcreate.2 fun _ => by decide +kernel, fun hc => ?_⟩
  exact absurd (hrecognize.1 hc ⟨by decide, ⟨_, rfl⟩, ⟨_, rfl⟩⟩) (by decide +kernel)

/-- **Hotwords in GBK**: the exception of the serializer leaves `Recognize` and `Start`. -/
theorem gbk_escapes :
    let deps := sampleStrictDeps []
    let options := { V3.SpeechOptions.sampleOptions (ascii "room") with hotwordList := sampleGbk }
    StrictDump deps ∧
      ((sampleRequest sampleGbk).validate = .ok () ∧
        V3.recognize deps V3.sampleClient (V3.sampleEnv .initFailed) (sampleRequest sampleGbk) =
          .error (.json (.typeError 316))) ∧
      (options.validateOptions = .ok () ∧ ∀ (env : V3.StartEnv) (sh : Speech.Shared),
        sh.state = .idle → ∃ a, options.start deps env 10000 sh = some a ∧
          a.result = .error (.json (.typeError 316))) := by
  refine ⟨strictDump_sample [], ⟨by decide, by rfl⟩, by decide, fun env sh hidle => ?_⟩
  exact V3.SpeechOptions.start_of_startRequest hidle (by rfl)

end TrtcAsr
