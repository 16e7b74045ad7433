/-
  The query of a v2 streaming session (signature_params.h, signature_params.cc, json_helper.h).

  * `toMap` collects the parameters; `buildQueryString` and `buildQueryStringWithSignature`
    write them out.
  * `query_round_trip`: what a server reads from the two strings is what the map holds, and
    there is no character in them that could end the query or the request line.
-/
import TrtcAsr.Credential
import TrtcAsr.Lib.SortedMap
import TrtcAsr.Lib.UrlQuery
import TrtcAsr.V3.Requests

namespace TrtcAsr.V2

open TrtcAsr.V3 (SpeakerRole strings kSpeakerDiarizationVoiceprint)

/-- `struct SignatureParams`. -/
structure SignatureParams where
  appId : ℤ
  timestamp : ℤ
  expired : ℤ
  nonce : ℤ
  engineModelType : Bytes
  voiceId : Bytes
  voiceFormat : ℤ := 1
  needVad : ℤ := 1
  sdkAppId : ℤ := 0
  hotwordId : Bytes := []
  hotwordList : Bytes := []
  customizationId : Bytes := []
  replaceTextId : Bytes := []
  filterDirty : ℤ := 0
  filterModal : ℤ := 0
  filterPunc : ℤ := 0
  convertNumMode : ℤ := 1
  wordInfo : ℤ := 0
  vadSilenceTime : ℤ := 0
  maxSpeakTime : ℤ := 0
  inputSampleRate : ℤ := 0
  language : Bytes := []
  filterEmptyResult : Option ℤ := none
  vadLevel : Option ℤ := none
  noiseThreshold : Option Binary64 := none
  speakerDiarization : ℤ := 0
  enableSpeakerContext : ℤ := 0
  speakerContextId : Bytes := []
  speakerNumber : ℤ := 0
  speakerRoles : List SpeakerRole := []
  voiceprintIds : List Bytes := []
  deriving DecidableEq, Repr

/-! ## JSON-valued parameters -/

/-- A role on the v2 wire. -/
def speakerRoleToWire (role : SpeakerRole) : Json :=
  .obj <| Members.empty
    |>.put "RoleName" (.str role.roleName)
    |>.put "AudioUrl" (.str role.audioUrl)

def serializeSpeakerRoles (deps : Deps) (roles : List SpeakerRole) : Except JsonError Bytes :=
  deps.dump (.arr (roles.map speakerRoleToWire))

def serializeStringArray (deps : Deps) (values : List Bytes) : Except JsonError Bytes :=
  deps.dump (strings values)

/-! ## The query -/

def isUnreserved (c : UInt8) : Bool :=
  isAlphaNum c || c = 0x2D || c = 0x5F || c = 0x2E || c = 0x7E

def kHex (n : ℕ) : UInt8 := UInt8.ofNat (if n < 10 then 0x30 + n else 0x37 + n)

def queryEscape (s : Bytes) : Bytes :=
  s.flatMap fun c =>
    if isUnreserved c then [c]
    else if c = 0x20 then [0x2B]
    else [0x25, kHex (c.toNat / 16), kHex (c.toNat % 16)]

/-- `std::map<std::string, std::string>`. -/
abbrev Params := SortedMap Bytes Bytes

/-- `SdkReportParams`. -/
def sdkReport : List (Bytes × Bytes) :=
  [(ascii "platform", sdkPlatform), (ascii "sdk_lang", ascii "cpp"),
    (ascii "sdk_type", ascii "server"), (ascii "version", ascii "2.0.0")]

/-- The entries of a map, each after a `&` but the first. -/
def writeQuery (params : Params) : Bytes :=
  params.entries.foldl (fun out p =>
    (if out ≠ [] then out ++ ascii "&" else out) ++ p.1 ++ ascii "=" ++ queryEscape p.2) []

namespace SignatureParams

/-- `snprintf` into a buffer of 32 bytes. -/
def noiseThresholdText (x : Binary64) : Bytes := (x.toFixed 3).take 31

/-- The parameters of `ToMap` that are no JSON texts, in the order in which it sets them. -/
def plainParams (p : SignatureParams) : Params :=
  let m : Params := SortedMap.empty
    |>.put (ascii "secretid") (toDec p.appId)
    |>.put (ascii "timestamp") (toDec p.timestamp)
    |>.put (ascii "expired") (toDec p.expired)
    |>.put (ascii "nonce") (toDec p.nonce)
    |>.put (ascii "engine_model_type") p.engineModelType
    |>.put (ascii "voice_id") p.voiceId
    |>.put (ascii "voice_format") (toDec p.voiceFormat)
    |>.put (ascii "needvad") (toDec p.needVad)
  let m := sdkReport.foldl (fun m kv => m.put kv.1 kv.2) m
  m
    |>.putIf (p.sdkAppId > 0) (ascii "sdkappid") (toDec p.sdkAppId)
    |>.putIf (p.hotwordId ≠ []) (ascii "hotword_id") p.hotwordId
    |>.putIf (p.hotwordList ≠ []) (ascii "hotword_list") p.hotwordList
    |>.putIf (p.customizationId ≠ []) (ascii "customization_id") p.customizationId
    |>.putIf (p.replaceTextId ≠ []) (ascii "replace_text_id") p.replaceTextId
    |>.putIf (p.filterDirty ≠ 0) (ascii "filter_dirty") (toDec p.filterDirty)
    |>.putIf (p.filterModal ≠ 0) (ascii "filter_modal") (toDec p.filterModal)
    |>.putIf (p.filterPunc ≠ 0) (ascii "filter_punc") (toDec p.filterPunc)
    |>.putSome p.filterEmptyResult (ascii "filter_empty_result") toDec
    |>.putIf (p.convertNumMode ≠ 0) (ascii "convert_num_mode") (toDec p.convertNumMode)
    |>.putIf (p.wordInfo ≠ 0) (ascii "word_info") (toDec p.wordInfo)
    |>.putIf (p.vadSilenceTime ≠ 0) (ascii "vad_silence_time") (toDec p.vadSilenceTime)
    |>.putIf (p.maxSpeakTime ≠ 0) (ascii "max_speak_time") (toDec p.maxSpeakTime)
    |>.putIf (p.inputSampleRate ≠ 0) (ascii "input_sample_rate") (toDec p.inputSampleRate)
    |>.putSome p.vadLevel (ascii "vad_level") toDec
    |>.putSome p.noiseThreshold (ascii "noise_threshold") noiseThresholdText
    |>.putIf (p.enableSpeakerContext ≠ 0) (ascii "enable_speaker_context")
      (toDec p.enableSpeakerContext)
    |>.putIf (p.enableSpeakerContext ≠ 0 ∧ p.speakerContextId ≠ []) (ascii "speaker_context_id")
      p.speakerContextId
    |>.putIf (p.speakerDiarization ≠ 0) (ascii "speaker_diarization") (toDec p.speakerDiarization)
    |>.putIf (p.speakerDiarization ≠ 0 ∧ p.speakerNumber ≠ 0) (ascii "speaker_number")
      (toDec p.speakerNumber)

/-- `if (c) m[k] = text`, where writing the text may throw. -/
def putText (m : Params) (c : Bool) (k : Bytes) (text : Except JsonError Bytes) :
    Except JsonError Params :=
  if c then text.map (m.put k) else .ok m

def toMap (deps : Deps) (p : SignatureParams) : Except JsonError Params := do
  let voiceprint := p.speakerDiarization = kSpeakerDiarizationVoiceprint
  let m ← putText p.plainParams (voiceprint ∧ p.speakerRoles ≠ []) (ascii "speaker_roles")
    (serializeSpeakerRoles deps p.speakerRoles)
  let m ← putText m (voiceprint ∧ p.voiceprintIds ≠ []) (ascii "voiceprintids")
    (serializeStringArray deps p.voiceprintIds)
  return m.putIf (p.language ≠ []) (ascii "language") p.language

def buildQueryString (deps : Deps) (p : SignatureParams) : Except JsonError Bytes :=
  (p.toMap deps).map writeQuery

def buildQueryStringWithSignature (deps : Deps) (p : SignatureParams) (userSig : Bytes) :
    Except JsonError Bytes :=
  (p.toMap deps).map fun params =>
    writeQuery ((params.put (ascii "signature") userSig).put (ascii "usersig") userSig)

end SignatureParams

/-! ## Escaping -/

theorem unreserved_plain : ∀ c, isUnreserved c → c ≠ 0x25 ∧ c ≠ 0x2B ∧ c ≠ 0x26 ∧ c ≠ 0x3D :=
  forall_byte (by decide +kernel)

theorem hexPair_kHex (c : UInt8) :
    hexPair (kHex (c.toNat / 16)) (kHex (c.toNat % 16)) = some c :=
  forall_byte (p := fun c => hexPair (kHex (c.toNat / 16)) (kHex (c.toNat % 16)) = some c)
    (by decide +kernel) c

theorem unreserved_kHex (c : UInt8) :
    isUnreserved (kHex (c.toNat / 16)) ∧ isUnreserved (kHex (c.toNat % 16)) :=
  forall_byte (p := fun c => isUnreserved (kHex (c.toNat / 16)) ∧ isUnreserved (kHex (c.toNat % 16)))
    (by decide +kernel) c

/-- **Unescaping undoes escaping.** -/
theorem queryUnescape_queryEscape (s : Bytes) : queryUnescape (queryEscape s) = some s := by
  induction s with
  | nil => rfl
  | cons c s ih =>
    rw [queryEscape, List.flatMap_cons, ← queryEscape]
    split
    · rename_i hc
      obtain ⟨hpct, hplus, -⟩ := unreserved_plain c hc
      rw [List.singleton_append, queryUnescape_cons hpct, ih, if_neg hplus]
      rfl
    split
    · rename_i hspace
      rw [List.singleton_append, queryUnescape_cons (by decide), ih, hspace]
      rfl
    · have hun : queryUnescape (0x25 :: kHex (c.toNat / 16) :: kHex (c.toNat % 16) :: queryEscape s) =
          (hexPair (kHex (c.toNat / 16)) (kHex (c.toNat % 16))).bind fun c =>
            (queryUnescape (queryEscape s)).map (c :: ·) := rfl
      rw [List.cons_append, List.cons_append, List.singleton_append, hun, hexPair_kHex, ih]
      rfl

/-- The characters of an escaped value. -/
theorem mem_queryEscape {b : UInt8} {s : Bytes} (h : b ∈ queryEscape s) :
    isUnreserved b ∨ b = 0x25 ∨ b = 0x2B := by
  obtain ⟨c, -, hb⟩ := List.mem_flatMap.1 h
  split at hb
  · rename_i hc
    rw [List.mem_singleton.1 hb]
    exact .inl hc
  split at hb
  · exact .inr (.inr (List.mem_singleton.1 hb))
  · obtain ⟨hhi, hlo⟩ := unreserved_kHex c
    simp only [List.mem_cons, List.not_mem_nil, or_false] at hb
    rcases hb with rfl | rfl | rfl
    · exact .inr (.inl rfl)
    · exact .inl hhi
    · exact .inl hlo

/-! ## What the map holds -/

/-- A name that needs no escaping, and is not one of the two signatures. -/
def IsName (k : Bytes) : Prop :=
  (∀ b ∈ k, isUnreserved b) ∧ k ≠ ascii "signature" ∧ k ≠ ascii "usersig"

instance (k : Bytes) : Decidable (IsName k) :=
  decidable_of_iff (k.all isUnreserved ∧ k ≠ ascii "signature" ∧ k ≠ ascii "usersig")
    (and_congr List.all_eq_true Iff.rfl)

/-- What the ways to set a parameter preserve. -/
structure WellNamed (m : Params) : Prop where
  nonempty : m.entries ≠ []
  keys : m.Keys IsName

namespace WellNamed

variable {m : Params} {k : Bytes}

theorem put (h : m.Keys IsName) (hk : IsName k) (v : Bytes) : WellNamed (m.put k v) :=
  ⟨List.ne_nil_of_mem (SortedMap.mem_insert_self k v m.entries), h.put hk v⟩

theorem putIf (h : WellNamed m) (hk : IsName k) (c : Bool) (v : Bytes) :
    WellNamed (m.putIf c k v) := by
  cases c with
  | false => exact h
  | true => exact put h.keys hk v

theorem putSome {α : Type} (h : WellNamed m) (hk : IsName k) (o : Option α) (f : α → Bytes) :
    WellNamed (m.putSome o k f) := by
  cases o with
  | none => exact h
  | some a => exact put h.keys hk (f a)

end WellNamed

theorem wellNamed_plainParams (p : SignatureParams) : WellNamed p.plainParams := by
  unfold SignatureParams.plainParams sdkReport
  dsimp only [List.foldl_cons, List.foldl_nil]
  have hfirst : WellNamed ((SortedMap.empty : Params).put (ascii "secretid") (toDec p.appId)) :=
    .put SortedMap.keys_empty (by decide) _
  repeat' first
    | with_reducible exact hfirst
    | with_reducible refine WellNamed.putIf ?_ (by decide) _ _
    | with_reducible refine WellNamed.putSome ?_ (by decide) _ _
    | with_reducible refine WellNamed.put (WellNamed.keys ?_) (by decide) _

theorem wellNamed_putText {m m' : Params} {c : Bool} {k : Bytes} {text : Except JsonError Bytes}
    (hm : WellNamed m) (hk : IsName k) (h : SignatureParams.putText m c k text = .ok m') :
    WellNamed m' := by
  cases c with
  | false => cases h; exact hm
  | true =>
    cases text with
    | error e => cases h
    | ok text => cases h; exact .put hm.keys hk text

theorem wellNamed_toMap {deps : Deps} {p : SignatureParams} {m : Params}
    (h : p.toMap deps = .ok m) : WellNamed m := by
  unfold SignatureParams.toMap at h
  obtain ⟨m₁, h₁, h⟩ := bind_eq_ok.1 h
  obtain ⟨m₂, h₂, h⟩ := bind_eq_ok.1 h
  cases h
  have hm₁ := wellNamed_putText (wellNamed_plainParams p) (by decide) h₁
  exact (wellNamed_putText hm₁ (by decide) h₂).putIf (by decide) _ _

/-! ## The round trip -/

/-- The loop of the two builders joins the entries. -/
theorem writeQuery_eq (params : Params) :
    writeQuery params = joinPairs queryEscape params.entries := by
  have hamp : ascii "&" = [0x26] := rfl
  have heq : ascii "=" = [0x3D] := rfl
  have hnext : ∀ (l : List (Bytes × Bytes)) (out : Bytes), out ≠ [] →
      l.foldl (fun out p => (if out ≠ [] then out ++ ascii "&" else out) ++ p.1 ++ ascii "=" ++
        queryEscape p.2) out = out ++ l.flatMap fun p => 0x26 :: (p.1 ++ 0x3D :: queryEscape p.2) := by
    intro l
    induction l with
    | nil => intro out _; simp
    | cons p l ih =>
      intro out hout
      rw [List.foldl_cons, if_pos hout, ih _ (by simp [hout]), List.flatMap_cons]
      simp [hamp, heq]
  unfold writeQuery
  cases params.entries with
  | nil => rfl
  | cons p l =>
    rw [List.foldl_cons, if_neg (not_not.2 rfl), hnext l _ (by simp [heq]), joinPairs_cons]
    simp [heq]

/-- The characters of a query. -/
def IsQueryByte (b : UInt8) : Prop :=
  isUnreserved b ∨ b = 0x25 ∨ b = 0x2B ∨ b = 0x26 ∨ b = 0x3D

/-- A query that is read as the entries of `params`. -/
structure Carries (q : Bytes) (params : Params) : Prop where
  reads : readPairs q = some params.entries
  bytes : ∀ b ∈ q, IsQueryByte b

theorem carries_writeQuery {params : Params} (hne : params.entries ≠ [])
    (hkeys : params.Keys fun k => ∀ b ∈ k, isUnreserved b) : Carries (writeQuery params) params := by
  rw [writeQuery_eq]
  constructor
  · refine readPairs_joinPairs (fun v => ⟨fun hm => ?_, queryUnescape_queryEscape v⟩) hne ?_
    · rcases mem_queryEscape hm with h | h | h
      · exact (unreserved_plain _ h).2.2.1 rfl
      · cases h
      · cases h
    · intro x hx
      exact ⟨fun hm => (unreserved_plain _ (hkeys x hx _ hm)).2.2.2 rfl,
        fun hm => (unreserved_plain _ (hkeys x hx _ hm)).2.2.1 rfl⟩
  · intro b hb
    rcases mem_joinPairs hb with h | h | ⟨x, hx, h | h⟩
    · exact .inr (.inr (.inr (.inl h)))
    · exact .inr (.inr (.inr (.inr h)))
    · exact .inl (hkeys x hx b h)
    · exact (mem_queryEscape h).imp id (Or.imp id .inl)

/-- **The queries carry the map**, for all parameters and every UserSig: unless a JSON text cannot
    be written, when the two builders throw what `ToMap` throws, a server reads from them exactly
    the entries of the map, and the UserSig under two further names, each name once and in
    ascending order. -/
theorem query_round_trip (deps : Deps) (p : SignatureParams) (userSig : Bytes) :
    match p.toMap deps with
    | .error e => p.buildQueryString deps = .error e ∧
        p.buildQueryStringWithSignature deps userSig = .error e
    | .ok m => ∃ q qs, p.buildQueryString deps = .ok q ∧
        p.buildQueryStringWithSignature deps userSig = .ok qs ∧ Carries q m ∧
        ∃ ms : Params, Carries qs ms ∧ ∀ x, x ∈ ms.entries ↔ x ∈ m.entries ∨
          x = (ascii "signature", userSig) ∨ x = (ascii "usersig", userSig) := by
  unfold SignatureParams.buildQueryString SignatureParams.buildQueryStringWithSignature
  cases hm : p.toMap deps with
  | error e => exact ⟨rfl, rfl⟩
  | ok m =>
    obtain ⟨hne, hkeys⟩ := wellNamed_toMap hm
    have hplain : m.Keys fun k => ∀ b ∈ k, isUnreserved b := fun x hx => (hkeys x hx).1
    refine ⟨_, _, rfl, rfl, carries_writeQuery hne hplain, _, carries_writeQuery ?_ ?_, fun x => ?_⟩
    · exact List.ne_nil_of_mem (SortedMap.mem_insert_self ..)
    · exact (hplain.put (forall_mem_of_all (by decide)) userSig).put
        (forall_mem_of_all (by decide)) userSig
    · rw [SortedMap.mem_put, SortedMap.mem_put]
      constructor
      · rintro (h | ⟨h | ⟨h, -⟩, -⟩)
        · exact .inr (.inr h)
        · exact .inr (.inl h)
        · exact .inl h
      · rintro (h | rfl | rfl)
        · exact .inr ⟨.inr ⟨h, (hkeys x h).2.1⟩, (hkeys x h).2.2⟩
        · exact .inr ⟨.inl rfl, (by decide : ascii "signature" ≠ ascii "usersig")⟩
        · exact .inl rfl

end TrtcAsr.V2
