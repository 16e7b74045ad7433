/-
  Which options of a v2 streaming session its query tells apart (signature_params.cc, `ToMap`).

  * `effective`: the options without those that the chosen mode leaves out, and without the noise
    threshold, which is written to three decimals;
  * `fields`: the parameters in the order in which they are set, with those that are not set;
  * `toMap_eq_iff_agree`: two maps are equal exactly when the effective options are;
  * `signs_and_thresholds_collide`: two kinds of options that no query tells apart.
-/
import TrtcAsr.Lib.Numeral
import TrtcAsr.Lib.Utf8
import TrtcAsr.V2.SignatureParams

namespace TrtcAsr

open V3 (SpeakerRole strings kSpeakerDiarizationVoiceprint)

/-- The library writes two values as one text only if they are the same value. -/
def Deps.Separates (deps : Deps) (j j' : Json) : Prop :=
  ∀ text, deps.dump j = .ok text → deps.dump j' = .ok text → j = j'

namespace V2

namespace SignatureParams

/-- The options that are effective in the mode that they choose, the noise threshold apart. -/
def effective (p : SignatureParams) : SignatureParams :=
  { p with
    sdkAppId := if p.sdkAppId > 0 then p.sdkAppId else 0
    noiseThreshold := none
    speakerContextId := if p.enableSpeakerContext ≠ 0 then p.speakerContextId else []
    speakerNumber := if p.speakerDiarization ≠ 0 then p.speakerNumber else 0
    speakerRoles :=
      if p.speakerDiarization = kSpeakerDiarizationVoiceprint then p.speakerRoles else []
    voiceprintIds :=
      if p.speakerDiarization = kSpeakerDiarizationVoiceprint then p.voiceprintIds else [] }

/-- The same effective options, and the same threshold to three decimals. -/
def Agree (p q : SignatureParams) : Prop :=
  p.effective = q.effective ∧
    p.noiseThreshold.map (Binary64.toFixed 3) = q.noiseThreshold.map (Binary64.toFixed 3)

/-- The text of the threshold fits into the buffer that it is written to. -/
def FitsBuffer (x : Binary64) : Prop := (x.toFixed 3).length ≤ 31

instance (x : Binary64) : Decidable (FitsBuffer x) := Nat.decLe _ _

/-- Every threshold that a recognizer accepts fits. -/
theorem fitsBuffer_of_within {x : Binary64} (h : x.within 0 4) : FitsBuffer x := by
  unfold Binary64.within at h
  rw [Bool.and_eq_true, Bool.and_eq_true, decide_eq_true_iff, decide_eq_true_iff] at h
  obtain ⟨⟨hfinite, hlow⟩, hhigh⟩ := h
  unfold FitsBuffer Binary64.toFixed
  simp only [hfinite, if_true]
  refine (length_ascii_le _).trans ?_
  generalize hn : x.scaled.natAbs * 10 ^ 3 = n
  have hq : n / 2 ^ 1074 ≤ 4000 := by
    refine Nat.div_le_of_le_mul ?_
    rw [← hn]
    omega
  generalize hq' : (if 2 ^ 1073 < n % 2 ^ 1074 ∨ n % 2 ^ 1074 = 2 ^ 1073 ∧ n / 2 ^ 1074 % 2 = 1 then
    n / 2 ^ 1074 + 1 else n / 2 ^ 1074) = q
  have hqle : q ≤ 4001 := by
    rw [← hq']
    split
    · omega
    · omega
  have hunits : (toString (q / 10 ^ 3)).length ≤ 1 :=
    (Nat.length_repr_le_iff Nat.one_pos).2 (by omega)
  have hdecimals : (toString (q % 10 ^ 3)).length ≤ 3 :=
    (Nat.length_repr_le_iff (by omega)).2 (by omega)
  have hsign : (if x.negative then "-" else "").length ≤ 1 := by
    split
    · exact Nat.le_refl 1
    · exact Nat.zero_le 1
  have hdot : ".".length = 1 := rfl
  have hempty : "".length = 0 := rfl
  simp only [String.length_append, String.length_pushn, hdot, hempty]
  omega

/-! ## The parameters as a list -/

def sendIf (c : Prop) [Decidable c] (text : Bytes) : Option Bytes := if c then some text else none

/-- The parameters in their order, with the texts of the voiceprints. -/
def fields (p : SignatureParams) (roles ids : Option Bytes) : List (Bytes × Option Bytes) :=
  [(ascii "secretid", some (toDec p.appId)), (ascii "timestamp", some (toDec p.timestamp)),
    (ascii "expired", some (toDec p.expired)), (ascii "nonce", some (toDec p.nonce)),
    (ascii "engine_model_type", some p.engineModelType), (ascii "voice_id", some p.voiceId),
    (ascii "voice_format", some (toDec p.voiceFormat)), (ascii "needvad", some (toDec p.needVad)),
    (ascii "platform", some sdkPlatform), (ascii "sdk_lang", some (ascii "cpp")),
    (ascii "sdk_type", some (ascii "server")), (ascii "version", some (ascii "2.0.0")),
    (ascii "sdkappid", sendIf (p.sdkAppId > 0) (toDec p.sdkAppId)),
    (ascii "hotword_id", sendIf (p.hotwordId ≠ []) p.hotwordId),
    (ascii "hotword_list", sendIf (p.hotwordList ≠ []) p.hotwordList),
    (ascii "customization_id", sendIf (p.customizationId ≠ []) p.customizationId),
    (ascii "replace_text_id", sendIf (p.replaceTextId ≠ []) p.replaceTextId),
    (ascii "filter_dirty", sendIf (p.filterDirty ≠ 0) (toDec p.filterDirty)),
    (ascii "filter_modal", sendIf (p.filterModal ≠ 0) (toDec p.filterModal)),
    (ascii "filter_punc", sendIf (p.filterPunc ≠ 0) (toDec p.filterPunc)),
    (ascii "filter_empty_result", p.filterEmptyResult.map toDec),
    (ascii "convert_num_mode", sendIf (p.convertNumMode ≠ 0) (toDec p.convertNumMode)),
    (ascii "word_info", sendIf (p.wordInfo ≠ 0) (toDec p.wordInfo)),
    (ascii "vad_silence_time", sendIf (p.vadSilenceTime ≠ 0) (toDec p.vadSilenceTime)),
    (ascii "max_speak_time", sendIf (p.maxSpeakTime ≠ 0) (toDec p.maxSpeakTime)),
    (ascii "input_sample_rate", sendIf (p.inputSampleRate ≠ 0) (toDec p.inputSampleRate)),
    (ascii "vad_level", p.vadLevel.map toDec),
    (ascii "noise_threshold", p.noiseThreshold.map noiseThresholdText),
    (ascii "enable_speaker_context",
      sendIf (p.enableSpeakerContext ≠ 0) (toDec p.enableSpeakerContext)),
    (ascii "speaker_context_id",
      sendIf (p.enableSpeakerContext ≠ 0 ∧ p.speakerContextId ≠ []) p.speakerContextId),
    (ascii "speaker_diarization", sendIf (p.speakerDiarization ≠ 0) (toDec p.speakerDiarization)),
    (ascii "speaker_number",
      sendIf (p.speakerDiarization ≠ 0 ∧ p.speakerNumber ≠ 0) (toDec p.speakerNumber)),
    (ascii "speaker_roles", roles), (ascii "voiceprintids", ids),
    (ascii "language", sendIf (p.language ≠ []) p.language)]

/-- No parameter is set twice. -/
theorem nodup_fields (p : SignatureParams) (roles ids : Option Bytes) :
    ((p.fields roles ids).map Prod.fst).Nodup := by
  simp only [fields, List.map_cons, List.map_nil]
  decide

/-- A text that is written when a condition holds. -/
def sendText (c : Bool) (text : Except JsonError Bytes) : Except JsonError (Option Bytes) :=
  if c then text.map some else .ok none

theorem putText_eq (m : Params) (c : Bool) (k : Bytes) (text : Except JsonError Bytes) :
    putText m c k text = (sendText c text).map fun o => m.putSome o k id := by
  cases c with
  | false => rfl
  | true =>
    cases text with
    | error e => rfl
    | ok t => rfl

def rolesText (deps : Deps) (p : SignatureParams) : Except JsonError (Option Bytes) :=
  sendText (p.speakerDiarization = kSpeakerDiarizationVoiceprint ∧ p.speakerRoles ≠ [])
    (serializeSpeakerRoles deps p.speakerRoles)

def idsText (deps : Deps) (p : SignatureParams) : Except JsonError (Option Bytes) :=
  sendText (p.speakerDiarization = kSpeakerDiarizationVoiceprint ∧ p.voiceprintIds ≠ [])
    (serializeStringArray deps p.voiceprintIds)

/-- **The map is the list of parameters**, set one after the other. -/
theorem toMap_eq (deps : Deps) (p : SignatureParams) :
    p.toMap deps = (do
      let roles ← p.rolesText deps
      let ids ← p.idsText deps
      return SortedMap.empty.putAll (p.fields roles ids)) := by
  unfold toMap rolesText idsText
  simp only [putText_eq]
  cases sendText (p.speakerDiarization = kSpeakerDiarizationVoiceprint ∧ p.speakerRoles ≠ [])
    (serializeSpeakerRoles deps p.speakerRoles) with
  | error e => rfl
  | ok roles =>
    cases sendText (p.speakerDiarization = kSpeakerDiarizationVoiceprint ∧ p.voiceprintIds ≠ [])
      (serializeStringArray deps p.voiceprintIds) with
    | error e => rfl
    | ok ids =>
      refine congrArg Except.ok ?_
      show SortedMap.putIf (SortedMap.putSome (SortedMap.putSome p.plainParams roles _ id) ids _ id)
        _ _ _ = _
      unfold plainParams sdkReport
      simp only [SortedMap.putIf_eq, decide_eq_true_eq, List.foldl_cons, List.foldl_nil]
      rw [SortedMap.putSome_eq _ p.filterEmptyResult, SortedMap.putSome_eq _ p.vadLevel,
        SortedMap.putSome_eq _ p.noiseThreshold]
      rfl

/-! ## What a parameter tells -/

section

variable {α : Type} {u : α → Bytes} {zero a b : α} {c d : Prop} [Decidable c] [Decidable d]

/-- A value that is not sent stands for `zero`, which is never sent. -/
theorem sendIf_eq_iff (hu : Function.Injective u) (hc : c → a ≠ zero) (hd : d → b ≠ zero) :
    sendIf c (u a) = sendIf d (u b) ↔ (if c then a else zero) = if d then b else zero := by
  unfold sendIf
  by_cases hc' : c
  · by_cases hd' : d
    · rw [if_pos hc', if_pos hd', if_pos hc', if_pos hd', Option.some.injEq]
      exact hu.eq_iff
    · rw [if_pos hc', if_neg hd', if_pos hc', if_neg hd']
      exact iff_of_false (by simp) (hc hc')
  · by_cases hd' : d
    · rw [if_neg hc', if_pos hd', if_neg hc', if_pos hd']
      exact iff_of_false (by simp) (hd hd').symm
    · rw [if_neg hc', if_neg hd', if_neg hc', if_neg hd']
      exact iff_of_true rfl rfl

theorem ite_ne_self [DecidableEq α] : (if a ≠ zero then a else zero) = a := by
  split
  · rfl
  · rename_i h
    exact (not_not.1 h).symm

theorem ite_and_ne [DecidableEq α] :
    (if c ∧ a ≠ zero then a else zero) = if c then a else zero := by
  by_cases h : c
  · simp only [h, true_and, if_true, ite_ne_self]
  · simp only [h, false_and, if_false]

end

theorem sendInt_eq_iff {n m : ℤ} :
    sendIf (n ≠ 0) (toDec n) = sendIf (m ≠ 0) (toDec m) ↔ n = m := by
  rw [sendIf_eq_iff toDec_injective id id, ite_ne_self, ite_ne_self]

theorem sendPos_eq_iff {n m : ℤ} :
    sendIf (n > 0) (toDec n) = sendIf (m > 0) (toDec m) ↔
      (if n > 0 then n else 0) = if m > 0 then m else 0 :=
  sendIf_eq_iff toDec_injective ne_of_gt ne_of_gt

theorem sendStr_eq_iff {s t : Bytes} : sendIf (s ≠ []) s = sendIf (t ≠ []) t ↔ s = t := by
  refine (sendIf_eq_iff (u := id) Function.injective_id id id).trans ?_
  rw [ite_ne_self, ite_ne_self]

theorem sendIntIf_eq_iff {c d : Prop} [Decidable c] [Decidable d] {n m : ℤ} :
    sendIf (c ∧ n ≠ 0) (toDec n) = sendIf (d ∧ m ≠ 0) (toDec m) ↔
      (if c then n else 0) = if d then m else 0 := by
  rw [sendIf_eq_iff toDec_injective And.right And.right, ite_and_ne, ite_and_ne]

theorem sendStrIf_eq_iff {c d : Prop} [Decidable c] [Decidable d] {s t : Bytes} :
    sendIf (c ∧ s ≠ []) s = sendIf (d ∧ t ≠ []) t ↔
      (if c then s else []) = if d then t else [] := by
  refine (sendIf_eq_iff (u := id) Function.injective_id And.right And.right).trans ?_
  rw [ite_and_ne, ite_and_ne]

theorem mapDec_eq_iff {o o' : Option ℤ} : o.map toDec = o'.map toDec ↔ o = o' :=
  (Option.map_injective toDec_injective).eq_iff

/-- The options that are no voiceprints. -/
def plain (p : SignatureParams) : SignatureParams :=
  { p.effective with
    speakerRoles := []
    voiceprintIds := [] }

theorem fields_eq_iff {p q : SignatureParams} {roles ids roles' ids' : Option Bytes} :
    p.fields roles ids = q.fields roles' ids' ↔ p.plain = q.plain ∧
      p.noiseThreshold.map noiseThresholdText = q.noiseThreshold.map noiseThresholdText ∧
      roles = roles' ∧ ids = ids' := by
  simp only [fields, List.cons.injEq, Prod.mk.injEq, true_and, and_true, Option.some.injEq,
    toDec_injective.eq_iff, mapDec_eq_iff, sendPos_eq_iff, sendInt_eq_iff, sendStr_eq_iff,
    sendIntIf_eq_iff, sendStrIf_eq_iff, plain, effective, mk.injEq]
  tauto

/-! ## What the voiceprints tell -/

section

variable {α : Type} {f : List α → Except JsonError Bytes} {c : Prop} [Decidable c] {l l' : List α}

theorem sendText_congr (h : (if c then l else []) = if c then l' else []) :
    sendText (c ∧ l ≠ []) (f l) = sendText (c ∧ l' ≠ []) (f l') := by
  by_cases hc : c
  · rw [if_pos hc, if_pos hc] at h
    rw [h]
  · simp only [sendText, hc, false_and, decide_false, Bool.false_eq_true, if_false]

theorem eq_of_sendText {o : Option Bytes} (h : sendText (c ∧ l ≠ []) (f l) = .ok o)
    (h' : sendText (c ∧ l' ≠ []) (f l') = .ok o)
    (hsep : ∀ text, f l = .ok text → f l' = .ok text → l = l') :
    (if c then l else []) = if c then l' else [] := by
  by_cases hc : c
  · rw [if_pos hc, if_pos hc]
    have hsent : ∀ {l : List α}, sendText (c ∧ l ≠ []) (f l) = .ok o →
        l = [] ∧ o = none ∨ ∃ text, f l = .ok text ∧ o = some text := by
      intro l h
      by_cases hl : l = []
      · refine .inl ⟨hl, ?_⟩
        simp only [sendText, hl, ne_eq, not_true_eq_false, and_false, decide_false,
          Bool.false_eq_true, if_false, Except.ok.injEq] at h
        exact h.symm
      · refine .inr ?_
        simp only [sendText, hc, hl, ne_eq, not_false_eq_true, and_self, decide_true, if_true] at h
        cases hf : f l with
        | error e =>
          rw [hf] at h
          cases h
        | ok text =>
          rw [hf] at h
          cases h
          exact ⟨text, rfl, rfl⟩
    rcases hsent h with ⟨rfl, rfl⟩ | ⟨text, hf, rfl⟩
    · rcases hsent h' with ⟨rfl, -⟩ | ⟨text, -, hnone⟩
      · rfl
      · cases hnone
    · rcases hsent h' with ⟨-, hnone⟩ | ⟨text', hf', htext⟩
      · cases hnone
      · cases htext
        exact hsep text hf hf'
  · rw [if_neg hc, if_neg hc]

end

theorem speakerRoleToWire_injective : Function.Injective speakerRoleToWire := by
  intro role role' h
  change Json.obj [("AudioUrl", .str role.audioUrl), ("RoleName", .str role.roleName)] =
    .obj [("AudioUrl", .str role'.audioUrl), ("RoleName", .str role'.roleName)] at h
  simp only [Json.obj.injEq, List.cons.injEq, Prod.mk.injEq, Json.str.injEq, true_and,
    and_true] at h
  obtain ⟨hurl, hname⟩ := h
  cases role
  cases role'
  exact congrArg₂ SpeakerRole.mk hname hurl

theorem roles_eq_of_separates {deps : Deps} {roles roles' : List SpeakerRole} {text : Bytes}
    (hsep : deps.Separates (.arr (roles.map speakerRoleToWire))
      (.arr (roles'.map speakerRoleToWire)))
    (h : serializeSpeakerRoles deps roles = .ok text)
    (h' : serializeSpeakerRoles deps roles' = .ok text) : roles = roles' :=
  List.map_injective_iff.2 speakerRoleToWire_injective (Json.arr.inj (hsep text h h'))

theorem ids_eq_of_separates {deps : Deps} {ids ids' : List Bytes} {text : Bytes}
    (hsep : deps.Separates (strings ids) (strings ids'))
    (h : serializeStringArray deps ids = .ok text)
    (h' : serializeStringArray deps ids' = .ok text) : ids = ids' :=
  List.map_injective_iff.2 (fun _ _ => Json.str.inj) (Json.arr.inj (hsep text h h'))

/-! ## The maps of two sessions -/

theorem effective_eq_iff {p q : SignatureParams} :
    p.effective = q.effective ↔ p.plain = q.plain ∧
      p.effective.speakerRoles = q.effective.speakerRoles ∧
      p.effective.voiceprintIds = q.effective.voiceprintIds := by
  simp only [plain, effective, mk.injEq]
  tauto

theorem speakerDiarization_of_plain {p q : SignatureParams} (h : p.plain = q.plain) :
    p.speakerDiarization = q.speakerDiarization := by
  have hmode := congrArg (fun r : SignatureParams => r.speakerDiarization) h
  exact hmode

/-- The texts that are sent are whole. -/
theorem threshold_of_fitsBuffer {o o' : Option Binary64} (ho : ∀ x ∈ o, FitsBuffer x)
    (ho' : ∀ x ∈ o', FitsBuffer x) (h : o.map noiseThresholdText = o'.map noiseThresholdText) :
    o.map (Binary64.toFixed 3) = o'.map (Binary64.toFixed 3) := by
  have hwhole : ∀ {o : Option Binary64}, (∀ x ∈ o, FitsBuffer x) →
      o.map noiseThresholdText = o.map (Binary64.toFixed 3) :=
    fun ho => Option.map_congr fun x hx => List.take_of_length_le (ho x hx)
  rw [← hwhole ho, ← hwhole ho', h]

theorem agree_of_toMap {deps : Deps} {p q : SignatureParams} {m : Params}
    (hroles : deps.Separates (.arr (p.speakerRoles.map speakerRoleToWire))
      (.arr (q.speakerRoles.map speakerRoleToWire)))
    (hids : deps.Separates (strings p.voiceprintIds) (strings q.voiceprintIds))
    (hp : ∀ x ∈ p.noiseThreshold, FitsBuffer x) (hq : ∀ x ∈ q.noiseThreshold, FitsBuffer x)
    (h : p.toMap deps = .ok m) (h' : q.toMap deps = .ok m) : Agree p q := by
  rw [toMap_eq] at h h'
  obtain ⟨roles, hr, h⟩ := bind_eq_ok.1 h
  obtain ⟨ids, hi, h⟩ := bind_eq_ok.1 h
  obtain ⟨roles', hr', h'⟩ := bind_eq_ok.1 h'
  obtain ⟨ids', hi', h'⟩ := bind_eq_ok.1 h'
  have hfields : p.fields roles ids = q.fields roles' ids' :=
    SortedMap.putAll_injective rfl (p.nodup_fields roles ids)
      (Except.ok.inj (h.trans h'.symm))
  obtain ⟨hplain, hnoise, rfl, rfl⟩ := fields_eq_iff.1 hfields
  have hmode := speakerDiarization_of_plain hplain
  refine ⟨effective_eq_iff.2 ⟨hplain, ?_, ?_⟩, threshold_of_fitsBuffer hp hq hnoise⟩
  · unfold rolesText at hr hr'
    rw [← hmode] at hr'
    simp only [effective, ← hmode]
    exact eq_of_sendText hr hr' fun text => roles_eq_of_separates hroles
  · unfold idsText at hi hi'
    rw [← hmode] at hi'
    simp only [effective, ← hmode]
    exact eq_of_sendText hi hi' fun text => ids_eq_of_separates hids

/-- Nothing but the effective options and the text of the threshold is in the map. -/
theorem toMap_congr {p q : SignatureParams} (deps : Deps) (h : p.effective = q.effective)
    (htext : p.noiseThreshold.map noiseThresholdText = q.noiseThreshold.map noiseThresholdText) :
    p.toMap deps = q.toMap deps := by
  obtain ⟨hplain, hroles, hids⟩ := effective_eq_iff.1 h
  have hmode := speakerDiarization_of_plain hplain
  simp only [effective, ← hmode] at hroles hids
  have hrolesText : p.rolesText deps = q.rolesText deps := by
    unfold rolesText
    rw [← hmode]
    exact sendText_congr hroles
  have hidsText : p.idsText deps = q.idsText deps := by
    unfold idsText
    rw [← hmode]
    exact sendText_congr hids
  have hfields : ∀ roles ids, p.fields roles ids = q.fields roles ids :=
    fun roles ids => fields_eq_iff.2 ⟨hplain, htext, rfl, rfl⟩
  simp only [toMap_eq, hrolesText, hidsText, hfields]

theorem toMap_of_agree {p q : SignatureParams} (deps : Deps) (h : Agree p q) :
    p.toMap deps = q.toMap deps := by
  refine toMap_congr deps h.1 ?_
  have hcut := congrArg (Option.map (List.take 31)) h.2
  rwa [Option.map_map, Option.map_map] at hcut

/-- **No two effective options collide.**  Of two sessions whose thresholds fit into the buffer, and
    for a library that writes no two of their lists as one text: when the maps are equal, so are the
    effective options; when the effective options are equal, so are the maps. -/
theorem toMap_eq_iff_agree (deps : Deps) (p q : SignatureParams)
    (hroles : deps.Separates (.arr (p.speakerRoles.map speakerRoleToWire))
      (.arr (q.speakerRoles.map speakerRoleToWire)))
    (hids : deps.Separates (strings p.voiceprintIds) (strings q.voiceprintIds))
    (hp : ∀ x ∈ p.noiseThreshold, FitsBuffer x) (hq : ∀ x ∈ q.noiseThreshold, FitsBuffer x) :
    (∀ m, p.toMap deps = .ok m → q.toMap deps = .ok m → Agree p q) ∧
      (Agree p q → p.toMap deps = q.toMap deps) :=
  ⟨fun _ h h' => agree_of_toMap hroles hids hp hq h h', toMap_of_agree deps⟩

/-- A session with a voice and an enrolled one, and two options that are zero. -/
def sampleVoices : SignatureParams where
  appId := 1300403317
  timestamp := 0
  expired := 3600
  nonce := 1
  engineModelType := ascii "16k_zh"
  voiceId := ascii "voice-001"
  vadLevel := some 0
  noiseThreshold := some .zero
  speakerDiarization := 3
  speakerRoles := [⟨ascii "host", ascii "https://a/b.wav"⟩]
  voiceprintIds := [ascii "vp"]

/-- The library on the two lists of this session. -/
def sampleVoicesDeps : Deps :=
  { sampleDeps [] with
    dump := fun j => match j with
      | .arr (.obj _ :: _) =>
        .ok (ascii "[\x7b\"AudioUrl\":\"https://a/b.wav\",\"RoleName\":\"host\"\x7d]")
      | _ => .ok (ascii "[\"vp\"]") }

/-- The identifier of a context that is off has no influence; a level that is not set has. -/
theorem toMap_eq_iff_agree_sample :
    sampleVoices.toMap sampleVoicesDeps =
        { sampleVoices with speakerContextId := ascii "ctx" }.toMap sampleVoicesDeps ∧
      ¬ ∃ m, sampleVoices.toMap sampleVoicesDeps = .ok m ∧
        { sampleVoices with vadLevel := none }.toMap sampleVoicesDeps = .ok m := by
  have hfits : ∀ x ∈ sampleVoices.noiseThreshold, FitsBuffer x := by
    rintro _ ⟨⟩
    decide +kernel
  have hsame : ∀ j, sampleVoicesDeps.Separates j j := fun j text _ _ => rfl
  constructor
  · exact (toMap_eq_iff_agree sampleVoicesDeps sampleVoices
      { sampleVoices with speakerContextId := ascii "ctx" } (hsame _) (hsame _) hfits hfits).2
        ⟨rfl, rfl⟩
  · rintro ⟨m, h, h'⟩
    have hagree := (toMap_eq_iff_agree sampleVoicesDeps sampleVoices
      { sampleVoices with vadLevel := none } (hsame _) (hsame _) hfits hfits).1 m h h'
    exact nomatch congrArg (fun r : SignatureParams => r.vadLevel) hagree.1

/-- The numbers 2^100 and 2^100 · 10^20. -/
def sampleThresholds : Binary64 × Binary64 := ⟨⟨0x4630000000000000⟩, ⟨0x4A55AF1D78B58C40⟩⟩

/-- **Two kinds of options collide**: a negative application, which is not sent, with none, and two
    thresholds whose first 31 characters are the same. -/
theorem signs_and_thresholds_collide :
    ({ sampleVoices with sdkAppId := -1 }.toMap sampleVoicesDeps =
        { sampleVoices with sdkAppId := 0 }.toMap sampleVoicesDeps ∧
      ({ sampleVoices with sdkAppId := 0 }.toMap sampleVoicesDeps).isOk) ∧
    { sampleVoices with noiseThreshold := some sampleThresholds.1 }.toMap sampleVoicesDeps =
        { sampleVoices with noiseThreshold := some sampleThresholds.2 }.toMap sampleVoicesDeps ∧
      ({ sampleVoices with noiseThreshold := some sampleThresholds.1 }.toMap
        sampleVoicesDeps).isOk ∧
      sampleThresholds.1.toFixed 3 ≠ sampleThresholds.2.toFixed 3 :=
  ⟨⟨toMap_congr sampleVoicesDeps rfl rfl, rfl⟩,
    toMap_congr sampleVoicesDeps rfl (by decide +kernel), rfl, by decide +kernel⟩

end SignatureParams

end V2

end TrtcAsr
