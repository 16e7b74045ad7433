/-
  The setters of a v3 streaming session (v3.h, v3.cc) and what its start frame makes of them.

  * `configure`: the options after a sequence of calls; `last`: the value passed last to a setter;
  * `Faithful`: the `params` block, read by the field names of the README, gives these values back;
    a field is absent only for a setter that was not called, for an off value, or where it does not
    apply;
  * `start_frame_faithful`: so for every sequence of calls with valid options, and the frame that
    `Start` sends is within its limit;
  * `passed_values_lost`: the values that do not come back.
-/
import TrtcAsr.V3.Start
import TrtcAsr.V3.WireFormat

namespace TrtcAsr.V3

/-! ## The setters -/

/-- The setters of an `int`. -/
inductive IntOption where
  | voiceFormat
  | needVad
  | convertNumMode
  | filterDirty
  | filterModal
  | filterPunc
  | filterEmptyResult
  | wordInfo
  | wordWithSpace
  | vadSilenceTime
  | vadLevel
  | maxSpeakTime
  | inputSampleRate
  | speakerDiarization
  | speakerNumber
  | enableSpeakerContext
  deriving DecidableEq, Repr

/-- The setters of a string that is an option. -/
inductive TextOption where
  | hotwordId
  | hotwordList
  | language
  | speakerContextId
  deriving DecidableEq, Repr

/-- A call of a setter; those of the two timeouts write nothing that the frame is made of. -/
inductive Setter where
  | endpoint (endpoint : Bytes)
  | int (k : IntOption) (n : ℤ)
  | text (k : TextOption) (s : Bytes)
  | noiseThreshold (threshold : Binary64)
  | speakerRoles (roles : List SpeakerRole)
  | voiceprintIds (ids : List Bytes)
  | voiceId (id : Bytes)
  deriving DecidableEq, Repr

def IntOption.set (o : SpeechOptions) (n : ℤ) : IntOption → SpeechOptions
  | voiceFormat => { o with voiceFormat := n }
  | needVad => { o with needVad := n }
  | convertNumMode => { o with convertNumMode := n }
  | filterDirty => { o with filterDirty := n }
  | filterModal => { o with filterModal := n }
  | filterPunc => { o with filterPunc := n }
  | filterEmptyResult => { o with filterEmptyResult := some n }
  | wordInfo => { o with wordInfo := n }
  | wordWithSpace => { o with wordWithSpace := n }
  | vadSilenceTime => { o with vadSilenceTime := n }
  | vadLevel => { o with vadLevel := some n }
  | maxSpeakTime => { o with maxSpeakTime := n }
  | inputSampleRate => { o with inputSampleRate := n }
  | speakerDiarization => { o with speakerDiarization := n }
  | speakerNumber => { o with speakerNumber := n }
  | enableSpeakerContext => { o with enableSpeakerContext := n }

/-- What is stored of a string; `SetSpeakerContextId` trims it. -/
def TextOption.stored (s : Bytes) : TextOption → Bytes
  | speakerContextId => trim s
  | _ => s

def TextOption.set (o : SpeechOptions) (s : Bytes) : TextOption → SpeechOptions
  | hotwordId => { o with hotwordId := s }
  | hotwordList => { o with hotwordList := s }
  | language => { o with language := s }
  | speakerContextId => { o with speakerContextId := trim s }

def SpeechOptions.call (o : SpeechOptions) : Setter → SpeechOptions
  | .endpoint endpoint => { o with endpoint }
  | .int k n => k.set o n
  | .text k s => k.set o s
  | .noiseThreshold threshold => { o with noiseThreshold := some threshold }
  | .speakerRoles roles => { o with speakerRoles := roles }
  | .voiceprintIds ids => { o with voiceprintIds := ids }
  | .voiceId id => { o with voiceId := id }

/-- The options of a `SpeechRecognizer` after the calls. -/
def configure (credential : Credential) (engineModelType : Bytes) (calls : List Setter) :
    SpeechOptions :=
  calls.foldl SpeechOptions.call { credential, engineModelType }

/-! ## The value passed last -/

/-- The last value that `pick` finds in a list. -/
def last {β α : Type} (pick : β → Option α) : List β → Option α
  | [] => none
  | s :: l => (last pick l).or (pick s)

section

variable {σ β α γ : Type} {pick : β → Option α}

/-- What a state holds is the value that was written last, where each step writes what `pick`
    finds in it. -/
theorem foldl_eq_last {step : σ → β → σ} {get : σ → Option α}
    (h : ∀ o s, get (step o s) = (pick s).or (get o)) (l : List β) (o : σ) :
    get (l.foldl step o) = (last pick l).or (get o) := by
  induction l generalizing o with
  | nil => rfl
  | cons s l ih => rw [List.foldl_cons, ih, h, last, Option.or_assoc]

theorem last_map (f : α → γ) (l : List β) :
    last (fun s => (pick s).map f) l = (last pick l).map f := by
  induction l with
  | nil => rfl
  | cons s l ih => rw [last, last, ih, Option.map_or]

end

def Setter.intAt (k : IntOption) : Setter → Option ℤ
  | int k' n => if k' = k then some n else none
  | _ => none

def Setter.textAt (k : TextOption) : Setter → Option Bytes
  | text k' s => if k' = k then some s else none
  | _ => none

def Setter.thresholdAt : Setter → Option Binary64
  | noiseThreshold threshold => some threshold
  | _ => none

def Setter.rolesAt : Setter → Option (List SpeakerRole)
  | speakerRoles roles => some roles
  | _ => none

def Setter.idsAt : Setter → Option (List Bytes)
  | voiceprintIds ids => some ids
  | _ => none

def Setter.voiceIdAt : Setter → Option Bytes
  | voiceId id => some id
  | _ => none

/-! ## What the calls leave -/

/-- The value of an option, if it has one. -/
def IntOption.get (o : SpeechOptions) : IntOption → Option ℤ
  | voiceFormat => some o.voiceFormat
  | needVad => some o.needVad
  | convertNumMode => some o.convertNumMode
  | filterDirty => some o.filterDirty
  | filterModal => some o.filterModal
  | filterPunc => some o.filterPunc
  | filterEmptyResult => o.filterEmptyResult
  | wordInfo => some o.wordInfo
  | wordWithSpace => some o.wordWithSpace
  | vadSilenceTime => some o.vadSilenceTime
  | vadLevel => o.vadLevel
  | maxSpeakTime => some o.maxSpeakTime
  | inputSampleRate => some o.inputSampleRate
  | speakerDiarization => some o.speakerDiarization
  | speakerNumber => some o.speakerNumber
  | enableSpeakerContext => some o.enableSpeakerContext

def TextOption.get (o : SpeechOptions) : TextOption → Bytes
  | hotwordId => o.hotwordId
  | hotwordList => o.hotwordList
  | language => o.language
  | speakerContextId => o.speakerContextId

/-- A setter changes its own option and no other. -/
theorem IntOption.get_set (k k' : IntOption) (o : SpeechOptions) (n : ℤ) :
    k.get (k'.set o n) = if k' = k then some n else k.get o := by
  cases k'
  all_goals
    cases k
    all_goals rfl

theorem IntOption.get_call (k : IntOption) (o : SpeechOptions) (s : Setter) :
    k.get (o.call s) = (s.intAt k).or (k.get o) := by
  cases s with
  | int k' n =>
    refine (k.get_set k' o n).trans ?_
    by_cases h : k' = k
    · rw [if_pos h, Setter.intAt, if_pos h, Option.some_or]
    · rw [if_neg h, Setter.intAt, if_neg h, Option.none_or]
  | text k' s =>
    cases k'
    all_goals
      cases k
      all_goals rfl
  | _ =>
    cases k
    all_goals rfl

theorem TextOption.get_call (k : TextOption) (o : SpeechOptions) (s : Setter) :
    some (k.get (o.call s)) = ((s.textAt k).map k.stored).or (some (k.get o)) := by
  cases s with
  | text k' s =>
    cases k'
    all_goals
      cases k
      all_goals rfl
  | int k' n =>
    cases k'
    all_goals
      cases k
      all_goals rfl
  | _ =>
    cases k
    all_goals rfl

/-- The other setters change their own members and no others. -/
theorem SpeechOptions.call_others (o : SpeechOptions) (s : Setter) :
    (o.call s).noiseThreshold = s.thresholdAt.or o.noiseThreshold ∧
      some (o.call s).speakerRoles = s.rolesAt.or (some o.speakerRoles) ∧
      some (o.call s).voiceprintIds = s.idsAt.or (some o.voiceprintIds) ∧
      some (o.call s).voiceId = s.voiceIdAt.or (some o.voiceId) := by
  cases s with
  | int k n =>
    cases k
    all_goals exact ⟨rfl, rfl, rfl, rfl⟩
  | text k s =>
    cases k
    all_goals exact ⟨rfl, rfl, rfl, rfl⟩
  | _ => exact ⟨rfl, rfl, rfl, rfl⟩

/-! ## The documented fields -/

/-- The name of an option in the README. -/
def IntOption.field : IntOption → String
  | voiceFormat => "voice_format"
  | needVad => "needvad"
  | convertNumMode => "convert_num_mode"
  | filterDirty => "filter_dirty"
  | filterModal => "filter_modal"
  | filterPunc => "filter_punc"
  | filterEmptyResult => "filter_empty_result"
  | wordInfo => "word_info"
  | wordWithSpace => "word_with_space"
  | vadSilenceTime => "vad_silence_time"
  | vadLevel => "vad_level"
  | maxSpeakTime => "max_speak_time"
  | inputSampleRate => "input_sample_rate"
  | speakerDiarization => "speaker_diarization"
  | speakerNumber => "speaker_number"
  | enableSpeakerContext => "enable_speaker_context"

def TextOption.field : TextOption → String
  | hotwordId => "hotword_id"
  | hotwordList => "hotword_list"
  | language => "language"
  | speakerContextId => "speaker_context_id"

/-- The options of which the README says that an explicit 0 has a meaning, besides
    `noise_threshold`. -/
def triState : List IntOption :=
  [.needVad, .vadSilenceTime, .vadLevel, .inputSampleRate, .convertNumMode, .filterEmptyResult]

/-- Those of them whose 0 `Connect` takes for unset. -/
def zeroIsUnset : List IntOption := [.vadSilenceTime, .inputSampleRate]

/-- A value that needs no field: the 0 of an option that is not tri-state, or whose 0 is taken for
    unset, and the number of speakers without diarization. -/
def IntOption.Off (o : SpeechOptions) (k : IntOption) (n : ℤ) : Prop :=
  n = 0 ∧ (k ∉ triState ∨ k ∈ zeroIsUnset) ∨ k = .speakerNumber ∧ o.speakerDiarization = 0

/-- An empty string needs no field, and neither has the context without its mode. -/
def TextOption.Off (o : SpeechOptions) (k : TextOption) (s : Bytes) : Prop :=
  s = [] ∨ k = .speakerContextId ∧ o.enableSpeakerContext = 0

/-- A field that is there gives a value back; it is absent only if there is no value, or the value
    is off. -/
def GivesBack {α : Type} (get : Json → Option α) (off : α → Prop) (field : Option Json)
    (value : Option α) : Prop :=
  match field with
  | some j => ∀ v ∈ value, get j = some v
  | none => ∀ v ∈ value, off v

/-- The `params` block gives back what was passed last. -/
structure Faithful (calls : List Setter) (o : SpeechOptions) (params : Members) : Prop where
  int : ∀ k : IntOption, GivesBack readInt (k.Off o) (params.lookup k.field)
    (last (Setter.intAt k) calls)
  text : ∀ k : TextOption, GivesBack Json.getStr (k.Off o) (params.lookup k.field)
    ((last (Setter.textAt k) calls).map k.stored)
  noiseThreshold : GivesBack readFloat (fun _ => False) (params.lookup "noise_threshold")
    (last Setter.thresholdAt calls)
  speakerRoles : GivesBack (readList SpeakerRole.ofWire) (· = []) (params.lookup "speaker_roles")
    (last Setter.rolesAt calls)
  voiceprintIds : GivesBack (readList Json.getStr) (· = []) (params.lookup "voiceprint_ids")
    (last Setter.idsAt calls)
  voiceId : ∀ id ∈ last Setter.voiceIdAt calls, id ≠ [] →
    params.lookup "voice_id" = some (.str id)

/-! ## The fields of the frame -/

section

variable {α : Type} {get : Json → Option α} {off : α → Prop} {field : Option Json}
  {value value' : Option α}

theorem GivesBack.mono (h : GivesBack get off field value) (hv : ∀ v ∈ value', v ∈ value) :
    GivesBack get off field value' := by
  cases field with
  | none => exact fun v hmem => h v (hv v hmem)
  | some j => exact fun v hmem => h v (hv v hmem)

/-- A field that is always sent. -/
theorem givesBack_some {a : α} {j : Json} (h : get j = some a) :
    GivesBack get off (some j) (some a) := by
  rintro _ ⟨⟩
  exact h

/-- A field that is sent when a condition holds. -/
theorem givesBack_ite {c : Bool} {a : α} {j : Json} (h : get j = some a)
    (hoff : c = false → off a) :
    GivesBack get off (if c then some j else none) (some a) := by
  cases c with
  | false =>
    rintro _ ⟨⟩
    exact hoff rfl
  | true => exact givesBack_some h

/-- A field that is sent when the option has a value. -/
theorem givesBack_map {v : α → Json} (h : ∀ a, get (v a) = some a) (o : Option α) :
    GivesBack get off ((o.map v).or none) o := by
  cases o with
  | none => exact nofun
  | some a => exact givesBack_some (h a)

end

variable {o : SpeechOptions} {voiceId : Bytes}

theorem givesBack_int (k : IntOption) :
    GivesBack readInt (k.Off o) ((o.params voiceId).lookup k.field) (k.get o) := by
  have hzero : ∀ {k : IntOption} {n : ℤ}, k ∉ triState ∨ k ∈ zeroIsUnset →
      decide (n ≠ 0) = false → k.Off o n :=
    fun hk hn => .inl ⟨not_not.1 (of_decide_eq_false hn), hk⟩
  unfold SpeechOptions.params
  cases k
  all_goals
    simp only [IntOption.field, IntOption.get, Members.lookup_putIf_self,
      Members.lookup_putIf_of_ne, Members.lookup_putSome_self, Members.lookup_putSome_of_ne,
      Members.lookup_put_self, Members.lookup_put_of_ne, Members.lookup_empty, ne_eq, String.reduceEq,
      not_false_eq_true]
  case voiceFormat => exact givesBack_some rfl
  case needVad => exact givesBack_some rfl
  case convertNumMode => exact givesBack_some rfl
  case filterEmptyResult => exact givesBack_map readInt_int o.filterEmptyResult
  case vadLevel => exact givesBack_map readInt_int o.vadLevel
  case speakerNumber =>
    refine givesBack_ite rfl fun hoff => ?_
    rw [decide_eq_false_iff_not, not_and_or, not_not, not_not] at hoff
    rcases hoff with hoff | hoff
    · exact .inr ⟨rfl, hoff⟩
    · exact .inl ⟨hoff, .inl (by decide)⟩
  case vadSilenceTime => exact givesBack_ite rfl (hzero (.inr (by decide)))
  case inputSampleRate => exact givesBack_ite rfl (hzero (.inr (by decide)))
  all_goals exact givesBack_ite rfl (hzero (.inl (by decide)))

theorem givesBack_text (k : TextOption) :
    GivesBack Json.getStr (k.Off o) ((o.params voiceId).lookup k.field) (some (k.get o)) := by
  unfold SpeechOptions.params
  cases k
  all_goals
    simp only [TextOption.field, TextOption.get, Members.lookup_putIf_self,
      Members.lookup_putIf_of_ne, Members.lookup_putSome_of_ne, Members.lookup_put_of_ne,
      Members.lookup_empty, ne_eq, String.reduceEq, not_false_eq_true]
  case speakerContextId =>
    refine givesBack_ite rfl fun hoff => ?_
    rw [decide_eq_false_iff_not, not_and_or, not_not, not_not] at hoff
    rcases hoff with hoff | hoff
    · exact .inr ⟨rfl, hoff⟩
    · exact .inl hoff
  all_goals exact givesBack_ite rfl fun hoff => .inl (not_not.1 (of_decide_eq_false hoff))

theorem givesBack_threshold : GivesBack readFloat (fun _ => False)
    ((o.params voiceId).lookup "noise_threshold") o.noiseThreshold := by
  unfold SpeechOptions.params
  simp only [Members.lookup_putIf_of_ne, Members.lookup_putSome_self, Members.lookup_putSome_of_ne,
    Members.lookup_put_of_ne, Members.lookup_empty, ne_eq, String.reduceEq, not_false_eq_true]
  exact givesBack_map readFloat_float o.noiseThreshold

/-- Outside of the voiceprint mode there are no voiceprints. -/
theorem voiceprints_of_validateOptions (h : o.validateOptions = .ok ())
    (hmode : o.speakerDiarization ≠ kSpeakerDiarizationVoiceprint) :
    o.speakerRoles = [] ∧ o.voiceprintIds = [] := by
  unfold SpeechOptions.validateOptions at h
  obtain ⟨-, -, h⟩ := bind_eq_ok.1 h
  obtain ⟨_, h, -⟩ := bind_eq_ok.1 h
  unfold validateSpeakerDiarization at h
  obtain ⟨-, -, h⟩ := bind_eq_ok.1 h
  obtain ⟨-, -, h⟩ := bind_eq_ok.1 h
  obtain ⟨_, h, -⟩ := bind_eq_ok.1 h
  rw [rejectIf_eq_ok, not_and_or, not_not, not_or, not_not, not_not] at h
  exact h.resolve_left hmode

theorem givesBack_roles (h : o.validateOptions = .ok ()) :
    GivesBack (readList SpeakerRole.ofWire) (· = []) ((o.params voiceId).lookup "speaker_roles")
      (some o.speakerRoles) := by
  unfold SpeechOptions.params
  simp only [Members.lookup_putIf_self, Members.lookup_putIf_of_ne, Members.lookup_putSome_of_ne,
    Members.lookup_put_of_ne, Members.lookup_empty, ne_eq, String.reduceEq, not_false_eq_true]
  refine givesBack_ite (readList_map SpeakerRole.ofWire_toWire o.speakerRoles) fun hoff => ?_
  rw [decide_eq_false_iff_not, not_and_or, not_not] at hoff
  exact hoff.elim (fun hmode => (voiceprints_of_validateOptions h hmode).1) id

theorem givesBack_ids (h : o.validateOptions = .ok ()) :
    GivesBack (readList Json.getStr) (· = []) ((o.params voiceId).lookup "voiceprint_ids")
      (some o.voiceprintIds) := by
  unfold SpeechOptions.params
  simp only [Members.lookup_putIf_self, Members.lookup_putIf_of_ne, Members.lookup_putSome_of_ne,
    Members.lookup_put_of_ne, Members.lookup_empty, ne_eq, String.reduceEq, not_false_eq_true]
  refine givesBack_ite (readList_map getStr_str o.voiceprintIds) fun hoff => ?_
  rw [decide_eq_false_iff_not, not_and_or, not_not] at hoff
  exact hoff.elim (fun hmode => (voiceprints_of_validateOptions h hmode).2) fun h => h

/-- **The block gives back what was passed last**, whatever was called before. -/
theorem faithful_configure {credential : Credential} {engine : Bytes} {calls : List Setter}
    (h : (configure credential engine calls).validateOptions = .ok ()) (uuid : Vector UInt8 16) :
    Faithful calls (configure credential engine calls)
      ((configure credential engine calls).params
        ((configure credential engine calls).sessionId uuid)) := by
  -- each member holds the value that was passed last, or its default
  have hlast : ∀ {α : Type} {pick : Setter → Option α} {f : SpeechOptions → Option α},
      (∀ o s, f (SpeechOptions.call o s) = (pick s).or (f o)) →
        ∀ v ∈ last pick calls, v ∈ f (configure credential engine calls) := by
    intro α pick f hstep v hv
    rw [Option.mem_def, configure, foldl_eq_last hstep, Option.mem_def.1 hv, Option.some_or]
  refine ⟨fun k => ?_, fun k => ?_, ?_, ?_, ?_, fun id hid hne => ?_⟩
  · exact (givesBack_int k).mono (hlast (f := fun o => k.get o) k.get_call)
  · refine (givesBack_text k).mono ?_
    rw [← last_map]
    exact hlast (f := fun o => some (k.get o)) k.get_call
  · exact givesBack_threshold.mono
      (hlast (f := fun o => o.noiseThreshold) fun o s => (o.call_others s).1)
  · exact (givesBack_roles h).mono
      (hlast (f := fun o => some o.speakerRoles) fun o s => (o.call_others s).2.1)
  · exact (givesBack_ids h).mono
      (hlast (f := fun o => some o.voiceprintIds) fun o s => (o.call_others s).2.2.1)
  · have hvoice := Option.some.inj
      (hlast (f := fun o => some o.voiceId) (fun o s => (o.call_others s).2.2.2) id hid)
    rw [SpeechOptions.lookup_voiceId, SpeechOptions.sessionId, if_neg (hvoice.symm ▸ hne), hvoice]

/-! ## The frame that is sent -/

section

variable {deps : Deps} {env : StartEnv} {stopTimeout : ℕ} {sh : Speech.Shared} {a : Attempt}

namespace SpeechOptions

theorem prepare_eq_ok {uuid : Vector UInt8 16} {now : ℤ} {prepared : Prepared}
    (h : o.prepare deps uuid now = .ok prepared) :
    ∃ userSig, prepared.frame = o.startFrame (o.sessionId uuid) userSig ∧
      deps.dump prepared.frame = .ok prepared.startFrame ∧
      prepared.startFrame.length ≤ kStartFrameMaxBytes := by
  unfold prepare at h
  obtain ⟨userSig, -, h⟩ := bind_eq_ok.1 h
  obtain ⟨text, htext, h⟩ := bind_eq_ok.1 h
  obtain ⟨_, hlimit, h⟩ := bind_eq_ok.1 h
  obtain ⟨base, -, h⟩ := bind_eq_ok.1 h
  cases h
  rw [mapError_eq_ok, rejectIf_eq_ok, not_lt] at hlimit
  exact ⟨userSig, rfl, mapError_eq_ok.1 htext, hlimit⟩

/-- A frame over the limit is an error before anything is dialed. -/
theorem prepare_of_lt {uuid : Vector UInt8 16} {now : ℤ} {userSig text : Bytes}
    (hsig : resolveUserSig deps o.credential (o.sessionId uuid) now = .ok userSig)
    (htext : deps.dump (o.startFrame (o.sessionId uuid) userSig) = .ok text)
    (hlimit : kStartFrameMaxBytes < text.length) : ∃ e, o.prepare deps uuid now = .error e := by
  cases h : o.prepare deps uuid now with
  | error e => exact ⟨e, rfl⟩
  | ok prepared =>
    unfold prepare at h
    obtain ⟨userSig', hsig', h⟩ := bind_eq_ok.1 h
    rw [mapError_eq_ok, hsig] at hsig'
    cases hsig'
    obtain ⟨text', htext', h⟩ := bind_eq_ok.1 h
    rw [mapError_eq_ok, htext] at htext'
    cases htext'
    obtain ⟨_, hlimit', -⟩ := bind_eq_ok.1 h
    rw [mapError_eq_ok, rejectIf_eq_ok] at hlimit'
    exact absurd hlimit hlimit'

theorem acknowledge_sent {c c' : ℕ} {f : Speech.UplinkFrame}
    (h : o.acknowledge deps env sh c = some a) : .sent c' f ∉ a.events := by
  unfold acknowledge at h
  dsimp only at h
  split at h
  · cases h
  · cases h
    split
    · exact fun hmem => nomatch List.mem_singleton.1 hmem
    · exact List.not_mem_nil
    · exact fun hmem => nomatch List.mem_singleton.1 hmem

/-- The only frame of `Connect` is the start frame. -/
theorem connect_sent {c : ℕ} {f : Speech.UplinkFrame} (h : o.connect deps env sh = some a)
    (hf : .sent c f ∈ a.events) :
    ∃ prepared, o.prepare deps env.uuid env.time = .ok prepared ∧
      f = .start prepared.startFrame := by
  unfold connect at h
  dsimp only at h
  split at h
  · cases h
    cases hf
  rename_i prepared hprepared
  refine ⟨prepared, hprepared, ?_⟩
  split at h
  · cases h
    cases hf
  split at h
  · cases h
    rcases List.mem_cons.1 hf with heq | hf
    · exact (Speech.EventKind.sent.inj heq).2
    · exact nomatch List.mem_singleton.1 hf
  · obtain ⟨b, hb, rfl⟩ := Option.map_eq_some_iff.1 h
    rcases List.mem_cons.1 hf with heq | hf
    · exact (Speech.EventKind.sent.inj heq).2
    · exact absurd hf (acknowledge_sent hb)

theorem start_sent {c : ℕ} {f : Speech.UplinkFrame} (h : o.start deps env stopTimeout sh = some a)
    (hf : .sent c f ∈ a.events) :
    ∃ prepared, o.prepare deps env.uuid env.time = .ok prepared ∧
      f = .start prepared.startFrame := by
  unfold start at h
  dsimp only at h
  split at h
  · cases h
    exact nomatch List.mem_singleton.1 hf
  split at h
  · cases h
    simp at hf
  · obtain ⟨b, hb, rfl⟩ := Option.map_eq_some_iff.1 h
    have hsent : .sent c f ∈ b.events := by
      split at hf
      · simpa using hf
      · simpa using hf
    exact connect_sent hb hsent

/-- What `Connect` throws before it dials leaves `Start`, and nothing is dialed. -/
theorem start_of_prepare {e : Exn} (h : o.prepare deps env.uuid env.time = .error e) :
    ∃ a, o.start deps env stopTimeout sh = some a ∧ (∃ e, a.result = .error e) ∧
      a.sh.dialed = sh.dialed := by
  unfold start
  dsimp only
  split
  · exact ⟨_, rfl, ⟨_, rfl⟩, rfl⟩
  split
  · exact ⟨_, rfl, ⟨_, rfl⟩, rfl⟩
  · simp only [connect, h, Option.map_some]
    exact ⟨_, rfl, ⟨_, rfl⟩, rfl⟩

end SpeechOptions

end

/-- **The start frame is faithful.**  For every sequence of calls that leaves valid options, the
    `params` block gives back what was passed last; what `Start` sends is a frame with that block
    of at most 64 KiB, and where the frame would be longer it throws and dials nothing. -/
theorem start_frame_faithful (credential : Credential) (engine : Bytes) (calls : List Setter)
    (h : (configure credential engine calls).validateOptions = .ok ()) (deps : Deps)
    (env : StartEnv) (stopTimeout : ℕ) (sh : Speech.Shared) :
    let o := configure credential engine calls
    let voiceId := o.sessionId env.uuid
    Faithful calls o (o.params voiceId) ∧
      (∀ a c f, o.start deps env stopTimeout sh = some a → .sent c f ∈ a.events →
        ∃ frame text, frame.member "params" = some (.obj (o.params voiceId)) ∧
          deps.dump frame = .ok text ∧ text.length ≤ kStartFrameMaxBytes ∧ f = .start text) ∧
      ∀ userSig text, resolveUserSig deps o.credential voiceId env.time = .ok userSig →
        deps.dump (o.startFrame voiceId userSig) = .ok text → kStartFrameMaxBytes < text.length →
          ∃ a, o.start deps env stopTimeout sh = some a ∧ (∃ e, a.result = .error e) ∧
            a.sh.dialed = sh.dialed := by
  intro o voiceId
  refine ⟨faithful_configure h env.uuid, ?_, ?_⟩
  · intro a c f ha hf
    obtain ⟨prepared, hprepared, rfl⟩ := SpeechOptions.start_sent ha hf
    obtain ⟨userSig, hframe, hdump, hlimit⟩ := SpeechOptions.prepare_eq_ok hprepared
    exact ⟨prepared.frame, prepared.startFrame, by rw [hframe]; rfl, hdump, hlimit, rfl⟩
  · intro userSig text hsig htext hlimit
    obtain ⟨e, he⟩ := SpeechOptions.prepare_of_lt hsig htext hlimit
    exact SpeechOptions.start_of_prepare he

def sampleConfigure (calls : List Setter) : SpeechOptions :=
  configure sampleCredential (ascii "bigmodel") calls

/-- Two voices, and an explicit 0 after another value. -/
def sampleCalls : List Setter :=
  [.int .needVad 1, .int .needVad 0, .int .speakerDiarization 3,
    .speakerRoles [⟨ascii "teacher", ascii "https://a/t.wav"⟩], .voiceprintIds [ascii "vp-1"],
    .voiceId (ascii "voice-1")]

theorem start_frame_faithful_sample :
    Faithful sampleCalls (sampleConfigure sampleCalls)
      ((sampleConfigure sampleCalls).params (ascii "voice-1")) :=
  (start_frame_faithful sampleCredential (ascii "bigmodel") sampleCalls (by decide) (sampleDeps [])
    { uuid := .replicate 16 0, time := 0, dial := fun _ => .ok (), send := fun _ => .ok ()
      reads := [] } 10000 {}).1

/-- **Values that do not come back**: the two zeros that are taken for unset, the white space of an
    id that is trimmed, an empty id, and a 0 for which the README has no meaning. -/
theorem passed_values_lost :
    ((sampleConfigure [.int .vadSilenceTime 0, .int .inputSampleRate 0]).validateOptions = .ok () ∧
      ((sampleConfigure [.int .vadSilenceTime 0, .int .inputSampleRate 0]).params
        (ascii "v")).lookup "vad_silence_time" = none ∧
      ((sampleConfigure [.int .vadSilenceTime 0, .int .inputSampleRate 0]).params
        (ascii "v")).lookup "input_sample_rate" = none) ∧
    ((sampleConfigure [.int .speakerDiarization 1, .int .enableSpeakerContext 1,
        .text .speakerContextId (ascii "ctx\n")]).validateOptions = .ok () ∧
      ((sampleConfigure [.int .speakerDiarization 1, .int .enableSpeakerContext 1,
        .text .speakerContextId (ascii "ctx\n")]).params
          (ascii "v")).lookup "speaker_context_id" = some (.str (ascii "ctx"))) ∧
    ((sampleConfigure [.voiceId []]).validateOptions = .ok () ∧
      ((sampleConfigure [.voiceId []]).params ((sampleConfigure [.voiceId []]).sessionId
        (.replicate 16 0))).lookup "voice_id" = some (.str (generateUuid (.replicate 16 0)))) ∧
    (sampleConfigure [.int .maxSpeakTime 0]).validateOptions = .ok () ∧
      ((sampleConfigure [.int .maxSpeakTime 0]).params
        (ascii "v")).lookup "max_speak_time" = none :=
  ⟨⟨by decide, rfl, rfl⟩, ⟨by decide, rfl⟩, ⟨by decide, SpeechOptions.lookup_voiceId _ _⟩,
    by decide, rfl⟩

end TrtcAsr.V3
