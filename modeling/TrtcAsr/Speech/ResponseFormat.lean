/-
  The frames of a streaming session as JSON, and `ParseSpeechResponse` as their inverse (types.h,
  types.cc).

  * `WrittenAs`: the JSON of a record under its documented names, whatever other members it has;
    `toJson` is one such JSON;
  * `Valid`: the integers of a record are values of their C++ types;
  * `speech_response_round_trip`: a frame is parsed into the response that it was written from,
    and every other text ends in a value or in an error with `kErrReadFailed`.
-/
import TrtcAsr.Lib.JsonRecord
import TrtcAsr.Speech.Response

namespace TrtcAsr

open Json (HasOption InInt InInt64 IsInt hasInt_number hasList_map isInt_number mapM_of_hasList
  number value_int64 value_int_of_inInt value_str)

/-! ## Members that may be absent -/

/-- The member of an optional field. -/
def optionalMember {α : Type} (k : String) (f : α → Json) : Option α → Members
  | some a => [(k, f a)]
  | none => []

section

variable {α : Type} {j : Json} {k : String}

theorem numberAt_of_hasOption {o : Option ℤ} (h : j.HasOption IsInt k o) (ho : ∀ n ∈ o, InInt n) :
    numberAt j k = o := by
  unfold numberAt
  cases o with
  | none =>
    have hnone : j.member k = none := h
    rw [hnone]
    rfl
  | some n =>
    obtain ⟨v, hv, hint⟩ := h
    rw [hv, Option.bind_some, if_pos hint.isNumber, hint.getInt,
      Json.toInt32_eq_self_iff.2 (ho n rfl)]

theorem parseObjectAt_of_hasOption {P : α → Json → Prop} {parse : Json → Except JsonError α}
    {o : Option α} (h : j.HasOption P k o)
    (hparse : ∀ a ∈ o, ∀ v, P a v → v.isObject ∧ parse v = .ok a) :
    parseObjectAt parse j k = .ok o := by
  unfold parseObjectAt objectAt
  cases o with
  | none =>
    have hnone : j.member k = none := h
    rw [hnone]
    rfl
  | some a =>
    obtain ⟨v, hv, hP⟩ := h
    obtain ⟨hobj, hok⟩ := hparse a rfl v hP
    rw [hv, Option.filter_some_pos hobj]
    simp only [hok, Except.map]

theorem isObject_of_member {v : Json} (h : j.member k = some v) : j.isObject := by
  cases j with
  | obj ms => rfl
  | _ => cases h

end

/-! ## Words -/

namespace WordInfo

structure WrittenAs (w : WordInfo) (j : Json) : Prop where
  word : j.HasStr "word" w.word
  startTime : j.HasInt "start_time" w.startTime
  endTime : j.HasInt "end_time" w.endTime
  stableFlag : j.HasInt "stable_flag" w.stableFlag
  speakerId : j.HasInt "speaker_id" w.speakerId
  speakerName : j.HasStr "speaker_name" w.speakerName

def toJson (w : WordInfo) : Json :=
  .obj [("word", .str w.word), ("start_time", number w.startTime), ("end_time", number w.endTime),
    ("stable_flag", number w.stableFlag), ("speaker_id", number w.speakerId),
    ("speaker_name", .str w.speakerName)]

structure Valid (w : WordInfo) : Prop where
  startTime : InInt64 w.startTime
  endTime : InInt64 w.endTime
  stableFlag : InInt w.stableFlag
  speakerId : InInt w.speakerId

theorem writtenAs_toJson (w : WordInfo) : w.WrittenAs w.toJson where
  word := rfl
  startTime := hasInt_number rfl
  endTime := hasInt_number rfl
  stableFlag := hasInt_number rfl
  speakerId := hasInt_number rfl
  speakerName := rfl

theorem parse_writtenAs {w : WordInfo} {j : Json} (h : w.WrittenAs j) (hw : w.Valid) :
    parseWordInfo j = .ok w := by
  rw [parseWordInfo, value_str h.word, value_int64 h.startTime hw.startTime,
    value_int64 h.endTime hw.endTime, value_int_of_inInt h.stableFlag hw.stableFlag,
    value_int_of_inInt h.speakerId hw.speakerId, value_str h.speakerName]
  rfl

end WordInfo

/-! ## Speaker segments -/

namespace SpeakerSegment

structure WrittenAs (s : SpeakerSegment) (j : Json) : Prop where
  speakerId : j.HasInt "speaker_id" s.speakerId
  speakerName : j.HasStr "speaker_name" s.speakerName
  startTime : j.HasInt "start_time" s.startTime
  endTime : j.HasInt "end_time" s.endTime
  text : j.HasStr "text" s.text
  wordStart : j.HasOption IsInt "word_start" s.wordStart
  wordEnd : j.HasOption IsInt "word_end" s.wordEnd
  stableFlag : j.HasInt "stable_flag" s.stableFlag

def toJson (s : SpeakerSegment) : Json :=
  .obj <| [("speaker_id", number s.speakerId), ("speaker_name", .str s.speakerName),
      ("start_time", number s.startTime), ("end_time", number s.endTime), ("text", .str s.text),
      ("stable_flag", number s.stableFlag)] ++
    optionalMember "word_start" number s.wordStart ++ optionalMember "word_end" number s.wordEnd

structure Valid (s : SpeakerSegment) : Prop where
  speakerId : InInt s.speakerId
  startTime : InInt64 s.startTime
  endTime : InInt64 s.endTime
  wordStart : ∀ n ∈ s.wordStart, InInt n
  wordEnd : ∀ n ∈ s.wordEnd, InInt n
  stableFlag : InInt s.stableFlag

theorem writtenAs_toJson (s : SpeakerSegment) : s.WrittenAs s.toJson := by
  obtain ⟨speakerId, speakerName, startTime, endTime, text, wordStart, wordEnd, stableFlag⟩ := s
  refine ⟨hasInt_number rfl, rfl, hasInt_number rfl, hasInt_number rfl, rfl, ?_, ?_,
    hasInt_number rfl⟩
  · cases wordStart with
    | none => cases wordEnd <;> rfl
    | some n => exact ⟨_, rfl, isInt_number n⟩
  · cases wordEnd with
    | none => cases wordStart <;> rfl
    | some n => cases wordStart <;> exact ⟨_, rfl, isInt_number n⟩

theorem parse_writtenAs {s : SpeakerSegment} {j : Json} (h : s.WrittenAs j) (hs : s.Valid) :
    parseSpeakerSegment j = .ok s := by
  rw [parseSpeakerSegment, value_int_of_inInt h.speakerId hs.speakerId, value_str h.speakerName,
    value_int64 h.startTime hs.startTime, value_int64 h.endTime hs.endTime, value_str h.text,
    numberAt_of_hasOption h.wordStart hs.wordStart, numberAt_of_hasOption h.wordEnd hs.wordEnd,
    value_int_of_inInt h.stableFlag hs.stableFlag]
  rfl

end SpeakerSegment

/-! ## Results -/

namespace RecognitionResult

structure WrittenAs (r : RecognitionResult) (j : Json) : Prop where
  sliceType : j.HasInt "slice_type" r.sliceType
  index : j.HasInt "index" r.index
  startTime : j.HasInt "start_time" r.startTime
  endTime : j.HasInt "end_time" r.endTime
  voiceTextStr : j.HasStr "voice_text_str" r.voiceTextStr
  wordSize : j.HasInt "word_size" r.wordSize
  wordList : j.HasList WordInfo.WrittenAs "word_list" r.wordList
  language : j.HasStr "language" r.language
  speakerSegments : j.HasList SpeakerSegment.WrittenAs "speaker_segments" r.speakerSegments
  speakerId : j.HasOption IsInt "speaker_id" r.speakerId
  finishSilenceMs : j.HasInt "finish_silence_ms" r.finishSilenceMs
  lastTokenRuntimeMs : j.HasInt "last_token_runtime_ms" r.lastTokenRuntimeMs

def toJson (r : RecognitionResult) : Json :=
  .obj <| [("slice_type", number r.sliceType), ("index", number r.index),
      ("start_time", number r.startTime), ("end_time", number r.endTime),
      ("voice_text_str", .str r.voiceTextStr), ("word_size", number r.wordSize),
      ("word_list", .arr (r.wordList.map WordInfo.toJson)), ("language", .str r.language),
      ("speaker_segments", .arr (r.speakerSegments.map SpeakerSegment.toJson)),
      ("finish_silence_ms", number r.finishSilenceMs),
      ("last_token_runtime_ms", number r.lastTokenRuntimeMs)] ++
    optionalMember "speaker_id" number r.speakerId

structure Valid (r : RecognitionResult) : Prop where
  sliceType : InInt r.sliceType
  index : InInt r.index
  startTime : InInt64 r.startTime
  endTime : InInt64 r.endTime
  wordSize : InInt r.wordSize
  wordList : ∀ w ∈ r.wordList, w.Valid
  speakerSegments : ∀ s ∈ r.speakerSegments, s.Valid
  speakerId : ∀ n ∈ r.speakerId, InInt n
  finishSilenceMs : InInt64 r.finishSilenceMs
  lastTokenRuntimeMs : InInt64 r.lastTokenRuntimeMs

theorem writtenAs_toJson (r : RecognitionResult) : r.WrittenAs r.toJson := by
  refine ⟨hasInt_number rfl, hasInt_number rfl, hasInt_number rfl, hasInt_number rfl, rfl,
    hasInt_number rfl, hasList_map rfl WordInfo.writtenAs_toJson, rfl,
    hasList_map rfl SpeakerSegment.writtenAs_toJson, ?_, hasInt_number rfl, hasInt_number rfl⟩
  obtain ⟨sliceType, index, startTime, endTime, voiceTextStr, wordSize, wordList, language,
    speakerSegments, speakerId, finishSilenceMs, lastTokenRuntimeMs⟩ := r
  cases speakerId with
  | none => rfl
  | some n => exact ⟨_, rfl, isInt_number n⟩

theorem parse_writtenAs {r : RecognitionResult} {j : Json} (h : r.WrittenAs j) (hr : r.Valid) :
    parseRecognitionResult j = .ok r := by
  have hwords : (j.arrayAt "word_list").mapM parseWordInfo = .ok (r.wordList.map id) :=
    mapM_of_hasList h.wordList fun w hw _ hp => WordInfo.parse_writtenAs hp (hr.wordList w hw)
  have hsegments : (j.arrayAt "speaker_segments").mapM parseSpeakerSegment =
      .ok (r.speakerSegments.map id) :=
    mapM_of_hasList h.speakerSegments fun s hs _ hp =>
      SpeakerSegment.parse_writtenAs hp (hr.speakerSegments s hs)
  rw [List.map_id] at hwords hsegments
  rw [parseRecognitionResult, value_int_of_inInt h.sliceType hr.sliceType,
    value_int_of_inInt h.index hr.index, value_int64 h.startTime hr.startTime,
    value_int64 h.endTime hr.endTime, value_str h.voiceTextStr,
    value_int_of_inInt h.wordSize hr.wordSize, value_str h.language,
    value_int64 h.finishSilenceMs hr.finishSilenceMs,
    value_int64 h.lastTokenRuntimeMs hr.lastTokenRuntimeMs,
    numberAt_of_hasOption h.speakerId hr.speakerId, hwords, hsegments]
  rfl

end RecognitionResult

/-! ## Frames -/

namespace SpeakerContinue

structure WrittenAs (s : SpeakerContinue) (j : Json) : Prop where
  continueStatus : j.HasStr "continue_status" s.continueStatus
  speakerContextId : j.HasStr "speaker_context_id" s.speakerContextId

def toJson (s : SpeakerContinue) : Json :=
  .obj [("continue_status", .str s.continueStatus), ("speaker_context_id", .str s.speakerContextId)]

theorem writtenAs_toJson (s : SpeakerContinue) : s.WrittenAs s.toJson where
  continueStatus := rfl
  speakerContextId := rfl

theorem parse_writtenAs {s : SpeakerContinue} {j : Json} (h : s.WrittenAs j) :
    parseSpeakerContinue j = .ok s := by
  rw [parseSpeakerContinue, value_str h.continueStatus, value_str h.speakerContextId]
  rfl

end SpeakerContinue

namespace SpeechResponse

/-- The result that a frame carries. -/
def carried (r : SpeechResponse) : Option RecognitionResult :=
  if r.hasResult then some r.result else none

structure WrittenAs (r : SpeechResponse) (j : Json) : Prop where
  code : j.HasInt "code" r.code
  message : j.HasStr "message" r.message
  voiceId : j.HasStr "voice_id" r.voiceId
  messageId : j.HasStr "message_id" r.messageId
  finalFlag : j.HasInt "final" r.finalFlag
  result : j.HasOption RecognitionResult.WrittenAs "result" r.carried
  speakerContinue : j.HasOption SpeakerContinue.WrittenAs "speaker_continue" r.speakerContinue

def toJson (r : SpeechResponse) : Json :=
  .obj <| [("code", number r.code), ("message", .str r.message), ("voice_id", .str r.voiceId),
      ("message_id", .str r.messageId), ("final", number r.finalFlag)] ++
    optionalMember "result" RecognitionResult.toJson r.carried ++
    optionalMember "speaker_continue" SpeakerContinue.toJson r.speakerContinue

/-- Without a result object the result has its defaults. -/
structure Valid (r : SpeechResponse) : Prop where
  code : InInt r.code
  finalFlag : InInt r.finalFlag
  result : r.result.Valid
  default : r.hasResult = false → r.result = {}

theorem writtenAs_toJson (r : SpeechResponse) : r.WrittenAs r.toJson := by
  refine ⟨hasInt_number rfl, rfl, rfl, rfl, hasInt_number rfl, ?_, ?_⟩
  · unfold toJson
    cases r.carried with
    | none => cases r.speakerContinue <;> rfl
    | some result => exact ⟨_, rfl, result.writtenAs_toJson⟩
  · unfold toJson
    cases r.speakerContinue with
    | none => cases r.carried <;> rfl
    | some s => cases r.carried <;> exact ⟨_, rfl, s.writtenAs_toJson⟩

theorem carried_eq (r : SpeechResponse) (hr : r.Valid) :
    r.carried.getD {} = r.result ∧ r.carried.isSome = r.hasResult := by
  unfold carried
  cases h : r.hasResult with
  | true => exact ⟨rfl, rfl⟩
  | false => exact ⟨(hr.default h).symm, rfl⟩

theorem parse_writtenAs {r : SpeechResponse} {j : Json} (h : r.WrittenAs j) (hr : r.Valid) :
    parseSpeechResponseInner j = .ok r := by
  have hcontinue : parseObjectAt parseSpeakerContinue j "speaker_continue" =
      .ok r.speakerContinue :=
    parseObjectAt_of_hasOption h.speakerContinue fun s _ v hv =>
      ⟨isObject_of_member hv.continueStatus, SpeakerContinue.parse_writtenAs hv⟩
  have hresult : parseObjectAt parseRecognitionResult j "result" = .ok r.carried := by
    refine parseObjectAt_of_hasOption h.result fun res hres v hv => ?_
    have heq : res = r.result := by
      unfold carried at hres
      split at hres
      · exact (Option.some.inj hres).symm
      · cases hres
    exact ⟨isObject_of_member hv.voiceTextStr,
      RecognitionResult.parse_writtenAs hv (heq ▸ hr.result)⟩
  obtain ⟨hvalue, hsome⟩ := r.carried_eq hr
  rw [parseSpeechResponseInner, value_int_of_inInt h.code hr.code, value_str h.message,
    value_str h.voiceId, value_str h.messageId, value_int_of_inInt h.finalFlag hr.finalFlag,
    hcontinue, hresult]
  simp only [bind, Except.bind, pure, Except.pure, hvalue, hsome]

end SpeechResponse

/-- **`ParseSpeechResponse` inverts the wire format.**  A response comes back from every text that
    is parsed into a frame of it, whatever other members the frame has; every text ends in a value
    or in an error with `kErrReadFailed`. -/
theorem speech_response_round_trip (deps : Deps) :
    (∀ (r : SpeechResponse) (j : Json) (text : Bytes), r.Valid → r.WrittenAs j →
      deps.parse text = .ok j → parseSpeechResponse deps text = .ok r) ∧
    (∀ r : SpeechResponse, r.WrittenAs r.toJson) ∧
    ∀ text, (∃ r, parseSpeechResponse deps text = .ok r) ∨
      ∃ message, parseSpeechResponse deps text = .error ⟨kErrReadFailed, message⟩ := by
  refine ⟨?_, SpeechResponse.writtenAs_toJson, ?_⟩
  · intro r j text hr h hparse
    unfold parseSpeechResponse
    rw [hparse]
    exact mapError_eq_ok.2 (SpeechResponse.parse_writtenAs h hr)
  · intro text
    unfold parseSpeechResponse
    cases deps.parse text with
    | error what => exact .inr ⟨_, rfl⟩
    | ok j =>
      cases h : parseSpeechResponseInner j with
      | error e => exact .inr ⟨_, by simp only [h]; rfl⟩
      | ok r => exact .inl ⟨r, by simp only [h]; rfl⟩

/-! A frame with a member that no response has: in the frame, in its result and in its word. -/

def sampleWordJson : Json :=
  .obj [("word", .str (ascii "hi")), ("start_time", .uint 0), ("end_time", .uint 900),
    ("stable_flag", .uint 1), ("speaker_id", .int (-1)), ("speaker_name", .str []),
    ("trace", .bool true)]

def sampleResultJson : Json :=
  .obj [("slice_type", .uint 2), ("index", .uint 0), ("start_time", .uint 0),
    ("end_time", .uint 900), ("voice_text_str", .str (ascii "hi")), ("word_size", .uint 1),
    ("trace", .bool true), ("language", .str []), ("speaker_segments", .arr []),
    ("word_list", .arr [sampleWordJson]), ("finish_silence_ms", .uint 0),
    ("last_token_runtime_ms", .uint 0), ("speaker_id", .uint 3)]

def sampleFrame : Json :=
  .obj [("code", .uint 0), ("message", .str []), ("message_id", .str []), ("final", .uint 0),
    ("trace", .bool true), ("voice_id", .str (ascii "v")), ("result", sampleResultJson)]

def sampleFrameText : Bytes :=
  ascii "\x7b\"code\":0,\"message\":\"\",\"message_id\":\"\",\"final\":0," ++
  ascii "\"trace\":true,\"voice_id\":\"v\"," ++
  ascii "\"result\":\x7b\"slice_type\":2,\"index\":0,\"start_time\":0," ++
  ascii "\"end_time\":900,\"voice_text_str\":\"hi\",\"word_size\":1," ++
  ascii "\"trace\":true,\"language\":\"\",\"speaker_segments\":[]," ++
  ascii "\"word_list\":[\x7b\"word\":\"hi\",\"start_time\":0," ++
  ascii "\"end_time\":900,\"stable_flag\":1,\"speaker_id\":-1," ++
  ascii "\"speaker_name\":\"\",\"trace\":true\x7d]," ++
  ascii "\"finish_silence_ms\":0,\"last_token_runtime_ms\":0," ++
  ascii "\"speaker_id\":3\x7d\x7d"

def sampleFrameWord : WordInfo where
  word := ascii "hi"
  startTime := 0
  endTime := 900
  stableFlag := 1
  speakerId := -1
  speakerName := []

def sampleFrameResponse : SpeechResponse where
  voiceId := ascii "v"
  result := { sliceType := 2, endTime := 900, voiceTextStr := ascii "hi", wordSize := 1
              wordList := [sampleFrameWord], speakerId := some 3 }
  hasResult := true

theorem speech_response_round_trip_sample :
    parseSpeechResponse (sampleDeps [(sampleFrameText, sampleFrame)]) sampleFrameText =
      .ok sampleFrameResponse := by
  have hword : sampleFrameWord.WrittenAs sampleWordJson :=
    ⟨rfl, ⟨_, rfl, .uint 0⟩, ⟨_, rfl, .uint 900⟩, ⟨_, rfl, .uint 1⟩, ⟨_, rfl, .int (-1)⟩, rfl⟩
  have hresult : sampleFrameResponse.result.WrittenAs sampleResultJson :=
    ⟨⟨_, rfl, .uint 2⟩, ⟨_, rfl, .uint 0⟩, ⟨_, rfl, .uint 0⟩, ⟨_, rfl, .uint 900⟩, rfl,
      ⟨_, rfl, .uint 1⟩, ⟨_, rfl, .cons hword .nil⟩, rfl, ⟨_, rfl, .nil⟩, ⟨_, rfl, .uint 3⟩,
      ⟨_, rfl, .uint 0⟩, ⟨_, rfl, .uint 0⟩⟩
  have hframe : sampleFrameResponse.WrittenAs sampleFrame :=
    ⟨⟨_, rfl, .uint 0⟩, rfl, rfl, rfl, ⟨_, rfl, .uint 0⟩, ⟨_, rfl, hresult⟩, rfl⟩
  have hvalid : sampleFrameResponse.Valid := by
    refine ⟨by decide, by decide, ?_, by decide⟩
    refine ⟨by decide, by decide, by decide, by decide, by decide, ?_, ?_, by decide, by decide,
      by decide⟩
    · rintro w (_ | ⟨_, ⟨⟩⟩)
      exact ⟨by decide, by decide, by decide, by decide⟩
    · rintro s ⟨⟩
  refine (speech_response_round_trip _).1 sampleFrameResponse sampleFrame sampleFrameText hvalid
    hframe ?_
  simp [sampleDeps]

end TrtcAsr
