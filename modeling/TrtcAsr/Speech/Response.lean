/-
  The responses of a streaming session (types.h, types.cc, `ParseSpeechResponse`).
-/
import TrtcAsr.Credential

namespace TrtcAsr

structure WordInfo where
  word : Bytes
  startTime : ℤ
  endTime : ℤ
  stableFlag : ℤ
  speakerId : ℤ
  speakerName : Bytes
  deriving DecidableEq, Repr

structure SpeakerSegment where
  speakerId : ℤ
  speakerName : Bytes
  startTime : ℤ
  endTime : ℤ
  text : Bytes
  wordStart : Option ℤ
  wordEnd : Option ℤ
  stableFlag : ℤ
  deriving DecidableEq, Repr

structure RecognitionResult where
  sliceType : ℤ := 0
  index : ℤ := 0
  startTime : ℤ := 0
  endTime : ℤ := 0
  voiceTextStr : Bytes := []
  wordSize : ℤ := 0
  wordList : List WordInfo := []
  language : Bytes := []
  speakerSegments : List SpeakerSegment := []
  speakerId : Option ℤ := none
  finishSilenceMs : ℤ := 0
  lastTokenRuntimeMs : ℤ := 0
  deriving DecidableEq, Repr

structure SpeakerContinue where
  continueStatus : Bytes
  speakerContextId : Bytes
  deriving DecidableEq, Repr

/-- `SpeechRecognitionResponse`; without a result object, `result` has its defaults. -/
structure SpeechResponse where
  code : ℤ := 0
  message : Bytes := []
  voiceId : Bytes := []
  messageId : Bytes := []
  finalFlag : ℤ := 0
  result : RecognitionResult := {}
  hasResult : Bool := false
  speakerContinue : Option SpeakerContinue := none
  deriving DecidableEq, Repr

/-- `contains(k) && at(k).is_number()`, then `get<int>()`. -/
def numberAt (j : Json) (k : String) : Option ℤ :=
  (j.member k).bind fun v => if v.isNumber then v.getInt else none

/-- `contains(k) && at(k).is_object()`. -/
def objectAt (j : Json) (k : String) : Option Json :=
  (j.member k).filter Json.isObject

def parseWordInfo (j : Json) : Except JsonError WordInfo := do
  let word ← j.value Json.getStr "word" []
  let startTime ← j.value Json.getInt64 "start_time" 0
  let endTime ← j.value Json.getInt64 "end_time" 0
  let stableFlag ← j.value Json.getInt "stable_flag" 0
  let speakerId ← j.value Json.getInt "speaker_id" 0
  let speakerName ← j.value Json.getStr "speaker_name" []
  return { word, startTime, endTime, stableFlag, speakerId, speakerName }

def parseSpeakerSegment (j : Json) : Except JsonError SpeakerSegment := do
  let speakerId ← j.value Json.getInt "speaker_id" 0
  let speakerName ← j.value Json.getStr "speaker_name" []
  let startTime ← j.value Json.getInt64 "start_time" 0
  let endTime ← j.value Json.getInt64 "end_time" 0
  let text ← j.value Json.getStr "text" []
  let wordStart := numberAt j "word_start"
  let wordEnd := numberAt j "word_end"
  let stableFlag ← j.value Json.getInt "stable_flag" 0
  return { speakerId, speakerName, startTime, endTime, text, wordStart, wordEnd, stableFlag }

def parseSpeakerContinue (j : Json) : Except JsonError SpeakerContinue := do
  let continueStatus ← j.value Json.getStr "continue_status" []
  let speakerContextId ← j.value Json.getStr "speaker_context_id" []
  return { continueStatus, speakerContextId }

def parseRecognitionResult (j : Json) : Except JsonError RecognitionResult := do
  let sliceType ← j.value Json.getInt "slice_type" 0
  let index ← j.value Json.getInt "index" 0
  let startTime ← j.value Json.getInt64 "start_time" 0
  let endTime ← j.value Json.getInt64 "end_time" 0
  let voiceTextStr ← j.value Json.getStr "voice_text_str" []
  let wordSize ← j.value Json.getInt "word_size" 0
  let language ← j.value Json.getStr "language" []
  let finishSilenceMs ← j.value Json.getInt64 "finish_silence_ms" 0
  let lastTokenRuntimeMs ← j.value Json.getInt64 "last_token_runtime_ms" 0
  let speakerId := numberAt j "speaker_id"
  let wordList ← (j.arrayAt "word_list").mapM parseWordInfo
  let speakerSegments ← (j.arrayAt "speaker_segments").mapM parseSpeakerSegment
  return { sliceType, index, startTime, endTime, voiceTextStr, wordSize, wordList, language
           speakerSegments, speakerId, finishSilenceMs, lastTokenRuntimeMs }

/-- A member that is only read where it is an object. -/
def parseObjectAt {α : Type} (parse : Json → Except JsonError α) (j : Json) (k : String) :
    Except JsonError (Option α) :=
  match objectAt j k with
  | some v => (parse v).map some
  | none => .ok none

def parseSpeechResponseInner (j : Json) : Except JsonError SpeechResponse := do
  let code ← j.value Json.getInt "code" 0
  let message ← j.value Json.getStr "message" []
  let voiceId ← j.value Json.getStr "voice_id" []
  let messageId ← j.value Json.getStr "message_id" []
  let finalFlag ← j.value Json.getInt "final" 0
  let speakerContinue ← parseObjectAt parseSpeakerContinue j "speaker_continue"
  let result ← parseObjectAt parseRecognitionResult j "result"
  return { code, message, voiceId, messageId, finalFlag, result := result.getD {}
           hasResult := result.isSome, speakerContinue }

/-- `ParseSpeechResponse`: every failure is an `ASRError`. -/
def parseSpeechResponse (deps : Deps) (text : Bytes) : Except ASRError SpeechResponse :=
  match deps.parse text with
  | .error what => .error ⟨kErrReadFailed, ascii "unmarshal response failed: " ++ what⟩
  | .ok j =>
    (parseSpeechResponseInner j).mapError fun e =>
      ⟨kErrReadFailed, ascii "unmarshal response failed: " ++ deps.what e⟩

/-- Without a result object the result has its defaults. -/
theorem parse_no_result {deps : Deps} {payload : Bytes} {resp : SpeechResponse}
    (h : parseSpeechResponse deps payload = .ok resp) (hno : resp.hasResult = false) :
    resp.result = {} := by
  unfold parseSpeechResponse at h
  split at h
  · cases h
  · unfold parseSpeechResponseInner at h
    have hinner := mapError_eq_ok.1 h
    simp only [bind_eq_ok] at hinner
    obtain ⟨_, -, _, -, _, -, _, -, _, -, _, -, result, -, heq⟩ := hinner
    cases heq
    cases result with
    | none => rfl
    | some res => cases hno

end TrtcAsr
