/-
  The responses of the v3 offline operations as JSON, and what their decoders make of it (v3.cc).

  A decoder reads every integer with `value(key, 0)`, whose default makes it an `int`, also where the
  field is an `int64_t`.

  * `WrittenAs`: the JSON of a response, under the names of its fields;
  * `narrowed`: what comes back, with every integer narrowed to `int`;
  * `responses_decode_iff`: a response comes back unchanged exactly when its integers fit in an
    `int`.
-/
import TrtcAsr.Lib.JsonRecord
import TrtcAsr.V3.Offline

namespace TrtcAsr.V3

open Json (InInt InInt64 hasInt_number hasList_map mapM_of_hasList number toInt32_eq_self_iff
  value_double value_int value_str)

/-! ## Words -/

namespace Word

structure WrittenAs (w : Word) (j : Json) : Prop where
  word : j.HasStr "word" w.word
  startTime : j.HasInt "start_time" w.startTime
  endTime : j.HasInt "end_time" w.endTime

def toJson (w : Word) : Json :=
  .obj [("word", .str w.word), ("start_time", number w.startTime), ("end_time", number w.endTime)]

theorem writtenAs_toJson (w : Word) : w.WrittenAs w.toJson where
  word := rfl
  startTime := hasInt_number rfl
  endTime := hasInt_number rfl

def narrowed (w : Word) : Word where
  word := w.word
  startTime := toInt32 w.startTime
  endTime := toInt32 w.endTime

structure FitsInt (w : Word) : Prop where
  startTime : InInt w.startTime
  endTime : InInt w.endTime

variable {w : Word} {j : Json}

theorem fromJson_writtenAs (h : w.WrittenAs j) : wordFromJson j = .ok w.narrowed := by
  rw [wordFromJson, value_str h.word, value_int h.startTime, value_int h.endTime]
  rfl

theorem narrowed_eq_iff : w.narrowed = w ↔ w.FitsInt := by
  constructor
  · intro h
    have hstart := congrArg startTime h
    have hend := congrArg endTime h
    exact ⟨toInt32_eq_self_iff.1 hstart, toInt32_eq_self_iff.1 hend⟩
  · intro h
    rw [narrowed, toInt32_eq_self_iff.2 h.startTime, toInt32_eq_self_iff.2 h.endTime]

end Word

theorem map_eq_self_iff {α : Type} {f : α → α} {l : List α} : l.map f = l ↔ ∀ a ∈ l, f a = a := by
  induction l with
  | nil => simp
  | cons a l ih => simp [ih]

theorem map_narrowed_eq_iff {l : List Word} :
    l.map Word.narrowed = l ↔ ∀ w ∈ l, w.FitsInt := by
  rw [map_eq_self_iff]
  exact forall₂_congr fun _ _ => Word.narrowed_eq_iff

/-! ## Transcribe -/

namespace TranscribeResponse

structure WrittenAs (r : TranscribeResponse) (j : Json) : Prop where
  code : j.HasInt "code" r.code
  message : j.HasStr "message" r.message
  requestId : j.HasStr "request_id" r.requestId
  result : j.HasStr "result" r.result
  audioDuration : j.HasInt "audio_duration" r.audioDuration
  language : j.HasStr "language" r.language
  languageB47 : j.HasStr "language_b47" r.languageB47
  wordSize : j.HasInt "word_size" r.wordSize
  wordList : j.HasList Word.WrittenAs "word_list" r.wordList

def toJson (r : TranscribeResponse) : Json :=
  .obj [("code", number r.code), ("message", .str r.message), ("request_id", .str r.requestId),
    ("result", .str r.result), ("audio_duration", number r.audioDuration),
    ("language", .str r.language), ("language_b47", .str r.languageB47),
    ("word_size", number r.wordSize), ("word_list", .arr (r.wordList.map Word.toJson))]

theorem writtenAs_toJson (r : TranscribeResponse) : r.WrittenAs r.toJson where
  code := hasInt_number rfl
  message := rfl
  requestId := rfl
  result := rfl
  audioDuration := hasInt_number rfl
  language := rfl
  languageB47 := rfl
  wordSize := hasInt_number rfl
  wordList := hasList_map rfl Word.writtenAs_toJson

def narrowed (r : TranscribeResponse) : TranscribeResponse :=
  { r with code := toInt32 r.code, audioDuration := toInt32 r.audioDuration
           wordSize := toInt32 r.wordSize, wordList := r.wordList.map Word.narrowed }

/-- Every integer of the response is an `int`; those of `int` fields always are. -/
structure FitsInt (r : TranscribeResponse) : Prop where
  code : InInt r.code
  audioDuration : InInt r.audioDuration
  wordSize : InInt r.wordSize
  wordList : ∀ w ∈ r.wordList, w.FitsInt

variable {r : TranscribeResponse} {j : Json}

theorem fromJson_writtenAs (h : r.WrittenAs j) : transcribeResponseFromJson j = .ok r.narrowed := by
  rw [transcribeResponseFromJson, value_int h.code, value_str h.message, value_str h.requestId,
    value_str h.result, value_int h.audioDuration, value_str h.language, value_str h.languageB47,
    value_int h.wordSize, mapM_of_hasList h.wordList fun _ _ _ hw => Word.fromJson_writtenAs hw]
  rfl

theorem narrowed_eq_iff : r.narrowed = r ↔ r.FitsInt := by
  constructor
  · intro h
    have hcode := congrArg code h
    have hduration := congrArg audioDuration h
    have hsize := congrArg wordSize h
    have hlist := congrArg wordList h
    exact ⟨toInt32_eq_self_iff.1 hcode, toInt32_eq_self_iff.1 hduration,
      toInt32_eq_self_iff.1 hsize, map_narrowed_eq_iff.1 hlist⟩
  · intro h
    rw [narrowed, toInt32_eq_self_iff.2 h.code, toInt32_eq_self_iff.2 h.audioDuration,
      toInt32_eq_self_iff.2 h.wordSize, map_narrowed_eq_iff.2 h.wordList]

end TranscribeResponse

/-! ## Describe -/

namespace SentenceDetail

structure WrittenAs (d : SentenceDetail) (j : Json) : Prop where
  finalSentence : j.HasStr "final_sentence" d.finalSentence
  sliceSentence : j.HasStr "slice_sentence" d.sliceSentence
  writtenText : j.HasStr "written_text" d.writtenText
  startMs : j.HasInt "start_ms" d.startMs
  endMs : j.HasInt "end_ms" d.endMs
  wordsNum : j.HasInt "words_num" d.wordsNum
  words : j.HasList Word.WrittenAs "words" d.words
  speechSpeed : j.HasDouble "speech_speed" d.speechSpeed
  speakerId : j.HasInt "speaker_id" d.speakerId
  channelId : j.HasInt "channel_id" d.channelId
  speakerRoleName : j.HasStr "speaker_role_name" d.speakerRoleName
  silenceTime : j.HasInt "silence_time" d.silenceTime
  language : j.HasStr "language" d.language
  languageB47 : j.HasStr "language_b47" d.languageB47

def toJson (d : SentenceDetail) : Json :=
  .obj [("final_sentence", .str d.finalSentence), ("slice_sentence", .str d.sliceSentence),
    ("written_text", .str d.writtenText), ("start_ms", number d.startMs),
    ("end_ms", number d.endMs), ("words_num", number d.wordsNum),
    ("words", .arr (d.words.map Word.toJson)), ("speech_speed", .float d.speechSpeed),
    ("speaker_id", number d.speakerId), ("channel_id", number d.channelId),
    ("speaker_role_name", .str d.speakerRoleName), ("silence_time", number d.silenceTime),
    ("language", .str d.language), ("language_b47", .str d.languageB47)]

theorem writtenAs_toJson (d : SentenceDetail) : d.WrittenAs d.toJson where
  finalSentence := rfl
  sliceSentence := rfl
  writtenText := rfl
  startMs := hasInt_number rfl
  endMs := hasInt_number rfl
  wordsNum := hasInt_number rfl
  words := hasList_map rfl Word.writtenAs_toJson
  speechSpeed := rfl
  speakerId := hasInt_number rfl
  channelId := hasInt_number rfl
  speakerRoleName := rfl
  silenceTime := hasInt_number rfl
  language := rfl
  languageB47 := rfl

def narrowed (d : SentenceDetail) : SentenceDetail :=
  { d with startMs := toInt32 d.startMs, endMs := toInt32 d.endMs, wordsNum := toInt32 d.wordsNum
           words := d.words.map Word.narrowed, speakerId := toInt32 d.speakerId
           channelId := toInt32 d.channelId, silenceTime := toInt32 d.silenceTime }

structure FitsInt (d : SentenceDetail) : Prop where
  startMs : InInt d.startMs
  endMs : InInt d.endMs
  wordsNum : InInt d.wordsNum
  words : ∀ w ∈ d.words, w.FitsInt
  speakerId : InInt d.speakerId
  channelId : InInt d.channelId
  silenceTime : InInt d.silenceTime

variable {d : SentenceDetail} {j : Json}

theorem fromJson_writtenAs (h : d.WrittenAs j) : sentenceDetailFromJson j = .ok d.narrowed := by
  rw [sentenceDetailFromJson, value_str h.finalSentence, value_str h.sliceSentence,
    value_str h.writtenText, value_int h.startMs, value_int h.endMs, value_int h.wordsNum,
    mapM_of_hasList h.words fun _ _ _ hw => Word.fromJson_writtenAs hw,
    value_double h.speechSpeed, value_int h.speakerId, value_int h.channelId,
    value_str h.speakerRoleName, value_int h.silenceTime, value_str h.language,
    value_str h.languageB47]
  rfl

theorem narrowed_eq_iff : d.narrowed = d ↔ d.FitsInt := by
  constructor
  · intro h
    have hstart := congrArg startMs h
    have hend := congrArg endMs h
    have hnum := congrArg wordsNum h
    have hwords := congrArg words h
    have hspeaker := congrArg speakerId h
    have hchannel := congrArg channelId h
    have hsilence := congrArg silenceTime h
    exact ⟨toInt32_eq_self_iff.1 hstart, toInt32_eq_self_iff.1 hend, toInt32_eq_self_iff.1 hnum,
      map_narrowed_eq_iff.1 hwords, toInt32_eq_self_iff.1 hspeaker,
      toInt32_eq_self_iff.1 hchannel, toInt32_eq_self_iff.1 hsilence⟩
  · intro h
    rw [narrowed, toInt32_eq_self_iff.2 h.startMs, toInt32_eq_self_iff.2 h.endMs,
      toInt32_eq_self_iff.2 h.wordsNum, map_narrowed_eq_iff.2 h.words,
      toInt32_eq_self_iff.2 h.speakerId, toInt32_eq_self_iff.2 h.channelId,
      toInt32_eq_self_iff.2 h.silenceTime]

end SentenceDetail

namespace TranscriptionStatus

structure WrittenAs (s : TranscriptionStatus) (j : Json) : Prop where
  code : j.HasInt "code" s.code
  message : j.HasStr "message" s.message
  requestId : j.HasStr "request_id" s.requestId
  transcriptionId : j.HasStr "transcription_id" s.transcriptionId
  status : j.HasInt "status" s.status
  statusStr : j.HasStr "status_str" s.statusStr
  progress : j.HasInt "progress" s.progress
  audioDuration : j.HasDouble "audio_duration" s.audioDuration
  result : j.HasStr "result" s.result
  resultDetail : j.HasList SentenceDetail.WrittenAs "result_detail" s.resultDetail
  errorMsg : j.HasStr "error_msg" s.errorMsg

def toJson (s : TranscriptionStatus) : Json :=
  .obj [("code", number s.code), ("message", .str s.message), ("request_id", .str s.requestId),
    ("transcription_id", .str s.transcriptionId), ("status", number s.status),
    ("status_str", .str s.statusStr), ("progress", number s.progress),
    ("audio_duration", .float s.audioDuration), ("result", .str s.result),
    ("result_detail", .arr (s.resultDetail.map SentenceDetail.toJson)),
    ("error_msg", .str s.errorMsg)]

theorem writtenAs_toJson (s : TranscriptionStatus) : s.WrittenAs s.toJson where
  code := hasInt_number rfl
  message := rfl
  requestId := rfl
  transcriptionId := rfl
  status := hasInt_number rfl
  statusStr := rfl
  progress := hasInt_number rfl
  audioDuration := rfl
  result := rfl
  resultDetail := hasList_map rfl SentenceDetail.writtenAs_toJson
  errorMsg := rfl

def narrowed (s : TranscriptionStatus) : TranscriptionStatus :=
  { s with code := toInt32 s.code, status := toInt32 s.status, progress := toInt32 s.progress
           resultDetail := s.resultDetail.map SentenceDetail.narrowed }

structure FitsInt (s : TranscriptionStatus) : Prop where
  code : InInt s.code
  status : InInt s.status
  progress : InInt s.progress
  resultDetail : ∀ d ∈ s.resultDetail, d.FitsInt

variable {s : TranscriptionStatus} {j : Json}

theorem fromJson_writtenAs (h : s.WrittenAs j) :
    transcriptionStatusFromJson j = .ok s.narrowed := by
  rw [transcriptionStatusFromJson, value_int h.code, value_str h.message, value_str h.requestId,
    value_str h.transcriptionId, value_int h.status, value_str h.statusStr, value_int h.progress,
    value_double h.audioDuration, value_str h.result,
    mapM_of_hasList h.resultDetail fun _ _ _ hd => SentenceDetail.fromJson_writtenAs hd,
    value_str h.errorMsg]
  rfl

theorem narrowed_eq_iff : s.narrowed = s ↔ s.FitsInt := by
  have hdetails : s.resultDetail.map SentenceDetail.narrowed = s.resultDetail ↔
      ∀ d ∈ s.resultDetail, d.FitsInt := by
    rw [map_eq_self_iff]
    exact forall₂_congr fun _ _ => SentenceDetail.narrowed_eq_iff
  constructor
  · intro h
    have hcode := congrArg code h
    have hstatus := congrArg status h
    have hprogress := congrArg progress h
    have hdetail := congrArg resultDetail h
    exact ⟨toInt32_eq_self_iff.1 hcode, toInt32_eq_self_iff.1 hstatus,
      toInt32_eq_self_iff.1 hprogress, hdetails.1 hdetail⟩
  · intro h
    rw [narrowed, toInt32_eq_self_iff.2 h.code, toInt32_eq_self_iff.2 h.status,
      toInt32_eq_self_iff.2 h.progress, hdetails.2 h.resultDetail]

end TranscriptionStatus

/-- **A response comes back from its JSON** exactly when its integers fit in an `int`. -/
theorem responses_decode_iff (r : TranscribeResponse) (s : TranscriptionStatus) (j : Json) :
    (r.WrittenAs j → (transcribeResponseFromJson j = .ok r ↔ r.FitsInt)) ∧
    (s.WrittenAs j → (transcriptionStatusFromJson j = .ok s ↔ s.FitsInt)) ∧
    r.WrittenAs r.toJson ∧ s.WrittenAs s.toJson := by
  refine ⟨?_, ?_, r.writtenAs_toJson, s.writtenAs_toJson⟩
  · intro h
    rw [TranscribeResponse.fromJson_writtenAs h, Except.ok.injEq,
      TranscribeResponse.narrowed_eq_iff]
  · intro h
    rw [TranscriptionStatus.fromJson_writtenAs h, Except.ok.injEq,
      TranscriptionStatus.narrowed_eq_iff]

/-- A transcription with a sentence of two hours. -/
def sampleStatus (endMs : ℤ) : TranscriptionStatus where
  code := 0
  message := []
  requestId := ascii "r1"
  transcriptionId := ascii "t1"
  status := 2
  statusStr := ascii "success"
  progress := 100
  audioDuration := .zero
  result := ascii "hi"
  resultDetail := [{
    finalSentence := ascii "hi", sliceSentence := [], writtenText := [], startMs := 0
    endMs := endMs, wordsNum := 1, words := [⟨ascii "hi", 0, endMs⟩], speechSpeed := .zero
    speakerId := -1, channelId := 0, speakerRoleName := [], silenceTime := 0, language := []
    languageB47 := [] }]
  errorMsg := []

def sampleTranscript : TranscribeResponse where
  code := 0
  message := []
  requestId := ascii "r1"
  result := ascii "hi"
  audioDuration := 900
  language := []
  languageB47 := []
  wordSize := 1
  wordList := [⟨ascii "hi", 0, 900⟩]

theorem responses_decode_sample :
    transcribeResponseFromJson sampleTranscript.toJson = .ok sampleTranscript ∧
      transcriptionStatusFromJson (sampleStatus 7200000).toJson = .ok (sampleStatus 7200000) := by
  constructor
  · refine ((responses_decode_iff sampleTranscript (sampleStatus 0) _).1
      sampleTranscript.writtenAs_toJson).2 ?_
    refine ⟨by decide, by decide, by decide, ?_⟩
    simp only [sampleTranscript, List.forall_mem_singleton]
    exact ⟨by decide, by decide⟩
  · refine ((responses_decode_iff sampleTranscript (sampleStatus 7200000) _).2.1
      (sampleStatus 7200000).writtenAs_toJson).2 ?_
    refine ⟨by decide, by decide, by decide, ?_⟩
    simp only [sampleStatus, List.forall_mem_singleton]
    refine ⟨by decide, by decide, by decide, ?_, by decide, by decide, by decide⟩
    simp only [List.forall_mem_singleton]
    exact ⟨by decide, by decide⟩

/-- **An offset of 2^31 ms is lost**: it comes back negative. -/
theorem narrowed_offset :
    InInt64 2147483648 ∧ (sampleStatus 2147483648).WrittenAs (sampleStatus 2147483648).toJson ∧
      transcriptionStatusFromJson (sampleStatus 2147483648).toJson =
        .ok (sampleStatus (-2147483648)) ∧
      sampleStatus (-2147483648) ≠ sampleStatus 2147483648 := by
  refine ⟨by decide, TranscriptionStatus.writtenAs_toJson _, ?_, ?_⟩
  · rw [TranscriptionStatus.fromJson_writtenAs (TranscriptionStatus.writtenAs_toJson _)]
    rfl
  · intro h
    have hdetail := congrArg TranscriptionStatus.resultDetail h
    simp only [sampleStatus, List.cons.injEq, SentenceDetail.mk.injEq] at hdetail
    omega

end TrtcAsr.V3
