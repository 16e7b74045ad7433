/-
  The status of a recognition task as JSON, and `ParseTaskStatus` as its inverse
  (file_recognizer.h, file_recognizer.cc).

  * `Spelled`: an offset of a word under one of its two names, the other holding anything, or under
    the fallback name with a null under the preferred one;
  * `WrittenAs`: the JSON of a record under its documented names, whatever other members it has;
    `toJson` is one such JSON for each choice of spellings;
  * `Valid`: the integers of a record are values of their C++ types;
  * `task_status_round_trip`: a status is parsed from each JSON that it is written as.
-/
import TrtcAsr.Lib.JsonRecord
import TrtcAsr.V2.Responses

namespace TrtcAsr.V2

open Json (InInt InInt64 hasInt_number hasList_map isInt_number mapM_of_hasList number
  value_double value_int64 value_int_of_inInt value_str)

/-! ## Offsets -/

/-- An offset `n` of a word. -/
inductive Spelled (j : Json) (primary fallback : String) (n : ℤ) : Prop where
  | primary (h : j.HasInt primary n)
  | fallback (hno : j.member primary = none ∨ j.member primary = some .null) (h : j.HasInt fallback n)

theorem presentAt_of_hasInt {j : Json} {k : String} {n : ℤ} (h : j.HasInt k n) (hn : InInt64 n) :
    ∃ v, presentAt j k = some v ∧ v.getInt64 = some n := by
  obtain ⟨v, hv, hint⟩ := h
  refine ⟨v, ?_, hint.getInt64 hn⟩
  rw [presentAt, hv]
  cases hint with
  | int n => rfl
  | uint n => rfl

theorem presentAt_eq_none {j : Json} {k : String}
    (h : j.member k = none ∨ j.member k = some .null) : presentAt j k = none := by
  rw [presentAt]
  rcases h with h | h
  · rw [h]
    rfl
  · rw [h]
    rfl

/-- **The preferred spelling wins** wherever it has a value. -/
theorem pickInt_primary {j : Json} {primary : String} {n : ℤ} (fallback : String)
    (h : j.HasInt primary n) (hn : InInt64 n) : pickInt j primary fallback = .ok n := by
  obtain ⟨v, hv, hget⟩ := presentAt_of_hasInt h hn
  rw [pickInt, hv, Option.some_or]
  simp only [hget]

theorem pickInt_spelled {j : Json} {primary fallback : String} {n : ℤ}
    (h : Spelled j primary fallback n) (hn : InInt64 n) : pickInt j primary fallback = .ok n := by
  cases h with
  | primary h => exact pickInt_primary fallback h hn
  | fallback hno h =>
    obtain ⟨v, hv, hget⟩ := presentAt_of_hasInt h hn
    rw [pickInt, presentAt_eq_none hno, hv, Option.none_or]
    simp only [hget]

/-- How an offset is written: under the preferred name, with anything or nothing under the other, or
    under the fallback, with a null or nothing under the preferred name. -/
inductive Spelling where
  | primary (other : Option Json)
  | fallback (null : Bool)

def Spelling.members (primary fallback : String) (n : ℤ) : Spelling → Members
  | .primary other => (primary, number n) :: (other.toList.map fun v => (fallback, v))
  | .fallback null => (if null then [(primary, .null)] else []) ++ [(fallback, number n)]

/-! ## Words -/

namespace SentenceWords

structure WrittenAs (w : SentenceWords) (j : Json) : Prop where
  word : j.HasStr "Word" w.word
  offsetStartMs : Spelled j "StartTime" "OffsetStartMs" w.offsetStartMs
  offsetEndMs : Spelled j "EndTime" "OffsetEndMs" w.offsetEndMs

def toJson (w : SentenceWords) (start stop : Spelling) : Json :=
  .obj <| ("Word", .str w.word) :: (start.members "StartTime" "OffsetStartMs" w.offsetStartMs ++
    stop.members "EndTime" "OffsetEndMs" w.offsetEndMs)

structure Valid (w : SentenceWords) : Prop where
  offsetStartMs : InInt64 w.offsetStartMs
  offsetEndMs : InInt64 w.offsetEndMs

theorem writtenAs_toJson (w : SentenceWords) (start stop : Spelling) :
    w.WrittenAs (w.toJson start stop) := by
  -- the members of the start offset are passed over
  have hstop : (w.toJson start stop).member "EndTime" =
      List.lookup "EndTime" (stop.members "EndTime" "OffsetEndMs" w.offsetEndMs) := by
    rcases start with (_ | other) | (_ | _)
    all_goals rfl
  have hstop' : (w.toJson start stop).member "OffsetEndMs" =
      List.lookup "OffsetEndMs" (stop.members "EndTime" "OffsetEndMs" w.offsetEndMs) := by
    rcases start with (_ | other) | (_ | _)
    all_goals rfl
  refine ⟨rfl, ?_, ?_⟩
  · rcases start with other | (_ | _)
    · exact .primary (hasInt_number rfl)
    · refine .fallback (.inl ?_) (hasInt_number rfl)
      rcases stop with (_ | other) | (_ | _)
      all_goals rfl
    · exact .fallback (.inr rfl) (hasInt_number rfl)
  · rcases stop with other | (_ | _)
    · exact .primary (hasInt_number (hstop.trans rfl))
    · exact .fallback (.inl (hstop.trans rfl)) (hasInt_number (hstop'.trans rfl))
    · exact .fallback (.inr (hstop.trans rfl)) (hasInt_number (hstop'.trans rfl))

theorem parse_writtenAs {w : SentenceWords} {j : Json} (h : w.WrittenAs j) (hw : w.Valid) :
    parseSentenceWords j = .ok w := by
  rw [parseSentenceWords, value_str h.word, pickInt_spelled h.offsetStartMs hw.offsetStartMs,
    pickInt_spelled h.offsetEndMs hw.offsetEndMs]
  rfl

end SentenceWords

/-! ## Sentences -/

namespace SentenceDetail

structure WrittenAs (d : SentenceDetail) (j : Json) : Prop where
  finalSentence : j.HasStr "FinalSentence" d.finalSentence
  sliceSentence : j.HasStr "SliceSentence" d.sliceSentence
  writtenText : j.HasStr "WrittenText" d.writtenText
  startMs : j.HasInt "StartMs" d.startMs
  endMs : j.HasInt "EndMs" d.endMs
  wordsNum : j.HasInt "WordsNum" d.wordsNum
  words : j.HasList SentenceWords.WrittenAs "Words" d.words
  speechSpeed : j.HasDouble "SpeechSpeed" d.speechSpeed
  silenceTime : j.HasInt "SilenceTime" d.silenceTime
  speakerId : j.HasInt "SpeakerId" d.speakerId
  speakerRoleName : j.HasStr "SpeakerRoleName" d.speakerRoleName
  channelId : j.HasInt "ChannelId" d.channelId
  language : j.HasStr "Language" d.language

def toJson (d : SentenceDetail) (spell : SentenceWords → Spelling × Spelling) : Json :=
  .obj [("FinalSentence", .str d.finalSentence), ("SliceSentence", .str d.sliceSentence),
    ("WrittenText", .str d.writtenText), ("StartMs", number d.startMs), ("EndMs", number d.endMs),
    ("WordsNum", number d.wordsNum),
    ("Words", .arr (d.words.map fun w => w.toJson (spell w).1 (spell w).2)),
    ("SpeechSpeed", .float d.speechSpeed), ("SilenceTime", number d.silenceTime),
    ("SpeakerId", number d.speakerId), ("SpeakerRoleName", .str d.speakerRoleName),
    ("ChannelId", number d.channelId), ("Language", .str d.language)]

structure Valid (d : SentenceDetail) : Prop where
  startMs : InInt64 d.startMs
  endMs : InInt64 d.endMs
  wordsNum : InInt d.wordsNum
  words : ∀ w ∈ d.words, w.Valid
  silenceTime : InInt64 d.silenceTime
  speakerId : InInt d.speakerId
  channelId : InInt d.channelId

theorem writtenAs_toJson (d : SentenceDetail) (spell : SentenceWords → Spelling × Spelling) :
    d.WrittenAs (d.toJson spell) where
  finalSentence := rfl
  sliceSentence := rfl
  writtenText := rfl
  startMs := hasInt_number rfl
  endMs := hasInt_number rfl
  wordsNum := hasInt_number rfl
  words := hasList_map rfl fun w => w.writtenAs_toJson (spell w).1 (spell w).2
  speechSpeed := rfl
  silenceTime := hasInt_number rfl
  speakerId := hasInt_number rfl
  speakerRoleName := rfl
  channelId := hasInt_number rfl
  language := rfl

theorem parse_writtenAs {d : SentenceDetail} {j : Json} (h : d.WrittenAs j) (hd : d.Valid) :
    parseSentenceDetail j = .ok d := by
  have hwords : (j.arrayAt "Words").mapM parseSentenceWords = .ok (d.words.map id) :=
    mapM_of_hasList h.words fun w hw _ hp => SentenceWords.parse_writtenAs hp (hd.words w hw)
  rw [List.map_id] at hwords
  rw [parseSentenceDetail, value_str h.finalSentence, value_str h.sliceSentence,
    value_str h.writtenText, value_int64 h.startMs hd.startMs, value_int64 h.endMs hd.endMs,
    value_int_of_inInt h.wordsNum hd.wordsNum, value_double h.speechSpeed,
    value_int64 h.silenceTime hd.silenceTime, value_int_of_inInt h.speakerId hd.speakerId,
    value_str h.speakerRoleName, value_int_of_inInt h.channelId hd.channelId, value_str h.language,
    hwords]
  rfl

end SentenceDetail

/-! ## Tasks -/

namespace TaskStatus

structure WrittenAs (t : TaskStatus) (j : Json) : Prop where
  recTaskId : j.HasStr "RecTaskId" t.recTaskId
  status : j.HasInt "Status" t.status
  statusStr : j.HasStr "StatusStr" t.statusStr
  progress : j.HasInt "Progress" t.progress
  result : j.HasStr "Result" t.result
  errorMsg : j.HasStr "ErrorMsg" t.errorMsg
  resultDetail : j.HasList SentenceDetail.WrittenAs "ResultDetail" t.resultDetail
  audioDuration : j.HasDouble "AudioDuration" t.audioDuration

def toJson (t : TaskStatus) (spell : SentenceWords → Spelling × Spelling) : Json :=
  .obj [("RecTaskId", .str t.recTaskId), ("Status", number t.status),
    ("StatusStr", .str t.statusStr), ("Progress", number t.progress), ("Result", .str t.result),
    ("ErrorMsg", .str t.errorMsg), ("ResultDetail", .arr (t.resultDetail.map (·.toJson spell))),
    ("AudioDuration", .float t.audioDuration)]

structure Valid (t : TaskStatus) : Prop where
  status : InInt t.status
  progress : InInt t.progress
  resultDetail : ∀ d ∈ t.resultDetail, d.Valid

theorem writtenAs_toJson (t : TaskStatus) (spell : SentenceWords → Spelling × Spelling) :
    t.WrittenAs (t.toJson spell) where
  recTaskId := rfl
  status := hasInt_number rfl
  statusStr := rfl
  progress := hasInt_number rfl
  result := rfl
  errorMsg := rfl
  resultDetail := hasList_map rfl fun d => d.writtenAs_toJson spell
  audioDuration := rfl

theorem parse_writtenAs {t : TaskStatus} {j : Json} (h : t.WrittenAs j) (ht : t.Valid) :
    parseTaskStatus j = .ok t := by
  have hdetail : (j.arrayAt "ResultDetail").mapM parseSentenceDetail =
      .ok (t.resultDetail.map id) :=
    mapM_of_hasList h.resultDetail fun d hd _ hp =>
      SentenceDetail.parse_writtenAs hp (ht.resultDetail d hd)
  rw [List.map_id] at hdetail
  rw [parseTaskStatus, value_str h.recTaskId, value_int_of_inInt h.status ht.status,
    value_str h.statusStr, value_int_of_inInt h.progress ht.progress, value_str h.result,
    value_str h.errorMsg, value_double h.audioDuration, hdetail]
  rfl

end TaskStatus

/-- **`ParseTaskStatus` inverts the wire format.**  A status comes back from every JSON that it is
    written as, under either spelling of each offset, and from one for every choice of spellings;
    the preferred spelling wins wherever it has a value. -/
theorem task_status_round_trip :
    (∀ (t : TaskStatus) (j : Json), t.Valid → t.WrittenAs j → parseTaskStatus j = .ok t) ∧
      (∀ (t : TaskStatus) spell, t.WrittenAs (t.toJson spell)) ∧
      ∀ (w : Json) (primary fallback : String) (n : ℤ), InInt64 n → w.HasInt primary n →
        pickInt w primary fallback = .ok n :=
  ⟨fun _ _ ht h => TaskStatus.parse_writtenAs h ht, TaskStatus.writtenAs_toJson,
    fun _ _ fallback _ hn h => pickInt_primary fallback h hn⟩

/-! A task with two words: the first begins at 0 under both names, and its end and the second word
have the older names, with a null under the preferred one. -/

def sampleWordsJson : List Json :=
  [.obj [("Word", .str (ascii "a")), ("StartTime", .uint 0), ("OffsetStartMs", .uint 77),
      ("EndTime", .null), ("OffsetEndMs", .uint 500)],
    .obj [("Word", .str (ascii "b")), ("OffsetStartMs", .uint 500), ("OffsetEndMs", .uint 900)]]

def sampleTaskJson : Json :=
  .obj [("RecTaskId", .str (ascii "task")), ("Status", .uint 2), ("StatusStr", .str []),
    ("Progress", .uint 100), ("Result", .str []), ("ErrorMsg", .str []),
    ("AudioDuration", .float .zero),
    ("ResultDetail", .arr [.obj [("FinalSentence", .str []), ("SliceSentence", .str []),
      ("WrittenText", .str []), ("StartMs", .uint 0), ("EndMs", .uint 900), ("WordsNum", .uint 2),
      ("Words", .arr sampleWordsJson), ("SpeechSpeed", .float .zero), ("SilenceTime", .uint 0),
      ("SpeakerId", .uint 0), ("SpeakerRoleName", .str []), ("ChannelId", .uint 0),
      ("Language", .str [])]])]

def sampleDetail : SentenceDetail where
  finalSentence := []
  sliceSentence := []
  writtenText := []
  startMs := 0
  endMs := 900
  wordsNum := 2
  words := [⟨ascii "a", 0, 500⟩, ⟨ascii "b", 500, 900⟩]
  speechSpeed := .zero
  silenceTime := 0
  speakerId := 0
  speakerRoleName := []
  channelId := 0
  language := []

def sampleTaskStatus : TaskStatus where
  recTaskId := ascii "task"
  status := 2
  statusStr := []
  progress := 100
  result := []
  errorMsg := []
  resultDetail := [sampleDetail]
  audioDuration := .zero

theorem task_status_round_trip_sample : parseTaskStatus sampleTaskJson = .ok sampleTaskStatus := by
  have huint : ∀ {j : Json} {k : String} (n : ℕ), j.member k = some (.uint n) → j.HasInt k n :=
    fun n h => ⟨_, h, .uint n⟩
  have hwords : List.Forall₂ SentenceWords.WrittenAs sampleDetail.words sampleWordsJson :=
    .cons ⟨rfl, .primary (huint 0 rfl), .fallback (.inr rfl) (huint 500 rfl)⟩ <|
      .cons ⟨rfl, .fallback (.inl rfl) (huint 500 rfl), .fallback (.inl rfl) (huint 900 rfl)⟩ .nil
  have hdetail : sampleDetail.Valid := by
    refine ⟨by decide, by decide, by decide, ?_, by decide, by decide, by decide⟩
    rintro w (_ | ⟨_, _ | ⟨_, ⟨⟩⟩⟩)
    · exact ⟨by decide, by decide⟩
    · exact ⟨by decide, by decide⟩
  refine task_status_round_trip.1 sampleTaskStatus sampleTaskJson ?_ ?_
  · refine ⟨by decide, by decide, ?_⟩
    rintro d (_ | ⟨_, ⟨⟩⟩)
    exact hdetail
  · refine ⟨rfl, huint 2 rfl, rfl, huint 100 rfl, rfl, rfl, ⟨_, rfl, .cons ?_ .nil⟩, rfl⟩
    exact ⟨rfl, rfl, rfl, huint 0 rfl, huint 900 rfl, huint 2 rfl, ⟨_, rfl, hwords⟩, rfl,
      huint 0 rfl, huint 0 rfl, rfl, huint 0 rfl, rfl⟩

end TrtcAsr.V2
