/-
  The audio source of an accepted v3 request (v3.cc, `Validate` and `…ToWire`).

  Validation and encoding each look at `source_type` on their own, and neither refuses a value that
  is not one of its constants.

  * `sources`: the audio sources that a `params` block carries;
  * `selected`: the one that `source_type` selects;
  * `one_source_iff`: an accepted request names exactly the selected source when its `source_type`
    is 0 or 1, and only then.
-/
import TrtcAsr.V3.WireFormat

namespace TrtcAsr.V3

open Json (member)

/-! ## The sources of a block -/

inductive AudioSource where
  | url (url : Bytes)
  | data (data : Bytes) (dataLen : Option Json)
  | pieces (items : List Json)

def urlSource (params : Json) : List AudioSource :=
  match params.member "url" with
  | some (.str url) => if url = [] then [] else [.url url]
  | _ => []

def dataSource (params : Json) : List AudioSource :=
  match params.member "data" with
  | some (.str data) => if data = [] then [] else [.data data (params.member "data_len")]
  | _ => []

def piecesSource (params : Json) : List AudioSource :=
  match params.member "audio_urls" with
  | some (.arr items) => if items = [] then [] else [.pieces items]
  | _ => []

/-- The audio sources of a block that are not empty. -/
def sources (params : Json) : List AudioSource :=
  urlSource params ++ dataSource params ++ piecesSource params

/-- The block carries a source type, and as its only source the one that the type selects. -/
structure NamesOne (params : Json) (sourceType : ℤ) (selected : Option AudioSource) : Prop where
  sourceType : params.member "source_type" = some (.int sourceType)
  source : ∃ s, selected = some s ∧ sources params = [s]

def KnownSourceType (sourceType : ℤ) : Prop :=
  sourceType = kSourceTypeUrl ∨ sourceType = kSourceTypeData

instance (sourceType : ℤ) : Decidable (KnownSourceType sourceType) :=
  inferInstanceAs (Decidable (_ ∨ _))

theorem url_ne_data : kSourceTypeUrl ≠ kSourceTypeData := by decide

/-- Only the two source types select a source. -/
theorem known_of_selects {sourceType : ℤ} {url data : Option AudioSource} {s : AudioSource}
    (h : (if sourceType = kSourceTypeUrl then url
      else if sourceType = kSourceTypeData then data else none) = some s) :
    KnownSourceType sourceType := by
  split at h
  · rename_i hurl
    exact .inl hurl
  split at h
  · rename_i hdata
    exact .inr hdata
  · cases h

/-! ## Transcribe -/

namespace TranscribeRequest

def selected (req : TranscribeRequest) : Option AudioSource :=
  if req.sourceType = kSourceTypeUrl then some (.url req.url)
  else if req.sourceType = kSourceTypeData then some (.data req.data (some (.int req.dataLen)))
  else none

variable {req : TranscribeRequest}

theorem source_of_validate (h : req.validate = .ok ()) :
    (req.sourceType = kSourceTypeUrl → req.url ≠ []) ∧
      (req.sourceType = kSourceTypeData → req.data ≠ []) := by
  unfold validate at h
  obtain ⟨_, -, h⟩ := bind_eq_ok.1 h
  obtain ⟨_, -, h⟩ := bind_eq_ok.1 h
  obtain ⟨_, hurl, h⟩ := bind_eq_ok.1 h
  obtain ⟨_, hdata, -⟩ := bind_eq_ok.1 h
  rw [rejectIf_eq_ok, not_and] at hurl hdata
  exact ⟨hurl, hdata⟩

theorem member_sourceType (req : TranscribeRequest) :
    (transcribeRequestToWire req).member "source_type" = some (.int req.sourceType) := by
  unfold transcribeRequestToWire
  split
  all_goals simp [member]

theorem member_audioUrls (req : TranscribeRequest) :
    (transcribeRequestToWire req).member "audio_urls" = none := by
  unfold transcribeRequestToWire
  split
  all_goals simp [member]

theorem member_source (req : TranscribeRequest) :
    (transcribeRequestToWire req).member "url" =
        (if req.sourceType = kSourceTypeUrl then some (.str req.url) else none) ∧
      (transcribeRequestToWire req).member "data" =
        (if req.sourceType = kSourceTypeUrl then none else some (.str req.data)) ∧
      (transcribeRequestToWire req).member "data_len" =
        (if req.sourceType = kSourceTypeUrl then none else some (.int req.dataLen)) := by
  unfold transcribeRequestToWire
  by_cases h : req.sourceType = kSourceTypeUrl
  · simp [h, member]
  · simp [h, member]

/-- Requests that do not name a URL carry `data`, whatever their source type is. -/
theorem sources_toWire (req : TranscribeRequest) :
    sources (transcribeRequestToWire req) =
      if req.sourceType = kSourceTypeUrl then if req.url = [] then [] else [.url req.url]
      else if req.data = [] then [] else [.data req.data (some (.int req.dataLen))] := by
  obtain ⟨hurl, hdata, hlen⟩ := member_source req
  rw [sources, urlSource, dataSource, piecesSource, hurl, hdata, hlen, member_audioUrls]
  by_cases h : req.sourceType = kSourceTypeUrl
  · simp only [if_pos h, List.append_nil]
  · simp only [if_neg h, List.append_nil, List.nil_append]

theorem namesOne_iff (h : req.validate = .ok ()) :
    NamesOne (transcribeRequestToWire req) req.sourceType req.selected ↔
      KnownSourceType req.sourceType := by
  obtain ⟨hurl, hdata⟩ := source_of_validate h
  constructor
  · rintro ⟨-, s, hsel, -⟩
    exact known_of_selects hsel
  · intro hknown
    refine ⟨member_sourceType req, ?_⟩
    rw [sources_toWire, selected]
    rcases hknown with hu | hd
    · rw [if_pos hu, if_pos hu, if_neg (hurl hu)]
      exact ⟨_, rfl, rfl⟩
    · have hu : ¬ req.sourceType = kSourceTypeUrl := hd ▸ url_ne_data.symm
      rw [if_neg hu, if_neg hu, if_pos hd, if_neg (hdata hd)]
      exact ⟨_, rfl, rfl⟩

end TranscribeRequest

/-! ## Create -/

namespace CreateTranscriptionRequest

def selected (req : CreateTranscriptionRequest) : Option AudioSource :=
  if req.sourceType = kSourceTypeUrl then
    if req.audioUrls = [] then some (.url req.url)
    else some (.pieces (req.audioUrls.map AudioURLItem.toWire))
  else if req.sourceType = kSourceTypeData then some (.data req.data (some (.int req.dataLen)))
  else none

variable {req : CreateTranscriptionRequest}

theorem member_sourceType (req : CreateTranscriptionRequest) :
    (createTranscriptionRequestToWire req).member "source_type" = some (.int req.sourceType) := by
  simp [createTranscriptionRequestToWire, member]

theorem piecesSource_toWire (req : CreateTranscriptionRequest) :
    piecesSource (createTranscriptionRequestToWire req) =
      if req.audioUrls = [] then [] else [.pieces (req.audioUrls.map AudioURLItem.toWire)] := by
  have hmember : (createTranscriptionRequestToWire req).member "audio_urls" =
      if req.audioUrls ≠ [] then some (.arr (req.audioUrls.map AudioURLItem.toWire)) else none := by
    simp [createTranscriptionRequestToWire, member]
  rw [piecesSource, hmember]
  by_cases hitems : req.audioUrls = []
  · rw [if_neg (not_not.2 hitems), if_pos hitems]
  · rw [if_pos hitems, if_neg hitems]
    exact if_neg fun h => hitems (List.map_eq_nil_iff.1 h)

theorem member_source (req : CreateTranscriptionRequest) :
    (createTranscriptionRequestToWire req).member "url" =
        (if req.sourceType = kSourceTypeUrl ∧ req.url ≠ [] then some (.str req.url) else none) ∧
      (createTranscriptionRequestToWire req).member "data" =
        (if req.sourceType = kSourceTypeData ∧ req.data ≠ [] then some (.str req.data) else none) ∧
      (createTranscriptionRequestToWire req).member "data_len" =
        (if req.sourceType = kSourceTypeData ∧ req.data ≠ [] then some (.int req.dataLen)
          else none) := by
  simp only [createTranscriptionRequestToWire, member, Members.lookup_putIf_of_ne,
    Members.lookup_putSome_of_ne, ne_eq, String.reduceEq, not_false_eq_true]
  unfold putSource
  by_cases hu : req.sourceType = kSourceTypeUrl ∧ req.url ≠ []
  · have hd : ¬ (req.sourceType = kSourceTypeData ∧ req.data ≠ []) :=
      fun h => url_ne_data (hu.1.symm.trans h.1)
    simp [if_pos hu, if_neg hd]
  by_cases hd : req.sourceType = kSourceTypeData ∧ req.data ≠ []
  · simp [if_neg hu, if_pos hd]
  · simp [if_neg hu, if_neg hd]

/-- Without one of the two source types a request carries no source but its pieces. -/
theorem sources_toWire (req : CreateTranscriptionRequest) :
    sources (createTranscriptionRequestToWire req) =
      (if req.sourceType = kSourceTypeUrl ∧ req.url ≠ [] then [.url req.url]
        else if req.sourceType = kSourceTypeData ∧ req.data ≠ [] then
          [.data req.data (some (.int req.dataLen))]
        else []) ++
      if req.audioUrls = [] then [] else [.pieces (req.audioUrls.map AudioURLItem.toWire)] := by
  obtain ⟨hurl, hdata, hlen⟩ := member_source req
  rw [sources, piecesSource_toWire, urlSource, dataSource, hurl, hdata, hlen]
  by_cases hu : req.sourceType = kSourceTypeUrl ∧ req.url ≠ []
  · have hd : ¬ (req.sourceType = kSourceTypeData ∧ req.data ≠ []) :=
      fun h => url_ne_data (hu.1.symm.trans h.1)
    simp only [if_pos hu, if_neg hd, if_neg hu.2, List.append_nil]
  by_cases hd : req.sourceType = kSourceTypeData ∧ req.data ≠ []
  · simp only [if_neg hu, if_pos hd, if_neg hd.2, List.nil_append]
  · simp only [if_neg hu, if_neg hd, List.append_nil]

theorem namesOne_iff (h : req.validate = .ok ()) :
    NamesOne (createTranscriptionRequestToWire req) req.sourceType req.selected ↔
      KnownSourceType req.sourceType := by
  obtain ⟨hpieces, hsingle⟩ := source_of_validateSource (validateSource_of_validate h)
  constructor
  · rintro ⟨-, s, hsel, -⟩
    exact known_of_selects hsel
  · intro hknown
    refine ⟨member_sourceType req, ?_⟩
    rw [sources_toWire, selected]
    by_cases hitems : req.audioUrls = []
    · obtain ⟨hurl, hdata⟩ := hsingle hitems
      rw [if_pos hitems, if_pos hitems, List.append_nil]
      rcases hknown with hu | hd
      · rw [if_pos hu, if_pos ⟨hu, hurl hu⟩]
        exact ⟨_, rfl, rfl⟩
      · have hu : ¬ req.sourceType = kSourceTypeUrl := hd ▸ url_ne_data.symm
        rw [if_neg hu, if_pos hd, if_neg (fun h => hu h.1), if_pos ⟨hd, hdata hd⟩]
        exact ⟨_, rfl, rfl⟩
    · -- pieces go out alone: their request has neither a URL nor data
      obtain ⟨hu, hurl, hdata⟩ := hpieces hitems
      rw [if_pos hu, if_neg hitems, if_neg hitems, if_neg (fun h => h.2 hurl),
        if_neg (fun h => h.2 hdata)]
      exact ⟨_, rfl, rfl⟩

end CreateTranscriptionRequest

/-- **An accepted request names the source that its type selects**, and no other, exactly when the
    type is one of the two that there are. -/
theorem one_source_iff (req : TranscribeRequest) (creq : CreateTranscriptionRequest) :
    (req.validate = .ok () →
      (NamesOne (transcribeRequestToWire req) req.sourceType req.selected ↔
        KnownSourceType req.sourceType)) ∧
    (creq.validate = .ok () →
      (NamesOne (createTranscriptionRequestToWire creq) creq.sourceType creq.selected ↔
        KnownSourceType creq.sourceType)) :=
  ⟨TranscribeRequest.namesOne_iff, CreateTranscriptionRequest.namesOne_iff⟩

def sampleTranscribe (sourceType : ℤ) : TranscribeRequest where
  engineModelType := ascii "16k_zh"
  sourceType := sourceType
  url := ascii "https://h/a.wav"

def sampleCreate (sourceType : ℤ) : CreateTranscriptionRequest where
  engineModelType := ascii "16k_zh"
  sourceType := sourceType
  url := ascii "https://h/a.wav"

theorem one_source_sample :
    NamesOne (transcribeRequestToWire (sampleTranscribe 0)) 0 (sampleTranscribe 0).selected ∧
      NamesOne (createTranscriptionRequestToWire (sampleCreate 0)) 0 (sampleCreate 0).selected := by
  obtain ⟨htranscribe, hcreate⟩ := one_source_iff (sampleTranscribe 0) (sampleCreate 0)
  constructor
  · exact (htranscribe (by decide)).2 (by decide)
  · exact (hcreate (by decide)).2 (by decide)

/-- **A source type of 2 passes**, and the request goes out without a source. -/
theorem unknown_source_type :
    (sampleTranscribe 2).validate = .ok () ∧
      sources (transcribeRequestToWire (sampleTranscribe 2)) = [] ∧
      (sampleCreate 2).validate = .ok () ∧
      sources (createTranscriptionRequestToWire (sampleCreate 2)) = [] := by
  refine ⟨by decide, ?_, by decide, ?_⟩
  · rw [TranscribeRequest.sources_toWire]
    rfl
  · rw [CreateTranscriptionRequest.sources_toWire]
    rfl

end TrtcAsr.V3
