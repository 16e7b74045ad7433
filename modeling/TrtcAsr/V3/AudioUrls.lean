/-
  The pieces of a distributed recording (v3.cc, `ValidateAudioURLs`).

  * `Distributable`: what a request with pieces must be, for its list as a whole;
  * `validateItems_decides`: the loop decides that of the pieces that are left, the indexes
    before them being those that it has collected;
  * `validateAudioURLs_decides`: the check is exact.
-/
import TrtcAsr.Lib.Checks
import TrtcAsr.V3.Requests

namespace TrtcAsr.V3

/-- A local check: it throws `kErrInvalidParam` or nothing. -/
abbrev Validates (check : Except ASRError Unit) (p : Prop) : Prop :=
  Decides (fun err => err.code = kErrInvalidParam) check p

theorem validates_if {c q : Prop} [Decidable c] {message : Bytes} {rest : Except ASRError Unit}
    (h : Validates rest q) : Validates (if c then invalidParam message else rest) (¬ c ∧ q) :=
  Decides.refusing rfl h

theorem validates_rejectIf (c : Prop) [Decidable c] (message : Bytes) :
    Validates (rejectIf c message) (¬ c) :=
  (validates_if .ok).congr (Iff.of_eq (and_true _))

/-- The URL starts with `http://` or `https://`. -/
def HasHttpPrefix (url : Bytes) : Prop := ascii "http://" <+: url ∨ ascii "https://" <+: url

theorem isHttpUrl_iff (url : Bytes) : isHttpUrl url = true ↔ HasHttpPrefix url := by
  rw [isHttpUrl, Bool.or_eq_true, List.isPrefixOf_iff_prefix, List.isPrefixOf_iff_prefix,
    HasHttpPrefix]

/-- Pieces that can be told apart and fetched. -/
structure Pieces (items : List AudioURLItem) : Prop where
  nonneg : ∀ item ∈ items, 0 ≤ item.index
  distinct : (items.map AudioURLItem.index).Pairwise (· ≠ ·)
  http : ∀ item ∈ items, HasHttpPrefix item.url

/-- A source of type 0 that has nothing but its pieces. -/
structure Distributable (sourceType : ℤ) (url data : Bytes) (audioUrls : List AudioURLItem) :
    Prop where
  sourceType : sourceType = 0
  url : url = []
  data : data = []
  pieces : Pieces audioUrls

theorem pieces_nil : Pieces [] := ⟨by simp, .nil, by simp⟩

theorem pieces_cons {item : AudioURLItem} {items : List AudioURLItem} :
    Pieces (item :: items) ↔ 0 ≤ item.index ∧ HasHttpPrefix item.url ∧
      (∀ later ∈ items, item.index ≠ later.index) ∧ Pieces items := by
  constructor
  · rintro ⟨hindex, hdistinct, hhttp⟩
    rw [List.map_cons, List.pairwise_cons] at hdistinct
    obtain ⟨hhead, htail⟩ := hdistinct
    rw [List.forall_mem_cons] at hindex hhttp
    exact ⟨hindex.1, hhttp.1, fun later hl => hhead _ (List.mem_map_of_mem hl),
      ⟨hindex.2, htail, hhttp.2⟩⟩
  · rintro ⟨hindex, hhttp, hhead, htail⟩
    refine ⟨List.forall_mem_cons.2 ⟨hindex, htail.nonneg⟩, ?_,
      List.forall_mem_cons.2 ⟨hhttp, htail.http⟩⟩
    rw [List.map_cons, List.pairwise_cons]
    refine ⟨?_, htail.distinct⟩
    intro index hm
    obtain ⟨later, hl, rfl⟩ := List.mem_map.1 hm
    exact hhead later hl

/-- The loop accepts pieces that are well formed and repeat no index `seen` before them. -/
theorem validateItems_decides (i : ℕ) (seen : List ℤ) (items : List AudioURLItem) :
    Validates (validateItems i seen items)
      (Pieces items ∧ ∀ item ∈ items, item.index ∉ seen) := by
  induction items generalizing i seen with
  | nil => exact Decides.ok.congr (iff_of_true trivial ⟨pieces_nil, by simp⟩)
  | cons item items ih =>
    unfold validateItems
    refine (validates_if (validates_if (validates_if (ih _ _)))).congr ?_
    -- the index of the first piece is seen by all the others
    have hseen : (∀ later ∈ items, later.index ∉ seen ++ [item.index]) ↔
        (∀ later ∈ items, item.index ≠ later.index) ∧ ∀ later ∈ items, later.index ∉ seen := by
      rw [← forall₂_and]
      refine forall₂_congr fun later _ => ?_
      rw [List.mem_append, List.mem_singleton, not_or, and_comm, ne_comm]
    rw [hseen, pieces_cons, List.forall_mem_cons, not_not, isHttpUrl_iff, not_lt]
    constructor
    · rintro ⟨hindex, hfresh, hhttp, hpieces, hhead, htail⟩
      exact ⟨⟨hindex, hhttp, hhead, hpieces⟩, hfresh, htail⟩
    · rintro ⟨⟨hindex, hhttp, hhead, hpieces⟩, hfresh, htail⟩
      exact ⟨hindex, hfresh, hhttp, hpieces, hhead, htail⟩

/-- **The check of the pieces is exact**: it returns for the distributable sources, and throws
    `kErrInvalidParam` for all others. -/
theorem validateAudioURLs_decides (sourceType : ℤ) (url data : Bytes)
    (audioUrls : List AudioURLItem) :
    Validates (validateAudioURLs sourceType url data audioUrls)
      (Distributable sourceType url data audioUrls) := by
  unfold validateAudioURLs
  refine (validates_if (validateItems_decides 0 [] audioUrls)).congr ?_
  constructor
  · rintro ⟨hsource, hpieces, -⟩
    push Not at hsource
    obtain ⟨hs, hurl, hdata⟩ := hsource
    exact ⟨hs, hurl, hdata, hpieces⟩
  · rintro ⟨hs, hurl, hdata, hpieces⟩
    refine ⟨?_, hpieces, fun _ _ => List.not_mem_nil⟩
    rintro (h | h | h)
    · exact h hs
    · exact h hurl
    · exact h hdata

example : validateAudioURLs 0 [] [] [⟨0, ascii "http://a/1", []⟩, ⟨1, ascii "http://a/2", []⟩,
    ⟨0, ascii "http://a/3", []⟩] = invalidParam (ascii "AudioURLs index duplicated: 0") := by
  decide

end TrtcAsr.V3
