/-
  The head of an HTTP/1.1 message: of a request without a body, and of a response.

  * `infix_crlfLines`: a text without line ends is searched line by line.
  * `RequestHead.parse` reads a text that is one request head and nothing else: a request
    line of three words, field lines, and the empty line.
  * `RequestHead.parse_headText`: a head that is written out is read back.
  * `RequestHead.target_of_parse`: when the text of a head is read with as many fields as
    were written, the target that is read is the one that was written.
  * `infix_of_statusCode`: a status code stands in the head after a space.
-/
import Mathlib.Data.List.Basic
import Mathlib.Data.List.Infix
import Mathlib.Data.List.TakeWhile
import TrtcAsr.Lib.Bytes

namespace TrtcAsr

/-! ## Lines -/

def crlf : Bytes := [0x0D, 0x0A]

/-- The lines of a text: what stands before, between and after its CRLFs. -/
def crlfLines : Bytes → List Bytes
  | [] => [[]]
  | [b] => [[b]]
  | b :: b' :: s =>
    if b = 0x0D ∧ b' = 0x0A then [] :: crlfLines s
    else (crlfLines (b' :: s)).modifyHead (b :: ·)

theorem crlfLines_ne_nil (s : Bytes) : crlfLines s ≠ [] := by
  induction s using crlfLines.induct with
  | case1 => exact nofun
  | case2 b => exact nofun
  | case3 b b' s h ih => rw [crlfLines, if_pos h]; simp
  | case4 b b' s h ih =>
    rw [crlfLines, if_neg h]
    cases hs : crlfLines (b' :: s) with
    | nil => exact absurd hs ih
    | cons l ls => simp

/-- A CRLF ends a line wherever it stands. -/
theorem crlfLines_append (a b : Bytes) :
    crlfLines (a ++ crlf ++ b) = crlfLines a ++ crlfLines b := by
  have hcrlf : crlfLines (crlf ++ b) = [] :: crlfLines b := by
    rw [crlf, List.cons_append, List.cons_append, List.nil_append, crlfLines, if_pos ⟨rfl, rfl⟩]
  rw [List.append_assoc]
  induction a using crlfLines.induct with
  | case1 => exact hcrlf
  | case2 c =>
    have hc : ¬ (c = 0x0D ∧ (0x0D : UInt8) = 0x0A) := fun h => absurd h.2 (by simp)
    calc crlfLines (c :: 0x0D :: 0x0A :: b)
        = (crlfLines (crlf ++ b)).modifyHead (c :: ·) := if_neg hc
      _ = [[c]] ++ crlfLines b := by rw [hcrlf]; rfl
  | case3 c c' s h ih =>
    rw [List.cons_append, List.cons_append, crlfLines, crlfLines, if_pos h, if_pos h, ih]
    rfl
  | case4 c c' s h ih =>
    rw [List.cons_append, List.cons_append, crlfLines, crlfLines, if_neg h, if_neg h,
      ← List.cons_append, ih]
    cases hs : crlfLines (c' :: s) with
    | nil => exact absurd hs (crlfLines_ne_nil _)
    | cons l ls => rfl

theorem crlfLines_eq_singleton {s l : Bytes} (h : crlfLines s = [l]) : l = s := by
  induction s using crlfLines.induct generalizing l with
  | case1 => cases h; rfl
  | case2 b => cases h; rfl
  | case3 b b' s hb ih =>
    rw [crlfLines, if_pos hb] at h
    cases hs : crlfLines s with
    | nil => exact absurd hs (crlfLines_ne_nil s)
    | cons m ms => rw [hs] at h; cases h
  | case4 b b' s hb ih =>
    rw [crlfLines, if_neg hb] at h
    cases hs : crlfLines (b' :: s) with
    | nil => exact absurd hs (crlfLines_ne_nil _)
    | cons m ms =>
      rw [hs] at h
      cases h
      exact congrArg (b :: ·) (ih hs)

theorem crlfLines_of_no_cr {s : Bytes} (h : 0x0D ∉ s) : crlfLines s = [s] := by
  induction s using crlfLines.induct with
  | case1 => rfl
  | case2 b => rfl
  | case3 b b' s hb ih => exact absurd (hb.1 ▸ List.mem_cons_self) h
  | case4 b b' s hb ih =>
    rw [crlfLines, if_neg hb, ih fun hm => h (List.mem_cons_of_mem b hm)]
    rfl

theorem infix_of_mem_crlfLines {s l : Bytes} (h : l ∈ crlfLines s) : l <:+: s := by
  have hhead : ∀ {s l ls}, crlfLines s = l :: ls → l <+: s := by
    intro s
    induction s using crlfLines.induct with
    | case1 => rintro _ _ ⟨⟩; exact List.prefix_rfl
    | case2 b => rintro _ _ ⟨⟩; exact List.prefix_rfl
    | case3 b b' s hb ih =>
      intro l ls h
      rw [crlfLines, if_pos hb] at h
      cases h
      exact List.nil_prefix
    | case4 b b' s hb ih =>
      intro l ls h
      rw [crlfLines, if_neg hb] at h
      cases hs : crlfLines (b' :: s) with
      | nil => exact absurd hs (crlfLines_ne_nil _)
      | cons m ms =>
        rw [hs] at h
        cases h
        exact List.cons_prefix_cons.2 ⟨rfl, ih hs⟩
  induction s using crlfLines.induct with
  | case1 => rw [List.mem_singleton.1 h]
  | case2 b => rw [List.mem_singleton.1 h]
  | case3 b b' s hb ih =>
    rw [crlfLines, if_pos hb] at h
    rcases List.mem_cons.1 h with rfl | h
    · exact List.nil_infix
    · exact (ih h).trans (List.infix_cons (List.infix_cons List.infix_rfl))
  | case4 b b' s hb ih =>
    cases hs : crlfLines (b' :: s) with
    | nil => exact absurd hs (crlfLines_ne_nil _)
    | cons m ms =>
      have hlines : crlfLines (b :: b' :: s) = (b :: m) :: ms := by
        rw [crlfLines, if_neg hb, hs]
        rfl
      rw [hlines] at h
      rcases List.mem_cons.1 h with rfl | h
      · exact (hhead hlines).isInfix
      · exact List.infix_cons (ih (hs ▸ List.mem_cons_of_mem m h))

/-- What a text begins with, before its first line end, its first line begins with. -/
theorem prefix_crlfLines {pat s l : Bytes} {ls : List Bytes} (hcr : 0x0D ∉ pat)
    (h : pat <+: s) (hs : crlfLines s = l :: ls) : pat <+: l := by
  induction s using crlfLines.induct generalizing pat l ls with
  | case1 => cases hs; exact h
  | case2 b => cases hs; exact h
  | case3 b b' s hb ih =>
    cases pat with
    | nil => exact List.nil_prefix
    | cons c pat =>
      have hc : c = b := (List.cons_prefix_cons.1 h).1
      exact absurd (hc.trans hb.1 ▸ List.mem_cons_self) hcr
  | case4 b b' s hb ih =>
    rw [crlfLines, if_neg hb] at hs
    cases hm : crlfLines (b' :: s) with
    | nil => exact absurd hm (crlfLines_ne_nil _)
    | cons m ms =>
      rw [hm] at hs
      cases hs
      cases pat with
      | nil => exact List.nil_prefix
      | cons c pat =>
        obtain ⟨hc, htail⟩ := List.cons_prefix_cons.1 h
        exact List.cons_prefix_cons.2
          ⟨hc, ih (fun hm => hcr (List.mem_cons_of_mem c hm)) htail hm⟩

/-- **A text without line ends is searched line by line.** -/
theorem infix_crlfLines {pat s : Bytes} (hne : pat ≠ []) (hcr : 0x0D ∉ pat) (hlf : 0x0A ∉ pat) :
    pat <:+: s ↔ ∃ l ∈ crlfLines s, pat <:+: l := by
  constructor
  swap
  · rintro ⟨l, hl, h⟩
    exact h.trans (infix_of_mem_crlfLines hl)
  intro h
  have hfirst : ∀ {c t}, pat <+: c :: t → c ≠ 0x0D ∧ c ≠ 0x0A := by
    intro c t hp
    cases pat with
    | nil => exact absurd rfl hne
    | cons c' pat =>
      obtain ⟨rfl, -⟩ := List.cons_prefix_cons.1 hp
      exact ⟨fun hc => hcr (hc ▸ List.mem_cons_self), fun hc => hlf (hc ▸ List.mem_cons_self)⟩
  induction s using crlfLines.induct with
  | case1 => exact ⟨[], List.mem_singleton.2 rfl, h⟩
  | case2 b => exact ⟨[b], List.mem_singleton.2 rfl, h⟩
  | case3 b b' s hb ih =>
    rw [crlfLines, if_pos hb]
    rcases List.infix_cons_iff.1 h with hp | h
    · exact absurd hb.1 (hfirst hp).1
    rcases List.infix_cons_iff.1 h with hp | h
    · exact absurd hb.2 (hfirst hp).2
    · obtain ⟨l, hl, hpat⟩ := ih h
      exact ⟨l, List.mem_cons_of_mem _ hl, hpat⟩
  | case4 b b' s hb ih =>
    cases hs : crlfLines (b' :: s) with
    | nil => exact absurd hs (crlfLines_ne_nil _)
    | cons m ms =>
      have hlines : crlfLines (b :: b' :: s) = (b :: m) :: ms := by
        rw [crlfLines, if_neg hb, hs]
        rfl
      rw [hlines]
      rcases List.infix_cons_iff.1 h with hp | h
      · exact ⟨b :: m, List.mem_cons_self, (prefix_crlfLines hcr hp hlines).isInfix⟩
      obtain ⟨l, hl, hpat⟩ := ih h
      rw [hs] at hl
      rcases List.mem_cons.1 hl with rfl | hl
      · exact ⟨b :: l, List.mem_cons_self, List.infix_cons hpat⟩
      · exact ⟨l, List.mem_cons_of_mem _ hl, hpat⟩

/-! ## Fields and heads -/

def isAlphaNum (b : UInt8) : Bool :=
  (0x30 ≤ b && b ≤ 0x39) || (0x41 ≤ b && b ≤ 0x5A) || (0x61 ≤ b && b ≤ 0x7A)

/-- A character of a token. -/
def isTchar (b : UInt8) : Bool := isAlphaNum b || (ascii "!#$%&'*+-.^_|~").contains b || b = 0x60

/-- White space around the value of a field. -/
def isOws (b : UInt8) : Bool := b = 0x20 || b = 0x09

/-- A visible character of the value of a field. -/
def isVchar (b : UInt8) : Bool := 0x21 ≤ b && b ≠ 0x7F

def trimOws (s : Bytes) : Bytes := ((s.dropWhile isOws).reverse.dropWhile isOws).reverse

/-- `name ":" OWS value OWS`. -/
def fieldLine (l : Bytes) : Option (Bytes × Bytes) :=
  let name := l.takeWhile (· ≠ 0x3A)
  let value := trimOws (l.drop (name.length + 1))
  if name ≠ [] ∧ name.all isTchar ∧ name.length < l.length ∧ value.all (fun b => isVchar b || isOws b)
  then some (name, value)
  else none

/-- The status code of a response: the second word of its first line. -/
def statusCode (head : Bytes) : Option Bytes := (((crlfLines head).headD []).splitOn 0x20)[1]?

/-- The field lines of a head: what follows its first line, up to the empty one. -/
def headFields (head : Bytes) : List Bytes := (crlfLines head).tail.takeWhile (· ≠ [])

/-- The field lines, up to the empty line; nothing follows it. -/
def fieldLines : List Bytes → Option (List (Bytes × Bytes))
  | [] => none
  | l :: ls =>
    if l = [] then if ls = [[]] then some [] else none
    else
      match fieldLine l, fieldLines ls with
      | some f, some fs => some (f :: fs)
      | _, _ => none

structure RequestHead where
  method : Bytes
  target : Bytes
  version : Bytes
  fields : List (Bytes × Bytes)
  deriving DecidableEq, Repr

/-- Reads a text that is one request head. -/
def RequestHead.parse (s : Bytes) : Option RequestHead :=
  match crlfLines s with
  | [] => none
  | line :: ls =>
    match line.splitOn 0x20, fieldLines ls with
    | [method, target, version], some fields =>
      if method ≠ [] ∧ method.all isTchar then some { method, target, version, fields } else none
    | _, _ => none

/-- A field as it is written. -/
def fieldText (f : Bytes × Bytes) : Bytes := f.1 ++ 0x3A :: 0x20 :: f.2

/-- A head as it is written: the three words of the request line, and the fields. -/
def headText (method target version : Bytes) (fields : List (Bytes × Bytes)) : Bytes :=
  (method ++ 0x20 :: (target ++ 0x20 :: version)) ++ crlf ++
    (fields.flatMap (fun f => fieldText f ++ crlf) ++ crlf)

/-- A field whose text is read back: a token, and a value of visible characters. -/
def PlainField (f : Bytes × Bytes) : Prop :=
  (f.1 ≠ [] ∧ ∀ b ∈ f.1, isTchar b) ∧ ∀ b ∈ f.2, isVchar b

theorem isOws_of_isVchar {b : UInt8} (h : isVchar b) : isOws b = false := by
  simp only [isVchar, Bool.and_eq_true, decide_eq_true_eq] at h
  have h1 : b ≠ 0x20 := by rintro rfl; exact absurd h.1 (by simp)
  have h2 : b ≠ 0x09 := by rintro rfl; exact absurd h.1 (by simp)
  simp [isOws, h1, h2]

/-- White space around a visible text is trimmed. -/
theorem trimOws_append {a s b : Bytes} (ha : ∀ c ∈ a, isOws c) (hs : ∀ c ∈ s, isVchar c)
    (hb : ∀ c ∈ b, isOws c) : trimOws (a ++ s ++ b) = s := by
  have hkeep : ∀ l : Bytes, (∀ c ∈ l, isVchar c) → l.dropWhile isOws = l := by
    intro l hl
    cases l with
    | nil => rfl
    | cons c l => rw [List.dropWhile_cons, isOws_of_isVchar (hl c List.mem_cons_self)]; rfl
  have hdrop : ∀ l m : Bytes, (∀ c ∈ l, isOws c) → (l ++ m).dropWhile isOws = m.dropWhile isOws :=
    fun l m hl => List.dropWhile_append_of_pos hl
  rw [trimOws, List.append_assoc, hdrop a _ ha]
  cases s with
  | nil =>
    have hall : b.dropWhile isOws = [] := List.dropWhile_eq_nil_iff.2 hb
    rw [List.nil_append, hall]
    rfl
  | cons c s =>
    rw [List.cons_append, List.dropWhile_cons, isOws_of_isVchar (hs c List.mem_cons_self),
      if_neg (by simp), ← List.cons_append, List.reverse_append,
      hdrop b.reverse _ fun c hc => hb c (List.mem_reverse.1 hc),
      hkeep _ fun c hc => hs c (List.mem_reverse.1 hc), List.reverse_reverse]

/-- A text is its trimmed part between white space. -/
theorem exists_trimOws (s : Bytes) :
    ∃ a b, s = a ++ trimOws s ++ b ∧ (∀ c ∈ a, isOws c) ∧ ∀ c ∈ b, isOws c := by
  set m := s.dropWhile isOws with hm
  have hleft : s.takeWhile isOws ++ m = s := List.takeWhile_append_dropWhile
  have hright : m.reverse.takeWhile isOws ++ m.reverse.dropWhile isOws = m.reverse :=
    List.takeWhile_append_dropWhile
  have hmid : trimOws s ++ (m.reverse.takeWhile isOws).reverse = m := by
    have h := congrArg List.reverse hright
    rwa [List.reverse_append, List.reverse_reverse] at h
  refine ⟨s.takeWhile isOws, (m.reverse.takeWhile isOws).reverse, ?_, fun c hc => ?_,
    fun c hc => ?_⟩
  · rw [List.append_assoc, hmid, hleft]
  · exact List.mem_takeWhile_imp hc
  · exact List.mem_takeWhile_imp (List.mem_reverse.1 hc)

/-- A field line is split at its first colon. -/
theorem fieldLine_append {name rest : Bytes} (h : 0x3A ∉ name) :
    fieldLine (name ++ 0x3A :: rest) =
      if name ≠ [] ∧ name.all isTchar ∧ (trimOws rest).all (fun b => isVchar b || isOws b) then
        some (name, trimOws rest)
      else none := by
  have hcolon : ∀ b ∈ name, decide (b ≠ 0x3A) = true := by
    intro b hb
    refine decide_eq_true ?_
    rintro rfl
    exact h hb
  have htake : (name ++ 0x3A :: rest).takeWhile (· ≠ 0x3A) = name := by
    rw [List.takeWhile_append_of_pos hcolon]
    simp
  have hdrop : (name ++ 0x3A :: rest).drop (name.length + 1) = rest := by
    simp [List.drop_append]
  have hlen : name.length < (name ++ 0x3A :: rest).length := by
    rw [List.length_append, List.length_cons]
    omega
  simp only [fieldLine, htake, hdrop, hlen, true_and]

/-- **A field that is written is read back.** -/
theorem fieldLine_fieldText {f : Bytes × Bytes} (h : PlainField f) :
    fieldLine (fieldText f) = some f := by
  obtain ⟨name, value⟩ := f
  obtain ⟨⟨hne, hname⟩, hvalue⟩ := h
  have hcolon : 0x3A ∉ name := fun hm => absurd (hname _ hm) (by decide)
  have htrim : trimOws (0x20 :: value) = value := by
    have hblank : ∀ c ∈ ([0x20] : Bytes), isOws c := by simp [isOws]
    simpa using trimOws_append hblank hvalue (b := []) (by simp)
  rw [fieldText, fieldLine_append hcolon, htrim]
  refine if_pos ⟨hne, List.all_eq_true.2 hname, List.all_eq_true.2 fun b hb => ?_⟩
  simp only [hvalue b hb, Bool.true_or]

theorem fieldLines_length {ls : List Bytes} {fs : List (Bytes × Bytes)}
    (h : fieldLines (ls ++ [[], []]) = some fs) : fs.length = ls.length := by
  induction ls generalizing fs with
  | nil => cases h; rfl
  | cons l ls ih =>
    rw [List.cons_append, fieldLines] at h
    by_cases hl : l = []
    · have hend : ls ++ [[], []] ≠ [[]] := by
        intro heq
        have := congrArg List.length heq
        simp at this
      rw [if_pos hl, if_neg hend] at h
      cases h
    rw [if_neg hl] at h
    cases hf : fieldLine l with
    | none => rw [hf] at h; cases h
    | some f =>
      cases hfs : fieldLines (ls ++ [[], []]) with
      | none => rw [hf, hfs] at h; cases h
      | some fs' =>
        rw [hf, hfs] at h
        cases h
        rw [List.length_cons, List.length_cons, ih hfs]

theorem fieldText_ne_nil (f : Bytes × Bytes) : fieldText f ≠ [] := by
  simp [fieldText]

theorem no_cr_fieldText {f : Bytes × Bytes} (h : PlainField f) : 0x0D ∉ fieldText f := by
  intro hm
  rcases List.mem_append.1 hm with hname | htail
  · exact absurd (h.1.2 _ hname) (by decide)
  · rcases List.mem_cons.1 htail with hc | htail
    · exact absurd hc (by simp)
    rcases List.mem_cons.1 htail with hs | hvalue
    · exact absurd hs (by simp)
    · exact absurd (h.2 _ hvalue) (by decide)

theorem fieldLines_fieldText {fs : List (Bytes × Bytes)} (h : ∀ f ∈ fs, PlainField f) :
    fieldLines (fs.map fieldText ++ [[], []]) = some fs := by
  induction fs with
  | nil => rfl
  | cons f fs ih =>
    obtain ⟨hf, hfs⟩ := List.forall_mem_cons.1 h
    rw [List.map_cons, List.cons_append, fieldLines, if_neg (fieldText_ne_nil f), ih hfs,
      fieldLine_fieldText hf]

theorem crlfLines_fields {fs : List (Bytes × Bytes)} (h : ∀ f ∈ fs, PlainField f) :
    crlfLines (fs.flatMap (fun f => fieldText f ++ crlf) ++ crlf) =
      fs.map fieldText ++ [[], []] := by
  induction fs with
  | nil => rfl
  | cons f fs ih =>
    obtain ⟨hf, hfs⟩ := List.forall_mem_cons.1 h
    rw [List.flatMap_cons, List.append_assoc, crlfLines_append,
      crlfLines_of_no_cr (no_cr_fieldText hf), ih hfs]
    rfl

/-- A status code stands in the head after a space. -/
theorem infix_of_statusCode {head code : Bytes} (h : statusCode head = some code) :
    0x20 :: code <:+: head := by
  obtain ⟨line, lines, hlines⟩ : ∃ line lines, crlfLines head = line :: lines := by
    cases hc : crlfLines head with
    | nil => exact absurd hc (crlfLines_ne_nil head)
    | cons line lines => exact ⟨line, lines, rfl⟩
  rw [statusCode, hlines, List.headD_cons] at h
  have hline : line <:+: head := infix_of_mem_crlfLines (hlines ▸ List.mem_cons_self)
  have hjoin : [0x20].intercalate (line.splitOn 0x20) = line := List.intercalate_splitOn _
  match hw : line.splitOn 0x20, h with
  | w :: _ :: ws, rfl =>
    rw [hw] at hjoin
    refine List.IsInfix.trans ?_ hline
    rw [← hjoin, List.intercalate_cons_cons]
    cases ws with
    | nil => exact ⟨w, [], by simp⟩
    | cons w' ws =>
      rw [List.intercalate_cons_cons]
      exact ⟨w, [0x20] ++ [0x20].intercalate (w' :: ws), by simp⟩

section

variable {method target version : Bytes} {fields : List (Bytes × Bytes)}

/-- **A head that is written is read back.** -/
theorem RequestHead.parse_headText (hm : method ≠ [] ∧ ∀ b ∈ method, isTchar b)
    (ht : 0x20 ∉ target ∧ 0x0D ∉ target) (hv : 0x20 ∉ version ∧ 0x0D ∉ version)
    (hf : ∀ f ∈ fields, PlainField f) :
    RequestHead.parse (headText method target version fields) =
      some { method, target, version, fields } := by
  have htchar : ∀ b : UInt8, ¬ isTchar b → b ∉ method := fun b hb hmem => hb (hm.2 b hmem)
  have hline : 0x0D ∉ method ++ 0x20 :: (target ++ 0x20 :: version) := by
    simp [htchar 0x0D (by decide), ht.2, hv.2]
  have hwords : (method ++ 0x20 :: (target ++ 0x20 :: version)).splitOn 0x20 =
      [method, target, version] := by
    rw [List.splitOn_append_cons_self_of_not_mem (htchar 0x20 (by decide)),
      List.splitOn_append_cons_self_of_not_mem ht.1, List.splitOn_eq_singleton hv.1]
  rw [RequestHead.parse, headText, crlfLines_append, crlfLines_of_no_cr hline,
    crlfLines_fields hf]
  simp only [List.singleton_append, hwords, fieldLines_fieldText hf]
  exact if_pos ⟨hm.1, List.all_eq_true.2 hm.2⟩

/-- **The target that is read is the one that was written**, if no other field is read. -/
theorem RequestHead.target_of_parse {head : RequestHead} (hm : 0x20 ∉ method)
    (hv : 0x20 ∉ version) (hf : ∀ f ∈ fields, PlainField f)
    (h : RequestHead.parse (headText method target version fields) = some head)
    (hlen : head.fields.length = fields.length) : head.target = target := by
  rw [RequestHead.parse, headText, crlfLines_append, crlfLines_fields hf] at h
  cases hl : crlfLines (method ++ 0x20 :: (target ++ 0x20 :: version)) with
  | nil => exact absurd hl (crlfLines_ne_nil _)
  | cons line more =>
    rw [hl, List.cons_append] at h
    dsimp only at h
    split at h
    swap
    · cases h
    rename_i m t v fs hwords hfields
    split at h
    swap
    · cases h
    cases h
    -- as many fields as were written: the request line is the only line before them
    have hcount : fs.length = more.length + fields.length := by
      rw [← List.append_assoc] at hfields
      simpa using fieldLines_length hfields
    have hmore : more = [] := by
      have : more.length = 0 := by
        have hlen' : fs.length = fields.length := hlen
        omega
      exact List.length_eq_zero_iff.1 this
    rw [hmore] at hl
    rw [crlfLines_eq_singleton hl, List.splitOn_append_cons_self_of_not_mem hm,
      List.splitOn_append_cons_self, List.splitOn_eq_singleton hv] at hwords
    have hwords' : target.splitOn 0x20 ++ [version] = [t] ++ [v] := (List.cons.inj hwords).2
    have hsplit : target.splitOn 0x20 = [t] := (List.append_inj' hwords' rfl).1
    have hjoin : [0x20].intercalate (target.splitOn 0x20) = target := List.intercalate_splitOn _
    rw [hsplit] at hjoin
    simpa using hjoin

end

end TrtcAsr
