/-
  The target of an HTTP request in origin form, and the parameters of its query.

  * `originForm` is the grammar of a target: a path and a query of the characters that may
    stand in them, or of percent escapes.
  * `parseQuery` reads a query as Go's `url.ParseQuery` does: pairs between `&`, no `;`,
    name and value around the first `=`, both unescaped.
  * `parseQuery_single`: a query `name=value` is read as that one pair exactly when the
    value has none of the characters with a meaning in a query.
  * `originForm_iff`: which values may stand in the target as they are.
  * `readPairs` reads a query without a grammar for names; `readPairs_joinPairs`: it finds the
    pairs that were joined, when each value was escaped so that unescaping returns it;
    `parseQuery_joinPairs`: so does Go, when the names are plain.
-/
import TrtcAsr.Lib.HttpHead

namespace TrtcAsr

/-! ## Targets -/

/-- A character of a path segment or a query, other than `%`: unreserved, a sub-delimiter,
    `:` or `@`. -/
def isPchar (b : UInt8) : Bool := isAlphaNum b || (ascii "-._~!$&'()*+,;=:@").contains b

def isQueryChar (b : UInt8) : Bool := isPchar b || b = 0x2F || b = 0x3F

def hexVal (b : UInt8) : Option ℕ :=
  if 0x30 ≤ b ∧ b ≤ 0x39 then some (b.toNat - 0x30)
  else if 0x41 ≤ b ∧ b ≤ 0x46 then some (b.toNat - 0x37)
  else if 0x61 ≤ b ∧ b ≤ 0x66 then some (b.toNat - 0x57)
  else none

/-- The byte of two hexadecimal digits. -/
def hexPair (h l : UInt8) : Option UInt8 :=
  (hexVal h).bind fun x => (hexVal l).map fun y => UInt8.ofNat (16 * x + y)

/-- Characters that are allowed, and percent escapes. -/
def wellEscaped (allowed : UInt8 → Bool) : Bytes → Bool
  | [] => true
  | b :: s =>
    if b = 0x25 then
      match s with
      | h :: l :: s' => (hexPair h l).isSome && wellEscaped allowed s'
      | _ => false
    else allowed b && wellEscaped allowed s

def pathOf (target : Bytes) : Bytes := target.takeWhile (· ≠ 0x3F)

/-- What follows the first `?`. -/
def queryOf (target : Bytes) : Option Bytes :=
  if 0x3F ∈ target then some (target.drop ((pathOf target).length + 1)) else none

/-- An absolute path, and a query if there is a `?`. -/
def originForm (target : Bytes) : Bool :=
  target.head? = some 0x2F && wellEscaped (fun b => isPchar b || b = 0x2F) (pathOf target) &&
    (queryOf target).all (wellEscaped isQueryChar)

/-! ## Queries -/

/-- Go's `url.QueryUnescape`. -/
def queryUnescape : Bytes → Option Bytes
  | [] => some []
  | b :: s =>
    if b = 0x25 then
      match s with
      | h :: l :: s' => (hexPair h l).bind fun c => (queryUnescape s').map (c :: ·)
      | _ => none
    else (queryUnescape s).map ((if b = 0x2B then 0x20 else b) :: ·)

/-- A pair of a query, around its first `=`. -/
def parsePair (p : Bytes) : Option (Bytes × Bytes) :=
  if 0x3B ∈ p then none
  else
    let name := p.takeWhile (· ≠ 0x3D)
    match queryUnescape name, queryUnescape (p.drop (name.length + 1)) with
    | some k, some v => some (k, v)
    | _, _ => none

/-- Go's `url.ParseQuery`, where it reports no error. -/
def parseQuery (q : Bytes) : Option (List (Bytes × Bytes)) :=
  ((q.splitOn 0x26).filter (· ≠ [])).mapM parsePair

/-! ## Values that are their own escaping -/

theorem queryUnescape_cons {b : UInt8} (hb : b ≠ 0x25) (s : Bytes) :
    queryUnescape (b :: s) = (queryUnescape s).map ((if b = 0x2B then 0x20 else b) :: ·) := by
  conv_lhs => unfold queryUnescape
  exact if_neg hb

theorem queryUnescape_escape {s t : Bytes} (h : queryUnescape (0x25 :: s) = some t) :
    ∃ hi lo s' c t', s = hi :: lo :: s' ∧ t = c :: t' ∧ queryUnescape s' = some t' := by
  rcases s with _ | ⟨hi, _ | ⟨lo, s'⟩⟩
  · cases h
  · cases h
  · have hun : queryUnescape (0x25 :: hi :: lo :: s') =
        (hexPair hi lo).bind fun c => (queryUnescape s').map (c :: ·) := rfl
    rw [hun] at h
    simp only [Option.bind_eq_some_iff, Option.map_eq_some_iff] at h
    obtain ⟨c, -, t', ht, rfl⟩ := h
    exact ⟨hi, lo, s', c, t', rfl, rfl, ht⟩

theorem queryUnescape_length {s t : Bytes} (h : queryUnescape s = some t) :
    t.length ≤ s.length := by
  induction s using queryUnescape.induct generalizing t with
  | case1 => cases h; exact Nat.le_refl _
  | case2 hi lo s ih =>
    obtain ⟨_, _, s', c, t', heq, rfl, ht⟩ := queryUnescape_escape h
    cases heq
    have := ih ht
    simp only [List.length_cons]
    omega
  | case3 s hs =>
    obtain ⟨hi, lo, s', c, t', heq, -⟩ := queryUnescape_escape h
    exact absurd heq (hs hi lo s')
  | case4 b s hb ih =>
    rw [queryUnescape_cons hb] at h
    obtain ⟨t', ht, rfl⟩ := Option.map_eq_some_iff.1 h
    have := ih ht
    simp only [List.length_cons]
    omega

/-- **A value is its own escaping** exactly when it has no `%` and no `+`. -/
theorem queryUnescape_self {s : Bytes} :
    queryUnescape s = some s ↔ ∀ b ∈ s, b ≠ 0x25 ∧ b ≠ 0x2B := by
  induction s with
  | nil => exact ⟨fun _ => by simp, fun _ => rfl⟩
  | cons b s ih =>
    rw [List.forall_mem_cons, ← ih]
    by_cases hb : b = 0x25
    · subst hb
      refine ⟨fun h => ?_, fun h => absurd rfl h.1.1⟩
      -- an escape is longer than what it stands for
      obtain ⟨hi, lo, s', c, t', rfl, heq, ht⟩ := queryUnescape_escape h
      have hlen := queryUnescape_length ht
      have := congrArg List.length (List.cons.inj heq).2
      simp only [List.length_cons] at this
      omega
    · rw [queryUnescape_cons hb, Option.map_eq_some_iff]
      constructor
      · rintro ⟨t, ht, heq⟩
        obtain ⟨hhead, rfl⟩ := List.cons.inj heq
        refine ⟨⟨hb, ?_⟩, ht⟩
        rintro rfl
        exact absurd hhead (by simp)
      · rintro ⟨⟨-, hplus⟩, ht⟩
        exact ⟨s, ht, by rw [if_neg hplus]⟩

/-- The characters with a meaning in a query: `&`, `;`, `%` and `+`. -/
def isQuerySpecial (b : UInt8) : Prop := b = 0x26 ∨ b = 0x3B ∨ b = 0x25 ∨ b = 0x2B

/-- A name that is read as it is written. -/
def PlainName (name : Bytes) : Prop := name ≠ [] ∧ ∀ b ∈ name, b ≠ 0x3D ∧ ¬ isQuerySpecial b

section

variable {name value : Bytes}

theorem parsePair_eq (hn : PlainName name) :
    parsePair (name ++ 0x3D :: value) =
      if 0x3B ∈ value then none else (queryUnescape value).map (name, ·) := by
  have hsemi : 0x3B ∈ name ++ 0x3D :: value ↔ 0x3B ∈ value := by
    have : (0x3B : UInt8) ∉ name := fun hm => (hn.2 _ hm).2 (.inr (.inl rfl))
    simp [this]
  have htake : (name ++ 0x3D :: value).takeWhile (· ≠ 0x3D) = name := by
    rw [List.takeWhile_append_of_pos fun b hb => decide_eq_true (hn.2 b hb).1]
    simp
  have hdrop : (name ++ 0x3D :: value).drop (name.length + 1) = value := by
    simp [List.drop_append]
  have hname : queryUnescape name = some name := queryUnescape_self.2 fun b hb =>
    ⟨fun h => (hn.2 b hb).2 (.inr (.inr (.inl h))), fun h => (hn.2 b hb).2 (.inr (.inr (.inr h)))⟩
  unfold parsePair
  simp only [hsemi, htake, hdrop, hname]
  split
  · rfl
  · cases queryUnescape value with
    | none => rfl
    | some v => rfl

/-- **A pair is read as that one pair**, exactly when its value has no special character. -/
theorem parseQuery_single (hn : PlainName name) :
    parseQuery (name ++ 0x3D :: value) = some [(name, value)] ↔
      ∀ b ∈ value, ¬ isQuerySpecial b := by
  have hamp : (0x26 : UInt8) ∉ name := fun hm => (hn.2 _ hm).2 (.inl rfl)
  by_cases hv : (0x26 : UInt8) ∈ value
  · refine iff_of_false (fun h => ?_) (fun h => h _ hv (.inl rfl))
    -- the first pair ends before the `&`, so its value is shorter
    obtain ⟨v₁, v₂, rfl, hv₁⟩ := List.eq_append_cons_of_mem hv
    have hfirst : (0x26 : UInt8) ∉ name ++ 0x3D :: v₁ := by simp [hamp, hv₁]
    have hsplit : (name ++ 0x3D :: (v₁ ++ 0x26 :: v₂)).splitOn 0x26 =
        (name ++ 0x3D :: v₁) :: v₂.splitOn 0x26 := by
      rw [← List.cons_append, ← List.append_assoc]
      exact List.splitOn_append_cons_self_of_not_mem hfirst v₂
    rw [parseQuery, hsplit, List.filter_cons, if_pos (by simp), List.mapM_cons,
      parsePair_eq hn] at h
    by_cases hsemi : 0x3B ∈ v₁
    · rw [if_pos hsemi] at h; cases h
    rw [if_neg hsemi] at h
    cases hun : queryUnescape v₁ with
    | none => rw [hun] at h; cases h
    | some v =>
      simp only [hun, Option.map_some, Option.bind_eq_bind, Option.bind_some,
        Option.bind_eq_some_iff] at h
      obtain ⟨rest, -, heq⟩ := h
      have hval : v = v₁ ++ 0x26 :: v₂ := by
        cases heq; rfl
      have := queryUnescape_length hun
      rw [hval] at this
      simp only [List.length_append, List.length_cons] at this
      omega
  · have hall : (0x26 : UInt8) ∉ name ++ 0x3D :: value := by simp [hamp, hv]
    rw [parseQuery, List.splitOn_eq_singleton hall, List.filter_cons, if_pos (by simp),
      List.filter_nil, List.mapM_cons, List.mapM_nil, parsePair_eq hn]
    by_cases hsemi : (0x3B : UInt8) ∈ value
    · refine iff_of_false (fun h => ?_) (fun h => h _ hsemi (.inr (.inl rfl)))
      rw [if_pos hsemi] at h; cases h
    have hself : (if 0x3B ∈ value then none else (queryUnescape value).map (name, ·)) =
        (queryUnescape value).map (name, ·) := if_neg hsemi
    rw [hself]
    constructor
    · intro h b hb
      cases hun : queryUnescape value with
      | none => rw [hun] at h; cases h
      | some v =>
        rw [hun] at h
        have hval : v = value := by cases h; rfl
        have hplain := queryUnescape_self.1 (hval ▸ hun) b hb
        rintro (rfl | rfl | rfl | rfl)
        · exact hv hb
        · exact hsemi hb
        · exact hplain.1 rfl
        · exact hplain.2 rfl
    · intro h
      have hun := queryUnescape_self.2 fun b hb =>
        ⟨fun hp => h b hb (.inr (.inr (.inl hp))), fun hp => h b hb (.inr (.inr (.inr hp)))⟩
      rw [hun]
      rfl

end

/-! ## Values that may stand in a target -/

theorem wellEscaped_cons {allowed : UInt8 → Bool} {b : UInt8} (hb : b ≠ 0x25) (s : Bytes) :
    wellEscaped allowed (b :: s) = (allowed b && wellEscaped allowed s) := by
  conv_lhs => unfold wellEscaped
  exact if_neg hb

/-- Without a `%`, every character has to be allowed. -/
theorem wellEscaped_iff {allowed : UInt8 → Bool} {s : Bytes} (h : (0x25 : UInt8) ∉ s) :
    wellEscaped allowed s ↔ ∀ b ∈ s, allowed b := by
  induction s with
  | nil => exact ⟨fun _ => by simp, fun _ => rfl⟩
  | cons b s ih =>
    rw [List.mem_cons, not_or] at h
    rw [wellEscaped_cons (Ne.symm h.1), Bool.and_eq_true, ih h.2, List.forall_mem_cons]

/-- A target `path?query` of an absolute path is well formed when its two parts are. -/
theorem originForm_iff {path query : Bytes} (hp : path.head? = some 0x2F)
    (hpath : ∀ b ∈ path, b ≠ 0x25 ∧ b ≠ 0x3F ∧ (isPchar b || b = 0x2F)) :
    originForm (path ++ 0x3F :: query) ↔ wellEscaped isQueryChar query := by
  have hpathOf : pathOf (path ++ 0x3F :: query) = path := by
    rw [pathOf, List.takeWhile_append_of_pos fun b hb => decide_eq_true (hpath b hb).2.1]
    simp
  have hqueryOf : queryOf (path ++ 0x3F :: query) = some query := by
    rw [queryOf, hpathOf, if_pos (by simp)]
    simp [List.drop_append]
  have hhead : (path ++ 0x3F :: query).head? = some 0x2F := by
    rw [List.head?_append, hp]; rfl
  have hwell : wellEscaped (fun b => isPchar b || b = 0x2F) path = true :=
    (wellEscaped_iff fun hm => (hpath _ hm).1 rfl).2 fun b hb => (hpath b hb).2.2
  rw [originForm, hhead, hpathOf, hqueryOf, hwell]
  simp

/-- The two parts of a target `path?query`. -/
theorem pathOf_append {path : Bytes} (h : 0x3F ∉ path) (query : Bytes) :
    pathOf (path ++ 0x3F :: query) = path := by
  rw [pathOf, List.takeWhile_append_of_pos fun b hb => decide_eq_true (ne_of_mem_of_not_mem hb h)]
  simp

theorem queryOf_append {path : Bytes} (h : 0x3F ∉ path) (query : Bytes) :
    queryOf (path ++ 0x3F :: query) = some query := by
  rw [queryOf, pathOf_append h, if_pos (by simp)]
  simp [List.drop_append]

theorem wellEscaped_append {allowed : UInt8 → Bool} {s t : Bytes} (hs : wellEscaped allowed s)
    (ht : wellEscaped allowed t) : wellEscaped allowed (s ++ t) := by
  induction s using wellEscaped.induct with
  | case1 => exact ht
  | case2 hi lo s ih =>
    rw [wellEscaped, if_pos rfl, Bool.and_eq_true] at hs
    rw [List.cons_append, List.cons_append, List.cons_append, wellEscaped, if_pos rfl,
      Bool.and_eq_true]
    exact ⟨hs.1, ih hs.2⟩
  | case3 s hshort =>
    -- an escape that is cut off
    rw [wellEscaped, if_pos rfl] at hs
    · cases hs
    · exact hshort
  | case4 b s hb ih =>
    rw [wellEscaped_cons hb, Bool.and_eq_true] at hs
    rw [List.cons_append, wellEscaped_cons hb, Bool.and_eq_true]
    exact ⟨hs.1, ih hs.2⟩

theorem wellEscaped_flatMap {α : Type*} {allowed : UInt8 → Bool} {f : α → Bytes} {l : List α}
    (h : ∀ a ∈ l, wellEscaped allowed (f a)) : wellEscaped allowed (l.flatMap f) := by
  induction l with
  | nil => rfl
  | cons a l ih =>
    rw [List.forall_mem_cons] at h
    rw [List.flatMap_cons]
    exact wellEscaped_append h.1 (ih h.2)

/-! ## Pairs with escaped values -/

/-- The pairs `name=value`, each value escaped by `escape`, between `&`. -/
def joinPairs (escape : Bytes → Bytes) (pairs : List (Bytes × Bytes)) : Bytes :=
  [0x26].intercalate (pairs.map fun p => p.1 ++ 0x3D :: escape p.2)

/-- A pair, around its first `=`, with its value unescaped. -/
def readPair (p : Bytes) : Option (Bytes × Bytes) :=
  let name := p.takeWhile (· ≠ 0x3D)
  (queryUnescape (p.drop (name.length + 1))).map (name, ·)

/-- The pairs between `&`. -/
def readPairs (q : Bytes) : Option (List (Bytes × Bytes)) := (q.splitOn 0x26).mapM readPair

section

variable {escape : Bytes → Bytes}

theorem readPair_eq {name value : Bytes} (hname : 0x3D ∉ name)
    (hescape : queryUnescape (escape value) = some value) :
    readPair (name ++ 0x3D :: escape value) = some (name, value) := by
  have htake : (name ++ 0x3D :: escape value).takeWhile (· ≠ 0x3D) = name := by
    rw [List.takeWhile_append_of_pos fun b hb => decide_eq_true (ne_of_mem_of_not_mem hb hname)]
    simp
  have hdrop : (name ++ 0x3D :: escape value).drop (name.length + 1) = escape value := by
    simp [List.drop_append]
  simp only [readPair, htake, hdrop, hescape, Option.map_some]

/-- **The pairs that were joined are read**, when no name has a `=` or `&`, no escaped value a
    `&`, and unescaping undoes the escaping. -/
theorem readPairs_joinPairs (hescape : ∀ v, 0x26 ∉ escape v ∧ queryUnescape (escape v) = some v)
    {pairs : List (Bytes × Bytes)} (hne : pairs ≠ [])
    (hnames : ∀ p ∈ pairs, 0x3D ∉ p.1 ∧ 0x26 ∉ p.1) :
    readPairs (joinPairs escape pairs) = some pairs := by
  have hsplit : (joinPairs escape pairs).splitOn 0x26 =
      pairs.map fun p => p.1 ++ 0x3D :: escape p.2 := by
    refine List.splitOn_intercalate 0x26 ?_ (by simpa using hne)
    intro text htext
    obtain ⟨p, hp, rfl⟩ := List.mem_map.1 htext
    simp [(hnames p hp).2, (hescape p.2).1]
  rw [readPairs, hsplit]
  clear hsplit hne
  induction pairs with
  | nil => rfl
  | cons p pairs ih =>
    obtain ⟨hp, hrest⟩ := List.forall_mem_cons.1 hnames
    rw [List.map_cons, List.mapM_cons, readPair_eq hp.1 (hescape p.2).2, ih hrest]
    rfl

/-- Each pair but the first follows a `&`. -/
theorem joinPairs_cons (p : Bytes × Bytes) (pairs : List (Bytes × Bytes)) :
    joinPairs escape (p :: pairs) = (p.1 ++ 0x3D :: escape p.2) ++
      pairs.flatMap fun p => 0x26 :: (p.1 ++ 0x3D :: escape p.2) := by
  induction pairs generalizing p with
  | nil => simp [joinPairs, List.intercalate]
  | cons q pairs ih =>
    rw [List.flatMap_cons, List.cons_append, ← ih q]
    simp [joinPairs, List.intercalate]

/-- The characters of joined pairs. -/
theorem mem_joinPairs {pairs : List (Bytes × Bytes)} {b : UInt8} (h : b ∈ joinPairs escape pairs) :
    b = 0x26 ∨ b = 0x3D ∨ ∃ p ∈ pairs, b ∈ p.1 ∨ b ∈ escape p.2 := by
  have hpair : ∀ p ∈ pairs, b ∈ p.1 ++ 0x3D :: escape p.2 →
      b = 0x26 ∨ b = 0x3D ∨ ∃ p ∈ pairs, b ∈ p.1 ∨ b ∈ escape p.2 := by
    intro p hp hb
    rcases List.mem_append.1 hb with hb | hb
    · exact .inr (.inr ⟨p, hp, .inl hb⟩)
    rcases List.mem_cons.1 hb with hb | hb
    · exact .inr (.inl hb)
    · exact .inr (.inr ⟨p, hp, .inr hb⟩)
  cases pairs with
  | nil => exact absurd h List.not_mem_nil
  | cons q rest =>
    rw [joinPairs_cons] at h
    rcases List.mem_append.1 h with hb | hb
    · exact hpair q List.mem_cons_self hb
    obtain ⟨p, hp, hb⟩ := List.mem_flatMap.1 hb
    rcases List.mem_cons.1 hb with hb | hb
    · exact .inl hb
    · exact hpair p (List.mem_cons_of_mem q hp) hb

/-- Joined pairs may stand in a target, when their names and escaped values may. -/
theorem wellEscaped_joinPairs {pairs : List (Bytes × Bytes)} (hnames : ∀ p ∈ pairs, ∀ b ∈ p.1,
    b ≠ 0x25 ∧ isQueryChar b) (hescape : ∀ v, wellEscaped isQueryChar (escape v)) :
    wellEscaped isQueryChar (joinPairs escape pairs) := by
  have hpair : ∀ p ∈ pairs, wellEscaped isQueryChar (p.1 ++ 0x3D :: escape p.2) := by
    intro p hp
    have hname : wellEscaped isQueryChar p.1 :=
      (wellEscaped_iff fun hm => (hnames p hp _ hm).1 rfl).2 fun b hb => (hnames p hp b hb).2
    refine wellEscaped_append hname ?_
    rw [wellEscaped_cons (by decide), hescape]
    rfl
  cases pairs with
  | nil => rfl
  | cons p rest =>
    rw [List.forall_mem_cons] at hpair
    rw [joinPairs_cons]
    refine wellEscaped_append hpair.1 (wellEscaped_flatMap fun q hq => ?_)
    rw [wellEscaped_cons (by decide), hpair.2 q hq]
    rfl

/-- **Go reads the pairs that were joined**, when the names are plain and no escaped value has a `&`
    or a `;`. -/
theorem parseQuery_joinPairs (hescape : ∀ v, 0x26 ∉ escape v ∧ 0x3B ∉ escape v ∧
    queryUnescape (escape v) = some v) {pairs : List (Bytes × Bytes)} (hne : pairs ≠ [])
    (hnames : ∀ p ∈ pairs, PlainName p.1) : parseQuery (joinPairs escape pairs) = some pairs := by
  have hsplit : (joinPairs escape pairs).splitOn 0x26 =
      pairs.map fun p => p.1 ++ 0x3D :: escape p.2 := by
    refine List.splitOn_intercalate 0x26 ?_ (by simpa using hne)
    intro text htext
    obtain ⟨p, hp, rfl⟩ := List.mem_map.1 htext
    have hname : (0x26 : UInt8) ∉ p.1 := fun hm => ((hnames p hp).2 _ hm).2 (.inl rfl)
    simp [hname, (hescape p.2).1]
  have hfull : (pairs.map fun p => p.1 ++ 0x3D :: escape p.2).filter (· ≠ []) =
      pairs.map fun p => p.1 ++ 0x3D :: escape p.2 := by
    refine List.filter_eq_self.2 fun text htext => ?_
    obtain ⟨p, -, rfl⟩ := List.mem_map.1 htext
    simp
  rw [parseQuery, hsplit, hfull]
  clear hsplit hfull hne
  induction pairs with
  | nil => rfl
  | cons p pairs ih =>
    obtain ⟨hp, hrest⟩ := List.forall_mem_cons.1 hnames
    obtain ⟨-, hsemi, hun⟩ := hescape p.2
    rw [List.map_cons, List.mapM_cons, parsePair_eq hp, if_neg hsemi, hun, ih hrest]
    rfl

end

end TrtcAsr
