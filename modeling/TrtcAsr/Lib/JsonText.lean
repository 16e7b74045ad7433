/-
  JSON texts, as RFC 8259 defines them.

  A text is a list of code points.  An object keeps its members in the order of the text,
  repeated names included, and a number is the rational that its numeral denotes.

  * `readString_append`: a string whose characters are escaped one by one is read back
    (`Spells`: what a character may be written as);
  * `readNumber_toDec`: the decimal numeral of an integer is read back.
-/
import Mathlib.Algebra.Order.Field.Rat
import TrtcAsr.Lib.Utf8

namespace TrtcAsr

namespace JsonText

inductive Value where
  | null
  | bool (b : Bool)
  | num (q : ℚ)
  | str (s : List Char)
  | arr (items : List Value)
  | obj (members : List (List Char × Value))
  deriving Repr

def isWs (c : Char) : Bool := c = ' ' || c = '\t' || c = '\n' || c = '\r'

def skipWs (s : List Char) : List Char := s.dropWhile isWs

/-! ## Strings -/

def hexVal (c : Char) : Option ℕ :=
  if '0' ≤ c ∧ c ≤ '9' then some (c.toNat - 48)
  else if 'a' ≤ c ∧ c ≤ 'f' then some (c.toNat - 87)
  else if 'A' ≤ c ∧ c ≤ 'F' then some (c.toNat - 55)
  else none

/-- `4HEXDIG`. -/
def hex4 : List Char → Option (ℕ × List Char)
  | a :: b :: c :: d :: s => do
    let u := (((← hexVal a) * 16 + (← hexVal b)) * 16 + (← hexVal c)) * 16 + (← hexVal d)
    some (u, s)
  | _ => none

/-- The character of `\uXXXX`, or of two of them that form a surrogate pair. -/
def unicodeEscape (s : List Char) : Option (Char × List Char) :=
  match hex4 s with
  | none => none
  | some (u, s) =>
    if 0xD800 ≤ u ∧ u < 0xDC00 then
      match s with
      | '\\' :: 'u' :: s =>
        match hex4 s with
        | none => none
        | some (v, s) =>
          if 0xDC00 ≤ v ∧ v < 0xE000 then
            some (Char.ofNat (0x10000 + (u - 0xD800) * 0x400 + (v - 0xDC00)), s)
          else none
      | _ => none
    else if 0xDC00 ≤ u ∧ u < 0xE000 then none
    else some (Char.ofNat u, s)

/-- The character that a one-letter escape stands for. -/
def letterEscape (c : Char) : Option Char :=
  if c = '"' ∨ c = '\\' ∨ c = '/' then some c
  else if c = 'b' then some '\x08'
  else if c = 'f' then some '\x0C'
  else if c = 'n' then some '\n'
  else if c = 'r' then some '\r'
  else if c = 't' then some '\t'
  else none

/-- One character of a string. -/
def readChar : List Char → Option (Char × List Char)
  | '\\' :: 'u' :: s => unicodeEscape s
  | '\\' :: c :: s => (letterEscape c).map (·, s)
  | c :: s => if c = '"' ∨ c = '\\' ∨ c.toNat < 0x20 then none else some (c, s)
  | [] => none

theorem hex4_length {s s' : List Char} {u : ℕ} (h : hex4 s = some (u, s')) :
    s'.length < s.length := by
  unfold hex4 at h
  split at h
  · simp only [Option.bind_eq_bind, Option.bind_eq_some_iff, Option.some.injEq, Prod.mk.injEq] at h
    obtain ⟨_, _, _, _, _, _, _, _, _, rfl⟩ := h
    simp only [List.length_cons]
    omega
  · cases h

theorem unicodeEscape_length {s s' : List Char} {c : Char} (h : unicodeEscape s = some (c, s')) :
    s'.length < s.length := by
  unfold unicodeEscape at h
  split at h
  · cases h
  rename_i hu
  have hlen := hex4_length hu
  split at h
  · split at h
    · split at h
      · cases h
      rename_i hv
      have hlen' := hex4_length hv
      split at h
      · obtain ⟨-, rfl⟩ := Prod.mk.inj (Option.some.inj h)
        simp only [List.length_cons] at hlen
        omega
      · cases h
    · cases h
  · split at h
    · cases h
    · cases h
      exact hlen

theorem readChar_length {s s' : List Char} {c : Char} (h : readChar s = some (c, s')) :
    s'.length < s.length := by
  unfold readChar at h
  split at h
  · have hlen := unicodeEscape_length h
    simp only [List.length_cons]
    omega
  · obtain ⟨_, _, hc⟩ := Option.map_eq_some_iff.1 h
    cases hc
    simp only [List.length_cons]
    omega
  · split at h
    · cases h
    · cases h
      exact Nat.lt_succ_self _
  · cases h

/-- The characters of a string after its opening quote, and what follows the closing one. -/
def readString (s : List Char) : Option (List Char × List Char) :=
  match s with
  | '"' :: s => some ([], s)
  | s =>
    match _h : readChar s with
    | none => none
    | some (c, s') => (readString s').map fun p => (c :: p.1, p.2)
termination_by s.length
decreasing_by exact readChar_length ‹_›

theorem readString_quote (s : List Char) : readString ('"' :: s) = some ([], s) := by
  rw [readString]

theorem readString_char {s s' : List Char} {c : Char} (h : readChar s = some (c, s')) :
    readString s = (readString s').map fun p => (c :: p.1, p.2) := by
  rw [readString.eq_def]
  split
  · cases h
  split
  · rename_i hn
    rw [h] at hn
    cases hn
  · rename_i hs
    rw [h] at hs
    cases hs
    rfl

/-- `w` is a way to write the character `c` inside a string. -/
def Spells (w : List Char) (c : Char) : Prop := ∀ s, readChar (w ++ s) = some (c, s)

theorem spells_plain {c : Char} (hquote : c ≠ '"') (hback : c ≠ '\\') (hc : 0x20 ≤ c.toNat) :
    Spells [c] c := by
  intro s
  rw [List.singleton_append, readChar.eq_def]
  split
  · rename_i heq
    exact absurd (List.cons.inj heq).1 hback
  · rename_i heq
    exact absurd (List.cons.inj heq).1 hback
  · rename_i heq
    cases heq
    exact if_neg (by simp [hquote, hback, Nat.not_lt.2 hc])
  · rename_i heq
    cases heq

theorem spells_letter {e c : Char} (h : letterEscape e = some c) : Spells ['\\', e] c := by
  intro s
  rw [List.cons_append, List.singleton_append, readChar.eq_def]
  split
  · rename_i heq
    cases heq
    cases h
  · rename_i heq
    cases heq
    rw [h]
    rfl
  · rename_i hback heq
    cases heq
    exact absurd rfl (hback _ _ rfl)
  · rename_i heq
    cases heq

theorem spells_hex {a b : Char} {i j : ℕ} (ha : hexVal a = some i) (hb : hexVal b = some j)
    (hi : i < 16) (hj : j < 16) : Spells ['\\', 'u', '0', '0', a, b] (Char.ofNat (16 * i + j)) := by
  intro s
  have hzero : hexVal '0' = some 0 := rfl
  have hhex : hex4 (['0', '0', a, b] ++ s) = some (16 * i + j, s) := by
    simp only [List.cons_append, List.nil_append, hex4, hzero, ha, hb, Option.bind_eq_bind,
      Option.bind_some, Option.some.injEq, Prod.mk.injEq, and_true]
    omega
  change unicodeEscape (['0', '0', a, b] ++ s) = _
  rw [unicodeEscape, hhex]
  simp only
  rw [if_neg (by omega), if_neg (by omega)]

/-- **A string written character by character is read back.** -/
theorem readString_append {spell : Char → List Char} {cs : List Char}
    (h : ∀ c ∈ cs, Spells (spell c) c) (s : List Char) :
    readString (cs.flatMap spell ++ '"' :: s) = some (cs, s) := by
  induction cs with
  | nil => exact readString_quote s
  | cons c cs ih =>
    rw [List.flatMap_cons, List.append_assoc, readString_char (h c List.mem_cons_self _),
      ih fun c' hc' => h c' (List.mem_cons_of_mem _ hc')]
    rfl

/-! ## Numbers -/

/-- Digits, at least one of them, and what follows. -/
def readDigits (s : List Char) : Option (List Char × List Char) :=
  if s.takeWhile Char.isDigit = [] then none
  else some (s.takeWhile Char.isDigit, s.dropWhile Char.isDigit)

/-- `frac`, if there is one. -/
def readFrac : List Char → Option (List Char × List Char)
  | '.' :: s => readDigits s
  | s => some ([], s)

/-- `exp`, if there is one. -/
def readExp : List Char → Option (ℤ × List Char)
  | [] => some (0, [])
  | c :: s =>
    if c = 'e' ∨ c = 'E' then
      let signed := s.head? = some '-' ∨ s.head? = some '+'
      (readDigits (if signed then s.tail else s)).map fun p =>
        let e : ℤ := Nat.ofDigitChars 10 p.1 0
        (if s.head? = some '-' then -e else e, p.2)
    else some (0, c :: s)

/-- `int [ frac ] [ exp ]`: no zero stands before other digits of the integer part. -/
def readUnsigned (s : List Char) : Option (ℚ × List Char) := do
  let (int, s) ← readDigits s
  if int.head? = some '0' ∧ int ≠ ['0'] then none
  else
    let (frac, s) ← readFrac s
    let (e, s) ← readExp s
    some ((Nat.ofDigitChars 10 (int ++ frac) 0 : ℚ) * 10 ^ (e - frac.length), s)

/-- `number`. -/
def readNumber : List Char → Option (ℚ × List Char)
  | '-' :: s => (readUnsigned s).map fun p => (-p.1, p.2)
  | s => readUnsigned s

theorem readDigits_append {ds : List Char} (hne : ds ≠ []) (hd : ∀ c ∈ ds, c.isDigit) {c : Char}
    (hc : c.isDigit = false) (s : List Char) : readDigits (ds ++ c :: s) = some (ds, c :: s) := by
  have htake : (ds ++ c :: s).takeWhile Char.isDigit = ds := by
    rw [List.takeWhile_append_of_pos hd, List.takeWhile_cons_of_neg (by simp [hc]), List.append_nil]
  have hdrop : (ds ++ c :: s).dropWhile Char.isDigit = c :: s := by
    rw [List.dropWhile_append_of_pos hd, List.dropWhile_cons_of_neg (by simp [hc])]
  rw [readDigits, htake, hdrop, if_neg hne]

/-- Only the numeral of zero begins with the digit zero. -/
theorem toDigits_eq_zero {n : ℕ} (h : (Nat.toDigits 10 n).head? = some '0') :
    Nat.toDigits 10 n = ['0'] := by
  suffices hn : n = 0 by rw [hn, Nat.toDigits_zero]
  induction n using Nat.strongRecOn with
  | _ n ih =>
    by_cases hlt : n < 10
    · rw [Nat.toDigits_of_lt_base hlt] at h
      exact Nat.digitChar_eq_zero.1 (Option.some.inj h)
    · rw [Nat.toDigits_of_base_le (by omega) (Nat.le_of_not_lt hlt),
        List.head?_append_of_ne_nil _ Nat.toDigits_ne_nil] at h
      have := ih (n / 10) (by omega) h
      omega

section
variable {c : Char} (hdigit : c.isDigit = false) (hdot : c ≠ '.') (hexp : ¬ (c = 'e' ∨ c = 'E'))
include hdigit hdot hexp

theorem readUnsigned_toDigits (n : ℕ) (s : List Char) :
    readUnsigned (Nat.toDigits 10 n ++ c :: s) = some ((n : ℚ), c :: s) := by
  have hall : ∀ d ∈ Nat.toDigits 10 n, d.isDigit := fun d hd =>
    Nat.isDigit_of_mem_toDigits (by omega) (by omega) hd
  have hread := readDigits_append Nat.toDigits_ne_nil hall hdigit s
  have hzero : ¬ ((Nat.toDigits 10 n).head? = some '0' ∧ Nat.toDigits 10 n ≠ ['0']) :=
    fun h => h.2 (toDigits_eq_zero h.1)
  have hfrac : readFrac (c :: s) = some ([], c :: s) := by
    rw [readFrac.eq_def]
    split
    · rename_i heq
      exact absurd (List.cons.inj heq).1 hdot
    · rfl
  have hnoexp : readExp (c :: s) = some (0, c :: s) := if_neg hexp
  rw [readUnsigned, hread]
  simp only [Option.bind_eq_bind, Option.bind_some, if_neg hzero, hfrac, hnoexp, List.append_nil,
    Nat.ofDigitChars_ten_toDigits, List.length_nil, Nat.cast_zero, sub_zero, zpow_zero, mul_one]

/-- **The numeral of an integer is read back.** -/
theorem readNumber_toDec (n : ℤ) (s : List Char) :
    readNumber (chars (toDec n) ++ c :: s) = some ((n : ℚ), c :: s) := by
  have hread := fun m => readUnsigned_toDigits hdigit hdot hexp m s
  cases n with
  | ofNat n =>
    have hne : ∀ d t, Nat.toDigits 10 n ++ c :: s = d :: t → d ≠ '-' := by
      intro d t h hd
      obtain ⟨d', t', hdt⟩ := List.exists_cons_of_ne_nil (Nat.toDigits_ne_nil (n := n) (b := 10))
      rw [hdt] at h
      obtain rfl := (List.cons.inj h).1
      have := Nat.isDigit_of_mem_toDigits (by omega) (by omega) (hdt ▸ List.mem_cons_self)
      exact absurd (hd ▸ this) (by simp)
    change readNumber (chars (decNat n) ++ c :: s) = _
    rw [chars_decNat, readNumber.eq_def]
    split
    · rename_i heq
      exact absurd rfl (hne _ _ heq)
    · exact hread n
  | negSucc n =>
    change (readUnsigned (chars (decNat (n + 1)) ++ c :: s)).map _ = _
    rw [chars_decNat, hread, Int.cast_negSucc]
    rfl

end

/-! ## Values -/

/-- Elements with commas between them, up to the closing character. -/
def readSeq {α : Type} (elem : List Char → Option (α × List Char)) (close : Char) :
    ℕ → List Char → Option (List α × List Char)
  | 0, _ => none
  | n + 1, s => do
    let (a, s) ← elem s
    match skipWs s with
    | [] => none
    | c :: s =>
      if c = ',' then (readSeq elem close n s).map fun p => (a :: p.1, p.2)
      else if c = close then some ([a], s)
      else none

/-- A member of an object: a string, a colon, a value. -/
def readMember {α : Type} (value : List Char → Option (α × List Char)) (s : List Char) :
    Option ((List Char × α) × List Char) :=
  match skipWs s with
  | '"' :: s => do
    let (name, s) ← readString s
    match skipWs s with
    | ':' :: s => (value s).map fun p => ((name, p.1), p.2)
    | _ => none
  | _ => none

/-- A value nested at most `depth` deep. -/
def readValue : ℕ → List Char → Option (Value × List Char)
  | 0, _ => none
  | depth + 1, s =>
    match skipWs s with
    | '"' :: s => (readString s).map fun p => (.str p.1, p.2)
    | '\x7b' :: s =>
      match skipWs s with
      | '\x7d' :: s => some (.obj [], s)
      | s => (readSeq (readMember (readValue depth)) '\x7d' s.length s).map fun p => (.obj p.1, p.2)
    | '[' :: s =>
      match skipWs s with
      | ']' :: s => some (.arr [], s)
      | s => (readSeq (readValue depth) ']' s.length s).map fun p => (.arr p.1, p.2)
    | 'n' :: 'u' :: 'l' :: 'l' :: s => some (.null, s)
    | 't' :: 'r' :: 'u' :: 'e' :: s => some (.bool true, s)
    | 'f' :: 'a' :: 'l' :: 's' :: 'e' :: s => some (.bool false, s)
    | s => (readNumber s).map fun p => (.num p.1, p.2)

/-- `JSON-text`: one value, with nothing but white space around it. -/
def parse (s : List Char) : Option Value :=
  match readValue (s.length + 1) s with
  | some (v, s) => if skipWs s = [] then some v else none
  | none => none

/-! ## Texts that are read back -/

/-- The characters that may stand after a value inside an array or an object. -/
def Closes (c : Char) : Prop := c = ',' ∨ c = '\x7d' ∨ c = ']'

/-- `w` is a text of the value `v`. -/
def Denotes (w : List Char) (v : Value) : Prop :=
  ∀ depth c s, Closes c → readValue (depth + 1) (w ++ c :: s) = some (v, c :: s)

theorem denotes_str {spell : Char → List Char} {cs : List Char} (h : ∀ c ∈ cs, Spells (spell c) c) :
    Denotes ('"' :: cs.flatMap spell ++ ['"']) (.str cs) := by
  intro depth c s _
  have hread := readString_append h (c :: s)
  rw [List.append_assoc, List.cons_append, List.singleton_append]
  change (readString (cs.flatMap spell ++ '"' :: c :: s)).map _ = _
  rw [hread]
  rfl

/-- A value that begins with a digit or a minus sign is a number. -/
theorem readValue_number {d : Char} (hd : d.isDigit ∨ d = '-') (depth : ℕ) (s : List Char) :
    readValue (depth + 1) (d :: s) = (readNumber (d :: s)).map fun p => (.num p.1, p.2) := by
  have hother : ∀ e, e.isDigit = false ∧ e ≠ '-' → d ≠ e := by
    rintro e ⟨hdigit, hminus⟩ rfl
    exact hd.elim (fun h => absurd h (by simp [hdigit])) hminus
  have hws : skipWs (d :: s) = d :: s := by
    refine List.dropWhile_cons_of_neg fun hw => ?_
    simp only [isWs, Bool.or_eq_true, decide_eq_true_eq] at hw
    rcases hw with ((rfl | rfl) | rfl) | rfl
    all_goals exact absurd rfl (hother _ (by simp))
  have hhead : ∀ {e t}, d :: s = e :: t → ¬ (e.isDigit = false ∧ e ≠ '-') :=
    fun heq he => hother _ he (List.cons.inj heq).1
  rw [readValue, hws]
  split
  all_goals first
    | (rename_i heq
       exact absurd ⟨by decide, by decide⟩ (hhead heq))
    | rfl

/-- The numeral of an integer begins with a digit or a minus sign. -/
theorem chars_toDec_cons (n : ℤ) :
    ∃ d t, chars (toDec n) = d :: t ∧ (d.isDigit ∨ d = '-') := by
  cases n with
  | ofNat n =>
    obtain ⟨d, t, hdt⟩ := List.exists_cons_of_ne_nil (Nat.toDigits_ne_nil (n := n) (b := 10))
    have hd := Nat.isDigit_of_mem_toDigits (by omega) (by omega) (hdt ▸ List.mem_cons_self)
    exact ⟨d, t, (chars_decNat n).trans hdt, .inl hd⟩
  | negSucc n => exact ⟨'-', _, rfl, .inr rfl⟩

theorem denotes_num (n : ℤ) : Denotes (chars (toDec n)) (.num n) := by
  intro depth c s hc
  obtain ⟨d, t, hdt, hd⟩ := chars_toDec_cons n
  have hread : readNumber (chars (toDec n) ++ c :: s) = some ((n : ℚ), c :: s) := by
    rcases hc with rfl | rfl | rfl
    all_goals exact readNumber_toDec (by simp) (by simp) (by simp) n s
  rw [hdt, List.cons_append, readValue_number hd, ← List.cons_append, ← hdt, hread]
  rfl

theorem readSeq_append {α : Type} {elem : List Char → Option (α × List Char)} {close : Char}
    (hclose : Closes close) (hcomma : close ≠ ',') {items : List (List Char × α)}
    (hne : items ≠ []) (h : ∀ it ∈ items, ∀ c s, Closes c → elem (it.1 ++ c :: s) = some (it.2, c :: s))
    {n : ℕ} (hn : items.length ≤ n) (s : List Char) :
    readSeq elem close n ([','].intercalate (items.map Prod.fst) ++ close :: s) =
      some (items.map Prod.snd, s) := by
  have hskip : ∀ {c s}, Closes c → skipWs (c :: s) = c :: s := by
    rintro c s (rfl | rfl | rfl)
    all_goals exact List.dropWhile_cons_of_neg (by decide)
  induction items generalizing n with
  | nil => exact absurd rfl hne
  | cons it items ih =>
    obtain ⟨n, rfl⟩ : ∃ m, n = m + 1 := ⟨n - 1, by rw [List.length_cons] at hn; omega⟩
    have hit := h it List.mem_cons_self
    rw [List.map_cons, readSeq]
    cases items with
    | nil =>
      rw [List.map_nil, List.intercalate_singleton, hit close s hclose]
      simp only [Option.bind_eq_bind, Option.bind_some, hskip hclose, if_neg hcomma, if_true,
        List.map_cons, List.map_nil]
    | cons it' items =>
      have hrest := ih (List.cons_ne_nil _ _) (fun it hmem => h it (List.mem_cons_of_mem _ hmem))
        (Nat.le_of_succ_le_succ hn)
      rw [List.map_cons, List.intercalate_cons_cons, List.append_assoc, List.append_assoc,
        List.singleton_append, hit ',' _ (.inl rfl)]
      simp only [Option.bind_eq_bind, Option.bind_some, hskip (.inl rfl), if_true]
      rw [← List.map_cons, hrest]
      rfl

/-- A member of an object: its name, the text of its value, its value. -/
structure Member where
  name : List Char
  text : List Char
  value : Value

def Member.write (m : Member) : List Char := '"' :: m.name ++ '"' :: ':' :: m.text

/-- The characters of the name stand for themselves, the text for the value. -/
def Member.Sound (m : Member) : Prop := (∀ c ∈ m.name, Spells [c] c) ∧ Denotes m.text m.value

/-- An object with a member. -/
theorem readValue_object (depth : ℕ) (s : List Char) :
    readValue (depth + 1) ('\x7b' :: '"' :: s) =
      (readSeq (readMember (readValue depth)) '\x7d' (s.length + 1) ('"' :: s)).map
        fun p => (.obj p.1, p.2) := rfl

theorem readMember_append {α : Type} {value : List Char → Option (α × List Char)}
    {name w rest : List Char} {v : α} (hname : ∀ c ∈ name, Spells [c] c)
    (hvalue : value (w ++ rest) = some (v, rest)) :
    readMember value ('"' :: name ++ '"' :: ':' :: w ++ rest) = some ((name, v), rest) := by
  have hstr := readString_append hname (':' :: (w ++ rest))
  rw [List.flatMap_singleton'] at hstr
  have hquote : ∀ t, skipWs ('"' :: t) = '"' :: t := fun t =>
    List.dropWhile_cons_of_neg (by decide)
  have hcolon : ∀ t, skipWs (':' :: t) = ':' :: t := fun t =>
    List.dropWhile_cons_of_neg (by decide)
  rw [List.append_assoc, List.cons_append, List.cons_append, List.cons_append, readMember, hquote]
  simp only [hstr, Option.bind_eq_bind, Option.bind_some, hcolon, hvalue, Option.map_some]

theorem length_le_intercalate {ws : List (List Char)} (h : ∀ w ∈ ws, w ≠ []) :
    ws.length ≤ ([','].intercalate ws).length := by
  induction ws with
  | nil => exact Nat.le_refl _
  | cons w ws ih =>
    have hw : 0 < w.length := List.length_pos_iff.2 (h w List.mem_cons_self)
    cases ws with
    | nil => exact List.intercalate_singleton ▸ hw
    | cons w' ws =>
      have := ih fun w hmem => h w (List.mem_cons_of_mem _ hmem)
      rw [List.intercalate_cons_cons, List.length_append, List.length_append, List.length_cons]
      omega

/-- **An object written member by member is read back.** -/
theorem parse_obj {members : List Member} (hne : members ≠ []) (h : ∀ m ∈ members, m.Sound)
    {ws : List Char} (hws : skipWs ws = []) :
    parse ('\x7b' :: [','].intercalate (members.map Member.write) ++ '\x7d' :: ws) =
      some (.obj (members.map fun m => (m.name, m.value))) := by
  have hclose : Closes '\x7d' := .inr (.inl rfl)
  let items := members.map fun m => (m.write, (m.name, m.value))
  have hwrite : items.map Prod.fst = members.map Member.write := by
    rw [List.map_map]
    rfl
  have hread : items.map Prod.snd = members.map fun m => (m.name, m.value) := by
    rw [List.map_map]
    rfl
  let text := [','].intercalate (members.map Member.write) ++ '\x7d' :: ws
  have hmember : ∀ depth, ∀ it ∈ items, ∀ c s, Closes c →
      readMember (readValue (depth + 1)) (it.1 ++ c :: s) = some (it.2, c :: s) := by
    intro depth it hit c s hc
    obtain ⟨m, hm, rfl⟩ := List.mem_map.1 hit
    obtain ⟨hname, htext⟩ := h m hm
    exact readMember_append hname (htext depth c s hc)
  have hlen : items.length ≤ text.length := by
    have hle : (members.map Member.write).length ≤ _ := length_le_intercalate (by
      intro w hw
      obtain ⟨m, -, rfl⟩ := List.mem_map.1 hw
      exact List.cons_ne_nil _ _)
    rw [List.length_map] at hle
    rw [List.length_map, List.length_append]
    omega
  have hseq := readSeq_append hclose (by simp) (by simpa [items] using hne)
    (hmember text.length) hlen ws
  rw [hwrite, hread] at hseq
  have hvalue : readValue (text.length + 1 + 1) ('\x7b' :: text) =
      some (.obj (members.map fun m => (m.name, m.value)), ws) := by
    obtain ⟨t, ht⟩ : ∃ t, text = '"' :: t := by
      cases members with
      | nil => exact absurd rfl hne
      | cons m ms =>
        cases ms with
        | nil => exact ⟨_, by rw [← List.cons_append]; rfl⟩
        | cons m' ms => exact ⟨_, rfl⟩
    have hfuel : t.length + 1 = text.length := by
      rw [ht]
      rfl
    rw [ht, readValue_object, ← ht, hfuel, hseq]
    rfl
  rw [parse]
  change (match readValue (text.length + 1 + 1) ('\x7b' :: text) with
    | some (v, s) => if skipWs s = [] then some v else none
    | none => none) = _
  rw [hvalue]
  exact if_pos hws

end JsonText

end TrtcAsr
