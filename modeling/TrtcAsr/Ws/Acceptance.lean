/-
  Which responses `WsClient::Connect` takes for an upgrade (ws_client.cc).

  A response accepts the upgrade when its status code is 101 and its field `Sec-WebSocket-Accept`
  has the value that belongs to the key of the request.  The code looks for two texts anywhere in
  the header instead.

  * `carries_isAccept_iff`: a field line with the text is the field exactly when it begins with the
    text and white space follows;
  * `upgrade_accept_iff`: the two agree on a header, exactly when it is of none of three kinds;
  * `forbidden_accepted`: a refusal that is taken for an upgrade.
-/
import TrtcAsr.Credential
import TrtcAsr.Ws.Dial
import TrtcAsr.Ws.Upgrade

namespace TrtcAsr

/-- A response header as `Connect` reads it: it ends at its first empty line, and it is at most
    64 KiB long. -/
structure HeaderBlock where
  text : Bytes
  ends : found crlfcrlf text = true
  first : ∀ p, p <+: text → p ≠ text → found crlfcrlf p = false
  length_le : text.length ≤ 64 * 1024

/-- base64(SHA1(key + GUID)). -/
def acceptValue (sha1 : Bytes → Bytes) (key : Bytes) : Bytes :=
  base64Encode (sha1 (key ++ ascii "258EAFA5-E914-47DA-95CA-C5AB0DC85B11"))

/-! ## The field -/

section

variable (value line : Bytes)

/-- The line is a field `Sec-WebSocket-Accept`, in any capitalization, with this value. -/
def IsAccept : Prop :=
  ∃ name, fieldLine line = some (name, value) ∧ name.map toLower = ascii "sec-websocket-accept"

/-- The text that the code looks for. -/
def acceptText : Bytes := ascii "Sec-WebSocket-Accept" ++ 0x3A :: 0x20 :: value

def Carries : Prop := acceptText value <:+: line

/-- The line is the text, and only white space follows. -/
def Exact : Prop := ∃ ows, line = acceptText value ++ ows ∧ ∀ b ∈ ows, isOws b

end

section

variable {value line : Bytes}

theorem isAccept_of_exact (hv : ∀ b ∈ value, isVchar b) (h : Exact value line) :
    IsAccept value line := by
  obtain ⟨ows, rfl, hows⟩ := h
  have htrim : trimOws (0x20 :: (value ++ ows)) = value := by
    have hblank : ∀ c ∈ ([0x20] : Bytes), isOws c := by simp [isOws]
    simpa using trimOws_append hblank hv hows
  have hline : acceptText value ++ ows =
      ascii "Sec-WebSocket-Accept" ++ 0x3A :: (0x20 :: (value ++ ows)) := by
    simp [acceptText]
  refine ⟨ascii "Sec-WebSocket-Accept", ?_, by decide +kernel⟩
  rw [hline, fieldLine_append (by decide +kernel), htrim]
  refine if_pos ⟨by decide +kernel, by decide +kernel, List.all_eq_true.2 fun b hb => ?_⟩
  simp only [hv b hb, Bool.true_or]

/-- When a visible value is all that stands between white space, white space follows it. -/
theorem ows_of_trimmed {post a b : Bytes} (hv : ∀ c ∈ value, isVchar c) (ha : ∀ c ∈ a, isOws c)
    (hb : ∀ c ∈ b, isOws c) (h : 0x20 :: (value ++ post) = a ++ value ++ b) :
    ∀ c ∈ post, isOws c := by
  cases value with
  | nil =>
    intro c hc
    have hmem : c ∈ a ++ [] ++ b := h ▸ List.mem_cons_of_mem _ hc
    rw [List.append_nil] at hmem
    exact (List.mem_append.1 hmem).elim (ha c) (hb c)
  | cons v value =>
    have hvis : isOws v = false := isOws_of_isVchar (hv v List.mem_cons_self)
    cases a with
    | nil =>
      obtain ⟨rfl, -⟩ := List.cons.inj h
      cases hvis
    | cons c a =>
      obtain ⟨-, h⟩ := List.cons.inj h
      cases a with
      | nil => exact List.append_cancel_left h ▸ hb
      | cons c' a =>
        obtain ⟨rfl, -⟩ := List.cons.inj h
        have hows := ha v (List.mem_cons_of_mem c List.mem_cons_self)
        rw [hvis] at hows
        cases hows

/-- **A line with the text is the field exactly when the text begins it and white space follows.** -/
theorem carries_isAccept_iff (hv : ∀ b ∈ value, isVchar b) (hcolon : 0x3A ∉ value) :
    Carries value line ∧ IsAccept value line ↔ Exact value line := by
  constructor
  swap
  · intro h
    obtain ⟨ows, rfl, -⟩ := id h
    exact ⟨(List.prefix_append _ ows).isInfix, isAccept_of_exact hv h⟩
  rintro ⟨⟨pre, post, rfl⟩, name, hfield, hname⟩
  by_cases hpre : 0x3A ∈ pre
  · -- the field has another name, or a colon in its value
    obtain ⟨p, q, rfl, hp⟩ := List.eq_append_cons_of_mem hpre
    have hline : p ++ 0x3A :: q ++ acceptText value ++ post =
        p ++ 0x3A :: (q ++ acceptText value ++ post) := by simp
    rw [hline, fieldLine_append hp] at hfield
    split at hfield
    swap
    · cases hfield
    obtain ⟨rfl, htrim⟩ := Prod.mk.inj (Option.some.inj hfield)
    obtain ⟨a, b, hrest, ha, hb⟩ := exists_trimOws (q ++ acceptText value ++ post)
    have hmem : (0x3A : UInt8) ∈ q ++ acceptText value ++ post := by simp [acceptText]
    have hows : ¬ isOws 0x3A := by decide
    rw [htrim] at hrest
    rw [hrest, List.mem_append, List.mem_append] at hmem
    rcases hmem with (h | h) | h
    · exact absurd (ha _ h) hows
    · exact absurd h hcolon
    · exact absurd (hb _ h) hows
  · have hno : (0x3A : UInt8) ∉ pre ++ ascii "Sec-WebSocket-Accept" := by
      rw [List.mem_append]
      rintro (h | h)
      · exact hpre h
      · exact absurd h (by decide +kernel)
    have hline : pre ++ acceptText value ++ post =
        pre ++ ascii "Sec-WebSocket-Accept" ++ 0x3A :: (0x20 :: (value ++ post)) := by
      simp [acceptText]
    rw [hline, fieldLine_append hno] at hfield
    split at hfield
    swap
    · cases hfield
    obtain ⟨rfl, htrim⟩ := Prod.mk.inj (Option.some.inj hfield)
    have hnil : pre = [] := by
      have hlen := congrArg List.length hname
      rw [List.length_map, List.length_append] at hlen
      have h20 : (ascii "Sec-WebSocket-Accept").length = 20 := by decide +kernel
      have h20' : (ascii "sec-websocket-accept").length = 20 := by decide +kernel
      exact List.length_eq_zero_iff.1 (by omega)
    subst hnil
    obtain ⟨a, b, hrest, ha, hb⟩ := exists_trimOws (0x20 :: (value ++ post))
    rw [htrim] at hrest
    exact ⟨post, rfl, ows_of_trimmed hv ha hb hrest⟩

end

/-! ## The header -/

section

variable (value head : Bytes)

/-- The header accepts the upgrade. -/
structure Accepted : Prop where
  status : statusCode head = some (ascii "101")
  accept : ∃ line ∈ headFields head, IsAccept value line

/-- The code is another one, ` 101` stands somewhere else, and so does the text. -/
structure StatusElsewhere : Prop where
  status : statusCode head ≠ some (ascii "101")
  digits : ∃ line ∈ crlfLines head, ascii " 101" <:+: line
  carries : ∃ line ∈ crlfLines head, Carries value line

/-- The code is 101 and the text stands in a line, but the field lines with the text have
    something before it or after it, and those without are not the field either. -/
structure TextElsewhere : Prop where
  status : statusCode head = some (ascii "101")
  carries : ∃ line ∈ crlfLines head, Carries value line
  inexact : ∀ line ∈ headFields head, Carries value line → ¬ Exact value line
  no_other : ∀ line ∈ headFields head, ¬ Carries value line → ¬ IsAccept value line

/-- The upgrade is accepted in another capitalization or with other white space: no line has the
    text. -/
structure SpelledOtherwise : Prop where
  status : statusCode head = some (ascii "101")
  accept : ∃ line ∈ headFields head, IsAccept value line
  no_text : ∀ line ∈ crlfLines head, ¬ Carries value line

end

theorem found_iff {pat s : Bytes} : found pat s = true ↔ pat <:+: s := decide_eq_true_iff

theorem acceptLine_eq (sha1 : Bytes → Bytes) (key : Bytes) :
    acceptLine sha1 key = acceptText (acceptValue sha1 key) := by
  have htext : ascii "Sec-WebSocket-Accept: " = ascii "Sec-WebSocket-Accept" ++ [0x3A, 0x20] := by
    decide +kernel
  rw [acceptLine, acceptText, htext, List.append_assoc]
  rfl

/-- The checks accept a header in which some line has ` 101` and some line has the text. -/
theorem check_eq_ok {u : UpgradeRead} {value : Bytes} (hwant : u.want = acceptText value)
    (hv : ∀ b ∈ value, isVchar b) :
    u.check = .ok ↔ (∃ line ∈ crlfLines u.resp, ascii " 101" <:+: line) ∧
      ∃ line ∈ crlfLines u.resp, Carries value line := by
  have hcr : 0x0D ∉ acceptText value := by
    rw [acceptText, List.mem_append]
    rintro (h | h)
    · exact absurd h (by decide +kernel)
    · have hmem : (0x0D : UInt8) ∈ value := by simpa using h
      exact absurd (hv _ hmem) (by decide)
  have hlf : 0x0A ∉ acceptText value := by
    rw [acceptText, List.mem_append]
    rintro (h | h)
    · exact absurd h (by decide +kernel)
    · have hmem : (0x0A : UInt8) ∈ value := by simpa using h
      exact absurd (hv _ hmem) (by decide)
  have hne : acceptText value ≠ [] := by simp [acceptText]
  have hdigits := infix_crlfLines (s := u.resp) (by decide +kernel : ascii " 101" ≠ [])
    (by decide +kernel) (by decide +kernel)
  have htext := infix_crlfLines (s := u.resp) hne hcr hlf
  simp only [Carries]
  rw [← hdigits, ← htext, ← hwant, ← found_iff, ← found_iff, UpgradeRead.check]
  by_cases hstatus : found (ascii " 101") u.resp
  · by_cases hwanted : found u.want u.resp
    · simp [hstatus, hwanted]
    · simp [hstatus, hwanted]
  · simp [hstatus]

theorem and_iff_and_iff {S D W F : Prop} (h : S → D) :
    (D ∧ W ↔ S ∧ F) ↔ ¬ (¬ S ∧ D ∧ W) ∧ ¬ (S ∧ W ∧ ¬ F) ∧ ¬ (S ∧ F ∧ ¬ W) := by
  tauto

/-- The two searches agree with the fields of a header, apart from three kinds of headers. -/
theorem search_agrees_iff {value head : Bytes} (hv : ∀ b ∈ value, isVchar b)
    (hcolon : 0x3A ∉ value) :
    (((∃ line ∈ crlfLines head, ascii " 101" <:+: line) ∧
        (∃ line ∈ crlfLines head, Carries value line) ↔ Accepted value head) ↔
      ¬ StatusElsewhere value head ∧ ¬ TextElsewhere value head ∧
      ¬ SpelledOtherwise value head) := by
  have hdigits : statusCode head = some (ascii "101") →
      ∃ line ∈ crlfLines head, ascii " 101" <:+: line := by
    intro h
    have htext : ascii " 101" = 0x20 :: ascii "101" := by decide +kernel
    refine (infix_crlfLines (by decide +kernel) (by decide +kernel) (by decide +kernel)).1 ?_
    rw [htext]
    exact infix_of_statusCode h
  have hfield : (∃ line ∈ headFields head, IsAccept value line) ↔
      ¬ ((∀ line ∈ headFields head, Carries value line → ¬ Exact value line) ∧
        ∀ line ∈ headFields head, ¬ Carries value line → ¬ IsAccept value line) := by
    constructor
    · rintro ⟨line, hline, hacc⟩ ⟨hinexact, hother⟩
      by_cases hc : Carries value line
      · exact hinexact line hline hc ((carries_isAccept_iff hv hcolon).1 ⟨hc, hacc⟩)
      · exact hother line hline hc hacc
    · intro h
      by_contra hno
      refine h ⟨fun line hline _ hexact => ?_, fun line hline _ hacc => ?_⟩
      · exact hno ⟨line, hline, isAccept_of_exact hv hexact⟩
      · exact hno ⟨line, hline, hacc⟩
  have haccepted : Accepted value head ↔ statusCode head = some (ascii "101") ∧
      ∃ line ∈ headFields head, IsAccept value line :=
    ⟨fun h => ⟨h.status, h.accept⟩, fun h => ⟨h.1, h.2⟩⟩
  have hstatus : StatusElsewhere value head ↔
      statusCode head ≠ some (ascii "101") ∧
        (∃ line ∈ crlfLines head, ascii " 101" <:+: line) ∧
        ∃ line ∈ crlfLines head, Carries value line :=
    ⟨fun h => ⟨h.status, h.digits, h.carries⟩, fun h => ⟨h.1, h.2.1, h.2.2⟩⟩
  have htext : TextElsewhere value head ↔
      statusCode head = some (ascii "101") ∧
        (∃ line ∈ crlfLines head, Carries value line) ∧
        ¬ ∃ line ∈ headFields head, IsAccept value line := by
    rw [hfield, not_not]
    exact ⟨fun h => ⟨h.status, h.carries, h.inexact, h.no_other⟩,
      fun h => ⟨h.1, h.2.1, h.2.2.1, h.2.2.2⟩⟩
  have hspelled : SpelledOtherwise value head ↔
      statusCode head = some (ascii "101") ∧
        (∃ line ∈ headFields head, IsAccept value line) ∧
        ¬ ∃ line ∈ crlfLines head, Carries value line := by
    constructor
    · rintro ⟨hcode, hacc, hno⟩
      exact ⟨hcode, hacc, fun ⟨line, hline, hc⟩ => hno line hline hc⟩
    · rintro ⟨hcode, hacc, hno⟩
      exact ⟨hcode, hacc, fun line hline hc => hno ⟨line, hline, hc⟩⟩
  rw [haccepted, hstatus, htext, hspelled]
  exact and_iff_and_iff hdigits

/-- **`Connect` accepts exactly the headers that accept the upgrade**, apart from three kinds of
    headers. -/
theorem upgrade_accept_iff (sha1 : Bytes → Bytes) (key : Bytes) (deadline : ℤ)
    (block : HeaderBlock) (c : WsClient) (t : Tick) :
    (((c.upgradePass { deadline, want := acceptLine sha1 key, resp := block.text } t).2 = .ok ↔
        Accepted (acceptValue sha1 key) block.text) ↔
      ¬ StatusElsewhere (acceptValue sha1 key) block.text ∧
      ¬ TextElsewhere (acceptValue sha1 key) block.text ∧
      ¬ SpelledOtherwise (acceptValue sha1 key) block.text) := by
  have hv : ∀ b ∈ acceptValue sha1 key, isVchar b := isVchar_base64 _
  have hcolon : 0x3A ∉ acceptValue sha1 key := by
    intro h
    rcases mem_base64Encode h with h | h
    · exact absurd h (by decide +kernel)
    · exact absurd h (by simp)
  have hpass : (c.upgradePass { deadline, want := acceptLine sha1 key, resp := block.text } t).2 =
      ({ deadline, want := acceptLine sha1 key, resp := block.text } : UpgradeRead).check := by
    simp only [WsClient.upgradePass, block.ends, if_true]
  rw [hpass, check_eq_ok (acceptLine_eq sha1 key) hv]
  exact search_agrees_iff hv hcolon

/-! A refusal that mentions a 101 and repeats the accept line, for the key of the protocol's
    document. -/

def sampleKey : Bytes := ascii "dGhlIHNhbXBsZSBub25jZQ=="

def sampleDigest : Bytes :=
  [0xB3, 0x7A, 0x4F, 0x2C, 0xC0, 0x62, 0x4F, 0x16, 0x90, 0xF6, 0x46, 0x06, 0xCF, 0x38, 0x59, 0x45,
    0xB2, 0xBE, 0xC4, 0xEA]

def sampleForbidden : Bytes :=
  ascii "HTTP/1.1 403 Forbidden\r\nX-Upstream: 101\r\n" ++
    ascii "Sec-WebSocket-Accept: s3pPLMBiTxaQ9kYGzzhZRbK+xOo=\r\n\r\n"

def sampleBlock : HeaderBlock where
  text := sampleForbidden
  ends := by decide +kernel
  first := by
    have hall : sampleForbidden.inits.all fun p => p == sampleForbidden || !found crlfcrlf p := by
      decide +kernel
    intro p hp hne
    have hcase := List.all_eq_true.1 hall p ((List.mem_inits p _).2 hp)
    simpa [hne] using hcase
  length_le := by decide +kernel

/-- **A refusal is taken for an upgrade**: the status code is 403. -/
theorem forbidden_accepted :
    ¬ ∀ (sha1 : Bytes → Bytes) (key : Bytes) (deadline : ℤ) (block : HeaderBlock) (c : WsClient)
      (t : Tick),
      ((c.upgradePass { deadline, want := acceptLine sha1 key, resp := block.text } t).2 = .ok ↔
        Accepted (acceptValue sha1 key) block.text) := by
  intro h
  have hcode := ((h (fun _ => sampleDigest) sampleKey 0 sampleBlock { tls := true, rx := [] }
    { now := 0, after := 0, poll := .timeout }).1
    (by decide +kernel)).status
  exact absurd hcode (by decide +kernel)

end TrtcAsr
