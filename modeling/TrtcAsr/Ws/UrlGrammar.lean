/-
  The grammar of endpoint URLs, and where `ParseWsUrl` leaves it (ws_client.cc).

  * `Denotes`: `ws://host[:port][/...]` or `wss://...`, with the parts it consists of; the host is a
    name without a colon or an IPv6 literal, the port a decimal numeral;
  * `parseAuthority_iff`: what the parser makes of an authority, by its last colon;
  * `parseWsUrl_exact_iff`: the parser accepts what the grammar denotes, with its parts, exactly for
    the URLs that are not of the kinds `PortIgnored` and `PortLax`.
-/
import TrtcAsr.Lib.Numeral
import TrtcAsr.Ws.Dial

namespace TrtcAsr

/-! ## IPv6 literals -/

def isHexDigit (b : UInt8) : Bool :=
  isDigit b || (0x41 ≤ b && b ≤ 0x46) || (0x61 ≤ b && b ≤ 0x66)

/-- Up to four hexadecimal digits. -/
def IsH16 (s : Bytes) : Prop := s ≠ [] ∧ s.length ≤ 4 ∧ ∀ b ∈ s, isHexDigit b

/-- Four numbers up to 255, with dots between them. -/
def IsIpv4 (s : Bytes) : Prop :=
  ∃ octets : List ℕ, octets.length = 4 ∧ (∀ n ∈ octets, n ≤ 255) ∧
    s = (ascii ".").intercalate (octets.map decNat)

/-- Pieces that fill `n` of the eight fields of an IPv6 address; the last may be an IPv4 address. -/
inductive Ipv6Fields : ℕ → List Bytes → Prop where
  | nil : Ipv6Fields 0 []
  | ipv4 {s : Bytes} (h : IsIpv4 s) : Ipv6Fields 2 [s]
  | h16 {n : ℕ} {s : Bytes} {l : List Bytes} (h : IsH16 s) (hl : Ipv6Fields n l) :
      Ipv6Fields (n + 1) (s :: l)

/-- Eight fields with colons between them, or fewer with `::` in the place of the others. -/
def IsIpv6 (s : Bytes) : Prop :=
  (∃ l, Ipv6Fields 8 l ∧ s = (ascii ":").intercalate l) ∨
    ∃ n left right, (∀ g ∈ left, IsH16 g) ∧ Ipv6Fields n right ∧ left.length + n ≤ 7 ∧
      s = (ascii ":").intercalate left ++ (ascii "::" ++ (ascii ":").intercalate right)

/-- A character of an IPv6 address. -/
def isIpv6Char (b : UInt8) : Bool := isHexDigit b || b = 0x2E || b = 0x3A

theorem forall_mem_intercalate {p : UInt8 → Prop} {sep : Bytes} {l : List Bytes}
    (hsep : ∀ b ∈ sep, p b) (hl : ∀ s ∈ l, ∀ b ∈ s, p b) : ∀ b ∈ sep.intercalate l, p b := by
  induction l with
  | nil => simp
  | cons s l ih =>
    rw [List.forall_mem_cons] at hl
    cases l with
    | nil =>
      rw [List.intercalate_singleton]
      exact hl.1
    | cons s' l =>
      rw [List.intercalate_cons_cons, List.forall_mem_append, List.forall_mem_append]
      exact ⟨⟨hl.1, hsep⟩, ih hl.2⟩

theorem isIpv6Char_of_isH16 {s : Bytes} (h : IsH16 s) : ∀ b ∈ s, isIpv6Char b := by
  intro b hb
  rw [isIpv6Char, h.2.2 b hb]
  rfl

theorem isIpv6Char_of_isIpv4 {s : Bytes} (h : IsIpv4 s) : ∀ b ∈ s, isIpv6Char b := by
  obtain ⟨octets, -, -, rfl⟩ := h
  refine forall_mem_intercalate (forall_mem_of_all (by decide)) ?_
  intro s hs b hb
  obtain ⟨n, -, rfl⟩ := List.mem_map.1 hs
  rw [isIpv6Char, isHexDigit, isDigit_decNat hb]
  rfl

theorem isIpv6Char_of_fields {n : ℕ} {l : List Bytes} (h : Ipv6Fields n l) :
    ∀ s ∈ l, ∀ b ∈ s, isIpv6Char b := by
  induction h with
  | nil => simp
  | ipv4 h => exact List.forall_mem_singleton.2 (isIpv6Char_of_isIpv4 h)
  | h16 h _ ih => exact List.forall_mem_cons.2 ⟨isIpv6Char_of_isH16 h, ih⟩

theorem isIpv6Char_of_isIpv6 {s : Bytes} (h : IsIpv6 s) : ∀ b ∈ s, isIpv6Char b := by
  have hcolon : ∀ b ∈ ascii ":", isIpv6Char b := forall_mem_of_all (by decide)
  rcases h with ⟨l, hl, rfl⟩ | ⟨n, left, right, hleft, hright, -, rfl⟩
  · exact forall_mem_intercalate hcolon (isIpv6Char_of_fields hl)
  · rw [List.forall_mem_append, List.forall_mem_append]
    exact ⟨forall_mem_intercalate hcolon fun g hg => isIpv6Char_of_isH16 (hleft g hg),
      forall_mem_of_all (by decide), forall_mem_intercalate hcolon (isIpv6Char_of_fields hright)⟩

/-! ## The grammar -/

inductive WsScheme : Bytes → Bool → Prop where
  | ws : WsScheme (ascii "ws://") false
  | wss : WsScheme (ascii "wss://") true

/-- A name: not empty, and without a colon and a slash. -/
def IsName (host : Bytes) : Prop := host ≠ [] ∧ 0x3A ∉ host ∧ 0x2F ∉ host

/-- An IPv6 address in brackets. -/
def IsLiteral (host : Bytes) : Prop := ∃ address, IsIpv6 address ∧ host = 0x5B :: (address ++ [0x5D])

def defaultPort (secure : Bool) : ℤ := if secure then 443 else 80

/-- The numeral of a port. -/
def IsPort (text : Bytes) (port : ℤ) : Prop :=
  ∃ n : ℕ, 1 ≤ n ∧ n ≤ 65535 ∧ text = decNat n ∧ port = n

/-- `host [":" port]`. -/
def DenotesAuthority (secure : Bool) (authority host : Bytes) (port : ℤ) : Prop :=
  (IsName host ∨ IsLiteral host) ∧ (authority = host ∧ port = defaultPort secure ∨
    ∃ text, authority = host ++ 0x3A :: text ∧ IsPort text port)

/-- `authority [target]`; without a target it is `/`. -/
def DenotesRest (secure : Bool) (rest : Bytes) (parts : UrlParts) : Prop :=
  parts.secure = secure ∧ ∃ authority, DenotesAuthority secure authority parts.host parts.port ∧
    (rest = authority ∧ parts.target = [0x2F] ∨
      rest = authority ++ parts.target ∧ parts.target.head? = some 0x2F)

/-- The URL is `ws://` or `wss://`, a host, and perhaps a port and a target. -/
def Denotes (url : Bytes) (parts : UrlParts) : Prop :=
  ∃ scheme secure rest, WsScheme scheme secure ∧ url = scheme ++ rest ∧
    DenotesRest secure rest parts

/-! ## The last colon -/

theorem cutLast_append {c : UInt8} {before after : Bytes} (h : c ∉ after) :
    cutLast c (before ++ c :: after) = some (before, after) := by
  have hrev : (before ++ c :: after).reverse.takeWhile (· ≠ c) = after.reverse := by
    rw [List.reverse_append, List.reverse_cons, List.append_assoc,
      List.takeWhile_append_of_pos fun b hb => decide_eq_true (p := b ≠ c) fun hbc =>
        h (hbc ▸ List.mem_reverse.1 hb),
      List.singleton_append, List.takeWhile_cons_of_neg (by simp), List.append_nil]
  have hlen : (before ++ c :: after).length - after.length - 1 = before.length := by
    rw [List.length_append, List.length_cons]
    omega
  unfold cutLast
  rw [if_pos (List.mem_append_right _ List.mem_cons_self)]
  simp only [hrev, List.reverse_reverse, hlen, List.take_left]

/-- There is a last one. -/
theorem exists_last {c : UInt8} {s : Bytes} (h : c ∈ s) :
    ∃ before after, s = before ++ c :: after ∧ c ∉ after := by
  induction s with
  | nil => cases h
  | cons b s ih =>
    by_cases hs : c ∈ s
    · obtain ⟨before, after, rfl, hafter⟩ := ih hs
      exact ⟨b :: before, after, rfl, hafter⟩
    · rcases List.mem_cons.1 h with rfl | h
      · exact ⟨[], s, rfl, hs⟩
      · exact absurd h hs

theorem last_unique {c : UInt8} {before after before' after' : Bytes} (h : c ∉ after)
    (h' : c ∉ after') (heq : before ++ c :: after = before' ++ c :: after') :
    before = before' ∧ after = after' := by
  have hcut : cutLast c (before ++ c :: after) = some (before, after) := cutLast_append h
  rw [heq, cutLast_append h'] at hcut
  cases hcut
  exact ⟨rfl, rfl⟩

/-! ## Authorities -/

/-- What stands before the first slash. -/
def authorityOf (rest : Bytes) : Bytes := rest.takeWhile (· ≠ 0x2F)

def targetOf (rest : Bytes) : Bytes :=
  if 0x2F ∈ rest then rest.drop (authorityOf rest).length else [0x2F]

theorem authorityOf_append {a t : Bytes} (ha : 0x2F ∉ a) (ht : t = [] ∨ t.head? = some 0x2F) :
    authorityOf (a ++ t) = a := by
  rw [authorityOf, List.takeWhile_append_of_pos fun b hb => decide_eq_true (p := b ≠ 0x2F)
    fun hbs => ha (hbs ▸ hb)]
  rcases ht with rfl | ht
  · exact List.append_nil a
  · obtain ⟨t, rfl⟩ := List.head?_eq_some_iff.1 ht
    rw [List.takeWhile_cons_of_neg (by simp), List.append_nil]

/-- A text is an authority, or an authority and a target. -/
theorem rest_cases (rest : Bytes) :
    (0x2F ∉ rest ∧ authorityOf rest = rest ∧ targetOf rest = [0x2F]) ∨
      ∃ a t, 0x2F ∉ a ∧ t.head? = some 0x2F ∧ rest = a ++ t ∧ authorityOf rest = a ∧
        targetOf rest = t := by
  by_cases h : (0x2F : UInt8) ∈ rest
  · obtain ⟨a, t, rfl, ha⟩ := List.eq_append_cons_of_mem h
    have hauth := authorityOf_append (t := 0x2F :: t) ha (.inr rfl)
    refine .inr ⟨a, 0x2F :: t, ha, rfl, rfl, hauth, ?_⟩
    rw [targetOf, if_pos h, hauth, List.drop_left]
  · refine .inl ⟨h, ?_, if_neg h⟩
    have hauth := authorityOf_append (t := []) h (.inl rfl)
    rwa [List.append_nil] at hauth

theorem slash_not_mem_authorityOf (rest : Bytes) : 0x2F ∉ authorityOf rest := by
  rcases rest_cases rest with ⟨h, hauth, -⟩ | ⟨a, t, ha, -, -, hauth, -⟩
  · rwa [hauth]
  · rwa [hauth]

theorem isPort_chars {text : Bytes} {port : ℤ} (h : IsPort text port) :
    text ≠ [] ∧ ∀ b ∈ text, isDigit b := by
  obtain ⟨n, -, -, rfl, -⟩ := h
  exact ⟨decNat_ne_nil n, fun b hb => isDigit_decNat hb⟩

theorem isLiteral_chars {host : Bytes} (h : IsLiteral host) :
    0x5D ∈ host ∧ 0x2F ∉ host ∧ host.getLast? = some 0x5D := by
  obtain ⟨address, haddress, rfl⟩ := h
  have hslash : (0x2F : UInt8) ∉ address := fun hmem =>
    absurd (isIpv6Char_of_isIpv6 haddress _ hmem) (by decide)
  refine ⟨by simp, ?_, ?_⟩
  · rw [List.mem_cons, List.mem_append, List.mem_singleton]
    rintro (h | h | h)
    · exact absurd h (by simp)
    · exact hslash h
    · exact absurd h (by simp)
  · rw [← List.cons_append, List.getLast?_concat]

theorem slash_not_mem_of_denotes {secure : Bool} {a host : Bytes} {port : ℤ}
    (h : DenotesAuthority secure a host port) : 0x2F ∉ a := by
  obtain ⟨hhost, hport⟩ := h
  have hslash : 0x2F ∉ host := hhost.elim (fun h => h.2.2) fun h => (isLiteral_chars h).2.1
  rcases hport with ⟨rfl, -⟩ | ⟨text, rfl, htext⟩
  · exact hslash
  · rw [List.mem_append, List.mem_cons]
    rintro (h | h | h)
    · exact hslash h
    · exact absurd h (by simp)
    · exact absurd ((isPort_chars htext).2 _ h) (by decide)

theorem denotesRest_iff {secure : Bool} {rest : Bytes} {parts : UrlParts} :
    DenotesRest secure rest parts ↔ parts.secure = secure ∧ parts.target = targetOf rest ∧
      DenotesAuthority secure (authorityOf rest) parts.host parts.port := by
  constructor
  · rintro ⟨hsecure, a, ha, htarget⟩
    have hslash := slash_not_mem_of_denotes ha
    rcases htarget with ⟨rfl, htarget⟩ | ⟨rfl, htarget⟩
    · have hauth := authorityOf_append (t := []) hslash (.inl rfl)
      rw [List.append_nil] at hauth
      refine ⟨hsecure, ?_, ?_⟩
      · rw [targetOf, if_neg hslash, htarget]
      · rwa [hauth]
    · have hauth := authorityOf_append hslash (.inr htarget)
      refine ⟨hsecure, ?_, ?_⟩
      · obtain ⟨t, ht⟩ := List.head?_eq_some_iff.1 htarget
        have hmem : (0x2F : UInt8) ∈ a ++ parts.target := by
          rw [ht]
          exact List.mem_append_right _ List.mem_cons_self
        rw [targetOf, if_pos hmem, hauth, List.drop_left]
      · rwa [hauth]
  · rintro ⟨hsecure, htarget, ha⟩
    refine ⟨hsecure, _, ha, ?_⟩
    rcases rest_cases rest with ⟨-, hauth, ht⟩ | ⟨a, t, -, hhead, hrest, hauth, ht⟩
    · exact .inl ⟨hauth.symm, htarget.trans ht⟩
    · right
      rw [hauth, htarget, ht]
      exact ⟨hrest, hhead⟩

/-- What the parser makes of an authority: with a `]` it is a host as it stands, and otherwise the
    last colon starts what `std::stoi` reads a port from. -/
def ParsesAuthority (secure : Bool) (a host : Bytes) (port : ℤ) : Prop :=
  a ≠ [] ∧ (0x5D ∈ a ∨ 0x3A ∉ a) ∧ host = a ∧ port = defaultPort secure ∨
    0x5D ∉ a ∧ ∃ text, a = host ++ 0x3A :: text ∧ 0x3A ∉ text ∧ ReadsInt text port

/-- The parser looks at the authority and at the target only. -/
theorem parseAuthority_eq (secure : Bool) (rest : Bytes) :
    parseAuthority secure rest =
      if authorityOf rest = [] then .error (ascii "url has no host")
      else
        match cutLast 0x3A (authorityOf rest) with
        | some (host, port) =>
          if 0x5D ∈ authorityOf rest then
            .ok ⟨secure, authorityOf rest, defaultPort secure, targetOf rest⟩
          else
            match stoi port with
            | some port => .ok ⟨secure, host, port, targetOf rest⟩
            | none => .error (ascii "invalid port")
        | none => .ok ⟨secure, authorityOf rest, defaultPort secure, targetOf rest⟩ := rfl

theorem parseAuthority_iff {secure : Bool} {rest : Bytes} {parts : UrlParts} :
    parseAuthority secure rest = .ok parts ↔ parts.secure = secure ∧
      parts.target = targetOf rest ∧
      ParsesAuthority secure (authorityOf rest) parts.host parts.port := by
  rw [parseAuthority_eq]
  generalize authorityOf rest = a
  generalize targetOf rest = t
  obtain ⟨secure', host', port', target'⟩ := parts
  dsimp only
  by_cases ha : a = []
  · rw [if_pos ha]
    refine iff_of_false (by simp) ?_
    rintro ⟨-, -, ⟨hne, -⟩ | ⟨-, text, hcolon, -⟩⟩
    · exact hne ha
    · rw [ha] at hcolon
      cases host' with
      | nil => cases hcolon
      | cons b host' => cases hcolon
  rw [if_neg ha]
  -- the part of the code that takes the authority as a host
  have hplain : (0x5D ∈ a ∨ 0x3A ∉ a) →
      ((Except.ok ⟨secure, a, defaultPort secure, t⟩ : Except Bytes UrlParts) =
          .ok ⟨secure', host', port', target'⟩ ↔
        secure' = secure ∧ target' = t ∧ ParsesAuthority secure a host' port') := by
    intro h
    constructor
    · rintro ⟨⟩
      exact ⟨rfl, rfl, .inl ⟨ha, h, rfl, rfl⟩⟩
    · rintro ⟨rfl, rfl, ⟨-, -, rfl, rfl⟩ | ⟨hbracket, text, rfl, -, -⟩⟩
      · rfl
      · rcases h with h | h
        · exact absurd h hbracket
        · exact absurd (List.mem_append_right _ List.mem_cons_self) h
  by_cases hcolon : (0x3A : UInt8) ∈ a
  · obtain ⟨host, text, rfl, htext⟩ := exists_last hcolon
    rw [cutLast_append htext]
    dsimp only
    by_cases hbracket : (0x5D : UInt8) ∈ host ++ 0x3A :: text
    · rw [if_pos hbracket]
      exact hplain (.inl hbracket)
    · rw [if_neg hbracket]
      cases hstoi : stoi text with
      | none =>
        refine iff_of_false (by simp) ?_
        rintro ⟨-, -, ⟨-, h | h, -⟩ | ⟨-, text', heq, htext', hreads⟩⟩
        · exact hbracket h
        · exact h hcolon
        · obtain ⟨rfl, rfl⟩ := last_unique htext htext' heq
          rw [stoi_of_readsInt hreads] at hstoi
          cases hstoi
      | some n =>
        constructor
        · rintro ⟨⟩
          exact ⟨rfl, rfl, .inr ⟨hbracket, text, rfl, htext, readsInt_of_stoi hstoi⟩⟩
        · rintro ⟨rfl, rfl, ⟨-, h | h, -⟩ | ⟨-, text', heq, htext', hreads⟩⟩
          · exact absurd h hbracket
          · exact absurd hcolon h
          · obtain ⟨rfl, rfl⟩ := last_unique htext htext' heq
            rw [stoi_of_readsInt hreads] at hstoi
            cases hstoi
            rfl
  · have hcut : cutLast 0x3A a = none := if_neg hcolon
    rw [hcut]
    exact hplain (.inr hcolon)

/-! ## Where the parser leaves the grammar -/

/-- An authority with a bracket and a colon that is no literal: the parser takes all of it as a
    host, with a port if there is one. -/
def PortIgnored (a : Bytes) : Prop := 0x5D ∈ a ∧ 0x3A ∈ a ∧ ¬ IsLiteral a

/-- A host or a port that is none, where `std::stoi` finds a number after the last colon. -/
def PortLax (a : Bytes) : Prop :=
  0x5D ∉ a ∧ ∃ host text, a = host ++ 0x3A :: text ∧ 0x3A ∉ text ∧ (∃ n, ReadsInt text n) ∧
    ¬ (IsName host ∧ ∃ n, IsPort text n)

theorem readsInt_of_isPort {text : Bytes} {port : ℤ} (h : IsPort text port) : ReadsInt text port := by
  obtain ⟨n, -, hmax, rfl, rfl⟩ := h
  exact readsInt_of_stoi (stoi_decNat (by omega))

/-- A literal does not end in a port. -/
theorem not_isLiteral_of_port {host text : Bytes} {port : ℤ} (h : IsPort text port) :
    ¬ IsLiteral (host ++ 0x3A :: text) := by
  intro hlit
  obtain ⟨hne, hdigits⟩ := isPort_chars h
  obtain ⟨-, -, hlast⟩ := isLiteral_chars hlit
  rw [List.getLast?_append_of_ne_nil _ (List.cons_ne_nil _ _),
    List.getLast?_cons_of_ne_nil hne] at hlast
  exact absurd (hdigits _ (List.mem_of_getLast? hlast)) (by decide)

variable {secure : Bool} {a : Bytes}

/-- Outside the two kinds the parser and the grammar agree on an authority. -/
theorem parses_iff_denotes (hslash : 0x2F ∉ a) (hignored : ¬ PortIgnored a) (hlax : ¬ PortLax a)
    (host : Bytes) (port : ℤ) :
    ParsesAuthority secure a host port ↔ DenotesAuthority secure a host port := by
  constructor
  · rintro (⟨hne, hplain, rfl, rfl⟩ | ⟨hbracket, text, rfl, htext, hreads⟩)
    · refine ⟨?_, .inl ⟨rfl, rfl⟩⟩
      by_cases hcolon : (0x3A : UInt8) ∈ host
      · right
        by_contra hlit
        exact hignored ⟨hplain.resolve_right (not_not.2 hcolon), hcolon, hlit⟩
      · exact .inl ⟨hne, hcolon, hslash⟩
    · have hgood : IsName host ∧ ∃ n, IsPort text n := by
        by_contra hbad
        exact hlax ⟨hbracket, host, text, rfl, htext, ⟨port, hreads⟩, hbad⟩
      obtain ⟨hname, n, hport⟩ := hgood
      have hn : stoi text = some n := stoi_of_readsInt (readsInt_of_isPort hport)
      rw [stoi_of_readsInt hreads] at hn
      cases hn
      exact ⟨.inl hname, .inr ⟨text, rfl, hport⟩⟩
  · rintro ⟨hhost, ⟨rfl, rfl⟩ | ⟨text, rfl, hport⟩⟩
    · rcases hhost with hname | hlit
      · exact .inl ⟨hname.1, .inr hname.2.1, rfl, rfl⟩
      · obtain ⟨hbracket, -, hlast⟩ := isLiteral_chars hlit
        exact .inl ⟨List.ne_nil_of_mem hbracket, .inl hbracket, rfl, rfl⟩
    · have hbracket : (0x5D : UInt8) ∉ host ++ 0x3A :: text := by
        intro hmem
        exact hignored ⟨hmem, List.mem_append_right _ List.mem_cons_self, not_isLiteral_of_port hport⟩
      refine .inr ⟨hbracket, text, rfl, ?_, readsInt_of_isPort hport⟩
      exact fun hmem => absurd ((isPort_chars hport).2 _ hmem) (by decide)

/-- In each of the two kinds they do not. -/
theorem kinds_of_parses_iff_denotes
    (h : ∀ host port, ParsesAuthority secure a host port ↔ DenotesAuthority secure a host port) :
    ¬ PortIgnored a ∧ ¬ PortLax a := by
  constructor
  · rintro ⟨hbracket, hcolon, hlit⟩
    have hparses : ParsesAuthority secure a a (defaultPort secure) :=
      .inl ⟨List.ne_nil_of_mem hbracket, .inl hbracket, rfl, rfl⟩
    rcases ((h _ _).1 hparses).1 with hname | hlit'
    · exact hname.2.1 hcolon
    · exact hlit hlit'
  · rintro ⟨hbracket, host, text, rfl, htext, ⟨n, hreads⟩, hbad⟩
    obtain ⟨hhost, ⟨heq, -⟩ | ⟨text', heq, hport⟩⟩ :=
      (h host n).1 (.inr ⟨hbracket, text, rfl, htext, hreads⟩)
    · exact absurd (congrArg List.length heq) (by simp)
    · have htexts := List.append_cancel_left heq
      cases htexts
      rcases hhost with hname | hlit
      · exact hbad ⟨hname, n, hport⟩
      · exact hbracket (List.mem_append_left _ (isLiteral_chars hlit).1)

theorem wsScheme_unique {scheme scheme' rest rest' : Bytes} {secure secure' : Bool}
    (h : WsScheme scheme secure) (h' : WsScheme scheme' secure')
    (heq : scheme ++ rest = scheme' ++ rest') : secure = secure' ∧ rest = rest' := by
  have hws : ascii "ws://" = [0x77, 0x73, 0x3A, 0x2F, 0x2F] := by decide
  have hwss : ascii "wss://" = [0x77, 0x73, 0x73, 0x3A, 0x2F, 0x2F] := by decide
  cases h with
  | ws =>
    cases h' with
    | ws => exact ⟨rfl, List.append_cancel_left heq⟩
    | wss =>
      rw [hws, hwss] at heq
      cases heq
  | wss =>
    cases h' with
    | ws =>
      rw [hws, hwss] at heq
      cases heq
    | wss => exact ⟨rfl, List.append_cancel_left heq⟩

theorem parseWsUrl_append {scheme rest : Bytes} {secure : Bool} (h : WsScheme scheme secure) :
    parseWsUrl (scheme ++ rest) = parseAuthority secure rest := by
  cases h with
  | ws => rfl
  | wss => rfl

theorem parseWsUrl_eq_ok {url : Bytes} {parts : UrlParts} :
    parseWsUrl url = .ok parts ↔ ∃ scheme secure rest, WsScheme scheme secure ∧
      url = scheme ++ rest ∧ parseAuthority secure rest = .ok parts := by
  constructor
  · intro h
    have hok := h
    unfold parseWsUrl at h
    split at h
    · rename_i hstart
      obtain ⟨rest, rfl⟩ := List.isPrefixOf_iff_prefix.1 hstart
      exact ⟨_, _, rest, .wss, rfl, (parseWsUrl_append .wss).symm.trans hok⟩
    split at h
    · rename_i hstart
      obtain ⟨rest, rfl⟩ := List.isPrefixOf_iff_prefix.1 hstart
      exact ⟨_, _, rest, .ws, rfl, (parseWsUrl_append .ws).symm.trans hok⟩
    · cases h
  · rintro ⟨scheme, secure, rest, hscheme, rfl, h⟩
    exact (parseWsUrl_append hscheme).trans h

theorem denotes_append {scheme rest : Bytes} {secure : Bool} {parts : UrlParts}
    (h : WsScheme scheme secure) :
    Denotes (scheme ++ rest) parts ↔ DenotesRest secure rest parts := by
  constructor
  · rintro ⟨scheme', secure', rest', hscheme', heq, hrest⟩
    obtain ⟨rfl, rfl⟩ := wsScheme_unique h hscheme' heq
    exact hrest
  · exact fun hrest => ⟨scheme, secure, rest, h, rfl, hrest⟩

/-- The authority of a URL of one of the two schemes. -/
def UrlAuthority (url a : Bytes) : Prop :=
  ∃ scheme secure rest, WsScheme scheme secure ∧ url = scheme ++ rest ∧ a = authorityOf rest

/-- **The parser accepts what the grammar denotes, and gives its parts**, exactly for the URLs whose
    authority has no port that is ignored or read laxly. -/
theorem parseWsUrl_exact_iff (url : Bytes) :
    (∀ parts, parseWsUrl url = .ok parts ↔ Denotes url parts) ↔
      ∀ a, UrlAuthority url a → ¬ PortIgnored a ∧ ¬ PortLax a := by
  constructor
  · rintro h _ ⟨scheme, secure, rest, hscheme, rfl, rfl⟩
    have hsame : ∀ host port, ParsesAuthority secure (authorityOf rest) host port ↔
        DenotesAuthority secure (authorityOf rest) host port := by
      intro host port
      have hparts := h ⟨secure, host, port, targetOf rest⟩
      rw [parseWsUrl_append hscheme, denotes_append hscheme, parseAuthority_iff,
        denotesRest_iff] at hparts
      simpa only [true_and] using hparts
    exact kinds_of_parses_iff_denotes hsame
  · intro h parts
    rw [parseWsUrl_eq_ok]
    refine exists_congr fun scheme => exists_congr fun secure => exists_congr fun rest =>
      and_congr_right fun hscheme => and_congr_right fun hurl => ?_
    obtain ⟨hignored, hlax⟩ := h _ ⟨scheme, secure, rest, hscheme, hurl, rfl⟩
    rw [parseAuthority_iff, denotesRest_iff,
      parses_iff_denotes (slash_not_mem_authorityOf rest) hignored hlax]

/-- **The port of a bracketed host is ignored**, and a port may have anything after its digits. -/
theorem port_ignored :
    (parseWsUrl (ascii "ws://[::1]:8080/asr") = .ok ⟨false, ascii "[::1]:8080", 80, ascii "/asr"⟩ ∧
        Denotes (ascii "ws://[::1]:8080/asr") ⟨false, ascii "[::1]", 8080, ascii "/asr"⟩) ∧
      parseWsUrl (ascii "ws://h:80x") = .ok ⟨false, ascii "h", 80, [0x2F]⟩ ∧
        ¬ Denotes (ascii "ws://h:80x") ⟨false, ascii "h", 80, [0x2F]⟩ := by
  refine ⟨⟨by decide, ?_⟩, by decide, ?_⟩
  · refine ⟨_, false, ascii "[::1]:8080/asr", .ws, by decide, rfl, ascii "[::1]:8080", ⟨?_, ?_⟩, ?_⟩
    · refine .inr ⟨ascii "::1", .inr ⟨1, [], [ascii "1"], by simp, ?_, by decide, by decide⟩, by decide⟩
      exact .h16 ⟨by decide, by decide, forall_mem_of_all (by decide)⟩ .nil
    · exact .inr ⟨ascii "8080", by decide, 8080, by decide, by decide, by decide, rfl⟩
    · exact .inr ⟨by decide, by decide⟩
  · have hurl : ascii "ws://h:80x" = ascii "ws://" ++ ascii "h:80x" := by decide
    rw [hurl, denotes_append .ws, denotesRest_iff]
    rintro ⟨-, -, -, ⟨heq, -⟩ | ⟨text, heq, n, -, -, rfl, hn⟩⟩
    · exact absurd heq (by decide)
    · cases hn
      exact absurd heq (by decide)

end TrtcAsr
