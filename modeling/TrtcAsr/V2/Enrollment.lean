/-
  The enrollment input of a session (params.cc and v3.cc, `ValidateSpeakerDiarization`), and the
  URLs in it that v2 looks into.

  * `AbsoluteHttp`: an absolute http or https URL with a host, schemes taken as Go takes them;
  * `accepts_absolute_iff`: v2 accepts exactly these, but for the two kinds `CapitalScheme` and
    `Hostless`;
  * `clients_agree_iff`: the two clients say the same unless a URL with the right prefix has no
    authority, or has spaces or control characters.
-/
import TrtcAsr.V2.Requests
import TrtcAsr.V3.AudioUrls

namespace TrtcAsr.V2

open TrtcAsr.V3 (SpeakerRole Validates validates_if validates_rejectIf HasHttpPrefix isHttpUrl_iff
  kSpeakerDiarizationOff kSpeakerDiarizationVoiceprint)

/-! ## The parts of a URL -/

/-- No control character and no space. -/
def Clean (url : Bytes) : Prop := ∀ c ∈ url, 0x20 < c ∧ c ≠ 0x7F

/-- `scheme "://" rest`. -/
def joinScheme (scheme rest : Bytes) : Bytes := scheme ++ (ascii "://" ++ rest)

/-- What follows `://`, up to the first of `/`, `?` and `#`. -/
def authority (rest : Bytes) : Bytes := rest.takeWhile fun c => !(ascii "/?#").contains c

/-- An authority without its user-info, which ends at the last `@`. -/
def hostPort (authority : Bytes) : Bytes := (authority.reverse.takeWhile (· ≠ 0x40)).reverse

/-- An authority without its user-info and its port: an IP literal in brackets, or a name, which
    has no colon. -/
def host (authority : Bytes) : Bytes :=
  let hostPort := hostPort authority
  if (ascii "[").isPrefixOf hostPort then
    hostPort.takeWhile (· ≠ 0x5D) ++ (hostPort.dropWhile (· ≠ 0x5D)).take 1
  else hostPort.takeWhile (· ≠ 0x3A)

/-- The scheme is `http` or `https`, in upper or lower case. -/
def IsHttpScheme (scheme : Bytes) : Prop :=
  scheme.map toLower = ascii "http" ∨ scheme.map toLower = ascii "https"

def LowerScheme (scheme : Bytes) : Prop := scheme = ascii "http" ∨ scheme = ascii "https"

theorem LowerScheme.isHttpScheme {scheme : Bytes} (h : LowerScheme scheme) : IsHttpScheme scheme := by
  rcases h with rfl | rfl
  · exact .inl (by decide)
  · exact .inr (by decide)

theorem authority_of_host {authority : Bytes} (h : host authority ≠ []) : authority ≠ [] := by
  rintro rfl
  exact h rfl

/-- A scheme of letters has no colon. -/
theorem colon_not_mem {scheme : Bytes} (h : IsHttpScheme scheme) : (0x3A : UInt8) ∉ scheme := by
  intro hmem
  have hlow : (0x3A : UInt8) ∈ scheme.map toLower := List.mem_map.2 ⟨0x3A, hmem, by decide⟩
  rcases h with h | h
  · rw [h] at hlow
    exact absurd hlow (by decide)
  · rw [h] at hlow
    exact absurd hlow (by decide)

theorem separator_eq : ascii "://" = [0x3A, 0x2F, 0x2F] := by decide

theorem cutScheme_eq_some {url scheme rest : Bytes} (h : cutScheme url = some (scheme, rest)) :
    url = joinScheme scheme rest := by
  induction url generalizing scheme with
  | nil => cases h
  | cons c url ih =>
    rw [cutScheme] at h
    split at h
    · rename_i hstart
      cases h
      obtain ⟨rest, hrest⟩ := List.isPrefixOf_iff_prefix.1 hstart
      rw [separator_eq, List.cons_append] at hrest
      cases hrest
      rfl
    · cases hcut : cutScheme url with
      | none => rw [hcut] at h; cases h
      | some p =>
        rw [hcut] at h
        cases h
        rw [ih hcut]
        rfl

theorem cutScheme_joinScheme {scheme rest : Bytes} (h : (0x3A : UInt8) ∉ scheme) :
    cutScheme (joinScheme scheme rest) = some (scheme, rest) := by
  induction scheme with
  | nil => rfl
  | cons c scheme ih =>
    rw [List.mem_cons, not_or] at h
    obtain ⟨hc, hscheme⟩ := h
    have hstart : ¬ (ascii "://").isPrefixOf (c :: joinScheme scheme rest) := by
      intro hpre
      rw [separator_eq, List.isPrefixOf_iff_prefix, List.cons_prefix_cons] at hpre
      exact hc hpre.1
    show cutScheme (c :: joinScheme scheme rest) = _
    rw [cutScheme, if_neg hstart, ih hscheme]
    rfl

/-- A URL has at most one http scheme. -/
theorem joinScheme_inj {scheme scheme' rest rest' : Bytes} (h : IsHttpScheme scheme)
    (h' : IsHttpScheme scheme') (heq : joinScheme scheme rest = joinScheme scheme' rest') :
    scheme = scheme' ∧ rest = rest' := by
  have hcut : cutScheme (joinScheme scheme rest) = some (scheme, rest) :=
    cutScheme_joinScheme (colon_not_mem h)
  rw [heq, cutScheme_joinScheme (colon_not_mem h')] at hcut
  cases hcut
  exact ⟨rfl, rfl⟩

/-! ## What v2 accepts as a URL -/

/-- An http or https scheme in lower case, and an authority. -/
def HasAuthority (url : Bytes) : Prop :=
  ∃ scheme rest, url = joinScheme scheme rest ∧ LowerScheme scheme ∧ authority rest ≠ []

theorem clean_iff (url : Bytes) :
    Clean url ↔ ¬ (url.any fun c => c < 0x20 || c = 0x7F) ∧ ¬ url.contains 0x20 := by
  rw [List.any_eq_true, List.contains_iff_mem]
  constructor
  · intro h
    refine ⟨?_, fun hmem => absurd (h _ hmem).1 (by simp)⟩
    rintro ⟨c, hc, hbad⟩
    rw [Bool.or_eq_true, decide_eq_true_eq, decide_eq_true_eq] at hbad
    rcases hbad with hlt | heq
    · exact lt_asymm (h c hc).1 hlt
    · exact (h c hc).2 heq
  · rintro ⟨hany, hspace⟩ c hc
    have hbad : ¬ (c < 0x20 ∨ c = 0x7F) := by
      intro hbad
      exact hany ⟨c, hc, by simpa using hbad⟩
    rw [not_or, not_lt] at hbad
    exact ⟨lt_of_le_of_ne hbad.1 fun h => hspace (h ▸ hc), hbad.2⟩

/-- A URL with a scheme is not all white space. -/
theorem not_blank {url : Bytes} (h : HasAuthority url) :
    ¬ url.all (ascii " \t\r\n").contains := by
  obtain ⟨scheme, rest, rfl, -, -⟩ := h
  intro hall
  have hcolon : (0x3A : UInt8) ∈ joinScheme scheme rest :=
    List.mem_append_right _ (List.mem_append_left _ (by decide))
  exact absurd (List.all_eq_true.1 hall _ hcolon) (by decide)

theorem validates_invalidParam {p : Prop} {message : Bytes} (h : ¬ p) :
    Validates (invalidParam message) p := by
  refine ⟨iff_of_false nofun h, ?_⟩
  rintro _ ⟨⟩
  rfl

theorem validateEnrollmentURL_decides (index : ℕ) (url : Bytes) :
    Validates (validateEnrollmentURL index url) (Clean url ∧ HasAuthority url) := by
  unfold validateEnrollmentURL
  dsimp only
  refine (validates_if (validates_if (validates_if (q := HasAuthority url) ?_))).congr ?_
  · split
    · rename_i hcut
      refine validates_invalidParam ?_
      rintro ⟨scheme, rest, rfl, hscheme, -⟩
      rw [cutScheme_joinScheme (colon_not_mem hscheme.isHttpScheme)] at hcut
      cases hcut
    · rename_i scheme rest hcut
      refine (validates_if (validates_if (validates_if .ok))).congr ?_
      constructor
      · rintro ⟨-, hscheme, hrest, -⟩
        refine ⟨scheme, rest, cutScheme_eq_some hcut, ?_, hrest⟩
        rw [not_and_or, not_not, not_not] at hscheme
        exact hscheme
      · rintro ⟨scheme', rest', rfl, hscheme, hrest⟩
        rw [cutScheme_joinScheme (colon_not_mem hscheme.isHttpScheme)] at hcut
        cases hcut
        refine ⟨?_, not_and_or.2 (hscheme.imp not_not.2 not_not.2), hrest, trivial⟩
        rcases hscheme with rfl | rfl
        · decide
        · decide
  · rw [clean_iff]
    constructor
    · rintro ⟨-, hcontrol, hspace, hparts⟩
      exact ⟨⟨hcontrol, hspace⟩, hparts⟩
    · rintro ⟨⟨hcontrol, hspace⟩, hparts⟩
      exact ⟨not_blank hparts, hcontrol, hspace, hparts⟩

/-! ## Absolute URLs -/

/-- An absolute http or https URL that names a host; schemes are compared as Go does. -/
structure AbsoluteHttp (url : Bytes) : Prop where
  clean : Clean url
  parts : ∃ scheme rest, url = joinScheme scheme rest ∧ IsHttpScheme scheme ∧
    host (authority rest) ≠ []

/-- A URL with a host whose scheme is not all in lower case. -/
def CapitalScheme (url : Bytes) : Prop :=
  ∃ scheme rest, url = joinScheme scheme rest ∧ IsHttpScheme scheme ∧ ¬ LowerScheme scheme ∧
    host (authority rest) ≠ []

/-- A URL whose authority is user-info or a port, or both, and no host. -/
def Hostless (url : Bytes) : Prop :=
  ∃ scheme rest, url = joinScheme scheme rest ∧ LowerScheme scheme ∧ authority rest ≠ [] ∧
    host (authority rest) = []

/-- **What v2 accepts as an enrollment URL** is an absolute http(s) URL with a host, exactly if the
    scheme is not written with capitals and the authority is not without its host. -/
theorem accepts_absolute_iff (index : ℕ) (url : Bytes) :
    (validateEnrollmentURL index url = .ok () ↔ AbsoluteHttp url) ↔
      (Clean url → ¬ CapitalScheme url ∧ ¬ Hostless url) := by
  rw [(validateEnrollmentURL_decides index url).ok_iff]
  constructor
  · intro h hclean
    constructor
    · rintro ⟨scheme, rest, rfl, hscheme, hlow, hhost⟩
      obtain ⟨-, scheme', rest', heq, hlow', -⟩ := h.2 ⟨hclean, scheme, rest, rfl, hscheme, hhost⟩
      obtain ⟨rfl, -⟩ := joinScheme_inj hscheme hlow'.isHttpScheme heq
      exact hlow hlow'
    · rintro ⟨scheme, rest, rfl, hlow, hauth, hhost⟩
      obtain ⟨scheme', rest', heq, hscheme', hhost'⟩ :=
        (h.1 ⟨hclean, scheme, rest, rfl, hlow, hauth⟩).parts
      obtain ⟨-, rfl⟩ := joinScheme_inj hlow.isHttpScheme hscheme' heq
      exact hhost' hhost
  · intro h
    constructor
    · rintro ⟨hclean, scheme, rest, rfl, hlow, hauth⟩
      refine ⟨hclean, scheme, rest, rfl, hlow.isHttpScheme, fun hhost => ?_⟩
      exact (h hclean).2 ⟨scheme, rest, rfl, hlow, hauth, hhost⟩
    · rintro ⟨hclean, scheme, rest, rfl, hscheme, hhost⟩
      refine ⟨hclean, scheme, rest, rfl, ?_, authority_of_host hhost⟩
      by_contra hlow
      exact (h hclean).1 ⟨scheme, rest, rfl, hscheme, hlow, hhost⟩

/-- **A scheme in capitals is refused, and a port without a host passes.** -/
theorem capital_scheme_refused :
    (validateEnrollmentURL 0 (ascii "HTTP://h/a.wav") ≠ .ok () ∧
        AbsoluteHttp (ascii "HTTP://h/a.wav")) ∧
      validateEnrollmentURL 0 (ascii "http://:80/a.wav") = .ok () ∧
        ¬ AbsoluteHttp (ascii "http://:80/a.wav") := by
  refine ⟨⟨by decide, ⟨forall_mem_of_all (by decide), ?_⟩⟩, by decide, ?_⟩
  · exact ⟨ascii "HTTP", ascii "h/a.wav", by decide, .inl (by decide), by decide⟩
  · rintro ⟨-, scheme, rest, heq, hscheme, hhost⟩
    have hurl : ascii "http://:80/a.wav" = joinScheme (ascii "http") (ascii ":80/a.wav") := by decide
    obtain ⟨-, rfl⟩ := joinScheme_inj hscheme (.inl (by decide)) (heq.symm.trans hurl)
    exact hhost (by decide)

/-! ## The two clients -/

/-- What both clients ask of the input, whatever they make of a URL. -/
structure Enrollment (mode speakerNumber : ℤ) (roles : List SpeakerRole)
    (voiceprintIds : List Bytes) : Prop where
  known : mode = 0 ∨ mode = 1 ∨ mode = 3
  nonneg : 0 ≤ speakerNumber
  voiceprint : roles ≠ [] ∨ voiceprintIds ≠ [] → mode = 3
  named : ∀ role ∈ roles, role.roleName ≠ []
  ids : ∀ id ∈ voiceprintIds, id ≠ []

theorem validateVoiceprintIds_decides (i : ℕ) (ids : List Bytes) :
    Validates (V3.validateVoiceprintIds i ids) (∀ id ∈ ids, id ≠ []) := by
  induction ids generalizing i with
  | nil => exact Decides.ok.congr (iff_of_true trivial (by simp))
  | cons id ids ih =>
    unfold V3.validateVoiceprintIds
    refine (validates_if (ih (i + 1))).congr ?_
    rw [List.forall_mem_cons]

/-- A check of every role, of its name and then of its URL. -/
theorem roles_congr {p : Bytes → Prop} {role : SpeakerRole} {roles : List SpeakerRole} :
    (¬ role.roleName = [] ∧ p role.audioUrl ∧ (∀ role ∈ roles, role.roleName ≠ []) ∧
        ∀ role ∈ roles, p role.audioUrl) ↔
      (∀ role' ∈ role :: roles, role'.roleName ≠ []) ∧
        ∀ role' ∈ role :: roles, p role'.audioUrl := by
  rw [List.forall_mem_cons, List.forall_mem_cons]
  constructor
  · rintro ⟨hname, hurl, hnames, hurls⟩
    exact ⟨⟨hname, hnames⟩, hurl, hurls⟩
  · rintro ⟨⟨hname, hnames⟩, hurl, hurls⟩
    exact ⟨hname, hurl, hnames, hurls⟩

theorem validateRoles_decides (i : ℕ) (roles : List SpeakerRole) :
    Validates (validateRoles i roles) ((∀ role ∈ roles, role.roleName ≠ []) ∧
      ∀ role ∈ roles, Clean role.audioUrl ∧ HasAuthority role.audioUrl) := by
  induction roles generalizing i with
  | nil => exact Decides.ok.congr (iff_of_true trivial ⟨by simp, by simp⟩)
  | cons role roles ih =>
    unfold validateRoles
    have hurl := validateEnrollmentURL_decides i role.audioUrl
    exact (validates_if (hurl.bind (ih (i + 1)))).congr
      (roles_congr (p := fun url => Clean url ∧ HasAuthority url))

theorem validateRoles_decides_v3 (i : ℕ) (roles : List SpeakerRole) :
    Validates (V3.validateRoles i roles) ((∀ role ∈ roles, role.roleName ≠ []) ∧
      ∀ role ∈ roles, HasHttpPrefix role.audioUrl) := by
  induction roles generalizing i with
  | nil => exact Decides.ok.congr (iff_of_true trivial ⟨by simp, by simp⟩)
  | cons role roles ih =>
    unfold V3.validateRoles
    refine (validates_if (validates_if (ih (i + 1)))).congr ?_
    rw [not_not, isHttpUrl_iff]
    exact roles_congr (p := HasHttpPrefix)

/-- The checks of the two clients have one shape. -/
theorem decides_enrollment {mode speakerNumber : ℤ} {roles : List SpeakerRole}
    {voiceprintIds : List Bytes} {m₁ m₂ m₃ : Bytes} {p : Bytes → Prop}
    {checkRoles : Except ASRError Unit}
    (h : Validates checkRoles ((∀ role ∈ roles, role.roleName ≠ []) ∧
      ∀ role ∈ roles, p role.audioUrl)) :
    Validates (do
      rejectIf (mode ≠ 0 ∧ mode ≠ 1 ∧ mode ≠ 3) m₁
      rejectIf (speakerNumber < 0) m₂
      rejectIf (mode ≠ 3 ∧ (roles ≠ [] ∨ voiceprintIds ≠ [])) m₃
      checkRoles
      V3.validateVoiceprintIds 0 voiceprintIds)
      (Enrollment mode speakerNumber roles voiceprintIds ∧ ∀ role ∈ roles, p role.audioUrl) := by
  refine ((validates_rejectIf _ m₁).bind ((validates_rejectIf _ m₂).bind
    ((validates_rejectIf _ m₃).bind (h.bind (validateVoiceprintIds_decides 0 _))))).congr ?_
  constructor
  · rintro ⟨hmode, hnumber, hvoice, ⟨hnamed, hurls⟩, hids⟩
    refine ⟨⟨by omega, not_lt.1 hnumber, fun hsome => ?_, hnamed, hids⟩, hurls⟩
    by_contra hne
    exact hvoice ⟨hne, hsome⟩
  · rintro ⟨⟨hmode, hnumber, hvoice, hnamed, hids⟩, hurls⟩
    exact ⟨by omega, not_lt.2 hnumber, fun hbad => hbad.1 (hvoice hbad.2), ⟨hnamed, hurls⟩, hids⟩

theorem hasHttpPrefix_iff (url : Bytes) :
    HasHttpPrefix url ↔ ∃ scheme rest, url = joinScheme scheme rest ∧ LowerScheme scheme := by
  have hhttp : ascii "http://" = ascii "http" ++ ascii "://" := by decide
  have hhttps : ascii "https://" = ascii "https" ++ ascii "://" := by decide
  rw [HasHttpPrefix, hhttp, hhttps]
  constructor
  · rintro (⟨rest, rfl⟩ | ⟨rest, rfl⟩)
    · exact ⟨_, rest, List.append_assoc _ _ _, .inl rfl⟩
    · exact ⟨_, rest, List.append_assoc _ _ _, .inr rfl⟩
  · rintro ⟨scheme, rest, rfl, rfl | rfl⟩
    · exact .inl ⟨rest, List.append_assoc _ _ _⟩
    · exact .inr ⟨rest, List.append_assoc _ _ _⟩

/-- A URL that only v3 lets through: it has the prefix, and then no authority, or a space or a
    control character somewhere. -/
def OnlyPrefix (url : Bytes) : Prop :=
  ∃ scheme rest, url = joinScheme scheme rest ∧ LowerScheme scheme ∧
    (¬ Clean url ∨ authority rest = [])

theorem onlyPrefix_iff {url : Bytes} (h : HasHttpPrefix url) :
    ¬ OnlyPrefix url ↔ Clean url ∧ HasAuthority url := by
  obtain ⟨scheme, rest, rfl, hlow⟩ := (hasHttpPrefix_iff url).1 h
  constructor
  · intro hnot
    have hboth : ¬ (¬ Clean (joinScheme scheme rest) ∨ authority rest = []) :=
      fun hbad => hnot ⟨scheme, rest, rfl, hlow, hbad⟩
    rw [not_or, not_not] at hboth
    exact ⟨hboth.1, scheme, rest, rfl, hlow, hboth.2⟩
  · rintro ⟨hclean, scheme', rest', heq', hlow', hauth⟩ ⟨scheme'', rest'', heq, hlow'', hbad⟩
    obtain ⟨-, rfl⟩ := joinScheme_inj hlow'.isHttpScheme hlow''.isHttpScheme (heq'.symm.trans heq)
    rcases hbad with hbad | hbad
    · exact hbad hclean
    · exact hauth hbad

/-- Both accept, or both throw `kErrInvalidParam`. -/
def Agree (x y : Except ASRError Unit) : Prop :=
  (x = .ok () ∧ y = .ok ()) ∨ ((∃ err, x = .error err ∧ err.code = kErrInvalidParam) ∧
    ∃ err, y = .error err ∧ err.code = kErrInvalidParam)

/-- **The two clients agree on an enrollment input** exactly if it is refused for something else
    than its URLs, or has a URL without the prefix, or has none that only v3 lets through. -/
theorem clients_agree_iff (mode speakerNumber : ℤ) (roles : List SpeakerRole)
    (voiceprintIds : List Bytes) :
    Agree (validateSpeakerDiarization mode speakerNumber roles voiceprintIds)
        (V3.validateSpeakerDiarization mode speakerNumber roles voiceprintIds) ↔
      ¬ Enrollment mode speakerNumber roles voiceprintIds ∨
        (∃ role ∈ roles, ¬ HasHttpPrefix role.audioUrl) ∨
        ∀ role ∈ roles, ¬ OnlyPrefix role.audioUrl := by
  have hv2 : Validates (validateSpeakerDiarization mode speakerNumber roles voiceprintIds)
      (Enrollment mode speakerNumber roles voiceprintIds ∧
        ∀ role ∈ roles, Clean role.audioUrl ∧ HasAuthority role.audioUrl) :=
    decides_enrollment (p := fun url => Clean url ∧ HasAuthority url) (validateRoles_decides 0 roles)
  have hv3 : Validates (V3.validateSpeakerDiarization mode speakerNumber roles voiceprintIds)
      (Enrollment mode speakerNumber roles voiceprintIds ∧
        ∀ role ∈ roles, HasHttpPrefix role.audioUrl) :=
    decides_enrollment (p := HasHttpPrefix) (validateRoles_decides_v3 0 roles)
  have hstart : ∀ url, Clean url ∧ HasAuthority url → HasHttpPrefix url := by
    rintro url ⟨-, scheme, rest, rfl, hlow, -⟩
    exact (hasHttpPrefix_iff _).2 ⟨scheme, rest, rfl, hlow⟩
  rw [Agree, hv2.agree_iff hv3]
  constructor
  · intro hagree
    by_contra hbad
    push Not at hbad
    obtain ⟨henroll, hall, role, hrole, honly⟩ := hbad
    have hurl := (hagree.2 ⟨henroll, hall⟩).2 role hrole
    exact (onlyPrefix_iff (hall role hrole)).2 hurl honly
  · rintro (hno | ⟨role, hrole, hno⟩ | hgood)
    · exact iff_of_false (fun h => hno h.1) fun h => hno h.1
    · exact iff_of_false (fun h => hno (hstart _ (h.2 role hrole))) fun h => hno (h.2 role hrole)
    · refine and_congr_right fun _ => forall₂_congr fun role hrole => ⟨hstart _, fun h => ?_⟩
      exact (onlyPrefix_iff h).1 (hgood role hrole)

/-- **A URL without a host** is refused by v2 and let through by v3. -/
theorem bare_scheme_disagrees :
    ¬ Agree (validateSpeakerDiarization 3 0 [⟨ascii "teacher", ascii "https:///a.wav"⟩] [])
        (V3.validateSpeakerDiarization 3 0 [⟨ascii "teacher", ascii "https:///a.wav"⟩] []) := by
  have hv3 : V3.validateSpeakerDiarization 3 0 [⟨ascii "teacher", ascii "https:///a.wav"⟩] [] =
      .ok () := by decide
  rw [Agree, hv3]
  rintro (⟨hv2, -⟩ | ⟨-, err, herr, -⟩)
  · exact absurd hv2 (by decide)
  · cases herr

end TrtcAsr.V2
