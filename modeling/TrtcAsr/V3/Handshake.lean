/-
  The identity of a v3 session in its handshake (v3.cc, `Connect`; ws_client.cc).

  The upgrade request should be one request head with the five fields of the client, whose
  target asks for `/asr/v3` with the one parameter `voice_id`; the start frame should carry
  the same id, and the UserSig should sign it.

  * `handshake_identifies_iff`: this is so exactly when every character of the id that was
    set stands for itself in a query.
  * `space_in_voice_id`: an accepted id whose request is not a request head.
-/
import TrtcAsr.Lib.UrlQuery
import TrtcAsr.V3.SpeechOptions

namespace TrtcAsr.V3.SpeechOptions

/-- The request is one head with the fields of the client; the target, the start frame and the
    UserSig (unless the credential has a fixed one) agree on the id of the session. -/
def Handshake.Identifies (hs : Handshake) (deps : Deps) (credential : Credential) (now : ℤ) :
    Prop :=
  ∃ target voiceId userSig,
    RequestHead.parse hs.request = some
      { method := ascii "GET", target := target, version := ascii "HTTP/1.1"
        fields := upgradeFields hs.parts (base64Encode hs.nonce.toList) } ∧
    originForm target ∧ pathOf target = ascii "/asr/v3" ∧
    (queryOf target).bind parseQuery = some [(ascii "voice_id", voiceId)] ∧
    (hs.frame.member "params").bind (·.member "voice_id") = some (.str voiceId) ∧
    (hs.frame.member "auth").bind (·.member "usersig") = some (.str userSig) ∧
    (credential.userSig = [] → genUserSig deps.compress2 credential.sdkAppId credential.secretKey
      voiceId 86400 now = .ok userSig)

/-- A character that stands for itself in the query of a target. -/
def StandsForItself (b : UInt8) : Prop := isQueryChar b ∧ ¬ isQuerySpecial b

instance (b : UInt8) : Decidable (StandsForItself b) := by
  unfold StandsForItself isQuerySpecial; infer_instance

/-! ## What the client puts into the handshake -/

theorem lookup_voiceId (o : SpeechOptions) (voiceId : Bytes) :
    List.lookup "voice_id" (o.params voiceId) = some (.str voiceId) := by
  simp [params]

theorem startFrame_voiceId (o : SpeechOptions) (voiceId userSig : Bytes) :
    ((o.startFrame voiceId userSig).member "params").bind (·.member "voice_id") =
      some (.str voiceId) := by
  simp [startFrame, Json.member, lookup_voiceId]

theorem startFrame_userSig (o : SpeechOptions) (voiceId userSig : Bytes) :
    ((o.startFrame voiceId userSig).member "auth").bind (·.member "usersig") =
      some (.str userSig) := by
  simp [startFrame, Json.member]

/-- What is known of a dial that gets as far as its upgrade request. -/
theorem handshake_ok {deps : Deps} {o : SpeechOptions} {uuid nonce : Vector UInt8 16} {now : ℤ}
    {hs : Handshake} (h : handshake deps o uuid now nonce = .ok hs) :
    ∃ userSig base,
      resolveUserSig deps o.credential (o.sessionId uuid) now = .ok userSig ∧
      hs.frame = o.startFrame (o.sessionId uuid) userSig ∧
      resolveWSEndpoint o.endpoint o.credential.site = .ok base ∧
      parseWsUrl (base ++ (ascii "/asr/v3?voice_id=" ++ o.sessionId uuid)) = .ok hs.parts := by
  obtain ⟨prepared, hprep, h⟩ := bind_eq_ok.1 h
  obtain ⟨parts, hparts, h⟩ := bind_eq_ok.1 h
  cases h
  obtain ⟨userSig, hsig, h⟩ := bind_eq_ok.1 hprep
  obtain ⟨text, -, h⟩ := bind_eq_ok.1 h
  obtain ⟨-, -, h⟩ := bind_eq_ok.1 h
  obtain ⟨base, hbase, h⟩ := bind_eq_ok.1 h
  cases h
  exact ⟨userSig, base, mapError_eq_ok.1 hsig, rfl, mapError_eq_ok.1 hbase,
    mapError_eq_ok.1 hparts⟩

/-- A UserSig that is not fixed signs the id. -/
theorem signs_of_resolveUserSig {deps : Deps} {credential : Credential} {id userSig : Bytes}
    {now : ℤ} (h : resolveUserSig deps credential id now = .ok userSig)
    (hfixed : credential.userSig = []) :
    genUserSig deps.compress2 credential.sdkAppId credential.secretKey id 86400 now =
      .ok userSig := by
  unfold resolveUserSig at h
  rw [if_neg (not_not.2 hfixed)] at h
  split at h
  · rename_i sig hsig
    cases h
    exact hsig
  · cases h

/-! ## Generated ids -/

theorem standsForItself_hexByte (b : UInt8) : ∀ c ∈ hexByte b, StandsForItself c := by
  have hall : ∀ b, (hexByte b).all fun c => decide (StandsForItself c) :=
    forall_byte (by decide +kernel)
  exact forall_mem_of_all (hall b)

/-- A generated id has hexadecimal digits and dashes only. -/
theorem standsForItself_generateUuid (uuid : Vector UInt8 16) :
    ∀ b ∈ generateUuid uuid, StandsForItself b := by
  have hdash : ∀ b ∈ ascii "-", StandsForItself b := forall_mem_of_all (by decide)
  have hhex : ∀ (l : List UInt8), ∀ b ∈ l.flatMap hexByte, StandsForItself b := by
    intro l b hb
    obtain ⟨x, -, hx⟩ := List.mem_flatMap.1 hb
    exact standsForItself_hexByte x b hx
  have happ : ∀ s t : Bytes, (∀ b ∈ s, StandsForItself b) → (∀ b ∈ t, StandsForItself b) →
      ∀ b ∈ s ++ t, StandsForItself b := by
    intro s t hs ht b hb
    exact (List.mem_append.1 hb).elim (hs b) (ht b)
  unfold generateUuid
  refine happ _ _ (happ _ _ (happ _ _ (happ _ _ (happ _ _ (happ _ _ (happ _ _ (happ _ _ ?_ hdash)
    ?_) hdash) ?_) hdash) ?_) hdash) ?_
  · exact hhex _
  · exact hhex _
  · exact hhex _
  · exact hhex _
  · exact hhex _

theorem sessionId_stands_iff (o : SpeechOptions) (uuid : Vector UInt8 16) :
    (∀ b ∈ o.sessionId uuid, StandsForItself b) ↔ ∀ b ∈ o.voiceId, StandsForItself b := by
  unfold sessionId
  by_cases h : o.voiceId = []
  · rw [if_pos h, h]
    exact ⟨fun _ => by simp, fun _ => standsForItself_generateUuid uuid⟩
  · rw [if_neg h]

/-! ## The identity -/

/-- The target of the request, as path and query. -/
def targetOf (voiceId : Bytes) : Bytes :=
  ascii "/asr/v3" ++ 0x3F :: (ascii "voice_id" ++ 0x3D :: voiceId)

theorem targetOf_eq (voiceId : Bytes) :
    ascii "/asr/v3?voice_id=" ++ voiceId = targetOf voiceId := by
  rw [targetOf, show ascii "/asr/v3?voice_id=" =
    ascii "/asr/v3" ++ 0x3F :: (ascii "voice_id" ++ [0x3D]) by decide]
  simp

theorem originForm_targetOf (voiceId : Bytes) (h : (0x25 : UInt8) ∉ voiceId) :
    originForm (targetOf voiceId) ↔ ∀ b ∈ voiceId, isQueryChar b := by
  have hpath : ∀ b ∈ ascii "/asr/v3", b ≠ 0x25 ∧ b ≠ 0x3F ∧ (isPchar b || b = 0x2F) :=
    forall_mem_of_all (by decide)
  have hquery : (0x25 : UInt8) ∉ ascii "voice_id" ++ 0x3D :: voiceId := by
    have : (0x25 : UInt8) ∉ ascii "voice_id" := by decide
    simp [this, h]
  rw [targetOf, originForm_iff rfl hpath, wellEscaped_iff hquery]
  have hname : ∀ b ∈ ascii "voice_id", isQueryChar b := forall_mem_of_all (by decide)
  constructor
  · exact fun hall b hb => hall b (by simp [hb])
  · intro hall b hb
    rcases List.mem_append.1 hb with hb | hb
    · exact hname b hb
    rcases List.mem_cons.1 hb with rfl | hb
    · decide
    · exact hall b hb

theorem pathOf_targetOf (voiceId : Bytes) : pathOf (targetOf voiceId) = ascii "/asr/v3" := by
  rw [targetOf, pathOf, List.takeWhile_append_of_pos (List.all_eq_true.1 (by decide))]
  simp

theorem queryOf_targetOf (voiceId : Bytes) :
    queryOf (targetOf voiceId) = some (ascii "voice_id" ++ 0x3D :: voiceId) := by
  rw [queryOf, pathOf_targetOf, if_pos (by simp [targetOf])]
  rfl

theorem parseQuery_voiceId (voiceId : Bytes) :
    parseQuery (ascii "voice_id" ++ 0x3D :: voiceId) = some [(ascii "voice_id", voiceId)] ↔
      ∀ b ∈ voiceId, ¬ isQuerySpecial b := by
  refine parseQuery_single ⟨by decide, ?_⟩
  unfold isQuerySpecial
  exact forall_mem_of_all (by decide)

/-- The request names the id, exactly when each of its characters stands for itself. -/
theorem targetOf_names_iff (voiceId : Bytes) :
    (originForm (targetOf voiceId) ∧
      (queryOf (targetOf voiceId)).bind parseQuery = some [(ascii "voice_id", voiceId)]) ↔
      ∀ b ∈ voiceId, StandsForItself b := by
  rw [queryOf_targetOf, Option.bind_some, parseQuery_voiceId]
  constructor
  · rintro ⟨horigin, hplain⟩ b hb
    have hpct : (0x25 : UInt8) ∉ voiceId := fun hm => hplain _ hm (.inr (.inr (.inl rfl)))
    exact ⟨(originForm_targetOf voiceId hpct).1 horigin b hb, hplain b hb⟩
  · intro h
    have hpct : (0x25 : UInt8) ∉ voiceId := fun hm => (h _ hm).2 (.inr (.inr (.inl rfl)))
    exact ⟨(originForm_targetOf voiceId hpct).2 fun b hb => (h b hb).1, fun b hb => (h b hb).2⟩

/-- **The handshake names one session**, exactly when every character of the id that was set
    stands for itself in a query. -/
theorem handshake_identifies_iff {deps : Deps} {o : SpeechOptions}
    {uuid nonce : Vector UInt8 16} {now : ℤ} {hs : Handshake}
    (hplain : ∀ base, resolveWSEndpoint o.endpoint o.credential.site = .ok base → PlainOrigin base)
    (h : handshake deps o uuid now nonce = .ok hs) :
    hs.Identifies deps o.credential now ↔ ∀ b ∈ o.voiceId, StandsForItself b := by
  obtain ⟨userSig, base, hsig, hframe, hbase, hparts⟩ := handshake_ok h
  rw [targetOf_eq] at hparts
  obtain ⟨htarget, hhost⟩ := parseWsUrl_origin (hplain base hbase) rfl hparts
  have hfields := plainField_upgradeFields hhost hs.nonce.toList
  rw [← sessionId_stands_iff o uuid, ← targetOf_names_iff]
  unfold Handshake.Identifies
  rw [hframe, startFrame_voiceId, startFrame_userSig]
  have hrequest := upgradeRequest_eq hs.parts (base64Encode hs.nonce.toList)
  constructor
  · rintro ⟨target, voiceId, _, hparse, horigin, -, hquery, hid, -, -⟩
    cases hid
    rw [Handshake.request, hrequest] at hparse
    have heq := RequestHead.target_of_parse (by decide) (by decide) hfields hparse rfl
    rw [htarget] at heq
    subst heq
    exact ⟨horigin, hquery⟩
  · rintro ⟨horigin, hquery⟩
    refine ⟨_, _, _, ?_, horigin, pathOf_targetOf _, hquery, rfl, rfl,
      signs_of_resolveUserSig hsig⟩
    rw [Handshake.request, hrequest, htarget]
    have hchars := (targetOf_names_iff (o.sessionId uuid)).1 ⟨horigin, hquery⟩
    have hblank : ∀ c : UInt8, ¬ StandsForItself c → c ∉ ascii "/asr/v3?voice_id=" →
        c ∉ targetOf (o.sessionId uuid) := by
      intro c hc hfix hm
      rw [← targetOf_eq] at hm
      exact (List.mem_append.1 hm).elim hfix fun hm => hc (hchars c hm)
    have hmethod : ascii "GET" ≠ [] ∧ ∀ b ∈ ascii "GET", isTchar b :=
      ⟨by decide, forall_mem_of_all (by decide)⟩
    refine RequestHead.parse_headText hmethod ?_ ⟨by decide, by decide⟩ hfields
    exact ⟨hblank _ (by decide) (by decide), hblank _ (by decide) (by decide)⟩

/-- Without an override, the endpoint is a plain origin. -/
theorem plainOrigin_of_site {site base : Bytes} (h : resolveWSEndpoint [] site = .ok base) :
    PlainOrigin base := by
  unfold resolveWSEndpoint at h
  rw [if_neg (not_not.2 rfl)] at h
  cases hhost : hostForSite site with
  | error e => rw [hhost] at h; cases h
  | ok host =>
    rw [hhost] at h
    cases h
    have hname : host ≠ [] ∧ ∀ b ∈ host, isHostChar b := by
      simp only [hostForSite] at hhost
      split at hhost
      · cases hhost; exact ⟨by decide, forall_mem_of_all (by decide)⟩
      split at hhost
      · cases hhost; exact ⟨by decide, forall_mem_of_all (by decide)⟩
      · cases hhost
    exact ⟨ascii "wss://", host, [], by rw [List.append_nil], .inr rfl, hname, .inl rfl⟩

def sampleOptions (voiceId : Bytes) : SpeechOptions where
  credential := sampleCredential
  engineModelType := ascii "bigmodel"
  voiceId := voiceId

theorem handshake_identifies_room :
    ∃ hs, handshake (sampleDeps []) (sampleOptions (ascii "room/1")) (.replicate 16 0) 0
        (.replicate 16 0) = .ok hs ∧
      hs.Identifies (sampleDeps []) sampleCredential 0 :=
  ⟨_, rfl, (handshake_identifies_iff (o := sampleOptions (ascii "room/1"))
    (fun _ => plainOrigin_of_site) rfl).2 (forall_mem_of_all (by decide))⟩

/-- **An accepted id with a space**: the request line has four words. -/
theorem space_in_voice_id :
    (sampleOptions (ascii "room 1")).validateOptions = .ok () ∧
      ∃ hs, handshake (sampleDeps []) (sampleOptions (ascii "room 1")) (.replicate 16 0) 0
          (.replicate 16 0) = .ok hs ∧
        ¬ hs.Identifies (sampleDeps []) sampleCredential 0 := by
  have hnone : ∃ hs, handshake (sampleDeps []) (sampleOptions (ascii "room 1")) (.replicate 16 0) 0
      (.replicate 16 0) = .ok hs ∧ RequestHead.parse hs.request = none :=
    ⟨_, rfl, by decide +kernel⟩
  obtain ⟨hs, hok, hnone⟩ := hnone
  refine ⟨by decide, hs, hok, ?_⟩
  rintro ⟨target, _, _, hparse, -⟩
  rw [hnone] at hparse
  cases hparse

end TrtcAsr.V3.SpeechOptions
