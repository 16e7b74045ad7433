/-
  The identity of a v2 session in its handshakes (speech_recognizer.cc, `Start` and `Connect`;
  signature_params.cc; ws_client.cc).

  The id and the options of a v2 session stand in the query of the target, each value escaped. So
  there is no id that breaks the request; compare the handshake of v3. An id that was drawn stays
  with the recognizer: the `Start` after a failed one goes out under the same id.

  * `attempts`: the upgrade requests of successive `Start`s;
  * `Handshake.Names`: the request is one head, and what Go reads from its query is the map of the
    parameters, with the id and the UserSig that signs it;
  * `attempts_name_session`: each attempt names the session of the first.
-/
import Mathlib.Data.List.Forall2
import TrtcAsr.V2.EffectiveOptions
import TrtcAsr.V2.SpeechOptions
import TrtcAsr.V3.Handshake

namespace TrtcAsr.V2

open TrtcAsr.V3.SpeechOptions (signs_of_resolveUserSig plainOrigin_of_site)

/-! ## Escaped values in a target -/

theorem unreserved_queryChar : ∀ c, isUnreserved c → c ≠ 0x25 ∧ isQueryChar c :=
  forall_byte (by decide +kernel)

theorem wellEscaped_queryEscape (s : Bytes) : wellEscaped isQueryChar (queryEscape s) := by
  refine wellEscaped_flatMap fun c _ => ?_
  split
  · rename_i hc
    obtain ⟨hpct, hquery⟩ := unreserved_queryChar c hc
    rw [wellEscaped_cons hpct, hquery]
    rfl
  split
  · rfl
  · show (Option.isSome _ && true) = true
    rw [hexPair_kHex]
    rfl

theorem queryEscape_plain (v : Bytes) :
    0x26 ∉ queryEscape v ∧ 0x3B ∉ queryEscape v ∧ queryUnescape (queryEscape v) = some v := by
  have hfix : ∀ c : UInt8, ¬ (isUnreserved c ∨ c = 0x25 ∨ c = 0x2B) → c ∉ queryEscape v :=
    fun c hc hmem => hc (mem_queryEscape hmem)
  exact ⟨hfix _ (by decide), hfix _ (by decide), queryUnescape_queryEscape v⟩

/-! ## The names of the parameters -/

/-- A name that is read as it is written. -/
def IsKey (k : Bytes) : Prop := k ≠ [] ∧ ∀ b ∈ k, isUnreserved b

theorem IsKey.plainName {k : Bytes} (h : IsKey k) : PlainName k := by
  have hplain : ∀ c, isUnreserved c → c ≠ 0x3D ∧ c ≠ 0x26 ∧ c ≠ 0x3B ∧ c ≠ 0x25 ∧ c ≠ 0x2B :=
    forall_byte (by decide +kernel)
  refine ⟨h.1, fun b hb => ?_⟩
  obtain ⟨heq, hamp, hsemi, hpct, hplus⟩ := hplain b (h.2 b hb)
  exact ⟨heq, by simp [isQuerySpecial, hamp, hsemi, hpct, hplus]⟩

theorem IsKey.queryChar {k : Bytes} (h : IsKey k) : ∀ b ∈ k, b ≠ 0x25 ∧ isQueryChar b := by
  exact fun b hb => unreserved_queryChar b (h.2 b hb)

namespace SignatureParams

variable {deps : Deps} {p : SignatureParams} {params : Params}

/-- The entries of the map are the parameters that are sent. -/
theorem mem_toMap (h : p.toMap deps = .ok params) :
    ∃ roles ids, p.rolesText deps = .ok roles ∧ p.idsText deps = .ok ids ∧
      ∀ x, x ∈ params.entries ↔ (x.1, some x.2) ∈ p.fields roles ids := by
  rw [toMap_eq] at h
  obtain ⟨roles, hroles, h⟩ := bind_eq_ok.1 h
  obtain ⟨ids, hids, h⟩ := bind_eq_ok.1 h
  cases h
  refine ⟨roles, ids, hroles, hids, fun x => ?_⟩
  rw [SortedMap.mem_putAll (p.nodup_fields roles ids) SortedMap.keys_empty]
  exact or_iff_right List.not_mem_nil

theorem isKey_of_toMap (h : p.toMap deps = .ok params) : params.Keys IsKey := by
  obtain ⟨roles, ids, -, -, hmem⟩ := mem_toMap h
  have hnonempty : ∀ k ∈ (p.fields roles ids).map Prod.fst, k ≠ [] := by
    simp only [fields, List.map_cons, List.map_nil]
    decide
  intro x hx
  exact ⟨hnonempty _ (List.mem_map_of_mem ((hmem x).1 hx)), ((wellNamed_toMap h).keys x hx).1⟩

/-- The id is one of the parameters. -/
theorem voiceId_mem (h : p.toMap deps = .ok params) :
    (ascii "voice_id", p.voiceId) ∈ params.entries := by
  obtain ⟨roles, ids, -, -, hmem⟩ := mem_toMap h
  rw [hmem]
  simp [fields]

/-- What stands in a query: the map, and the UserSig under its two names. -/
theorem signed_of_build {userSig query : Bytes}
    (h : p.buildQueryStringWithSignature deps userSig = .ok query) :
    ∃ params signed : Params, p.toMap deps = .ok params ∧
      query = joinPairs queryEscape signed.entries ∧ signed.entries ≠ [] ∧ signed.Keys IsKey ∧
      ∀ x, x ∈ signed.entries ↔ x ∈ params.entries ∨
        x = (ascii "signature", userSig) ∨ x = (ascii "usersig", userSig) := by
  unfold buildQueryStringWithSignature at h
  cases hm : p.toMap deps with
  | error e =>
    rw [hm] at h
    cases h
  | ok params =>
    rw [hm] at h
    cases h
    have hsignature : IsKey (ascii "signature") := ⟨by decide, forall_mem_of_all (by decide)⟩
    have husersig : IsKey (ascii "usersig") := ⟨by decide, forall_mem_of_all (by decide)⟩
    refine ⟨params, _, rfl, writeQuery_eq _, List.ne_nil_of_mem (SortedMap.mem_insert_self ..),
      ((isKey_of_toMap hm).put hsignature userSig).put husersig userSig, fun x => ?_⟩
    -- neither name is one of a parameter, so no parameter is replaced
    have hkept : x ∈ params.entries → x.1 ≠ ascii "signature" ∧ x.1 ≠ ascii "usersig" :=
      fun hx => ((wellNamed_toMap hm).keys x hx).2
    rw [SortedMap.mem_put, SortedMap.mem_put]
    constructor
    · rintro (h | ⟨h | ⟨h, -⟩, -⟩)
      · exact .inr (.inr h)
      · exact .inr (.inl h)
      · exact .inl h
    · rintro (h | rfl | rfl)
      · exact .inr ⟨.inr ⟨h, (hkept h).1⟩, (hkept h).2⟩
      · exact .inr ⟨.inl rfl, (by decide : ascii "signature" ≠ ascii "usersig")⟩
      · exact .inl rfl

end SignatureParams

/-! ## The request -/

/-- A dial that gets as far as its upgrade request. -/
structure Handshake where
  parts : UrlParts
  nonce : Vector UInt8 16

/-- The request that `WsClient::Connect` writes. -/
def Handshake.request (hs : Handshake) : Bytes :=
  upgradeRequest hs.parts (base64Encode hs.nonce.toList)

namespace SpeechOptions

/-- `Start` up to the upgrade request, when the transport comes up. -/
def handshake (deps : Deps) (o : SpeechOptions) (env : ConnectEnv) (nonce : Vector UInt8 16) :
    Except Exn Handshake := do
  let url ← o.startRequest deps env
  let parts ← (parseWsUrl url).mapError fun err => .asr ⟨kErrConnectFailed,
    ascii "websocket dial failed: invalid endpoint url: " ++ err⟩
  return { parts, nonce }

/-- The members after a `Start`: `Connect` stores the id that it draws. -/
def afterStart (o : SpeechOptions) (env : ConnectEnv) : SpeechOptions :=
  match o.validateOptions with
  | .ok () => { o with voiceId := o.sessionId env.uuid }
  | .error _ => o

/-- Successive `Start`s, each after the one before it has failed. -/
def attempts (deps : Deps) (o : SpeechOptions) :
    List (ConnectEnv × Vector UInt8 16) → List (Except Exn Handshake)
  | [] => []
  | (env, nonce) :: rest => o.handshake deps env nonce :: (o.afterStart env).attempts deps rest

end SpeechOptions

/-- The request is one head with the fields of the client. Go reads each parameter of the map once
    from its query, among them the id, and the UserSig twice, which (unless the credential has a
    fixed one) signs the id. -/
def Handshake.Names (hs : Handshake) (deps : Deps) (o : SpeechOptions) (voiceId : Bytes)
    (env : ConnectEnv) (nonce : Vector UInt8 16) : Prop :=
  ∃ target userSig params pairs,
    RequestHead.parse hs.request = some
      { method := ascii "GET", target := target, version := ascii "HTTP/1.1"
        fields := upgradeFields hs.parts (base64Encode nonce.toList) } ∧
    originForm target ∧ pathOf target = ascii "/asr/v2/" ++ toDec o.account.appId ∧
    (queryOf target).bind parseQuery = some pairs ∧ (pairs.map Prod.fst).Nodup ∧
    (o.signatureParams voiceId env).toMap deps = .ok params ∧
    (∀ x, x ∈ pairs ↔ x ∈ params.entries ∨
      x = (ascii "signature", userSig) ∨ x = (ascii "usersig", userSig)) ∧
    (ascii "voice_id", voiceId) ∈ pairs ∧
    (o.account.userSig = [] → genUserSig deps.compress2 o.account.sdkAppId o.account.secretKey
      voiceId 86400 env.now = .ok userSig)

namespace SpeechOptions

variable {deps : Deps} {o : SpeechOptions} {env : ConnectEnv} {nonce : Vector UInt8 16}
  {hs : Handshake}

/-! ## The target -/

/-- The target of the request, as path and query. -/
def targetOf (o : SpeechOptions) (query : Bytes) : Bytes :=
  ascii "/asr/v2/" ++ toDec o.account.appId ++ 0x3F :: query

theorem path_plain (o : SpeechOptions) : ∀ b ∈ ascii "/asr/v2/" ++ toDec o.account.appId,
    b ≠ 0x25 ∧ b ≠ 0x3F ∧ (isPchar b || b = 0x2F) := by
  have hdigit : ∀ b, isDigit b ∨ b = 0x2D → b ≠ 0x25 ∧ b ≠ 0x3F ∧ (isPchar b || b = 0x2F) :=
    forall_byte (by decide +kernel)
  intro b hb
  rcases List.mem_append.1 hb with hb | hb
  · exact forall_mem_of_all (p := fun b => b ≠ 0x25 ∧ b ≠ 0x3F ∧ (isPchar b || b = 0x2F))
      (by decide) b hb
  · exact hdigit b (mem_toDec hb)

theorem parts_targetOf (o : SpeechOptions) (query : Bytes) :
    pathOf (o.targetOf query) = ascii "/asr/v2/" ++ toDec o.account.appId ∧
      queryOf (o.targetOf query) = some query := by
  have hpath : 0x3F ∉ ascii "/asr/v2/" ++ toDec o.account.appId :=
    fun hm => (o.path_plain _ hm).2.1 rfl
  exact ⟨pathOf_append hpath query, queryOf_append hpath query⟩

/-- What is known of a dial that gets as far as its upgrade request. -/
theorem handshake_ok (h : o.handshake deps env nonce = .ok hs) :
    ∃ userSig query base,
      resolveUserSig deps o.account.toCredential (o.sessionId env.uuid) env.now = .ok userSig ∧
      (o.signatureParams (o.sessionId env.uuid) env).buildQueryStringWithSignature deps userSig =
        .ok query ∧
      resolveWSEndpoint o.endpoint o.account.site = .ok base ∧
      parseWsUrl (base ++ o.targetOf query) = .ok hs.parts ∧ hs.nonce = nonce := by
  obtain ⟨url, hurl, h⟩ := bind_eq_ok.1 h
  obtain ⟨parts, hparts, h⟩ := bind_eq_ok.1 h
  cases h
  obtain ⟨-, -, hprep⟩ := bind_eq_ok.1 hurl
  obtain ⟨userSig, hsig, h⟩ := bind_eq_ok.1 hprep
  obtain ⟨query, hquery, h⟩ := bind_eq_ok.1 h
  obtain ⟨base, hbase, h⟩ := bind_eq_ok.1 h
  cases h
  refine ⟨userSig, query, base, mapError_eq_ok.1 hsig, mapError_eq_ok.1 hquery,
    mapError_eq_ok.1 hbase, ?_, rfl⟩
  have htarget : base ++ ascii "/asr/v2/" ++ toDec o.account.appId ++ ascii "?" ++ query =
      base ++ o.targetOf query := by
    rw [targetOf, show ascii "?" = [0x3F] from rfl]
    simp
  rw [← htarget]
  exact mapError_eq_ok.1 hparts

/-- The characters of a query that is made of pairs: none ends the request line. -/
theorem blank_not_mem {pairs : List (Bytes × Bytes)} (hkeys : ∀ p ∈ pairs, IsKey p.1) {c : UInt8}
    (hc : c = 0x20 ∨ c = 0x0D) : c ∉ o.targetOf (joinPairs queryEscape pairs) := by
  have hvisible : ∀ b : UInt8, isUnreserved b ∨ b = 0x25 ∨ b = 0x2B → b ≠ 0x20 ∧ b ≠ 0x0D :=
    forall_byte (by decide +kernel)
  have hpath : ∀ b : UInt8, isPchar b || b = 0x2F → b ≠ 0x20 ∧ b ≠ 0x0D :=
    forall_byte (by decide +kernel)
  have hclear : ∀ b ∈ o.targetOf (joinPairs queryEscape pairs), b ≠ 0x20 ∧ b ≠ 0x0D := by
    intro b hb
    rcases List.mem_append.1 hb with hb | hb
    · exact hpath b (o.path_plain b hb).2.2
    rcases List.mem_cons.1 hb with rfl | hb
    · exact ⟨by decide, by decide⟩
    rcases mem_joinPairs hb with rfl | rfl | ⟨p, hp, hb | hb⟩
    · exact ⟨by decide, by decide⟩
    · exact ⟨by decide, by decide⟩
    · exact hvisible b (.inl ((hkeys p hp).2 b hb))
    · exact hvisible b (mem_queryEscape hb)
  intro hm
  rcases hc with rfl | rfl
  · exact (hclear _ hm).1 rfl
  · exact (hclear _ hm).2 rfl

/-- **A handshake names its session**, whatever its id and options are. -/
theorem handshake_names (hplain : ∀ base, resolveWSEndpoint o.endpoint o.account.site = .ok base →
    PlainOrigin base) (h : o.handshake deps env nonce = .ok hs) :
    hs.Names deps o (o.sessionId env.uuid) env nonce := by
  obtain ⟨userSig, query, base, hsig, hquery, hbase, hparts, rfl⟩ := handshake_ok h
  obtain ⟨params, signed, hparams, rfl, hne, hkeys, hmem⟩ := SignatureParams.signed_of_build hquery
  obtain ⟨htarget, hhost⟩ := parseWsUrl_origin (hplain base hbase) rfl hparts
  obtain ⟨hpathOf, hqueryOf⟩ := o.parts_targetOf (joinPairs queryEscape signed.entries)
  refine ⟨_, userSig, params, signed.entries, ?_, ?_, hpathOf, ?_, ?_, hparams, hmem, ?_,
    signs_of_resolveUserSig hsig⟩
  · rw [Handshake.request, upgradeRequest_eq, htarget]
    have hmethod : ascii "GET" ≠ [] ∧ ∀ b ∈ ascii "GET", isTchar b :=
      ⟨by decide, forall_mem_of_all (by decide)⟩
    exact RequestHead.parse_headText hmethod
      ⟨blank_not_mem hkeys (.inl rfl), blank_not_mem hkeys (.inr rfl)⟩ ⟨by decide, by decide⟩
      (plainField_upgradeFields hhost _)
  · rw [targetOf, originForm_iff rfl o.path_plain]
    exact wellEscaped_joinPairs (fun p hp => (hkeys p hp).queryChar) wellEscaped_queryEscape
  · rw [hqueryOf]
    exact parseQuery_joinPairs queryEscape_plain hne fun p hp => (hkeys p hp).plainName
  · exact List.pairwise_map.2 (signed.sorted.imp fun hlt => hlt.ne)
  · exact (hmem _).2 (.inl (SignatureParams.voiceId_mem hparams))

/-! ## Successive attempts -/

theorem generateUuid_ne_nil (uuid : Vector UInt8 16) : generateUuid uuid ≠ [] := by
  simp [generateUuid, hexByte]

theorem sessionId_ne_nil (o : SpeechOptions) (uuid : Vector UInt8 16) : o.sessionId uuid ≠ [] := by
  unfold sessionId
  split
  · exact generateUuid_ne_nil uuid
  · assumption

/-- With options that are refused, no attempt gets as far as its request. -/
theorem attempts_of_invalid {e : ASRError} (h : o.validateOptions = .error e)
    (tries : List (ConnectEnv × Vector UInt8 16)) :
    List.Forall₂ (fun _ r => r = .error (.asr e)) tries (o.attempts deps tries) := by
  induction tries with
  | nil => exact .nil
  | cons t rest ih =>
    have hsame : o.afterStart t.1 = o := by
      unfold afterStart
      rw [h]
    have hfirst : o.handshake deps t.1 t.2 = .error (.asr e) := by
      unfold handshake startRequest
      rw [h]
      rfl
    refine .cons hfirst ?_
    rw [hsame]
    exact ih

/-- The attempts of a recognizer that has its id. -/
theorem attempts_named {voiceId : Bytes} (hplain : ∀ base,
    resolveWSEndpoint o.endpoint o.account.site = .ok base → PlainOrigin base)
    (hvalid : o.validateOptions = .ok ()) (hid : o.voiceId = voiceId) (hne : voiceId ≠ [])
    (tries : List (ConnectEnv × Vector UInt8 16)) :
    List.Forall₂ (fun t r => ∀ hs, r = .ok hs → hs.Names deps o voiceId t.1 t.2) tries
      (o.attempts deps tries) := by
  have hkept : ∀ uuid, o.sessionId uuid = voiceId := fun uuid => by
    rw [sessionId, hid, if_neg hne]
  induction tries with
  | nil => exact .nil
  | cons t rest ih =>
    refine .cons (fun hs h => ?_) ?_
    · exact hkept t.1.uuid ▸ handshake_names hplain h
    · have hsame : o.afterStart t.1 = o := by
        unfold afterStart
        rw [hvalid, hkept, ← hid]
      rw [hsame]
      exact ih

/-- **Each attempt names the session of the first**: every `Start` of a recognizer that gets as far
    as its request, for all ids, options and credentials under a plain endpoint. -/
theorem attempts_name_session {deps : Deps} {o : SpeechOptions} (hplain : ∀ base,
    resolveWSEndpoint o.endpoint o.account.site = .ok base → PlainOrigin base)
    (first : ConnectEnv × Vector UInt8 16) (rest : List (ConnectEnv × Vector UInt8 16)) :
    List.Forall₂ (fun t r => ∀ hs, r = .ok hs →
        hs.Names deps o (o.sessionId first.1.uuid) t.1 t.2)
      (first :: rest) (o.attempts deps (first :: rest)) := by
  cases hvalid : o.validateOptions with
  | error e =>
    refine List.Forall₂.imp (fun t r hr hs h => ?_) (attempts_of_invalid hvalid (first :: rest))
    rw [hr] at h
    cases h
  | ok u =>
    refine .cons (fun hs h => handshake_names hplain h) ?_
    have hnext : o.afterStart first.1 = { o with voiceId := o.sessionId first.1.uuid } := by
      unfold afterStart
      rw [hvalid]
    rw [hnext]
    -- the parameters of an attempt take the id from `sessionId`, not from the member
    exact attempts_named (o := { o with voiceId := o.sessionId first.1.uuid }) hplain hvalid rfl
      (o.sessionId_ne_nil first.1.uuid) rest

/-- Options with a hotword list that would end the request line, and no id. -/
def sampleHotwords : SpeechOptions where
  account := { sampleCredential with appId := 1300000000 }
  engineModelType := ascii "16k_zh"
  hotwordList := ascii "a b\r\n|10"

def sampleTry (b : UInt8) : ConnectEnv × Vector UInt8 16 :=
  (⟨.replicate 16 b, 0, 1700000000, 7⟩, .replicate 16 b)

/-- The second of two attempts goes out under the id that the first has drawn. -/
theorem attempts_name_session_hotwords :
    ∃ hs hs', sampleHotwords.attempts (sampleDeps []) [sampleTry 1, sampleTry 2] =
        [.ok hs, .ok hs'] ∧
      hs'.Names (sampleDeps []) sampleHotwords (generateUuid (.replicate 16 1)) (sampleTry 2).1
        (sampleTry 2).2 := by
  have hruns : ∃ hs hs', sampleHotwords.attempts (sampleDeps []) [sampleTry 1, sampleTry 2] =
      [.ok hs, .ok hs'] := ⟨_, _, rfl⟩
  obtain ⟨hs, hs', hruns⟩ := hruns
  have hnames := @attempts_name_session (sampleDeps []) sampleHotwords
    (fun _ => plainOrigin_of_site) (sampleTry 1) [sampleTry 2]
  rw [hruns] at hnames
  obtain _ | ⟨-, _ | ⟨hsecond, -⟩⟩ := hnames
  exact ⟨hs, hs', hruns, hsecond hs' rfl⟩

end SpeechOptions

end TrtcAsr.V2
