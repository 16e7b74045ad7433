/-
  Requests before a service that reads UserSigs as usersig.h lays them out.

  A UserSig is signed, written as JSON, compressed, encoded, and carried by the query of a URL, by
  a header or by a JSON message. The service undoes all of it and signs again.

  * `Service.verify`: the application and the identifier of a ticket that is in force;
  * `verify_userSig`: what is made for an id verifies as that id;
  * `shownByUpgrade`, `shownByHttp`, `shownByMessage`: what a request shows of who sends it;
  * `requests_admitted`: every request that goes out is admitted for the id that it names.
-/
import Mathlib.Data.List.Nodup
import TrtcAsr.Lib.JsonReread
import TrtcAsr.Serialization
import TrtcAsr.UserSig.Digest
import TrtcAsr.UserSig.Reading
import TrtcAsr.V2.Handshake
import TrtcAsr.V3.Offline

namespace TrtcAsr

/-! ## The service -/

namespace JsonText.Value

def member (v : Value) (k : String) : Option Value :=
  match v with
  | .obj ms => ms.lookup k.toList
  | _ => none

def textAt (v : Value) (k : String) : Option Bytes :=
  match v.member k with
  | some (.str s) => some (utf8 s)
  | _ => none

def integerAt (v : Value) (k : String) : Option ℤ :=
  match v.member k with
  | some (.num q) => if q.den = 1 then some q.num else none
  | _ => none

theorem member_cons (k : String) (k' : List Char) (v : Value) (ms : List (List Char × Value)) :
    (obj ((k', v) :: ms)).member k = if k.toList = k' then some v else (obj ms).member k := by
  show List.lookup k.toList ((k', v) :: ms) = _
  rw [List.lookup_cons]
  by_cases h : k.toList = k'
  · rw [if_pos h, beq_iff_eq.2 h]
  · rw [if_neg h, beq_eq_false_iff_ne.2 h]
    rfl

theorem textAt_str {v : Value} {k : String} {s : List Char} (h : v.member k = some (.str s)) :
    v.textAt k = some (utf8 s) := by
  rw [textAt, h]

theorem integerAt_num {v : Value} {k : String} {n : ℤ} (h : v.member k = some (.num n)) :
    v.integerAt k = some n := by
  rw [integerAt, h]
  exact if_pos (Rat.den_intCast n)

end JsonText.Value

/-- How the service inflates, and the keys of the applications that it knows. -/
structure Service where
  inflate : Bytes → Option Bytes
  secretKey : ℤ → Option Bytes

/-- The text that a ticket signs: a line for each of the four values. -/
def signedText (id : Bytes) (app time expire : ℤ) : Bytes :=
  [(ascii "TLS.identifier", id), (ascii "TLS.sdkappid", toDec app), (ascii "TLS.time", toDec time),
    (ascii "TLS.expire", toDec expire)].flatMap fun line => line.1 ++ 0x3A :: line.2 ++ [0x0A]

/-- The application and the identifier of a ticket that has the documented layout, is signed with
    the key of the application, and is in force at the time `now`. -/
def Service.verify (s : Service) (now : ℤ) (ticket : Bytes) : Option (ℤ × Bytes) := do
  let doc ← readTicket s.inflate ticket
  let version ← doc.textAt "TLS.ver"
  let id ← doc.textAt "TLS.identifier"
  let app ← doc.integerAt "TLS.sdkappid"
  let expire ← doc.integerAt "TLS.expire"
  let time ← doc.integerAt "TLS.time"
  let sig ← doc.textAt "TLS.sig"
  let key ← s.secretKey app
  let mac := Fips180.hmac Fips180.sha256 64 key (signedText id app time expire)
  if version = ascii "2.0" ∧ sig = base64Encode mac ∧ time ≤ now ∧ now < time + expire then
    some (app, id)
  else none

/-- What a request shows of who sends it: the ticket, the id that it should be for, and the
    application, unless it is left to the ticket. -/
structure Shown where
  ticket : Bytes
  id : Bytes
  sdkAppId : Option Bytes
  deriving DecidableEq, Repr

def Service.admits (s : Service) (now : ℤ) (shown : Shown) : Bool :=
  match s.verify now shown.ticket with
  | some (app, id) => id = shown.id ∧ shown.sdkAppId.all (· = toDec app)
  | none => false

/-! ## Tickets -/

theorem userSigContent_signedText (id : Bytes) (app time expire : ℤ) :
    userSigContent app id expire time = signedText id app time expire := by
  have hnl : ascii "\n" = [0x0A] := rfl
  have htag : ascii "TLS.identifier:" = ascii "TLS.identifier" ++ [0x3A] ∧
      ascii "TLS.sdkappid:" = ascii "TLS.sdkappid" ++ [0x3A] ∧
      ascii "TLS.time:" = ascii "TLS.time" ++ [0x3A] ∧
      ascii "TLS.expire:" = ascii "TLS.expire" ++ [0x3A] := by decide
  obtain ⟨hid, happ, htime, hexpire⟩ := htag
  simp only [userSigContent, signedText, hnl, hid, happ, htime, hexpire, List.flatMap_cons,
    List.flatMap_nil, List.append_assoc, List.cons_append, List.nil_append, List.append_nil]

/-- The members of the document of a ticket. -/
theorem members_ticket (app : ℤ) (key : Bytes) (id : List Char) (expire time : ℤ) :
    ∃ doc, doc = JsonText.Value.obj
        ((userSigMembers app key id expire time).map fun m => (m.name, m.value)) ∧
      doc.member "TLS.ver" = some (.str "2.0".toList) ∧
      doc.member "TLS.identifier" = some (.str id) ∧
      doc.member "TLS.sdkappid" = some (.num app) ∧
      doc.member "TLS.expire" = some (.num expire) ∧
      doc.member "TLS.time" = some (.num time) ∧
      doc.member "TLS.sig" = some (.str (chars (base64Encode
        (hmacSha256 key (userSigContent app (utf8 id) expire time))))) := by
  refine ⟨_, rfl, ?_⟩
  simp [userSigMembers, plainMember, intMember, JsonText.Value.member_cons]

/-- The value that the service reads from a ticket. -/
theorem readTicket_genUserSigAt {compress2 : Bytes → Except ℤ Bytes}
    {inflate : Bytes → Option Bytes} (hinflate : ∀ data out, compress2 data = .ok out →
    inflate out = some data) {app expire time : ℤ} {key ticket : Bytes} {id : List Char}
    (h : genUserSigAt compress2 app key (utf8 id) expire time = .ok ticket) :
    readTicket inflate ticket =
      some (.obj ((userSigMembers app key id expire time).map fun m => (m.name, m.value))) := by
  obtain ⟨-, -, h⟩ := bind_eq_ok.1 h
  obtain ⟨-, -, h⟩ := bind_eq_ok.1 h
  obtain ⟨z, hz, h⟩ := bind_eq_ok.1 h
  cases h
  unfold zlibCompress at hz
  split at hz
  · rename_i out hout
    cases hz
    rw [readTicket, base64UrlDecode_encode]
    simp only [hinflate _ _ hout, ← utf8_userSigText, utf8Decode_utf8, Option.bind_some,
      parse_userSigText]
  · cases hz

/-- **A UserSig verifies as what it was made for**, from its time on for as long as it lasts. -/
theorem verify_userSig {s : Service} {compress2 : Bytes → Except ℤ Bytes}
    (hinflate : ∀ data out, compress2 data = .ok out → s.inflate out = some data)
    {app time : ℤ} {key id ticket : Bytes} (hid : ValidUtf8 id) (hkey : s.secretKey app = some key)
    (h : genUserSig compress2 app key id 86400 time = .ok ticket) {now : ℤ} (hfrom : time ≤ now)
    (hto : now < time + 86400) : s.verify now ticket = some (app, id) := by
  obtain ⟨cs, rfl⟩ := hid
  obtain ⟨doc, hdoc, hversion, hidentifier, happ, hexpire, htime, hsig⟩ :=
    members_ticket app key cs 86400 time
  have hread : readTicket s.inflate ticket = some doc := hdoc ▸ readTicket_genUserSigAt hinflate h
  have hmac :
      utf8 (chars (base64Encode (hmacSha256 key (userSigContent app (utf8 cs) 86400 time)))) =
      base64Encode (Fips180.hmac Fips180.sha256 64 key (signedText (utf8 cs) app time 86400)) := by
    rw [utf8_chars (forall_mem_base64Encode (by decide) _), hmacSha256_eq,
      userSigContent_signedText]
  unfold Service.verify
  simp only [hread, Option.bind_eq_bind, Option.bind_some, JsonText.Value.textAt_str hversion,
    JsonText.Value.textAt_str hidentifier, JsonText.Value.integerAt_num happ,
    JsonText.Value.integerAt_num hexpire, JsonText.Value.integerAt_num htime,
    JsonText.Value.textAt_str hsig, hkey]
  exact if_pos ⟨utf8_toList "2.0", hmac, hfrom, hto⟩

/-! ## What a request shows -/

/-- An upgrade request of v2: by the query of its target. -/
def shownByUpgrade (request : Bytes) : Option Shown := do
  let head ← RequestHead.parse request
  let pairs ← (queryOf head.target).bind parseQuery
  let ticket ← pairs.lookup (ascii "usersig")
  let id ← pairs.lookup (ascii "voice_id")
  return { ticket, id, sdkAppId := pairs.lookup (ascii "sdkappid") }

/-- A request of v2 over HTTP: by two headers and the query of its URL. -/
def shownByHttp (r : HttpRequest) : Option Shown := do
  let fields ← r.headers.mapM fieldLine
  let ticket ← fields.lookup (ascii "X-TRTC-UserSig")
  let sdkAppId ← fields.lookup (ascii "X-TRTC-SdkAppId")
  let pairs ← (queryOf r.url).bind parseQuery
  let id ← pairs.lookup (ascii "RequestId")
  return { ticket, id, sdkAppId }

/-- A message of v3, whose block `block` has the id under the name `name`. -/
def shownByMessage (block name : String) (message : Json) : Option Shown := do
  let auth ← message.member "auth"
  let ticket ← (auth.member "usersig").bind Json.getStr
  let sdkAppId ← (auth.member "sdkappid").bind Json.getStr
  let id ← ((message.member block).bind (·.member name)).bind Json.getStr
  return { ticket, id, sdkAppId }

/-- Under a credential without a fixed UserSig, what is shown names the id, and is admitted for the
    day from the time `time` on by a service that knows the key. -/
def Admitted (s : Service) (credential : Credential) (id : Bytes) (time : ℤ)
    (shown : Option Shown) : Prop :=
  credential.userSig = [] → s.secretKey credential.sdkAppId = some credential.secretKey →
    ∃ sh, shown = some sh ∧ sh.id = id ∧ ∀ now, time ≤ now → now < time + 86400 →
      s.admits now sh

/-- The requests that a service admits. -/
structure RequestsAdmitted (deps : Deps) (s : Service) : Prop where
  v2Speech : ∀ o env nonce hs,
    (∀ base, resolveWSEndpoint o.endpoint o.account.site = .ok base → PlainOrigin base) →
    ValidUtf8 o.voiceId → V2.SpeechOptions.handshake deps o env nonce = .ok hs →
    Admitted s o.account.toCredential (o.sessionId env.uuid) env.now (shownByUpgrade hs.request)
  v2Http : ∀ client env r, (∀ base, resolveHTTPEndpoint client.endpoint client.account.site =
      .ok base → 0x3F ∉ base) →
    ((∃ req, V2.recognizeRequest deps client env req = .ok r) ∨
      (∃ req, V2.createTaskRequest deps client env req = .ok r) ∨
      ∃ id, V2.describeTaskStatusRequest deps client env id = .ok r) →
    Admitted s client.account.toCredential (generateUuid env.uuid) env.now (shownByHttp r)
  v3Speech : ∀ o uuid now prepared, ValidUtf8 o.voiceId →
    V3.SpeechOptions.startRequest deps o uuid now = .ok prepared →
    ∃ frame, deps.dump frame = .ok prepared.startFrame ∧
      Admitted s o.credential (o.sessionId uuid) now
        (shownByMessage "params" "voice_id" frame.reread)
  v3Http : ∀ client env r,
    ((∃ req, V3.recognizeRequest deps client env req = .ok r) ∨
      (∃ req, V3.createTaskRequest deps client env req = .ok r) ∨
      ∃ id, V3.describeTaskRequest deps client env id = .ok r) →
    ∃ body, deps.dump body = .ok r.jsonBody ∧
      Admitted s client.credential (generateUuid env.uuid) env.now
        (shownByMessage "auth" "request_id" body.reread)

theorem admits_of_verify {s : Service} {now app : ℤ} {sh : Shown}
    (h : s.verify now sh.ticket = some (app, sh.id))
    (happ : ∀ text ∈ sh.sdkAppId, text = toDec app) :
    s.admits now sh := by
  unfold Service.admits
  rw [h]
  cases hsdk : sh.sdkAppId with
  | none => simp
  | some text => simp [happ text hsdk]

/-! ## Messages of v3 -/

/-- What the text of a message shows is what the message has. -/
theorem shownByMessage_reread {block name : String} {message : Json}
    {auth : List (String × Json)} {ticket id sdkAppId : Bytes}
    (hauth : message.member "auth" = some (.obj auth))
    (hticket : (Json.obj auth).member "usersig" = some (.str ticket))
    (happ : (Json.obj auth).member "sdkappid" = some (.str sdkAppId))
    (hid : (message.member block).bind (·.member name) = some (.str id)) :
    shownByMessage block name message.reread = some ⟨ticket, id, some sdkAppId⟩ := by
  obtain ⟨blk, hblk, hname⟩ := Option.bind_eq_some_iff.1 hid
  simp only [shownByMessage, Option.bind_eq_bind, member_reread, hauth, hblk, Option.map_some,
    Option.bind_some, hticket, happ, hname]
  rfl

/-! ## Queries and headers of v2 -/

theorem lookup_of_mem {k v : Bytes} {pairs : List (Bytes × Bytes)}
    (hnodup : (pairs.map Prod.fst).Nodup) (h : (k, v) ∈ pairs) : pairs.lookup k = some v := by
  obtain ⟨before, after, rfl⟩ := List.append_of_mem h
  refine List.lookup_eq_some_iff.2 ⟨before, after, rfl, fun p hp => ?_⟩
  rw [List.map_append, List.nodup_append] at hnodup
  have hne := hnodup.2.2 p.1 (List.mem_map_of_mem hp) k (by simp)
  exact bne_iff_ne.2 hne.symm

theorem mem_of_lookup {k v : Bytes} {pairs : List (Bytes × Bytes)}
    (h : pairs.lookup k = some v) : (k, v) ∈ pairs := by
  obtain ⟨before, after, rfl, -⟩ := List.lookup_eq_some_iff.1 h
  simp

namespace V2

theorem queryEscape_self {v : Bytes} (h : ∀ b ∈ v, isUnreserved b) : queryEscape v = v := by
  unfold queryEscape
  rw [List.flatMap_def, List.map_congr_left fun b hb => if_pos (h b hb)]
  exact List.flatMap_singleton' v

theorem unreserved_toDec (n : ℤ) : ∀ b ∈ toDec n, isUnreserved b := by
  have hdigit : ∀ b, isDigit b ∨ b = 0x2D → isUnreserved b := forall_byte (by decide +kernel)
  exact fun b hb => hdigit b (mem_toDec hb)

theorem unreserved_generateUuid (uuid : Vector UInt8 16) :
    ∀ b ∈ generateUuid uuid, isUnreserved b := by
  have hhex : ∀ x, (hexByte x).all isUnreserved := forall_byte (by decide +kernel)
  have hpart : ∀ l : List UInt8, ∀ b ∈ l.flatMap hexByte, isUnreserved b := by
    intro l b hb
    obtain ⟨x, -, hx⟩ := List.mem_flatMap.1 hb
    exact List.all_eq_true.1 (hhex x) b hx
  have hdash : ∀ b ∈ ascii "-", isUnreserved b := List.all_eq_true.1 (by decide)
  unfold generateUuid
  simp only [List.forall_mem_append]
  exact ⟨⟨⟨⟨⟨⟨⟨⟨hpart _, hdash⟩, hpart _⟩, hdash⟩, hpart _⟩, hdash⟩, hpart _⟩, hdash⟩, hpart _⟩

/-- The application of a session, where the map has it. -/
theorem sdkAppId_of_mem {deps : Deps} {p : SignatureParams} {params : Params} {text : Bytes}
    (h : p.toMap deps = .ok params) (hmem : (ascii "sdkappid", text) ∈ params.entries) :
    text = toDec p.sdkAppId := by
  obtain ⟨roles, ids, -, -, hfields⟩ := SignatureParams.mem_toMap h
  have hentry : (ascii "sdkappid", SignatureParams.sendIf (p.sdkAppId > 0) (toDec p.sdkAppId)) ∈
      p.fields roles ids := by simp [SignatureParams.fields]
  have hsame := List.inj_on_of_nodup_map (p.nodup_fields roles ids) ((hfields _).1 hmem) hentry rfl
  have htext := congrArg Prod.snd hsame
  simp only [SignatureParams.sendIf] at htext
  split at htext
  · exact Option.some.inj htext
  · cases htext

/-- The pairs in the query of a request over HTTP. -/
def httpPairs (client : Client) (env : CallEnv) (requestId : Bytes) : List (Bytes × Bytes) :=
  [(ascii "AppId", toDec client.account.appId), (ascii "Secretid", toDec client.account.appId),
    (ascii "RequestId", requestId), (ascii "Timestamp", toDec env.timestamp)] ++ sdkReport

theorem sdkReportQuery_eq : sdkReportQuery = joinPairs queryEscape sdkReport := by
  rw [sdkReportQuery, writeQuery_eq]
  rfl

/-- The URL of a request: where it goes, and its pairs. -/
theorem requestUrl_eq {client : Client} {env : CallEnv} {path url : Bytes}
    (h : requestUrl client env path (generateUuid env.uuid) = .ok url) :
    ∃ base, resolveHTTPEndpoint client.endpoint client.account.site = .ok base ∧
      url = base ++ path ++
        0x3F :: joinPairs queryEscape (httpPairs client env (generateUuid env.uuid)) := by
  obtain ⟨base, hbase, h⟩ := bind_eq_ok.1 h
  refine ⟨base, hbase, ?_⟩
  cases h
  have htext : ascii "?AppId=" = 0x3F :: (ascii "AppId" ++ [0x3D]) ∧
      ascii "&Secretid=" = 0x26 :: (ascii "Secretid" ++ [0x3D]) ∧
      ascii "&RequestId=" = 0x26 :: (ascii "RequestId" ++ [0x3D]) ∧
      ascii "&Timestamp=" = 0x26 :: (ascii "Timestamp" ++ [0x3D]) ∧ ascii "&" = [0x26] := by decide
  obtain ⟨happ, hsecret, hrequest, htime, hamp⟩ := htext
  have hdec : ∀ n, queryEscape (toDec n) = toDec n := fun n => queryEscape_self (unreserved_toDec n)
  rw [sdkReportQuery_eq, happ, hsecret, hrequest, htime, hamp, httpPairs, sdkReport]
  simp only [joinPairs_cons, List.cons_append, List.nil_append, List.flatMap_cons, hdec,
    queryEscape_self (unreserved_generateUuid env.uuid), List.append_assoc]

/-- The service reads the pairs of a URL whose origin has no query. -/
theorem parseQuery_requestUrl {client : Client} {env : CallEnv} {path url : Bytes}
    (horigin : ∀ base, resolveHTTPEndpoint client.endpoint client.account.site = .ok base →
      0x3F ∉ base) (hpath : 0x3F ∉ path)
    (h : requestUrl client env path (generateUuid env.uuid) = .ok url) :
    (queryOf url).bind parseQuery = some (httpPairs client env (generateUuid env.uuid)) := by
  obtain ⟨base, hbase, rfl⟩ := requestUrl_eq h
  have hwhere : 0x3F ∉ base ++ path := by
    rw [List.mem_append, not_or]
    exact ⟨horigin base hbase, hpath⟩
  have hkeys : ((httpPairs client env (generateUuid env.uuid)).map Prod.fst).all
      (fun k => k ≠ [] && k.all isUnreserved) = true := by
    simp only [httpPairs, sdkReport, List.map_append, List.map_cons, List.map_nil]
    decide
  rw [queryOf_append hwhere, Option.bind_some]
  refine parseQuery_joinPairs queryEscape_plain (by simp [httpPairs]) fun p hp => ?_
  obtain ⟨hne, hchars⟩ :=
    (Bool.and_eq_true _ _).mp (List.all_eq_true.1 hkeys p.1 (List.mem_map_of_mem hp))
  exact IsKey.plainName ⟨of_decide_eq_true hne, List.all_eq_true.1 hchars⟩

/-- The headers are read as they were written. -/
theorem fieldLine_requestHeaders (client : Client) {userSig : Bytes}
    (hsig : ∀ b ∈ userSig, isVchar b) :
    (requestHeaders client userSig).mapM fieldLine =
      some [(ascii "Content-Type", ascii "application/json; charset=utf-8"),
        (ascii "X-TRTC-SdkAppId", toDec client.account.sdkAppId),
        (ascii "X-TRTC-UserSig", userSig)] := by
  have hdec : ∀ b ∈ toDec client.account.sdkAppId, isVchar b := by
    have hdigit : ∀ b, isDigit b ∨ b = 0x2D → isVchar b := forall_byte (by decide +kernel)
    exact fun b hb => hdigit b (mem_toDec hb)
  have happName : ascii "X-TRTC-SdkAppId" ≠ [] ∧ ∀ b ∈ ascii "X-TRTC-SdkAppId", isTchar b :=
    ⟨by decide, forall_mem_of_all (by decide)⟩
  have hsigName : ascii "X-TRTC-UserSig" ≠ [] ∧ ∀ b ∈ ascii "X-TRTC-UserSig", isTchar b :=
    ⟨by decide, forall_mem_of_all (by decide)⟩
  have happ := fieldLine_fieldText (f := (ascii "X-TRTC-SdkAppId", toDec client.account.sdkAppId))
    ⟨happName, hdec⟩
  have huserSig := fieldLine_fieldText (f := (ascii "X-TRTC-UserSig", userSig)) ⟨hsigName, hsig⟩
  have htype : fieldLine (ascii "Content-Type: application/json; charset=utf-8") =
      some (ascii "Content-Type", ascii "application/json; charset=utf-8") := by decide
  have htext : ascii "X-TRTC-SdkAppId: " = ascii "X-TRTC-SdkAppId" ++ [0x3A, 0x20] ∧
      ascii "X-TRTC-UserSig: " = ascii "X-TRTC-UserSig" ++ [0x3A, 0x20] := by decide
  simp only [fieldText] at happ huserSig
  simp only [requestHeaders, htext, List.append_assoc, List.cons_append, List.nil_append,
    List.mapM_cons, List.mapM_nil, htype, happ, huserSig]
  rfl

/-- A request with these headers and such a URL shows its UserSig, its id and its application. -/
theorem shownByHttp_eq {client : Client} {env : CallEnv} {path userSig : Bytes} {r : HttpRequest}
    (horigin : ∀ base, resolveHTTPEndpoint client.endpoint client.account.site = .ok base →
      0x3F ∉ base) (hpath : 0x3F ∉ path) (hsig : ∀ b ∈ userSig, isVchar b)
    (hurl : requestUrl client env path (generateUuid env.uuid) = .ok r.url)
    (hheaders : r.headers = requestHeaders client userSig) :
    shownByHttp r =
      some ⟨userSig, generateUuid env.uuid, some (toDec client.account.sdkAppId)⟩ := by
  unfold shownByHttp
  rw [hheaders, fieldLine_requestHeaders client hsig, parseQuery_requestUrl horigin hpath hurl]
  rfl

theorem doRequest_parts {deps : Deps} {client : Client} {env : CallEnv} {path body : Bytes}
    {r : HttpRequest} (h : doRequest deps client env path body = .ok r) :
    ∃ userSig, resolveUserSig deps client.account.toCredential (generateUuid env.uuid) env.now =
        .ok userSig ∧
      requestUrl client env path (generateUuid env.uuid) = .ok r.url ∧
      r.headers = requestHeaders client userSig := by
  obtain ⟨userSig, hsig, h⟩ := bind_eq_ok.1 h
  obtain ⟨url, hurl, h⟩ := bind_eq_ok.1 h
  cases h
  exact ⟨userSig, mapError_eq_ok.1 hsig, mapError_eq_ok.1 hurl, rfl⟩

/-- What is known of a request that goes out. -/
theorem request_parts {deps : Deps} {client : Client} {env : CallEnv} {r : HttpRequest}
    (h : (∃ req, recognizeRequest deps client env req = .ok r) ∨
      (∃ req, createTaskRequest deps client env req = .ok r) ∨
      ∃ id, describeTaskStatusRequest deps client env id = .ok r) :
    ∃ path userSig, 0x3F ∉ path ∧
      resolveUserSig deps client.account.toCredential (generateUuid env.uuid) env.now =
        .ok userSig ∧
      requestUrl client env path (generateUuid env.uuid) = .ok r.url ∧
      r.headers = requestHeaders client userSig := by
  rcases h with ⟨req, h⟩ | ⟨req, h⟩ | ⟨id, h⟩
  · obtain ⟨-, -, h⟩ := bind_eq_ok.1 h
    obtain ⟨userSig, hsig, h⟩ := bind_eq_ok.1 h
    obtain ⟨url, hurl, h⟩ := bind_eq_ok.1 h
    obtain ⟨body, -, h⟩ := bind_eq_ok.1 h
    cases h
    exact ⟨_, userSig, by decide, mapError_eq_ok.1 hsig, mapError_eq_ok.1 hurl, rfl⟩
  · obtain ⟨-, -, h⟩ := bind_eq_ok.1 h
    obtain ⟨body, -, h⟩ := bind_eq_ok.1 h
    obtain ⟨userSig, hparts⟩ := doRequest_parts h
    exact ⟨_, userSig, by decide, hparts⟩
  · obtain ⟨-, -, h⟩ := bind_eq_ok.1 h
    obtain ⟨body, -, h⟩ := bind_eq_ok.1 h
    obtain ⟨userSig, hparts⟩ := doRequest_parts h
    exact ⟨_, userSig, by decide, hparts⟩

end V2

/-! ## Admission -/

theorem validUtf8_ite {c : Prop} [Decidable c] {s t : Bytes} (hs : ValidUtf8 s) (ht : ValidUtf8 t) :
    ValidUtf8 (if c then s else t) := by
  split
  · exact hs
  · exact ht

/-- A UserSig has visible characters only. -/
theorem isVchar_genUserSig {compress2 : Bytes → Except ℤ Bytes} {app now : ℤ}
    {key id userSig : Bytes} (h : genUserSig compress2 app key id 86400 now = .ok userSig) :
    ∀ b ∈ userSig, isVchar b := by
  have hvisible : ∀ b, isTicketChar b → isVchar b := forall_byte (by decide +kernel)
  obtain ⟨-, -, h⟩ := bind_eq_ok.1 h
  obtain ⟨-, -, h⟩ := bind_eq_ok.1 h
  obtain ⟨out, -, h⟩ := bind_eq_ok.1 h
  cases h
  exact fun b hb => hvisible b (isTicketChar_encode out b hb)

section

variable {deps : Deps} {s : Service}
  (hinflate : ∀ data out, deps.compress2 data = .ok out → s.inflate out = some data)
include hinflate

/-- A request that shows the UserSig of `id`, the id and its application is admitted. -/
theorem admitted_of_shown {credential : Credential} {id userSig : Bytes} {time : ℤ}
    (hid : ValidUtf8 id) (hsig : credential.userSig = [] → genUserSig deps.compress2
      credential.sdkAppId credential.secretKey id 86400 time = .ok userSig)
    {sdkAppId : Option Bytes} (happ : ∀ text ∈ sdkAppId, text = toDec credential.sdkAppId) :
    Admitted s credential id time (some ⟨userSig, id, sdkAppId⟩) := by
  intro hfixed hkey
  refine ⟨_, rfl, rfl, fun now hfrom hto => admits_of_verify ?_ happ⟩
  exact verify_userSig hinflate hid hkey (hsig hfixed) hfrom hto

theorem v2Speech_admitted {o : V2.SpeechOptions} {env : V2.ConnectEnv} {nonce : Vector UInt8 16}
    {hs : V2.Handshake} (hplain : ∀ base,
      resolveWSEndpoint o.endpoint o.account.site = .ok base → PlainOrigin base)
    (hid : ValidUtf8 o.voiceId) (h : o.handshake deps env nonce = .ok hs) :
    Admitted s o.account.toCredential (o.sessionId env.uuid) env.now
      (shownByUpgrade hs.request) := by
  obtain ⟨target, userSig, params, pairs, hparse, -, -, hquery, hnodup, hparams, hmem, hvoice,
    hsig⟩ := V2.SpeechOptions.handshake_names hplain h
  have hshown : shownByUpgrade hs.request = some ⟨userSig, o.sessionId env.uuid,
      pairs.lookup (ascii "sdkappid")⟩ := by
    have husersig := lookup_of_mem hnodup ((hmem _).2 (.inr (.inr rfl)))
    unfold shownByUpgrade
    rw [hparse]
    simp only [Option.bind_eq_bind, Option.bind_some, hquery, husersig,
      lookup_of_mem hnodup hvoice]
    rfl
  rw [hshown]
  refine admitted_of_shown hinflate ?_ hsig fun text htext => ?_
  · exact validUtf8_ite (validUtf8_generateUuid _) hid
  · rcases (hmem _).1 (mem_of_lookup htext) with hmap | hsignature | husersig
    · exact V2.sdkAppId_of_mem hparams hmap
    · exact absurd (congrArg Prod.fst hsignature)
        (by decide : ascii "sdkappid" ≠ ascii "signature")
    · exact absurd (congrArg Prod.fst husersig)
        (by decide : ascii "sdkappid" ≠ ascii "usersig")

theorem v2Http_admitted {client : V2.Client} {env : V2.CallEnv} {r : HttpRequest}
    (horigin : ∀ base, resolveHTTPEndpoint client.endpoint client.account.site = .ok base →
      0x3F ∉ base)
    (h : (∃ req, V2.recognizeRequest deps client env req = .ok r) ∨
      (∃ req, V2.createTaskRequest deps client env req = .ok r) ∨
      ∃ id, V2.describeTaskStatusRequest deps client env id = .ok r) :
    Admitted s client.account.toCredential (generateUuid env.uuid) env.now (shownByHttp r) := by
  obtain ⟨path, userSig, hpath, hsig, hurl, hheaders⟩ := V2.request_parts h
  intro hfixed
  have hgen := V3.SpeechOptions.signs_of_resolveUserSig hsig hfixed
  rw [V2.shownByHttp_eq horigin hpath (isVchar_genUserSig hgen) hurl hheaders]
  refine admitted_of_shown hinflate (validUtf8_generateUuid _) (fun _ => hgen) ?_ hfixed
  exact fun text htext => (Option.some.inj htext).symm

theorem v3Speech_admitted {o : V3.SpeechOptions} {uuid : Vector UInt8 16} {now : ℤ}
    {prepared : V3.SpeechOptions.Prepared} (hid : ValidUtf8 o.voiceId)
    (h : o.startRequest deps uuid now = .ok prepared) :
    ∃ frame, deps.dump frame = .ok prepared.startFrame ∧
      Admitted s o.credential (o.sessionId uuid) now
        (shownByMessage "params" "voice_id" frame.reread) := by
  obtain ⟨-, -, h⟩ := bind_eq_ok.1 h
  obtain ⟨userSig, hsig, h⟩ := bind_eq_ok.1 h
  obtain ⟨text, htext, h⟩ := bind_eq_ok.1 h
  obtain ⟨-, -, h⟩ := bind_eq_ok.1 h
  obtain ⟨base, -, h⟩ := bind_eq_ok.1 h
  cases h
  refine ⟨_, mapError_eq_ok.1 htext, ?_⟩
  rw [shownByMessage_reread rfl rfl rfl (o.startFrame_voiceId _ userSig)]
  refine admitted_of_shown hinflate (validUtf8_ite (validUtf8_generateUuid _) hid)
    (V3.SpeechOptions.signs_of_resolveUserSig (mapError_eq_ok.1 hsig)) ?_
  exact fun text htext => (Option.some.inj htext).symm

theorem v3Http_admitted {client : V3.Client} {env : V3.CallEnv} {path : Bytes}
    {validate : Except ASRError Unit} {params : Json} {r : HttpRequest}
    (h : V3.offlineRequest deps client env path validate params = .ok r) :
    ∃ body, deps.dump body = .ok r.jsonBody ∧
      Admitted s client.credential (generateUuid env.uuid) env.now
        (shownByMessage "auth" "request_id" body.reread) := by
  obtain ⟨-, -, h⟩ := bind_eq_ok.1 h
  obtain ⟨body, hbody, h⟩ := bind_eq_ok.1 h
  obtain ⟨base, -, h⟩ := bind_eq_ok.1 h
  obtain ⟨text, htext, h⟩ := bind_eq_ok.1 h
  cases h
  obtain ⟨userSig, hsig, hbody⟩ := bind_eq_ok.1 (mapError_eq_ok.1 hbody)
  cases hbody
  refine ⟨_, mapError_eq_ok.1 htext, ?_⟩
  rw [shownByMessage_reread rfl rfl rfl rfl]
  refine admitted_of_shown hinflate (validUtf8_generateUuid _)
    (V3.SpeechOptions.signs_of_resolveUserSig hsig) ?_
  exact fun text htext => (Option.some.inj htext).symm

/-- **The requests that go out are admitted** by a service that follows the documented layout: each
    shows the id that it is for, and verifies as that id for the day that its UserSig lasts. -/
theorem requests_admitted : RequestsAdmitted deps s where
  v2Speech _ _ _ _ hplain hid h := v2Speech_admitted hinflate hplain hid h
  v2Http _ _ _ horigin h := v2Http_admitted hinflate horigin h
  v3Speech _ _ _ _ hid h := v3Speech_admitted hinflate hid h
  v3Http _ _ _ h := by
    rcases h with ⟨req, h⟩ | ⟨req, h⟩ | ⟨id, h⟩
    · exact v3Http_admitted hinflate h
    · exact v3Http_admitted hinflate h
    · exact v3Http_admitted hinflate h

end

/-- The service of the application of `sampleDoc`. -/
def sampleService : Service where
  inflate := sampleInflate
  secretKey app := if app = 1400000000 then some (ascii "key") else none

def sampleSigner : Deps := { sampleDeps [] with compress2 := sampleCompress2 }

/-- Options with an id that JSON and a query have to escape. -/
def sampleSigned : V2.SpeechOptions where
  account := { sdkAppId := 1400000000, secretKey := ascii "key", appId := 1300000000 }
  engineModelType := ascii "16k_zh"
  voiceId := utf8 "u\"\né".toList

def sampleDay : V2.ConnectEnv := ⟨.replicate 16 1, 1700000000, 1700000000, 7⟩

/-- The handshake of such a session is admitted, with the UserSig that zlib compresses. -/
theorem requests_admitted_quoted :
    ∃ hs sh, V2.SpeechOptions.handshake sampleSigner sampleSigned sampleDay (.replicate 16 1) =
        .ok hs ∧
      shownByUpgrade hs.request = some sh ∧ sh.id = utf8 "u\"\né".toList ∧
      sampleService.admits 1700086399 sh := by
  have hinflate : ∀ data out, sampleCompress2 data = .ok out → sampleInflate out = some data := by
    intro data out h
    obtain rfl := Except.ok.inj h
    by_cases hdoc : data = sampleDoc
    · rw [if_pos hdoc, sampleInflate, if_pos rfl, hdoc]
    · rw [if_neg hdoc, sampleInflate, if_neg (fun h => by cases (List.cons.inj h).1)]
      rfl
  have hadmitted := @requests_admitted sampleSigner sampleService hinflate
  obtain ⟨hs, hok⟩ : ∃ hs, V2.SpeechOptions.handshake sampleSigner sampleSigned sampleDay
      (.replicate 16 1) = .ok hs := ⟨_, rfl⟩
  obtain ⟨sh, hshown, hid, hday⟩ := hadmitted.v2Speech _ _ _ _
    (fun _ => V3.SpeechOptions.plainOrigin_of_site) ⟨_, rfl⟩ hok rfl rfl
  exact ⟨hs, sh, hok, hshown, hid, hday 1700086399 (by decide) (by decide)⟩

end TrtcAsr
