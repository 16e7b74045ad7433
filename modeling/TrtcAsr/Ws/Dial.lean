/-
  The endpoint of a connection and the upgrade request (ws_client.cc, `ParseWsUrl` and
  `WsClient::Connect`).

  * `parseWsUrl_origin`: a URL of a plain origin keeps what follows the origin as its
    target.
  * `upgradeRequest_eq`: the request is a request line with the target and five fields.
-/
import TrtcAsr.Lib.HttpHead
import TrtcAsr.UserSig.Base64

namespace TrtcAsr

structure UrlParts where
  secure : Bool
  host : Bytes
  port : ℤ
  target : Bytes
  deriving DecidableEq, Repr

/-- What stands before and after the last `c`. -/
def cutLast (c : UInt8) (s : Bytes) : Option (Bytes × Bytes) :=
  if c ∈ s then
    let after := (s.reverse.takeWhile (· ≠ c)).reverse
    some (s.take (s.length - after.length - 1), after)
  else none

/-- `ParseWsUrl` after the scheme. -/
def parseAuthority (secure : Bool) (rest : Bytes) : Except Bytes UrlParts :=
  let authority := rest.takeWhile (· ≠ 0x2F)
  let target := if 0x2F ∈ rest then rest.drop authority.length else [0x2F]
  let defaultPort := if secure then 443 else 80
  if authority = [] then .error (ascii "url has no host")
  else
    match cutLast 0x3A authority with
    | some (host, port) =>
      if 0x5D ∈ authority then .ok { secure, host := authority, port := defaultPort, target }
      else
        match stoi port with
        | some port => .ok { secure, host, port, target }
        | none => .error (ascii "invalid port")
    | none => .ok { secure, host := authority, port := defaultPort, target }

def parseWsUrl (url : Bytes) : Except Bytes UrlParts :=
  if (ascii "wss://").isPrefixOf url then parseAuthority true (url.drop 6)
  else if (ascii "ws://").isPrefixOf url then parseAuthority false (url.drop 5)
  else .error (ascii "unsupported scheme, want ws or wss")

/-- The upgrade request that is written once the transport is up; `key` encodes the nonce. -/
def upgradeRequest (parts : UrlParts) (key : Bytes) : Bytes :=
  ascii "GET " ++ parts.target ++ ascii " HTTP/1.1\r\n" ++
    ascii "Host: " ++ parts.host ++ ascii ":" ++ toDec parts.port ++ ascii "\r\n" ++
    ascii "Upgrade: websocket\r\n" ++
    ascii "Connection: Upgrade\r\n" ++
    ascii "Sec-WebSocket-Key: " ++ key ++ ascii "\r\n" ++
    ascii "Sec-WebSocket-Version: 13\r\n\r\n"

/-! ## Plain origins -/

/-- A character of a host name: neither a separator nor a bracket. -/
def isHostChar (b : UInt8) : Bool := isAlphaNum b || (ascii "-._~!$&'()*+,;=").contains b

/-- `ws://host`, `wss://host`, and these with a port. -/
def PlainOrigin (url : Bytes) : Prop :=
  ∃ scheme host port, url = scheme ++ (host ++ port) ∧
    (scheme = ascii "ws://" ∨ scheme = ascii "wss://") ∧
    (host ≠ [] ∧ ∀ b ∈ host, isHostChar b) ∧
    (port = [] ∨ ∃ digits, port = 0x3A :: digits ∧ digits ≠ [] ∧ ∀ b ∈ digits, isDigit b)

theorem mem_cutLast {c : UInt8} {s before after : Bytes} (h : cutLast c s = some (before, after)) :
    ∀ b ∈ before, b ∈ s := by
  unfold cutLast at h
  split at h
  · cases h
    exact fun b hb => List.mem_of_mem_take hb
  · cases h

/-- The characters of the host are visible, and the target is what follows the authority. -/
theorem parseAuthority_ok {secure : Bool} {authority rest : Bytes} {parts : UrlParts}
    (hauth : ∀ b ∈ authority, b ≠ 0x2F) (hvis : ∀ b ∈ authority, isVchar b)
    (h : parseAuthority secure (authority ++ 0x2F :: rest) = .ok parts) :
    parts.target = 0x2F :: rest ∧ ∀ b ∈ parts.host, isVchar b := by
  have htake : (authority ++ 0x2F :: rest).takeWhile (· ≠ 0x2F) = authority := by
    rw [List.takeWhile_append_of_pos fun b hb => decide_eq_true (hauth b hb)]
    simp
  unfold parseAuthority at h
  simp only [htake] at h
  have htarget : (if (0x2F : UInt8) ∈ authority ++ 0x2F :: rest
      then (authority ++ 0x2F :: rest).drop authority.length else [0x2F]) = 0x2F :: rest := by
    rw [if_pos (by simp)]; simp
  rw [htarget] at h
  split at h
  · cases h
  split at h
  · rename_i host port hcut
    split at h
    · cases h; exact ⟨rfl, hvis⟩
    · split at h
      · cases h; exact ⟨rfl, fun b hb => hvis b (mem_cutLast hcut b hb)⟩
      · cases h
  · cases h; exact ⟨rfl, hvis⟩

/-- **The target of a URL under a plain origin** is what follows the origin. -/
theorem parseWsUrl_origin {origin target : Bytes} {parts : UrlParts} (ho : PlainOrigin origin)
    (ht : target.head? = some 0x2F) (h : parseWsUrl (origin ++ target) = .ok parts) :
    parts.target = target ∧ ∀ b ∈ parts.host, isVchar b := by
  obtain ⟨rest, rfl⟩ : ∃ rest, target = 0x2F :: rest := by
    cases target with
    | nil => cases ht
    | cons b rest => cases ht; exact ⟨rest, rfl⟩
  obtain ⟨scheme, host, port, rfl, hscheme, ⟨-, hhost⟩, hport⟩ := ho
  have hchar : ∀ b, isHostChar b → b ≠ 0x2F ∧ isVchar b := forall_byte (by decide +kernel)
  have hdigit : ∀ b, isDigit b → b ≠ 0x2F ∧ isVchar b := forall_byte (by decide +kernel)
  have hauth : ∀ b ∈ host ++ port, b ≠ 0x2F ∧ isVchar b := by
    intro b hb
    rcases List.mem_append.1 hb with hb | hb
    · exact hchar b (hhost b hb)
    rcases hport with rfl | ⟨digits, rfl, -, hdigits⟩
    · cases hb
    rcases List.mem_cons.1 hb with rfl | hb
    · exact ⟨by decide, by decide⟩
    · exact hdigit b (hdigits b hb)
  rw [List.append_assoc] at h
  rcases hscheme with rfl | rfl
  · exact parseAuthority_ok (fun b hb => (hauth b hb).1) (fun b hb => (hauth b hb).2) h
  · exact parseAuthority_ok (fun b hb => (hauth b hb).1) (fun b hb => (hauth b hb).2) h

/-! ## The request as a head -/

/-- The five fields of the upgrade request. -/
def upgradeFields (parts : UrlParts) (key : Bytes) : List (Bytes × Bytes) :=
  [(ascii "Host", parts.host ++ ascii ":" ++ toDec parts.port),
    (ascii "Upgrade", ascii "websocket"),
    (ascii "Connection", ascii "Upgrade"),
    (ascii "Sec-WebSocket-Key", key),
    (ascii "Sec-WebSocket-Version", ascii "13")]

theorem upgradeRequest_eq (parts : UrlParts) (key : Bytes) :
    upgradeRequest parts key =
      headText (ascii "GET") parts.target (ascii "HTTP/1.1") (upgradeFields parts key) := by
  have h1 : ascii "GET " = ascii "GET" ++ [0x20] := by decide
  have h2 : ascii " HTTP/1.1\r\n" = 0x20 :: (ascii "HTTP/1.1" ++ crlf) := by decide
  have h3 : ascii "Host: " = ascii "Host" ++ [0x3A, 0x20] := by decide
  have h4 : ascii "\r\n" = crlf := by decide
  have h5 : ascii "Upgrade: websocket\r\n" =
    ascii "Upgrade" ++ 0x3A :: 0x20 :: (ascii "websocket" ++ crlf) := by decide
  have h6 : ascii "Connection: Upgrade\r\n" =
    ascii "Connection" ++ 0x3A :: 0x20 :: (ascii "Upgrade" ++ crlf) := by decide
  have h7 : ascii "Sec-WebSocket-Key: " = ascii "Sec-WebSocket-Key" ++ [0x3A, 0x20] := by decide
  have h8 : ascii "Sec-WebSocket-Version: 13\r\n\r\n" =
    ascii "Sec-WebSocket-Version" ++ 0x3A :: 0x20 :: (ascii "13" ++ crlf ++ crlf) := by decide
  simp only [upgradeRequest, headText, upgradeFields, fieldText, List.flatMap_cons,
    List.flatMap_nil, h1, h2, h3, h4, h5, h6, h7, h8, List.append_assoc, List.cons_append,
    List.nil_append, List.append_nil]

theorem isVchar_base64 (data : Bytes) : ∀ b ∈ base64Encode data, isVchar b := by
  have hchar : ∀ v, isVchar (b64Char v) := by
    intro v
    have hall : ∀ i < 64, isVchar (kB64Alphabet.getD i 0) := by decide +kernel
    refine hall _ ?_
    have : v &&& 0x3F ≤ 0x3F := Nat.and_le_right
    omega
  induction data using base64Encode.induct with
  | case1 => simp [base64Encode]
  | case2 a => simp [base64Encode, hchar, show isVchar 0x3D by decide]
  | case3 a b => simp [base64Encode, hchar, show isVchar 0x3D by decide]
  | case4 a b c data ih =>
    intro x hx
    rw [base64Encode] at hx
    rcases List.mem_append.1 hx with hx | hx
    · simp only [List.mem_cons, List.not_mem_nil, or_false] at hx
      rcases hx with rfl | rfl | rfl | rfl
      · exact hchar _
      · exact hchar _
      · exact hchar _
      · exact hchar _
    · exact ih x hx

theorem plainField_upgradeFields {parts : UrlParts} (hhost : ∀ b ∈ parts.host, isVchar b)
    (nonce : Bytes) : ∀ f ∈ upgradeFields parts (base64Encode nonce), PlainField f := by
  have hport : ∀ b ∈ toDec parts.port, isVchar b := by
    intro b hb
    have hdigit : ∀ b, isDigit b ∨ b = 0x2D → isVchar b := forall_byte (by decide +kernel)
    exact hdigit b (mem_toDec hb)
  have hname : ∀ name : Bytes, (name ≠ [] ∧ name.all isTchar) →
      name ≠ [] ∧ ∀ b ∈ name, isTchar b := fun name h => ⟨h.1, List.all_eq_true.1 h.2⟩
  have hvalue : ∀ value : Bytes, value.all isVchar → ∀ b ∈ value, isVchar b :=
    fun value h => List.all_eq_true.1 h
  intro f hf
  simp only [upgradeFields, List.mem_cons, List.not_mem_nil, or_false] at hf
  rcases hf with rfl | rfl | rfl | rfl | rfl
  · refine ⟨hname (ascii "Host") (by decide), fun b hb => ?_⟩
    rcases List.mem_append.1 hb with hb | hb
    · rcases List.mem_append.1 hb with hb | hb
      · exact hhost b hb
      · exact hvalue (ascii ":") (by decide) b hb
    · exact hport b hb
  · exact ⟨hname _ (by decide), hvalue _ (by decide)⟩
  · exact ⟨hname _ (by decide), hvalue _ (by decide)⟩
  · exact ⟨hname (ascii "Sec-WebSocket-Key") (by decide), isVchar_base64 nonce⟩
  · exact ⟨hname _ (by decide), hvalue _ (by decide)⟩

end TrtcAsr
