/-
  The upgrade of a connection (ws_client.cc, the last part of `WsClient::Connect`):
  the loop that reads the response header byte by byte, and the checks of the header.
-/
import Mathlib.Data.List.Infix
import TrtcAsr.Lib.HttpHead
import TrtcAsr.UserSig.Base64
import TrtcAsr.Ws.Transport

namespace TrtcAsr

/-- The end of an HTTP header. -/
def crlfcrlf : Bytes := [0x0D, 0x0A, 0x0D, 0x0A]

/-- `std::string::find(pat) != npos`. -/
def found (pat s : Bytes) : Bool := decide (pat <:+: s)

/-- The line of the response that is looked for; `sha1` is OpenSSL's `SHA1`. -/
def acceptLine (sha1 : Bytes → Bytes) (key : Bytes) : Bytes :=
  ascii "Sec-WebSocket-Accept: " ++
    base64Encode (sha1 (key ++ ascii "258EAFA5-E914-47DA-95CA-C5AB0DC85B11"))

/-- The loop over the response header: at its test, or in the `ReadExact` of one byte. -/
structure UpgradeRead where
  deadline : ℤ
  want : Bytes
  resp : Bytes := []
  byte : Option ReadExact := none
  deriving DecidableEq, Repr

/-- The result of one pass: another pass, a client, or no client and `*err`. -/
inductive UpgradePass where
  | again (u : UpgradeRead)
  | ok
  | error (what : Bytes)
  deriving DecidableEq, Repr

/-- The text before the first line end. -/
def firstLine : Bytes → Bytes
  | [] => []
  | b :: s => if crlf.isPrefixOf (b :: s) then [] else b :: firstLine s

/-- The checks of a complete header. -/
def UpgradeRead.check (u : UpgradeRead) : UpgradePass :=
  if ¬ found (ascii " 101") u.resp then
    .error (ascii "websocket handshake rejected: " ++ firstLine u.resp)
  else if ¬ found u.want u.resp then .error (ascii "websocket handshake accept key mismatch")
  else .ok

/-- One pass of the loop over the header. -/
def WsClient.upgradePass (c : WsClient) (u : UpgradeRead) (t : Tick) : WsClient × UpgradePass :=
  match u.byte with
  | none =>
    if found crlfcrlf u.resp then (c, u.check)
    else if toInt32 (u.deadline - t.now) ≤ 0 then (c, .error (ascii "websocket handshake timeout"))
    else (c, .again { u with byte := some { n := 1, deadline := u.deadline } })
  | some e =>
    match c.readExactPass e t with
    | (c, .again e) => (c, .again { u with byte := some e })
    | (c, .ok buf) =>
      let resp := u.resp ++ buf
      if resp.length > 64 * 1024 then
        (c, .error (ascii "websocket handshake response too large"))
      else (c, .again { u with resp := resp, byte := none })
    | (c, _) => (c, .error (ascii "websocket handshake read failed"))

/-- The header `h` of an accepted response: it ends at its first empty line, it is at most 64 KiB
    long, its status is 101 and it carries the accept line. -/
structure AcceptedHeader (want h : Bytes) : Prop where
  ends : found crlfcrlf h = true
  first : ∀ p, p <+: h → p ≠ h → found crlfcrlf p = false
  length_le : h.length ≤ 64 * 1024
  status : found (ascii " 101") h = true
  accept : found want h = true

end TrtcAsr
