/-
  The UserSig ticket (usersig.cc, `GenUserSigAt` and `GenUserSig`).

  zlib's `compress2` is a parameter: it returns the compressed bytes or its error code.
-/
import TrtcAsr.Errors
import TrtcAsr.UserSig.Base64
import TrtcAsr.UserSig.Sha256

namespace TrtcAsr

def kDefaultExpire : ℤ := 86400 * 180

/-- `ZlibCompress`. -/
def zlibCompress (compress2 : Bytes → Except ℤ Bytes) (data : Bytes) : Except ASRError Bytes :=
  match compress2 data with
  | .ok out => .ok out
  | .error rc => invalidParam (ascii "zlib compress failed: " ++ toDec rc)

/-- A lower-case hexadecimal digit. -/
def hexDigit (n : ℕ) : UInt8 := (ascii "0123456789abcdef").getD n 0

/-- One character of `JsonEscape`. -/
def jsonEscapeChar (c : UInt8) : Bytes :=
  if c = 0x22 then ascii "\\\""
  else if c = 0x5C then ascii "\\\\"
  else if c = 0x0A then ascii "\\n"
  else if c = 0x0D then ascii "\\r"
  else if c = 0x09 then ascii "\\t"
  else if c < 0x20 then ascii "\\u00" ++ [hexDigit (c.toNat / 16), hexDigit (c.toNat % 16)]
  else [c]

def jsonEscape (s : Bytes) : Bytes := s.flatMap jsonEscapeChar

/-- `Base64UrlEncode`: the Tencent variant of base64url. -/
def base64UrlEncode (data : Bytes) : Bytes :=
  (base64Encode data).map fun c =>
    if c = 0x2B then 0x2A else if c = 0x2F then 0x2D else if c = 0x3D then 0x5F else c

/-- The text that the HMAC signs. -/
def userSigContent (sdkAppId : ℤ) (userId : Bytes) (expire now : ℤ) : Bytes :=
  ascii "TLS.identifier:" ++ userId ++ ascii "\n" ++
    ascii "TLS.sdkappid:" ++ toDec sdkAppId ++ ascii "\n" ++
    ascii "TLS.time:" ++ toDec now ++ ascii "\n" ++
    ascii "TLS.expire:" ++ toDec expire ++ ascii "\n"

/-- The document of the ticket, before it is compressed. -/
def userSigDoc (sdkAppId : ℤ) (key userId : Bytes) (expire now : ℤ) : Bytes :=
  ascii "\x7b" ++ ascii "\"TLS.ver\":\"2.0\"," ++
    ascii "\"TLS.identifier\":\"" ++ jsonEscape userId ++ ascii "\"," ++
    ascii "\"TLS.sdkappid\":" ++ toDec sdkAppId ++ ascii "," ++
    ascii "\"TLS.expire\":" ++ toDec expire ++ ascii "," ++
    ascii "\"TLS.time\":" ++ toDec now ++ ascii "," ++
    ascii "\"TLS.sig\":\"" ++
    base64Encode (hmacSha256 key (userSigContent sdkAppId userId expire now)) ++ ascii "\"" ++
    ascii "\x7d\n"

def genUserSigAt (compress2 : Bytes → Except ℤ Bytes) (sdkAppId : ℤ) (key userId : Bytes)
    (expire now : ℤ) : Except ASRError Bytes := do
  rejectIf (key = []) (ascii "secret key is empty")
  rejectIf (userId = []) (ascii "user id is empty")
  let out ← zlibCompress compress2 (userSigDoc sdkAppId key userId expire now)
  return base64UrlEncode out

/-- `GenUserSig`, called at the time `now`. -/
def genUserSig (compress2 : Bytes → Except ℤ Bytes) (sdkAppId : ℤ) (key userId : Bytes)
    (expire now : ℤ) : Except ASRError Bytes :=
  genUserSigAt compress2 sdkAppId key userId (if expire ≤ 0 then kDefaultExpire else expire) now

end TrtcAsr
