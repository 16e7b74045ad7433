/-
  Credentials and the endpoints they select (credential.h), the telemetry of the SDK
  (sdkinfo.cc) and the UUIDs it generates (ws_client.cc, `GenerateUuid`).
-/
import TrtcAsr.UserSig.Ticket

namespace TrtcAsr

/-- The third-party functions the SDK calls: `nlohmann::json::parse` with the text of its
    `parse_error`, the text of the other exceptions, `dump`, and zlib's `compress2`. -/
structure Deps where
  parse : Bytes → Except Bytes Json
  what : JsonError → Bytes
  dump : Json → Except JsonError Bytes
  compress2 : Bytes → Except ℤ Bytes

structure Credential where
  sdkAppId : ℤ
  secretKey : Bytes
  userSig : Bytes := []
  site : Bytes := []
  deriving DecidableEq, Repr

/-- `std::tolower` in the C locale. -/
def toLower (c : UInt8) : UInt8 := if 0x41 ≤ c ∧ c ≤ 0x5A then c + 0x20 else c

/-! For the runs on fixed inputs: a parser that knows the texts it is given. -/

def sampleDeps (texts : List (Bytes × Json)) : Deps where
  parse body := match texts.lookup body with
    | some data => .ok data
    | none => .error (ascii "parse error")
  what _ := ascii "type error"
  dump _ := .ok []
  compress2 text := .ok text

def sampleCredential : Credential where
  sdkAppId := 1400000000
  secretKey := ascii "key"
  userSig := ascii "sig"

/-- A string without the white space at its two ends. -/
def trim (s : Bytes) : Bytes := ((s.dropWhile isSpace).reverse.dropWhile isSpace).reverse

def kHostCN : Bytes := ascii "asr.cloud-rtc.com"
def kHostIntl : Bytes := ascii "asr-intl.cloud-rtc.com"

def hostForSite (original : Bytes) : Except ASRError Bytes :=
  let site := (trim original).map toLower
  if site = [] ∨ site = ascii "cn" then .ok kHostCN
  else if site = ascii "intl" then .ok kHostIntl
  else invalidParam (ascii "unsupported site \"" ++ original ++
    ascii "\", want \"cn\" or \"intl\"")

def resolveWSEndpoint (overrideEp site : Bytes) : Except ASRError Bytes :=
  if overrideEp ≠ [] then .ok overrideEp else (hostForSite site).map (ascii "wss://" ++ ·)

def resolveHTTPEndpoint (overrideEp site : Bytes) : Except ASRError Bytes :=
  if overrideEp ≠ [] then .ok overrideEp else (hostForSite site).map (ascii "https://" ++ ·)

/-- The UserSig of a request: the one of the credential, or one signed for `userId`. -/
def resolveUserSig (deps : Deps) (credential : Credential) (userId : Bytes) (now : ℤ) :
    Except ASRError Bytes :=
  if credential.userSig ≠ [] then .ok credential.userSig
  else
    match genUserSig deps.compress2 credential.sdkAppId credential.secretKey userId 86400 now with
    | .ok userSig => .ok userSig
    | .error e => .error ⟨kErrAuthFailed, ascii "generate user sig failed: " ++ e.message⟩

/-- `SdkPlatform`, in a build for Linux. -/
def sdkPlatform : Bytes := ascii "linux"

/-- `SdkReportParams`, as JSON. -/
def sdkReportParams : Json :=
  .obj <| Members.empty
    |>.put "platform" (.str sdkPlatform)
    |>.put "sdk_lang" (.str (ascii "cpp"))
    |>.put "sdk_type" (.str (ascii "server"))
    |>.put "version" (.str (ascii "2.0.0"))

/-- `"%02x"`. -/
def hexByte (b : UInt8) : Bytes := [hexDigit (b.toNat / 16), hexDigit (b.toNat % 16)]

/-- `GenerateUuid`, from the 16 random bytes `b`. -/
def generateUuid (b : Vector UInt8 16) : Bytes :=
  let b6 := (b[6] &&& 0x0F) ||| 0x40
  let b8 := (b[8] &&& 0x3F) ||| 0x80
  [b[0], b[1], b[2], b[3]].flatMap hexByte ++ ascii "-" ++
    [b[4], b[5]].flatMap hexByte ++ ascii "-" ++
    [b6, b[7]].flatMap hexByte ++ ascii "-" ++
    [b8, b[9]].flatMap hexByte ++ ascii "-" ++
    [b[10], b[11], b[12], b[13], b[14], b[15]].flatMap hexByte

end TrtcAsr
