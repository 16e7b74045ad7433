/-
  The HTTP client (http_client.cc, `HttpPost`).

  What libcurl does with a request is a parameter: it cannot create a handle, or the
  transfer fails with an error, or it ends with a status and a body.
-/
import TrtcAsr.Errors

namespace TrtcAsr

structure HttpRequest where
  url : Bytes
  jsonBody : Bytes
  headers : List Bytes
  timeoutSeconds : ℤ
  deriving DecidableEq, Repr

structure HttpResponse where
  status : ℤ := 0
  body : Bytes := []
  deriving DecidableEq, Repr

/-- The outcome of a transfer; a failed one may have received part of a body. -/
inductive CurlOutcome where
  | initFailed
  | failed (strerror body : Bytes)
  | done (status : ℤ) (body : Bytes)
  deriving DecidableEq, Repr

/-- The transport fails: no handle, or an error code of curl. -/
def CurlOutcome.Failed : CurlOutcome → Prop
  | done _ _ => False
  | _ => True

/-- `HttpPost(url, json_body, headers, timeout_seconds, err)`; `err` tells whether the pointer
    is non-null, and the second result is what is written through it. -/
def httpPost (curl : HttpRequest → CurlOutcome) (req : HttpRequest) (err : Bool) :
    Except Exn (HttpResponse × Option Bytes) :=
  match curl req with
  | .initFailed =>
    if err then .ok ({}, some (ascii "curl init failed")) else .error .nullWrite
  | .failed strerror body =>
    if err then .ok ({ status := 0, body := body }, some (ascii "http request failed: " ++ strerror))
    else .error .nullWrite
  | .done status body => .ok ({ status := status, body := body }, none)

end TrtcAsr
