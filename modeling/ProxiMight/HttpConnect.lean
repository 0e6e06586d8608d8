import Mathlib.Algebra.Group.Nat.Defs
import ProxiMight.CString
import ProxiMight.Types

/-!
# The HTTP CONNECT client (`pmx_http_connect.c`)

The request is written into a fixed buffer, credentials and all, or not at all.  The reply is read from
the bytes received so far: `PMX_ERR_PARSE` says that the status line is not there yet.
-/

namespace ProxiMight

open CString

/-! ### Base64 -/

/-- `B64`. -/
def b64Alphabet : List UInt8 :=
  bytes "ABCDEFGHIJKLMNOPQRSTUVWXYZabcdefghijklmnopqrstuvwxyz0123456789+/"

/-- `B64[n & 0x3F]`. -/
def b64Char (n : ℕ) : UInt8 := b64Alphabet.getD (n % 64) 0

/-- The loop over groups of three bytes, and the one or two that are left. -/
def base64Text : List UInt8 → List UInt8
  | a :: b :: c :: rest =>
    let n := a.toNat * 2 ^ 16 + b.toNat * 2 ^ 8 + c.toNat
    b64Char (n / 2 ^ 18) :: b64Char (n / 2 ^ 12) :: b64Char (n / 2 ^ 6) :: b64Char n ::
      base64Text rest
  | [a, b] =>
    let n := a.toNat * 2 ^ 16 + b.toNat * 2 ^ 8
    [b64Char (n / 2 ^ 18), b64Char (n / 2 ^ 12), b64Char (n / 2 ^ 6), 61]
  | [a] =>
    let n := a.toNat * 2 ^ 16
    [b64Char (n / 2 ^ 18), b64Char (n / 2 ^ 12), 61, 61]
  | [] => []

/-- `pmx_base64_encode` into a buffer of `cap` bytes. -/
def pmxBase64Encode (input : List UInt8) (cap : ℕ) : Except PmxStatus (List UInt8) :=
  if cap < (input.length + 2) / 3 * 4 + 1 then .error .errInvalidArg else .ok (base64Text input)

/-! ### The request -/

/-- `%u`. -/
def decimal (n : ℕ) : List UInt8 := bytes (toString n)

/-- The `Proxy-Authorization` line, cut to the size of its buffer; no line without a user. -/
def authHeader (user pass : Option CStr) : Except PmxStatus (List UInt8) :=
  match user with
  | none => .ok []
  | some user =>
    if user.str.isEmpty then .ok []
    else
      let creds := user.str ++ bytes ":" ++ (pass.map CStr.str).getD []
      if creds.length ≥ pmxMaxUser + pmxMaxPass + 2 then .error .errInvalidArg
      else
        match pmxBase64Encode creds ((pmxMaxUser + pmxMaxPass + 2 + 2) / 3 * 4 + 4) with
        | .error st => .error st
        | .ok b64 => .ok ((bytes "Proxy-Authorization: Basic " ++ b64 ++ bytes "\r\n").take 511)

/-- `pmx_http_build_connect` into a buffer of `cap` bytes. -/
def pmxHttpBuildConnect (cap : ℕ) (host : CStr) (port : PmxPort) (user pass : Option CStr) :
    Except PmxStatus (List UInt8) :=
  match authHeader user pass with
  | .error st => .error st
  | .ok auth =>
    let target := host.str ++ bytes ":" ++ decimal port.toNat
    let request := bytes "CONNECT " ++ target ++ bytes " HTTP/1.1\r\nHost: " ++ target ++
      bytes "\r\nProxy-Connection: keep-alive\r\n" ++ auth ++ bytes "\r\n"
    if request.length ≥ cap then .error .errInvalidArg else .ok request

/-! ### The reply -/

/-- The space character. -/
def space : UInt8 := 32

/-- The digits of the status code: three of them, or no code. -/
def statusCode (s : List UInt8) : Option ℕ :=
  if (s.takeWhile isDigit).length ≥ 3 then some (digitsVal (s.take 3)) else none

/-- What the code of a reply means. -/
def statusOfCode (code : ℕ) : PmxStatus :=
  if 200 ≤ code ∧ code < 300 then .ok
  else if code = 407 then .errProxyAuth
  else .errProxyRefused

/-- `pmx_http_parse_connect_reply`: the status, and the code where there is one. -/
def pmxHttpParseConnectReply (buf : List UInt8) : PmxStatus × Option ℕ :=
  if buf.length < 12 then (.errParse, none)
  else if buf.take 5 ≠ bytes "HTTP/" then (.errParse, none)
  else
    let afterVersion := buf.dropWhile (· != space)
    if afterVersion.length < 4 then (.errParse, none)
    else
      match statusCode (afterVersion.drop 1) with
      | none => (.errParse, none)
      | some code => (statusOfCode code, some code)

end ProxiMight
