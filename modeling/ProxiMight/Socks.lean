import ProxiMight.CString
import ProxiMight.Types

/-!
# SOCKS messages (`pmx_socks.c`)

Each builder writes one message into a buffer of `cap` bytes or fails; each parser looks at the bytes of
one reply.  A host that is a dotted IPv4 literal goes as an address, any other as a name.
-/

namespace ProxiMight

open CString

/-! ### IPv4 literals -/

/-- `UINT_MAX`. -/
def uintMax : ℕ := 4294967295

/-- How far `sscanf` counts. -/
def scanMax : ℕ := 18446744073709551615

/-- `%u` of `sscanf`: a number with an optional sign, and what follows it.  The C library reads it in 64
bits, out of range as the largest, and stores the lower half. -/
def scanUnsigned (s : List UInt8) : Option (ℕ × List UInt8) :=
  let signed := takeSign (s.dropWhile isSpace)
  let v := digitsVal (signed.2.takeWhile isDigit)
  if (signed.2.takeWhile isDigit).isEmpty then none
  else
    some ((if v > scanMax then scanMax
        else if signed.1 then (scanMax + 1 - v) % (scanMax + 1) else v) % (uintMax + 1),
      signed.2.dropWhile isDigit)

/-- A `.` of the format. -/
def scanDot : List UInt8 → Option (List UInt8)
  | 46 :: rest => some rest
  | _ => none

/-- `parse_ipv4`: four numbers up to 255 between dots, and nothing after them. -/
def parseIpv4 (host : CStr) : Option (List UInt8) := do
  let (a, s) ← scanUnsigned host.str
  let (b, s) ← scanUnsigned (← scanDot s)
  let (c, s) ← scanUnsigned (← scanDot s)
  let (d, s) ← scanUnsigned (← scanDot s)
  if s ≠ [] ∨ a > 255 ∨ b > 255 ∨ c > 255 ∨ d > 255 then none
  else some [UInt8.ofNat a, UInt8.ofNat b, UInt8.ofNat c, UInt8.ofNat d]

/-- `put_port_be`. -/
def putPortBe (port : PmxPort) : List UInt8 :=
  [UInt8.ofNat (port.toNat / 256), UInt8.ofNat port.toNat]

/-! ### SOCKS5 -/

def pmxSocks5BuildGreeting (cap : ℕ) (withAuth : Bool) : Except PmxStatus (List UInt8) :=
  let need := if withAuth then 4 else 3
  if cap < need then .error .errInvalidArg
  else .ok (if withAuth then [5, 2, 0, 2] else [5, 1, 0])

def pmxSocks5BuildUserpass (cap : ℕ) (user pass : List UInt8) : Except PmxStatus (List UInt8) :=
  if user.length > 255 ∨ pass.length > 255 then .error .errInvalidArg
  else if cap < 1 + 1 + user.length + 1 + pass.length then .error .errInvalidArg
  else .ok ([1, UInt8.ofNat user.length] ++ user ++ [UInt8.ofNat pass.length] ++ pass)

def pmxSocks5BuildConnect (cap : ℕ) (host : CStr) (port : PmxPort) : Except PmxStatus (List UInt8) :=
  match parseIpv4 host with
  | some ip4 =>
    if cap < 4 + 4 + 2 then .error .errInvalidArg else .ok ([5, 1, 0, 1] ++ ip4 ++ putPortBe port)
  | none =>
    if host.str.length > 255 then .error .errInvalidArg
    else if cap < 4 + 1 + host.str.length + 2 then .error .errInvalidArg
    else .ok ([5, 1, 0, 3, UInt8.ofNat host.str.length] ++ host.str ++ putPortBe port)

/-- The status, and the method the server chose. -/
def pmxSocks5ParseMethod (buf : List UInt8) : PmxStatus × UInt8 :=
  match buf with
  | b0 :: b1 :: _ =>
    if b0 ≠ 5 then (.errProxyHandshake, 0)
    else if b1 = 0xFF then (.errProxyAuth, b1)
    else (.ok, b1)
  | _ => (.errParse, 0)

def pmxSocks5ParseConnectReply (buf : List UInt8) : PmxStatus :=
  match buf with
  | _ :: b1 :: _ =>
    if b1 = 0 then .ok
    else if b1 = 2 then .errPermission
    else if b1 = 3 ∨ b1 = 4 then .errNet
    else if b1 = 5 then .errConnRefused
    else .errProxyRefused
  | _ => .errParse

/-! ### SOCKS4 -/

def pmxSocks4BuildConnect (cap : ℕ) (host : CStr) (port : PmxPort) (socks4a : Bool)
    (userid : List UInt8) : Except PmxStatus (List UInt8) :=
  match parseIpv4 host with
  | some ip4 =>
    if cap < 1 + 1 + 2 + 4 + userid.length + 1 then .error .errInvalidArg
    else .ok ([4, 1] ++ putPortBe port ++ ip4 ++ userid ++ [0])
  | none =>
    if !socks4a then .error .errUnsupported
    else if cap < 1 + 1 + 2 + 4 + userid.length + 1 + (host.str.length + 1) then
      .error .errInvalidArg
    else .ok ([4, 1] ++ putPortBe port ++ [0, 0, 0, 1] ++ userid ++ [0] ++ host.str ++ [0])

def pmxSocks4ParseReply (buf : List UInt8) : PmxStatus :=
  if buf.length < 8 then .errParse
  else
    match buf with
    | _ :: b1 :: _ =>
      if b1 = 0x5A then .ok
      else if b1 = 0x5B then .errProxyRefused
      else if b1 = 0x5C then .errProxyHandshake
      else if b1 = 0x5D then .errProxyAuth
      else .errProxyHandshake
    | _ => .errParse

example : parseIpv4 (strlcpy 16 (bytes "127.0.0.1")).toCStr = some [127, 0, 0, 1] := by decide

example : parseIpv4 (strlcpy 16 (bytes "127.0.0.1.")).toCStr = none := by decide

example : parseIpv4 (strlcpy 32 (bytes "4294967297.2.3.4")).toCStr = some [1, 2, 3, 4] := by decide

end ProxiMight
