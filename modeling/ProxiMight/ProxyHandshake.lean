import ProxiMight.HttpConnect
import ProxiMight.Net
import ProxiMight.Profile
import ProxiMight.Socks

/-!
# The proxy handshakes (`pmx_proxy.c`)

Each client asks the proxy at the other end of a socket for a connection to `host:port`.  A call that
fails ends the handshake with its status.
-/

namespace ProxiMight

open CString

/-! ### SOCKS -/

/-- The second half of `socks5_handshake`: the request, and the reply with its bound address. -/
def socks5Connect (host : CStr) (port : PmxPort) (w : Wire) : PmxStatus × Wire :=
  building (pmxSocks5BuildConnect 512 host port) w fun request =>
  sending request w fun w =>
  receiving 4 w fun head w =>
  if pmxSocks5ParseConnectReply head ≠ .ok then (pmxSocks5ParseConnectReply head, w)
  else
    match head.getD 3 0 with
    | 1 => receiving (4 + 2) w fun _ w => (.ok, w)
    | 4 => receiving (16 + 2) w fun _ w => (.ok, w)
    | 3 =>
      receiving 1 w fun l w =>
      receiving ((l.headD 0).toNat + 2) w fun _ w => (.ok, w)
    | _ => (.errProxyHandshake, w)

/-- The user and password message, and the server's answer. -/
def socks5Authenticate (p : PmxProxy) (w : Wire) (k : Wire → PmxStatus × Wire) : PmxStatus × Wire :=
  building (pmxSocks5BuildUserpass 512 p.username.str p.password.str) w fun msg =>
  sending msg w fun w =>
  receiving 2 w fun answer w =>
  if answer.getD 1 0 ≠ 0 then (.errProxyAuth, w) else k w

/-- What follows the reply to the greeting. -/
def socks5AfterMethod (p : PmxProxy) (host : CStr) (port : PmxPort) (reply : List UInt8) (w : Wire) :
    PmxStatus × Wire :=
  let r := pmxSocks5ParseMethod reply
  if r.1 ≠ .ok then (r.1, w)
  -- the method is taken as the server names it, whether it was offered or not
  else if r.2 = 2 then socks5Authenticate p w (socks5Connect host port)
  else if r.2 ≠ 0 then (.errProxyAuth, w)
  else socks5Connect host port w

def socks5Handshake (p : PmxProxy) (host : CStr) (port : PmxPort) (w : Wire) : PmxStatus × Wire :=
  building (pmxSocks5BuildGreeting 512 p.useAuth) w fun greeting =>
  sending greeting w fun w =>
  receiving 2 w (socks5AfterMethod p host port)

def socks4Handshake (p : PmxProxy) (host : CStr) (port : PmxPort) (w : Wire) : PmxStatus × Wire :=
  let userid := if p.useAuth then p.username.str else []
  building (pmxSocks4BuildConnect 512 host port (decide (p.type = .socks4a)) userid) w fun request =>
  sending request w fun w =>
  receiving 8 w fun reply w => (pmxSocks4ParseReply reply, w)

/-! ### HTTP -/

/-- The size of the buffer `resp`, less its terminator. -/
def httpReplyCap : ℕ := 1023

/-- The loop of `http_handshake`: the attempts left, and what `resp` holds. -/
def httpReplyLoop : ℕ → List UInt8 → Wire → PmxStatus × Wire
  | 0, _, w => (.errProxyHandshake, w)
  | attempts + 1, resp, w =>
    match pmxRecvSome w (httpReplyCap - resp.length) with
    | (.error st, w) => (st, w)
    | (.ok got, w) =>
      let parsed := (pmxHttpParseConnectReply (resp ++ got)).1
      if parsed ≠ .errParse then (parsed, w)
      else if (resp ++ got).length ≥ httpReplyCap then (.errProxyHandshake, w)
      else httpReplyLoop attempts (resp ++ got) w

/-- The request `http_handshake` builds. -/
def httpRequest (p : PmxProxy) (host : CStr) (port : PmxPort) : Except PmxStatus (List UInt8) :=
  pmxHttpBuildConnect 1024 host port (if p.useAuth then some p.username.toCStr else none)
    (if p.useAuth then some p.password.toCStr else none)

def httpHandshake (p : PmxProxy) (host : CStr) (port : PmxPort) (w : Wire) : PmxStatus × Wire :=
  building (httpRequest p host port) w fun request =>
  sending request w fun w => httpReplyLoop 8 [] w

def pmxProxyHandshake (p : PmxProxy) (host : CStr) (port : PmxPort) (w : Wire) : PmxStatus × Wire :=
  match p.type with
  | .socks5 => socks5Handshake p host port w
  | .socks4 => socks4Handshake p host port w
  | .socks4a => socks4Handshake p host port w
  | .http => httpHandshake p host port w
  | .https => (.errUnsupported, w)
  | .other _ => (.errInvalidArg, w)

end ProxiMight
