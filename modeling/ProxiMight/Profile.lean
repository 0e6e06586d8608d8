import ProxiMight.Lockdown
import ProxiMight.Rule
import ProxiMight.SlotTable
import ProxiMight.Vpn

/-!
# Profiles: proxies, chains, rules, VPNs and settings (`pmx_profile.c`, `pmx_proxy.c`, `pmx_chain.c`)

A growable array of the source is the list of its elements.  A chain's hops fit its array, which every
way of filling one respects.
-/

namespace ProxiMight

open CString

/-- `pmx_proxy_type`; a profile file may carry any other integer. -/
inductive PmxProxyType
  | socks5
  | socks4
  | socks4a
  | http
  | https
  | other (raw : Undeclared 4)
  deriving DecidableEq

/-- `pmx_proxy`. -/
structure PmxProxy where
  id : PmxId
  label : CBuf pmxMaxLabel
  type : PmxProxyType
  host : CBuf pmxMaxHost
  port : PmxPort
  useAuth : Bool
  username : CBuf pmxMaxUser
  password : CBuf pmxMaxPass
  enabled : Bool
  deriving DecidableEq

def pmxProxyInit : PmxProxy where
  id := pmxIdNone
  label := strlcpy pmxMaxLabel (bytes "New proxy")
  type := .socks5
  host := .empty
  port := 1080
  useAuth := false
  username := .empty
  password := .empty
  enabled := true

def pmxProxyTypeShort : PmxProxyType → String
  | .socks5 => "socks5"
  | .socks4 => "socks4"
  | .socks4a => "socks4a"
  | .http => "http"
  | .https => "https"
  | .other _ => "?"

/-- `strcasecmp(a, b) == 0`. -/
def sameIgnoringCase (a b : List UInt8) : Bool := a.map toLower == b.map toLower

/-- The first type, in the order of the enumeration, whose short name is `s` in any case. -/
def pmxProxyTypeFromStr (s : List UInt8) : Option PmxProxyType :=
  [PmxProxyType.socks5, .socks4, .socks4a, .http, .https].find? fun t =>
    sameIgnoringCase s (bytes (pmxProxyTypeShort t))

/-- `pmx_chain_mode`; a profile file may carry any other integer. -/
inductive PmxChainMode
  | sequential
  | redundancy
  | other (raw : Undeclared 1)
  deriving DecidableEq

/-- `pmx_chain`; the hops in use are a list that fits the array. -/
structure PmxChain where
  id : PmxId
  label : CBuf pmxMaxLabel
  mode : PmxChainMode
  hops : List PmxId
  enabled : Bool
  hops_fit : hops.length ≤ pmxMaxChainHops
  deriving DecidableEq

def pmxChainInit : PmxChain where
  id := pmxIdNone
  label := strlcpy pmxMaxLabel (bytes "New chain")
  mode := .sequential
  hops := []
  enabled := true
  hops_fit := Nat.zero_le _

def pmxChainAddHop (c : PmxChain) (proxyId : PmxId) : PmxChain × PmxStatus :=
  if proxyId = pmxIdNone then (c, .errInvalidArg)
  else if h : c.hops.length ≥ pmxMaxChainHops then (c, .errState)
  else
    ({ c with
        hops := c.hops ++ [proxyId]
        hops_fit := SlotTable.length_concat_le (Nat.not_le.1 h) proxyId }, .ok)

/-- `pmx_check_opts`. -/
structure PmxCheckOpts where
  probeHost : CBuf pmxMaxHost
  probePort : PmxPort
  timeoutMs : ℤ
  measureEgressIp : Bool
  egressService : CBuf pmxMaxHost
  egressPath : CBuf 128
  measurePing : Bool
  deriving DecidableEq

def pmxCheckOptsDefaults : PmxCheckOpts where
  probeHost := strlcpy pmxMaxHost (bytes "example.com")
  probePort := 443
  timeoutMs := 5000
  measureEgressIp := false
  egressService := strlcpy pmxMaxHost (bytes "api.ipify.org")
  egressPath := strlcpy 128 (bytes "/")
  measurePing := true

/-- `pmx_profile_settings`. -/
structure PmxProfileSettings where
  dnsThroughProxy : Bool
  demoTraffic : Bool
  demoIntervalMs : ℤ
  check : PmxCheckOpts
  wireguardPath : CBuf pmxMaxPath
  openvpnPath : CBuf pmxMaxPath
  deriving DecidableEq

/-- `pmx_profile`. -/
structure PmxProfile where
  label : CBuf pmxMaxLabel
  path : CBuf pmxMaxPath
  proxies : List PmxProxy
  rules : List PmxRule
  chains : List PmxChain
  vpns : List PmxVpn
  defaultRule : PmxRule
  lockdown : PmxLockdownPolicy
  settings : PmxProfileSettings
  nextId : PmxId
  deriving DecidableEq

def pmxProfileInit : PmxProfile where
  label := strlcpy pmxMaxLabel (bytes "New profile")
  path := .empty
  proxies := []
  rules := []
  chains := []
  vpns := []
  defaultRule :=
    { pmxRuleInit with
        name := strlcpy pmxMaxName (bytes "Default"), action := .direct, targetKind := .none }
  lockdown := pmxLockdownPolicyDefaults
  settings :=
    { dnsThroughProxy := true
      demoTraffic := true
      demoIntervalMs := 1500
      check := pmxCheckOptsDefaults
      wireguardPath := .empty
      openvpnPath := .empty }
  nextId := 1

/-- The first proxy with that id; `PMX_ID_NONE` names no proxy. -/
def pmxProfileFindProxy (pf : PmxProfile) (id : PmxId) : Option PmxProxy :=
  if id = pmxIdNone then none else pf.proxies.find? (·.id == id)

/-- The first chain with that id, `PMX_ID_NONE` included. -/
def pmxProfileFindChain (pf : PmxProfile) (id : PmxId) : Option PmxChain :=
  pf.chains.find? (·.id == id)

/-- The em dash of a target that is not there, in UTF-8. -/
def emDash : List UInt8 := [0xE2, 0x80, 0x94]

/-- The text written to a buffer of `PMX_MAX_LABEL` bytes. -/
def pmxProfileTargetLabel (pf : PmxProfile) (kind : PmxTargetKind) (id : PmxId) :
    CBuf pmxMaxLabel :=
  if kind = .none ∨ id = pmxIdNone then strlcpy pmxMaxLabel emDash
  else
    match kind with
    | .proxy =>
      match pmxProfileFindProxy pf id with
      | some p => strlcpy pmxMaxLabel p.label.str
      | none => strlcpy pmxMaxLabel (bytes "(missing)")
    | .chain =>
      match pmxProfileFindChain pf id with
      | some c => strlcpy pmxMaxLabel c.label.str
      | none => strlcpy pmxMaxLabel (bytes "(missing)")
    | _ => strlcpy pmxMaxLabel (bytes "?")

theorem pmxProfileFindProxy_some {pf : PmxProfile} {id : PmxId} {p : PmxProxy}
    (h : pmxProfileFindProxy pf id = some p) : p ∈ pf.proxies ∧ p.id = id ∧ id ≠ pmxIdNone := by
  rw [pmxProfileFindProxy] at h
  split_ifs at h with hid
  exact ⟨List.mem_of_find?_eq_some h, by simpa using List.find?_some h, hid⟩

end ProxiMight
