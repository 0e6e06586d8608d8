import ProxiMight.Json
import ProxiMight.Profile

/-!
# Profiles as JSON (`pmx_profile.c`, JSON I/O)

`profileTree` is the tree `pmx_profile_to_json` prints; the nodes of the tree get their memory.  Reading
goes through the fields one by one, each with its own default.  An array of the profile grows by
doubling as it is filled, and a reservation that fails ends the loop that asked for it.
-/

namespace ProxiMight

open CString

/-- `PMX_PROFILE_FORMAT`. -/
def pmxProfileFormat : String := "pmxprofile"

/-- `PMX_PROFILE_VERSION`. -/
def pmxProfileVersion : ℤ := 1

/-! ### Enumerations as integers -/

/-- An integer cast to an enumeration declared from `0` to `top`. -/
def enumOfInt {E : Type} {top : ℤ} (declared : ℕ → E) (other : Undeclared top → E) (v : ℤ) : E :=
  if h : v < 0 ∨ top < v then other ⟨v, h⟩ else declared v.toNat

theorem enumOfInt_raw {E : Type} {top : ℤ} {declared : ℕ → E} {other : Undeclared top → E}
    (u : Undeclared top) : enumOfInt declared other u.raw = other u :=
  dif_pos u.undeclared

def PmxAction.ofInt : ℤ → PmxAction :=
  enumOfInt (fun | 0 => .direct | 1 => .proxy | _ => .block) .other

def PmxAction.toInt : PmxAction → ℤ
  | .direct => 0
  | .proxy => 1
  | .block => 2
  | .other u => u.raw

def PmxTargetKind.ofInt : ℤ → PmxTargetKind :=
  enumOfInt (fun | 0 => .none | 1 => .proxy | _ => .chain) .other

def PmxTargetKind.toInt : PmxTargetKind → ℤ
  | .none => 0
  | .proxy => 1
  | .chain => 2
  | .other u => u.raw

def PmxChainMode.ofInt : ℤ → PmxChainMode :=
  enumOfInt (fun | 0 => .sequential | _ => .redundancy) .other

def PmxChainMode.toInt : PmxChainMode → ℤ
  | .sequential => 0
  | .redundancy => 1
  | .other u => u.raw

def PmxLockdownMode.ofInt : ℤ → PmxLockdownMode :=
  enumOfInt (fun | 0 => .off | 1 => .failClosed | 2 => .failBackup | _ => .failOpen) .other

def PmxLockdownMode.toInt : PmxLockdownMode → ℤ
  | .off => 0
  | .failClosed => 1
  | .failBackup => 2
  | .failOpen => 3
  | .other u => u.raw

def PmxVpnKind.ofInt : ℤ → PmxVpnKind :=
  enumOfInt (fun | 0 => .wireguard | _ => .openvpn) .other

def PmxVpnKind.toInt : PmxVpnKind → ℤ
  | .wireguard => 0
  | .openvpn => 1
  | .other u => u.raw

/-! ### Writing -/

def ruleToJson (r : PmxRule) : Json :=
  .obj ([("id", jsonId r.id), ("name", .str r.name.toCStr), ("enabled", .bool r.enabled)] ++
    pmxJsonAddStrIf "app" r.appPattern ++
    pmxJsonAddStrIf "host" r.hostPattern ++
    pmxJsonAddStrIf "ports" r.portSpec ++
    [("action", jsonInt r.action.toInt), ("target_kind", jsonInt r.targetKind.toInt),
      ("target_id", jsonId r.targetId)])

def checkToJson (ck : PmxCheckOpts) : Json :=
  .obj [("probe_host", .str ck.probeHost.toCStr), ("probe_port", jsonPort ck.probePort),
    ("timeout_ms", jsonInt ck.timeoutMs), ("measure_egress_ip", .bool ck.measureEgressIp),
    ("measure_ping", .bool ck.measurePing), ("egress_service", .str ck.egressService.toCStr),
    ("egress_path", .str ck.egressPath.toCStr)]

def settingsToJson (st : PmxProfileSettings) : Json :=
  .obj ([("dns_through_proxy", .bool st.dnsThroughProxy), ("demo_traffic", .bool st.demoTraffic),
      ("demo_interval_ms", jsonInt st.demoIntervalMs), ("check", checkToJson st.check)] ++
    pmxJsonAddStrIf "wireguard_path" st.wireguardPath ++
    pmxJsonAddStrIf "openvpn_path" st.openvpnPath)

def lockdownToJson (ld : PmxLockdownPolicy) : Json :=
  .obj [("mode", jsonInt ld.mode.toInt), ("block_until_verified", .bool ld.blockUntilVerified),
    ("block_dns_leak", .bool ld.blockDnsLeak), ("block_ipv6", .bool ld.blockIpv6),
    ("health_interval_ms", jsonInt ld.healthIntervalMs),
    ("failures_before_trip", jsonInt ld.failuresBeforeTrip),
    ("successes_before_restore", jsonInt ld.successesBeforeRestore)]

def proxyToJson (p : PmxProxy) : Json :=
  .obj ([("id", jsonId p.id), ("label", .str p.label.toCStr),
      ("type", jsonText (pmxProxyTypeShort p.type)), ("host", .str p.host.toCStr),
      ("port", jsonPort p.port), ("use_auth", .bool p.useAuth)] ++
    pmxJsonAddStrIf "username" p.username ++
    pmxJsonAddStrIf "password" p.password ++
    [("enabled", .bool p.enabled)])

def chainToJson (c : PmxChain) : Json :=
  .obj [("id", jsonId c.id), ("label", .str c.label.toCStr), ("mode", jsonInt c.mode.toInt),
    ("enabled", .bool c.enabled), ("hops", .arr (c.hops.map jsonId))]

def endpointToJson (ep : PmxVpnEndpoint) : Json :=
  .obj [("host", .str ep.host.toCStr), ("port", jsonPort ep.port), ("udp", .bool ep.udp)]

/-- Whether endpoints were left out is not written. -/
def vpnToJson (v : PmxVpn) : Json :=
  .obj ([("id", jsonId v.id), ("label", .str v.label.toCStr), ("kind", jsonInt v.kind.toInt),
      ("enabled", .bool v.enabled)] ++
    pmxJsonAddStrIf "config_path" v.configPath ++
    pmxJsonAddStrIf "dns" v.dns ++
    [("mtu", jsonInt v.mtu)] ++
    pmxJsonAddStrIf "address" v.address ++
    pmxJsonAddStrIf "allowed_ips" v.allowedIps ++
    pmxJsonAddStrIf "peer_public_key" v.peerPublicKey ++
    [("keepalive", jsonInt v.persistentKeepalive)] ++
    pmxJsonAddStrIf "cipher" v.cipher ++
    pmxJsonAddStrIf "auth" v.authDigest ++
    pmxJsonAddStrIf "dev" v.dev ++
    [("has_private_key", .bool v.hasPrivateKey), ("has_preshared_key", .bool v.hasPresharedKey),
      ("has_inline_secrets", .bool v.hasInlineSecrets),
      ("requires_user_pass", .bool v.requiresUserPass), ("full_tunnel", .bool v.fullTunnel),
      ("endpoints", .arr (v.endpoints.map endpointToJson))])

def profileTree (pf : PmxProfile) : Json :=
  .obj [("format", jsonText pmxProfileFormat), ("version", jsonInt pmxProfileVersion),
    ("label", .str pf.label.toCStr), ("next_id", jsonId pf.nextId),
    ("settings", settingsToJson pf.settings), ("lockdown", lockdownToJson pf.lockdown),
    ("proxies", .arr (pf.proxies.map proxyToJson)), ("chains", .arr (pf.chains.map chainToJson)),
    ("vpns", .arr (pf.vpns.map vpnToJson)), ("rules", .arr (pf.rules.map ruleToJson)),
    ("default_rule", ruleToJson pf.defaultRule)]

def pmxProfileToJson (C : CJson) (pf : PmxProfile) : Except PmxStatus CStr :=
  match C.print (profileTree pf) with
  | none => .error .errNoMemory
  | some text => .ok text

/-! ### Reading -/

/-- `clamp_int`. -/
def clampInt (v lo hi : ℤ) : ℤ := if v < lo then lo else if v > hi then hi else v

/-- `rule_from_json`: every field of the rule is set. -/
def ruleFromJson (o : Json) : PmxRule where
  id := idOfInt (pmxJsonInt o "id" 0)
  name := pmxJsonStrInto o "name" _ "Rule"
  enabled := pmxJsonBool o "enabled" true
  appPattern := pmxJsonStrInto o "app" _ ""
  hostPattern := pmxJsonStrInto o "host" _ ""
  portSpec := pmxJsonStrInto o "ports" _ ""
  action := .ofInt (pmxJsonInt o "action" PmxAction.direct.toInt)
  targetKind := .ofInt (pmxJsonInt o "target_kind" PmxTargetKind.none.toInt)
  targetId := idOfInt (pmxJsonInt o "target_id" 0)

def checkFromJson (ck : Json) : PmxCheckOpts where
  probeHost := pmxJsonStrInto ck "probe_host" _ "example.com"
  probePort := portOfInt (pmxJsonInt ck "probe_port" 443)
  timeoutMs := clampInt (pmxJsonInt ck "timeout_ms" 5000) 500 30000
  measureEgressIp := pmxJsonBool ck "measure_egress_ip" false
  egressService := pmxJsonStrInto ck "egress_service" _ ""
  egressPath := pmxJsonStrInto ck "egress_path" _ "/"
  measurePing := pmxJsonBool ck "measure_ping" true

/-- The settings read over those of a new profile. -/
def settingsFromJson (st : Json) : PmxProfileSettings where
  dnsThroughProxy := pmxJsonBool st "dns_through_proxy" true
  demoTraffic := pmxJsonBool st "demo_traffic" true
  demoIntervalMs := pmxJsonInt st "demo_interval_ms" 1500
  check :=
    match st.getItem "check" with
    | some ck => checkFromJson ck
    | none => pmxProfileInit.settings.check
  wireguardPath := pmxJsonStrInto st "wireguard_path" _ ""
  openvpnPath := pmxJsonStrInto st "openvpn_path" _ ""

def lockdownFromJson (ld : Json) : PmxLockdownPolicy where
  mode := .ofInt (pmxJsonInt ld "mode" PmxLockdownMode.failClosed.toInt)
  blockUntilVerified := pmxJsonBool ld "block_until_verified" true
  blockDnsLeak := pmxJsonBool ld "block_dns_leak" true
  blockIpv6 := pmxJsonBool ld "block_ipv6" true
  healthIntervalMs := clampInt (pmxJsonInt ld "health_interval_ms" 4000) 500 600000
  failuresBeforeTrip := clampInt (pmxJsonInt ld "failures_before_trip" 2) 1 100
  successesBeforeRestore := clampInt (pmxJsonInt ld "successes_before_restore" 2) 1 100

def proxyFromJson (o : Json) : PmxProxy where
  id := idOfInt (pmxJsonInt o "id" 0)
  label := pmxJsonStrInto o "label" _ "Proxy"
  -- a type that is not known leaves the one the variable started with
  type := (pmxProxyTypeFromStr (pmxJsonStr o "type" (bytes "socks5"))).getD .socks5
  host := pmxJsonStrInto o "host" _ ""
  port := portOfInt (pmxJsonInt o "port" 1080)
  useAuth := pmxJsonBool o "use_auth" false
  username := pmxJsonStrInto o "username" _ ""
  password := pmxJsonStrInto o "password" _ ""
  enabled := pmxJsonBool o "enabled" true

/-- One round of the loop over `hops`: only numbers, and only while there is room. -/
def readHop (c : PmxChain) (hv : Json) : PmxChain :=
  match hv with
  | .num v =>
    if h : c.hops.length < pmxMaxChainHops then
      { c with
          hops := c.hops ++ [idOfInt (truncate v)]
          hops_fit := SlotTable.length_concat_le h _ }
    else c
  | _ => c

def chainFromJson (o : Json) : PmxChain :=
  (arrayItems (o.getItem "hops")).foldl readHop
    { id := idOfInt (pmxJsonInt o "id" 0)
      label := pmxJsonStrInto o "label" _ "Chain"
      mode := .ofInt (pmxJsonInt o "mode" PmxChainMode.sequential.toInt)
      hops := []
      enabled := pmxJsonBool o "enabled" true
      hops_fit := Nat.zero_le _ }

def endpointFromJson (e : Json) : PmxVpnEndpoint where
  host := pmxJsonStrInto e "host" _ ""
  port := portOfInt (pmxJsonInt e "port" 0)
  udp := pmxJsonBool e "udp" true

/-- One round of the loop over `endpoints`, which ends when the array is full. -/
def readEndpoint (v : PmxVpn) (e : Json) : PmxVpn :=
  if h : v.endpoints.length < pmxMaxVpnEndpoints then
    { v with
        endpoints := v.endpoints ++ [endpointFromJson e]
        endpoints_fit := SlotTable.length_concat_le h _ }
  else v

def vpnFromJson (o : Json) : PmxVpn :=
  (arrayItems (o.getItem "endpoints")).foldl readEndpoint
    { pmxVpnInit with
        id := idOfInt (pmxJsonInt o "id" 0)
        label := pmxJsonStrInto o "label" _ "VPN"
        kind := .ofInt (pmxJsonInt o "kind" PmxVpnKind.wireguard.toInt)
        enabled := pmxJsonBool o "enabled" true
        configPath := pmxJsonStrInto o "config_path" _ ""
        dns := pmxJsonStrInto o "dns" _ ""
        mtu := pmxJsonInt o "mtu" 0
        address := pmxJsonStrInto o "address" _ ""
        allowedIps := pmxJsonStrInto o "allowed_ips" _ ""
        peerPublicKey := pmxJsonStrInto o "peer_public_key" _ ""
        persistentKeepalive := pmxJsonInt o "keepalive" 0
        cipher := pmxJsonStrInto o "cipher" _ ""
        authDigest := pmxJsonStrInto o "auth" _ ""
        dev := pmxJsonStrInto o "dev" _ ""
        hasPrivateKey := pmxJsonBool o "has_private_key" false
        hasPresharedKey := pmxJsonBool o "has_preshared_key" false
        hasInlineSecrets := pmxJsonBool o "has_inline_secrets" false
        requiresUserPass := pmxJsonBool o "requires_user_pass" false
        fullTunnel := pmxJsonBool o "full_tunnel" false }

/-- The loop over one array of the profile, which grows as `PMX_GROW` does: `alloc n` is whether it gets
the memory to grow when it holds `n` elements. -/
def storeItems {α : Type} (read : Json → α) (alloc : ℕ → Bool) (cap : ℕ) (stored : List α) :
    List Json → List α
  | [] => stored
  | o :: rest =>
    if stored.length ≥ cap then
      if alloc stored.length then
        storeItems read alloc (if cap = 0 then 8 else cap * 2) (stored ++ [read o]) rest
      else stored
    else storeItems read alloc cap (stored ++ [read o]) rest

/-- The memory the four arrays get. -/
structure JsonAlloc where
  proxies : ℕ → Bool
  chains : ℕ → Bool
  vpns : ℕ → Bool
  rules : ℕ → Bool

/-- There is memory for everything. -/
def JsonAlloc.unlimited : JsonAlloc :=
  ⟨fun _ => true, fun _ => true, fun _ => true, fun _ => true⟩

/-- `if (id >= next_id) next_id = id + 1;` over the ids of one array. -/
def raiseNextId (nextId : PmxId) (ids : List PmxId) : PmxId :=
  ids.foldl (fun nextId id => if id ≥ nextId then id + 1 else nextId) nextId

/-- The profile read from a tree of the right format. -/
def profileFromTree (alloc : JsonAlloc) (root : Json) : PmxProfile :=
  let proxies := storeItems proxyFromJson alloc.proxies 0 [] (arrayItems (root.getItem "proxies"))
  let chains := storeItems chainFromJson alloc.chains 0 [] (arrayItems (root.getItem "chains"))
  let vpns := storeItems vpnFromJson alloc.vpns 0 [] (arrayItems (root.getItem "vpns"))
  let rules := storeItems ruleFromJson alloc.rules 0 [] (arrayItems (root.getItem "rules"))
  let nextId := raiseNextId (idOfInt (pmxJsonInt root "next_id" 1)) (proxies.map (·.id))
  let nextId := raiseNextId nextId (rules.map (·.id))
  { pmxProfileInit with
      label := pmxJsonStrInto root "label" _ "Profile"
      proxies := proxies
      rules := rules
      chains := chains
      vpns := vpns
      defaultRule :=
        match root.getItem "default_rule" with
        | some dr => ruleFromJson dr
        | none => pmxProfileInit.defaultRule
      lockdown :=
        match root.getItem "lockdown" with
        | some ld => lockdownFromJson ld
        | none => pmxProfileInit.lockdown
      settings :=
        match root.getItem "settings" with
        | some st => settingsFromJson st
        | none => pmxProfileInit.settings
      nextId := raiseNextId nextId (chains.map (·.id)) }

/-- A text that is not a profile leaves `pf` as it was. -/
def pmxProfileFromJson (C : CJson) (alloc : JsonAlloc) (pf : PmxProfile) (json : CStr) :
    PmxProfile × PmxStatus :=
  match C.parse json with
  | none => (pf, .errParse)
  | some root =>
    if pmxJsonStr root "format" [] ≠ bytes pmxProfileFormat then (pf, .errParse)
    else (profileFromTree alloc root, .ok)

/-- A profile that is loaded is the one its tree describes. -/
theorem eq_profileFromTree_of_loaded {C : CJson} {alloc : JsonAlloc} {pf₀ pf : PmxProfile} {text : CStr}
    {root : Json} (hparse : C.parse text = some root)
    (hload : pmxProfileFromJson C alloc pf₀ text = (pf, .ok)) : pf = profileFromTree alloc root := by
  rw [pmxProfileFromJson, hparse] at hload
  dsimp only at hload
  split_ifs at hload
  · cases hload
  · exact (congrArg Prod.fst hload).symm

theorem pmxProfileFromJson_oneText {tree : Json}
    (hformat : pmxJsonStr tree "format" [] = bytes pmxProfileFormat) (alloc : JsonAlloc) (pf : PmxProfile)
    (text : CStr) :
    pmxProfileFromJson (oneTextCJson text tree) alloc pf text = (profileFromTree alloc tree, .ok) := by
  rw [pmxProfileFromJson, oneTextCJson_parse]
  simp only [hformat, ne_eq, not_true_eq_false, if_false]

end ProxiMight
