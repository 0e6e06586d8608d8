import ProxiMight.Types
import ProxiMight.CString
import ProxiMight.SlotTable

/-!
# VPN records (`pmx_vpn.h`)

A record keeps at most eight endpoints; one that is dropped is reported in `endpoints_truncated`.
-/

namespace ProxiMight

open CString

/-- `PMX_MAX_VPN_ENDPOINTS`. -/
def pmxMaxVpnEndpoints : ℕ := 8

/-- `PMX_MAX_ALLOWED_IPS`. -/
def pmxMaxAllowedIps : ℕ := 256

/-- `pmx_vpn_kind`; a profile file may carry any other integer. -/
inductive PmxVpnKind
  | wireguard
  | openvpn
  | other (raw : Undeclared 1)
  deriving DecidableEq

/-- `pmx_vpn_endpoint`. -/
structure PmxVpnEndpoint where
  host : CBuf pmxMaxHost
  port : PmxPort
  udp : Bool
  deriving DecidableEq

/-- `pmx_vpn`; the endpoints in use are a list that fits the array. -/
structure PmxVpn where
  id : PmxId
  label : CBuf pmxMaxLabel
  kind : PmxVpnKind
  enabled : Bool
  configPath : CBuf pmxMaxPath
  endpoints : List PmxVpnEndpoint
  endpointsTruncated : Bool
  dns : CBuf pmxMaxHost
  mtu : ℤ
  address : CBuf pmxMaxHost
  allowedIps : CBuf pmxMaxAllowedIps
  peerPublicKey : CBuf 64
  persistentKeepalive : ℤ
  cipher : CBuf 64
  authDigest : CBuf 64
  dev : CBuf 16
  hasPrivateKey : Bool
  hasPresharedKey : Bool
  hasInlineSecrets : Bool
  requiresUserPass : Bool
  fullTunnel : Bool
  endpoints_fit : endpoints.length ≤ pmxMaxVpnEndpoints
  deriving DecidableEq

def pmxVpnInit : PmxVpn where
  id := pmxIdNone
  label := strlcpy pmxMaxLabel (bytes "New VPN")
  kind := .wireguard
  enabled := true
  configPath := .empty
  endpoints := []
  endpointsTruncated := false
  dns := .empty
  mtu := 0
  address := .empty
  allowedIps := .empty
  peerPublicKey := .empty
  persistentKeepalive := 0
  cipher := .empty
  authDigest := .empty
  dev := .empty
  hasPrivateKey := false
  hasPresharedKey := false
  hasInlineSecrets := false
  requiresUserPass := false
  fullTunnel := false
  endpoints_fit := Nat.zero_le _

/-- `add_endpoint`. -/
def addEndpoint (v : PmxVpn) (host : List UInt8) (port : PmxPort) (udp : Bool) : PmxVpn :=
  if host.isEmpty then v
  else if h : v.endpoints.length ≥ pmxMaxVpnEndpoints then { v with endpointsTruncated := true }
  else
    { v with
        endpoints := v.endpoints ++ [⟨strlcpy pmxMaxHost host, port, udp⟩]
        endpoints_fit := SlotTable.length_concat_le (Nat.not_le.1 h) _ }

end ProxiMight
