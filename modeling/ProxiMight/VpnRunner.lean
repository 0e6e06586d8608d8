import ProxiMight.Profile
import ProxiMight.Runs

/-!
# Running VPN clients (`pmx_vpn_run.c`, `pmx_proc.c`)

A runner keeps eight entries, one for each VPN it has been asked about.  A WireGuard tunnel is a service
that `wireguard.exe` installs and removes; an OpenVPN tunnel is a child process.  Around the runner stands
the machine: the services that are installed, with the VPN each was installed for, and the children with
the exit codes of those that have ended.  What the clients do, and when a child ends, is not determined.
-/

namespace ProxiMight

open CString

/-! ### Records that can be brought up -/

/-- The checks of `pmx_vpn_validate`; the text of the first that fails. -/
def vpnFault (v : PmxVpn) : Option (List UInt8) :=
  if v.endpoints = [] then some (bytes "no remote endpoint in the config")
  else if v.endpoints.any fun ep => ep.host.isEmpty || ep.port == 0 then
    some (bytes "an endpoint is missing a host or port")
  else if v.kind = .wireguard ∧ v.peerPublicKey.isEmpty = true then
    some (bytes "WireGuard peer has no PublicKey")
  else if v.kind = .wireguard ∧ v.hasPrivateKey = false then
    some (bytes "WireGuard [Interface] has no PrivateKey")
  else if v.configPath.isEmpty then
    some (bytes "no config file path " ++ emDash ++ bytes " the VPN client needs the original file")
  else none

/-- The status, and the string left in `why`. -/
def pmxVpnValidate (whySize : ℕ) (v : PmxVpn) : PmxStatus × CBuf whySize :=
  match vpnFault v with
  | some text => (.errInvalidArg, strlcpy whySize text)
  | none => (.ok, .empty)

/-- `*dot = '\0'` at the last dot, unless that is the first character. -/
def cutExtension {n : ℕ} (name : CBuf n) : CBuf n :=
  let uptoDot := name.str.rdropWhile (· != 46)
  if uptoDot.length > 1 then strlcpy n uptoDot.dropLast else name

/-- `base_name_no_ext`: what follows the last `/` or `\`, cut to the buffer, without its extension. -/
def baseNameNoExt (n : ℕ) (path : List UInt8) : CBuf n :=
  cutExtension (strlcpy n (path.rtakeWhile fun c => c != 47 && c != 92))

/-- The name of the service of a configuration file, in the 64 bytes of `tunnel_name`. -/
def serviceName (path : CBuf pmxMaxPath) : CBuf 64 := baseNameNoExt 64 path.str

/-! ### The table -/

/-- `pmx_vpn_state`. -/
inductive PmxVpnState
  | down
  | starting
  | running
  | failed
  deriving DecidableEq, Repr

/-- `vpn_entry`; `proc` is the handle of the child. -/
structure VpnEntry where
  id : PmxId
  used : Bool
  kind : PmxVpnKind
  state : PmxVpnState
  message : CBuf pmxMaxMsg
  tunnelName : CBuf 64
  proc : Option ℕ
  mgmtPort : PmxPort
  stopping : Bool
  deriving DecidableEq

/-- An entry of nothing but zero bytes. -/
def VpnEntry.zero : VpnEntry where
  id := pmxIdNone
  used := false
  kind := .wireguard
  state := .down
  message := .empty
  tunnelName := .empty
  proc := none
  mgmtPort := 0
  stopping := false

/-- An entry as `entry_for` hands it to a VPN. -/
def VpnEntry.fresh (id : PmxId) : VpnEntry := { VpnEntry.zero with used := true, id := id, state := .down }

/-- `PMX_VPN_MAX_TRACKED`. -/
def pmxVpnMaxTracked : ℕ := 8

/-- `PMX_OVPN_MGMT_BASE`. -/
def pmxOvpnMgmtBase : ℕ := 25340

/-- The entry is the one of that VPN. -/
def VpnEntry.isOf (id : PmxId) (e : VpnEntry) : Bool := e.used && e.id == id

/-- An entry that may be reclaimed: down or failed, and without a child. -/
def VpnEntry.finished (e : VpnEntry) : Bool :=
  e.proc.isNone && (e.state == .down || e.state == .failed)

/-- `entry_for`: the table it leaves, and the slot it returns. -/
def entryFor (es : List VpnEntry) (id : PmxId) (create : Bool) : List VpnEntry × Option ℕ :=
  match es.findIdx? (VpnEntry.isOf id) with
  | some i => (es, some i)
  | none =>
    if create = false then (es, none)
    else
      match es.findIdx? fun e => !e.used with
      | some i => (es.set i (.fresh id), some i)
      | none =>
        match es.findIdx? VpnEntry.finished with
        | some i => (es.set i (.fresh id), some i)
        | none => (es, none)

/-- The entry in a slot. -/
def entryAt (es : List VpnEntry) (i : ℕ) : VpnEntry := es.getD i .zero

/-! ### The machine -/

/-- A child that was started for a VPN, and its exit code if it has ended. -/
structure VpnChild where
  handle : ℕ
  id : PmxId
  exit : Option ℤ
  deriving DecidableEq

/-- The runner and the machine: the services installed, each with the VPN it was installed for, the
children, the handle of the next one, and the handles of those that were alive at the last poll. -/
structure VpnWorld where
  entries : List VpnEntry
  services : List (PmxId × CBuf 64)
  children : List VpnChild
  nextHandle : ℕ
  polled : List ℕ

/-- `pmx_vpn_runner_create`, on a machine without services and children. -/
def vpnRunnerCreate : VpnWorld := ⟨List.replicate pmxVpnMaxTracked .zero, [], [], 0, []⟩

/-- What `pmx_proc_run` reports: its status, the exit code and the output of the program. -/
structure ProcRun where
  status : PmxStatus
  code : ℤ
  out : CStr

/-- The program ran to its end and exited 0. -/
def ProcRun.succeeded (r : ProcRun) : Bool := decide (r.status = .ok) && r.code == 0

/-- A child ends with this code, if it has not ended. -/
def endChild (handle : ℕ) (code : ℤ) (c : VpnChild) : VpnChild :=
  if c.handle = handle ∧ c.exit = none then { c with exit := some code } else c

/-- `pmx_proc_free`: a child that still runs is killed. -/
def procFree (children : List VpnChild) : Option ℕ → List VpnChild
  | some handle => children.map (endChild handle 1)
  | none => children

/-- `STILL_ACTIVE`, the exit code of a process that has not ended. -/
def stillActive : ℤ := 259

/-- `pmx_proc_running`: a child that has ended with the code `STILL_ACTIVE` counts as running. -/
def procRunning (children : List VpnChild) (handle : ℕ) : Bool :=
  match children.find? (·.handle == handle) with
  | some c => c.exit == none || c.exit == some stillActive
  | none => false

/-- `pmx_proc_exit_code`. -/
def procExitCode (children : List VpnChild) (handle : ℕ) : ℤ :=
  match children.find? (·.handle == handle) with
  | some c => c.exit.getD (-1)
  | none => -1

/-! ### Up and down -/

/-- What a bring-up meets: whether the program is elevated, what the client reports, and whether a child
can be started. -/
structure UpEnv where
  elevated : Bool
  ran : ProcRun
  spawn : PmxStatus

/-- The decimal digits of `%d`. -/
def intText (v : ℤ) : List UInt8 := bytes (toString v)

/-- The WireGuard branch of `pmx_vpn_up`. -/
def wireguardUp (v : PmxVpn) (env : UpEnv) (e : VpnEntry) : VpnEntry × PmxStatus :=
  if env.elevated = false then
    ({ e with
        state := .failed
        message := strlcpy pmxMaxMsg (bytes "WireGuard needs Administrator to install the tunnel " ++
          bytes "service " ++ emDash ++ bytes " restart ProxiMight elevated.") }, .errPermission)
  else
    let e := { e with tunnelName := serviceName v.configPath }
    if env.ran.succeeded then
      ({ e with
          state := .running
          message := strlcpy pmxMaxMsg (bytes "tunnel service '" ++ e.tunnelName.str ++
            bytes "' installed (handshake not verified)") }, .ok)
    else
      ({ e with
          state := .failed
          message := strlcpy pmxMaxMsg (bytes "wireguard.exe exited " ++ intText env.ran.code ++
            (if env.ran.out.str.isEmpty then [] else bytes ": ") ++ env.ran.out.str) }, .errState)

/-- The OpenVPN branch of `pmx_vpn_up`, in the slot `slot`; `handle` is that of the child it starts. -/
def openvpnUp (slot handle : ℕ) (env : UpEnv) (e : VpnEntry) : VpnEntry × PmxStatus :=
  let e := { e with
    mgmtPort := if e.mgmtPort = 0 then UInt16.ofNat (pmxOvpnMgmtBase + slot) else e.mgmtPort }
  if env.spawn ≠ .ok then
    ({ e with
        proc := none
        state := .failed
        message := strlcpy pmxMaxMsg
          (if env.spawn = .errPermission then
            bytes "openvpn.exe needs elevation (is the interactive service running?)"
          else bytes "could not start openvpn.exe") }, env.spawn)
  else
    ({ e with
        proc := some handle
        state := .starting
        message := strlcpy pmxMaxMsg (bytes "openvpn client started (handshake not verified)") }, .ok)

/-- `pmx_vpn_up` once it has got a slot and the entry in it. -/
def bringUp (w : VpnWorld) (v : PmxVpn) (env : UpEnv) (slot : ℕ) (e : VpnEntry) :
    VpnWorld × PmxStatus :=
  let e := { e with kind := v.kind, stopping := false }
  if v.kind = .wireguard then
    let r := wireguardUp v env e
    ({ w with
        entries := w.entries.set slot r.1
        services :=
          if env.elevated && env.ran.succeeded then (v.id, serviceName v.configPath) :: w.services
          else w.services }, r.2)
  else
    let r := openvpnUp slot w.nextHandle env e
    let children := procFree w.children e.proc
    ({ w with
        entries := w.entries.set slot r.1
        children := if env.spawn = .ok then ⟨w.nextHandle, v.id, none⟩ :: children else children
        nextHandle := w.nextHandle + 1 }, r.2)

/-- `found` is whether the client was found. -/
def pmxVpnUp (w : VpnWorld) (v : PmxVpn) (found : Bool) (env : UpEnv) : VpnWorld × PmxStatus :=
  if found = false then (w, .errNotFound)
  else if (pmxVpnValidate 128 v).1 ≠ .ok then (w, .errInvalidArg)
  else
    match entryFor w.entries v.id true with
    | (es, some slot) => bringUp { w with entries := es } v env slot (entryAt es slot)
    | (_, none) => (w, .errState)

/-- `pmx_vpn_down` once it has found the slot and the entry in it. -/
def bringDown (w : VpnWorld) (v : PmxVpn) (found : Bool) (ran : ProcRun) (slot : ℕ) (e : VpnEntry) :
    VpnWorld × PmxStatus :=
  let e := { e with stopping := true }
  if v.kind = .wireguard then
    if found = false then ({ w with entries := w.entries.set slot e }, .errNotFound)
    else
      let e := { e with
        tunnelName := if e.tunnelName.isEmpty then serviceName v.configPath else e.tunnelName }
      -- the result of the run is not looked at
      ({ w with
          entries := w.entries.set slot
            { e with state := .down, message := strlcpy pmxMaxMsg (bytes "tunnel service removed") }
          services :=
            if ran.succeeded then w.services.filter fun s => decide (s.2 ≠ e.tunnelName)
            else w.services }, .ok)
  else
    ({ w with
        entries := w.entries.set slot
          { e with
              proc := none
              state := .down
              message := strlcpy pmxMaxMsg (bytes "openvpn client stopped") }
        children := procFree w.children e.proc }, .ok)

/-- `ran` is what the client reports when it is told to remove the service. -/
def pmxVpnDown (w : VpnWorld) (v : PmxVpn) (found : Bool) (ran : ProcRun) : VpnWorld × PmxStatus :=
  match (entryFor w.entries v.id false).2 with
  | some slot => bringDown w v found ran slot (entryAt w.entries slot)
  | none => (w, .ok)

/-! ### Polling -/

/-- One round of the loop of `pmx_vpn_runner_poll`. -/
def pollEntry (children : List VpnChild) (e : VpnEntry) : VpnEntry :=
  match e.proc with
  | none => e
  | some handle =>
    if e.used = false then e
    else if procRunning children handle then
      if e.state = .starting then { e with state := .running } else e
    else if e.stopping then { e with proc := none, state := .down }
    else
      { e with
          proc := none
          state := .failed
          message := strlcpy pmxMaxMsg (bytes "openvpn exited unexpectedly (code " ++
            intText (procExitCode children handle) ++ bytes ") " ++ emDash ++ bytes " check its log") }

def pmxVpnRunnerPoll (w : VpnWorld) : VpnWorld :=
  { w with
      entries := w.entries.map (pollEntry w.children)
      polled := (w.children.filter fun c => c.exit == none).map (·.handle) }

def pmxVpnRunnerState (w : VpnWorld) (id : PmxId) : PmxVpnState :=
  match (entryFor w.entries id false).2 with
  | some slot => (entryAt w.entries slot).state
  | none => .down

/-- A call on the runner, or the end of a child. -/
inductive VpnOp
  | up (v : PmxVpn) (found : Bool) (env : UpEnv)
  | down (v : PmxVpn) (found : Bool) (ran : ProcRun)
  | poll
  | exit (handle : ℕ) (code : ℤ)

def vpnStep (w : VpnWorld) : VpnOp → VpnWorld
  | .up v found env => (pmxVpnUp w v found env).1
  | .down v found ran => (pmxVpnDown w v found ran).1
  | .poll => pmxVpnRunnerPoll w
  | .exit handle code => { w with children := w.children.map (endChild handle code) }

end ProxiMight
