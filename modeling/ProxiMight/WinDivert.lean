import ProxiMight.Backend
import ProxiMight.NatTable
import ProxiMight.Relay

/-!
# The WinDivert backend (`backend_windivert.c`)

The driver reports every connect before it happens and waits for an answer.  A connect the engine wants
proxied is let out only when the relay and the NAT table both know it; one that cannot be redirected is
let out or not as `block_when_cannot_proxy` says.  That flag is a copy, made when the backend starts.

What the driver, the operating system and the clock answer is an argument, and so is the answer of the
decision callback.  Handles and threads are left out; the calls of `wd_start` are one step.

* **`connect_registered_or_blocked`** — no proxied connection leaves unregistered.
-/

namespace ProxiMight

open CString

/-- `IPPROTO_TCP`. -/
def ipprotoTcp : UInt8 := 6

/-- `IPPROTO_UDP`. -/
def ipprotoUdp : UInt8 := 17

/-- `wd_impl`; `hasCb` and `hasDecide` tell whether the callbacks are bound. -/
structure WdImpl where
  relay : Option PmxRelay
  relayPort : PmxPort
  nat : Option NatTable
  ownPid : UInt32
  hasCb : Bool
  hasDecide : Bool
  running : Bool
  blockWhenCannotProxy : Bool
  counter : ℕ
  nAllowed : ℕ
  nBlocked : ℕ

/-- `pmx_backend_windivert_create`, the object, in the process `ownPid`. -/
def wdImplCreate (ownPid : UInt32) : WdImpl where
  relay := none
  relayPort := 0
  nat := none
  ownPid := ownPid
  hasCb := false
  hasDecide := false
  running := false
  blockWhenCannotProxy := true
  counter := 0
  nAllowed := 0
  nBlocked := 0

/-- The fields of `WINDIVERT_ADDRESS` that are read; `localAddr` and `remoteAddr` are the first words of
the address arrays. -/
structure WdAddr where
  isConnect : Bool
  protocol : UInt8
  ipv6 : Bool
  processId : UInt32
  localAddr : UInt32
  localPort : PmxPort
  remoteAddr : UInt32
  remotePort : PmxPort
  deriving DecidableEq

/-- What a connect event meets: what `pmx_procinfo_for_pid` and the driver's formatting function answer,
and the readings of the clock, in the order they are taken. -/
structure WdEventEnv where
  procInfo : Option (CBuf pmxMaxName × CBuf pmxMaxPath)
  host : CBuf 128
  createdMs : ℕ
  expireMs : ℕ
  registerMs : ℕ
  natMs : ℕ

/-! ### Connect events -/

/-- The process name and path of a flow. -/
def wdProcess (pid : UInt32) (procInfo : Option (CBuf pmxMaxName × CBuf pmxMaxPath)) :
    CBuf pmxMaxName × CBuf pmxMaxPath :=
  let unnamed := (strlcpy pmxMaxName (bytes "pid " ++ bytes pid.toNat.repr), CBuf.empty)
  match procInfo with
  | some pi => if pi.1.isEmpty then unnamed else pi
  | none => unnamed

/-- The flow `wd_pump` builds. -/
def wdFlow (im : WdImpl) (addr : WdAddr) (env : WdEventEnv) : PmxFlow where
  flowId := im.counter + 1
  appName := (wdProcess addr.processId env.procInfo).1
  appPath := (wdProcess addr.processId env.procInfo).2
  pid := addr.processId
  dstHost := strlcpy pmxMaxHost env.host.str
  dstPort := addr.remotePort
  udp := addr.protocol == ipprotoUdp
  createdMs := env.createdMs

/-- A zeroed `pmx_proxy`. -/
def zeroProxy : PmxProxy where
  id := 0
  label := .empty
  type := .socks5
  host := .empty
  port := 0
  useAuth := false
  username := .empty
  password := .empty
  enabled := false

/-- The array `via_chain`, zeroed where it was not written. -/
def PmxDecision.viaArray (d : PmxDecision) : List PmxProxy :=
  d.viaChain ++ List.replicate (pmxMaxChainHops - d.viaChain.length) zeroProxy

/-- Without a decider everything is direct. -/
def wdDecision (im : WdImpl) (decide : PmxFlow → PmxDecision) (f : PmxFlow) : PmxDecision :=
  if im.hasDecide then decide f else { decisionInit with viaLabel := .empty, ruleName := .empty }

/-- The variable `routable`. -/
def wdRoutable (addr : WdAddr) (f : PmxFlow) (d : PmxDecision) : Bool :=
  decide (d.viaCount > 0) && !addr.ipv6 && !f.udp && addr.localPort != 0

/-- Register with the relay and then with the NAT table; the second component is `registered`. -/
def wdRegister (im : WdImpl) (addr : WdAddr) (env : WdEventEnv) (f : PmxFlow) (d : PmxDecision) :
    WdImpl × Bool :=
  match im.relay, im.nat with
  | some relay, some nat =>
    if wdRoutable addr f d then
      let rreg := pmxRelayRegister relay addr.localPort f.dstHost.str f.dstPort d.viaArray d.viaCount
        env.expireMs env.registerMs f.flowId
      if rreg.2 = .ok then
        let nreg := pmxNatAdd nat addr.localAddr addr.localPort addr.remoteAddr f.dstPort env.natMs
        ({ im with relay := some rreg.1, nat := some nreg.1 }, decide (nreg.2 = .ok))
      else ({ im with relay := some rreg.1 }, false)
    else (im, false)
  | _, _ => (im, false)

/-- The switch over the verdict; the second component is `allow`. -/
def wdVerdict (im : WdImpl) (addr : WdAddr) (env : WdEventEnv) (f : PmxFlow) (d : PmxDecision) :
    WdImpl × Bool :=
  match d.verdict with
  | .direct => (im, true)
  | .block => (im, false)
  | .proxy =>
    let r := wdRegister im addr env f d
    -- a flow that cannot be redirected goes out directly, or not at all
    (r.1, r.2 || !im.blockWhenCannotProxy)

/-- The event is an outbound connect of another process. -/
def WdAddr.gated (addr : WdAddr) (im : WdImpl) : Bool :=
  addr.isConnect && (addr.protocol == ipprotoTcp || addr.protocol == ipprotoUdp) &&
    addr.processId != im.ownPid

/-- The answer to an event, and the flow reported for the log. -/
structure WdOutcome where
  allowed : Bool
  reported : Option PmxFlow

/-- `++im->counter`. -/
def WdImpl.counted (im : WdImpl) : WdImpl := { im with counter := im.counter + 1 }

/-- One round of `wd_pump`. -/
def wdPump (im : WdImpl) (decide : PmxFlow → PmxDecision) (addr : WdAddr) (env : WdEventEnv) :
    WdImpl × WdOutcome :=
  if addr.gated im then
    let f := wdFlow im addr env
    let r := wdVerdict im.counted addr env f (wdDecision im decide f)
    ({ r.1 with
        nAllowed := if r.2 then r.1.nAllowed + 1 else r.1.nAllowed
        nBlocked := if r.2 then r.1.nBlocked else r.1.nBlocked + 1 },
      ⟨r.2, if im.hasCb then some f else none⟩)
  else (im, ⟨true, none⟩)

/-! ### Start and stop -/

/-- What `WinDivertOpen` answers. -/
inductive WdOpen
  | opened
  | accessDenied
  | failed
  deriving DecidableEq

/-- What the operating system answers during `wd_start`. -/
structure WdOs where
  socketLayer : WdOpen
  relayStatus : PmxStatus
  relayPort : PmxPort
  natAllocOk : Bool
  networkLayer : WdOpen
  threadsOk : Bool

def wdStart (os : WdOs) (im : WdImpl) (cfg : PmxBackendConfig) : WdImpl × PmxStatus :=
  if im.running then (im, .ok)
  else
    let im := { im with blockWhenCannotProxy := cfg.blockWhenCannotProxy }
    if !im.hasDecide then (im, .errState)
    else
      match os.socketLayer with
      | .accessDenied => (im, .errPermission)
      | .failed => (im, .errBackend)
      | .opened =>
        if os.relayStatus ≠ .ok then ({ im with relay := none }, os.relayStatus)
        else
          let im := { im with relay := some (pmxRelayStart os.relayPort), relayPort := os.relayPort }
          if !os.natAllocOk then ({ im with relay := none, nat := none }, .errNoMemory)
          else if os.networkLayer ≠ .opened then
            ({ im with relay := none, nat := none }, .errBackend)
          else
            let im := { im with nat := some (pmxNatCreate 1024 120000) }
            if os.threadsOk then ({ im with running := true }, .ok)
            else (im, .errBackend)

def wdStop (im : WdImpl) : WdImpl × PmxStatus :=
  ({ im with running := false, relay := none, nat := none }, .ok)

/-- `pmx_backend_windivert_create`, the operations. -/
def pmxBackendWindivert : PmxBackend WdImpl WdOs where
  name := bytes "windivert"
  caps := ⟨true, true, false, false, false⟩
  start := wdStart
  stop := wdStop
  -- enforcement already happened inline
  applyDecision := some fun im _ _ => (im, .ok)

/-! ### What a registration leaves behind -/

/-- The mapping of the connect `addr` is in the NAT table, and its destination and chain are announced to
the relay. -/
structure Registered (im : WdImpl) (addr : WdAddr) (env : WdEventEnv) (f : PmxFlow) (d : PmxDecision)
    (relay : PmxRelay) (nat : NatTable) : Prop where
  relay_eq : im.relay = some relay
  nat_eq : im.nat = some nat
  mapped : ∀ now, now ≤ env.natMs + nat.ttlMs → (pmxNatFind nat addr.localPort now).2 =
    some ⟨addr.localAddr, addr.localPort, addr.remoteAddr, addr.remotePort, env.natMs⟩
  announced : relay.pendingFor addr.localPort =
    some ⟨addr.localPort, f.dstHost, f.dstPort, d.viaArray.take d.viaCount, env.registerMs, f.flowId⟩

/-- **Both tables know a registered connect**, and it is one the network layer can rewrite. -/
theorem wdRegister_registered {im : WdImpl} {addr : WdAddr} {env : WdEventEnv} {f : PmxFlow}
    {d : PmxDecision} (hport : f.dstPort = addr.remotePort)
    (h : (wdRegister im addr env f d).2 = true) :
    wdRoutable addr f d = true ∧
      ∃ relay nat, Registered (wdRegister im addr env f d).1 addr env f d relay nat := by
  unfold wdRegister at h ⊢
  split at h
  · next relay nat _ _ =>
    dsimp only at h ⊢
    split_ifs at h ⊢ with hroute hrreg
    have hnreg := of_decide_eq_true h
    refine ⟨hroute, _, _, rfl, rfl, ?_, ?_⟩
    · intro now hnow
      have hp : addr.localPort ≠ 0 := (pmxRelayRegister_valid hrreg).1
      have hlookup := lookup_pmxNatAdd_self hnreg
      have hlive : (pmxNatAdd nat addr.localAddr addr.localPort addr.remoteAddr f.dstPort
          env.natMs).1.Live now
          (freshSlot addr.localAddr addr.localPort addr.remoteAddr f.dstPort env.natMs) :=
        ⟨rfl, (NatTable.expired_eq_false _ _ _).2 hnow⟩
      rw [(pmxNatFind_of_live hp hlookup hlive).1, ← hport]
      rfl
    · rw [pendingFor_pmxRelayRegister hrreg, strlcpy_self]
  · cases h

theorem wdRoutable_iff (addr : WdAddr) (f : PmxFlow) (d : PmxDecision) :
    wdRoutable addr f d = true ↔
      0 < d.viaCount ∧ addr.ipv6 = false ∧ f.udp = false ∧ addr.localPort ≠ 0 := by
  simp [wdRoutable, and_assoc]

/-- A gated connect that is not UDP is TCP. -/
theorem WdAddr.gated_tcp {addr : WdAddr} {im : WdImpl} (h : addr.gated im = true)
    (hudp : (addr.protocol == ipprotoUdp) = false) : addr.protocol = ipprotoTcp := by
  simpa [WdAddr.gated, hudp] using (Bool.and_eq_true_iff.1 (Bool.and_eq_true_iff.1 h).1).2

/-- The answer to a gated event, and the two tables it leaves. -/
theorem wdPump_of_gated {im : WdImpl} {addr : WdAddr} (hgated : addr.gated im = true)
    (decide : PmxFlow → PmxDecision) (env : WdEventEnv) :
    (wdPump im decide addr env).2.allowed = (wdVerdict im.counted addr env (wdFlow im addr env)
      (wdDecision im decide (wdFlow im addr env))).2 ∧
    (wdPump im decide addr env).1.relay = (wdVerdict im.counted addr env (wdFlow im addr env)
      (wdDecision im decide (wdFlow im addr env))).1.relay ∧
    (wdPump im decide addr env).1.nat = (wdVerdict im.counted addr env (wdFlow im addr env)
      (wdDecision im decide (wdFlow im addr env))).1.nat := by
  rw [wdPump, if_pos hgated]
  exact ⟨rfl, rfl, rfl⟩

theorem wdVerdict_of_proxy {d : PmxDecision} (hproxy : d.verdict = .proxy) (im : WdImpl)
    (addr : WdAddr) (env : WdEventEnv) (f : PmxFlow) :
    wdVerdict im addr env f d =
      ((wdRegister im addr env f d).1,
        (wdRegister im addr env f d).2 || !im.blockWhenCannotProxy) := by
  rw [wdVerdict, hproxy]

/-- **No proxied connection leaves unregistered.** -/
theorem connect_registered_or_blocked (im : WdImpl) (decide : PmxFlow → PmxDecision) (addr : WdAddr)
    (env : WdEventEnv) (hgated : addr.gated im = true)
    (hproxy : (wdDecision im decide (wdFlow im addr env)).verdict = .proxy)
    (hblock : im.blockWhenCannotProxy = true) :
    ((wdPump im decide addr env).2.allowed = true ∧
      addr.ipv6 = false ∧ addr.protocol = ipprotoTcp ∧ addr.localPort ≠ 0 ∧
      0 < (wdDecision im decide (wdFlow im addr env)).viaCount ∧
      ∃ relay nat, Registered (wdPump im decide addr env).1 addr env (wdFlow im addr env)
        (wdDecision im decide (wdFlow im addr env)) relay nat) ∨
    (wdPump im decide addr env).2.allowed = false := by
  obtain ⟨hallowed, hrelay, hnat⟩ := wdPump_of_gated hgated decide env
  rw [wdVerdict_of_proxy hproxy] at hallowed hrelay hnat
  have hflag : im.counted.blockWhenCannotProxy = true := hblock
  rw [hflag, Bool.not_true, Bool.or_false] at hallowed
  cases hreg : (wdRegister im.counted addr env (wdFlow im addr env)
      (wdDecision im decide (wdFlow im addr env))).2 with
  | false => exact Or.inr (hallowed.trans hreg)
  | true =>
    obtain ⟨hroute, relay, nat, hregd⟩ := wdRegister_registered rfl hreg
    obtain ⟨hcount, hv6, hudp, hport⟩ := (wdRoutable_iff _ _ _).1 hroute
    exact Or.inl ⟨hallowed.trans hreg, hv6, WdAddr.gated_tcp hgated hudp, hport, hcount, relay, nat,
      hrelay.trans hregd.relay_eq, hnat.trans hregd.nat_eq, hregd.mapped, hregd.announced⟩

/-- A running backend of process 7. -/
def wdRunning : WdImpl :=
  { wdImplCreate 7 with
      relay := some (pmxRelayStart 9000)
      relayPort := 9000
      nat := some (pmxNatCreate 1024 120000)
      hasDecide := true
      running := true }

/-- A TCP connect of process 8, from port 50000 to port 443. -/
def wdTcpConnect : WdAddr := ⟨true, ipprotoTcp, false, 8, 3232235786, 50000, 1572395042, 443⟩

/-- Nothing is known of the process; the clock reads 1000 throughout. -/
def wdPlainEnv : WdEventEnv := ⟨none, strlcpy 128 (bytes "93.184.216.34"), 1000, 1000, 1000, 1000⟩

theorem connect_registered_or_blocked_tcp :
    (wdPump wdRunning (fun f => pmxResolveWithProfile oneProxyProfile f.query) wdTcpConnect
        wdPlainEnv).2.allowed = true ∧
      ∃ relay nat, Registered
        (wdPump wdRunning (fun f => pmxResolveWithProfile oneProxyProfile f.query) wdTcpConnect
          wdPlainEnv).1 wdTcpConnect wdPlainEnv (wdFlow wdRunning wdTcpConnect wdPlainEnv)
        (wdDecision wdRunning (fun f => pmxResolveWithProfile oneProxyProfile f.query)
          (wdFlow wdRunning wdTcpConnect wdPlainEnv)) relay nat := by
  have hallowed : (wdPump wdRunning (fun f => pmxResolveWithProfile oneProxyProfile f.query)
      wdTcpConnect wdPlainEnv).2.allowed = true := by decide +kernel
  rcases connect_registered_or_blocked wdRunning
    (fun f => pmxResolveWithProfile oneProxyProfile f.query) wdTcpConnect wdPlainEnv
    (by decide +kernel) (by decide +kernel) rfl with ⟨-, -, -, -, -, hreg⟩ | hblocked
  · exact ⟨hallowed, hreg⟩
  · rw [hallowed] at hblocked
    cases hblocked

end ProxiMight
