import ProxiMight.Stance

/-!
# Connections that were let out directly (`wd_net_pump`)

The network layer rewrites the packets of proxied connections.  It knows them by their source port and
destination alone: it asks the NAT table for the port, and the lookup refreshes what it finds.  A mapping
outlives its flow, and the port may by then belong to a connection that was let out directly.

The system is the backend with the relay's callbacks, and the connections that were let out because their
verdict was DIRECT or because they are the program's own.

* **`directUntouched_iff`** — over runs: the packets of such connections are left alone, and leave the
  table alone, exactly when none meets a mapping of its port that is not expired, except one to another
  destination that would not be refreshed.
* **`direct_of_freshPort`** — so they are on a port that no proxied connect has had since the backend
  started.
-/

namespace ProxiMight

open NatTable

/-! ### Packets -/

/-- `PMX_LOOPBACK_HOST_ORDER`. -/
def pmxLoopbackHostOrder : UInt32 := 0x7F000001

/-- The fields of the IPv4 header that are read or written. -/
structure IpHdr where
  srcAddr : UInt32
  dstAddr : UInt32
  deriving DecidableEq

/-- The fields of the TCP header that are read or written. -/
structure TcpHdr where
  srcPort : PmxPort
  dstPort : PmxPort
  deriving DecidableEq

/-- A packet with its `WINDIVERT_ADDRESS`; a header that is not there is `none`. -/
structure WdPacket where
  outbound : Bool
  loopback : Bool
  ip : Option IpHdr
  tcp : Option TcpHdr
  deriving DecidableEq

/-- `net_filter`. -/
def wdCaptured (im : WdImpl) (p : WdPacket) : Bool :=
  match p.ip, p.tcp with
  | some ip, some tcp =>
    if p.outbound then ip.dstAddr != pmxLoopbackHostOrder
    else ip.srcAddr == pmxLoopbackHostOrder && tcp.srcPort == im.relayPort
  | _, _ => false

/-- What a round of the pump leaves, and whether it rewrote the packet. -/
structure WdNetOutcome where
  im : WdImpl
  packet : WdPacket
  rewrote : Bool

/-- A loopback conversation with the relay. -/
def WdPacket.toRelay (p : WdPacket) (tcp : TcpHdr) (relayPort : PmxPort) : WdPacket :=
  { p with
      ip := some ⟨pmxLoopbackHostOrder, pmxLoopbackHostOrder⟩
      tcp := some { tcp with dstPort := relayPort }
      loopback := true }

/-- The endpoints the application expects. -/
def WdPacket.fromRelay (p : WdPacket) (tcp : TcpHdr) (e : NatEntry) : WdPacket :=
  { p with
      ip := some ⟨e.origDstAddr, e.srcAddr⟩
      tcp := some { tcp with srcPort := e.origDstPort }
      loopback := false }

/-- One round of `wd_net_pump`. -/
def wdNetPump (im : WdImpl) (p : WdPacket) (now : ℕ) : WdNetOutcome :=
  match p.ip, p.tcp, im.nat with
  | some ip, some tcp, some nat =>
    if p.outbound then
      let r := pmxNatFind nat tcp.srcPort now
      let im := { im with nat := some r.1 }
      match r.2 with
      | some e =>
        if ip.dstAddr = e.origDstAddr ∧ tcp.dstPort = e.origDstPort then
          ⟨im, p.toRelay tcp im.relayPort, true⟩
        else ⟨im, p, false⟩
      | none => ⟨im, p, false⟩
    else
      let r := pmxNatFind nat tcp.dstPort now
      let im := { im with nat := some r.1 }
      match r.2 with
      | some e => ⟨im, p.fromRelay tcp e, true⟩
      | none => ⟨im, p, false⟩
  | _, _, _ => ⟨im, p, false⟩

/-! ### The system -/

/-- The event is a connect that `wd_pump` lets out because it is the program's own or its verdict is
DIRECT. -/
def letOutDirectly (im : WdImpl) (decide : PmxFlow → PmxDecision) (addr : WdAddr)
    (env : WdEventEnv) : Bool :=
  addr.isConnect && (addr.protocol == ipprotoTcp || addr.protocol == ipprotoUdp) &&
    (addr.processId == im.ownPid || (wdDecision im decide (wdFlow im addr env)).verdict == .direct)

/-- The event is a connect that is to be proxied. -/
def isProxied (im : WdImpl) (decide : PmxFlow → PmxDecision) (addr : WdAddr) (env : WdEventEnv) : Bool :=
  addr.gated im && (wdDecision im decide (wdFlow im addr env)).verdict == .proxy

/-- The packet is one that the connection sends. -/
def WdPacket.Of (p : WdPacket) (addr : WdAddr) : Prop :=
  p.outbound = true ∧
    p.ip = (if addr.ipv6 then none else some ⟨addr.localAddr, addr.remoteAddr⟩) ∧
    p.tcp = if addr.protocol = ipprotoTcp then some ⟨addr.localPort, addr.remotePort⟩ else none

instance (p : WdPacket) (addr : WdAddr) : Decidable (p.Of addr) := inferInstanceAs (Decidable (_ ∧ _))

/-- Two connections have the same endpoints. -/
def WdAddr.sameEndpoints (a b : WdAddr) : Bool :=
  a.protocol == b.protocol && a.ipv6 == b.ipv6 && a.localAddr == b.localAddr &&
    a.localPort == b.localPort && a.remoteAddr == b.remoteAddr && a.remotePort == b.remotePort

/-- The backend, the connections that were let out directly, and the ports of those that were to be proxied
since it started. -/
structure NetSystem where
  im : WdImpl
  direct : List WdAddr
  proxied : List PmxPort

/-- A step of the system.  `relay` is what the relay's threads do to its tables, `flowEnd` its close
callback, and `leave` the end of a connection. -/
inductive NetOp
  | start (os : WdOs) (cfg : PmxBackendConfig)
  | stop
  | connect (decide : PmxFlow → PmxDecision) (addr : WdAddr) (env : WdEventEnv)
  | packet (p : WdPacket) (now : ℕ)
  | flowEnd (port : PmxPort)
  | relay (relay : PmxRelay)
  | leave (addr : WdAddr)

/-- A connection that is let out takes the place of one with the same endpoints. -/
def noteConnect (s : NetSystem) (decide : PmxFlow → PmxDecision) (addr : WdAddr) (env : WdEventEnv) :
    List WdAddr :=
  let others := s.direct.filter fun c => !c.sameEndpoints addr
  if letOutDirectly s.im decide addr env then addr :: others
  else if addr.isConnect && (wdPump s.im decide addr env).2.allowed then others
  else s.direct

def netStep (s : NetSystem) : NetOp → NetSystem
  | .start os cfg => if s.im.running then s else { s with im := (wdStart os s.im cfg).1, proxied := [] }
  | .stop => { s with im := (wdStop s.im).1, proxied := [] }
  | .connect decide addr env =>
    if s.im.running then
      { im := (wdPump s.im decide addr env).1
        direct := noteConnect s decide addr env
        proxied := if isProxied s.im decide addr env then addr.localPort :: s.proxied else s.proxied }
    else s
  | .packet p now =>
    if s.im.running && wdCaptured s.im p then { s with im := (wdNetPump s.im p now).im } else s
  | .flowEnd port =>
    { s with im := { s.im with nat := s.im.nat.map fun nat => pmxNatMarkClosed nat port } }
  | .relay relay => { s with im := { s.im with relay := s.im.relay.map fun _ => relay } }
  | .leave addr => { s with direct := s.direct.filter fun c => !c.sameEndpoints addr }

/-- A backend that was created and bound to its callbacks. -/
def netSystemCreate (pid : UInt32) : NetSystem where
  im := { wdImplCreate pid with hasCb := true, hasDecide := true }
  direct := []
  proxied := []

/-! ### Direct packets -/

/-- The running backend captures the packet, which belongs to a connection that was let out directly. -/
def DirectPacket (s : NetSystem) (p : WdPacket) : Prop :=
  s.im.running = true ∧ wdCaptured s.im p = true ∧ ∃ addr ∈ s.direct, p.Of addr

/-- A direct packet is not rewritten and refreshes nothing. -/
def DirectUntouched (s : NetSystem) : NetOp → Prop
  | .packet p now =>
    DirectPacket s p → (wdNetPump s.im p now).rewrote = false ∧ (wdNetPump s.im p now).im.nat = s.im.nat
  | _ => True

/-- No mapping of the port is unexpired, but for one to another destination that a lookup would not
refresh. -/
def NatTable.Clear (n : NatTable) (now : ℕ) (ip : IpHdr) (tcp : TcpHdr) : Prop :=
  tcp.srcPort = 0 ∨ ∀ slot, n.lookup tcp.srcPort = some slot →
    n.expired slot now = true ∨
      (slot.closed = true ∨ slot.lastSeenMs = now) ∧
        ¬(ip.dstAddr = slot.e.origDstAddr ∧ tcp.dstPort = slot.e.origDstPort)

/-- The port of a direct packet is clear. -/
def PortClear (s : NetSystem) : NetOp → Prop
  | .packet p now =>
    DirectPacket s p → ∀ ip tcp nat, p.ip = some ip → p.tcp = some tcp → s.im.nat = some nat →
      nat.Clear now ip tcp
  | _ => True

/-- **One outbound packet.** -/
theorem wdNetPump_untouched_iff {im : WdImpl} {p : WdPacket} (hout : p.outbound = true) {ip : IpHdr}
    (hip : p.ip = some ip) {tcp : TcpHdr} (htcp : p.tcp = some tcp) {nat : NatTable}
    (hnat : im.nat = some nat) (now : ℕ) :
    (wdNetPump im p now).rewrote = false ∧ (wdNetPump im p now).im.nat = im.nat ↔
      nat.Clear now ip tcp := by
  have hsame : (pmxNatFind nat tcp.srcPort now).1 = nat ↔ tcp.srcPort = 0 ∨ ∀ slot,
      nat.lookup tcp.srcPort = some slot →
        nat.expired slot now = true ∨ slot.closed = true ∨ slot.lastSeenMs = now :=
    pmxNatFind_same_iff
  rw [wdNetPump, hip, htcp, hnat]
  simp only [hout, if_true]
  cases hfind : (pmxNatFind nat tcp.srcPort now).2 with
  | none =>
    -- nothing unexpired was found
    have hexpired : tcp.srcPort = 0 ∨ ∀ slot, nat.lookup tcp.srcPort = some slot →
        nat.expired slot now = true := by
      by_cases hp : tcp.srcPort = 0
      · exact Or.inl hp
      · refine Or.inr fun slot hslot => ?_
        by_contra hlive
        have hsome := pmxNatFind_eq_some_iff.2
          ⟨hp, slot, hslot, Bool.eq_false_iff.2 hlive, rfl⟩
        rw [hfind] at hsome
        cases hsome
    refine iff_of_true ⟨rfl, ?_⟩ (hexpired.imp_right fun h slot hslot => Or.inl (h slot hslot))
    exact congrArg some (hsame.2 (hexpired.imp_right fun h slot hslot => Or.inl (h slot hslot)))
  | some e =>
    obtain ⟨hp, slot, hlookup, hexp, rfl⟩ := pmxNatFind_eq_some_iff.1 hfind
    have hclear : nat.Clear now ip tcp ↔ (slot.closed = true ∨ slot.lastSeenMs = now) ∧
        ¬(ip.dstAddr = slot.e.origDstAddr ∧ tcp.dstPort = slot.e.origDstPort) := by
      rw [NatTable.Clear, hlookup]
      simp only [hp, false_or, Option.some.injEq, forall_eq', hexp, Bool.false_eq_true]
    have hkept : (pmxNatFind nat tcp.srcPort now).1 = nat ↔
        slot.closed = true ∨ slot.lastSeenMs = now := by
      rw [hsame, hlookup]
      simp only [hp, false_or, Option.some.injEq, forall_eq', hexp, Bool.false_eq_true]
    dsimp only
    split_ifs with hdst
    · exact iff_of_false (fun h => by cases h.1) fun h => (hclear.1 h).2 hdst
    · rw [hclear, ← hkept]
      exact ⟨fun h => ⟨Option.some.inj h.2, hdst⟩, fun h => ⟨rfl, congrArg some h.1⟩⟩

/-- A packet that is captured has both headers. -/
theorem exists_of_captured {im : WdImpl} {p : WdPacket} (h : wdCaptured im p = true) :
    ∃ ip tcp, p.ip = some ip ∧ p.tcp = some tcp := by
  rw [wdCaptured] at h
  split at h
  · next ip tcp hip htcp => exact ⟨ip, tcp, hip, htcp⟩
  · cases h

theorem directUntouched_step (s : NetSystem) (op : NetOp) :
    DirectUntouched s op ↔ PortClear s op := by
  cases op with
  | packet p now =>
    refine imp_congr_right fun hdirect => ?_
    obtain ⟨-, hcaptured, addr, -, hout, -⟩ := hdirect
    obtain ⟨ip, tcp, hip, htcp⟩ := exists_of_captured hcaptured
    cases hnat : s.im.nat with
    | none =>
      refine iff_of_true ?_ fun _ _ _ _ _ h => by cases h
      rw [wdNetPump, hip, htcp, hnat]
      exact ⟨rfl, hnat⟩
    | some nat =>
      rw [← hnat, wdNetPump_untouched_iff hout hip htcp hnat now]
      constructor
      · intro h ip' tcp' nat' hip' htcp' hnat'
        obtain rfl := Option.some.inj (hip.symm.trans hip')
        obtain rfl := Option.some.inj (htcp.symm.trans htcp')
        obtain rfl := Option.some.inj (hnat.symm.trans hnat')
        exact h
      · exact fun h => h ip tcp nat hip htcp hnat
  | _ => exact Iff.rfl

/-- **When direct traffic is left alone.**  In every run of the backend: the packets of connections that
were let out directly are not rewritten and refresh no mapping exactly when each of them finds its port
clear. -/
theorem directUntouched_iff (pid : UInt32) (ops : List NetOp) :
    Runs.EachStep netStep DirectUntouched (netSystemCreate pid) ops ↔
      Runs.EachStep netStep PortClear (netSystemCreate pid) ops :=
  Runs.eachStep_congr (fun _ => True) (fun _ _ _ => trivial)
    (fun s op _ => directUntouched_step s op) ops _ trivial

/-! ### Ports that were never proxied -/

/-- Every mapping is one of these ports. -/
def NatTable.PortsIn (n : NatTable) (ports : List PmxPort) : Prop :=
  ∀ slot ∈ n.slots, slot.used = true → slot.e.srcPort ∈ ports

theorem NatTable.PortsIn.set {n : NatTable} {ports : List PmxPort} (h : n.PortsIn ports) (i : ℕ)
    {v : NatSlot} (hv : v.used = true → v.e.srcPort ∈ ports) : (n.setSlot i v).PortsIn ports := by
  intro slot hslot hused
  rcases List.mem_or_eq_of_mem_set hslot with hold | rfl
  · exact h slot hold hused
  · exact hv hused

theorem NatTable.PortsIn.find {n : NatTable} {ports : List PmxPort} (h : n.PortsIn ports)
    (port : PmxPort) (now : ℕ) : (pmxNatFind n port now).1.PortsIn ports := by
  rcases pmxNatFind_cases n port now with heq | ⟨i, slot, hi, -, heq⟩
  · rw [heq]
    exact h
  · rw [heq]
    exact h.set i (h slot (List.mem_of_getElem? hi))

theorem NatTable.PortsIn.markClosed {n : NatTable} {ports : List PmxPort} (h : n.PortsIn ports)
    (port : PmxPort) : (pmxNatMarkClosed n port).PortsIn ports := by
  rcases pmxNatMarkClosed_cases n port with heq | ⟨i, slot, hi, -, heq⟩
  · rw [heq]
    exact h
  · rw [heq]
    exact h.set i (h slot (List.mem_of_getElem? hi))

theorem NatTable.PortsIn.add {n : NatTable} {ports : List PmxPort} (h : n.PortsIn ports)
    (srcAddr : UInt32) (port : PmxPort) (dstAddr : UInt32) (dstPort : PmxPort) (now : ℕ) :
    (pmxNatAdd n srcAddr port dstAddr dstPort now).1.PortsIn (port :: ports) := by
  have hmore : n.PortsIn (port :: ports) :=
    fun slot hslot hused => List.mem_cons_of_mem _ (h slot hslot hused)
  rcases pmxNatAdd_cases n srcAddr port dstAddr dstPort now with
    ⟨-, heq⟩ | ⟨-, -, i, slot, count, -, heq, -⟩
  · rw [heq]
    exact hmore
  · rw [heq]
    exact hmore.set i fun _ => List.mem_cons_self

/-- What a connect does to the mappings. -/
theorem wdPump_nat (im : WdImpl) (decide : PmxFlow → PmxDecision) (addr : WdAddr) (env : WdEventEnv) :
    (wdPump im decide addr env).1.nat = im.nat ∨
      isProxied im decide addr env = true ∧ ∃ nat dstPort, im.nat = some nat ∧
        (wdPump im decide addr env).1.nat =
          some (pmxNatAdd nat addr.localAddr addr.localPort addr.remoteAddr dstPort env.natMs).1 := by
  by_cases hgated : addr.gated im = true
  · rw [(wdPump_of_gated hgated decide env).2.2, wdVerdict]
    have hcounted : wdDecision im.counted decide (wdFlow im addr env)
        = wdDecision im decide (wdFlow im addr env) := rfl
    cases hverdict : (wdDecision im decide (wdFlow im addr env)).verdict with
    | direct => exact Or.inl rfl
    | block => exact Or.inl rfl
    | proxy =>
      dsimp only
      rw [wdRegister]
      split
      · next relay nat hrelay hnat =>
        split_ifs with hroute
        · dsimp only
          split_ifs with hreg
          · refine Or.inr ⟨?_, nat, _, hnat, rfl⟩
            rw [isProxied, hgated, hverdict]
            rfl
          · exact Or.inl rfl
        · exact Or.inl rfl
      · exact Or.inl rfl
  · rw [wdPump, if_neg hgated]
    exact Or.inl rfl

/-- Every mapping is of a port that was proxied, and there is none unless the backend runs. -/
structure MappedProxied (s : NetSystem) : Prop where
  mapped : ∀ nat, s.im.nat = some nat → nat.PortsIn s.proxied
  idle : s.im.running = false → s.proxied = []

theorem MappedProxied.create (pid : UInt32) : MappedProxied (netSystemCreate pid) where
  mapped := fun _ h => by cases h
  idle := fun _ => rfl

/-- What does not touch the mappings and does not stop the backend. -/
theorem MappedProxied.of_same {s s' : NetSystem} (h : MappedProxied s) (hnat : s'.im.nat = s.im.nat)
    (hproxied : s'.proxied = s.proxied) (hrun : s'.im.running = s.im.running) : MappedProxied s' where
  mapped := by rw [hnat, hproxied]; exact h.mapped
  idle := by rw [hrun, hproxied]; exact h.idle

/-- The table after a start: as it was, none or a new one. -/
theorem wdStart_nat (os : WdOs) (im : WdImpl) (cfg : PmxBackendConfig) :
    (wdStart os im cfg).1.nat = im.nat ∨ (wdStart os im cfg).1.nat = none ∨
      (wdStart os im cfg).1.nat = some (pmxNatCreate 1024 120000) := by
  rw [wdStart]
  cases os.socketLayer <;> dsimp only <;> split_ifs <;> simp

theorem MappedProxied.start {s : NetSystem} (h : MappedProxied s) (os : WdOs) (cfg : PmxBackendConfig) :
    MappedProxied (netStep s (.start os cfg)) := by
  rw [netStep]
  split_ifs with hrun
  · exact h
  · have hempty := h.idle (Bool.eq_false_iff.2 hrun)
    refine ⟨fun nat hnat => ?_, fun _ => rfl⟩
    rcases wdStart_nat os s.im cfg with heq | heq | heq
    · rw [← hempty]
      exact h.mapped nat (heq.symm.trans hnat)
    · cases heq.symm.trans hnat
    · obtain rfl := Option.some.inj (heq.symm.trans hnat)
      intro slot hslot hused
      rw [unused_of_mem_create hslot] at hused
      cases hused

theorem MappedProxied.connect {s : NetSystem} (h : MappedProxied s) (decide : PmxFlow → PmxDecision)
    (addr : WdAddr) (env : WdEventEnv) : MappedProxied (netStep s (.connect decide addr env)) := by
  rw [netStep]
  by_cases hrun : s.im.running = true
  · rw [if_pos hrun]
    have hrun' := (wdPump_flags s.im decide addr env).1
    refine ⟨fun nat hnat => ?_, fun hidle => ?_⟩
    · rcases wdPump_nat s.im decide addr env with heq | ⟨hproxied, nat₀, dstPort, hnat₀, heq⟩
      · have hold := h.mapped nat (heq.symm.trans hnat)
        dsimp only
        split_ifs
        · exact fun slot hslot hused => List.mem_cons_of_mem _ (hold slot hslot hused)
        · exact hold
      · obtain rfl := Option.some.inj (heq.symm.trans hnat)
        dsimp only
        rw [if_pos hproxied]
        exact (h.mapped nat₀ hnat₀).add _ _ _ _ _
    · rw [hrun', hrun] at hidle
      cases hidle
  · rw [if_neg hrun]
    exact h

theorem wdNetPump_nat (im : WdImpl) (p : WdPacket) (now : ℕ) :
    (wdNetPump im p now).im.running = im.running ∧
      ((wdNetPump im p now).im.nat = im.nat ∨ ∃ nat port, im.nat = some nat ∧
        (wdNetPump im p now).im.nat = some (pmxNatFind nat port now).1) := by
  rw [wdNetPump]
  split
  · next nat _ _ hnat =>
    dsimp only
    split_ifs
    · split
      · split_ifs
        · exact ⟨rfl, Or.inr ⟨nat, _, hnat, rfl⟩⟩
        · exact ⟨rfl, Or.inr ⟨nat, _, hnat, rfl⟩⟩
      · exact ⟨rfl, Or.inr ⟨nat, _, hnat, rfl⟩⟩
    · split
      · exact ⟨rfl, Or.inr ⟨nat, _, hnat, rfl⟩⟩
      · exact ⟨rfl, Or.inr ⟨nat, _, hnat, rfl⟩⟩
  · exact ⟨rfl, Or.inl rfl⟩

theorem MappedProxied.packet {s : NetSystem} (h : MappedProxied s) (p : WdPacket) (now : ℕ) :
    MappedProxied (netStep s (.packet p now)) := by
  rw [netStep]
  split_ifs
  · obtain ⟨hrun, hnat⟩ := wdNetPump_nat s.im p now
    refine ⟨fun nat hnat' => ?_, fun hidle => h.idle (hrun.symm.trans hidle)⟩
    rcases hnat with heq | ⟨nat₀, port, hnat₀, heq⟩
    · exact h.mapped nat (heq.symm.trans hnat')
    · obtain rfl := Option.some.inj (heq.symm.trans hnat')
      exact (h.mapped nat₀ hnat₀).find port now
  · exact h

theorem MappedProxied.step {s : NetSystem} (h : MappedProxied s) (op : NetOp) :
    MappedProxied (netStep s op) := by
  cases op with
  | start os cfg => exact h.start os cfg
  | stop => exact ⟨(fun _ hnat => by cases hnat), fun _ => rfl⟩
  | connect decide addr env => exact h.connect decide addr env
  | packet p now => exact h.packet p now
  | flowEnd port =>
    refine ⟨fun nat hnat => ?_, h.idle⟩
    obtain ⟨nat₀, hnat₀, rfl⟩ := Option.map_eq_some_iff.1 hnat
    exact (h.mapped nat₀ hnat₀).markClosed port
  | relay relay => exact h.of_same rfl rfl rfl
  | leave addr => exact h.of_same rfl rfl rfl

/-- The packet comes from a port that no proxied connect has had. -/
def FreshPort (s : NetSystem) : NetOp → Prop
  | .packet p _ => ∀ tcp, p.tcp = some tcp → tcp.srcPort ∉ s.proxied
  | _ => True

/-- A port that was never proxied is clear. -/
theorem MappedProxied.portClear {s : NetSystem} (h : MappedProxied s) {op : NetOp}
    (hfresh : FreshPort s op) : PortClear s op := by
  cases op with
  | packet p now =>
    intro _ ip tcp nat _ htcp hnat
    refine Or.inr fun slot hslot => ?_
    obtain ⟨hused, hport⟩ := lookup_holds hslot
    have hin := h.mapped nat hnat slot (List.mem_of_find?_eq_some hslot) hused
    rw [hport] at hin
    exact absurd hin (hfresh tcp htcp)
  | _ => trivial

/-- **Direct traffic on a fresh port.**  In every run, a direct packet from a port that no proxied connect
has had since the backend started is left alone and refreshes nothing. -/
theorem direct_of_freshPort (pid : UInt32) (ops : List NetOp) :
    Runs.EachStep netStep (fun s op => FreshPort s op → DirectUntouched s op) (netSystemCreate pid) ops :=
  Runs.eachStep_of_inv MappedProxied (fun _ op h => h.step op)
    (fun s op h hfresh => (directUntouched_step s op).2 (h.portClear hfresh)) ops _
    (MappedProxied.create pid)

/-- A packet of the connect `wdTcpConnect`. -/
def wdTcpPacket : WdPacket := ⟨true, false, some ⟨3232235786, 1572395042⟩, some ⟨50000, 443⟩⟩

/-- A proxied connection ends, and within its time to live the same port is used for a direct one to the
same server: its packets go to the relay. -/
theorem not_directUntouched_samePort :
    let s := Runs.runFrom netStep (netSystemCreate 7)
      [.start wdOsOk pmxBackendConfigDefaults,
        .connect (fun f => pmxResolveWithProfile oneProxyProfile f.query) wdTcpConnect wdPlainEnv,
        .leave wdTcpConnect,
        .connect (fun f => pmxResolveWithProfile pmxProfileInit f.query) wdTcpConnect wdPlainEnv]
    s.direct = [wdTcpConnect] ∧ wdTcpPacket.Of wdTcpConnect ∧ wdCaptured s.im wdTcpPacket = true ∧
      (wdNetPump s.im wdTcpPacket 2000).rewrote = true ∧
      (wdNetPump s.im wdTcpPacket 2000).packet
        = ⟨true, true, some ⟨0x7F000001, 0x7F000001⟩, some ⟨50000, 9000⟩⟩ := by
  decide +kernel

end ProxiMight
