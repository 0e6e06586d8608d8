import ProxiMight.DirectTraffic
import ProxiMight.NatInvariants

/-!
# Whose replies come back to whom (`wd_net_pump`)

The packets a proxied application sends are rewritten into a conversation with the relay; what the relay
answers is rewritten back.  Both directions look the mapping up by the source port.  On the way out the
recorded destination is compared with the packet's, as the port may have been taken over by another flow.
On the way back nothing is compared.

The system is the backend, the flows that were registered since it started, last first, and the flows that
have a connection to the relay.  Nothing of these two lists is read by the code.

* **`repliesToOwnFlow_iff`** — over runs: every reply of a flow's relay connection is given that flow's
  endpoints or is left alone, exactly when each comes while its flow is the last that was registered on
  its port, or while the port has no unexpired mapping.
-/

namespace ProxiMight

open NatTable

/-! ### Flows and their packets -/

/-- The endpoints of a connection, the application's first. -/
structure WdFlowEnds where
  srcAddr : UInt32
  srcPort : PmxPort
  dstAddr : UInt32
  dstPort : PmxPort
  deriving DecidableEq

/-- The flow a packet of the application belongs to. -/
def WdPacket.flow (ip : IpHdr) (tcp : TcpHdr) : WdFlowEnds :=
  ⟨ip.srcAddr, tcp.srcPort, ip.dstAddr, tcp.dstPort⟩

/-- The flow of a mapping. -/
def NatEntry.flow (e : NatEntry) : WdFlowEnds := ⟨e.srcAddr, e.srcPort, e.origDstAddr, e.origDstPort⟩

/-- The flow of a connect. -/
def WdAddr.flow (addr : WdAddr) : WdFlowEnds :=
  ⟨addr.localAddr, addr.localPort, addr.remoteAddr, addr.remotePort⟩

/-- The packet is one the relay sends on the connection of the flow. -/
def WdPacket.RepliesTo (p : WdPacket) (im : WdImpl) (f : WdFlowEnds) : Prop :=
  p.outbound = false ∧ p.ip = some ⟨pmxLoopbackHostOrder, pmxLoopbackHostOrder⟩ ∧
    p.tcp = some ⟨im.relayPort, f.srcPort⟩

instance (p : WdPacket) (im : WdImpl) (f : WdFlowEnds) : Decidable (p.RepliesTo im f) :=
  inferInstanceAs (Decidable (_ ∧ _))

/-- The reply as it should reach the application: from the flow's destination to its source. -/
def WdPacket.restored (p : WdPacket) (f : WdFlowEnds) : WdPacket :=
  { p with
      ip := some ⟨f.dstAddr, f.srcAddr⟩
      tcp := some ⟨f.dstPort, f.srcPort⟩
      loopback := false }

/-- The packet that answers another: the same endpoints, the other way. -/
def WdPacket.answer (p : WdPacket) : WdPacket where
  outbound := !p.outbound
  loopback := p.loopback
  ip := p.ip.map fun ip => ⟨ip.dstAddr, ip.srcAddr⟩
  tcp := p.tcp.map fun tcp => ⟨tcp.dstPort, tcp.srcPort⟩

/-- **The two rewrites are inverse**: the relay's answer to a redirected packet of a flow, restored to that
flow, is the answer to the packet. -/
theorem restored_answer_toRelay (im : WdImpl) (ip : IpHdr) (tcp : TcpHdr) :
    let p : WdPacket := ⟨true, false, some ip, some tcp⟩
    (p.toRelay tcp im.relayPort).answer.RepliesTo im (WdPacket.flow ip tcp) ∧
      (p.toRelay tcp im.relayPort).answer.restored (WdPacket.flow ip tcp) = p.answer :=
  ⟨⟨rfl, rfl, rfl⟩, rfl⟩

/-- A reply is captured. -/
theorem WdPacket.RepliesTo.captured {p : WdPacket} {im : WdImpl} {f : WdFlowEnds}
    (h : p.RepliesTo im f) : wdCaptured im p = true := by
  obtain ⟨hout, hip, htcp⟩ := h
  rw [wdCaptured, hip, htcp]
  simp only [hout, Bool.false_eq_true, if_false, beq_self_eq_true, Bool.and_self]

/-! ### The system -/

/-- The backend, the flows registered since it started, and those with a connection to the relay. -/
structure ReplySystem where
  im : WdImpl
  registered : List WdFlowEnds
  relayed : List WdFlowEnds

/-- A step of the system.  `send` is any packet that the application's side sends, `reply` one that the
relay sends on the connection of `f`, and `hangUp` the end of that connection.  `relay`, `flowEnd` are the
relay's threads; `sweep` and `drop` are the operations of the table that the backend does not call. -/
inductive ReplyOp
  | start (os : WdOs) (cfg : PmxBackendConfig)
  | stop
  | connect (decide : PmxFlow → PmxDecision) (addr : WdAddr) (env : WdEventEnv)
  | send (p : WdPacket) (now : ℕ)
  | reply (f : WdFlowEnds) (p : WdPacket) (now : ℕ)
  | hangUp (f : WdFlowEnds)
  | flowEnd (port : PmxPort)
  | relay (relay : PmxRelay)
  | sweep (now : ℕ)
  | drop (port : PmxPort)

/-- The connect is to be proxied, and both tables take it. -/
def wdRegisters (im : WdImpl) (decide : PmxFlow → PmxDecision) (addr : WdAddr) (env : WdEventEnv) : Bool :=
  isProxied im decide addr env &&
    (wdRegister im.counted addr env (wdFlow im addr env) (wdDecision im decide (wdFlow im addr env))).2

/-- A redirected packet is one of the connection to the relay. -/
def noteRelayed (s : ReplySystem) (p : WdPacket) (now : ℕ) : List WdFlowEnds :=
  match p.ip, p.tcp with
  | some ip, some tcp =>
    if (wdNetPump s.im p now).rewrote then WdPacket.flow ip tcp :: s.relayed else s.relayed
  | _, _ => s.relayed

/-- The running backend meets a reply of the flow. -/
def ReplySystem.Replies (s : ReplySystem) (f : WdFlowEnds) (p : WdPacket) : Prop :=
  s.im.running = true ∧ f ∈ s.relayed ∧ p.RepliesTo s.im f

instance (s : ReplySystem) (f : WdFlowEnds) (p : WdPacket) : Decidable (s.Replies f p) :=
  inferInstanceAs (Decidable (_ ∧ _))

/-- What the step does to the table of mappings. -/
def ReplySystem.mapNat (s : ReplySystem) (g : NatTable → NatTable) : ReplySystem :=
  { s with im := { s.im with nat := s.im.nat.map g } }

def replyStep (s : ReplySystem) : ReplyOp → ReplySystem
  | .start os cfg =>
    if s.im.running then s else { im := (wdStart os s.im cfg).1, registered := [], relayed := [] }
  | .stop => { im := (wdStop s.im).1, registered := [], relayed := [] }
  | .connect decide addr env =>
    if s.im.running then
      { s with
          im := (wdPump s.im decide addr env).1
          registered :=
            if wdRegisters s.im decide addr env then addr.flow :: s.registered else s.registered }
    else s
  | .send p now =>
    if s.im.running && p.outbound && wdCaptured s.im p then
      { s with im := (wdNetPump s.im p now).im, relayed := noteRelayed s p now }
    else s
  | .reply f p now => if s.Replies f p then { s with im := (wdNetPump s.im p now).im } else s
  | .hangUp f => { s with relayed := s.relayed.filter (· ≠ f) }
  | .flowEnd port => s.mapNat fun nat => pmxNatMarkClosed nat port
  | .relay relay => { s with im := { s.im with relay := s.im.relay.map fun _ => relay } }
  | .sweep now => s.mapNat fun nat => (pmxNatExpire nat now).1
  | .drop port => s.mapNat fun nat => pmxNatRemove nat port

/-- A backend that was created and bound to its callbacks. -/
def replySystemCreate (pid : UInt32) : ReplySystem where
  im := { wdImplCreate pid with hasCb := true, hasDecide := true }
  registered := []
  relayed := []

/-- A reply is restored to its own flow, or left alone. -/
def ReplyToOwnFlow (s : ReplySystem) : ReplyOp → Prop
  | .reply f p now =>
    s.Replies f p → (wdNetPump s.im p now).packet =
      if (wdNetPump s.im p now).rewrote then p.restored f else p
  | _ => True

/-- The flow that was last registered on the port. -/
def latestOn (flows : List WdFlowEnds) (port : PmxPort) : Option WdFlowEnds :=
  flows.find? fun g => g.srcPort == port

/-- The replying flow is the last that was registered on its port, or the port is not mapped any more. -/
def ReplyOfLatest (s : ReplySystem) : ReplyOp → Prop
  | .reply f p now =>
    s.Replies f p → latestOn s.registered f.srcPort = some f ∨
      ∀ nat slot, s.im.nat = some nat → nat.lookup f.srcPort = some slot → nat.expired slot now = true
  | _ => True

/-! ### Mappings are those of the last registrations -/

/-- A port has one slot, whose mapping is the flow last registered on the port. -/
structure NatTable.MapsLatest (n : NatTable) (flows : List WdFlowEnds) : Prop where
  distinct : n.PortsDistinct
  latest : ∀ slot ∈ n.slots, slot.used = true → latestOn flows slot.e.srcPort = some slot.e.flow

theorem latestOn_cons_self (f : WdFlowEnds) (flows : List WdFlowEnds) :
    latestOn (f :: flows) f.srcPort = some f :=
  List.find?_cons_of_pos (beq_self_eq_true f.srcPort)

theorem latestOn_cons_of_ne {f : WdFlowEnds} {port : PmxPort} (h : port ≠ f.srcPort)
    (flows : List WdFlowEnds) : latestOn (f :: flows) port = latestOn flows port :=
  List.find?_cons_of_neg (by simpa using h.symm)

theorem latestOn_mem {flows : List WdFlowEnds} {port : PmxPort} {f : WdFlowEnds}
    (h : latestOn flows port = some f) : f ∈ flows ∧ f.srcPort = port :=
  ⟨List.mem_of_find?_eq_some h, by simpa using List.find?_some h⟩

namespace NatTable.MapsLatest

variable {n : NatTable} {flows : List WdFlowEnds}

theorem create (capacity : ℕ) (ttlMs : ℤ) (flows : List WdFlowEnds) :
    (pmxNatCreate capacity ttlMs).MapsLatest flows where
  distinct := portsDistinct_create capacity ttlMs
  latest := by
    intro slot hslot hused
    rw [unused_of_mem_create hslot] at hused
    cases hused

/-- An operation that adds no mapping. -/
theorem of_entries (h : n.MapsLatest flows) {n' : NatTable} (hdistinct : n'.PortsDistinct)
    (hsub : ∀ slot ∈ n'.slots, slot.used = true → ∃ old ∈ n.slots, old.used = true ∧ old.e = slot.e) :
    n'.MapsLatest flows where
  distinct := hdistinct
  latest := by
    intro slot hslot hused
    obtain ⟨old, hold, hused', heq⟩ := hsub slot hslot hused
    rw [← heq]
    exact h.latest old hold hused'

theorem find (h : n.MapsLatest flows) (port : PmxPort) (now : ℕ) :
    (pmxNatFind n port now).1.MapsLatest flows := by
  obtain ⟨hdistinct, hsub⟩ := portsDistinct_pmxNatFind h.distinct port now
  refine h.of_entries hdistinct fun slot hslot hused => ?_
  obtain ⟨old, hold, hused', -, heq⟩ := hsub slot hslot
  exact ⟨old, hold, hused'.trans hused, heq⟩

/-- Overwriting a slot in use by one of the same mapping, or emptying it. -/
theorem set (h : n.MapsLatest flows) {i : ℕ} {old v : NatSlot} (hi : n.slots[i]? = some old)
    (hused : old.used = true) (hv : v.used = false ∨ v.used = true ∧ v.e = old.e) :
    (n.setSlot i v).MapsLatest flows := by
  have hport : slotPort v = none ∨ slotPort v = slotPort old := by
    rcases hv with hv | ⟨hv, heq⟩
    · exact Or.inl (by rw [slotPort, if_neg (by rw [hv]; exact Bool.false_ne_true)])
    · exact Or.inr (by rw [slotPort, slotPort, hv, hused, heq])
  refine h.of_entries (SlotTable.KeysDistinct.set_same h.distinct hi hport) ?_
  intro slot hslot husedSlot
  rcases List.mem_or_eq_of_mem_set hslot with hold | rfl
  · exact ⟨slot, hold, husedSlot, rfl⟩
  · rcases hv with hv | ⟨-, heq⟩
    · rw [hv] at husedSlot
      cases husedSlot
    · exact ⟨old, List.mem_of_getElem? hi, hused, heq.symm⟩

theorem markClosed (h : n.MapsLatest flows) (port : PmxPort) :
    (pmxNatMarkClosed n port).MapsLatest flows := by
  rcases pmxNatMarkClosed_cases n port with heq | ⟨i, slot, hi, hlookup, heq⟩
  · rw [heq]
    exact h
  · rw [heq]
    exact h.set hi (lookup_holds hlookup).1 (Or.inr ⟨(lookup_holds hlookup).1, rfl⟩)

theorem remove (h : n.MapsLatest flows) (port : PmxPort) : (pmxNatRemove n port).MapsLatest flows := by
  rcases pmxNatRemove_cases n port with heq | ⟨i, slot, hi, hlookup, heq⟩
  · rw [heq]
    exact h
  · rw [heq]
    have hset := h.set hi (lookup_holds hlookup).1 (v := emptySlot) (Or.inl rfl)
    exact ⟨hset.distinct, hset.latest⟩

theorem expire (h : n.MapsLatest flows) (now : ℕ) : (pmxNatExpire n now).1.MapsLatest flows := by
  refine h.of_entries (portsDistinct_pmxNatExpire h.distinct now) fun slot hslot hused => ?_
  obtain ⟨old, hold, rfl⟩ := List.mem_map.1 hslot
  rw [sweepSlot] at hused ⊢
  split_ifs at hused ⊢
  · cases hused
  · exact ⟨old, hold, hused, rfl⟩

/-- An add that succeeds maps its port to the flow that is registered with it. -/
theorem add (h : n.MapsLatest flows) (f : WdFlowEnds) (now : ℕ)
    (hok : (pmxNatAdd n f.srcAddr f.srcPort f.dstAddr f.dstPort now).2 = .ok) :
    (pmxNatAdd n f.srcAddr f.srcPort f.dstAddr f.dstPort now).1.MapsLatest (f :: flows) := by
  obtain ⟨hdistinct, hslots⟩ :=
    portsDistinct_pmxNatAdd h.distinct f.srcAddr f.srcPort f.dstAddr f.dstPort now
  refine ⟨hdistinct, fun slot hslot hused => ?_⟩
  rcases hslots hok slot hslot hused with rfl | ⟨hold, hne⟩
  · exact latestOn_cons_self f flows
  · rw [latestOn_cons_of_ne hne]
    exact h.latest slot hold hused

end NatTable.MapsLatest

/-! ### The invariant -/

/-- The mappings are those of the last registrations; a port that was registered is not 0; and there are
no registrations unless the backend runs. -/
structure RepliesInv (s : ReplySystem) : Prop where
  mapped : ∀ nat, s.im.nat = some nat → nat.MapsLatest s.registered
  port_ne_zero : ∀ f ∈ s.registered, f.srcPort ≠ 0
  idle : s.im.running = false → s.registered = []

theorem RepliesInv.create (pid : UInt32) : RepliesInv (replySystemCreate pid) where
  mapped := fun _ h => by cases h
  port_ne_zero := fun _ h => by cases h
  idle := fun _ => rfl

/-- A step that registers nothing. -/
theorem RepliesInv.of_same {s s' : ReplySystem} (h : RepliesInv s)
    (hregistered : s'.registered = s.registered) (hrun : s'.im.running = s.im.running)
    (hnat : ∀ nat, s'.im.nat = some nat → nat.MapsLatest s.registered) : RepliesInv s' where
  mapped := by rw [hregistered]; exact hnat
  port_ne_zero := by rw [hregistered]; exact h.port_ne_zero
  idle := by rw [hrun, hregistered]; exact h.idle

theorem RepliesInv.mapNat {s : ReplySystem} (h : RepliesInv s) {g : NatTable → NatTable}
    (hg : ∀ n : NatTable, n.MapsLatest s.registered → (g n).MapsLatest s.registered) :
    RepliesInv (s.mapNat g) := by
  refine h.of_same rfl rfl fun nat hnat => ?_
  obtain ⟨nat₀, hnat₀, rfl⟩ := Option.map_eq_some_iff.1 hnat
  exact hg nat₀ (h.mapped nat₀ hnat₀)

/-- A packet, in either direction, only looks a mapping up. -/
theorem RepliesInv.pumped {s : ReplySystem} (h : RepliesInv s) (p : WdPacket) (now : ℕ)
    (relayed : List WdFlowEnds) :
    RepliesInv { im := (wdNetPump s.im p now).im, registered := s.registered, relayed := relayed } := by
  obtain ⟨hrun, hnat⟩ := wdNetPump_nat s.im p now
  refine h.of_same rfl hrun fun nat hnat' => ?_
  rcases hnat with heq | ⟨nat₀, port, hnat₀, heq⟩
  · exact h.mapped nat (heq.symm.trans hnat')
  · obtain rfl := Option.some.inj (heq.symm.trans hnat')
    exact (h.mapped nat₀ hnat₀).find port now

theorem RepliesInv.start {s : ReplySystem} (h : RepliesInv s) (os : WdOs) (cfg : PmxBackendConfig) :
    RepliesInv (replyStep s (.start os cfg)) := by
  rw [replyStep]
  split_ifs with hrun
  · exact h
  · have hempty := h.idle (Bool.eq_false_iff.2 hrun)
    refine ⟨fun nat hnat => ?_, (fun _ hf => by cases hf), fun _ => rfl⟩
    rcases wdStart_nat os s.im cfg with heq | heq | heq
    · show nat.MapsLatest []
      rw [← hempty]
      exact h.mapped nat (heq.symm.trans hnat)
    · cases heq.symm.trans hnat
    · obtain rfl := Option.some.inj (heq.symm.trans hnat)
      exact NatTable.MapsLatest.create _ _ _

/-- What a connect does to the mappings: nothing, or it adds the mapping of a flow it registers. -/
theorem wdPump_registers (im : WdImpl) (decide : PmxFlow → PmxDecision) (addr : WdAddr)
    (env : WdEventEnv) :
    (wdRegisters im decide addr env = false ∧ (wdPump im decide addr env).1.nat = im.nat) ∨
      (wdRegisters im decide addr env = true ∧ ∃ nat, im.nat = some nat ∧
        let r := pmxNatAdd nat addr.flow.srcAddr addr.flow.srcPort addr.flow.dstAddr addr.flow.dstPort
          env.natMs
        r.2 = .ok ∧ (wdPump im decide addr env).1.nat = some r.1) := by
  by_cases hproxied : isProxied im decide addr env = true
  · obtain ⟨hgated, hverdict⟩ := Bool.and_eq_true_iff.1 hproxied
    rw [wdRegisters, hproxied, Bool.true_and, (wdPump_of_gated hgated decide env).2.2,
      wdVerdict_of_proxy (eq_of_beq hverdict), wdRegister]
    dsimp only
    split
    · next relay nat hrelay hnat =>
      split_ifs with hroute hreg
      · by_cases hadd : (pmxNatAdd nat addr.localAddr addr.localPort addr.remoteAddr
            addr.remotePort env.natMs).2 = .ok
        · exact Or.inr ⟨decide_eq_true hadd, nat, hnat, hadd, rfl⟩
        · exact Or.inl ⟨decide_eq_false hadd, (congrArg some (pmxNatAdd_of_refused hadd)).trans hnat.symm⟩
      · exact Or.inl ⟨rfl, rfl⟩
      · exact Or.inl ⟨rfl, rfl⟩
    · exact Or.inl ⟨rfl, rfl⟩
  · refine Or.inl ⟨by rw [wdRegisters, Bool.eq_false_iff.2 hproxied, Bool.false_and], ?_⟩
    rcases wdPump_nat im decide addr env with heq | ⟨h, -⟩
    · exact heq
    · exact absurd h hproxied

theorem RepliesInv.connect {s : ReplySystem} (h : RepliesInv s) (decide : PmxFlow → PmxDecision)
    (addr : WdAddr) (env : WdEventEnv) : RepliesInv (replyStep s (.connect decide addr env)) := by
  rw [replyStep]
  by_cases hrun : s.im.running = true
  · rw [if_pos hrun]
    have hrun' := (wdPump_flags s.im decide addr env).1
    rcases wdPump_registers s.im decide addr env with ⟨hreg, hnat⟩ | ⟨hreg, nat₀, hnat₀, hok, hnat⟩
    · rw [if_neg (by rw [hreg]; exact Bool.false_ne_true)]
      exact h.of_same rfl hrun' fun nat hnat' => h.mapped nat (hnat.symm.trans hnat')
    · rw [if_pos hreg]
      refine ⟨fun nat hnat' => ?_, fun f hf => ?_, fun hidle => ?_⟩
      · obtain rfl := Option.some.inj (hnat.symm.trans hnat')
        exact (h.mapped nat₀ hnat₀).add addr.flow env.natMs hok
      · rcases List.mem_cons.1 hf with rfl | hold
        · exact pmxNatAdd_port hok
        · exact h.port_ne_zero f hold
      · cases hrun.symm.trans (hrun'.symm.trans hidle)
  · rw [if_neg hrun]
    exact h

theorem RepliesInv.step {s : ReplySystem} (h : RepliesInv s) (op : ReplyOp) :
    RepliesInv (replyStep s op) := by
  cases op with
  | start os cfg => exact h.start os cfg
  | stop => exact ⟨(fun _ hnat => by cases hnat), (fun _ hf => by cases hf), fun _ => rfl⟩
  | connect decide addr env => exact h.connect decide addr env
  | send p now =>
    rw [replyStep]
    split_ifs
    · exact h.pumped p now _
    · exact h
  | reply f p now =>
    rw [replyStep]
    split_ifs
    · exact h.pumped p now _
    · exact h
  | hangUp f => exact h.of_same rfl rfl h.mapped
  | flowEnd port => exact h.mapNat fun _ hn => hn.markClosed port
  | relay relay => exact h.of_same rfl rfl h.mapped
  | sweep now => exact h.mapNat fun _ hn => hn.expire now
  | drop port => exact h.mapNat fun _ hn => hn.remove port

/-! ### Replies -/

/-- What becomes of a reply: it is given the endpoints of the mapping that is found. -/
theorem wdNetPump_of_reply {im : WdImpl} {f : WdFlowEnds} {p : WdPacket} (h : p.RepliesTo im f)
    {nat : NatTable} (hnat : im.nat = some nat) (now : ℕ) :
    (∃ e, (pmxNatFind nat f.srcPort now).2 = some e ∧ (wdNetPump im p now).rewrote = true ∧
        (wdNetPump im p now).packet = p.restored ⟨e.srcAddr, f.srcPort, e.origDstAddr, e.origDstPort⟩) ∨
      ((pmxNatFind nat f.srcPort now).2 = none ∧ (wdNetPump im p now).rewrote = false ∧
        (wdNetPump im p now).packet = p) := by
  obtain ⟨hout, hip, htcp⟩ := h
  rw [wdNetPump, hip, htcp, hnat]
  simp only [hout, Bool.false_eq_true, if_false]
  cases hfind : (pmxNatFind nat f.srcPort now).2 with
  | none => exact Or.inr ⟨rfl, rfl, rfl⟩
  | some e => exact Or.inl ⟨e, rfl, rfl, rfl⟩

/-- Two flows on one port are given the same replies only if they are one. -/
theorem restored_inj {p : WdPacket} {f g : WdFlowEnds} (h : p.restored f = p.restored g) : f = g := by
  obtain ⟨fa, fp, fb, fq⟩ := f
  obtain ⟨ga, gp, gb, gq⟩ := g
  simp only [WdPacket.restored, WdPacket.mk.injEq, Option.some.injEq, IpHdr.mk.injEq,
    TcpHdr.mk.injEq] at h
  obtain ⟨-, -, ⟨rfl, rfl⟩, rfl, rfl⟩ := h
  rfl

theorem replyToOwnFlow_step {s : ReplySystem} (h : RepliesInv s) (op : ReplyOp) :
    ReplyToOwnFlow s op ↔ ReplyOfLatest s op := by
  cases op with
  | reply f p now =>
    refine imp_congr_right fun hreplies => ?_
    cases hnat : s.im.nat with
    | none =>
      refine iff_of_true ?_ (Or.inr fun _ _ hsome => by cases hsome)
      rw [wdNetPump, hreplies.2.2.2.1, hreplies.2.2.2.2, hnat]
      rfl
    | some nat =>
      have hmaps := h.mapped nat hnat
      rcases wdNetPump_of_reply hreplies.2.2 hnat now with ⟨e, hfind, hrew, hpacket⟩ |
        ⟨hfind, hrew, hpacket⟩
      · obtain ⟨hport, slot, hlookup, hexp, rfl⟩ := pmxNatFind_eq_some_iff.1 hfind
        have hslotPort := (lookup_holds hlookup).2
        have hlatest := hmaps.latest slot (List.mem_of_find?_eq_some hlookup) (lookup_holds hlookup).1
        rw [hslotPort] at hlatest
        rw [hrew, if_pos rfl, hpacket, hlatest, ← hslotPort]
        constructor
        · intro heq
          exact Or.inl (congrArg some (restored_inj heq))
        · rintro (heq | hexpired)
          · exact congrArg p.restored (Option.some.inj heq)
          · rw [hslotPort] at hexpired
            cases hexp.symm.trans (hexpired nat slot rfl hlookup)
      · rw [hrew, hpacket]
        refine iff_of_true rfl ?_
        by_cases hlatest : latestOn s.registered f.srcPort = some f
        · exact Or.inl hlatest
        · refine Or.inr fun nat' slot hsame hlookup => ?_
          obtain rfl := Option.some.inj hsame
          by_contra hlive
          -- a mapping that is not expired is found, unless the port is 0
          have hslot := hmaps.latest slot (List.mem_of_find?_eq_some hlookup) (lookup_holds hlookup).1
          have hmem := (latestOn_mem hslot).1
          have hport : f.srcPort ≠ 0 := by
            rw [← (lookup_holds hlookup).2]
            exact h.port_ne_zero _ hmem
          have hsome := pmxNatFind_eq_some_iff.2 ⟨hport, slot, hlookup, Bool.eq_false_iff.2 hlive, rfl⟩
          cases hfind.symm.trans hsome
  | _ => exact Iff.rfl

/-- **To whom replies are delivered.**  In every run of the backend: each reply of the relay on the
connection of a flow is given that flow's endpoints, the inverse of what was done to the flow's own packets,
or is left alone, exactly when at each of them the flow is the last that was registered on its port, or the
port has no mapping that is not expired. -/
theorem repliesToOwnFlow_iff (pid : UInt32) (ops : List ReplyOp) :
    Runs.EachStep replyStep ReplyToOwnFlow (replySystemCreate pid) ops ↔
      Runs.EachStep replyStep ReplyOfLatest (replySystemCreate pid) ops :=
  Runs.eachStep_congr RepliesInv (fun _ op h => h.step op)
    (fun _ op h => replyToOwnFlow_step h op) ops _ (RepliesInv.create pid)

/-- A connect of another process, from the same port on another address, to another server. -/
def wdOtherConnect : WdAddr := ⟨true, ipprotoTcp, false, 9, 167772162, 50000, 134744072, 8443⟩

/-- A flow is proxied and its connection to the relay is up; a second flow is registered on its port; the
relay has data for the first. -/
def sharedPortRun : List ReplyOp :=
  [.start wdOsOk pmxBackendConfigDefaults,
    .connect (fun f => pmxResolveWithProfile oneProxyProfile f.query) wdTcpConnect wdPlainEnv,
    .send wdTcpPacket 1100,
    .connect (fun f => pmxResolveWithProfile oneProxyProfile f.query) wdOtherConnect wdPlainEnv]

/-- What the relay sends on the connection of the first flow. -/
def sharedPortReply : WdPacket :=
  ⟨false, true, some ⟨0x7F000001, 0x7F000001⟩, some ⟨9000, 50000⟩⟩

/-- The data of the first flow is delivered to the address of the second, as if its server had sent it. -/
theorem not_replyToOwnFlow_sharedPort :
    let s := Runs.runFrom replyStep (replySystemCreate 7) sharedPortRun
    s.Replies wdTcpConnect.flow sharedPortReply ∧
      (wdNetPump s.im sharedPortReply 1200).rewrote = true ∧
      (wdNetPump s.im sharedPortReply 1200).packet = sharedPortReply.restored wdOtherConnect.flow ∧
      ¬ReplyToOwnFlow s (.reply wdTcpConnect.flow sharedPortReply 1200) := by
  have hrun : (Runs.runFrom replyStep (replySystemCreate 7) sharedPortRun).Replies wdTcpConnect.flow
        sharedPortReply ∧
      (wdNetPump (Runs.runFrom replyStep (replySystemCreate 7) sharedPortRun).im sharedPortReply
        1200).rewrote = true ∧
      (wdNetPump (Runs.runFrom replyStep (replySystemCreate 7) sharedPortRun).im sharedPortReply
        1200).packet = sharedPortReply.restored wdOtherConnect.flow := by
    decide +kernel
  intro s
  obtain ⟨hreplies, hrew, hpacket⟩ := hrun
  refine ⟨hreplies, hrew, hpacket, fun hown => ?_⟩
  have hsame := hown hreplies
  rw [hrew, if_pos rfl, hpacket] at hsame
  exact absurd (restored_inj hsame) (by decide)

end ProxiMight
