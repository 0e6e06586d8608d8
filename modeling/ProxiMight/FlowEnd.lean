import ProxiMight.Runs
import ProxiMight.WinDivert

/-!
# The end of a flow closes its mapping

When the relay connection of a flow ends, the worker's callback marks the NAT entry of the flow's source
port closed, so that the slot may be reclaimed.  The callback knows the port and nothing else, and the
port may by then belong to a later flow.

The system interleaves the pump thread, which registers a connect and then adds its mapping, the accept
thread, which harvests the finished connections, joins their workers and then serves a client, the
workers, and the lookups of the network layer.  Flows are numbered as they come; the state remembers for
which flow the mapping of a port was last added, and which flows' relay connections have ended.

* **`closedOnlyEnded_iff`** — over runs: only mappings of ended flows are closed, exactly when no
  callback comes while its port is mapped for another flow that has not ended.
-/

namespace ProxiMight

open CString NatTable

/-- The mapping a registered connect is about to get. -/
structure PendingMapping where
  srcAddr : UInt32
  srcPort : PmxPort
  dstAddr : UInt32
  dstPort : PmxPort
  flow : ℕ
  deriving DecidableEq

/-- The two tables, where the pump thread and the accept thread stand, with the connections the latter
joins, and what the flows came to. -/
structure FlowSystem where
  relay : PmxRelay
  nat : NatTable
  registering : Option PendingMapping
  accepting : Option PmxPort
  harvest : List RelayConn
  nextFlow : ℕ
  owner : PmxPort → Option ℕ
  ended : List ℕ

/-- A step of one of the threads.  `register` and `map` are the two calls for one PROXY connect;
`accept` takes a client and harvests, `serve` is the rest of the round.  The callback of a worker comes
before or after its connection was harvested. -/
inductive FlowOp
  | register (srcAddr : UInt32) (srcPort : PmxPort) (dstAddr : UInt32) (dstHost : List UInt8)
      (dstPort : PmxPort) (chain : List PmxProxy) (chainLen now addedMs : ℕ)
  | map (now : ℕ)
  | accept (peerPort : PmxPort)
  | serve (now : ℕ) (allocOk threadOk : Bool)
  | established (i : ℕ)
  | failed (i : ℕ)
  | finished (i : ℕ)
  | callback (i : ℕ)
  | harvestedCallback (i : ℕ)
  | lookup (port : PmxPort) (now : ℕ)

/-- A step that the thread cannot take where it stands changes nothing. -/
def flowStep (s : FlowSystem) : FlowOp → FlowSystem
  | .register srcAddr srcPort dstAddr dstHost dstPort chain chainLen now addedMs =>
    match s.registering with
    | some _ => s
    | none =>
      let r := pmxRelayRegister s.relay srcPort dstHost dstPort chain chainLen now addedMs s.nextFlow
      { s with
          relay := r.1
          registering :=
            if r.2 = .ok then some ⟨srcAddr, srcPort, dstAddr, dstPort, s.nextFlow⟩ else none
          nextFlow := s.nextFlow + 1 }
  | .map now =>
    match s.registering with
    | none => s
    | some m =>
      let r := pmxNatAdd s.nat m.srcAddr m.srcPort m.dstAddr m.dstPort now
      { s with
          nat := r.1
          owner :=
            if r.2 = .ok then fun p => if p = m.srcPort then some m.flow else s.owner p else s.owner
          registering := none }
  | .accept peerPort =>
    match s.accepting with
    | some _ => s
    | none =>
      let r := relayReap s.relay
      { s with relay := r.1, harvest := r.2, accepting := some peerPort }
  | .serve now allocOk threadOk =>
    match s.accepting with
    | none => s
    | some peerPort =>
      if Joined s.harvest then
        let r := relayServe s.relay peerPort now allocOk threadOk
        { s with
            relay := r.1
            ended :=
              match r.2 with
              | some e => e.flow :: s.ended
              | none => s.ended
            harvest := []
            accepting := none }
      else s
  | .established i =>
    match connIn s.relay.conns i .connecting with
    | some _ => { s with relay := workerEstablished s.relay i }
    | none => s
  | .failed i =>
    match connIn s.relay.conns i .connecting with
    | some c => { s with relay := workerFailed s.relay i, ended := c.flow :: s.ended }
    | none => s
  | .finished i =>
    match connIn s.relay.conns i .splicing with
    | some c => { s with relay := workerFinished s.relay i, ended := c.flow :: s.ended }
    | none => s
  | .callback i =>
    match connIn s.relay.conns i .calling with
    | some c =>
      { s with nat := pmxNatMarkClosed s.nat c.srcPort, relay := s.relay.setPhase i .exited }
    | none => s
  | .harvestedCallback i =>
    match connIn s.harvest i .calling with
    | some c =>
      { s with nat := pmxNatMarkClosed s.nat c.srcPort, harvest := setPhase s.harvest i .exited }
    | none => s
  | .lookup port now => { s with nat := (pmxNatFind s.nat port now).1 }

/-- The connection whose close callback the step is. -/
def FlowSystem.caller (s : FlowSystem) : FlowOp → Option RelayConn
  | .callback i => connIn s.relay.conns i .calling
  | .harvestedCallback i => connIn s.harvest i .calling
  | _ => none

/-- The two calls of the pump thread for one connect leave the tables that `wd_pump` leaves. -/
theorem flowStep_register_map {im : WdImpl} {addr : WdAddr} {env : WdEventEnv} {f : PmxFlow}
    {d : PmxDecision} {s : FlowSystem} (hroute : wdRoutable addr f d = true)
    (hrelay : im.relay = some s.relay) (hnat : im.nat = some s.nat) (hidle : s.registering = none)
    (hflow : s.nextFlow = f.flowId) :
    let s' := Runs.runFrom flowStep s
      [.register addr.localAddr addr.localPort addr.remoteAddr f.dstHost.str f.dstPort d.viaArray
        d.viaCount env.expireMs env.registerMs, .map env.natMs]
    (wdRegister im addr env f d).1.relay = some s'.relay ∧
      (wdRegister im addr env f d).1.nat = some s'.nat := by
  intro s'
  have hs' : s' = flowStep (flowStep s (.register addr.localAddr addr.localPort addr.remoteAddr
    f.dstHost.str f.dstPort d.viaArray d.viaCount env.expireMs env.registerMs)) (.map env.natMs) := rfl
  rw [hs', wdRegister, hrelay, hnat]
  simp only [flowStep, hidle, hflow, if_pos hroute]
  by_cases hok : (pmxRelayRegister s.relay addr.localPort f.dstHost.str f.dstPort d.viaArray
      d.viaCount env.expireMs env.registerMs f.flowId).2 = .ok
  · simp [hok]
  · simp [hok]

/-- What `wd_start` sets up. -/
def flowSystemStart (relayPort : PmxPort) : FlowSystem where
  relay := pmxRelayStart relayPort
  nat := pmxNatCreate 1024 120000
  registering := none
  accepting := none
  harvest := []
  nextFlow := 0
  owner := fun _ => none
  ended := []

/-- Every closed entry was added for a flow whose relay connection has ended. -/
def ClosedOnlyEnded (s : FlowSystem) : Prop :=
  ∀ slot ∈ s.nat.slots, slot.used = true → slot.closed = true →
    ∃ f, s.owner slot.e.srcPort = some f ∧ f ∈ s.ended

/-- The port of the connection is mapped, for another flow, which has not ended. -/
def MappedToAnother (s : FlowSystem) (c : RelayConn) : Prop :=
  s.nat.lookup c.srcPort ≠ none ∧
    ∃ f, s.owner c.srcPort = some f ∧ f ≠ c.flow ∧ f ∉ s.ended

/-! ### The invariant -/

/-- A worker calls back after its flow has ended. -/
def CallersEnded (ended : List ℕ) (conns : List RelayConn) : Prop :=
  ∀ c ∈ conns, c.phase = .calling → c.flow ∈ ended

/-- A worker that sets `done` ends its flow. -/
theorem CallersEnded.ends {ended : List ℕ} {conns : List RelayConn} (h : CallersEnded ended conns)
    {i : ℕ} {c : RelayConn} (hi : conns[i]? = some c) :
    CallersEnded (c.flow :: ended) (setPhase conns i .calling) := by
  intro c' hc' hphase
  rcases mem_setPhase hc' with hold | ⟨c₀, hc₀, rfl⟩
  · exact List.mem_cons_of_mem _ (h c' hold hphase)
  · obtain rfl := Option.some.inj (hc₀.symm.trans hi)
    exact List.mem_cons_self

/-- A worker that moves on without setting `done`. -/
theorem CallersEnded.moves {ended : List ℕ} {conns : List RelayConn} (h : CallersEnded ended conns)
    (i : ℕ) {phase : WorkerPhase} (hphase : phase ≠ .calling) :
    CallersEnded ended (setPhase conns i phase) := by
  intro c hc hcalling
  rcases mem_setPhase hc with hold | ⟨c₀, -, rfl⟩
  · exact h c hold hcalling
  · exact absurd hcalling hphase

theorem CallersEnded.cons {ended : List ℕ} {conns : List RelayConn} (h : CallersEnded ended conns)
    (f : ℕ) : CallersEnded (f :: ended) conns :=
  fun c hc hphase => List.mem_cons_of_mem f (h c hc hphase)

/-- A port has one slot, a slot in use has an owner, and a worker calls back after its flow has ended. -/
structure FlowInv (s : FlowSystem) : Prop where
  distinct : s.nat.PortsDistinct
  owned : ∀ slot ∈ s.nat.slots, slot.used = true →
    slot.e.srcPort ≠ 0 ∧ (s.owner slot.e.srcPort).isSome = true
  called : CallersEnded s.ended s.relay.conns
  harvested : CallersEnded s.ended s.harvest

theorem FlowInv.start (relayPort : PmxPort) : FlowInv (flowSystemStart relayPort) where
  distinct := portsDistinct_create 1024 120000
  owned := by
    intro slot hslot hused
    rw [unused_of_mem_create hslot] at hused
    cases hused
  called := fun _ hc => by cases hc
  harvested := fun _ hc => by cases hc

/-- A step of the relay that leaves the mappings alone. -/
theorem FlowInv.of_relay {s : FlowSystem} (h : FlowInv s) {s' : FlowSystem} (hnat : s'.nat = s.nat)
    (howner : s'.owner = s.owner) (hcalled : CallersEnded s'.ended s'.relay.conns)
    (hharvested : CallersEnded s'.ended s'.harvest) : FlowInv s' where
  distinct := by rw [hnat]; exact h.distinct
  owned := by rw [hnat, howner]; exact h.owned
  called := hcalled
  harvested := hharvested

/-- An add hands the port over to the flow it was made for. -/
theorem FlowInv.map {s : FlowSystem} (h : FlowInv s) (now : ℕ) : FlowInv (flowStep s (.map now)) := by
  cases hreg : s.registering with
  | none => simpa only [flowStep, hreg] using h
  | some m =>
    simp only [flowStep, hreg]
    obtain ⟨hdistinct, hslots⟩ :=
      portsDistinct_pmxNatAdd h.distinct m.srcAddr m.srcPort m.dstAddr m.dstPort now
    by_cases hok : (pmxNatAdd s.nat m.srcAddr m.srcPort m.dstAddr m.dstPort now).2 = .ok
    · rw [if_pos hok]
      refine ⟨hdistinct, ?_, h.called, h.harvested⟩
      intro slot hslot hused
      rcases hslots hok slot hslot hused with rfl | ⟨hold, hother⟩
      · exact ⟨pmxNatAdd_port hok, by simp [freshSlot]⟩
      · simp only [if_neg hother]
        exact h.owned slot hold hused
    · rw [if_neg hok, pmxNatAdd_of_refused hok]
      exact ⟨h.distinct, h.owned, h.called, h.harvested⟩

/-- Only a port in use can be looked up. -/
theorem FlowInv.port_ne_zero {s : FlowSystem} (h : FlowInv s) {p : PmxPort}
    (hp : s.nat.lookup p ≠ none) : p ≠ 0 := by
  obtain ⟨slot, hslot⟩ := Option.ne_none_iff_exists'.1 hp
  obtain ⟨hused, rfl⟩ := lookup_holds hslot
  exact (h.owned slot (List.mem_of_find?_eq_some hslot) hused).1

/-- A callback closes a mapping, and changes none. -/
theorem FlowInv.closes {s : FlowSystem} (h : FlowInv s) {s' : FlowSystem} {p : PmxPort}
    (hnat : s'.nat = pmxNatMarkClosed s.nat p) (howner : s'.owner = s.owner)
    (hcalled : CallersEnded s'.ended s'.relay.conns)
    (hharvested : CallersEnded s'.ended s'.harvest) : FlowInv s' := by
  obtain ⟨hdistinct, hslots, -⟩ := portsDistinct_pmxNatMarkClosed h.distinct p h.port_ne_zero
  refine ⟨by rw [hnat]; exact hdistinct, ?_, hcalled, hharvested⟩
  rw [hnat, howner]
  intro slot hslot hused
  rcases hslots slot hslot hused with ⟨hold, -⟩ | ⟨slot₀, hl, rfl⟩
  · exact h.owned slot hold hused
  · exact h.owned slot₀ (List.mem_of_find?_eq_some hl) hused

/-- A connection calls back after its flow has ended. -/
theorem FlowInv.caller_ended {s : FlowSystem} (h : FlowInv s) {op : FlowOp} {c : RelayConn}
    (hc : s.caller op = some c) : c.flow ∈ s.ended := by
  cases op with
  | callback i =>
    obtain ⟨hmem, hcalling⟩ := connIn_eq_some.1 hc
    exact h.called c (List.mem_of_getElem? hmem) hcalling
  | harvestedCallback i =>
    obtain ⟨hmem, hcalling⟩ := connIn_eq_some.1 hc
    exact h.harvested c (List.mem_of_getElem? hmem) hcalling
  | _ => cases hc

theorem FlowInv.step {s : FlowSystem} (h : FlowInv s) (op : FlowOp) : FlowInv (flowStep s op) := by
  cases op with
  | register srcAddr srcPort dstAddr dstHost dstPort chain chainLen now addedMs =>
    cases hreg : s.registering with
    | some m => simpa only [flowStep, hreg] using h
    | none =>
      simp only [flowStep, hreg]
      refine h.of_relay rfl rfl ?_ h.harvested
      simpa only [pmxRelayRegister_conns] using h.called
  | map now => exact h.map now
  | accept peerPort =>
    cases hacc : s.accepting with
    | some _ => simpa only [flowStep, hacc] using h
    | none =>
      simp only [flowStep, hacc]
      exact h.of_relay rfl rfl (fun c hc => h.called c (List.mem_of_mem_filter hc))
        (fun c hc => h.called c (List.mem_of_mem_filter hc))
  | serve now allocOk threadOk =>
    cases hacc : s.accepting with
    | none => simpa only [flowStep, hacc] using h
    | some peerPort =>
      simp only [flowStep, hacc]
      split_ifs
      · refine h.of_relay rfl rfl ?_ fun _ hc => by cases hc
        have hserved : CallersEnded s.ended
            (relayServe s.relay peerPort now allocOk threadOk).1.conns := by
          intro c hc hphase
          rcases mem_relayServe hc with hold | hnew
          · exact h.called c hold hphase
          · exact absurd hphase hnew
        dsimp only
        split
        · exact hserved.cons _
        · exact hserved
      · exact h
  | established i =>
    cases hc : connIn s.relay.conns i .connecting with
    | none => simpa only [flowStep, hc] using h
    | some c =>
      simp only [flowStep, hc]
      exact h.of_relay rfl rfl (h.called.moves i WorkerPhase.noConfusion) h.harvested
  | failed i =>
    cases hc : connIn s.relay.conns i .connecting with
    | none => simpa only [flowStep, hc] using h
    | some c =>
      simp only [flowStep, hc]
      exact h.of_relay rfl rfl (h.called.ends (connIn_eq_some.1 hc).1) (h.harvested.cons _)
  | finished i =>
    cases hc : connIn s.relay.conns i .splicing with
    | none => simpa only [flowStep, hc] using h
    | some c =>
      simp only [flowStep, hc]
      exact h.of_relay rfl rfl (h.called.ends (connIn_eq_some.1 hc).1) (h.harvested.cons _)
  | callback i =>
    cases hc : connIn s.relay.conns i .calling with
    | none => simpa only [flowStep, hc] using h
    | some c =>
      simp only [flowStep, hc]
      exact h.closes rfl rfl (h.called.moves i WorkerPhase.noConfusion) h.harvested
  | harvestedCallback i =>
    cases hc : connIn s.harvest i .calling with
    | none => simpa only [flowStep, hc] using h
    | some c =>
      simp only [flowStep, hc]
      exact h.closes rfl rfl h.called (h.harvested.moves i WorkerPhase.noConfusion)
  | lookup port now =>
    obtain ⟨hdistinct, hslots⟩ := portsDistinct_pmxNatFind h.distinct port now
    refine ⟨hdistinct, ?_, h.called, h.harvested⟩
    intro slot hslot hused
    obtain ⟨slot₀, hmem, hused₀, -, he⟩ := hslots slot hslot
    rw [← he]
    exact h.owned slot₀ hmem (hused₀.trans hused)

/-! ### What a step closes -/

/-- A step that neither closes a mapping nor hands a port over keeps the property. -/
theorem ClosedOnlyEnded.of_slots {s s' : FlowSystem} (hP : ClosedOnlyEnded s)
    (howner : s'.owner = s.owner) (hended : ∀ f ∈ s.ended, f ∈ s'.ended)
    (hslots : ∀ slot ∈ s'.nat.slots, slot.used = true →
      ∃ slot₀ ∈ s.nat.slots, slot₀.used = slot.used ∧ slot₀.closed = slot.closed ∧ slot₀.e = slot.e) :
    ClosedOnlyEnded s' := by
  intro slot hslot hused hclosed
  obtain ⟨slot₀, hmem, hused₀, hclosed₀, he⟩ := hslots slot hslot hused
  obtain ⟨f, hf, hfe⟩ := hP slot₀ hmem (hused₀.trans hused) (hclosed₀.trans hclosed)
  rw [howner, ← he]
  exact ⟨f, hf, hended f hfe⟩

theorem ClosedOnlyEnded.of_nat {s s' : FlowSystem} (hP : ClosedOnlyEnded s) (hnat : s'.nat = s.nat)
    (howner : s'.owner = s.owner) (hended : ∀ f ∈ s.ended, f ∈ s'.ended) : ClosedOnlyEnded s' := by
  apply hP.of_slots howner hended
  intro slot hslot _
  rw [hnat] at hslot
  exact ⟨slot, hslot, rfl, rfl, rfl⟩

/-- A fresh mapping is open, and nothing else changes. -/
theorem ClosedOnlyEnded.map {s : FlowSystem} (hP : ClosedOnlyEnded s) (h : FlowInv s) (now : ℕ) :
    ClosedOnlyEnded (flowStep s (.map now)) := by
  cases hreg : s.registering with
  | none => simpa only [flowStep, hreg] using hP
  | some m =>
    simp only [flowStep, hreg]
    by_cases hok : (pmxNatAdd s.nat m.srcAddr m.srcPort m.dstAddr m.dstPort now).2 = .ok
    · rw [if_pos hok]
      intro slot hslot hused hclosed
      rcases (portsDistinct_pmxNatAdd h.distinct m.srcAddr m.srcPort m.dstAddr m.dstPort now).2 hok
        slot hslot hused with rfl | ⟨hold, hother⟩
      · cases hclosed
      · simp only [if_neg hother]
        exact hP slot hold hused hclosed
    · rw [if_neg hok, pmxNatAdd_of_refused hok]
      exact hP

/-- **One callback.**  It closes only a mapping of an ended flow exactly when its port is not mapped for
another flow that has not ended. -/
theorem closedOnlyEnded_closes_iff {s s' : FlowSystem} (h : FlowInv s) (hP : ClosedOnlyEnded s)
    {c : RelayConn} (hown : c.flow ∈ s.ended) (hnat : s'.nat = pmxNatMarkClosed s.nat c.srcPort)
    (howner : s'.owner = s.owner) (hended : s'.ended = s.ended) :
    ClosedOnlyEnded s' ↔ ¬MappedToAnother s c := by
  obtain ⟨-, hslots, hclosed⟩ := portsDistinct_pmxNatMarkClosed h.distinct c.srcPort h.port_ne_zero
  rw [ClosedOnlyEnded, hnat, howner, hended]
  constructor
  · rintro hP' ⟨hmapped, f, hf, -, hlive⟩
    obtain ⟨slot, hslot⟩ := Option.ne_none_iff_exists'.1 hmapped
    obtain ⟨hused, hport⟩ := lookup_holds hslot
    obtain ⟨f', hf', hended⟩ := hP' _ (hclosed slot hslot) hused rfl
    rw [show s.owner slot.e.srcPort = some f from by rw [hport, hf]] at hf'
    obtain rfl := Option.some.inj hf'
    exact hlive hended
  · intro hnot slot hslot hused hcl
    rcases hslots slot hslot hused with ⟨hold, -⟩ | ⟨slot₀, hl, rfl⟩
    · exact hP slot hold hused hcl
    · obtain ⟨-, hport⟩ := lookup_holds hl
      obtain ⟨f, hf⟩ := Option.isSome_iff_exists.1
        (h.owned slot₀ (List.mem_of_find?_eq_some hl) hused).2
      refine ⟨f, hf, ?_⟩
      by_contra hlive
      refine hnot ⟨by rw [hl]; exact Option.some_ne_none slot₀, f, by rw [← hport, hf], ?_, hlive⟩
      rintro rfl
      exact hlive hown

/-- A step that is no callback keeps the property. -/
theorem ClosedOnlyEnded.of_no_caller {s : FlowSystem} (h : FlowInv s) (hP : ClosedOnlyEnded s)
    {op : FlowOp} (hop : s.caller op = none) : ClosedOnlyEnded (flowStep s op) := by
  cases op with
  | register srcAddr srcPort dstAddr dstHost dstPort chain chainLen now addedMs =>
    cases hreg : s.registering with
    | some m => simpa only [flowStep, hreg] using hP
    | none => simp only [flowStep, hreg]; exact hP.of_nat rfl rfl fun _ hf => hf
  | map now => exact hP.map h now
  | accept peerPort =>
    cases hacc : s.accepting with
    | some _ => simpa only [flowStep, hacc] using hP
    | none => simp only [flowStep, hacc]; exact hP.of_nat rfl rfl fun _ hf => hf
  | serve now allocOk threadOk =>
    cases hacc : s.accepting with
    | none => simpa only [flowStep, hacc] using hP
    | some peerPort =>
      simp only [flowStep, hacc]
      split_ifs
      · refine hP.of_nat rfl rfl fun f hf => ?_
        dsimp only
        split
        · exact List.mem_cons_of_mem _ hf
        · exact hf
      · exact hP
  | established i =>
    cases hc : connIn s.relay.conns i .connecting with
    | none => simpa only [flowStep, hc] using hP
    | some c => simp only [flowStep, hc]; exact hP.of_nat rfl rfl fun _ hf => hf
  | failed i =>
    cases hc : connIn s.relay.conns i .connecting with
    | none => simpa only [flowStep, hc] using hP
    | some c => simp only [flowStep, hc]; exact hP.of_nat rfl rfl fun _ hf => List.mem_cons_of_mem _ hf
  | finished i =>
    cases hc : connIn s.relay.conns i .splicing with
    | none => simpa only [flowStep, hc] using hP
    | some c => simp only [flowStep, hc]; exact hP.of_nat rfl rfl fun _ hf => List.mem_cons_of_mem _ hf
  | callback i =>
    have hc : connIn s.relay.conns i .calling = none := hop
    simpa only [flowStep, hc] using hP
  | harvestedCallback i =>
    have hc : connIn s.harvest i .calling = none := hop
    simpa only [flowStep, hc] using hP
  | lookup port now =>
    refine hP.of_slots ?_ (fun _ hf => ?_) ?_
    · rfl
    · exact hf
    · intro slot hslot _
      exact (portsDistinct_pmxNatFind h.distinct port now).2 slot hslot

/-- What a callback does, wherever its connection is. -/
theorem flowStep_of_caller {s : FlowSystem} {op : FlowOp} {c : RelayConn} (hc : s.caller op = some c) :
    (flowStep s op).nat = pmxNatMarkClosed s.nat c.srcPort ∧ (flowStep s op).owner = s.owner ∧
      (flowStep s op).ended = s.ended := by
  cases op with
  | callback i =>
    have hi : connIn s.relay.conns i .calling = some c := hc
    simp only [flowStep, hi, and_self]
  | harvestedCallback i =>
    have hi : connIn s.harvest i .calling = some c := hc
    simp only [flowStep, hi, and_self]
  | _ => cases hc

/-- A step keeps the property exactly when it is not a callback on a port mapped for another live flow. -/
theorem closedOnlyEnded_step_iff {s : FlowSystem} (h : FlowInv s) (hP : ClosedOnlyEnded s)
    (op : FlowOp) : ClosedOnlyEnded (flowStep s op) ↔
      ∀ c, s.caller op = some c → ¬MappedToAnother s c := by
  cases hc : s.caller op with
  | none => exact iff_of_true (hP.of_no_caller h hc) fun c hc' => by cases hc'
  | some c =>
    obtain ⟨hnat, howner, hended⟩ := flowStep_of_caller hc
    rw [closedOnlyEnded_closes_iff h hP (h.caller_ended hc) hnat howner hended]
    constructor
    · intro hnot c' hc'
      obtain rfl := Option.some.inj hc'
      exact hnot
    · intro hnot
      exact hnot c rfl

/-- **Only ended flows' mappings are closed**, in every state of a run, exactly when no callback of the
run comes while its port is mapped for another flow that has not ended. -/
theorem closedOnlyEnded_iff (relayPort : PmxPort) (ops : List FlowOp) :
    Runs.EachState flowStep ClosedOnlyEnded (flowSystemStart relayPort) ops ↔
      Runs.EachStep flowStep (fun s op => ∀ c, s.caller op = some c → ¬MappedToAnother s c)
        (flowSystemStart relayPort) ops := by
  apply Runs.eachState_iff_eachStep FlowInv (fun s op h => h.step op)
    (fun s op h hP => closedOnlyEnded_step_iff h hP op) ops _ (FlowInv.start relayPort)
  intro slot hslot hused
  rw [unused_of_mem_create hslot] at hused
  cases hused

/-- Flow 0 of port 50000 is still on its way to the proxy when the port is taken over by flow 1; then
the worker of flow 0 fails and calls back. -/
def lateCallbackRun : List FlowOp :=
  [.register 1 50000 2 (bytes "93.184.216.34") 443 [pmxProxyInit] 1 0 0, .map 0, .accept 50000,
    .serve 0 true true,
    .register 1 50000 3 (bytes "203.0.113.9") 80 [pmxProxyInit] 1 5000 5000, .map 5000,
    .failed 0, .callback 0]

/-- Flow 1 has only just been let out, and its mapping is closed. -/
theorem not_closedOnlyEnded_lateCallback :
    ¬Runs.EachState flowStep ClosedOnlyEnded (flowSystemStart 9000) lateCallbackRun := by
  intro h
  have hP := (Runs.eachState_iff_prefix lateCallbackRun (flowSystemStart 9000)).1 h
    lateCallbackRun [] (List.append_nil _).symm
  have hslot : (Runs.runFrom flowStep (flowSystemStart 9000) lateCallbackRun).nat.slots[0]? =
      some ⟨true, true, 5000, ⟨1, 50000, 3, 80, 5000⟩⟩ := by decide +kernel
  have howner : (Runs.runFrom flowStep (flowSystemStart 9000) lateCallbackRun).owner 50000 = some 1 := by
    decide +kernel
  have hended : (Runs.runFrom flowStep (flowSystemStart 9000) lateCallbackRun).ended = [0] := by
    decide +kernel
  obtain ⟨f, hf, hfe⟩ := hP _ (List.mem_of_getElem? hslot) rfl rfl
  obtain rfl : 1 = f := Option.some.inj (howner.symm.trans hf)
  rw [hended] at hfe
  exact absurd hfe (by decide)

end ProxiMight
