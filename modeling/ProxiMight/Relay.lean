import ProxiMight.Profile
import ProxiMight.SlotTable

/-!
# The relay (`pmx_relay.c`)

A redirected connection is announced to the relay under its source port, with its real destination and
the chain of proxies to take.  The accept thread consumes the announcement and hands the connection to
a worker thread of its own; the worker ends, sets `done`, and then calls the close callback.

The mutex makes each definition below one step.  What the network and the operating system answer is an
argument; the clock is monotonic, so the difference `expire_locked` takes does not wrap.  The sockets
and the bytes spliced are left out.  `flow` names the flow an entry was registered for: the code keeps
no such thing, and nothing here reads it.
-/

namespace ProxiMight

open CString

/-- `PMX_RELAY_MAX_CONNS`. -/
def pmxRelayMaxConns : ℕ := 64

/-- `PMX_RELAY_MAX_PENDING`. -/
def pmxRelayMaxPending : ℕ := 64

/-- `PMX_RELAY_ENTRY_TTL_MS`. -/
def pmxRelayEntryTtlMs : ℕ := 30000

/-- `relay_entry`; `chain` holds the first `chain_len` proxies. -/
structure RelayEntry where
  srcPort : PmxPort
  dstHost : CBuf pmxMaxHost
  dstPort : PmxPort
  chain : List PmxProxy
  addedMs : ℕ
  flow : ℕ
  deriving DecidableEq

/-- How far a worker got: on its way through the chain, splicing, with `done` set and the close
callback still to be called, or gone. -/
inductive WorkerPhase
  | connecting
  | splicing
  | calling
  | exited
  deriving DecidableEq

/-- `relay_conn`. -/
structure RelayConn where
  srcPort : PmxPort
  dstHost : CBuf pmxMaxHost
  dstPort : PmxPort
  chain : List PmxProxy
  phase : WorkerPhase
  flow : ℕ
  deriving DecidableEq

/-- The flag `done`. -/
def RelayConn.done (c : RelayConn) : Bool := c.phase == .calling || c.phase == .exited

/-- `struct pmx_relay`; both tables fit their arrays. -/
structure PmxRelay where
  port : PmxPort
  running : Bool
  pending : List RelayEntry
  conns : List RelayConn
  statOk : ℕ
  statFailed : ℕ
  pending_fit : pending.length ≤ pmxRelayMaxPending
  conns_fit : conns.length ≤ pmxRelayMaxConns

/-- `pmx_relay_start`, listening on `port`. -/
def pmxRelayStart (port : PmxPort) : PmxRelay where
  port := port
  running := true
  pending := []
  conns := []
  statOk := 0
  statFailed := 0
  pending_fit := Nat.zero_le _
  conns_fit := Nat.zero_le _

/-! ### Announcements -/

/-- `expire_locked`. -/
def expireLocked (r : PmxRelay) (now : ℕ) : PmxRelay :=
  { r with
      pending := r.pending.filter fun e => decide (now - e.addedMs < pmxRelayEntryTtlMs)
      pending_fit := Nat.le_trans (List.length_filter_le _ _) r.pending_fit }

/-- The test of the loops over the pending table. -/
def RelayEntry.isFor (srcPort : PmxPort) (e : RelayEntry) : Bool := e.srcPort == srcPort

/-- The pending entry of a port. -/
def PmxRelay.pendingFor (r : PmxRelay) (srcPort : PmxPort) : Option RelayEntry :=
  r.pending.find? (RelayEntry.isFor srcPort)

/-- `chain` is the array passed, `now` and `addedMs` the two readings of the clock. -/
def pmxRelayRegister (r : PmxRelay) (srcPort : PmxPort) (dstHost : List UInt8) (dstPort : PmxPort)
    (chain : List PmxProxy) (chainLen now addedMs flow : ℕ) : PmxRelay × PmxStatus :=
  if srcPort = 0 ∨ chainLen = 0 ∨ chainLen > pmxMaxChainHops then (r, .errInvalidArg)
  else
    let r := expireLocked r now
    let e : RelayEntry :=
      ⟨srcPort, strlcpy pmxMaxHost dstHost, dstPort, chain.take chainLen, addedMs, flow⟩
    match r.pending.findIdx? (RelayEntry.isFor srcPort) with
    -- a stale entry of the port is replaced
    | some i =>
      ({ r with
          pending := r.pending.set i e
          pending_fit := List.length_set.trans_le r.pending_fit }, .ok)
    | none =>
      if h : r.pending.length ≥ pmxRelayMaxPending then (r, .errState)
      else
        ({ r with
            pending := r.pending ++ [e]
            pending_fit := SlotTable.length_concat_le (Nat.not_le.1 h) e }, .ok)

/-- `relay_take`: the entry of the port is consumed. -/
def relayTake (r : PmxRelay) (srcPort : PmxPort) (now : ℕ) : PmxRelay × Option RelayEntry :=
  let r := expireLocked r now
  match r.pendingFor srcPort with
  | some e =>
    ({ r with
        pending := r.pending.eraseP (RelayEntry.isFor srcPort)
        pending_fit := Nat.le_trans List.length_eraseP_le r.pending_fit }, some e)
  | none => (r, none)

/-! ### Connections -/

/-- `relay_reap(r, false)`: the table without the finished connections, and these, whose workers it
then joins. -/
def relayReap (r : PmxRelay) : PmxRelay × List RelayConn :=
  ({ r with
      conns := r.conns.filter fun c => !c.done
      conns_fit := Nat.le_trans (List.length_filter_le _ _) r.conns_fit },
    r.conns.filter RelayConn.done)

/-- The join has returned: no worker has its callback still to call. -/
def Joined (harvest : List RelayConn) : Prop := ∀ c ∈ harvest, c.phase ≠ .calling

instance (harvest : List RelayConn) : Decidable (Joined harvest) :=
  inferInstanceAs (Decidable (∀ c ∈ _, _))

/-- The connection `relay_accept_worker` makes of an entry. -/
def RelayEntry.conn (e : RelayEntry) (phase : WorkerPhase) : RelayConn :=
  ⟨e.srcPort, e.dstHost, e.dstPort, e.chain, phase, e.flow⟩

/-- The rest of a round of `relay_accept_worker`, after `relay_reap`: whether there is memory, and
whether a thread can be started.  The second component is the entry of a connection that is closed
without a worker. -/
def relayServe (r : PmxRelay) (peerPort : PmxPort) (now : ℕ) (allocOk threadOk : Bool) :
    PmxRelay × Option RelayEntry :=
  let taken := relayTake r peerPort now
  let r := taken.1
  match taken.2 with
  | none => ({ r with statFailed := r.statFailed + 1 }, none)
  | some e =>
    if !allocOk then (r, some e)
    else if h : r.conns.length < pmxRelayMaxConns then
      let c := e.conn (if threadOk then .connecting else .exited)
      ({ r with
          conns := r.conns ++ [c]
          conns_fit := SlotTable.length_concat_le h c
          statFailed := if threadOk then r.statFailed else r.statFailed + 1 },
        if threadOk then none else some e)
    else ({ r with statFailed := r.statFailed + 1 }, some e)

/-- The worker of connection `i` of the list moves on to `phase`. -/
def setPhase (conns : List RelayConn) (i : ℕ) (phase : WorkerPhase) : List RelayConn :=
  conns.modify i fun c => { c with phase := phase }

/-- The connection `i` of the list, if its worker is in that phase. -/
def connIn (conns : List RelayConn) (i : ℕ) (phase : WorkerPhase) : Option RelayConn :=
  conns[i]?.filter (·.phase == phase)

/-- The worker of connection `i` moves on to `phase`. -/
def PmxRelay.setPhase (r : PmxRelay) (i : ℕ) (phase : WorkerPhase) : PmxRelay :=
  { r with
      conns := ProxiMight.setPhase r.conns i phase
      conns_fit := (List.length_modify _ _ _).trans_le r.conns_fit }

/-- The worker of connection `i` has gone through the chain. -/
def workerEstablished (r : PmxRelay) (i : ℕ) : PmxRelay :=
  { r.setPhase i .splicing with statOk := r.statOk + 1 }

/-- The worker of connection `i` could not: it closes the sockets and sets `done`. -/
def workerFailed (r : PmxRelay) (i : ℕ) : PmxRelay :=
  { r.setPhase i .calling with statFailed := r.statFailed + 1 }

/-- The worker of connection `i` has spliced: it closes the sockets and sets `done`. -/
def workerFinished (r : PmxRelay) (i : ℕ) : PmxRelay := r.setPhase i .calling

theorem connIn_eq_some {conns : List RelayConn} {i : ℕ} {phase : WorkerPhase} {c : RelayConn} :
    connIn conns i phase = some c ↔ conns[i]? = some c ∧ c.phase = phase := by
  rw [connIn, Option.filter_eq_some_iff]
  simp

/-- A connection after a worker moved on: it was there before, or it is the one moved. -/
theorem mem_setPhase {conns : List RelayConn} {i : ℕ} {phase : WorkerPhase} {c : RelayConn}
    (h : c ∈ setPhase conns i phase) :
    c ∈ conns ∨ ∃ c₀, conns[i]? = some c₀ ∧ c = { c₀ with phase := phase } := by
  obtain ⟨j, hj⟩ := List.mem_iff_getElem?.1 h
  rw [setPhase, List.getElem?_modify] at hj
  obtain ⟨c₀, hc₀, heq⟩ := Option.map_eq_some_iff.1 hj
  by_cases hji : i = j
  · rw [if_pos hji] at heq
    exact Or.inr ⟨c₀, by rw [hji, hc₀], heq.symm⟩
  · rw [if_neg hji] at heq
    obtain rfl := heq
    exact Or.inl (List.mem_of_getElem? hc₀)

/-! ### What is pending after a call -/

/-- **A successful registration is what the port's next connection meets.** -/
theorem pendingFor_pmxRelayRegister {r : PmxRelay} {srcPort : PmxPort} {dstHost : List UInt8}
    {dstPort : PmxPort} {chain : List PmxProxy} {chainLen now addedMs flow : ℕ}
    (hok : (pmxRelayRegister r srcPort dstHost dstPort chain chainLen now addedMs flow).2 = .ok) :
    (pmxRelayRegister r srcPort dstHost dstPort chain chainLen now addedMs flow).1.pendingFor srcPort =
      some ⟨srcPort, strlcpy pmxMaxHost dstHost, dstPort, chain.take chainLen, addedMs, flow⟩ := by
  have hself : RelayEntry.isFor srcPort
      ⟨srcPort, strlcpy pmxMaxHost dstHost, dstPort, chain.take chainLen, addedMs, flow⟩ = true :=
    beq_self_eq_true srcPort
  unfold pmxRelayRegister at hok ⊢
  split_ifs at hok ⊢
  dsimp only at hok ⊢
  split at hok
  · next i hi => exact SlotTable.find?_set_of_findIdx? _ hself _ i hi
  · next hnone =>
    split_ifs at hok ⊢
    have hfind : (expireLocked r now).pending.find? (RelayEntry.isFor srcPort) = none := by
      rw [List.find?_eq_none]
      intro e he
      simpa using List.findIdx?_eq_none_iff.1 hnone e he
    show ((expireLocked r now).pending ++ [_]).find? (RelayEntry.isFor srcPort) = _
    rw [List.find?_append, hfind, Option.none_or, List.find?_cons_of_pos hself]

/-- Only a port and a chain that fits can be registered. -/
theorem pmxRelayRegister_valid {r : PmxRelay} {srcPort : PmxPort} {dstHost : List UInt8}
    {dstPort : PmxPort} {chain : List PmxProxy} {chainLen now addedMs flow : ℕ}
    (hok : (pmxRelayRegister r srcPort dstHost dstPort chain chainLen now addedMs flow).2 = .ok) :
    srcPort ≠ 0 ∧ 0 < chainLen ∧ chainLen ≤ pmxMaxChainHops := by
  unfold pmxRelayRegister at hok
  split_ifs at hok with hbad
  rw [not_or, not_or] at hbad
  exact ⟨hbad.1, by omega, by omega⟩

/-- Registering touches no connection. -/
@[simp] theorem pmxRelayRegister_conns (r : PmxRelay) (srcPort : PmxPort) (dstHost : List UInt8)
    (dstPort : PmxPort) (chain : List PmxProxy) (chainLen now addedMs flow : ℕ) :
    (pmxRelayRegister r srcPort dstHost dstPort chain chainLen now addedMs flow).1.conns = r.conns := by
  unfold pmxRelayRegister
  split_ifs
  · rfl
  · dsimp only
    split
    · rfl
    · split_ifs <;> rfl

/-- Taking an entry touches no connection. -/
@[simp] theorem relayTake_conns (r : PmxRelay) (srcPort : PmxPort) (now : ℕ) :
    (relayTake r srcPort now).1.conns = r.conns := by
  unfold relayTake
  dsimp only
  split <;> rfl

/-- The entry taken is one of the pending table. -/
theorem relayTake_mem {r : PmxRelay} {srcPort : PmxPort} {now : ℕ} {e : RelayEntry}
    (h : (relayTake r srcPort now).2 = some e) : e ∈ r.pending ∧ e.srcPort = srcPort := by
  unfold relayTake at h
  dsimp only at h
  split at h
  · next e' he =>
    obtain rfl := Option.some.inj h
    exact ⟨List.mem_of_mem_filter (List.mem_of_find?_eq_some he), by
      simpa [RelayEntry.isFor] using List.find?_some he⟩
  · cases h

/-- A connection after an accept was there before, or it has its worker ahead of it or none at all. -/
theorem mem_relayServe {r : PmxRelay} {peerPort : PmxPort} {now : ℕ} {allocOk threadOk : Bool}
    {c : RelayConn} (h : c ∈ (relayServe r peerPort now allocOk threadOk).1.conns) :
    c ∈ r.conns ∨ c.phase ≠ .calling := by
  have hold : c ∈ (relayTake r peerPort now).1.conns → c ∈ r.conns := by
    rw [relayTake_conns]
    exact id
  unfold relayServe at h
  dsimp only at h
  split at h
  · exact Or.inl (hold h)
  · next e _ =>
    split_ifs at h with halloc hroom hthread
    · exact Or.inl (hold h)
    · rcases List.mem_append.1 h with h | h
      · exact Or.inl (hold h)
      · rw [List.mem_singleton.1 h]
        exact Or.inr WorkerPhase.noConfusion
    · rcases List.mem_append.1 h with h | h
      · exact Or.inl (hold h)
      · rw [List.mem_singleton.1 h]
        exact Or.inr WorkerPhase.noConfusion
    · exact Or.inl (hold h)

end ProxiMight
