import ProxiMight.Relay
import ProxiMight.Runs
import Mathlib.Data.List.Nodup

/-!
# The relay as a service

Announcements, accepted connections and the workers' progress in any order, under a clock that never goes
back.  Ghosts record what happened: every successful registration, newest first and numbered by its
`flow`, every entry an accepted connection has consumed, and for each connection with a worker what the
worker has done on the network.

* **`relay_serves_latest`** — a connection gets a worker only for the latest registration of its port,
  not consumed before and younger than 30 s, and the worker splices only after the whole chain.
-/

namespace ProxiMight

open CString

/-! ### The worker of a connection (`relay_conn_worker`) -/

/-- What a worker does on the network, and whether it succeeds. -/
inductive RelayAct
  | dial (host : CBuf pmxMaxHost) (port : PmxPort) (ok : Bool)
  | handshake (hop : PmxProxy) (host : CBuf pmxMaxHost) (port : PmxPort) (ok : Bool)
  | splice
  deriving DecidableEq

/-- Where a worker stands: before its dial, before the handshake with hop `i`, splicing, or done. -/
inductive RelayStage
  | dialling
  | hop (i : ℕ)
  | splicing
  | closed
  deriving DecidableEq

/-- A worker with the entry it was handed, and what it has done so far. -/
structure ConnWorker where
  entry : RelayEntry
  stage : RelayStage
  trace : List RelayAct
  deriving DecidableEq

/-- `next_host` and `next_port` of hop `i`: the next hop, or the destination behind the last one. -/
def RelayEntry.nextHop (e : RelayEntry) (i : ℕ) : CBuf pmxMaxHost × PmxPort :=
  match e.chain[i + 1]? with
  | some p => (p.host, p.port)
  | none => (e.dstHost, e.dstPort)

/-- The head of the hop loop: the handshake with hop `i`, or the splice behind the last one. -/
def ConnWorker.enterHop (w : ConnWorker) (i : ℕ) : ConnWorker :=
  if i < w.entry.chain.length then { w with stage := .hop i }
  else { w with stage := .splicing, trace := w.trace ++ [.splice] }

/-- The next thing a worker does; `ok` is whether it succeeds, and while splicing whether it goes on. -/
def connWorkerStep (w : ConnWorker) (ok : Bool) : ConnWorker :=
  match w.stage with
  | .dialling =>
    match w.entry.chain[0]? with
    | some p =>
      let w := { w with trace := w.trace ++ [RelayAct.dial p.host p.port ok] }
      if ok then w.enterHop 0 else { w with stage := .closed }
    -- a chain is never empty, see `pmxRelayRegister_valid`
    | none => { w with stage := .closed }
  | .hop i =>
    match w.entry.chain[i]? with
    | some p =>
      let next := w.entry.nextHop i
      let w := { w with trace := w.trace ++ [RelayAct.handshake p next.1 next.2 ok] }
      if ok then w.enterHop (i + 1) else { w with stage := .closed }
    | none => { w with stage := .closed }
  | .splicing => if ok then w else { w with stage := .closed }
  | .closed => w

/-- The handshakes with the first `n` hops, each towards the next one. -/
def RelayEntry.handshakes (e : RelayEntry) (n : ℕ) : List RelayAct :=
  (e.chain.take n).mapIdx fun i p => .handshake p (e.nextHop i).1 (e.nextHop i).2 true

/-- The dial of the first hop, and the handshakes with the first `n`. -/
def RelayEntry.path (e : RelayEntry) (n : ℕ) : List RelayAct :=
  (e.chain.take 1).map (fun p => .dial p.host p.port true) ++ e.handshakes n

/-- What the trace of a worker says about its stage. -/
def ConnWorker.Faithful (w : ConnWorker) : Prop :=
  match w.stage with
  | .dialling => w.trace = [] ∧ 0 < w.entry.chain.length
  | .hop i => w.trace = w.entry.path i ∧ i < w.entry.chain.length
  | .splicing => w.trace = w.entry.path w.entry.chain.length ++ [.splice]
  | .closed =>
    .splice ∈ w.trace → w.trace = w.entry.path w.entry.chain.length ++ [.splice]

theorem RelayEntry.path_succ {e : RelayEntry} {i : ℕ} {p : PmxProxy} (h : e.chain[i]? = some p) :
    e.path (i + 1)
      = e.path i ++ [.handshake p (e.nextHop i).1 (e.nextHop i).2 true] := by
  obtain ⟨hlt, hget⟩ := List.getElem?_eq_some_iff.1 h
  have htake : e.chain.take (i + 1) = e.chain.take i ++ [p] := by
    rw [List.take_add_one, h]
    rfl
  have hlen : (e.chain.take i).length = i := by
    rw [List.length_take]
    omega
  rw [RelayEntry.path, RelayEntry.path, RelayEntry.handshakes, RelayEntry.handshakes, htake,
    List.mapIdx_concat, hlen, List.append_assoc]

theorem splice_notMem_path (e : RelayEntry) (n : ℕ) : .splice ∉ e.path n := by
  rw [RelayEntry.path, RelayEntry.handshakes, List.mem_append, not_or]
  constructor
  · intro h
    obtain ⟨_, -, hp⟩ := List.mem_map.1 h
    cases hp
  · intro h
    obtain ⟨_, _, hp⟩ := List.mem_mapIdx.1 h
    cases hp

/-- At the head of the loop the path so far is complete. -/
theorem ConnWorker.Faithful.enterHop {w : ConnWorker} {i : ℕ} (h : w.trace = w.entry.path i)
    (hi : i ≤ w.entry.chain.length) : (w.enterHop i).Faithful := by
  rw [ConnWorker.enterHop]
  split_ifs with hlt
  · exact ⟨h, hlt⟩
  · have heq : i = w.entry.chain.length := by omega
    show w.trace ++ [.splice] = w.entry.path w.entry.chain.length ++ [.splice]
    rw [h, heq]

theorem ConnWorker.Faithful.step {w : ConnWorker} (h : w.Faithful) (ok : Bool) :
    (connWorkerStep w ok).Faithful := by
  rw [ConnWorker.Faithful] at h
  rw [connWorkerStep]
  cases hstage : w.stage with
  | dialling =>
    rw [hstage] at h
    obtain ⟨htrace, hpos⟩ := h
    have hfirst : w.entry.chain[0]? = some w.entry.chain[0] := List.getElem?_eq_getElem hpos
    dsimp only
    rw [hfirst, htrace]
    cases ok with
    | true =>
      apply ConnWorker.Faithful.enterHop _ (Nat.zero_le _)
      show [RelayAct.dial _ _ true] = (w.entry.chain.take 1).map _ ++ w.entry.handshakes 0
      rw [List.take_add_one, hfirst]
      rfl
    | false =>
      intro hmem
      cases List.mem_singleton.1 hmem
  | hop i =>
    rw [hstage] at h
    obtain ⟨htrace, hi⟩ := h
    have hget : w.entry.chain[i]? = some w.entry.chain[i] := List.getElem?_eq_getElem hi
    dsimp only
    rw [hget, htrace]
    cases ok with
    | true =>
      refine ConnWorker.Faithful.enterHop (i := i + 1) ?_ hi
      exact (RelayEntry.path_succ hget).symm
    | false =>
      intro hmem
      rcases List.mem_append.1 hmem with hmem | hmem
      · exact absurd hmem (splice_notMem_path w.entry i)
      · cases List.mem_singleton.1 hmem
  | splicing =>
    rw [hstage] at h
    cases ok with
    | true =>
      show w.Faithful
      rw [ConnWorker.Faithful, hstage]
      exact h
    | false => exact fun _ => h
  | closed =>
    show w.Faithful
    rw [ConnWorker.Faithful, hstage]
    rw [hstage] at h
    exact h

@[simp] theorem connWorkerStep_entry (w : ConnWorker) (ok : Bool) :
    (connWorkerStep w ok).entry = w.entry := by
  have henter : ∀ (w : ConnWorker) (i : ℕ), (w.enterHop i).entry = w.entry := by
    intro w i
    rw [ConnWorker.enterHop]
    split_ifs <;> rfl
  rw [connWorkerStep]
  split
  · split
    · dsimp only
      split_ifs
      · exact henter _ 0
      · rfl
    · rfl
  · split
    · dsimp only
      split_ifs
      · exact henter _ _
      · rfl
    · rfl
  · split_ifs <;> rfl
  · rfl

/-- **Never a shorter chain.**  A worker that has spliced has dialled the first hop and gone through the
handshakes of all hops, each towards the next and the last towards the destination. -/
theorem ConnWorker.Faithful.spliced {w : ConnWorker} (h : w.Faithful) (hsplice : .splice ∈ w.trace) :
    w.trace = w.entry.path w.entry.chain.length ++ [.splice] := by
  rw [ConnWorker.Faithful] at h
  split at h
  · rw [h.1] at hsplice
    cases hsplice
  · rw [h.1] at hsplice
    exact absurd hsplice (splice_notMem_path _ _)
  · exact h
  · exact h hsplice

/-! ### The service -/

/-- The arguments of `pmx_relay_register`: the destination stands in a buffer of `PMX_MAX_HOST` bytes, as
in the flow the caller registers, and the array holds the proxies the caller counts. -/
structure RegisterCall where
  srcPort : PmxPort
  dstHost : CBuf pmxMaxHost
  dstPort : PmxPort
  chain : List PmxProxy
  chainLen : ℕ
  chain_holds : chainLen ≤ chain.length

/-- The relay, the clock, the ghosts, and the workers in the order their connections were accepted. -/
structure RelayService where
  relay : PmxRelay
  clock : ℕ
  registered : List RelayEntry
  taken : List RelayEntry
  workers : List ConnWorker

def relayServiceStart (port : PmxPort) : RelayService := ⟨pmxRelayStart port, 0, [], [], []⟩

/-- A registration, with the time since the last event and the time between its two readings of the
clock; an accepted connection; or the next thing worker `k` does. -/
inductive RelayEvent
  | register (call : RegisterCall) (elapsed between : ℕ)
  | accept (peerPort : PmxPort) (elapsed : ℕ) (allocOk threadOk : Bool)
  | work (k : ℕ) (ok : Bool)

namespace RelayService

variable (s : RelayService)

/-- The entry the call asks for, numbered by the registrations before it. -/
def entryOf (call : RegisterCall) (addedMs : ℕ) : RelayEntry :=
  ⟨call.srcPort, call.dstHost, call.dstPort, call.chain.take call.chainLen, addedMs,
    s.registered.length⟩

/-- `pmx_relay_register`. -/
def register (call : RegisterCall) (elapsed between : ℕ) : PmxRelay × PmxStatus :=
  pmxRelayRegister s.relay call.srcPort call.dstHost.str call.dstPort call.chain call.chainLen
    (s.clock + elapsed) (s.clock + elapsed + between) s.registered.length

/-- The entry an accepted connection consumes. -/
def takes (peerPort : PmxPort) (elapsed : ℕ) : Option RelayEntry :=
  (relayTake (relayReap s.relay).1 peerPort (s.clock + elapsed)).2

/-- The entry a worker is started for: there is memory, room in the table, and a thread. -/
def serves (peerPort : PmxPort) (elapsed : ℕ) (allocOk threadOk : Bool) : Option RelayEntry :=
  if allocOk && decide ((relayReap s.relay).1.conns.length < pmxRelayMaxConns) && threadOk then
    s.takes peerPort elapsed
  else none

/-- The last registration of a port. -/
def latest (port : PmxPort) : Option RelayEntry := s.registered.find? (RelayEntry.isFor port)

end RelayService

/-- What the progress of a worker does to the table and the counters. -/
def relayNotes (r : PmxRelay) (before after : ConnWorker) : PmxRelay :=
  match r.conns.findIdx? (·.flow == before.entry.flow) with
  | none => r
  | some i =>
    match before.stage, after.stage with
    | .closed, _ => r
    | .splicing, .closed => workerFinished r i
    | .splicing, _ => r
    | _, .splicing => workerEstablished r i
    | _, .closed => workerFailed r i
    | _, _ => r

def relayServiceStep (s : RelayService) : RelayEvent → RelayService
  | .register call elapsed between =>
    { s with
        relay := (s.register call elapsed between).1
        clock := s.clock + elapsed + between
        registered :=
          if (s.register call elapsed between).2 = .ok then
            s.entryOf call (s.clock + elapsed + between) :: s.registered
          else s.registered }
  | .accept peerPort elapsed allocOk threadOk =>
    { s with
        relay :=
          (relayServe (relayReap s.relay).1 peerPort (s.clock + elapsed) allocOk threadOk).1
        clock := s.clock + elapsed
        taken := (s.takes peerPort elapsed).toList ++ s.taken
        workers :=
          s.workers ++ (s.serves peerPort elapsed allocOk threadOk).toList.map
            fun e => ⟨e, .dialling, []⟩ }
  | .work k ok =>
    match s.workers[k]? with
    | none => s
    | some w =>
      { s with
          relay := relayNotes s.relay w (connWorkerStep w ok)
          workers := s.workers.set k (connWorkerStep w ok) }

/-! ### What every event keeps -/

/-- What holds between the pending table, the ghosts and the workers. -/
structure RelayService.Inv (s : RelayService) : Prop where
  ports : (s.relay.pending.map (·.srcPort)).Nodup
  latest : ∀ e ∈ s.relay.pending, s.latest e.srcPort = some e
  unused : ∀ e ∈ s.relay.pending, e.flow ∉ s.taken.map (·.flow)
  times : ∀ e ∈ s.relay.pending, e.addedMs ≤ s.clock
  chains : ∀ e ∈ s.relay.pending, 0 < e.chain.length
  numbered : ∀ e ∈ s.registered, e.flow < s.registered.length
  distinct : (s.registered.map (·.flow)).Nodup
  consumed : ∀ e ∈ s.taken, e ∈ s.registered
  takenOnce : (s.taken.map (·.flow)).Nodup
  served : ∀ w ∈ s.workers, w.entry.flow ∈ s.taken.map (·.flow)
  servedOnce : (s.workers.map (·.entry.flow)).Nodup
  faithful : ∀ w ∈ s.workers, w.Faithful

theorem RelayService.Inv.start (port : PmxPort) : (relayServiceStart port).Inv where
  ports := List.nodup_nil
  latest := fun e he => by cases he
  unused := fun e he => by cases he
  times := fun e he => by cases he
  chains := fun e he => by cases he
  numbered := fun e he => by cases he
  distinct := List.nodup_nil
  consumed := fun e he => by cases he
  takenOnce := List.nodup_nil
  served := fun w hw => by cases hw
  servedOnce := List.nodup_nil
  faithful := fun w hw => by cases hw

/-! ### The pending table -/

theorem expireLocked_sublist (r : PmxRelay) (now : ℕ) :
    (expireLocked r now).pending.Sublist r.pending := List.filter_sublist

/-- A refused registration leaves the table alone, or expires what is too old. -/
theorem pmxRelayRegister_refused {r : PmxRelay} {srcPort : PmxPort} {dstHost : List UInt8}
    {dstPort : PmxPort} {chain : List PmxProxy} {chainLen now addedMs flow : ℕ}
    (h : (pmxRelayRegister r srcPort dstHost dstPort chain chainLen now addedMs flow).2 ≠ .ok) :
    (pmxRelayRegister r srcPort dstHost dstPort chain chainLen now addedMs flow
      = (r, .errInvalidArg)) ∨
    (pmxRelayRegister r srcPort dstHost dstPort chain chainLen now addedMs flow
      = (expireLocked r now, .errState)) := by
  unfold pmxRelayRegister at h ⊢
  split_ifs at h ⊢
  · exact Or.inl rfl
  · dsimp only at h ⊢
    split at h
    · exact absurd rfl h
    · split_ifs at h ⊢
      · exact Or.inr rfl
      · exact absurd rfl h

/-- A registration that succeeds: the port's entry is the new one, the others were there before. -/
theorem pmxRelayRegister_pending {r : PmxRelay} (hports : (r.pending.map (·.srcPort)).Nodup)
    {srcPort : PmxPort} {dstHost : List UInt8} {dstPort : PmxPort} {chain : List PmxProxy}
    {chainLen now addedMs flow : ℕ}
    (hok : (pmxRelayRegister r srcPort dstHost dstPort chain chainLen now addedMs flow).2 = .ok) :
    ((pmxRelayRegister r srcPort dstHost dstPort chain chainLen now addedMs flow).1.pending.map
      (·.srcPort)).Nodup ∧
    ∀ e ∈ (pmxRelayRegister r srcPort dstHost dstPort chain chainLen now addedMs flow).1.pending,
      e = ⟨srcPort, strlcpy pmxMaxHost dstHost, dstPort, chain.take chainLen, addedMs, flow⟩ ∨
        (e ∈ r.pending ∧ e.srcPort ≠ srcPort) := by
  have hlive : ((expireLocked r now).pending.map (·.srcPort)).Nodup :=
    hports.sublist ((expireLocked_sublist r now).map _)
  have hold : ∀ e ∈ (expireLocked r now).pending, e ∈ r.pending := fun e he =>
    (expireLocked_sublist r now).subset he
  unfold pmxRelayRegister at hok ⊢
  split_ifs at hok ⊢
  dsimp only at hok ⊢
  split at hok
  · next i hi =>
    obtain ⟨hlt, hfor, -⟩ := List.findIdx?_eq_some_iff_getElem.1 hi
    have hport : (expireLocked r now).pending[i].srcPort = srcPort := by
      simpa [RelayEntry.isFor] using hfor
    obtain ⟨hnodup, hmem⟩ := SlotTable.nodup_map_set (f := RelayEntry.srcPort)
      (v := ⟨srcPort, strlcpy pmxMaxHost dstHost, dstPort, chain.take chainLen, addedMs, flow⟩)
      hlt hport hlive
    exact ⟨hnodup, fun e he => (hmem e he).imp id fun h => ⟨hold e h.1, h.2⟩⟩
  · next hnone =>
    split_ifs at hok ⊢
    have hother : ∀ e ∈ (expireLocked r now).pending, e.srcPort ≠ srcPort := by
      intro e he
      simpa [RelayEntry.isFor] using List.findIdx?_eq_none_iff.1 hnone e he
    obtain ⟨hnodup, hmem⟩ := SlotTable.nodup_map_concat (f := RelayEntry.srcPort)
      (v := ⟨srcPort, strlcpy pmxMaxHost dstHost, dstPort, chain.take chainLen, addedMs, flow⟩)
      hother hlive
    exact ⟨hnodup, fun e he => (hmem e he).imp id fun h => ⟨hold e h.1, h.2⟩⟩

/-- The entry taken is the port's pending one and young enough; what is left has none for the port. -/
theorem relayTake_some {r : PmxRelay} (hports : (r.pending.map (·.srcPort)).Nodup)
    {srcPort : PmxPort} {now : ℕ} {e : RelayEntry} (h : (relayTake r srcPort now).2 = some e) :
    e ∈ r.pending ∧ e.srcPort = srcPort ∧ now - e.addedMs < pmxRelayEntryTtlMs ∧
    (relayTake r srcPort now).1.pending.Sublist r.pending ∧
    ∀ e' ∈ (relayTake r srcPort now).1.pending, e'.srcPort ≠ srcPort := by
  obtain ⟨hmem, hport⟩ := relayTake_mem h
  have hlive : ((expireLocked r now).pending.map (·.srcPort)).Nodup :=
    hports.sublist ((expireLocked_sublist r now).map _)
  unfold relayTake at h ⊢
  dsimp only at h ⊢
  split at h
  · next e' he =>
    obtain rfl := Option.some.inj h
    have hyoung := List.of_mem_filter (List.mem_of_find?_eq_some he)
    refine ⟨hmem, hport, of_decide_eq_true hyoung,
      List.eraseP_sublist.trans (expireLocked_sublist r now), ?_⟩
    have hgone := SlotTable.find?_eraseP_of_nodup RelayEntry.srcPort srcPort _ hlive
    intro e' he' heq
    exact List.find?_eq_none.1 hgone e' he' (beq_iff_eq.2 heq)
  · cases h

theorem relayTake_none {r : PmxRelay} {srcPort : PmxPort} {now : ℕ}
    (h : (relayTake r srcPort now).2 = none) :
    (relayTake r srcPort now).1.pending.Sublist r.pending := by
  unfold relayTake at h ⊢
  dsimp only at h ⊢
  split at h
  · cases h
  · exact expireLocked_sublist r now

/-- The rest of an accept does not touch the pending table. -/
@[simp] theorem relayServe_pending (r : PmxRelay) (peerPort : PmxPort) (now : ℕ)
    (allocOk threadOk : Bool) :
    (relayServe r peerPort now allocOk threadOk).1.pending
      = (relayTake r peerPort now).1.pending := by
  unfold relayServe
  dsimp only
  split
  · rfl
  · split_ifs <;> rfl

@[simp] theorem relayNotes_pending (r : PmxRelay) (before after : ConnWorker) :
    (relayNotes r before after).pending = r.pending := by
  unfold relayNotes
  split
  · rfl
  · split <;> rfl

/-! ### One event -/

section Step

variable {s : RelayService}

theorem RelayService.latest_mem {port : PmxPort} {e : RelayEntry} (h : s.latest port = some e) :
    e ∈ s.registered := List.mem_of_find?_eq_some h

/-- Where nothing is announced or consumed, the table may lose entries and time may pass. -/
theorem RelayService.Inv.of_sublist (h : s.Inv) {relay : PmxRelay} {clock : ℕ}
    (hsub : relay.pending.Sublist s.relay.pending) (hclock : s.clock ≤ clock) :
    ({ s with relay := relay, clock := clock } : RelayService).Inv where
  ports := h.ports.sublist (hsub.map _)
  latest := fun e he => h.latest e (hsub.subset he)
  unused := fun e he => h.unused e (hsub.subset he)
  times := fun e he => Nat.le_trans (h.times e (hsub.subset he)) hclock
  chains := fun e he => h.chains e (hsub.subset he)
  numbered := h.numbered
  distinct := h.distinct
  consumed := h.consumed
  takenOnce := h.takenOnce
  served := h.served
  servedOnce := h.servedOnce
  faithful := h.faithful

theorem RelayService.Inv.register (h : s.Inv) (call : RegisterCall) (elapsed between : ℕ) :
    (relayServiceStep s (.register call elapsed between)).Inv := by
  have hclock : s.clock ≤ s.clock + elapsed + between := by omega
  by_cases hok : (s.register call elapsed between).2 = .ok
  · have hvalid := pmxRelayRegister_valid hok
    obtain ⟨hports, hmem⟩ := pmxRelayRegister_pending h.ports hok
    rw [strlcpy_self] at hmem
    have hnew : ∀ e ∈ (s.register call elapsed between).1.pending,
        e = s.entryOf call (s.clock + elapsed + between) ∨
          (e ∈ s.relay.pending ∧ e.srcPort ≠ call.srcPort) := hmem
    have hreg : (relayServiceStep s (.register call elapsed between)).registered
        = s.entryOf call (s.clock + elapsed + between) :: s.registered := if_pos hok
    refine ⟨hports, ?_, ?_, ?_, ?_, ?_, ?_, ?_, h.takenOnce, h.served, h.servedOnce, h.faithful⟩
    · intro e he
      rw [RelayService.latest, hreg]
      rcases hnew e he with rfl | ⟨hold, hport⟩
      · exact List.find?_cons_of_pos (beq_self_eq_true _)
      · have hnot : ¬RelayEntry.isFor e.srcPort
            (s.entryOf call (s.clock + elapsed + between)) = true := by
          rw [RelayEntry.isFor, beq_iff_eq]
          exact Ne.symm hport
        rw [List.find?_cons_of_neg hnot]
        exact h.latest e hold
    · intro e he hused
      rcases hnew e he with rfl | ⟨hold, -⟩
      · obtain ⟨e', he', hflow⟩ := List.mem_map.1 hused
        have hlt := h.numbered e' (h.consumed e' he')
        rw [hflow] at hlt
        exact Nat.lt_irrefl _ hlt
      · exact h.unused e hold hused
    · intro e he
      rcases hnew e he with rfl | ⟨hold, -⟩
      · exact Nat.le_refl _
      · exact Nat.le_trans (h.times e hold) hclock
    · intro e he
      rcases hnew e he with rfl | ⟨hold, -⟩
      · show 0 < (call.chain.take call.chainLen).length
        have hholds := call.chain_holds
        rw [List.length_take]
        omega
      · exact h.chains e hold
    · rw [hreg, List.length_cons]
      intro e he
      rcases List.mem_cons.1 he with rfl | he
      · exact Nat.lt_succ_self _
      · exact Nat.lt_succ_of_lt (h.numbered e he)
    · rw [hreg, List.map_cons, List.nodup_cons]
      refine ⟨fun hmem => ?_, h.distinct⟩
      obtain ⟨e', he', hflow⟩ := List.mem_map.1 hmem
      have hlt := h.numbered e' he'
      rw [hflow] at hlt
      exact Nat.lt_irrefl _ hlt
    · intro e he
      rw [hreg]
      exact List.mem_cons_of_mem _ (h.consumed e he)
  · have hsub : (s.register call elapsed between).1.pending.Sublist s.relay.pending := by
      rcases pmxRelayRegister_refused hok with heq | heq
      · rw [RelayService.register, heq]
      · rw [RelayService.register, heq]
        exact expireLocked_sublist _ _
    have hsame := h.of_sublist hsub hclock
    rw [relayServiceStep, if_neg hok]
    exact hsame

/-- Two registrations of one number are the same. -/
theorem RelayService.Inv.eq_of_flow (h : s.Inv) {e e' : RelayEntry} (he : e ∈ s.registered)
    (he' : e' ∈ s.registered) (hflow : e.flow = e'.flow) : e = e' :=
  List.inj_on_of_nodup_map h.distinct he he' hflow

/-- What the entry consumed by a connection is: the latest registration of the port, unused and young. -/
theorem RelayService.Inv.takes (h : s.Inv) {peerPort : PmxPort} {elapsed : ℕ} {e : RelayEntry}
    (htakes : s.takes peerPort elapsed = some e) :
    e ∈ s.relay.pending ∧ s.latest peerPort = some e ∧ e.flow ∉ s.taken.map (·.flow) ∧
    e.addedMs ≤ s.clock + elapsed ∧ s.clock + elapsed - e.addedMs < pmxRelayEntryTtlMs := by
  obtain ⟨hmem, hport, hyoung, -, -⟩ :=
    relayTake_some (r := (relayReap s.relay).1) h.ports htakes
  have hlatest := h.latest e hmem
  rw [hport] at hlatest
  exact ⟨hmem, hlatest, h.unused e hmem, Nat.le_trans (h.times e hmem) (Nat.le_add_right _ _),
    hyoung⟩

theorem RelayService.serves_eq {peerPort : PmxPort} {elapsed : ℕ} {allocOk threadOk : Bool}
    {e : RelayEntry} (h : s.serves peerPort elapsed allocOk threadOk = some e) :
    s.takes peerPort elapsed = some e := by
  rw [RelayService.serves] at h
  split_ifs at h
  exact h

/-- A connection that takes an entry: it counts as taken, and gets a worker or none. -/
theorem relayServiceStep_accept_some {peerPort : PmxPort} {elapsed : ℕ} (allocOk threadOk : Bool)
    {e : RelayEntry} (htakes : s.takes peerPort elapsed = some e) :
    (relayServiceStep s (.accept peerPort elapsed allocOk threadOk)).taken = e :: s.taken ∧
    ((relayServiceStep s (.accept peerPort elapsed allocOk threadOk)).workers = s.workers ∨
      (relayServiceStep s (.accept peerPort elapsed allocOk threadOk)).workers
        = s.workers ++ [⟨e, .dialling, []⟩]) := by
  rw [relayServiceStep, htakes]
  refine ⟨rfl, ?_⟩
  cases hserves : s.serves peerPort elapsed allocOk threadOk with
  | none => exact Or.inl (List.append_nil _)
  | some e' =>
    have he' := RelayService.serves_eq hserves
    rw [htakes] at he'
    obtain rfl := Option.some.inj he'
    exact Or.inr rfl

/-- A worker more, for an entry that nothing has consumed yet. -/
theorem RelayService.Inv.concat_worker (h : s.Inv) {e : RelayEntry} (hmem : e ∈ s.relay.pending)
    {ws : List ConnWorker} (hws : ws = s.workers ∨ ws = s.workers ++ [⟨e, .dialling, []⟩]) :
    (∀ w ∈ ws, w.entry.flow ∈ e.flow :: s.taken.map (·.flow)) ∧ (ws.map (·.entry.flow)).Nodup ∧
      ∀ w ∈ ws, w.Faithful := by
  have hserved : ∀ w ∈ s.workers, w.entry.flow ∈ e.flow :: s.taken.map (·.flow) :=
    fun w hw => List.mem_cons_of_mem _ (h.served w hw)
  rcases hws with rfl | rfl
  · exact ⟨hserved, h.servedOnce, h.faithful⟩
  · have hfresh : ∀ w ∈ s.workers, w.entry.flow ≠ e.flow := by
      intro w hw hflow
      have hused := h.served w hw
      rw [hflow] at hused
      exact h.unused e hmem hused
    refine ⟨?_, (SlotTable.nodup_map_concat hfresh h.servedOnce).1, ?_⟩
    · intro w hw
      rcases List.mem_append.1 hw with hw | hw
      · exact hserved w hw
      · rw [List.mem_singleton.1 hw]
        exact List.mem_cons_self
    · intro w hw
      rcases List.mem_append.1 hw with hw | hw
      · exact h.faithful w hw
      · rw [List.mem_singleton.1 hw]
        exact ⟨rfl, h.chains e hmem⟩

theorem RelayService.Inv.accept (h : s.Inv) (peerPort : PmxPort) (elapsed : ℕ)
    (allocOk threadOk : Bool) :
    (relayServiceStep s (.accept peerPort elapsed allocOk threadOk)).Inv := by
  have hclock : s.clock ≤ s.clock + elapsed := Nat.le_add_right _ _
  cases htakes : s.takes peerPort elapsed with
  | none =>
    have hserves : s.serves peerPort elapsed allocOk threadOk = none := by
      rw [RelayService.serves, htakes]
      split_ifs <;> rfl
    have hsub : (relayServe (relayReap s.relay).1 peerPort (s.clock + elapsed) allocOk
        threadOk).1.pending.Sublist s.relay.pending := by
      rw [relayServe_pending]
      exact relayTake_none (r := (relayReap s.relay).1) htakes
    have hsame := h.of_sublist hsub hclock
    rw [relayServiceStep, htakes, hserves, Option.toList_none, List.map_nil, List.append_nil]
    exact hsame
  | some e =>
    obtain ⟨hmem, hlatest, hunused, -, -⟩ := h.takes htakes
    have hreg := RelayService.latest_mem hlatest
    obtain ⟨-, hport, -, hsub, hgone⟩ :=
      relayTake_some (r := (relayReap s.relay).1) h.ports htakes
    obtain ⟨htaken, hws⟩ := relayServiceStep_accept_some allocOk threadOk htakes
    obtain ⟨hserved, honce, hfaithful⟩ := h.concat_worker hmem hws
    have hpending : (relayServiceStep s (.accept peerPort elapsed allocOk threadOk)).relay.pending
        = (relayTake (relayReap s.relay).1 peerPort (s.clock + elapsed)).1.pending :=
      relayServe_pending _ _ _ _ _
    refine ⟨?_, ?_, ?_, ?_, ?_, h.numbered, h.distinct, ?_, ?_, ?_, honce, hfaithful⟩
    · rw [hpending]
      exact h.ports.sublist (hsub.map _)
    · rw [hpending]
      exact fun e' he' => h.latest e' (hsub.subset he')
    · rw [hpending, htaken]
      intro e' he' hmem'
      rcases List.mem_cons.1 hmem' with hflow | hused
      · -- the entry consumed is the only one of its number, and it is gone
        have hold := RelayService.latest_mem (h.latest e' (hsub.subset he'))
        obtain rfl := h.eq_of_flow hold hreg hflow
        exact hgone e' he' hport
      · exact h.unused e' (hsub.subset he') hused
    · rw [hpending]
      exact fun e' he' => Nat.le_trans (h.times e' (hsub.subset he')) hclock
    · rw [hpending]
      exact fun e' he' => h.chains e' (hsub.subset he')
    · rw [htaken]
      intro e' he'
      rcases List.mem_cons.1 he' with rfl | he'
      · exact hreg
      · exact h.consumed e' he'
    · rw [htaken, List.map_cons, List.nodup_cons]
      exact ⟨hunused, h.takenOnce⟩
    · rw [htaken, List.map_cons]
      exact hserved

theorem RelayService.Inv.work (h : s.Inv) (k : ℕ) (ok : Bool) :
    (relayServiceStep s (.work k ok)).Inv := by
  rw [relayServiceStep]
  cases hw : s.workers[k]? with
  | none => exact h
  | some w =>
    obtain ⟨hlt, hget⟩ := List.getElem?_eq_some_iff.1 hw
    have hmem : w ∈ s.workers := List.mem_of_getElem? hw
    have hmap : (s.workers.set k (connWorkerStep w ok)).map (·.entry.flow)
        = s.workers.map (·.entry.flow) :=
      SlotTable.map_set_of_key hlt (by rw [hget, connWorkerStep_entry])
    have hsame : ∀ w' ∈ s.workers.set k (connWorkerStep w ok),
        w' = connWorkerStep w ok ∨ w' ∈ s.workers := fun w' hw' =>
      (List.mem_or_eq_of_mem_set hw').symm
    refine ⟨?_, ?_, ?_, ?_, ?_, h.numbered, h.distinct, h.consumed, h.takenOnce, ?_, ?_, ?_⟩
    · rw [relayNotes_pending]
      exact h.ports
    · rw [relayNotes_pending]
      exact h.latest
    · rw [relayNotes_pending]
      exact h.unused
    · rw [relayNotes_pending]
      exact h.times
    · rw [relayNotes_pending]
      exact h.chains
    · intro w' hw'
      rcases hsame w' hw' with rfl | hold
      · rw [connWorkerStep_entry]
        exact h.served w hmem
      · exact h.served w' hold
    · dsimp only
      rw [hmap]
      exact h.servedOnce
    · intro w' hw'
      rcases hsame w' hw' with rfl | hold
      · exact (h.faithful w hmem).step ok
      · exact h.faithful w' hold

theorem RelayService.Inv.step (s : RelayService) (ev : RelayEvent) (h : s.Inv) :
    (relayServiceStep s ev).Inv := by
  cases ev with
  | register call elapsed between => exact h.register call elapsed between
  | accept peerPort elapsed allocOk threadOk => exact h.accept peerPort elapsed allocOk threadOk
  | work k ok => exact h.work k ok

end Step

/-! ### Over runs -/

/-- What an event does is right: a worker is started only for the latest registration of the port, which
no connection consumed before and which is younger than 30 s; a registration refused for want of room
only expires what is too old; and a worker keeps the entry it was handed. -/
def EventRight (s : RelayService) (ev : RelayEvent) : Prop :=
  match ev with
  | .accept peerPort elapsed _ _ =>
    (relayServiceStep s ev).workers = s.workers ∨
      ∃ e, (relayServiceStep s ev).workers = s.workers ++ [⟨e, .dialling, []⟩] ∧
        s.latest peerPort = some e ∧ e.flow ∉ s.taken.map (·.flow) ∧
        e.addedMs ≤ s.clock + elapsed ∧ s.clock + elapsed - e.addedMs < pmxRelayEntryTtlMs
  | .register call elapsed between =>
    (relayServiceStep s ev).workers = s.workers ∧
      ((s.register call elapsed between).2 = .errState →
        (relayServiceStep s ev).relay.pending
          = s.relay.pending.filter fun e =>
              decide (s.clock + elapsed - e.addedMs < pmxRelayEntryTtlMs))
  | .work _ _ => (relayServiceStep s ev).workers.map (·.entry) = s.workers.map (·.entry)

/-- One pending entry for a port, one number for a registration, one connection for a registration, and
no splice without the whole chain. -/
structure RelaySafe (s : RelayService) : Prop where
  onePending : (s.relay.pending.map (·.srcPort)).Nodup
  numbered : (s.registered.map (·.flow)).Nodup
  takenOnce : (s.taken.map (·.flow)).Nodup
  servedOnce : (s.workers.map (·.entry.flow)).Nodup
  wholeChain : ∀ w ∈ s.workers, .splice ∈ w.trace →
    w.trace = w.entry.path w.entry.chain.length ++ [.splice]

theorem RelayService.Inv.safe {s : RelayService} (h : s.Inv) : RelaySafe s :=
  ⟨h.ports, h.distinct, h.takenOnce, h.servedOnce, fun w hw => (h.faithful w hw).spliced⟩

theorem RelayService.Inv.eventRight {s : RelayService} (h : s.Inv) (ev : RelayEvent) :
    EventRight s ev := by
  cases ev with
  | register call elapsed between =>
    refine ⟨rfl, fun hfull => ?_⟩
    have hne : (s.register call elapsed between).2 ≠ .ok := by
      rw [hfull]
      exact fun h => PmxStatus.noConfusion h
    show (s.register call elapsed between).1.pending = _
    rcases pmxRelayRegister_refused hne with heq | heq
    · rw [RelayService.register, heq] at hfull
      cases hfull
    · rw [RelayService.register, heq]
      rfl
  | accept peerPort elapsed allocOk threadOk =>
    rw [EventRight, relayServiceStep]
    cases hserves : s.serves peerPort elapsed allocOk threadOk with
    | none => exact Or.inl (List.append_nil _)
    | some e =>
      obtain ⟨-, hlatest, hunused, hadded, hyoung⟩ := h.takes (RelayService.serves_eq hserves)
      exact Or.inr ⟨e, rfl, hlatest, hunused, hadded, hyoung⟩
  | work k ok =>
    rw [EventRight, relayServiceStep]
    cases hw : s.workers[k]? with
    | none => rfl
    | some w =>
      obtain ⟨hlt, hget⟩ := List.getElem?_eq_some_iff.1 hw
      exact SlotTable.map_set_of_key hlt (by rw [hget, connWorkerStep_entry])

/-- **The relay is never an open proxy and never shortens a chain.** -/
theorem relay_serves_latest (port : PmxPort) (events : List RelayEvent) :
    Runs.EachStep relayServiceStep EventRight (relayServiceStart port) events ∧
    Runs.EachState relayServiceStep RelaySafe (relayServiceStart port) events :=
  ⟨Runs.eachStep_of_inv RelayService.Inv RelayService.Inv.step (fun _ ev h => h.eventRight ev)
      events _ (RelayService.Inv.start port),
    Runs.eachState_of_inv RelayService.Inv RelayService.Inv.step (fun _ h => h.safe) events _
      (RelayService.Inv.start port)⟩

/-- A chain of two hops, announced for port 40000. -/
def twoHopCall : RegisterCall where
  srcPort := 40000
  dstHost := strlcpy pmxMaxHost (bytes "example.com")
  dstPort := 443
  chain := [{ pmxProxyInit with id := 1 }, { pmxProxyInit with id := 2 }]
  chainLen := 2
  chain_holds := by decide

/-- It serves one connection, through both hops; the next connection of the port is closed. -/
example :
    (Runs.runFrom relayServiceStep (relayServiceStart 5555)
      [.register twoHopCall 0 0, .accept 40000 29999 true true, .accept 40000 0 true true,
        .work 0 true, .work 0 true, .work 0 true]).workers.map (fun w => (w.stage, w.trace.length))
      = [(.splicing, 4)] := by decide

end ProxiMight
