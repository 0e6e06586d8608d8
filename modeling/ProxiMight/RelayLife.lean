import ProxiMight.RelayService

/-!
# The life of a relayed connection

From `pmx_relay_start` to the return of `pmx_relay_stop`: the accept thread, the workers, and the thread
that stops the relay, in any order.  The close callback is set before the first client comes, as
`wd_start` does it.

The state holds the relay, where the threads stand, and `harvest`, the connections that the last
`relay_reap` pulled out; whoever reaped goes on once their workers are joined.  Sockets are numbered as
they are opened: `client` and `up` are those of the connection of a flow (`rc->client`, and the worker's
local `up`).  The other fields are ghosts.

* **`endsOnce_iff`** — when `pmx_relay_stop` has returned, every entry consumed has had its one call of
  the close callback exactly when no client was ever turned away after its entry was consumed.
-/

namespace ProxiMight

open CString

/-- Where the accept thread stands: before the test of its loop, in `pmx_tcp_accept`, joining what it
reaped before it serves the client of `peerPort`, or gone. -/
inductive AcceptStage
  | loop
  | accepting
  | serving (peerPort : PmxPort) (client : ℕ)
  | left
  deriving DecidableEq

/-- The socket the accept thread holds. -/
def AcceptStage.sockets : AcceptStage → List ℕ
  | .serving _ client => [client]
  | _ => []

/-- Where `pmx_relay_stop` stands: not called, joining the accept thread, in its loop after `spins`
rounds, joining the stragglers, or returned. -/
inductive StopStage
  | running
  | joining
  | draining (spins : ℕ)
  | last
  | returned
  deriving DecidableEq

/-- The rounds `pmx_relay_stop` gives the workers. -/
def relayStopSpins : ℕ := 40

/-- What a close callback is called for: the flow, and the port it is called with. -/
def RelayConn.key (c : RelayConn) : ℕ × PmxPort := (c.flow, c.srcPort)

def RelayEntry.key (e : RelayEntry) : ℕ × PmxPort := (e.flow, e.srcPort)

structure RelayLife where
  relay : PmxRelay
  nextFlow : ℕ
  accept : AcceptStage
  stop : StopStage
  harvest : List RelayConn
  sockets : ℕ
  client : ℕ → ℕ
  up : ℕ → Option ℕ
  taken : List RelayEntry
  calls : List (ℕ × PmxPort)
  dropped : List (ℕ × PmxPort)
  closed : List ℕ
  countedOk : List ℕ
  countedFailed : List ℕ

def relayLifeStart (port : PmxPort) : RelayLife where
  relay := pmxRelayStart port
  nextFlow := 0
  accept := .loop
  stop := .running
  harvest := []
  sockets := 0
  client := fun _ => 0
  up := fun _ => none
  taken := []
  calls := []
  dropped := []
  closed := []
  countedOk := []
  countedFailed := []

namespace RelayLife

variable (s : RelayLife)

/-- The connections not freed. -/
def live : List RelayConn := s.relay.conns ++ s.harvest

/-- The harvest after the worker of connection `i` moved on. -/
def harvestAt (i : ℕ) (phase : WorkerPhase) : List RelayConn :=
  if i < s.relay.conns.length then s.harvest
  else setPhase s.harvest (i - s.relay.conns.length) phase

/-- `relay_reap(r, false)`, up to the join. -/
def reap : RelayLife := { s with relay := (relayReap s.relay).1, harvest := (relayReap s.relay).2 }

/-- `relay_reap(r, true)`, up to the join: the harvest has room for the whole table. -/
def reapAll : RelayLife :=
  { s with
      relay := { s.relay with conns := [], conns_fit := Nat.zero_le _ }
      harvest := s.relay.conns }

/-- The sockets of the connection of `flow`. -/
def connSockets (flow : ℕ) : List ℕ := s.client flow :: (s.up flow).toList

/-- The worker of `flow` opens its socket to the first hop. -/
def connect (flow : ℕ) : RelayLife :=
  { s with
      up := fun f => if f = flow then some s.sockets else s.up f
      sockets := s.sockets + 1 }

/-- The rest of a round of `relay_accept_worker`: the client is closed, or a worker is started for it. -/
def serve (peerPort : PmxPort) (client now : ℕ) (allocOk threadOk : Bool) : RelayLife :=
  let r := relayServe s.relay peerPort now allocOk threadOk
  match (relayTake s.relay peerPort now).2, r.2 with
  | none, _ =>
    { s with
        relay := r.1
        accept := .loop
        closed := client :: s.closed
        countedFailed := client :: s.countedFailed }
  | some e, none =>
    { s with
        relay := r.1
        accept := .loop
        taken := e :: s.taken
        client := fun f => if f = e.flow then client else s.client f
        up := fun f => if f = e.flow then none else s.up f }
  | some e, some _ =>
    { s with
        relay := r.1
        accept := .loop
        taken := e :: s.taken
        dropped := e.key :: s.dropped
        closed := client :: s.closed
        -- only the exit for want of memory leaves the client uncounted
        countedFailed := if allocOk then client :: s.countedFailed else s.countedFailed }

end RelayLife

/-- A step of one of the threads, or a registration.  `accept` takes a client and reaps, `serve` is the
rest of the round; `connected` opens the worker's socket to the first hop; `failed` is a failure at any
hop, the connect included; `finished` the end of the splice, for whatever reason. -/
inductive LifeOp
  | register (call : RegisterCall) (now addedMs : ℕ)
  | look
  | accept (peerPort : PmxPort)
  | acceptFails
  | serve (now : ℕ) (allocOk threadOk : Bool)
  | connected (i : ℕ)
  | established (i : ℕ)
  | failed (i : ℕ)
  | finished (i : ℕ)
  | callback (i : ℕ)
  | stop
  | joinAccept
  | reap
  | reapAll
  | ret

/-- A step that the thread cannot take where it stands changes nothing. -/
def lifeStep (s : RelayLife) : LifeOp → RelayLife
  | .register call now addedMs =>
    if s.stop = .returned then s
    else
      { s with
          relay :=
            (pmxRelayRegister s.relay call.srcPort call.dstHost.str call.dstPort call.chain
              call.chainLen now addedMs s.nextFlow).1
          nextFlow := s.nextFlow + 1 }
  | .look =>
    if s.accept = .loop then { s with accept := if s.relay.running then .accepting else .left } else s
  | .accept peerPort =>
    if s.accept = .accepting ∧ Joined s.harvest then
      { s.reap with accept := .serving peerPort s.sockets, sockets := s.sockets + 1 }
    else s
  | .acceptFails =>
    if s.accept = .accepting then { s with accept := if s.relay.running then .loop else .left } else s
  | .serve now allocOk threadOk =>
    match s.accept with
    | .serving peerPort client =>
      if Joined s.harvest then s.serve peerPort client now allocOk threadOk else s
    | _ => s
  | .connected i =>
    match connIn s.live i .connecting with
    | some c =>
      if s.up c.flow = none then s.connect c.flow else s
    | none => s
  | .established i =>
    match connIn s.live i .connecting with
    | some c =>
      if s.up c.flow = none then s
      else
        { s with
            relay := workerEstablished s.relay i
            harvest := s.harvestAt i .splicing
            countedOk := s.client c.flow :: s.countedOk }
    | none => s
  | .failed i =>
    match connIn s.live i .connecting with
    | some c =>
      { s with
          relay := workerFailed s.relay i
          harvest := s.harvestAt i .calling
          closed := s.connSockets c.flow ++ s.closed
          countedFailed := s.client c.flow :: s.countedFailed }
    | none => s
  | .finished i =>
    match connIn s.live i .splicing with
    | some c =>
      { s with
          relay := workerFinished s.relay i
          harvest := s.harvestAt i .calling
          closed := s.connSockets c.flow ++ s.closed }
    | none => s
  | .callback i =>
    match connIn s.live i .calling with
    | some c =>
      { s with
          relay := s.relay.setPhase i .exited
          harvest := s.harvestAt i .exited
          calls := c.key :: s.calls }
    | none => s
  | .stop =>
    if s.stop = .running then { s with relay := { s.relay with running := false }, stop := .joining }
    else s
  | .joinAccept =>
    if s.stop = .joining ∧ s.accept = .left then { s with stop := .draining 0 } else s
  | .reap =>
    match s.stop with
    | .draining spins =>
      if spins < relayStopSpins ∧ Joined s.harvest then
        { s.reap with
            stop := .draining (if s.reap.relay.conns = [] then relayStopSpins else spins + 1) }
      else s
    | _ => s
  | .reapAll =>
    if s.stop = .draining relayStopSpins ∧ Joined s.harvest then { s.reapAll with stop := .last } else s
  | .ret =>
    if s.stop = .last ∧ ∀ c ∈ s.harvest, c.phase = .exited then
      { s with harvest := [], stop := .returned }
    else s

/-- What the relay owes its flows and its sockets: the close callbacks are, in some order, one for each
entry consumed, with its port; every socket opened is closed once; and no connection is counted twice. -/
structure EndsOnce (s : RelayLife) : Prop where
  entries : (s.taken.map (·.flow)).Nodup
  called : s.calls.Perm (s.taken.map RelayEntry.key)
  closed : s.closed.Perm (List.range s.sockets)
  counted : (s.countedOk ++ s.countedFailed).Nodup
  statOk : s.relay.statOk = s.countedOk.length
  statFailed : s.relay.statFailed = s.countedFailed.length

/-- The entry that the client of the accept thread meets. -/
def RelayLife.meets (s : RelayLife) (now : ℕ) : Option RelayEntry :=
  match s.accept with
  | .serving peerPort _ => (expireLocked s.relay now).pendingFor peerPort
  | _ => none

/-- There is memory for a connection, room in the table, and a thread. -/
def canServe (r : PmxRelay) (allocOk threadOk : Bool) : Prop :=
  allocOk = true ∧ r.conns.length < pmxRelayMaxConns ∧ threadOk = true

instance (r : PmxRelay) (allocOk threadOk : Bool) : Decidable (canServe r allocOk threadOk) :=
  inferInstanceAs (Decidable (_ ∧ _ ∧ _))

/-- The step does not turn a client away whose entry it consumes. -/
def Attended (s : RelayLife) : LifeOp → Prop
  | .serve now allocOk threadOk =>
    Joined s.harvest → s.meets now ≠ none → canServe s.relay allocOk threadOk
  | _ => True

instance (s : RelayLife) : DecidablePred (Attended s)
  | .serve now allocOk threadOk => inferInstanceAs (Decidable
      (Joined s.harvest → s.meets now ≠ none → canServe s.relay allocOk threadOk))
  | .register .. | .look | .accept _ | .acceptFails | .connected _ | .established _ | .failed _
  | .finished _ | .callback _ | .stop | .joinAccept | .reap | .reapAll | .ret => isTrue trivial

/-! ### What a round of the accept thread leaves -/

/-- Where nothing is announced, the client counts as failed. -/
theorem relayServe_of_none {r : PmxRelay} {peerPort : PmxPort} {now : ℕ} (allocOk threadOk : Bool)
    (h : (relayTake r peerPort now).2 = none) :
    (relayServe r peerPort now allocOk threadOk).2 = none ∧
    (relayServe r peerPort now allocOk threadOk).1.conns = r.conns ∧
    (relayServe r peerPort now allocOk threadOk).1.statOk = (relayTake r peerPort now).1.statOk ∧
    (relayServe r peerPort now allocOk threadOk).1.statFailed
      = (relayTake r peerPort now).1.statFailed + 1 := by
  rw [relayServe, h]
  exact ⟨rfl, relayTake_conns r peerPort now, rfl, rfl⟩

/-- A client that gets a worker. -/
theorem relayServe_of_canServe {r : PmxRelay} {peerPort : PmxPort} {now : ℕ} {allocOk threadOk : Bool}
    {e : RelayEntry} (h : (relayTake r peerPort now).2 = some e) (hcan : canServe r allocOk threadOk) :
    (relayServe r peerPort now allocOk threadOk).2 = none ∧
    (relayServe r peerPort now allocOk threadOk).1.conns = r.conns ++ [e.conn .connecting] ∧
    (relayServe r peerPort now allocOk threadOk).1.statOk = (relayTake r peerPort now).1.statOk ∧
    (relayServe r peerPort now allocOk threadOk).1.statFailed
      = (relayTake r peerPort now).1.statFailed := by
  obtain ⟨rfl, hroom, rfl⟩ := hcan
  have hroom' : (relayTake r peerPort now).1.conns.length < pmxRelayMaxConns := by
    rwa [relayTake_conns]
  rw [relayServe, h]
  dsimp only
  rw [if_neg (by decide), dif_pos hroom']
  exact ⟨rfl, congrArg (· ++ [e.conn .connecting]) (relayTake_conns r peerPort now), rfl, rfl⟩

/-- A client that is turned away although its entry is consumed. -/
theorem relayServe_of_not_canServe {r : PmxRelay} {peerPort : PmxPort} {now : ℕ}
    {allocOk threadOk : Bool} {e : RelayEntry} (h : (relayTake r peerPort now).2 = some e)
    (hcan : ¬canServe r allocOk threadOk) :
    (relayServe r peerPort now allocOk threadOk).2 = some e ∧
    ((relayServe r peerPort now allocOk threadOk).1.conns = r.conns ∨
      (relayServe r peerPort now allocOk threadOk).1.conns = r.conns ++ [e.conn .exited]) ∧
    (relayServe r peerPort now allocOk threadOk).1.statOk = (relayTake r peerPort now).1.statOk ∧
    (relayServe r peerPort now allocOk threadOk).1.statFailed
      = (relayTake r peerPort now).1.statFailed + if allocOk then 1 else 0 := by
  have hconns := relayTake_conns r peerPort now
  rw [relayServe, h]
  dsimp only
  cases allocOk with
  | false => exact ⟨rfl, Or.inl hconns, rfl, rfl⟩
  | true =>
    rw [if_neg (by decide)]
    by_cases hroom : (relayTake r peerPort now).1.conns.length < pmxRelayMaxConns
    · have hthread : threadOk = false := by
        rw [hconns] at hroom
        exact Bool.eq_false_iff.2 fun hthread => hcan ⟨rfl, hroom, hthread⟩
      subst hthread
      rw [dif_pos hroom]
      exact ⟨rfl, Or.inr (congrArg (· ++ [e.conn .exited]) hconns), rfl, rfl⟩
    · rw [dif_neg hroom]
      exact ⟨rfl, Or.inl hconns, rfl, rfl⟩

@[simp] theorem relayTake_stats (r : PmxRelay) (srcPort : PmxPort) (now : ℕ) :
    (relayTake r srcPort now).1.statOk = r.statOk ∧
      (relayTake r srcPort now).1.statFailed = r.statFailed := by
  unfold relayTake
  dsimp only
  split <;> exact ⟨rfl, rfl⟩

/-- Registering counts nothing. -/
theorem pmxRelayRegister_stats (r : PmxRelay) (srcPort : PmxPort) (dstHost : List UInt8)
    (dstPort : PmxPort) (chain : List PmxProxy) (chainLen now addedMs flow : ℕ) :
    (pmxRelayRegister r srcPort dstHost dstPort chain chainLen now addedMs flow).1.statOk = r.statOk ∧
      (pmxRelayRegister r srcPort dstHost dstPort chain chainLen now addedMs flow).1.statFailed
        = r.statFailed := by
  unfold pmxRelayRegister
  split_ifs
  · exact ⟨rfl, rfl⟩
  · dsimp only
    split
    · exact ⟨rfl, rfl⟩
    · split_ifs <;> exact ⟨rfl, rfl⟩

/-- The client meets what `relay_take` finds. -/
theorem pendingFor_expireLocked (r : PmxRelay) (peerPort : PmxPort) (now : ℕ) :
    (expireLocked r now).pendingFor peerPort = (relayTake r peerPort now).2 := by
  unfold relayTake
  dsimp only
  split
  · next e he => exact he
  · next he => exact he

/-! ### The invariant -/

/-- What has been consumed is numbered, and is no longer pending. -/
structure RelayLife.Numbered (s : RelayLife) : Prop where
  ports : (s.relay.pending.map (·.srcPort)).Nodup
  alone : ∀ e ∈ s.relay.pending, ∀ e' ∈ s.relay.pending, e.flow = e'.flow → e = e'
  below : ∀ e ∈ s.relay.pending, e.flow < s.nextFlow
  unused : ∀ e ∈ s.relay.pending, e.flow ∉ s.taken.map (·.flow)
  takenBelow : ∀ f ∈ s.taken.map (·.flow), f < s.nextFlow
  takenOnce : (s.taken.map (·.flow)).Nodup

/-- A flow has one connection, made of an entry consumed; what `relay_reap` harvests is done until the
stragglers are joined; and each stage of the stop has the one before behind it. -/
structure RelayLife.Placed (s : RelayLife) : Prop where
  distinct : (s.live.map (·.flow)).Nodup
  consumed : ∀ c ∈ s.live, c.flow ∈ s.taken.map (·.flow)
  harvested : s.stop ≠ .last → ∀ c ∈ s.harvest, c.done = true
  left : s.stop ≠ .running → s.stop ≠ .joining → s.accept = .left
  emptied : s.stop = .last → s.relay.conns = []
  freed : s.stop = .returned → s.live = []

/-- The callback a connection is still to make. -/
def RelayConn.owes (c : RelayConn) : List (ℕ × PmxPort) := if c.phase = .exited then [] else [c.key]

/-- The open sockets of a connection. -/
def RelayLife.holds (s : RelayLife) (c : RelayConn) : List ℕ :=
  if c.done = true then [] else s.connSockets c.flow

/-- The client of a connection that is neither counted as ok nor as failed. -/
def RelayLife.uncounted (s : RelayLife) (c : RelayConn) : List ℕ :=
  if c.phase = .connecting then [s.client c.flow] else []

/-- The books: an entry consumed is answered, still owed, or dropped; a socket is closed or held; and
nobody uncounted has been counted. -/
structure RelayLife.Balanced (s : RelayLife) : Prop where
  called : ∀ x, s.calls.count x + (s.live.flatMap RelayConn.owes).count x + s.dropped.count x
    = (s.taken.map RelayEntry.key).count x
  closed : ∀ n, s.closed.count n + s.accept.sockets.count n + (s.live.flatMap s.holds).count n
    = if n < s.sockets then 1 else 0
  counted : ∀ n, s.countedOk.count n + s.countedFailed.count n + s.accept.sockets.count n
    + (s.live.flatMap s.uncounted).count n ≤ if n < s.sockets then 1 else 0
  statOk : s.relay.statOk = s.countedOk.length
  statFailed : s.relay.statFailed = s.countedFailed.length

structure RelayLife.Inv (s : RelayLife) : Prop where
  numbered : s.Numbered
  placed : s.Placed
  balanced : s.Balanced

namespace RelayLife

variable {s s' : RelayLife}

theorem setPhase_live (s : RelayLife) (i : ℕ) (phase : WorkerPhase) :
    setPhase s.relay.conns i phase ++ s.harvestAt i phase = setPhase s.live i phase :=
  (SlotTable.modify_append _ s.harvest s.relay.conns i).symm

/-! ### The entries -/

/-- Where nothing is announced or consumed, the pending table may lose entries. -/
theorem Numbered.of_sublist (h : s.Numbered) (hsub : s'.relay.pending.Sublist s.relay.pending)
    (hnext : s.nextFlow ≤ s'.nextFlow) (htaken : s'.taken = s.taken) : s'.Numbered where
  ports := h.ports.sublist (hsub.map _)
  alone := fun e he e' he' => h.alone e (hsub.subset he) e' (hsub.subset he')
  below := fun e he => Nat.lt_of_lt_of_le (h.below e (hsub.subset he)) hnext
  unused := fun e he => by rw [htaken]; exact h.unused e (hsub.subset he)
  takenBelow := fun f hf => by rw [htaken] at hf; exact Nat.lt_of_lt_of_le (h.takenBelow f hf) hnext
  takenOnce := by rw [htaken]; exact h.takenOnce

theorem Numbered.of_eq (h : s.Numbered) (hpending : s'.relay.pending = s.relay.pending)
    (hnext : s'.nextFlow = s.nextFlow) (htaken : s'.taken = s.taken) : s'.Numbered :=
  h.of_sublist (by rw [hpending]) (Nat.le_of_eq hnext.symm) htaken

theorem Numbered.register (h : s.Numbered) (call : RegisterCall) (now addedMs : ℕ) :
    (lifeStep s (.register call now addedMs)).Numbered := by
  rw [lifeStep]
  split_ifs
  · exact h
  · by_cases hok : (pmxRelayRegister s.relay call.srcPort call.dstHost.str call.dstPort call.chain
        call.chainLen now addedMs s.nextFlow).2 = .ok
    · obtain ⟨hports, hmem⟩ := pmxRelayRegister_pending h.ports hok
      have hlt : ∀ e ∈ s.relay.pending, e.flow < s.nextFlow := h.below
      refine ⟨hports, ?_, ?_, ?_, ?_, h.takenOnce⟩
      · intro e he e' he' hflow
        rcases hmem e he with rfl | ⟨hold, -⟩ <;> rcases hmem e' he' with rfl | ⟨hold', -⟩
        · rfl
        · exact absurd hflow (Nat.ne_of_gt (hlt e' hold'))
        · exact absurd hflow (Nat.ne_of_lt (hlt e hold))
        · exact h.alone e hold e' hold' hflow
      · intro e he
        rcases hmem e he with rfl | ⟨hold, -⟩
        · exact Nat.lt_succ_self _
        · exact Nat.lt_succ_of_lt (hlt e hold)
      · intro e he
        rcases hmem e he with rfl | ⟨hold, -⟩
        · exact fun hused => Nat.lt_irrefl _ (h.takenBelow _ hused)
        · exact h.unused e hold
      · exact fun f hf => Nat.lt_succ_of_lt (h.takenBelow f hf)
    · refine h.of_sublist ?_ (Nat.le_succ _) rfl
      rcases pmxRelayRegister_refused hok with heq | heq
      · dsimp only
        rw [heq]
      · dsimp only
        rw [heq]
        exact expireLocked_sublist _ _

/-- The entry taken was never taken before. -/
theorem Numbered.take (h : s.Numbered) {peerPort : PmxPort} {now : ℕ} {e : RelayEntry}
    (htake : (relayTake s.relay peerPort now).2 = some e) :
    e.flow ∉ s.taken.map (·.flow) ∧
      (s'.relay.pending = (relayTake s.relay peerPort now).1.pending → s'.nextFlow = s.nextFlow →
        s'.taken = e :: s.taken → s'.Numbered) := by
  obtain ⟨hmem, hport, -, hsub, hgone⟩ := relayTake_some h.ports htake
  refine ⟨h.unused e hmem, fun hpending hnext htaken => ?_⟩
  rw [← hpending] at hsub hgone
  refine ⟨h.ports.sublist (hsub.map _), ?_, ?_, ?_, ?_, ?_⟩
  · exact fun e₁ he₁ e₂ he₂ => h.alone e₁ (hsub.subset he₁) e₂ (hsub.subset he₂)
  · rw [hnext]
    exact fun e₁ he₁ => h.below e₁ (hsub.subset he₁)
  · rw [htaken, List.map_cons]
    intro e₁ he₁ hused
    rcases List.mem_cons.1 hused with hflow | hused
    · -- the only entry of its number, and it is gone
      obtain rfl := h.alone e₁ (hsub.subset he₁) e hmem hflow
      exact hgone e₁ he₁ hport
    · exact h.unused e₁ (hsub.subset he₁) hused
  · rw [htaken, hnext, List.map_cons]
    intro f hf
    rcases List.mem_cons.1 hf with rfl | hf
    · exact h.below e hmem
    · exact h.takenBelow f hf
  · rw [htaken, List.map_cons, List.nodup_cons]
    exact ⟨h.unused e hmem, h.takenOnce⟩

/-! ### The connections -/

@[simp] theorem setPhase_flows (conns : List RelayConn) (i : ℕ) (phase : WorkerPhase) :
    (setPhase conns i phase).map (·.flow) = conns.map (·.flow) := by
  apply List.ext_getElem?
  intro j
  rw [setPhase, List.getElem?_map, List.getElem?_map, List.getElem?_modify]
  cases conns[j]? with
  | none => rfl
  | some c =>
    by_cases hij : i = j
    · simp [hij]
    · simp [hij]

/-- A worker moves on; what it had done stays done. -/
theorem Placed.moves (h : s.Placed) {i : ℕ} {c : RelayConn} (hi : s.live[i]? = some c)
    (phase : WorkerPhase) (hdone : c.done = true → ({ c with phase := phase } : RelayConn).done = true)
    (hconns : s'.relay.conns = setPhase s.relay.conns i phase) (hharvest : s'.harvest = s.harvestAt i phase)
    (hstop : s'.stop = s.stop) (haccept : s'.accept = s.accept) (htaken : s'.taken = s.taken) :
    s'.Placed := by
  have hlive : s'.live = setPhase s.live i phase := by
    rw [live, hconns, hharvest, setPhase_live]
  refine ⟨?_, ?_, ?_, ?_, ?_, ?_⟩
  · rw [hlive, setPhase_flows]
    exact h.distinct
  · rw [hlive, htaken]
    intro c' hc'
    rcases mem_setPhase hc' with hold | ⟨c₀, hc₀, rfl⟩
    · exact h.consumed c' hold
    · exact h.consumed c₀ (List.mem_of_getElem? hc₀)
  · rw [hstop, hharvest, harvestAt]
    intro hlast c' hc'
    split_ifs at hc' with hlt
    · exact h.harvested hlast c' hc'
    · rcases mem_setPhase hc' with hold | ⟨c₀, hc₀, rfl⟩
      · exact h.harvested hlast c' hold
      · rw [live, List.getElem?_append_right (Nat.not_lt.1 hlt), hc₀] at hi
        obtain rfl := Option.some.inj hi
        exact hdone (h.harvested hlast c₀ (List.mem_of_getElem? hc₀))
  · rw [hstop, haccept]
    exact h.left
  · rw [hstop, hconns]
    intro hlast
    rw [h.emptied hlast, setPhase, List.modify_nil]
  · rw [hstop]
    intro hret
    rw [h.freed hret] at hi
    cases hi

/-- What the thread that reaped has joined is gone. -/
theorem Placed.exited (h : s.Placed) (hlast : s.stop ≠ .last) (hjoined : Joined s.harvest) :
    ∀ c ∈ s.harvest, c.phase = .exited := by
  intro c hc
  have hdone := h.harvested hlast c hc
  have hcalling := hjoined c hc
  cases hphase : c.phase <;> simp_all [RelayConn.done]

/-- A reap moves connections from the table to the harvest. -/
theorem reap_perm (s : RelayLife) : (s.reap.live ++ s.harvest).Perm s.live := by
  refine List.Perm.append_right _ ?_
  have hperm := List.filter_append_perm (fun c : RelayConn => !c.done) s.relay.conns
  simpa [reap, live, relayReap] using hperm

/-- What was joined is freed. -/
theorem Placed.frees (h : s.Placed) (hperm : (s'.live ++ s.harvest).Perm s.live)
    (htaken : s'.taken = s.taken) : (s'.live.map (·.flow)).Nodup ∧
      ∀ c ∈ s'.live, c.flow ∈ s'.taken.map (·.flow) := by
  have hnodup := ((hperm.map (·.flow)).nodup_iff).2 h.distinct
  rw [List.map_append] at hnodup
  refine ⟨(List.nodup_append.1 hnodup).1, fun c hc => ?_⟩
  rw [htaken]
  exact h.consumed c (hperm.subset (List.mem_append_left _ hc))

/-- Connections that have nothing are freed. -/
theorem count_flatMap_of_frees {β : Type*} [BEq β] {g : RelayConn → List β}
    (hg : ∀ c, c.phase = .exited → g c = []) (hperm : (s'.live ++ s.harvest).Perm s.live)
    (hexited : ∀ c ∈ s.harvest, c.phase = .exited) (x : β) :
    (s'.live.flatMap g).count x = (s.live.flatMap g).count x := by
  have hgone : s.harvest.flatMap g = [] :=
    List.flatMap_eq_nil_iff.2 fun c hc => hg c (hexited c hc)
  have hcount := (hperm.flatMap_right g).countP_eq (· == x)
  rw [List.flatMap_append, hgone, List.append_nil] at hcount
  exact hcount

/-! ### The books -/

theorem owes_of_exited (c : RelayConn) (h : c.phase = .exited) : c.owes = [] := if_pos h

theorem holds_of_done (s : RelayLife) (c : RelayConn) (h : c.done = true) : s.holds c = [] := if_pos h

theorem holds_of_exited (s : RelayLife) (c : RelayConn) (h : c.phase = .exited) : s.holds c = [] :=
  if_pos (by rw [RelayConn.done, h]; rfl)

theorem uncounted_of_exited (s : RelayLife) (c : RelayConn) (h : c.phase = .exited) :
    s.uncounted c = [] := if_neg (by rw [h]; exact WorkerPhase.noConfusion)

/-- Freeing connections whose workers are gone keeps the books. -/
theorem Balanced.frees (h : s.Balanced) {r : PmxRelay} {harvest : List RelayConn} {a : AcceptStage}
    {stop : StopStage} (hperm : (r.conns ++ harvest ++ s.harvest).Perm s.live)
    (hexited : ∀ c ∈ s.harvest, c.phase = .exited) (hok : r.statOk = s.relay.statOk)
    (hfailed : r.statFailed = s.relay.statFailed) (hsockets : a.sockets = s.accept.sockets) :
    ({ s with relay := r, harvest := harvest, accept := a, stop := stop } : RelayLife).Balanced := by
  have hsame : ∀ {β : Type} [BEq β] (g : RelayConn → List β),
      (∀ c, c.phase = .exited → g c = []) → ∀ x : β,
      (({ s with relay := r, harvest := harvest } : RelayLife).live.flatMap g).count x
        = (s.live.flatMap g).count x := fun g hg => count_flatMap_of_frees hg hperm hexited
  refine ⟨fun x => ?_, fun n => ?_, fun n => ?_, hok.trans h.statOk, hfailed.trans h.statFailed⟩
  · rw [← h.called x, ← hsame RelayConn.owes owes_of_exited x]
    rfl
  · rw [← h.closed n, ← hsame s.holds s.holds_of_exited n, ← hsockets]
    rfl
  · have hcounted := h.counted n
    rw [← hsame s.uncounted s.uncounted_of_exited n, ← hsockets] at hcounted
    exact hcounted

/-- A thread goes on, and holds what it held. -/
theorem Balanced.moves (h : s.Balanced) {r : PmxRelay} {a : AcceptStage} {stop : StopStage}
    (hconns : r.conns = s.relay.conns) (hok : r.statOk = s.relay.statOk)
    (hfailed : r.statFailed = s.relay.statFailed) (hsockets : a.sockets = s.accept.sockets) :
    ({ s with relay := r, accept := a, stop := stop } : RelayLife).Balanced := by
  have hlive : ({ s with relay := r, accept := a, stop := stop } : RelayLife).live = s.live :=
    congrArg (· ++ s.harvest) hconns
  refine ⟨fun x => ?_, fun n => ?_, fun n => ?_, hok.trans h.statOk, hfailed.trans h.statFailed⟩
  · rw [hlive]
    exact h.called x
  · rw [hlive]
    show s.closed.count n + a.sockets.count n + _ = _
    rw [hsockets]
    exact h.closed n
  · rw [hlive]
    show s.countedOk.count n + s.countedFailed.count n + a.sockets.count n + _ ≤ _
    rw [hsockets]
    exact h.counted n

/-- A socket is opened under the next number. -/
theorem count_opened (sockets n : ℕ) :
    [sockets].count n + (if n < sockets then 1 else 0) = if n < sockets + 1 then 1 else 0 := by
  rw [List.count_singleton]
  by_cases hn : sockets = n
  · simp [hn]
  · rw [beq_eq_false_iff_ne.2 hn, if_neg Bool.false_ne_true]
    split_ifs <;> omega

/-- A client comes. -/
theorem Balanced.accepts (h : s.Balanced) (hidle : s.accept.sockets = []) (peerPort : PmxPort) :
    ({ s with accept := .serving peerPort s.sockets, sockets := s.sockets + 1 } : RelayLife).Balanced := by
  refine ⟨h.called, fun n => ?_, fun n => ?_, h.statOk, h.statFailed⟩
  · have hclosed := h.closed n
    rw [hidle, List.count_nil] at hclosed
    rw [← count_opened s.sockets n, ← hclosed]
    show s.closed.count n + [s.sockets].count n + (s.live.flatMap s.holds).count n = _
    omega
  · have hcounted := h.counted n
    rw [hidle, List.count_nil] at hcounted
    rw [← count_opened s.sockets n]
    show s.countedOk.count n + s.countedFailed.count n + [s.sockets].count n
      + (s.live.flatMap s.uncounted).count n ≤ _
    omega

/-- What the connections have, before and after a worker moves on. -/
theorem Placed.count_move (h : s.Placed) {β : Type*} [BEq β] {i : ℕ} {c : RelayConn}
    (hi : s.live[i]? = some c) (phase : WorkerPhase) (g : RelayConn → List β)
    (x : β) :
    ((setPhase s.live i phase).flatMap g).count x + (g c).count x
      = (s.live.flatMap g).count x + (g { c with phase := phase }).count x :=
  SlotTable.count_flatMap_modify g g _ x s.live i c h.distinct hi fun _ _ _ => rfl

/-- **A worker's step.**  What it takes off its connection's account it enters in the books. -/
theorem Balanced.works (h : s.Balanced) (hp : s.Placed) {i : ℕ} {c : RelayConn}
    (hi : s.live[i]? = some c) (phase : WorkerPhase) (hlive : s'.live = setPhase s.live i phase)
    (hholds : s'.holds = s.holds) (huncounted : s'.uncounted = s.uncounted)
    (haccept : s'.accept = s.accept) (hsockets : s'.sockets = s.sockets) (htaken : s'.taken = s.taken)
    (hdropped : s'.dropped = s.dropped)
    (hcalls : ∀ x, s'.calls.count x + ({ c with phase := phase } : RelayConn).owes.count x
      = s.calls.count x + c.owes.count x)
    (hclosed : ∀ n, s'.closed.count n + (s.holds { c with phase := phase }).count n
      = s.closed.count n + (s.holds c).count n)
    (hcounted : ∀ n, s'.countedOk.count n + s'.countedFailed.count n
        + (s.uncounted { c with phase := phase }).count n
      = s.countedOk.count n + s.countedFailed.count n + (s.uncounted c).count n)
    (hok : s'.relay.statOk = s'.countedOk.length)
    (hfailed : s'.relay.statFailed = s'.countedFailed.length) : s'.Balanced := by
  refine ⟨fun x => ?_, fun n => ?_, fun n => ?_, hok, hfailed⟩
  · have hmove := hp.count_move hi phase RelayConn.owes x
    have hold := h.called x
    have hcall := hcalls x
    rw [hlive, htaken, hdropped]
    omega
  · have hmove := hp.count_move hi phase s.holds n
    have hold := h.closed n
    have hclose := hclosed n
    rw [hlive, hholds, haccept, hsockets]
    omega
  · have hmove := hp.count_move hi phase s.uncounted n
    have hold := h.counted n
    have hcount := hcounted n
    rw [hlive, huncounted, haccept, hsockets]
    omega

theorem connIn_live {i : ℕ} {phase : WorkerPhase} {c : RelayConn} (hc : connIn s.live i phase = some c) :
    s.live[i]? = some c ∧ c.phase = phase := connIn_eq_some.1 hc

/-! ### One step -/

theorem Inv.start (port : PmxPort) : (relayLifeStart port).Inv where
  numbered := ⟨List.nodup_nil, nofun, nofun, nofun, nofun, List.nodup_nil⟩
  placed := ⟨List.nodup_nil, nofun, fun _ => nofun, fun h => absurd rfl h, nofun, nofun⟩
  balanced := ⟨fun _ => rfl, fun _ => rfl, fun _ => Nat.le_refl 0, rfl, rfl⟩

/-- A thread goes on, and nothing else changes but the flag `running`. -/
theorem Inv.moves (h : s.Inv) {r : PmxRelay} {a : AcceptStage} {stop : StopStage}
    (hpending : r.pending = s.relay.pending) (hconns : r.conns = s.relay.conns)
    (hok : r.statOk = s.relay.statOk) (hfailed : r.statFailed = s.relay.statFailed)
    (hsockets : a.sockets = s.accept.sockets)
    (hlast : s.stop = .last → stop = .last) (hlast' : stop = .last → s.stop = .last)
    (hret : stop = .returned → s.stop = .returned)
    (hleft : stop ≠ .running → stop ≠ .joining → a = .left) :
    ({ s with relay := r, accept := a, stop := stop } : RelayLife).Inv := by
  have hlive : ({ s with relay := r, accept := a, stop := stop } : RelayLife).live = s.live :=
    congrArg (· ++ s.harvest) hconns
  refine ⟨h.numbered.of_eq hpending rfl rfl, ?_, h.balanced.moves hconns hok hfailed hsockets⟩
  refine ⟨?_, ?_, fun hne => h.placed.harvested fun heq => hne (hlast heq), hleft, ?_, ?_⟩
  · rw [hlive]
    exact h.placed.distinct
  · rw [hlive]
    exact h.placed.consumed
  · intro hst
    exact hconns.trans (h.placed.emptied (hlast' hst))
  · intro hst
    exact hlive.trans (h.placed.freed (hret hst))

/-- The accept thread, with no client in its hands, tests whether the relay is running. -/
theorem Inv.tests (h : s.Inv) {a : AcceptStage} (hthere : s.accept ≠ .left)
    (hidle : s.accept.sockets = []) (ha : a.sockets = []) :
    ({ s with accept := if s.relay.running then a else .left } : RelayLife).Inv := by
  split_ifs
  · refine h.moves rfl rfl rfl rfl (ha.trans hidle.symm) id id id fun hr hj => ?_
    exact absurd (h.placed.left hr hj) hthere
  · exact h.moves rfl rfl rfl rfl hidle.symm id id id fun _ _ => rfl

theorem Inv.look (h : s.Inv) : (lifeStep s .look).Inv := by
  rw [lifeStep]
  by_cases hloop : s.accept = .loop
  · rw [if_pos hloop]
    exact h.tests (by rw [hloop]; exact AcceptStage.noConfusion) (by rw [hloop]; rfl) rfl
  · rw [if_neg hloop]
    exact h

theorem Inv.acceptFails (h : s.Inv) : (lifeStep s .acceptFails).Inv := by
  rw [lifeStep]
  by_cases hacc : s.accept = .accepting
  · rw [if_pos hacc]
    exact h.tests (by rw [hacc]; exact AcceptStage.noConfusion) (by rw [hacc]; rfl) rfl
  · rw [if_neg hacc]
    exact h

theorem Inv.stop (h : s.Inv) : (lifeStep s .stop).Inv := by
  rw [lifeStep]
  split_ifs with hrun
  · refine h.moves rfl rfl rfl rfl rfl ?_ StopStage.noConfusion StopStage.noConfusion ?_
    · intro hlast
      rw [hrun] at hlast
      cases hlast
    · exact fun _ hj => absurd rfl hj
  · exact h

theorem Inv.joinAccept (h : s.Inv) : (lifeStep s .joinAccept).Inv := by
  rw [lifeStep]
  split_ifs with hjoin
  · refine h.moves rfl rfl rfl rfl rfl ?_ StopStage.noConfusion StopStage.noConfusion ?_
    · intro hlast
      rw [hjoin.1] at hlast
      cases hlast
    · exact fun _ _ => hjoin.2
  · exact h

theorem Inv.register (h : s.Inv) (call : RegisterCall) (now addedMs : ℕ) :
    (lifeStep s (.register call now addedMs)).Inv := by
  refine ⟨h.numbered.register call now addedMs, ?_, ?_⟩
  · have hconns := pmxRelayRegister_conns s.relay call.srcPort call.dstHost.str call.dstPort call.chain
      call.chainLen now addedMs s.nextFlow
    rw [lifeStep]
    split_ifs with hret
    · exact h.placed
    · have hlive : ∀ r : PmxRelay, r.conns = s.relay.conns → ({ s with
          relay := r, nextFlow := s.nextFlow + 1 } : RelayLife).live = s.live := fun r hr =>
        congrArg (· ++ s.harvest) hr
      refine ⟨?_, ?_, h.placed.harvested, h.placed.left, ?_, fun hst => absurd hst hret⟩
      · rw [hlive _ hconns]
        exact h.placed.distinct
      · rw [hlive _ hconns]
        exact h.placed.consumed
      · exact fun hst => hconns.trans (h.placed.emptied hst)
  · obtain ⟨hok, hfailed⟩ := pmxRelayRegister_stats s.relay call.srcPort call.dstHost.str call.dstPort
      call.chain call.chainLen now addedMs s.nextFlow
    rw [lifeStep]
    split_ifs
    · exact h.balanced
    · have hconns := pmxRelayRegister_conns s.relay call.srcPort call.dstHost.str call.dstPort
        call.chain call.chainLen now addedMs s.nextFlow
      have hmoves : ({ s with
          relay := (pmxRelayRegister s.relay call.srcPort call.dstHost.str call.dstPort call.chain
            call.chainLen now addedMs s.nextFlow).1 } : RelayLife).Balanced :=
        h.balanced.moves hconns hok hfailed rfl
      exact ⟨hmoves.called, hmoves.closed, hmoves.counted, hmoves.statOk, hmoves.statFailed⟩

/-- What `relay_reap(r, false)` harvests is done. -/
theorem reap_done (s : RelayLife) : ∀ c ∈ s.reap.harvest, c.done = true := fun _ hc =>
  List.of_mem_filter hc

theorem Inv.accept (h : s.Inv) (peerPort : PmxPort) : (lifeStep s (.accept peerPort)).Inv := by
  rw [lifeStep]
  split_ifs with hacc
  · obtain ⟨hidle, hjoined⟩ := hacc
    have hearly : s.stop = .running ∨ s.stop = .joining := by
      by_contra hlate
      rw [not_or] at hlate
      exact absurd ((h.placed.left hlate.1 hlate.2).symm.trans hidle) AcceptStage.noConfusion
    have hlast : s.stop ≠ .last := by
      rcases hearly with hst | hst <;> rw [hst] <;> exact StopStage.noConfusion
    have hret : s.stop ≠ .returned := by
      rcases hearly with hst | hst <;> rw [hst] <;> exact StopStage.noConfusion
    have hexited := h.placed.exited hlast hjoined
    have hfrees := h.placed.frees (reap_perm s) rfl
    refine ⟨h.numbered.of_eq rfl rfl rfl, ?_, ?_⟩
    · refine ⟨hfrees.1, hfrees.2, fun _ => reap_done s, fun hr hj => ?_, ?_, ?_⟩
      · exact absurd hearly (not_or.2 ⟨hr, hj⟩)
      · exact fun hst => absurd hst hlast
      · exact fun hst => absurd hst hret
    · have hreap : s.reap.Balanced :=
        h.balanced.frees (reap_perm s) hexited rfl rfl rfl
      exact hreap.accepts (congrArg AcceptStage.sockets hidle) peerPort
  · exact h

theorem Inv.reap (h : s.Inv) : (lifeStep s .reap).Inv := by
  rw [lifeStep]
  split
  · next spins hst =>
    by_cases hgo : spins < relayStopSpins ∧ Joined s.harvest
    · rw [if_pos hgo]
      have hlast : s.stop ≠ .last := by
        rw [hst]
        exact StopStage.noConfusion
      have hleft : s.accept = .left := by
        apply h.placed.left <;> rw [hst] <;> exact StopStage.noConfusion
      have hfrees := h.placed.frees (reap_perm s) rfl
      refine ⟨h.numbered.of_eq rfl rfl rfl, ?_, ?_⟩
      · exact ⟨hfrees.1, hfrees.2, fun _ => reap_done s, fun _ _ => hleft, StopStage.noConfusion,
          StopStage.noConfusion⟩
      · exact h.balanced.frees (reap_perm s) (h.placed.exited hlast hgo.2) rfl rfl rfl
    · rw [if_neg hgo]
      exact h
  · exact h

theorem Inv.reapAll (h : s.Inv) : (lifeStep s .reapAll).Inv := by
  rw [lifeStep]
  split_ifs with hgo
  · obtain ⟨hst, hjoined⟩ := hgo
    have hlast : s.stop ≠ .last := by
      rw [hst]
      exact StopStage.noConfusion
    have hleft : s.accept = .left := by
      apply h.placed.left <;> rw [hst] <;> exact StopStage.noConfusion
    have hperm : (s.reapAll.live ++ s.harvest).Perm s.live := List.Perm.refl _
    have hfrees := h.placed.frees hperm rfl
    refine ⟨h.numbered.of_eq rfl rfl rfl, ?_, ?_⟩
    · exact ⟨hfrees.1, hfrees.2, fun hne => absurd rfl hne, fun _ _ => hleft, fun _ => rfl,
        StopStage.noConfusion⟩
    · exact h.balanced.frees hperm (h.placed.exited hlast hjoined) rfl rfl rfl
  · exact h

theorem Inv.ret (h : s.Inv) : (lifeStep s .ret).Inv := by
  rw [lifeStep]
  split_ifs with hgo
  · obtain ⟨hst, hexited⟩ := hgo
    have hleft : s.accept = .left := by
      apply h.placed.left <;> rw [hst] <;> exact StopStage.noConfusion
    have hperm : (({ s with harvest := [], stop := .returned } : RelayLife).live
        ++ s.harvest).Perm s.live := by
      rw [live, List.append_nil]
      exact List.Perm.refl _
    have hfrees := h.placed.frees hperm rfl
    refine ⟨h.numbered.of_eq rfl rfl rfl, ?_, ?_⟩
    · refine ⟨hfrees.1, hfrees.2, fun _ => nofun, fun _ _ => hleft, StopStage.noConfusion, fun _ => ?_⟩
      exact congrArg (· ++ []) (h.placed.emptied hst)
    · exact h.balanced.frees hperm hexited rfl rfl rfl
  · exact h

/-- The sockets of a connection whose worker is on its way. -/
theorem holds_of_connecting (s : RelayLife) {c : RelayConn} (h : c.phase = .connecting) :
    s.holds c = s.client c.flow :: (s.up c.flow).toList := by
  rw [holds, RelayConn.done, h]
  rfl

/-- The worker's connect opens a socket more. -/
theorem Inv.connected (h : s.Inv) (i : ℕ) : (lifeStep s (.connected i)).Inv := by
  rw [lifeStep]
  split
  · next c hc =>
    obtain ⟨hi, hphase⟩ := connIn_live hc
    split_ifs with hup
    · refine ⟨h.numbered.of_eq rfl rfl rfl, ?_, ?_⟩
      · exact ⟨h.placed.distinct, h.placed.consumed, h.placed.harvested, h.placed.left,
          h.placed.emptied, h.placed.freed⟩
      · refine ⟨h.balanced.called, fun n => ?_, fun n => ?_, h.balanced.statOk, h.balanced.statFailed⟩
        · have hmove := SlotTable.count_flatMap_modify s.holds (s.connect c.flow).holds id n s.live i c
            h.placed.distinct hi (fun b _ hb => by simp only [holds, connSockets, connect, if_neg hb])
          have hnew : (s.connect c.flow).up c.flow = some s.sockets := if_pos rfl
          rw [List.modify_id, id, holds_of_connecting _ hphase, holds_of_connecting _ hphase, hup, hnew,
            Option.toList_none, Option.toList_some, List.count_cons, List.count_cons] at hmove
          have hold := h.balanced.closed n
          have hopened := count_opened s.sockets n
          show s.closed.count n + s.accept.sockets.count n
            + (s.live.flatMap (s.connect c.flow).holds).count n = if n < s.sockets + 1 then 1 else 0
          rw [List.count_nil] at hmove
          have hclient : (s.connect c.flow).client c.flow = s.client c.flow := rfl
          rw [hclient] at hmove
          omega
        · have hold := h.balanced.counted n
          refine Nat.le_trans hold ?_
          show (if n < s.sockets then 1 else 0) ≤ if n < s.sockets + 1 then 1 else 0
          split_ifs <;> omega
    · exact h
  · exact h

theorem Inv.established (h : s.Inv) (i : ℕ) : (lifeStep s (.established i)).Inv := by
  rw [lifeStep]
  split
  · next c hc =>
    obtain ⟨hi, hphase⟩ := connIn_live hc
    split_ifs with hup
    · exact h
    · refine ⟨h.numbered.of_eq rfl rfl rfl, ?_, ?_⟩
      · refine h.placed.moves hi .splicing ?_ rfl rfl rfl rfl rfl
        intro hdone
        rw [RelayConn.done, hphase] at hdone
        cases hdone
      · refine h.balanced.works h.placed hi .splicing ?_ rfl rfl rfl rfl rfl rfl ?_ ?_ ?_ ?_ ?_
        · exact setPhase_live s i .splicing
        · intro x
          simp only [RelayConn.owes, hphase, reduceCtorEq, if_false]
          rfl
        · intro n
          simp only [holds, RelayConn.done, hphase]
          rfl
        · intro n
          simp only [uncounted, hphase, reduceCtorEq, if_true, if_false, List.count_cons, List.count_nil]
          omega
        · exact congrArg (· + 1) h.balanced.statOk
        · exact h.balanced.statFailed
  · exact h

/-- A worker that has closed its sockets holds none. -/
theorem holds_calling (s : RelayLife) (c : RelayConn) :
    s.holds { c with phase := .calling } = [] := rfl

/-- A worker closes its sockets and sets `done`; a client not yet counted is counted as failed. -/
theorem Inv.ends (h : s.Inv) {i : ℕ} {c : RelayConn} (hi : s.live[i]? = some c) (hopen : c.done = false)
    {r : PmxRelay} {failed : List ℕ} (hpending : r.pending = s.relay.pending)
    (hconns : r.conns = setPhase s.relay.conns i .calling) (hok : r.statOk = s.relay.statOk)
    (hfailed : r.statFailed = failed.length)
    (hcount : ∀ n, failed.count n = s.countedFailed.count n + (s.uncounted c).count n) :
    ({ s with
        relay := r
        harvest := s.harvestAt i .calling
        closed := s.connSockets c.flow ++ s.closed
        countedFailed := failed } : RelayLife).Inv := by
  have hphase : c.phase ≠ .exited := by
    intro hexited
    rw [RelayConn.done, hexited] at hopen
    cases hopen
  have hholds : s.holds c = s.connSockets c.flow := if_neg (by rw [hopen]; exact Bool.false_ne_true)
  refine ⟨h.numbered.of_eq hpending rfl rfl, ?_, ?_⟩
  · exact h.placed.moves hi .calling (fun _ => rfl) hconns rfl rfl rfl rfl
  · refine h.balanced.works h.placed hi .calling ?_ rfl rfl rfl rfl rfl rfl ?_ ?_ ?_ ?_ hfailed
    · rw [live, hconns]
      exact setPhase_live s i .calling
    · intro x
      have howes : c.owes = [c.key] := if_neg hphase
      rw [howes]
      rfl
    · intro n
      rw [holds_calling, hholds, List.count_append, List.count_nil]
      omega
    · intro n
      rw [uncounted, if_neg WorkerPhase.noConfusion, List.count_nil, hcount n]
      dsimp only
      omega
    · exact hok.trans h.balanced.statOk

theorem Inv.failed (h : s.Inv) (i : ℕ) : (lifeStep s (.failed i)).Inv := by
  rw [lifeStep]
  split
  · next c hc =>
    obtain ⟨hi, hphase⟩ := connIn_live hc
    refine h.ends hi (by rw [RelayConn.done, hphase]; rfl) rfl rfl rfl ?_ ?_
    · exact congrArg (· + 1) h.balanced.statFailed
    · intro n
      rw [uncounted, if_pos hphase, List.count_cons, List.count_singleton]
  · exact h

theorem Inv.finished (h : s.Inv) (i : ℕ) : (lifeStep s (.finished i)).Inv := by
  rw [lifeStep]
  split
  · next c hc =>
    obtain ⟨hi, hphase⟩ := connIn_live hc
    refine h.ends hi (by rw [RelayConn.done, hphase]; rfl) rfl rfl rfl h.balanced.statFailed ?_
    intro n
    rw [uncounted, if_neg (by rw [hphase]; exact WorkerPhase.noConfusion), List.count_nil]
    rfl
  · exact h

/-- The callback is the one thing the connection still owed. -/
theorem Inv.callback (h : s.Inv) (i : ℕ) : (lifeStep s (.callback i)).Inv := by
  rw [lifeStep]
  split
  · next c hc =>
    obtain ⟨hi, hphase⟩ := connIn_live hc
    refine ⟨h.numbered.of_eq rfl rfl rfl, ?_, ?_⟩
    · exact h.placed.moves hi .exited (fun _ => rfl) rfl rfl rfl rfl rfl
    · refine h.balanced.works h.placed hi .exited ?_ rfl rfl rfl rfl rfl rfl ?_ ?_ ?_ ?_ ?_
      · exact setPhase_live s i .exited
      · intro x
        simp only [RelayConn.owes, hphase, reduceCtorEq, if_true, if_false, List.count_cons,
          List.count_nil]
        omega
      · intro n
        have hdone : c.done = true := by
          rw [RelayConn.done, hphase]
          rfl
        rw [s.holds_of_done c hdone, holds_of_exited s _ rfl]
      · intro n
        simp only [uncounted, hphase, reduceCtorEq, if_false]
      · exact h.balanced.statOk
      · exact h.balanced.statFailed
  · exact h

/-! ### One client -/

/-- While the accept thread serves a client, the stop has not come past it. -/
theorem Placed.early (h : s.Placed) {peerPort : PmxPort} {client : ℕ}
    (hacc : s.accept = .serving peerPort client) : s.stop = .running ∨ s.stop = .joining := by
  by_contra hlate
  rw [not_or] at hlate
  exact absurd ((h.left hlate.1 hlate.2).symm.trans hacc) AcceptStage.noConfusion

/-- The connections after a round: those there were, and the new one, if there is one. -/
theorem live_perm_of_conns {new : List RelayConn} (hconns : s'.relay.conns = s.relay.conns ++ new)
    (hharvest : s'.harvest = s.harvest) : s'.live.Perm (new ++ s.live) := by
  rw [live, live, hconns, hharvest, ← List.append_assoc]
  exact List.perm_append_comm.append_right _

/-- A round that consumes an entry: the connection it may get is the first of its flow. -/
theorem Placed.serves (h : s.Placed) {peerPort : PmxPort} {client : ℕ}
    (hacc : s.accept = .serving peerPort client) {e : RelayEntry}
    (hfresh : e.flow ∉ s.taken.map (·.flow)) {new : List RelayConn}
    (hnew : new = [] ∨ ∃ phase, new = [e.conn phase])
    (hconns : s'.relay.conns = s.relay.conns ++ new) (hharvest : s'.harvest = s.harvest)
    (hstop : s'.stop = s.stop) (htaken : s'.taken = e :: s.taken) : s'.Placed := by
  have hperm := live_perm_of_conns hconns hharvest
  have hflow : ∀ c ∈ new, c.flow = e.flow := by
    intro c hc
    rcases hnew with rfl | ⟨phase, rfl⟩
    · cases hc
    · rw [List.mem_singleton.1 hc]
      rfl
  have hearly := h.early hacc
  refine ⟨?_, ?_, ?_, ?_, ?_, ?_⟩
  · refine ((hperm.map (·.flow)).nodup_iff).2 ?_
    rcases hnew with rfl | ⟨phase, rfl⟩
    · exact h.distinct
    · rw [List.singleton_append, List.map_cons, List.nodup_cons]
      refine ⟨fun hmem => ?_, h.distinct⟩
      obtain ⟨c, hc, hcflow⟩ := List.mem_map.1 hmem
      have hused := h.consumed c hc
      rw [hcflow] at hused
      exact hfresh hused
  · intro c hc
    rw [htaken, List.map_cons]
    rcases List.mem_append.1 (hperm.subset hc) with hc | hc
    · rw [hflow c hc]
      exact List.mem_cons_self
    · exact List.mem_cons_of_mem _ (h.consumed c hc)
  · rw [hstop, hharvest]
    exact h.harvested
  · rw [hstop]
    exact fun hr hj => absurd hearly (not_or.2 ⟨hr, hj⟩)
  · rw [hstop]
    intro hst
    rcases hearly with heq | heq <;> rw [heq] at hst <;> cases hst
  · rw [hstop]
    intro hst
    rcases hearly with heq | heq <;> rw [heq] at hst <;> cases hst

/-- **A round of the accept thread.**  The client it held goes to the new connection or to the books. -/
theorem Balanced.serves (h : s.Balanced) {client : ℕ} (hheld : s.accept.sockets = [client])
    (hidle : s'.accept.sockets = []) {new : List RelayConn} (hperm : s'.live.Perm (new ++ s.live))
    (hholds : ∀ c ∈ s.live, s'.holds c = s.holds c)
    (huncounted : ∀ c ∈ s.live, s'.uncounted c = s.uncounted c) (hsockets : s'.sockets = s.sockets)
    (hcalls : s'.calls = s.calls)
    (hcalled : ∀ x, (new.flatMap RelayConn.owes).count x + s'.dropped.count x
        + (s.taken.map RelayEntry.key).count x
      = s.dropped.count x + (s'.taken.map RelayEntry.key).count x)
    (hclosed : ∀ n, s'.closed.count n + (new.flatMap s'.holds).count n
      = s.closed.count n + [client].count n)
    (hcounted : ∀ n, s'.countedOk.count n + s'.countedFailed.count n
        + (new.flatMap s'.uncounted).count n
      ≤ s.countedOk.count n + s.countedFailed.count n + [client].count n)
    (hok : s'.relay.statOk = s'.countedOk.length)
    (hfailed : s'.relay.statFailed = s'.countedFailed.length) : s'.Balanced := by
  have hlive : ∀ {β : Type} [BEq β] (g : RelayConn → List β) (x : β), (s'.live.flatMap g).count x
      = (new.flatMap g).count x + (s.live.flatMap g).count x := by
    intro β _ g x
    have hcount := (hperm.flatMap_right g).countP_eq (· == x)
    rw [List.flatMap_append, List.countP_append] at hcount
    exact hcount
  refine ⟨fun x => ?_, fun n => ?_, fun n => ?_, hok, hfailed⟩
  · have hold := h.called x
    have hround := hcalled x
    rw [hlive, hcalls]
    omega
  · have hold := h.closed n
    have hround := hclosed n
    rw [hheld] at hold
    rw [hlive, List.flatMap_congr hholds, hidle, hsockets, List.count_nil]
    omega
  · have hold := h.counted n
    have hround := hcounted n
    rw [hheld] at hold
    rw [hlive, List.flatMap_congr huncounted, hidle, hsockets, List.count_nil]
    omega

/-- A client that nothing was announced for. -/
theorem Inv.serve_none (h : s.Inv) {peerPort : PmxPort} {client now : ℕ} (allocOk threadOk : Bool)
    (hacc : s.accept = .serving peerPort client)
    (htake : (relayTake s.relay peerPort now).2 = none) :
    (s.serve peerPort client now allocOk threadOk).Inv := by
  obtain ⟨hserve, hconns, hok, hfailed⟩ := relayServe_of_none allocOk threadOk htake
  obtain ⟨hok', hfailed'⟩ := relayTake_stats s.relay peerPort now
  have hearly := h.placed.early hacc
  have hheld : s.accept.sockets = [client] := congrArg AcceptStage.sockets hacc
  rw [RelayLife.serve, htake, hserve]
  dsimp only
  refine ⟨?_, ?_, ?_⟩
  · refine h.numbered.of_sublist ?_ (Nat.le_refl _) rfl
    rw [relayServe_pending]
    exact relayTake_none htake
  · have hlive : (relayServe s.relay peerPort now allocOk threadOk).1.conns ++ s.harvest = s.live :=
      congrArg (· ++ s.harvest) hconns
    refine ⟨?_, ?_, h.placed.harvested, ?_, ?_, ?_⟩
    · rw [live, hlive]
      exact h.placed.distinct
    · rw [live, hlive]
      exact h.placed.consumed
    · exact fun hr hj => absurd hearly (not_or.2 ⟨hr, hj⟩)
    · intro hst
      exact hconns.trans (h.placed.emptied hst)
    · intro hst
      exact hlive.trans (h.placed.freed hst)
  · have hnone : (relayServe s.relay peerPort now allocOk threadOk).1.conns = s.relay.conns ++ [] :=
      hconns.trans (List.append_nil _).symm
    refine h.balanced.serves hheld rfl (live_perm_of_conns hnone rfl) (fun _ _ => rfl) (fun _ _ => rfl)
      rfl rfl ?_ ?_ ?_ ?_ ?_
    · intro x
      rw [List.flatMap_nil, List.count_nil]
      dsimp only
      omega
    · intro n
      rw [List.flatMap_nil, List.count_nil, List.count_cons, List.count_singleton]
      omega
    · intro n
      rw [List.flatMap_nil, List.count_nil, List.count_cons, List.count_singleton]
      dsimp only
      omega
    · exact (hok.trans hok').trans h.balanced.statOk
    · rw [hfailed, hfailed', h.balanced.statFailed]
      rfl

/-- A client that gets a worker. -/
theorem Inv.serve_some (h : s.Inv) {peerPort : PmxPort} {client now : ℕ} {allocOk threadOk : Bool}
    (hacc : s.accept = .serving peerPort client) {e : RelayEntry}
    (htake : (relayTake s.relay peerPort now).2 = some e) (hcan : canServe s.relay allocOk threadOk) :
    (s.serve peerPort client now allocOk threadOk).Inv := by
  obtain ⟨hserve, hconns, hok, hfailed⟩ := relayServe_of_canServe htake hcan
  obtain ⟨hok', hfailed'⟩ := relayTake_stats s.relay peerPort now
  obtain ⟨hfresh, hnumbered⟩ := h.numbered.take htake
  have hother : ∀ c ∈ s.live, c.flow ≠ e.flow := fun c hc hflow =>
    hfresh (hflow ▸ h.placed.consumed c hc)
  rw [RelayLife.serve, htake, hserve]
  dsimp only
  refine ⟨hnumbered (relayServe_pending _ _ _ _ _) rfl rfl, ?_, ?_⟩
  · exact h.placed.serves hacc hfresh (Or.inr ⟨.connecting, rfl⟩) hconns rfl rfl rfl
  · refine h.balanced.serves (congrArg AcceptStage.sockets hacc) rfl (live_perm_of_conns hconns rfl) ?_
      ?_ rfl rfl ?_ ?_ ?_ ?_ ?_
    · intro c hc
      simp only [holds, connSockets, if_neg (hother c hc)]
    · intro c hc
      simp only [uncounted, if_neg (hother c hc)]
    · intro x
      show [e.key].count x + _ + _ = _ + (e.key :: s.taken.map RelayEntry.key).count x
      rw [List.count_singleton, List.count_cons]
      dsimp only
      omega
    · intro n
      simp [holds, connSockets, RelayEntry.conn, RelayConn.done]
    · intro n
      simp [uncounted, RelayEntry.conn]
    · exact (hok.trans hok').trans h.balanced.statOk
    · exact (hfailed.trans hfailed').trans h.balanced.statFailed

/-- A client that is turned away although its entry is consumed. -/
theorem Inv.serve_dropped (h : s.Inv) {peerPort : PmxPort} {client now : ℕ} {allocOk threadOk : Bool}
    (hacc : s.accept = .serving peerPort client) {e : RelayEntry}
    (htake : (relayTake s.relay peerPort now).2 = some e) (hcan : ¬canServe s.relay allocOk threadOk) :
    (s.serve peerPort client now allocOk threadOk).Inv := by
  obtain ⟨hserve, hconns, hok, hfailed⟩ := relayServe_of_not_canServe htake hcan
  obtain ⟨hok', hfailed'⟩ := relayTake_stats s.relay peerPort now
  obtain ⟨hfresh, hnumbered⟩ := h.numbered.take htake
  obtain ⟨new, hconns, hnew⟩ : ∃ new, (relayServe s.relay peerPort now allocOk threadOk).1.conns
      = s.relay.conns ++ new ∧ (new = [] ∨ new = [e.conn .exited]) := by
    rcases hconns with hconns | hconns
    · exact ⟨[], hconns.trans (List.append_nil _).symm, Or.inl rfl⟩
    · exact ⟨[e.conn .exited], hconns, Or.inr rfl⟩
  -- without a worker there is nothing to owe, to hold or to count
  have hnothing : ∀ {β : Type} (g : RelayConn → List β), (∀ c, c.phase = .exited → g c = []) →
      new.flatMap g = [] := by
    intro β g hg
    rcases hnew with rfl | rfl
    · rfl
    · rw [List.flatMap_singleton]
      exact hg _ rfl
  rw [RelayLife.serve, htake, hserve]
  dsimp only
  refine ⟨hnumbered (relayServe_pending _ _ _ _ _) rfl rfl, ?_, ?_⟩
  · exact h.placed.serves hacc hfresh (hnew.imp id fun hnew => ⟨.exited, hnew⟩) hconns rfl rfl rfl
  · refine h.balanced.serves (congrArg AcceptStage.sockets hacc) rfl (live_perm_of_conns hconns rfl)
      (fun _ _ => rfl) (fun _ _ => rfl) rfl rfl ?_ ?_ ?_ ?_ ?_
    · intro x
      rw [hnothing _ owes_of_exited, List.count_nil]
      show 0 + (e.key :: s.dropped).count x + _ = _ + (e.key :: s.taken.map RelayEntry.key).count x
      rw [List.count_cons, List.count_cons]
      omega
    · intro n
      rw [hnothing _ (holds_of_exited _), List.count_nil, List.count_cons, List.count_singleton]
      omega
    · intro n
      rw [hnothing _ (uncounted_of_exited _), List.count_nil]
      cases allocOk with
      | false => exact Nat.le_add_right _ _
      | true =>
        rw [if_pos rfl, List.count_cons, List.count_singleton]
        dsimp only
        omega
    · exact (hok.trans hok').trans h.balanced.statOk
    · rw [hfailed, hfailed', h.balanced.statFailed]
      cases allocOk <;> rfl

theorem Inv.serve (h : s.Inv) (now : ℕ) (allocOk threadOk : Bool) :
    (lifeStep s (.serve now allocOk threadOk)).Inv := by
  rw [lifeStep]
  split
  · next peerPort client hacc =>
    split_ifs
    · cases htake : (relayTake s.relay peerPort now).2 with
      | none => exact h.serve_none allocOk threadOk hacc htake
      | some e =>
        by_cases hcan : canServe s.relay allocOk threadOk
        · exact h.serve_some hacc htake hcan
        · exact h.serve_dropped hacc htake hcan
    · exact h
  · exact h

theorem Inv.step (s : RelayLife) (op : LifeOp) (h : s.Inv) : (lifeStep s op).Inv := by
  cases op with
  | register call now addedMs => exact h.register call now addedMs
  | look => exact h.look
  | accept peerPort => exact h.accept peerPort
  | acceptFails => exact h.acceptFails
  | serve now allocOk threadOk => exact h.serve now allocOk threadOk
  | connected i => exact h.connected i
  | established i => exact h.established i
  | failed i => exact h.failed i
  | finished i => exact h.finished i
  | callback i => exact h.callback i
  | stop => exact h.stop
  | joinAccept => exact h.joinAccept
  | reap => exact h.reap
  | reapAll => exact h.reapAll
  | ret => exact h.ret

/-! ### Over runs -/

theorem Inv.run (port : PmxPort) (ops : List LifeOp) :
    (Runs.runFrom lifeStep (relayLifeStart port) ops).Inv :=
  Runs.runFrom_inv Inv Inv.step ops _ (Inv.start port)

/-- A round of the accept thread drops an entry exactly when it meets one and cannot serve it. -/
theorem serve_dropped (s : RelayLife) {peerPort : PmxPort} {client now : ℕ} {allocOk threadOk : Bool} :
    (s.serve peerPort client now allocOk threadOk).dropped = s.dropped ∧
        ((relayTake s.relay peerPort now).2 ≠ none → canServe s.relay allocOk threadOk) ∨
      (∃ k, (s.serve peerPort client now allocOk threadOk).dropped = k :: s.dropped) ∧
        (relayTake s.relay peerPort now).2 ≠ none ∧ ¬canServe s.relay allocOk threadOk := by
  cases htake : (relayTake s.relay peerPort now).2 with
  | none =>
    rw [RelayLife.serve, htake]
    exact Or.inl ⟨rfl, fun hne => absurd rfl hne⟩
  | some e =>
    by_cases hcan : canServe s.relay allocOk threadOk
    · rw [RelayLife.serve, htake, (relayServe_of_canServe htake hcan).1]
      exact Or.inl ⟨rfl, fun _ => hcan⟩
    · rw [RelayLife.serve, htake, (relayServe_of_not_canServe htake hcan).1]
      exact Or.inr ⟨⟨e.key, rfl⟩, Option.some_ne_none e, hcan⟩

/-- Nothing is dropped by a step exactly when it attends to its client. -/
theorem dropped_step_iff (s : RelayLife) (op : LifeOp) :
    (lifeStep s op).dropped = [] ↔ s.dropped = [] ∧ Attended s op := by
  have hother : (lifeStep s op).dropped = s.dropped → Attended s op →
      ((lifeStep s op).dropped = [] ↔ s.dropped = [] ∧ Attended s op) := by
    intro heq hatt
    rw [heq, and_iff_left hatt]
  cases op with
  | serve now allocOk threadOk =>
    cases hacc : s.accept with
    | serving peerPort client =>
      have hmeets : s.meets now = (relayTake s.relay peerPort now).2 := by
        rw [meets, hacc]
        exact pendingFor_expireLocked s.relay peerPort now
      rw [Attended, hmeets, lifeStep, hacc]
      dsimp only
      split_ifs with hjoined
      · rcases s.serve_dropped with ⟨hsame, hcan⟩ | ⟨⟨k, hk⟩, hmet, hcannot⟩
        · rw [hsame, and_iff_left fun _ => hcan]
        · rw [hk]
          exact iff_of_false (List.cons_ne_nil _ _) fun hno => hcannot (hno.2 hjoined hmet)
      · rw [and_iff_left fun hj => absurd hj hjoined]
    | _ =>
      refine hother (by rw [lifeStep, hacc]) fun _ hmet => ?_
      rw [meets, hacc] at hmet
      exact absurd rfl hmet
  | register call now addedMs =>
    refine hother ?_ trivial
    rw [lifeStep]
    split_ifs <;> rfl
  | look => exact hother (by rw [lifeStep]; split_ifs <;> rfl) trivial
  | accept peerPort => exact hother (by rw [lifeStep]; split_ifs <;> rfl) trivial
  | acceptFails => exact hother (by rw [lifeStep]; split_ifs <;> rfl) trivial
  | connected i =>
    refine hother ?_ trivial
    rw [lifeStep]
    split
    · split_ifs <;> rfl
    · rfl
  | established i =>
    refine hother ?_ trivial
    rw [lifeStep]
    split
    · split_ifs <;> rfl
    · rfl
  | failed i => exact hother (by rw [lifeStep]; split <;> rfl) trivial
  | finished i => exact hother (by rw [lifeStep]; split <;> rfl) trivial
  | callback i => exact hother (by rw [lifeStep]; split <;> rfl) trivial
  | stop => exact hother (by rw [lifeStep]; split_ifs <;> rfl) trivial
  | joinAccept => exact hother (by rw [lifeStep]; split_ifs <;> rfl) trivial
  | reap =>
    refine hother ?_ trivial
    rw [lifeStep]
    split
    · split_ifs <;> rfl
    · rfl
  | reapAll => exact hother (by rw [lifeStep]; split_ifs <;> rfl) trivial
  | ret => exact hother (by rw [lifeStep]; split_ifs <;> rfl) trivial

theorem dropped_run_iff : ∀ (ops : List LifeOp) (s : RelayLife),
    (Runs.runFrom lifeStep s ops).dropped = [] ↔
      s.dropped = [] ∧ Runs.EachStep lifeStep Attended s ops := by
  intro ops
  induction ops with
  | nil => exact fun s => ⟨fun h => ⟨h, trivial⟩, fun h => h.1⟩
  | cons op ops ih =>
    intro s
    rw [Runs.runFrom_cons, ih, dropped_step_iff, and_assoc]
    exact Iff.rfl

/-- **When the stop has returned**, whatever happened before: all sockets opened are closed once, nobody
is counted twice, and an entry consumed has had its one callback or was dropped. -/
theorem Inv.returned (h : s.Inv) (hret : s.stop = .returned) :
    (s.calls ++ s.dropped).Perm (s.taken.map RelayEntry.key) ∧
      s.closed.Perm (List.range s.sockets) ∧ (s.countedOk ++ s.countedFailed).Nodup := by
  have hlive : s.live = [] := h.placed.freed hret
  have hleft : s.accept = .left := by
    apply h.placed.left <;> rw [hret] <;> exact StopStage.noConfusion
  have hidle : s.accept.sockets = [] := congrArg AcceptStage.sockets hleft
  refine ⟨List.perm_iff_count.2 fun x => ?_, List.perm_iff_count.2 fun n => ?_,
    List.nodup_iff_count_le_one.2 fun n => ?_⟩
  · have hcalled := h.balanced.called x
    rw [hlive, List.flatMap_nil, List.count_nil] at hcalled
    rw [List.count_append]
    omega
  · have hclosed := h.balanced.closed n
    rw [hlive, hidle, List.flatMap_nil, List.count_nil] at hclosed
    rw [List.count_range]
    omega
  · have hcounted := h.balanced.counted n
    rw [List.count_append]
    split_ifs at hcounted <;> omega

/-- What is left out when the books are closed is what was dropped. -/
theorem Inv.endsOnce_iff_dropped (h : s.Inv) (hret : s.stop = .returned) :
    EndsOnce s ↔ s.dropped = [] := by
  obtain ⟨hcalled, hclosed, hcounted⟩ := h.returned hret
  constructor
  · intro hends
    have hlength := hcalled.length_eq
    rw [List.length_append, hends.called.length_eq] at hlength
    exact List.length_eq_zero_iff.1 (by omega)
  · intro hnone
    rw [hnone, List.append_nil] at hcalled
    exact ⟨h.numbered.takenOnce, hcalled, hclosed, hcounted, h.balanced.statOk, h.balanced.statFailed⟩

end RelayLife

/-- **Every relayed flow ends exactly once**, by the time `pmx_relay_stop` has returned, exactly when
every client whose entry was consumed found memory, room in the table and a thread. -/
theorem endsOnce_iff (port : PmxPort) (ops : List LifeOp)
    (hret : (Runs.runFrom lifeStep (relayLifeStart port) ops).stop = .returned) :
    EndsOnce (Runs.runFrom lifeStep (relayLifeStart port) ops) ↔
      Runs.EachStep lifeStep Attended (relayLifeStart port) ops := by
  rw [(RelayLife.Inv.run port ops).endsOnce_iff_dropped hret, RelayLife.dropped_run_iff]
  exact and_iff_right rfl

/-- A chain of two hops that is spliced until the relay stops, and a client that nothing was announced
for. -/
def splicedRun : List LifeOp :=
  [.register twoHopCall 0 0, .look, .accept 40000, .serve 10 true true, .connected 0, .established 0,
    .look, .accept 40001, .serve 20 true true, .look, .stop, .finished 0, .acceptFails, .joinAccept,
    .callback 0, .reap, .reapAll, .ret]

theorem endsOnce_splicedRun : EndsOnce (Runs.runFrom lifeStep (relayLifeStart 9000) splicedRun) :=
  (endsOnce_iff 9000 splicedRun (by decide)).2 (by decide)

/-- The connection is in the table, and its thread cannot be started. -/
def threadRefusedRun : List LifeOp :=
  [.register twoHopCall 0 0, .look, .accept 40000, .serve 10 true false, .stop, .look, .joinAccept,
    .reap, .reapAll, .ret]

/-- The stop has returned, the entry is consumed, and the close callback was never called. -/
theorem not_endsOnce_threadRefused :
    (Runs.runFrom lifeStep (relayLifeStart 9000) threadRefusedRun).stop = .returned ∧
      ¬EndsOnce (Runs.runFrom lifeStep (relayLifeStart 9000) threadRefusedRun) := by
  refine ⟨by decide, fun hends => ?_⟩
  have htaken : (Runs.runFrom lifeStep (relayLifeStart 9000) threadRefusedRun).taken.length = 1 := by
    decide
  have hcalls : (Runs.runFrom lifeStep (relayLifeStart 9000) threadRefusedRun).calls = [] := by decide
  have hlength := hends.called.length_eq
  rw [List.length_map, htaken, hcalls] at hlength
  cases hlength

end ProxiMight
