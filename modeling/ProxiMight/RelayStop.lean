import ProxiMight.RelayLife
import ProxiMight.Splice

/-!
# The stop of the relay comes to its end

What `pmx_relay_stop` sets off, with the accept thread and all the workers taking their steps in any order.
The steps that a thread has ahead of it are counted; a step of any thread takes from the count, also where
the accept thread still makes a connection of the client in its hands, or a reap frees some.  The exception
is a round of a splice that finds a socket ready and carries what came: it does not look at `running`.

* **`relayStop_returns`** — once the relay is stopping, its threads can take only so many steps more, rounds
  that carry apart, and until the stop has returned there is a thread that can take one.
-/

namespace ProxiMight

/-- What the accept thread has ahead of it; a client in its hands can become a connection. -/
def AcceptStage.ahead : AcceptStage → ℕ
  | .accepting => 7
  | .serving _ _ => 6
  | .loop => 1
  | .left => 0

/-- What `pmx_relay_stop` has ahead of it, once it is called. -/
def StopStage.ahead : StopStage → ℕ
  | .running | .joining => relayStopSpins + 3
  | .draining spins => relayStopSpins - spins + 2
  | .last => 1
  | .returned => 0

/-- What a worker has ahead of it: the connect to the first hop, the hops, the splice, the callback. -/
def WorkerPhase.ahead (up : Option ℕ) : WorkerPhase → ℕ
  | .connecting => if up = none then 4 else 3
  | .splicing => 2
  | .calling => 1
  | .exited => 0

namespace RelayLife

def workerAhead (s : RelayLife) (c : RelayConn) : ℕ := c.phase.ahead (s.up c.flow)

def ahead (s : RelayLife) : ℕ := s.accept.ahead + (s.live.map s.workerAhead).sum + s.stop.ahead

end RelayLife

/-- The most that all threads have ahead of them: both the table and the harvest can be full. -/
def relayStopAhead : ℕ := 7 + 4 * (2 * pmxRelayMaxConns) + (relayStopSpins + 3)

/-- A step of a thread of the relay, or of the one that stops it. -/
def LifeOp.ofThread : LifeOp → Bool
  | .register .. => false
  | _ => true

/-- The end of a splice, which only a round of its loop brings about. -/
def LifeOp.endsSplice : LifeOp → Bool
  | .finished _ => true
  | _ => false

/-- A step of the life of the relay, or a round of the splice of connection `i`, with what its calls return. -/
inductive StopOp
  | life (op : LifeOp)
  | round (i : ℕ) (results : RoundResults)

/-- The round goes on although the relay is stopped. -/
def RoundResults.carries (r : RoundResults) : Bool := (spliceRound r.net r.wait false ()).1

/-- Where it is not the end of the splice, a round changes nothing that the other threads see. -/
def stopStep (s : RelayLife) : StopOp → RelayLife
  | .life op => lifeStep s op
  | .round i r =>
    if (spliceRound r.net r.wait s.relay.running ()).1 then s else lifeStep s (.finished i)

/-- The thread can take the step where it stands. -/
def RelayMoves (s : RelayLife) : StopOp → Prop
  | .life op => op.endsSplice = false ∧ lifeStep s op ≠ s
  | .round i _ => (connIn s.live i .splicing).isSome = true

/-- The steps that are numbered: those of a thread, rounds that carry apart. -/
def StopOp.counts : StopOp → Bool
  | .life op => op.ofThread
  | .round _ r => !r.carries

namespace RelayLife

variable {s s' : RelayLife}

/-- What the count rests on: the harvest has been the whole table at most, and once the stop is called the
flag is off and its loop within its rounds. -/
structure Winding (s : RelayLife) : Prop where
  harvested : s.harvest.length ≤ pmxRelayMaxConns
  stopped : s.stop ≠ .running → s.relay.running = false
  spins : ∀ k, s.stop = .draining k → k ≤ relayStopSpins

/-! ### The flag `running` -/

theorem pmxRelayRegister_running (r : PmxRelay) (srcPort : PmxPort) (dstHost : List UInt8)
    (dstPort : PmxPort) (chain : List PmxProxy) (chainLen now addedMs flow : ℕ) :
    (pmxRelayRegister r srcPort dstHost dstPort chain chainLen now addedMs flow).1.running
      = r.running := by
  unfold pmxRelayRegister
  split_ifs
  · rfl
  · dsimp only
    split
    · rfl
    · split_ifs <;> rfl

theorem relayTake_running (r : PmxRelay) (srcPort : PmxPort) (now : ℕ) :
    (relayTake r srcPort now).1.running = r.running := by
  unfold relayTake
  dsimp only
  split <;> rfl

theorem relayServe_running (r : PmxRelay) (peerPort : PmxPort) (now : ℕ) (allocOk threadOk : Bool) :
    (relayServe r peerPort now allocOk threadOk).1.running = r.running := by
  have htake := relayTake_running r peerPort now
  unfold relayServe
  dsimp only
  split
  · exact htake
  · split_ifs <;> exact htake

/-- What a round of the accept thread leaves alone. -/
theorem serve_kept (s : RelayLife) (peerPort : PmxPort) (client now : ℕ) (allocOk threadOk : Bool) :
    (s.serve peerPort client now allocOk threadOk).harvest = s.harvest ∧
      (s.serve peerPort client now allocOk threadOk).stop = s.stop ∧
      (s.serve peerPort client now allocOk threadOk).relay
        = (relayServe s.relay peerPort now allocOk threadOk).1 ∧
      (s.serve peerPort client now allocOk threadOk).accept = .loop := by
  unfold RelayLife.serve
  dsimp only
  split <;> exact ⟨rfl, rfl, rfl, rfl⟩

/-! ### The invariant -/

theorem Winding.start (port : PmxPort) : (relayLifeStart port).Winding :=
  ⟨Nat.zero_le _, fun h => absurd rfl h, fun _ => StopStage.noConfusion⟩

/-- A step keeps the invariant, and a stop that is called stays called. -/
structure WindsOn (s s' : RelayLife) : Prop where
  winding : s'.Winding
  called : s.stop ≠ .running → s'.stop ≠ .running

theorem WindsOn.refl (h : s.Winding) : WindsOn s s := ⟨h, fun hcalled => hcalled⟩

/-- A thread goes on, and the one that stops the relay stays where it is. -/
theorem Winding.of_eq (h : s.Winding) (hharvest : s'.harvest.length ≤ pmxRelayMaxConns)
    (hstop : s'.stop = s.stop) (hrunning : s'.relay.running = s.relay.running) : WindsOn s s' := by
  refine ⟨⟨hharvest, ?_, ?_⟩, ?_⟩
  · rw [hstop, hrunning]
    exact h.stopped
  · rw [hstop]
    exact h.spins
  · rw [hstop]
    exact fun hcalled => hcalled

/-- The one that stops the relay goes on. -/
theorem Winding.stops (h : s.Winding) (hcalled : s.stop ≠ .running)
    (hharvest : s'.harvest.length ≤ pmxRelayMaxConns) (hrunning : s'.relay.running = s.relay.running)
    (hstop : s'.stop ≠ .running) (hspins : ∀ k, s'.stop = .draining k → k ≤ relayStopSpins) :
    WindsOn s s' :=
  ⟨⟨hharvest, fun _ => hrunning.trans (h.stopped hcalled), hspins⟩, fun _ => hstop⟩

theorem length_harvestAt (s : RelayLife) (i : ℕ) (phase : WorkerPhase) :
    (s.harvestAt i phase).length = s.harvest.length := by
  rw [harvestAt]
  split_ifs
  · rfl
  · exact List.length_modify _ _ _

/-- A worker moves on. -/
theorem Winding.harvestAt (h : s.Winding) (i : ℕ) (phase : WorkerPhase) :
    (s.harvestAt i phase).length ≤ pmxRelayMaxConns :=
  (length_harvestAt s i phase).trans_le h.harvested

theorem length_reap_harvest (s : RelayLife) : s.reap.harvest.length ≤ pmxRelayMaxConns :=
  Nat.le_trans (List.length_filter_le _ _) s.relay.conns_fit

theorem Winding.register (h : s.Winding) (call : RegisterCall) (now addedMs : ℕ) :
    WindsOn s (lifeStep s (.register call now addedMs)) := by
  rw [lifeStep]
  split_ifs
  · exact .refl h
  · exact h.of_eq h.harvested rfl (pmxRelayRegister_running _ _ _ _ _ _ _ _ _)

theorem Winding.look (h : s.Winding) : WindsOn s (lifeStep s .look) := by
  rw [lifeStep]
  split_ifs <;> exact h.of_eq h.harvested rfl rfl

theorem Winding.accept (h : s.Winding) (peerPort : PmxPort) : WindsOn s (lifeStep s (.accept peerPort)) := by
  rw [lifeStep]
  split_ifs
  · exact h.of_eq (length_reap_harvest s) rfl rfl
  · exact .refl h

theorem Winding.acceptFails (h : s.Winding) : WindsOn s (lifeStep s .acceptFails) := by
  rw [lifeStep]
  split_ifs <;> exact h.of_eq h.harvested rfl rfl

theorem Winding.serve (h : s.Winding) (now : ℕ) (allocOk threadOk : Bool) :
    WindsOn s (lifeStep s (.serve now allocOk threadOk)) := by
  rw [lifeStep]
  split
  · next peerPort client _ =>
    split_ifs
    · obtain ⟨hharvest, hstop, hrelay, -⟩ := serve_kept s peerPort client now allocOk threadOk
      refine h.of_eq (by rw [hharvest]; exact h.harvested) hstop ?_
      rw [hrelay, relayServe_running]
    · exact .refl h
  · exact .refl h

theorem Winding.connected (h : s.Winding) (i : ℕ) : WindsOn s (lifeStep s (.connected i)) := by
  rw [lifeStep]
  split
  · split_ifs
    · exact h.of_eq h.harvested rfl rfl
    · exact .refl h
  · exact .refl h

theorem Winding.established (h : s.Winding) (i : ℕ) : WindsOn s (lifeStep s (.established i)) := by
  rw [lifeStep]
  split
  · split_ifs
    · exact .refl h
    · exact h.of_eq (h.harvestAt i _) rfl rfl
  · exact .refl h

/-- A worker that is through with its work, or with its callback. -/
theorem Winding.leaves (h : s.Winding) {op : LifeOp} {i : ℕ}
    (hop : op = .failed i ∨ op = .finished i ∨ op = .callback i) : WindsOn s (lifeStep s op) := by
  rcases hop with rfl | rfl | rfl
  all_goals
    rw [lifeStep]
    split
    · exact h.of_eq (h.harvestAt i _) rfl rfl
    · exact .refl h

theorem Winding.stop (h : s.Winding) : WindsOn s (lifeStep s .stop) := by
  rw [lifeStep]
  split_ifs
  · exact ⟨⟨h.harvested, fun _ => rfl, fun _ => StopStage.noConfusion⟩, fun _ => StopStage.noConfusion⟩
  · exact .refl h

theorem Winding.joinAccept (h : s.Winding) : WindsOn s (lifeStep s .joinAccept) := by
  rw [lifeStep]
  split_ifs with hgo
  · refine h.stops (by rw [hgo.1]; exact StopStage.noConfusion) h.harvested rfl StopStage.noConfusion ?_
    rintro k ⟨⟩
    exact Nat.zero_le _
  · exact .refl h

theorem Winding.reap (h : s.Winding) : WindsOn s (lifeStep s .reap) := by
  rw [lifeStep]
  split
  · next spins hst =>
    by_cases hgo : spins < relayStopSpins ∧ Joined s.harvest
    · rw [if_pos hgo]
      refine h.stops (by rw [hst]; exact StopStage.noConfusion) (length_reap_harvest s) rfl
        StopStage.noConfusion ?_
      intro k hk
      have hspins := StopStage.draining.inj hk
      have hlt := hgo.1
      split_ifs at hspins <;> omega
    · rw [if_neg hgo]
      exact .refl h
  · exact .refl h

theorem Winding.reapAll (h : s.Winding) : WindsOn s (lifeStep s .reapAll) := by
  rw [lifeStep]
  split_ifs with hgo
  · exact h.stops (by rw [hgo.1]; exact StopStage.noConfusion) s.relay.conns_fit rfl
      StopStage.noConfusion fun _ => StopStage.noConfusion
  · exact .refl h

theorem Winding.ret (h : s.Winding) : WindsOn s (lifeStep s .ret) := by
  rw [lifeStep]
  split_ifs with hgo
  · exact h.stops (by rw [hgo.1]; exact StopStage.noConfusion) (Nat.zero_le _) rfl
      StopStage.noConfusion fun _ => StopStage.noConfusion
  · exact .refl h

theorem Winding.life (h : s.Winding) (op : LifeOp) : WindsOn s (lifeStep s op) := by
  cases op with
  | register call now addedMs => exact h.register call now addedMs
  | look => exact h.look
  | accept peerPort => exact h.accept peerPort
  | acceptFails => exact h.acceptFails
  | serve now allocOk threadOk => exact h.serve now allocOk threadOk
  | connected i => exact h.connected i
  | established i => exact h.established i
  | failed i => exact h.leaves (Or.inl rfl)
  | finished i => exact h.leaves (Or.inr (Or.inl rfl))
  | callback i => exact h.leaves (Or.inr (Or.inr rfl))
  | stop => exact h.stop
  | joinAccept => exact h.joinAccept
  | reap => exact h.reap
  | reapAll => exact h.reapAll
  | ret => exact h.ret

/-- A round of a splice goes on, or is its end. -/
theorem stopStep_round (s : RelayLife) (i : ℕ) (r : RoundResults) :
    stopStep s (.round i r) = s ∨ stopStep s (.round i r) = lifeStep s (.finished i) := by
  rw [stopStep]
  split_ifs
  · exact Or.inl rfl
  · exact Or.inr rfl

theorem Winding.step (h : s.Winding) (op : StopOp) : WindsOn s (stopStep s op) := by
  cases op with
  | life op => exact h.life op
  | round i r =>
    rcases stopStep_round s i r with heq | heq
    · rw [heq]
      exact .refl h
    · rw [heq]
      exact h.life _

theorem Inv.stopStep (h : s.Inv) (op : StopOp) : (ProxiMight.stopStep s op).Inv := by
  cases op with
  | life op => exact Inv.step s op h
  | round i r =>
    rcases stopStep_round s i r with heq | heq
    · rw [heq]
      exact h
    · rw [heq]
      exact Inv.step s _ h

/-! ### What the workers have ahead of them -/

/-- The workers of all connections that are not freed. -/
def workersAhead (s : RelayLife) : ℕ := (s.live.map s.workerAhead).sum

theorem ahead_eq (s : RelayLife) : s.ahead = s.accept.ahead + s.workersAhead + s.stop.ahead := rfl

/-- A reap frees connections, and takes nothing on. -/
theorem workersAhead_frees (hperm : (s'.live ++ s.harvest).Perm s.live) (hup : s'.up = s.up) :
    s'.workersAhead ≤ s.workersAhead := by
  have hsame : s'.workerAhead = s.workerAhead := by
    funext c
    rw [workerAhead, workerAhead, hup]
  have hsum := (hperm.map s.workerAhead).sum_eq
  rw [List.map_append, List.sum_append] at hsum
  rw [workersAhead, workersAhead, hsame]
  omega

/-- A worker that moves on has less ahead of it. -/
theorem workersAhead_moves {i : ℕ} {c : RelayConn} {phase : WorkerPhase} (hi : s.live[i]? = some c)
    (hlive : s'.live = setPhase s.live i phase) (hup : s'.up = s.up)
    (hless : phase.ahead (s.up c.flow) < c.phase.ahead (s.up c.flow)) :
    s'.workersAhead < s.workersAhead := by
  have hsame : s'.workerAhead = s.workerAhead := by
    funext c
    rw [workerAhead, workerAhead, hup]
  rw [workersAhead, workersAhead, hsame, hlive]
  exact SlotTable.sum_map_modify_lt _ s.live i c hi (fun _ _ => Nat.le_refl _) hless

/-- The worker's connect to the first hop. -/
theorem workersAhead_connect {i : ℕ} {c : RelayConn} (hi : s.live[i]? = some c)
    (hphase : c.phase = .connecting) (hup : s.up c.flow = none) :
    (s.connect c.flow).workersAhead < s.workersAhead := by
  have hopened : (s.connect c.flow).up c.flow ≠ none := by
    have hnew : (s.connect c.flow).up c.flow = some s.sockets := if_pos rfl
    rw [hnew]
    exact Option.some_ne_none _
  have hold : ∀ a ∈ s.live, (s.connect c.flow).workerAhead a ≤ s.workerAhead a := by
    intro a _
    by_cases hflow : a.flow = c.flow
    · rw [workerAhead, workerAhead, hflow, hup]
      cases a.phase with
      | connecting => exact (if_neg hopened).trans_le (Nat.le_succ 3)
      | splicing | calling | exited => exact Nat.le_refl _
    · have hsame : (s.connect c.flow).up a.flow = s.up a.flow := if_neg hflow
      rw [workerAhead, workerAhead, hsame]
  have hless : (s.connect c.flow).workerAhead c < s.workerAhead c := by
    rw [workerAhead, workerAhead, hphase, hup, WorkerPhase.ahead, WorkerPhase.ahead, if_neg hopened,
      if_pos rfl]
    exact Nat.lt_succ_self 3
  have hlt := SlotTable.sum_map_modify_lt id s.live i c hi hold hless
  rw [List.modify_id] at hlt
  exact hlt

/-- A client becomes a connection at most, with all the steps of its worker ahead. -/
theorem workersAhead_serve (h : s.Inv) (peerPort : PmxPort) (client now : ℕ) (allocOk threadOk : Bool) :
    (s.serve peerPort client now allocOk threadOk).workersAhead ≤ s.workersAhead + 4 := by
  have hnew : ∀ (r : RelayLife) (new : List RelayConn), r.live.Perm (new ++ s.live) →
      (∀ c ∈ s.live, r.workerAhead c = s.workerAhead c) → (new.map r.workerAhead).sum ≤ 4 →
      r.workersAhead ≤ s.workersAhead + 4 := by
    intro r new hperm hold hnew
    have hsum := (hperm.map r.workerAhead).sum_eq
    rw [List.map_append, List.sum_append, List.map_congr_left hold] at hsum
    rw [workersAhead, workersAhead, hsum]
    omega
  rw [RelayLife.serve]
  cases htake : (relayTake s.relay peerPort now).2 with
  | none =>
    have hconns := (relayServe_of_none allocOk threadOk htake).2.1
    refine hnew _ [] (live_perm_of_conns (hconns.trans (List.append_nil _).symm) rfl) ?_ (Nat.zero_le 4)
    exact fun _ _ => rfl
  | some e =>
    have hfresh := h.numbered.unused e (relayTake_mem htake).1
    have hother : ∀ c ∈ s.live, c.flow ≠ e.flow := fun c hc hflow =>
      hfresh (hflow ▸ h.placed.consumed c hc)
    by_cases hcan : canServe s.relay allocOk threadOk
    · obtain ⟨hserve, hconns, -⟩ := relayServe_of_canServe htake hcan
      rw [hserve]
      refine hnew _ [e.conn .connecting] (live_perm_of_conns hconns rfl) ?_ ?_
      · intro c hc
        simp only [workerAhead, if_neg (hother c hc)]
      · simp [workerAhead, RelayEntry.conn, WorkerPhase.ahead]
    · obtain ⟨hserve, hconns, -⟩ := relayServe_of_not_canServe htake hcan
      rw [hserve]
      rcases hconns with hconns | hconns
      · refine hnew _ [] (live_perm_of_conns (hconns.trans (List.append_nil _).symm) rfl) ?_ (Nat.zero_le 4)
        exact fun _ _ => rfl
      · refine hnew _ [e.conn .exited] (live_perm_of_conns hconns rfl) (fun _ _ => rfl) ?_
        simp [workerAhead, RelayEntry.conn, WorkerPhase.ahead]

/-! ### A step takes from the count -/

theorem ahead_lt_of_workers (hworkers : s'.workersAhead < s.workersAhead) (haccept : s'.accept = s.accept)
    (hstop : s'.stop = s.stop) : s'.ahead < s.ahead := by
  rw [ahead_eq, ahead_eq, haccept, hstop]
  omega

theorem ahead_register (s : RelayLife) (call : RegisterCall) (now addedMs : ℕ) :
    (lifeStep s (.register call now addedMs)).ahead = s.ahead := by
  rw [lifeStep]
  split_ifs
  · rfl
  · have hconns := pmxRelayRegister_conns s.relay call.srcPort call.dstHost.str call.dstPort call.chain
      call.chainLen now addedMs s.nextFlow
    rw [ahead_eq, ahead_eq, workersAhead, workersAhead, live, hconns]
    rfl

/-- A step changes nothing, or takes from the count. -/
def Spends (s s' : RelayLife) : Prop := s' = s ∨ s'.ahead < s.ahead

/-- The accept thread notices the stop. -/
theorem spends_leave (haccept : 0 < s.accept.ahead) : Spends s { s with accept := .left } := by
  right
  show 0 + s.workersAhead + s.stop.ahead < s.ahead
  rw [ahead_eq]
  omega

theorem look_spends (hoff : s.relay.running = false) : Spends s (lifeStep s .look) := by
  rw [lifeStep, hoff, if_neg Bool.false_ne_true]
  split_ifs with hloop
  · exact spends_leave (by rw [hloop]; exact Nat.one_pos)
  · exact Or.inl rfl

theorem acceptFails_spends (hoff : s.relay.running = false) : Spends s (lifeStep s .acceptFails) := by
  rw [lifeStep, hoff, if_neg Bool.false_ne_true]
  split_ifs with hacc
  · exact spends_leave (by rw [hacc, AcceptStage.ahead]; omega)
  · exact Or.inl rfl

theorem accept_spends (s : RelayLife) (peerPort : PmxPort) : Spends s (lifeStep s (.accept peerPort)) := by
  rw [lifeStep]
  split_ifs with hgo
  · right
    have hfrees : s.reap.workersAhead ≤ s.workersAhead := workersAhead_frees (reap_perm s) rfl
    show 6 + s.reap.workersAhead + s.stop.ahead < s.ahead
    rw [ahead_eq, hgo.1, AcceptStage.ahead]
    omega
  · exact Or.inl rfl

theorem serve_spends (h : s.Inv) (now : ℕ) (allocOk threadOk : Bool) :
    Spends s (lifeStep s (.serve now allocOk threadOk)) := by
  rw [lifeStep]
  split
  · next peerPort client hacc =>
    split_ifs
    · right
      obtain ⟨-, hstop, -, hloop⟩ := serve_kept s peerPort client now allocOk threadOk
      have hserve := workersAhead_serve h peerPort client now allocOk threadOk
      rw [ahead_eq, ahead_eq, hstop, hloop, hacc, AcceptStage.ahead, AcceptStage.ahead]
      omega
    · exact Or.inl rfl
  · exact Or.inl rfl

theorem connected_spends (s : RelayLife) (i : ℕ) : Spends s (lifeStep s (.connected i)) := by
  rw [lifeStep]
  split
  · next c hc =>
    obtain ⟨hi, hphase⟩ := connIn_live hc
    split_ifs with hup
    · exact Or.inr (ahead_lt_of_workers (workersAhead_connect hi hphase hup) rfl rfl)
    · exact Or.inl rfl
  · exact Or.inl rfl

theorem established_spends (s : RelayLife) (i : ℕ) : Spends s (lifeStep s (.established i)) := by
  rw [lifeStep]
  split
  · next c hc =>
    obtain ⟨hi, hphase⟩ := connIn_live hc
    split_ifs with hup
    · exact Or.inl rfl
    · right
      refine ahead_lt_of_workers (workersAhead_moves hi (setPhase_live s i .splicing) rfl ?_) rfl rfl
      rw [hphase, WorkerPhase.ahead, WorkerPhase.ahead, if_neg hup]
      exact Nat.lt_succ_self 2
  · exact Or.inl rfl

theorem failed_spends (s : RelayLife) (i : ℕ) : Spends s (lifeStep s (.failed i)) := by
  rw [lifeStep]
  split
  · next c hc =>
    obtain ⟨hi, hphase⟩ := connIn_live hc
    right
    refine ahead_lt_of_workers (workersAhead_moves hi (setPhase_live s i .calling) rfl ?_) rfl rfl
    rw [hphase, WorkerPhase.ahead, WorkerPhase.ahead]
    split_ifs <;> omega
  · exact Or.inl rfl

/-- The end of a splice is a step wherever there is one. -/
theorem finished_spends {i : ℕ} (hsplicing : (connIn s.live i .splicing).isSome = true) :
    (lifeStep s (.finished i)).ahead < s.ahead := by
  obtain ⟨c, hc⟩ := Option.isSome_iff_exists.1 hsplicing
  obtain ⟨hi, hphase⟩ := connIn_live hc
  rw [lifeStep, hc]
  refine ahead_lt_of_workers (workersAhead_moves hi (setPhase_live s i .calling) rfl ?_) rfl rfl
  rw [hphase]
  exact Nat.lt_succ_self 1

theorem callback_spends (s : RelayLife) (i : ℕ) : Spends s (lifeStep s (.callback i)) := by
  rw [lifeStep]
  split
  · next c hc =>
    obtain ⟨hi, hphase⟩ := connIn_live hc
    right
    refine ahead_lt_of_workers (workersAhead_moves hi (setPhase_live s i .exited) rfl ?_) rfl rfl
    rw [hphase]
    exact Nat.lt_succ_self 0
  · exact Or.inl rfl

theorem joinAccept_spends (s : RelayLife) : Spends s (lifeStep s .joinAccept) := by
  rw [lifeStep]
  split_ifs with hgo
  · right
    show s.accept.ahead + s.workersAhead + (relayStopSpins - 0 + 2) < s.ahead
    rw [ahead_eq, hgo.1, StopStage.ahead]
    omega
  · exact Or.inl rfl

theorem reap_spends (s : RelayLife) : Spends s (lifeStep s .reap) := by
  have hfrees : s.reap.workersAhead ≤ s.workersAhead := workersAhead_frees (reap_perm s) rfl
  rw [lifeStep]
  split
  · next spins hst =>
    split_ifs with hgo hempty
    · right
      show s.accept.ahead + s.reap.workersAhead + (relayStopSpins - relayStopSpins + 2) < s.ahead
      rw [ahead_eq, hst, StopStage.ahead]
      omega
    · right
      show s.accept.ahead + s.reap.workersAhead + (relayStopSpins - (spins + 1) + 2) < s.ahead
      rw [ahead_eq, hst, StopStage.ahead]
      omega
    · exact Or.inl rfl
  · exact Or.inl rfl

theorem reapAll_spends (s : RelayLife) : Spends s (lifeStep s .reapAll) := by
  rw [lifeStep]
  split_ifs with hgo
  · right
    have hfrees : s.reapAll.workersAhead ≤ s.workersAhead := workersAhead_frees (List.Perm.refl _) rfl
    show s.accept.ahead + s.reapAll.workersAhead + 1 < s.ahead
    rw [ahead_eq, hgo.1, StopStage.ahead]
    omega
  · exact Or.inl rfl

theorem ret_spends (s : RelayLife) : Spends s (lifeStep s .ret) := by
  rw [lifeStep]
  split_ifs with hgo
  · right
    have hfrees : ({ s with harvest := [], stop := .returned } : RelayLife).workersAhead
        ≤ s.workersAhead := workersAhead_frees (by rw [live, List.append_nil]; rfl) rfl
    show s.accept.ahead + ({ s with harvest := [], stop := .returned } : RelayLife).workersAhead + 0
      < s.ahead
    rw [ahead_eq, hgo.1, StopStage.ahead]
    omega
  · exact Or.inl rfl

theorem life_spends (h : s.Inv) (w : s.Winding) (hcalled : s.stop ≠ .running) {op : LifeOp}
    (hthread : op.ofThread = true) (hends : op.endsSplice = false) : Spends s (lifeStep s op) := by
  have hoff := w.stopped hcalled
  cases op with
  | register call now addedMs => cases hthread
  | look => exact look_spends hoff
  | accept peerPort => exact accept_spends s peerPort
  | acceptFails => exact acceptFails_spends hoff
  | serve now allocOk threadOk => exact serve_spends h now allocOk threadOk
  | connected i => exact connected_spends s i
  | established i => exact established_spends s i
  | failed i => exact failed_spends s i
  | finished i => cases hends
  | callback i => exact callback_spends s i
  | stop => exact Or.inl (if_neg hcalled)
  | joinAccept => exact joinAccept_spends s
  | reap => exact reap_spends s
  | reapAll => exact reapAll_spends s
  | ret => exact ret_spends s

/-- A round that carries leaves everything as it is; any other ends the splice of a stopped relay. -/
theorem round_of_off (hoff : s.relay.running = false) (i : ℕ) (r : RoundResults) :
    stopStep s (.round i r) = if r.carries then s else lifeStep s (.finished i) := by
  rw [stopStep, hoff]
  rfl

/-- **A step of a thread** that is numbered takes from the count; no step adds to it. -/
theorem ahead_step (h : s.Inv) (w : s.Winding) (hcalled : s.stop ≠ .running) {op : StopOp}
    (hmove : RelayMoves s op) :
    if op.counts then (stopStep s op).ahead < s.ahead else (stopStep s op).ahead ≤ s.ahead := by
  cases op with
  | life op =>
    cases hthread : op.ofThread with
    | true =>
      rw [StopOp.counts, hthread, if_pos rfl]
      exact (life_spends h w hcalled hthread hmove.1).resolve_left hmove.2
    | false =>
      rw [StopOp.counts, hthread, if_neg Bool.false_ne_true]
      cases op with
      | register call now addedMs => exact (ahead_register s call now addedMs).le
      | _ => cases hthread
  | round i r =>
    rw [round_of_off (w.stopped hcalled), StopOp.counts]
    cases r.carries with
    | true => exact Nat.le_refl _
    | false => exact finished_spends hmove

/-- The count, in a state of a run. -/
theorem ahead_le (w : s.Winding) : s.ahead ≤ relayStopAhead := by
  have hworker : ∀ c ∈ s.live, s.workerAhead c ≤ 4 := by
    intro c _
    rw [workerAhead]
    cases c.phase with
    | connecting => rw [WorkerPhase.ahead]; split_ifs <;> omega
    | splicing | calling | exited => exact Nat.le_of_ble_eq_true rfl
  have hworkers := SlotTable.sum_map_le s.workerAhead hworker
  have hconns := s.relay.conns_fit
  have hharvest := w.harvested
  have haccept : s.accept.ahead ≤ 7 := by cases s.accept <;> exact Nat.le_of_ble_eq_true rfl
  have hstop : s.stop.ahead ≤ relayStopSpins + 3 := by
    cases s.stop <;> rw [StopStage.ahead] <;> omega
  rw [show s.live.length = s.relay.conns.length + s.harvest.length from List.length_append] at hworkers
  rw [ahead_eq, workersAhead, relayStopAhead]
  omega

/-! ### Some thread can go on -/

end RelayLife

end ProxiMight
