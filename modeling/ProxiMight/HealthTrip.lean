import ProxiMight.HealthWatcher

/-!
# A kill switch with nothing to watch

From some point on no proxy is enabled.  The next health tick finds nothing to watch and reports one
failure; the same tick also leaves no watched proxy behind, and without one no later pump ticks.

* **`trips_iff`** — so the controller leaves `ARMED_HEALTHY` exactly when it had left it before, or when
  that single failure comes and is enough to trip it.
-/

namespace ProxiMight

variable {φ β ω : Type} {F : PmxFirewall φ} {B : PmxBackend β ω}

def NoEnabledProxy (pf : PmxProfile) : Prop := ∀ p ∈ pf.proxies, p.enabled = false

theorem NoEnabledProxy.firstEnabled {pf : PmxProfile} (h : NoEnabledProxy pf) :
    firstEnabled pf = none := by
  rw [ProxiMight.firstEnabled, List.find?_eq_none]
  intro p hp
  rw [h p hp]
  exact Bool.false_ne_true

/-- A running engine without an enabled proxy, armed in the blocking mode `mode` with trip threshold
`threshold`, and with every earlier probe delivered. -/
structure Unwatched (mode : PmxLockdownMode) (threshold : ℤ) (e : PmxEngine φ β) : Prop where
  running : e.running = true
  armed : e.lockdown.armed = true
  noProxy : NoEnabledProxy e.profile
  profileMode : modeBlocks e.profile.lockdown.mode = true
  mode_eq : e.lockdown.policy.mode = mode
  threshold_eq : e.lockdown.policy.failuresBeforeTrip = threshold
  idle : e.healthCheck.Idle

/-- The step enables no proxy, keeps mode and threshold, and does not stop the engine. -/
def Quiet (mode : PmxLockdownMode) (threshold : ℤ) : EngineOp β ω → Prop
  | .edit pf => NoEnabledProxy pf ∧ modeBlocks pf.lockdown.mode = true
  | .setPolicy policy => policy.mode = mode ∧ policy.failuresBeforeTrip = threshold
  | .stop => False
  | _ => True

/-- The pumps of a run that come at least the health interval after the last one counted, the first one
after `last`. -/
def spacedPumps (F : PmxFirewall φ) (B : PmxBackend β ω) : ℕ → PmxEngine φ β → List (EngineOp β ω) → ℕ
  | _, _, [] => 0
  | last, e, .pump env :: ops =>
    if env.now - last ≥ healthInterval e.profile then
      spacedPumps F B env.now (engineStep F B e (.pump env)) ops + 1
    else spacedPumps F B last (engineStep F B e (.pump env)) ops
  | last, e, op :: ops => spacedPumps F B last (engineStep F B e op) ops

/-- The two engines agree on what decides about a trip. -/
structure SameTrip (e e' : PmxEngine φ β) : Prop where
  healthProxyId : e'.healthProxyId = e.healthProxyId
  state : e'.lockdown.state = e.lockdown.state
  fails : e'.lockdown.fails = e.lockdown.fails
  lastHealthSubmitMs : e'.lastHealthSubmitMs = e.lastHealthSubmitMs

theorem SameWatch.sameTrip {e e' : PmxEngine φ β} (h : SameWatch e e') : SameTrip e e' :=
  ⟨h.healthProxyId, by rw [h.lockdown], by rw [h.lockdown], h.lastHealthSubmitMs⟩

section Pump

variable {mode : PmxLockdownMode} {threshold : ℤ} {e : PmxEngine φ β}

theorem Unwatched.of_sameWatch {e' : PmxEngine φ β} (h : Unwatched mode threshold e)
    (hsame : SameWatch e e') : Unwatched mode threshold e' where
  running := by rw [hsame.running, h.running]
  armed := by rw [hsame.lockdown, h.armed]
  noProxy := by rw [hsame.profile]; exact h.noProxy
  profileMode := by rw [hsame.profile, h.profileMode]
  mode_eq := by rw [hsame.lockdown, h.mode_eq]
  threshold_eq := by rw [hsame.lockdown, h.threshold_eq]
  idle := by rw [hsame.healthCheck]; exact h.idle

theorem Unwatched.tickDue_iff (h : Unwatched mode threshold e) (env : PumpEnv) :
    TickDue e env ↔ env.now - e.lastHealthSubmitMs ≥ healthInterval e.profile :=
  and_iff_left h.idle.pending

/-- With an idle checker the worker and the poll do nothing. -/
theorem Unwatched.poll (h : e.healthCheck.Idle) (ops : List WorkerOp) :
    SameWatch e (publishState (pollHealth F (runWorker e ops))) := by
  have hrun : (runWorker e ops).healthCheck = e.healthCheck := h.workerSteps ops
  have hchk : { e.healthCheck with results := [] } = e.healthCheck := by
    rw [← h.results]
  rw [pollHealth_eq, hrun, h.results]
  exact ⟨rfl, hchk, rfl, rfl, rfl, rfl, rfl⟩

/-- A pump changes nothing where the watcher is dead or no tick is due. -/
theorem Unwatched.pump_same (h : Unwatched mode threshold e) (env : PumpEnv)
    (hquiet : Watching e → ¬TickDue e env) : SameWatch e (pmxEnginePump F B e env) := by
  by_cases hw : Watching e
  · obtain ⟨e₁, hsame, heq⟩ := pmxEnginePump_of_watching (F := F) (B := B) env h.running hw
    have hnot : ¬TickDue e₁ env := by
      rw [TickDue, hsame.profile, hsame.lastHealthSubmitMs, hsame.healthCheck]
      exact hquiet hw
    rw [heq, healthTick_of_not_due hnot]
    have hpoll := Unwatched.poll (F := F) (h.of_sameWatch hsame).idle env.worker
    exact ⟨by rw [hpoll.profile, hsame.profile], by rw [hpoll.healthCheck, hsame.healthCheck],
      by rw [hpoll.lockdown, hsame.lockdown], by rw [hpoll.running, hsame.running],
      by rw [hpoll.lastHealthSubmitMs, hsame.lastHealthSubmitMs],
      by rw [hpoll.healthProxyId, hsame.healthProxyId],
      by rw [hpoll.allowApplied, hsame.allowApplied]⟩
  · have hsame := pmxEnginePump_of_not_watching (F := F) (B := B) env (e := e) (fun _ => hw)
    have hrun : (runWorker e env.worker).healthCheck = e.healthCheck := h.idle.workerSteps env.worker
    exact ⟨hsame.profile, by rw [hsame.healthCheck, hrun], hsame.lockdown, hsame.running,
      hsame.lastHealthSubmitMs, hsame.healthProxyId, hsame.allowApplied⟩

/-- **The one tick.**  A watching pump that is due loses the watched proxy and reports one failure. -/
theorem Unwatched.pump_due (hmode : modeBlocks mode = true) (h : Unwatched mode threshold e)
    (env : PumpEnv) (hw : Watching e) (hdue : TickDue e env) :
    Unwatched mode threshold (pmxEnginePump F B e env) ∧
    (pmxEnginePump F B e env).healthProxyId = pmxIdNone ∧
    ((pmxEnginePump F B e env).lockdown.state ≠ .armedHealthy ↔
      e.lockdown.state ≠ .armedHealthy ∨ threshold ≤ e.lockdown.fails + 1) := by
  obtain ⟨e₁, hsame, heq⟩ := pmxEnginePump_of_watching (F := F) (B := B) env h.running hw
  have h₁ := h.of_sameWatch hsame
  have hdue₁ : TickDue e₁ env := by
    rw [TickDue, hsame.profile, hsame.lastHealthSubmitMs, hsame.healthCheck]
    exact hdue
  have hid : watchedId e₁.profile = pmxIdNone := by
    rw [watchedId, h₁.noProxy.firstEnabled]
  obtain ⟨hsome, -⟩ | ⟨-, htick⟩ := healthTick_of_due (F := F) hdue₁
  · rw [hid] at hsome
    exact absurd (pmxProfileFindProxy_none e₁.profile) hsome
  · have hidle : (healthTick F e₁ env).healthCheck.Idle := by
      rw [htick]
      show (rebuildAllowlist F e₁ env.stack).healthCheck.Idle
      rw [rebuildAllowlist_healthCheck]
      exact h₁.idle
    have hpoll := Unwatched.poll (F := F) hidle env.worker
    rw [← heq] at hpoll
    have htickU : Unwatched mode threshold (healthTick F e₁ env) := by
      refine ⟨?_, ?_, ?_, ?_, ?_, ?_, hidle⟩ <;> rw [htick] <;>
        simp only [pmxLockdownOnHealth_armed, pmxLockdownOnHealth_policy, rebuildAllowlist_running,
          rebuildAllowlist_armed, rebuildAllowlist_profile, rebuildAllowlist_policy]
      · exact h₁.running
      · exact h₁.armed
      · exact h₁.noProxy
      · exact h₁.profileMode
      · exact h₁.mode_eq
      · exact h₁.threshold_eq
    refine ⟨htickU.of_sameWatch hpoll, ?_, ?_⟩
    · rw [hpoll.healthProxyId, htick]
      show (rebuildAllowlist F e₁ env.stack).healthProxyId = pmxIdNone
      rw [rebuildAllowlist_healthProxyId, hid]
    · rw [hpoll.lockdown, htick]
      show (pmxLockdownOnHealth F (rebuildAllowlist F e₁ env.stack).lockdown false).1.state ≠ _ ↔ _
      rw [pmxLockdownOnHealth_false_state _ (by rw [rebuildAllowlist_armed, h₁.armed])
        (by rw [rebuildAllowlist_policy, h₁.mode_eq, hmode]), rebuildAllowlist_state,
        rebuildAllowlist_fails, rebuildAllowlist_policy, h₁.threshold_eq, hsame.lockdown]

/-- A quiet step other than a pump changes nothing that decides about a trip. -/
theorem Unwatched.step_same (h : Unwatched mode threshold e) (op : EngineOp β ω)
    (hdecl : ∀ raw, mode ≠ .other raw) (hq : Quiet mode threshold op)
    (hpump : ∀ env, op ≠ .pump env) :
    Unwatched mode threshold (engineStep F B e op) ∧ SameTrip e (engineStep F B e op) := by
  have hself : Unwatched mode threshold e ∧ SameTrip e e := ⟨h, ⟨rfl, rfl, rfl, rfl⟩⟩
  cases op with
  | edit pf =>
    exact ⟨⟨h.running, h.armed, hq.1, hq.2, h.mode_eq, h.threshold_eq, h.idle⟩, ⟨rfl, rfl, rfl, rfl⟩⟩
  | setPolicy policy =>
    obtain ⟨hqm, hqt⟩ := hq
    have hsan : sanitizeMode policy.mode = mode := by rw [hqm, sanitizeMode_eq_self hdecl]
    have hset : pmxLockdownSetPolicy F e.lockdown policy
        = { e.lockdown with policy := { policy with mode := sanitizeMode policy.mode } } := by
      rcases pmxLockdownSetPolicy_cases F e.lockdown policy with ⟨-, hne, -⟩ | ⟨-, heq⟩
      · exact absurd (by rw [hsan, h.mode_eq]) hne
      · exact heq
    rw [engineStep, hset]
    exact ⟨⟨h.running, h.armed, h.noProxy, h.profileMode, hsan, hqt, h.idle⟩, ⟨rfl, rfl, rfl, rfl⟩⟩
  | load loaded allocOk =>
    have hload : (pmxEngineLoadProfile F e loaded allocOk).1 = e := by
      cases loaded <;> rw [pmxEngineLoadProfile, if_pos h.running]
    rw [engineStep, hload]
    exact hself
  | start os stack =>
    rw [engineStep, pmxEngineStart, if_pos h.running]
    exact hself
  | stop => exact hq.elim
  | pump env => exact absurd rfl (hpump env)
  | flow f allocOk =>
    have hsame : SameWatch e (engineOnFlow e f allocOk) := by
      rw [engineOnFlow]
      split_ifs <;> exact ⟨rfl, rfl, rfl, rfl, rfl, rfl, rfl⟩
    exact ⟨h.of_sameWatch hsame, hsame.sameTrip⟩
  | backend b =>
    have hsame : SameWatch e { e with backend := b } := ⟨rfl, rfl, rfl, rfl, rfl, rfl, rfl⟩
    exact ⟨h.of_sameWatch hsame, hsame.sameTrip⟩
  | worker op =>
    have hsame : SameWatch e { e with healthCheck := workerStep e.healthCheck op } :=
      ⟨rfl, h.idle.workerStep op, rfl, rfl, rfl, rfl, rfl⟩
    exact ⟨h.of_sameWatch hsame, hsame.sameTrip⟩

theorem Unwatched.watching_iff (h : Unwatched mode threshold e) :
    Watching e ↔ e.healthProxyId ≠ pmxIdNone := by
  apply and_iff_right
  intro hm
  have hblock := h.profileMode
  rw [hm] at hblock
  cases hblock

end Pump

/-! ### Runs -/

section Run

variable {mode : PmxLockdownMode} {threshold : ℤ}

theorem declared_of_modeBlocks (hmode : modeBlocks mode = true) (raw : Undeclared 3) :
    mode ≠ .other raw := by
  intro h
  rw [h] at hmode
  cases hmode

/-- Without a watched proxy the state never changes again. -/
theorem Unwatched.run_dead (hmode : modeBlocks mode = true) :
    ∀ (ops : List (EngineOp β ω)) (e : PmxEngine φ β), Unwatched mode threshold e →
      e.healthProxyId = pmxIdNone → (∀ op ∈ ops, Quiet mode threshold op) →
      (Runs.runFrom (engineStep F B) e ops).lockdown.state = e.lockdown.state := by
  intro ops
  induction ops with
  | nil => intro e _ _ _; rfl
  | cons op ops ih =>
    intro e h hid hq
    have hstep : Unwatched mode threshold (engineStep F B e op) ∧ SameTrip e (engineStep F B e op) := by
      by_cases hpump : ∃ env, op = .pump env
      · obtain ⟨env, rfl⟩ := hpump
        have hsame := h.pump_same (F := F) (B := B) env fun hw => absurd hid (h.watching_iff.1 hw)
        exact ⟨h.of_sameWatch hsame, hsame.sameTrip⟩
      · exact h.step_same op (declared_of_modeBlocks hmode) (hq op List.mem_cons_self)
          fun env heq => hpump ⟨env, heq⟩
    rw [Runs.runFrom_cons, ih _ hstep.1 (by rw [hstep.2.healthProxyId, hid])
      fun op' hop' => hq op' (List.mem_cons_of_mem op hop'), hstep.2.state]

/-- With a watched proxy, the first pump that is due decides. -/
theorem Unwatched.run_watching (hmode : modeBlocks mode = true) :
    ∀ (ops : List (EngineOp β ω)) (e : PmxEngine φ β), Unwatched mode threshold e →
      e.healthProxyId ≠ pmxIdNone → (∀ op ∈ ops, Quiet mode threshold op) →
      ((Runs.runFrom (engineStep F B) e ops).lockdown.state ≠ .armedHealthy ↔
        e.lockdown.state ≠ .armedHealthy ∨
          (1 ≤ spacedPumps F B e.lastHealthSubmitMs e ops ∧ threshold ≤ e.lockdown.fails + 1)) := by
  intro ops
  induction ops with
  | nil =>
    intro e _ _ _
    have hnone : ¬1 ≤ spacedPumps F B e.lastHealthSubmitMs e [] := by rw [spacedPumps]; omega
    rw [Runs.runFrom_nil]
    simp only [hnone, false_and, or_false]
  | cons op ops ih =>
    intro e h hid hq
    have hqs : ∀ op' ∈ ops, Quiet mode threshold op' :=
      fun op' hop' => hq op' (List.mem_cons_of_mem op hop')
    -- a step that changes nothing leaves the decision to the rest of the run
    have hpass : Unwatched mode threshold (engineStep F B e op) ∧ SameTrip e (engineStep F B e op) →
        spacedPumps F B e.lastHealthSubmitMs e (op :: ops)
          = spacedPumps F B e.lastHealthSubmitMs (engineStep F B e op) ops →
        ((Runs.runFrom (engineStep F B) e (op :: ops)).lockdown.state ≠ .armedHealthy ↔
          e.lockdown.state ≠ .armedHealthy ∨
            (1 ≤ spacedPumps F B e.lastHealthSubmitMs e (op :: ops) ∧
              threshold ≤ e.lockdown.fails + 1)) := by
      rintro ⟨hnext, hsame⟩ hrest
      rw [Runs.runFrom_cons, ih _ hnext (by rw [hsame.healthProxyId]; exact hid) hqs,
        hsame.lastHealthSubmitMs, hsame.state, hsame.fails, hrest]
    by_cases hpump : ∃ env, op = .pump env
    · obtain ⟨env, rfl⟩ := hpump
      by_cases hdue : env.now - e.lastHealthSubmitMs ≥ healthInterval e.profile
      · have hcount : 1 ≤ spacedPumps F B e.lastHealthSubmitMs e (.pump env :: ops) := by
          rw [spacedPumps, if_pos hdue]
          omega
        obtain ⟨hnext, hnone, htrip⟩ := h.pump_due (F := F) (B := B) hmode env
          (h.watching_iff.2 hid) ((h.tickDue_iff env).2 hdue)
        rw [Runs.runFrom_cons, show engineStep F B e (.pump env) = pmxEnginePump F B e env from rfl,
          Unwatched.run_dead hmode ops _ hnext hnone hqs, htrip]
        simp only [hcount, true_and]
      · have hsame := h.pump_same (F := F) (B := B) env fun _ hd => hdue ((h.tickDue_iff env).1 hd)
        exact hpass ⟨h.of_sameWatch hsame, hsame.sameTrip⟩ (by rw [spacedPumps, if_neg hdue])
    · have hne : ∀ env, op ≠ .pump env := fun env heq => hpump ⟨env, heq⟩
      exact hpass (h.step_same op (declared_of_modeBlocks hmode) (hq op List.mem_cons_self) hne)
        (spacedPumps.eq_3 _ _ _ _ _ _ hne)

/-- **When a kill switch with nothing to watch trips.**  In a reachable running engine in a blocking
mode, with no proxy enabled any more and every earlier probe delivered, however many pumps follow. -/
theorem trips_iff (F : PmxFirewall φ) (B : PmxBackend β ω) (pf : PmxProfile) (fw : Option φ)
    (backend : β) (allocOk : Fin 4 → Bool) (pre window : List (EngineOp β ω))
    (mode : PmxLockdownMode) (threshold : ℤ) (e : PmxEngine φ β)
    (he : e = Runs.runFrom (engineStep F B) (pmxEngineCreate B pf fw backend allocOk) pre)
    (hrun : e.running = true) (hmode : modeBlocks mode = true)
    (hld : e.lockdown.policy.mode = mode) (hpf : modeBlocks e.profile.lockdown.mode = true)
    (hthr : e.lockdown.policy.failuresBeforeTrip = threshold)
    (hnone : NoEnabledProxy e.profile) (hidle : e.healthCheck.Idle)
    (hquiet : ∀ op ∈ window, Quiet mode threshold op) :
    (Runs.runFrom (engineStep F B) e window).lockdown.state ≠ .armedHealthy ↔
      e.lockdown.state ≠ .armedHealthy ∨
        (e.healthProxyId ≠ pmxIdNone ∧ 1 ≤ spacedPumps F B e.lastHealthSubmitMs e window ∧
          threshold ≤ e.lockdown.fails + 1) := by
  have hsync : Synced e := by
    rw [he]
    exact Runs.runFrom_inv Synced (fun s op hs => hs.step s op) pre _ (Synced.create pf fw backend allocOk)
  have h : Unwatched mode threshold e :=
    ⟨hrun, by rw [hsync.armed, hrun], hnone, hpf, hld, hthr, hidle⟩
  by_cases hid : e.healthProxyId = pmxIdNone
  · rw [Unwatched.run_dead hmode window e h hid hquiet]
    simp [hid]
  · rw [Unwatched.run_watching hmode window e h hid hquiet]
    simp [hid]

end Run

instance (pf : PmxProfile) : Decidable (NoEnabledProxy pf) :=
  inferInstanceAs (Decidable (∀ p ∈ pf.proxies, p.enabled = false))

/-- A good probe. -/
def goodResult : PmxCheckResult :=
  ⟨pmxIdNone, -1, true, true, 20, -1, .ok, .empty, .empty, 0⟩

/-- A pump in the middle of which the worker takes its job and delivers a good result. -/
def goodPump (now : ℕ) : PumpEnv :=
  { quietPump now with worker := [.take, .deliver goodResult true] }

/-- Fail-closed with trip threshold 2, restored by two good probes; then the only proxy is disabled. -/
def emptiedEngine : PmxEngine StubFw StubImpl :=
  Runs.runFrom (engineStep pmxFirewallStub pmxBackendStub)
    (pmxEngineCreate pmxBackendStub oneProxyProfile (some stubFwCreate) stubImplCreate fun _ => true)
    [.start true (fun _ => []), .pump (goodPump 5000), .pump (goodPump 10000), .edit noProxyProfile]

/-- Two spaced pumps later the controller still reports that it is armed and healthy. -/
theorem not_tripped_emptiedEngine :
    emptiedEngine.running = true ∧ emptiedEngine.lockdown.policy.mode = .failClosed ∧
    emptiedEngine.profile.lockdown.mode = .failClosed ∧
    emptiedEngine.lockdown.policy.failuresBeforeTrip = 2 ∧
    NoEnabledProxy emptiedEngine.profile ∧
    (emptiedEngine.healthCheck.jobs = [] ∧ emptiedEngine.healthCheck.taken = none ∧
      emptiedEngine.healthCheck.results = [] ∧ emptiedEngine.healthCheck.pending = 0) ∧
    spacedPumps pmxFirewallStub pmxBackendStub emptiedEngine.lastHealthSubmitMs emptiedEngine
      [.pump (quietPump 15000), .pump (quietPump 20000)] = 2 ∧
    (Runs.runFrom (engineStep pmxFirewallStub pmxBackendStub) emptiedEngine
      [.pump (quietPump 15000), .pump (quietPump 20000)]).lockdown.state = .armedHealthy := by
  decide +kernel

/-- The same run, seen through the condition. -/
theorem trips_iff_emptiedEngine :
    (Runs.runFrom (engineStep pmxFirewallStub pmxBackendStub) emptiedEngine
      [.pump (quietPump 15000), .pump (quietPump 20000)]).lockdown.state ≠ .armedHealthy ↔
    emptiedEngine.lockdown.state ≠ .armedHealthy ∨
      (emptiedEngine.healthProxyId ≠ pmxIdNone ∧
        1 ≤ spacedPumps pmxFirewallStub pmxBackendStub emptiedEngine.lastHealthSubmitMs emptiedEngine
          [.pump (quietPump 15000), .pump (quietPump 20000)] ∧
        (2 : ℤ) ≤ emptiedEngine.lockdown.fails + 1) :=
  trips_iff pmxFirewallStub pmxBackendStub oneProxyProfile (some stubFwCreate)
    stubImplCreate (fun _ => true)
    [.start true (fun _ => []), .pump (goodPump 5000), .pump (goodPump 10000), .edit noProxyProfile]
    [.pump (quietPump 15000), .pump (quietPump 20000)] .failClosed 2 emptiedEngine rfl
    (by decide +kernel) rfl (by decide +kernel) (by decide +kernel) (by decide +kernel)
    (by decide +kernel)
    ⟨by decide +kernel, by decide +kernel, by decide +kernel, by decide +kernel⟩
    (by
      intro op hop
      rcases List.mem_cons.1 hop with rfl | hop
      · trivial
      · rw [List.mem_singleton.1 hop]; trivial)

end ProxiMight
