import ProxiMight.Engine
import ProxiMight.Runs

/-!
# The health watcher follows the profile

On a health tick the pump rebuilds the allowlist and chooses the proxy to probe again.  The block it
does so in is guarded by the proxy it watches, and with no enabled proxy left that is none: from then on
no pump refreshes anything.

* **`pump_follows_iff`** — what one pump that is due leaves behind.
* **`watcher_follows_iff`** — over runs: every pump that is due leaves the watcher and the allowlist in
  step with the profile exactly when each of them starts from a watched proxy, or from nothing to refresh.
-/

namespace ProxiMight

open CString

variable {φ β ω : Type} {F : PmxFirewall φ} {B : PmxBackend β ω}

/-- What the allowlist says: names and ports. -/
def allowedNames (eps : List PmxFwEndpoint) : List (List UInt8 × PmxPort) :=
  eps.map fun ep => (ep.host, ep.port)

theorem writeEndpoints_names (stack : ℕ → List UInt8) (eps : List (CBuf pmxMaxHost × PmxPort)) :
    allowedNames (writeEndpoints stack eps) = eps.map fun ep => (ep.1.str, ep.2) := by
  apply List.ext_getElem
  · simp [allowedNames, writeEndpoints]
  · intro i h₁ h₂
    have hname : ∀ (b : CBuf pmxMaxHost), cstr (writeStr (stack i) b.str) = b.str :=
      fun b => cstr_writeStr b.nul_notMem_str (stack i)
    simp [allowedNames, writeEndpoints, PmxFwEndpoint.host, hname]

/-! ### One pump -/

theorem healthTick_of_not_due {e : PmxEngine φ β} {env : PumpEnv} (h : ¬TickDue e env) :
    healthTick F e env = e := by
  rw [healthTick, if_neg h]

/-- A tick that is due: the rebuilt engine, with a probe submitted or a failure observed. -/
theorem healthTick_of_due {e : PmxEngine φ β} {env : PumpEnv} (h : TickDue e env) :
    (pmxProfileFindProxy e.profile (watchedId e.profile) ≠ none ∧ ∃ healthCheck, healthTick F e env =
      { rebuildAllowlist F e env.stack with
          lastHealthSubmitMs := env.now, healthCheck := healthCheck }) ∨
    (pmxProfileFindProxy e.profile (watchedId e.profile) = none ∧ healthTick F e env =
      { rebuildAllowlist F e env.stack with
          lastHealthSubmitMs := env.now
          lockdown :=
            (pmxLockdownOnHealth F (rebuildAllowlist F e env.stack).lockdown false).1 }) := by
  rw [healthTick, if_pos h, probeWatched]
  dsimp only
  rw [rebuildAllowlist_profile, rebuildAllowlist_healthProxyId]
  cases hf : pmxProfileFindProxy e.profile (watchedId e.profile) with
  | some p => exact Or.inl ⟨Option.some_ne_none p, _, rfl⟩
  | none => exact Or.inr ⟨rfl, rfl⟩

theorem pollHealth_eq (e : PmxEngine φ β) :
    pollHealth F e =
      { e with
          lockdown := (e.healthCheck.results.map fun r => decide (r.status = .ok)).foldl
            (fun ld h => (pmxLockdownOnHealth F ld h).1) e.lockdown
          healthCheck := { e.healthCheck with results := [] } } := by
  rw [pollHealth, foldl_engineOnHealth]

/-- A pump that watches: a tick, the worker, the poll. -/
theorem pmxEnginePump_of_watching {e : PmxEngine φ β} (env : PumpEnv) (hrun : e.running = true)
    (h : Watching e) : ∃ e₁, SameWatch e e₁ ∧
      pmxEnginePump F B e env
        = publishState (pollHealth F (runWorker (healthTick F e₁ env) env.worker)) := by
  have hsame := pumpPrelude_sameWatch (B := B) e env
  refine ⟨pumpPrelude B e env, hsame, ?_⟩
  rw [pmxEnginePump, if_pos (by rw [hsame.running, hrun]), watchHealth, if_pos]
  rw [Watching, hsame.profile, hsame.healthProxyId]
  exact h

/-- A pump that does not watch runs the worker and leaves the rest of the watcher alone. -/
theorem pmxEnginePump_of_not_watching {e : PmxEngine φ β} (env : PumpEnv)
    (h : e.running = true → ¬Watching e) :
    SameWatch (runWorker e env.worker) (pmxEnginePump F B e env) := by
  obtain ⟨hpf, hhc, hld, hrun, hlast, hid, happ⟩ := pumpPrelude_sameWatch (B := B) e env
  have hworker : (runWorker (pumpPrelude B e env) env.worker).healthCheck
      = (runWorker e env.worker).healthCheck := by
    show env.worker.foldl workerStep (pumpPrelude B e env).healthCheck = _
    rw [hhc]
    rfl
  rw [pmxEnginePump]
  split_ifs with hr
  · have hnot : ¬Watching (pumpPrelude B e env) := by
      rw [Watching, hpf, hid]
      exact h (by rw [← hrun, hr])
    rw [watchHealth, if_neg hnot]
    exact ⟨hpf, hworker, hld, hrun, hlast, hid, happ⟩
  · exact ⟨hpf, hworker, hld, hrun, hlast, hid, happ⟩

/-! ### What every step keeps -/

/-- The controller has the allowlist that was applied last, and is armed while the engine runs. -/
structure Synced (e : PmxEngine φ β) : Prop where
  allow : e.lockdown.allow = e.allowApplied
  armed : e.lockdown.armed = e.running

theorem Synced.of_same {e e' : PmxEngine φ β} (h : Synced e) (hld : e'.lockdown = e.lockdown)
    (hrun : e'.running = e.running) (happ : e'.allowApplied = e.allowApplied) : Synced e' :=
  ⟨by rw [hld, happ, h.allow], by rw [hld, hrun, h.armed]⟩

theorem Synced.rebuild {e : PmxEngine φ β} (h : Synced e) (stack : ℕ → List UInt8) :
    Synced (rebuildAllowlist F e stack) := by
  obtain ⟨hallow, happ⟩ := rebuildAllowlist_allow (F := F) e stack h.allow
  exact ⟨by rw [hallow, happ], by rw [rebuildAllowlist_armed, rebuildAllowlist_running, h.armed]⟩

theorem Synced.tick {e : PmxEngine φ β} (h : Synced e) (env : PumpEnv) :
    Synced (healthTick F e env) := by
  by_cases hdue : TickDue e env
  · have hr := h.rebuild (F := F) env.stack
    rcases healthTick_of_due (F := F) hdue with ⟨-, hc, heq⟩ | ⟨-, heq⟩
    · rw [heq]
      exact hr.of_same rfl rfl rfl
    · rw [heq]
      refine ⟨?_, ?_⟩
      · show (pmxLockdownOnHealth F _ false).1.allow = _
        rw [pmxLockdownOnHealth_allow]
        exact hr.allow
      · show (pmxLockdownOnHealth F _ false).1.armed = _
        rw [pmxLockdownOnHealth_armed]
        exact hr.armed
  · rw [healthTick_of_not_due hdue]
    exact h

theorem Synced.poll {e : PmxEngine φ β} (h : Synced e) : Synced (pollHealth F e) := by
  rw [pollHealth_eq]
  exact ⟨by rw [← h.allow]; exact foldl_onHealth_allow _ _,
    by rw [← h.armed]; exact foldl_onHealth_armed _ _⟩

theorem SameWatch.synced {e e' : PmxEngine φ β} (hsame : SameWatch e e') (h : Synced e) :
    Synced e' :=
  h.of_same hsame.lockdown hsame.running hsame.allowApplied

theorem Synced.pump {e : PmxEngine φ β} (h : Synced e) (env : PumpEnv) :
    Synced (pmxEnginePump F B e env) := by
  by_cases hw : e.running = true ∧ Watching e
  · obtain ⟨e₁, hsame, heq⟩ := pmxEnginePump_of_watching (F := F) (B := B) env hw.1 hw.2
    have htick := (hsame.synced h).tick (F := F) env
    have hworker : Synced (runWorker (healthTick F e₁ env) env.worker) := htick.of_same rfl rfl rfl
    rw [heq]
    exact (hworker.poll (F := F)).of_same rfl rfl rfl
  · have hsame := pmxEnginePump_of_not_watching (F := F) (B := B) env
      (fun hrun hwatch => hw ⟨hrun, hwatch⟩)
    exact hsame.synced (h.of_same rfl rfl rfl)

theorem Synced.step (e : PmxEngine φ β) (op : EngineOp β ω) (h : Synced e) :
    Synced (engineStep F B e op) := by
  cases op with
  | edit pf => exact h.of_same rfl rfl rfl
  | setPolicy policy =>
    exact ⟨by rw [engineStep, pmxLockdownSetPolicy_allow, h.allow],
      by rw [engineStep, pmxLockdownSetPolicy_armed, h.armed]⟩
  | load loaded allocOk =>
    cases loaded with
    | error st =>
      rw [engineStep, pmxEngineLoadProfile]
      split_ifs with hrun
      · exact h
      · exact h.of_same rfl rfl rfl
    | ok pf =>
      rw [engineStep, pmxEngineLoadProfile]
      split_ifs with hrun
      · exact h
      · refine ⟨?_, ?_⟩
        · show (pmxLockdownSetPolicy F e.lockdown pf.lockdown).allow = e.allowApplied
          rw [pmxLockdownSetPolicy_allow, h.allow]
        · show (pmxLockdownSetPolicy F e.lockdown pf.lockdown).armed = e.running
          rw [pmxLockdownSetPolicy_armed, h.armed]
  | start os stack =>
    rw [engineStep, pmxEngineStart]
    split_ifs with hrun
    · exact h
    · dsimp only
      have hb : Synced (engineStartBackend B e os).1 := h.of_same rfl rfl rfl
      split_ifs with hst
      · exact hb
      · obtain ⟨hallow, happ⟩ := rebuildAllowlist_allow (F := F) (engineStartBackend B e os).1 stack hb.allow
        refine ⟨?_, ?_⟩
        · show (pmxLockdownArm F (pmxLockdownSetPolicy F
            (rebuildAllowlist F (engineStartBackend B e os).1 stack).lockdown _)).1.allow = _
          rw [pmxLockdownArm, lockdownReconcile_allow]
          show (pmxLockdownSetPolicy F _ _).allow = _
          rw [pmxLockdownSetPolicy_allow, hallow]
          exact happ.symm
        · exact lockdownReconcile_armed _
  | stop =>
    rw [engineStep, pmxEngineStop]
    split_ifs with hrun
    · exact h
    · refine ⟨?_, pmxLockdownDisarm_armed F e.lockdown⟩
      show (pmxLockdownDisarm F e.lockdown).allow = e.allowApplied
      rw [pmxLockdownDisarm_allow, h.allow]
  | pump env => exact h.pump env
  | flow f allocOk =>
    rw [engineStep, engineOnFlow]
    split_ifs
    · exact h.of_same rfl rfl rfl
    · exact h.of_same rfl rfl rfl
    · exact h
  | backend b => exact h.of_same rfl rfl rfl
  | worker op => exact h.of_same rfl rfl rfl

theorem Synced.create (pf : PmxProfile) (fw : Option φ) (backend : β) (allocOk : Fin 4 → Bool) :
    Synced (pmxEngineCreate B pf fw backend allocOk) := ⟨rfl, rfl⟩

/-! ### Following the profile -/

/-- The proxy being watched is the first enabled proxy, or there is none of either, and the allowlist
is that of the enabled proxies and VPNs, cut to size. -/
def Follows (e : PmxEngine φ β) : Prop :=
  pmxProfileFindProxy e.profile e.healthProxyId = firstEnabled e.profile ∧
  allowedNames e.lockdown.allow
    = ((wantedEndpoints e.profile).take pmxMaxAllowlist).map fun ep => (ep.1.str, ep.2)

/-- A pump at which the watcher should refresh: the engine runs, the mode is not off, the interval
has passed and no probe is pending. -/
def FollowDue (e : PmxEngine φ β) (env : PumpEnv) : Prop :=
  e.running = true ∧ e.profile.lockdown.mode ≠ .off ∧ TickDue e env

instance (e : PmxEngine φ β) : Decidable (Follows e) := inferInstanceAs (Decidable (_ ∧ _))

instance (e : PmxEngine φ β) (env : PumpEnv) : Decidable (FollowDue e env) :=
  inferInstanceAs (Decidable (_ ∧ _))

/-- The watcher is alive and the first enabled proxy goes by its id, or the watcher is dead and there
is nothing to refresh. -/
def Refreshable (e : PmxEngine φ β) : Prop :=
  (e.healthProxyId ≠ pmxIdNone ∧
    ∀ p, firstEnabled e.profile = some p → pmxProfileFindProxy e.profile p.id = some p) ∨
  (e.healthProxyId = pmxIdNone ∧ firstEnabled e.profile = none ∧
    allowedNames e.lockdown.allow
      = ((wantedEndpoints e.profile).take pmxMaxAllowlist).map fun ep => (ep.1.str, ep.2))

theorem pmxProfileFindProxy_none (pf : PmxProfile) : pmxProfileFindProxy pf pmxIdNone = none :=
  if_pos rfl

/-- A pump that is due and watches leaves the new choice and the new allowlist behind. -/
theorem pmxEnginePump_of_due {e : PmxEngine φ β} (env : PumpEnv) (hsync : Synced e)
    (hrun : e.running = true) (hw : Watching e) (hdue : TickDue e env) :
    (pmxEnginePump F B e env).profile = e.profile ∧
    (pmxEnginePump F B e env).healthProxyId = watchedId e.profile ∧
    (pmxEnginePump F B e env).lockdown.allow
      = writeEndpoints env.stack (allowEndpoints e.profile) := by
  obtain ⟨e₁, hsame, heq⟩ := pmxEnginePump_of_watching (F := F) (B := B) env hrun hw
  have hdue₁ : TickDue e₁ env := by
    rw [TickDue, hsame.profile, hsame.lastHealthSubmitMs, hsame.healthCheck]
    exact hdue
  have hallow := (rebuildAllowlist_allow (F := F) e₁ env.stack (hsame.synced hsync).allow).1
  rw [hsame.profile] at hallow
  have htick : (healthTick F e₁ env).profile = e.profile ∧
      (healthTick F e₁ env).healthProxyId = watchedId e.profile ∧
      (healthTick F e₁ env).lockdown.allow
        = writeEndpoints env.stack (allowEndpoints e.profile) := by
    rcases healthTick_of_due (F := F) hdue₁ with ⟨-, hc, h⟩ | ⟨-, h⟩
    · rw [h]
      refine ⟨?_, ?_, hallow⟩
      · rw [← hsame.profile]; exact rebuildAllowlist_profile (F := F) e₁ env.stack
      · rw [← hsame.profile]; exact rebuildAllowlist_healthProxyId (F := F) e₁ env.stack
    · rw [h]
      refine ⟨?_, ?_, ?_⟩
      · rw [← hsame.profile]; exact rebuildAllowlist_profile (F := F) e₁ env.stack
      · rw [← hsame.profile]; exact rebuildAllowlist_healthProxyId (F := F) e₁ env.stack
      · rw [← hallow]; exact pmxLockdownOnHealth_allow _ false
  rw [heq, pollHealth_eq]
  refine ⟨htick.1, htick.2.1, ?_⟩
  rw [← htick.2.2]
  exact foldl_onHealth_allow _ _

/-- **One pump.**  A pump that is due leaves the watcher in step with the profile exactly when it finds
the watcher refreshable. -/
theorem pump_follows_iff {e : PmxEngine φ β} (env : PumpEnv) (hsync : Synced e)
    (hdue : FollowDue e env) : Follows (pmxEnginePump F B e env) ↔ Refreshable e := by
  obtain ⟨hrun, hmode, htick⟩ := hdue
  by_cases hid : e.healthProxyId = pmxIdNone
  · have hsame := pmxEnginePump_of_not_watching (F := F) (B := B) env
      (e := e) (fun _ hw => hw.2 hid)
    rw [Follows, hsame.profile, hsame.lockdown, hsame.healthProxyId]
    show (pmxProfileFindProxy e.profile e.healthProxyId = firstEnabled e.profile ∧ _) ↔ _
    rw [hid, pmxProfileFindProxy_none, Refreshable, hid]
    simp [eq_comm, runWorker]
  · obtain ⟨hpf, hwatch, hallow⟩ :=
      pmxEnginePump_of_due (F := F) (B := B) env hsync hrun ⟨hmode, hid⟩ htick
    rw [Follows, hpf, hwatch, hallow, writeEndpoints_names, allowEndpoints_eq]
    have hrefresh : Refreshable e ↔
        ∀ p, firstEnabled e.profile = some p → pmxProfileFindProxy e.profile p.id = some p := by
      rw [Refreshable]
      simp [hid]
    rw [hrefresh, watchedId, and_iff_left rfl]
    cases hfirst : firstEnabled e.profile with
    | none =>
      exact iff_of_true (pmxProfileFindProxy_none e.profile) (fun p hp => by cases hp)
    | some p =>
      constructor
      · intro h p' hp'
        obtain rfl := Option.some.inj hp'
        exact h
      · intro h
        exact h p rfl

/-- **The watcher follows the profile, over runs.**  Every pump of a run that is due leaves the watcher
in step with the profile exactly when every such pump finds it refreshable. -/
theorem watcher_follows_iff (F : PmxFirewall φ) (B : PmxBackend β ω) (pf : PmxProfile)
    (fw : Option φ) (backend : β) (allocOk : Fin 4 → Bool) (ops : List (EngineOp β ω)) :
    Runs.EachStep (engineStep F B)
        (fun e op => ∀ env, op = .pump env → FollowDue e env → Follows (engineStep F B e op))
        (pmxEngineCreate B pf fw backend allocOk) ops ↔
      Runs.EachStep (engineStep F B)
        (fun e op => ∀ env, op = .pump env → FollowDue e env → Refreshable e)
        (pmxEngineCreate B pf fw backend allocOk) ops := by
  refine Runs.eachStep_congr Synced (fun e op h => h.step (F := F) (B := B) e op) ?_ ops _
    (Synced.create pf fw backend allocOk)
  intro e op hsync
  constructor
  · intro h env hop hdue
    have hf := h env hop hdue
    rw [hop] at hf
    exact (pump_follows_iff env hsync hdue).1 hf
  · intro h env hop hdue
    rw [hop]
    exact (pump_follows_iff env hsync hdue).2 (h env hop hdue)

/-- A pump at which memory is there and the worker does nothing. -/
def quietPump (now : ℕ) : PumpEnv where
  now := now
  snapAllocOk := fun _ => true
  submitAllocOk := true
  stack := fun _ => []
  worker := []

/-- `oneProxyProfile` with its proxy disabled. -/
def noProxyProfile : PmxProfile :=
  { oneProxyProfile with proxies := [{ pmxProxyInit with id := 1, enabled := false }] }

/-- The only proxy is disabled over one health tick and then enabled again: no later pump watches it. -/
theorem not_follows_after_empty_profile :
    let e := Runs.runFrom (engineStep pmxFirewallStub pmxBackendStub)
      (pmxEngineCreate pmxBackendStub oneProxyProfile (some stubFwCreate) stubImplCreate fun _ => true)
      [.start true (fun _ => []), .edit noProxyProfile, .pump (quietPump 5000), .edit oneProxyProfile]
    FollowDue e (quietPump 10000) ∧
      ¬Follows (engineStep pmxFirewallStub pmxBackendStub e (.pump (quietPump 10000))) := by
  decide +kernel

end ProxiMight
