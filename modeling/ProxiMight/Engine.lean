import ProxiMight.Backend
import ProxiMight.Checker

/-!
# The engine (`pmx_engine.c`)

The engine ties a profile to a backend, the two checkers and the kill switch.  It is generic in the
firewall and in the backend.  Everything that touches the profile runs on the thread that pumps; the
backend's thread reports flows, and the health checker's worker runs on its own, also in the middle of a
pump.  A call that may run out of memory takes as an argument whether it does; the clock is the
monotonic clock of `pmx_now_ms`, so the differences the code takes do not wrap.

The VPN runner, the mutexes and the logs are left out: nothing here reads them.
-/

namespace ProxiMight

open CString

/-- `PMX_EVENT_RING`. -/
def pmxEventRing : ℕ := 512

/-- `PMX_INBOX_MAX`. -/
def pmxInboxMax : ℕ := 4096

/-- `pmx_conn_event`. -/
structure PmxConnEvent where
  flowId : ℕ
  tsMs : ℕ
  appName : CBuf pmxMaxName
  host : CBuf pmxMaxHost
  port : PmxPort
  verdict : PmxVerdict
  viaLabel : CBuf pmxMaxLabel
  ruleName : CBuf pmxMaxName
  deriving DecidableEq

/-- The ring of events: the slots written so far, by index, and where the oldest event stands. -/
structure EventRing where
  slots : List PmxConnEvent
  head : ℕ
  len : ℕ
  deriving DecidableEq

/-- `pmx_engine_status`; `flows_dropped` is read off the inbox. -/
structure PmxEngineStatus where
  running : Bool
  backendActive : Bool
  backendReal : Bool
  backendHostNames : Bool
  backendCanBlock : Bool
  backendName : CBuf pmxMaxLabel
  lockdownState : PmxLockdownState
  flowsTotal : ℕ
  flowsProxied : ℕ
  flowsDirect : ℕ
  flowsBlocked : ℕ
  deriving DecidableEq

/-- The capacities of the four arrays of a profile. -/
structure ProfileCaps where
  proxies : ℕ
  rules : ℕ
  chains : ℕ
  vpns : ℕ
  deriving DecidableEq

/-- `struct pmx_engine`. -/
structure PmxEngine (φ β : Type) where
  profile : PmxProfile
  backend : β
  checker : PmxChecker
  healthCheck : PmxChecker
  lockdown : PmxLockdown φ
  running : Bool
  snap : PmxProfile
  snapCaps : ProfileCaps
  inbox : List PmxFlow
  inboxDropped : ℕ
  events : EventRing
  status : PmxEngineStatus
  lastHealthSubmitMs : ℕ
  healthProxyId : PmxId
  allowApplied : List PmxFwEndpoint
  profileLocked : Bool

/-! ### Publishing the profile -/

/-- The capacity a `PMX_RESERVE_ARRAY` grows to, by doubling. -/
def growCap (cap count : ℕ) : ℕ :=
  if cap < count ∧ 0 < cap then growCap (2 * cap) count else cap
termination_by count - cap

/-- `PMX_RESERVE_ARRAY`: the capacity afterwards, or no memory. -/
def reserveArray (cap count : ℕ) (allocOk : Bool) : Option ℕ :=
  if count > cap then
    if allocOk then some (growCap (if cap = 0 then 8 else cap) count) else none
  else some cap

/-- `pmx_profile_copy`: reserve all four arrays, then copy them all.  `allocOk i` is whether the `i`-th
reservation gets its memory. -/
def pmxProfileCopy (dst : PmxProfile) (caps : ProfileCaps) (src : PmxProfile) (allocOk : Fin 4 → Bool) :
    PmxProfile × ProfileCaps × PmxStatus :=
  match reserveArray caps.proxies src.proxies.length (allocOk 0) with
  | none => (dst, caps, .errNoMemory)
  | some cp =>
    let caps := { caps with proxies := cp }
    match reserveArray caps.rules src.rules.length (allocOk 1) with
    | none => (dst, caps, .errNoMemory)
    | some cr =>
      let caps := { caps with rules := cr }
      match reserveArray caps.chains src.chains.length (allocOk 2) with
      | none => (dst, caps, .errNoMemory)
      | some cc =>
        let caps := { caps with chains := cc }
        match reserveArray caps.vpns src.vpns.length (allocOk 3) with
        | none => (dst, caps, .errNoMemory)
        | some cv => (src, { caps with vpns := cv }, .ok)

section Engine

variable {φ β ω : Type} (F : PmxFirewall φ) (B : PmxBackend β ω)

/-- `engine_refresh_snapshot`: a copy that fails leaves the previous snapshot. -/
def engineRefreshSnapshot (e : PmxEngine φ β) (allocOk : Fin 4 → Bool) : PmxEngine φ β :=
  let r := pmxProfileCopy e.snap e.snapCaps e.profile allocOk
  { e with snap := r.1, snapCaps := r.2.1 }

/-- `pmx_engine_decide`: the verdict backends enforce, from the snapshot. -/
def pmxEngineDecide (e : PmxEngine φ β) (f : PmxFlow) : PmxDecision :=
  pmxResolveWithProfile e.snap f.query

/-- `pmx_engine_resolve`. -/
def pmxEngineResolve (e : PmxEngine φ β) (q : PmxConnQuery) : PmxDecision :=
  pmxResolveWithProfile e.profile q

/-- The background health watcher gets the user's options without the optional extras. -/
def applyCheckOpts (e : PmxEngine φ β) : PmxEngine φ β :=
  { e with
      checker := pmxCheckerSetOpts e.checker e.profile.settings.check
      healthCheck :=
        pmxCheckerSetOpts e.healthCheck
          { e.profile.settings.check with measureEgressIp := false, measurePing := false } }

/-! ### Flows -/

/-- `engine_on_flow`, called from the backend's thread. -/
def engineOnFlow (e : PmxEngine φ β) (f : PmxFlow) (allocOk : Bool) : PmxEngine φ β :=
  if e.inbox.length ≥ pmxInboxMax then { e with inboxDropped := e.inboxDropped + 1 }
  else if allocOk then { e with inbox := e.inbox ++ [f] }
  else e

/-- The event `record_event` writes. -/
def connEvent (f : PmxFlow) (d : PmxDecision) : PmxConnEvent where
  flowId := f.flowId
  tsMs := f.createdMs
  appName := strlcpy pmxMaxName f.appName.str
  host := strlcpy pmxMaxHost f.dstHost.str
  port := f.dstPort
  verdict := d.verdict
  viaLabel := strlcpy pmxMaxLabel d.viaLabel.str
  ruleName := strlcpy pmxMaxName d.ruleName.str

/-- `record_event`: append, or overwrite the oldest event of a full ring. -/
def recordEvent (ring : EventRing) (ev : PmxConnEvent) : EventRing :=
  if ring.len < pmxEventRing then
    let idx := (ring.head + ring.len) % pmxEventRing
    { ring with
        slots := if idx < ring.slots.length then ring.slots.set idx ev else ring.slots ++ [ev]
        len := ring.len + 1 }
  else
    { ring with slots := ring.slots.set ring.head ev, head := (ring.head + 1) % pmxEventRing }

/-- The counters of one resolved flow. -/
def countFlow (st : PmxEngineStatus) (v : PmxVerdict) : PmxEngineStatus :=
  let st := { st with flowsTotal := st.flowsTotal + 1 }
  match v with
  | .proxy => { st with flowsProxied := st.flowsProxied + 1 }
  | .direct => { st with flowsDirect := st.flowsDirect + 1 }
  | .block => { st with flowsBlocked := st.flowsBlocked + 1 }

/-- One round of the drain loop of the pump. -/
def pumpFlow (e : PmxEngine φ β) (f : PmxFlow) : PmxEngine φ β :=
  let d := pmxEngineResolve e f.query
  { e with
      events := recordEvent e.events (connEvent f d)
      status := countFlow e.status d.verdict
      backend :=
        match B.applyDecision with
        | some apply => (apply e.backend f d).1
        | none => e.backend }

/-- The drain loop of the pump. -/
def drainInbox (e : PmxEngine φ β) : PmxEngine φ β :=
  { e.inbox.foldl (pumpFlow B) e with inbox := [] }

/-! ### The allowlist and the health watcher -/

/-- An endpoint is added while there is room. -/
def pushEndpoint (eps : List (CBuf pmxMaxHost × PmxPort)) (ep : CBuf pmxMaxHost × PmxPort) :
    List (CBuf pmxMaxHost × PmxPort) :=
  if eps.length < pmxMaxAllowlist then eps ++ [ep] else eps

/-- The two loops of `rebuild_allowlist`: the enabled proxies, then the endpoints of the enabled VPNs. -/
def allowEndpoints (pf : PmxProfile) : List (CBuf pmxMaxHost × PmxPort) :=
  let eps := pf.proxies.foldl
    (fun eps p => if p.enabled then pushEndpoint eps (p.host, p.port) else eps) []
  pf.vpns.foldl
    (fun eps v =>
      if v.enabled then v.endpoints.foldl (fun eps ep => pushEndpoint eps (ep.host, ep.port)) eps
      else eps) eps

/-- The array `eps` of `rebuild_allowlist`; `stack i` are the bytes slot `i` held before. -/
def writeEndpoints (stack : ℕ → List UInt8) (eps : List (CBuf pmxMaxHost × PmxPort)) :
    List PmxFwEndpoint :=
  eps.mapIdx fun i ep => ⟨writeStr (stack i) ep.1.str, ep.2⟩

/-- The first enabled proxy. -/
def firstEnabled (pf : PmxProfile) : Option PmxProxy := pf.proxies.find? (·.enabled)

/-- The id of the first enabled proxy, `PMX_ID_NONE` if there is none. -/
def watchedId (pf : PmxProfile) : PmxId :=
  match firstEnabled pf with
  | some p => p.id
  | none => pmxIdNone

/-- The allowlist is pushed down only if it changed, byte for byte. -/
def pushAllowlist (e : PmxEngine φ β) (eps : List PmxFwEndpoint) : PmxEngine φ β :=
  if eps.length ≠ e.allowApplied.length ∨ (eps.length > 0 ∧ eps ≠ e.allowApplied) then
    { e with lockdown := pmxLockdownSetAllowlist F e.lockdown eps, allowApplied := eps }
  else e

/-- `rebuild_allowlist`: push the allowlist, and choose the proxy the health watcher will probe. -/
def rebuildAllowlist (e : PmxEngine φ β) (stack : ℕ → List UInt8) : PmxEngine φ β :=
  { pushAllowlist F e (writeEndpoints stack (allowEndpoints e.profile)) with
      healthProxyId := watchedId e.profile }

/-- What a pump meets: the time, the memory it gets, what its stack holds, and how far the health
checker's worker gets before the results are polled. -/
structure PumpEnv where
  now : ℕ
  snapAllocOk : Fin 4 → Bool
  submitAllocOk : Bool
  stack : ℕ → List UInt8
  worker : List WorkerOp

/-- The interval of the health watcher, in milliseconds. -/
def healthInterval (pf : PmxProfile) : ℕ :=
  if pf.lockdown.healthIntervalMs > 0 then pf.lockdown.healthIntervalMs.toNat else 4000

/-- `pmx_lockdown_on_health` on the engine's controller. -/
def engineOnHealth (e : PmxEngine φ β) (healthy : Bool) : PmxEngine φ β :=
  { e with lockdown := (pmxLockdownOnHealth F e.lockdown healthy).1 }

/-- At least the health interval has passed since the last tick and no probe is pending. -/
def TickDue (e : PmxEngine φ β) (env : PumpEnv) : Prop :=
  env.now - e.lastHealthSubmitMs ≥ healthInterval e.profile ∧ pmxCheckerPending e.healthCheck = 0

instance (e : PmxEngine φ β) (env : PumpEnv) : Decidable (TickDue e env) :=
  inferInstanceAs (Decidable (_ ∧ _))

/-- Probe the watched proxy, or report that nothing is left to watch. -/
def probeWatched (e : PmxEngine φ β) (env : PumpEnv) : PmxEngine φ β :=
  match pmxProfileFindProxy e.profile e.healthProxyId with
  | some p => { e with healthCheck := (pmxCheckerSubmit e.healthCheck p env.submitAllocOk).1 }
  | none => engineOnHealth F e false

/-- The health tick of the pump: pick up profile edits, then probe. -/
def healthTick (e : PmxEngine φ β) (env : PumpEnv) : PmxEngine φ β :=
  if TickDue e env then
    probeWatched F { rebuildAllowlist F e env.stack with lastHealthSubmitMs := env.now } env
  else e

/-- The health checker's worker gets this far. -/
def runWorker (e : PmxEngine φ β) (ops : List WorkerOp) : PmxEngine φ β :=
  { e with healthCheck := ops.foldl workerStep e.healthCheck }

/-- The poll loop of the pump. -/
def pollHealth (e : PmxEngine φ β) : PmxEngine φ β :=
  { (e.healthCheck.results.map fun r => decide (r.status = .ok)).foldl (engineOnHealth F) e with
      healthCheck := { e.healthCheck with results := [] } }

/-- The guard of the pump's health block. -/
def Watching (e : PmxEngine φ β) : Prop :=
  e.profile.lockdown.mode ≠ .off ∧ e.healthProxyId ≠ pmxIdNone

instance (e : PmxEngine φ β) : Decidable (Watching e) := inferInstanceAs (Decidable (_ ∧ _))

/-- The health watcher's part of the pump. -/
def watchHealth (e : PmxEngine φ β) (env : PumpEnv) : PmxEngine φ β :=
  if Watching e then pollHealth F (runWorker (healthTick F e env) env.worker)
  else runWorker e env.worker

/-- What a pump does before it looks at the health watcher: publish the profile, resolve the flows. -/
def pumpPrelude (e : PmxEngine φ β) (env : PumpEnv) : PmxEngine φ β :=
  drainInbox B (engineRefreshSnapshot e env.snapAllocOk)

/-- The last line of the pump. -/
def publishState (e : PmxEngine φ β) : PmxEngine φ β :=
  { e with status := { e.status with lockdownState := pmxLockdownGetState e.lockdown } }

def pmxEnginePump (e : PmxEngine φ β) (env : PumpEnv) : PmxEngine φ β :=
  if (pumpPrelude B e env).running then publishState (watchHealth F (pumpPrelude B e env) env)
  else runWorker (pumpPrelude B e env) env.worker

/-! ### Lifecycle -/

/-- The configuration a start hands to the backend. -/
def engineBackendConfig (pf : PmxProfile) : PmxBackendConfig :=
  { pmxBackendConfigDefaults with
      demoTraffic := pf.settings.demoTraffic
      demoIntervalMs := if pf.settings.demoIntervalMs > 0 then pf.settings.demoIntervalMs else 1500
      -- anything but an explicit fail-open means block rather than leak direct
      blockWhenCannotProxy := decide (pf.lockdown.mode ≠ .failOpen) }

/-- The part of `pmx_engine_start` up to and including the backend's start. -/
def engineStartBackend (e : PmxEngine φ β) (os : ω) : PmxEngine φ β × PmxStatus :=
  let e := applyCheckOpts e
  let r := B.start os e.backend (engineBackendConfig e.profile)
  ({ e with backend := r.1 }, r.2)

/-- The part of `pmx_engine_start` after the backend has started. -/
def engineArm (e : PmxEngine φ β) (stack : ℕ → List UInt8) : PmxEngine φ β :=
  let e := rebuildAllowlist F e stack
  let ld := pmxLockdownSetPolicy F e.lockdown e.profile.lockdown
  { e with
      lockdown := (pmxLockdownArm F ld).1
      running := true
      status :=
        { e.status with
            running := true
            backendActive := true
            backendReal := B.caps.real
            backendCanBlock := B.caps.canBlock
            backendHostNames := B.caps.hostNames
            backendName := strlcpy pmxMaxLabel B.name }
      lastHealthSubmitMs := 0 }

def pmxEngineStart (e : PmxEngine φ β) (os : ω) (stack : ℕ → List UInt8) :
    PmxEngine φ β × PmxStatus :=
  if e.running then (e, .ok)
  else
    let r := engineStartBackend B e os
    if r.2 ≠ .ok then r else (engineArm F B r.1 stack, .ok)

def pmxEngineStop (e : PmxEngine φ β) : PmxEngine φ β × PmxStatus :=
  if !e.running then (e, .ok)
  else
    ({ e with
        backend := (B.stop e.backend).1
        lockdown := pmxLockdownDisarm F e.lockdown
        running := false
        status :=
          { e.status with running := false, backendActive := false, lockdownState := .inactive } },
      .ok)

/-- `loaded` is what `pmx_profile_load` returns for the file. -/
def pmxEngineLoadProfile (e : PmxEngine φ β) (loaded : Except PmxStatus PmxProfile)
    (allocOk : Fin 4 → Bool) : PmxEngine φ β × PmxStatus :=
  if e.running then (e, .errState)
  else
    match loaded with
    -- no file is a clean first run; any other failure locks saving
    | .error st => ({ e with profileLocked := decide (st ≠ .errIo) }, st)
    | .ok pf =>
      let e := { e with profile := pf, profileLocked := false }
      let e := { e with lockdown := pmxLockdownSetPolicy F e.lockdown e.profile.lockdown }
      (engineRefreshSnapshot (applyCheckOpts e) allocOk, .ok)

/-- `pmx_engine_create`, over the given profile, firewall object and backend object. -/
def pmxEngineCreate (pf : PmxProfile) (fw : Option φ) (backend : β) (allocOk : Fin 4 → Bool) :
    PmxEngine φ β :=
  engineRefreshSnapshot
    { profile := pf
      backend := backend
      checker := pmxCheckerCreate (some pf.settings.check)
      healthCheck := pmxCheckerCreate (some pf.settings.check)
      lockdown := pmxLockdownCreate (some pf.lockdown) fw
      running := false
      snap := pmxProfileInit
      snapCaps := ⟨0, 0, 0, 0⟩
      inbox := []
      inboxDropped := 0
      events := ⟨[], 0, 0⟩
      status :=
        { running := false
          backendActive := false
          backendReal := B.caps.real
          backendHostNames := B.caps.hostNames
          backendCanBlock := B.caps.canBlock
          backendName := strlcpy pmxMaxLabel B.name
          lockdownState := .inactive
          flowsTotal := 0
          flowsProxied := 0
          flowsDirect := 0
          flowsBlocked := 0 }
      lastHealthSubmitMs := 0
      healthProxyId := pmxIdNone
      allowApplied := []
      profileLocked := false } allocOk

/-- A step of the engine's world: a call of the user's thread, a report or any other activity of the
backend's thread, or a step of the health checker's worker. -/
inductive EngineOp (β ω : Type)
  | edit (pf : PmxProfile)
  | setPolicy (policy : PmxLockdownPolicy)
  | load (loaded : Except PmxStatus PmxProfile) (allocOk : Fin 4 → Bool)
  | start (os : ω) (stack : ℕ → List UInt8)
  | stop
  | pump (env : PumpEnv)
  | flow (f : PmxFlow) (allocOk : Bool)
  | backend (b : β)
  | worker (op : WorkerOp)

def engineStep (e : PmxEngine φ β) : EngineOp β ω → PmxEngine φ β
  | .edit pf => { e with profile := pf }
  | .setPolicy policy => { e with lockdown := pmxLockdownSetPolicy F e.lockdown policy }
  | .load loaded allocOk => (pmxEngineLoadProfile F e loaded allocOk).1
  | .start os stack => (pmxEngineStart F B e os stack).1
  | .stop => (pmxEngineStop F B e).1
  | .pump env => pmxEnginePump F B e env
  | .flow f allocOk => engineOnFlow e f allocOk
  | .backend b => { e with backend := b }
  | .worker op => { e with healthCheck := workerStep e.healthCheck op }

end Engine

/-! ### What the pump leaves alone -/

section Frame

variable {φ β ω : Type} {F : PmxFirewall φ} {B : PmxBackend β ω}

/-- Draining the inbox touches the events, the counters and the backend, and nothing else. -/
theorem drainInbox_frame (e : PmxEngine φ β) : ∃ events status backend,
    drainInbox B e
      = { e with events := events, status := status, backend := backend, inbox := [] } := by
  have hfold : ∀ (fs : List PmxFlow) (e : PmxEngine φ β), ∃ events status backend,
      fs.foldl (pumpFlow B) e
        = { e with events := events, status := status, backend := backend } := by
    intro fs
    induction fs with
    | nil => intro e; exact ⟨e.events, e.status, e.backend, rfl⟩
    | cons f fs ih =>
      intro e
      obtain ⟨events, status, backend, h⟩ := ih (pumpFlow B e f)
      exact ⟨events, status, backend, by rw [List.foldl_cons, h]; rfl⟩
  obtain ⟨events, status, backend, h⟩ := hfold e.inbox e
  exact ⟨events, status, backend, by rw [drainInbox, h]⟩

/-- The two engines agree on everything the health watcher reads. -/
structure SameWatch (e e' : PmxEngine φ β) : Prop where
  profile : e'.profile = e.profile
  healthCheck : e'.healthCheck = e.healthCheck
  lockdown : e'.lockdown = e.lockdown
  running : e'.running = e.running
  lastHealthSubmitMs : e'.lastHealthSubmitMs = e.lastHealthSubmitMs
  healthProxyId : e'.healthProxyId = e.healthProxyId
  allowApplied : e'.allowApplied = e.allowApplied

theorem pumpPrelude_sameWatch (e : PmxEngine φ β) (env : PumpEnv) :
    SameWatch e (pumpPrelude B e env) := by
  obtain ⟨events, status, backend, h⟩ :=
    drainInbox_frame (B := B) (engineRefreshSnapshot e env.snapAllocOk)
  rw [pumpPrelude, h]
  exact ⟨rfl, rfl, rfl, rfl, rfl, rfl, rfl⟩

theorem foldl_engineOnHealth (e : PmxEngine φ β) (hs : List Bool) :
    hs.foldl (engineOnHealth F) e
      = { e with lockdown := hs.foldl (fun ld h => (pmxLockdownOnHealth F ld h).1) e.lockdown } := by
  induction hs generalizing e with
  | nil => rfl
  | cons h hs ih => rw [List.foldl_cons, ih]; rfl

/-- What the health watcher touches: the controller, the health checker and its own fields. -/
def WatcherTouches (e e' : PmxEngine φ β) : Prop :=
  ∃ lockdown healthCheck lastHealthSubmitMs healthProxyId allowApplied, e' =
    { e with
        lockdown := lockdown
        healthCheck := healthCheck
        lastHealthSubmitMs := lastHealthSubmitMs
        healthProxyId := healthProxyId
        allowApplied := allowApplied }

theorem healthTick_frame (e : PmxEngine φ β) (env : PumpEnv) :
    WatcherTouches e (healthTick F e env) := by
  have hpush : ∀ eps, ∃ lockdown allowApplied, pushAllowlist F e eps =
      { e with lockdown := lockdown, allowApplied := allowApplied } := by
    intro eps
    rw [pushAllowlist]
    split_ifs
    · exact ⟨_, _, rfl⟩
    · exact ⟨_, _, rfl⟩
  rw [healthTick]
  split_ifs
  · obtain ⟨_, _, heq⟩ := hpush (writeEndpoints env.stack (allowEndpoints e.profile))
    rw [rebuildAllowlist, heq, probeWatched]
    split
    · exact ⟨_, _, _, _, _, rfl⟩
    · exact ⟨_, _, _, _, _, rfl⟩
  · exact ⟨_, _, _, _, _, rfl⟩

theorem watchHealth_frame (e : PmxEngine φ β) (env : PumpEnv) :
    WatcherTouches e (watchHealth F e env) := by
  obtain ⟨_, _, _, _, _, heq⟩ := healthTick_frame (F := F) e env
  rw [watchHealth]
  split_ifs
  · rw [pollHealth, foldl_engineOnHealth, runWorker, heq]
    exact ⟨_, _, _, _, _, rfl⟩
  · exact ⟨_, _, _, _, _, rfl⟩

/-- The backend's `apply_decision` leaves the object alone. -/
def PmxBackend.Inert (B : PmxBackend β ω) : Prop :=
  ∀ apply, B.applyDecision = some apply → ∀ b f d, (apply b f d).1 = b

theorem pumpPrelude_backend (hB : B.Inert) (e : PmxEngine φ β) (env : PumpEnv) :
    (pumpPrelude B e env).backend = e.backend := by
  have hfold : ∀ (fs : List PmxFlow) (e : PmxEngine φ β),
      (fs.foldl (pumpFlow B) e).backend = e.backend := by
    intro fs
    induction fs with
    | nil => intro e; rfl
    | cons f fs ih =>
      intro e
      rw [List.foldl_cons, ih, pumpFlow]
      dsimp only
      split
      · next apply happly => exact hB apply happly _ _ _
      · rfl
  exact hfold _ _

/-- A pump touches neither the running flag nor, if its `apply_decision` is inert, the backend. -/
theorem pmxEnginePump_backend (hB : B.Inert) (e : PmxEngine φ β) (env : PumpEnv) :
    (pmxEnginePump F B e env).backend = e.backend ∧
      (pmxEnginePump F B e env).running = e.running := by
  have hback := pumpPrelude_backend hB e env
  have hrun := (pumpPrelude_sameWatch (B := B) e env).running
  rw [pmxEnginePump]
  split_ifs
  · obtain ⟨_, _, _, _, _, heq⟩ := watchHealth_frame (F := F) (pumpPrelude B e env) env
    rw [heq]
    exact ⟨hback, hrun⟩
  · exact ⟨hback, hrun⟩

theorem foldl_onHealth_allow (hs : List Bool) (ld : PmxLockdown φ) :
    (hs.foldl (fun ld h => (pmxLockdownOnHealth F ld h).1) ld).allow = ld.allow := by
  induction hs generalizing ld with
  | nil => rfl
  | cons h hs ih => rw [List.foldl_cons, ih, pmxLockdownOnHealth_allow]

theorem foldl_onHealth_armed (hs : List Bool) (ld : PmxLockdown φ) :
    (hs.foldl (fun ld h => (pmxLockdownOnHealth F ld h).1) ld).armed = ld.armed := by
  induction hs generalizing ld with
  | nil => rfl
  | cons h hs ih => rw [List.foldl_cons, ih, pmxLockdownOnHealth_armed]

end Frame

/-! ### The allowlist -/

/-- Every endpoint that should stay reachable: those of the enabled proxies, then those of the enabled
VPNs. -/
def wantedEndpoints (pf : PmxProfile) : List (CBuf pmxMaxHost × PmxPort) :=
  (pf.proxies.filter (·.enabled)).map (fun p => (p.host, p.port)) ++
    (pf.vpns.filter (·.enabled)).flatMap fun v => v.endpoints.map fun ep => (ep.host, ep.port)

/-- Pushing one more onto what fitted so far is what fits with it. -/
theorem pushEndpoint_take (all : List (CBuf pmxMaxHost × PmxPort)) (ep : CBuf pmxMaxHost × PmxPort) :
    pushEndpoint (all.take pmxMaxAllowlist) ep = (all ++ [ep]).take pmxMaxAllowlist := by
  rw [pushEndpoint, List.length_take]
  by_cases h : all.length < pmxMaxAllowlist
  · rw [if_pos (by omega), List.take_of_length_le (by omega), List.take_of_length_le]
    rw [List.length_append, List.length_singleton]
    omega
  · rw [if_neg (by omega), List.take_append_of_le_length (by omega)]

theorem foldl_pushEndpoint {α : Type} (f : α → CBuf pmxMaxHost × PmxPort) (xs : List α) :
    ∀ all : List (CBuf pmxMaxHost × PmxPort),
      xs.foldl (fun eps x => pushEndpoint eps (f x)) (all.take pmxMaxAllowlist)
        = (all ++ xs.map f).take pmxMaxAllowlist := by
  induction xs with
  | nil => intro all; rw [List.map_nil, List.append_nil]; rfl
  | cons x xs ih =>
    intro all
    rw [List.foldl_cons, pushEndpoint_take, ih, List.map_cons, List.append_assoc]
    rfl

/-- **The loops collect the wanted endpoints, as many as fit.** -/
theorem allowEndpoints_eq (pf : PmxProfile) :
    allowEndpoints pf = (wantedEndpoints pf).take pmxMaxAllowlist := by
  have hproxies : ∀ (ps : List PmxProxy) (all : List (CBuf pmxMaxHost × PmxPort)),
      ps.foldl (fun eps p => if p.enabled then pushEndpoint eps (p.host, p.port) else eps)
          (all.take pmxMaxAllowlist)
        = (all ++ (ps.filter (·.enabled)).map (fun p => (p.host, p.port))).take pmxMaxAllowlist := by
    intro ps
    induction ps with
    | nil => intro all; simp
    | cons p ps ih =>
      intro all
      rw [List.foldl_cons, List.filter_cons]
      split_ifs with hen
      · rw [pushEndpoint_take, ih, List.map_cons, List.append_assoc]
        rfl
      · exact ih all
  have hvpns : ∀ (vs : List PmxVpn) (all : List (CBuf pmxMaxHost × PmxPort)),
      vs.foldl (fun eps v => if v.enabled then
          v.endpoints.foldl (fun eps ep => pushEndpoint eps (ep.host, ep.port)) eps else eps)
          (all.take pmxMaxAllowlist)
        = (all ++ (vs.filter (·.enabled)).flatMap
            fun v => v.endpoints.map fun ep => (ep.host, ep.port)).take pmxMaxAllowlist := by
    intro vs
    induction vs with
    | nil => intro all; simp
    | cons v vs ih =>
      intro all
      rw [List.foldl_cons, List.filter_cons]
      split_ifs with hen
      · rw [foldl_pushEndpoint (fun ep : PmxVpnEndpoint => (ep.host, ep.port)), ih,
          List.flatMap_cons, List.append_assoc]
      · exact ih all
  have h := hvpns pf.vpns ((pf.proxies.filter (·.enabled)).map fun p => (p.host, p.port))
  rw [← List.nil_append (List.map _ _), ← hproxies pf.proxies []] at h
  exact h

theorem writeEndpoints_length_le (stack : ℕ → List UInt8) (pf : PmxProfile) :
    (writeEndpoints stack (allowEndpoints pf)).length ≤ pmxMaxAllowlist := by
  rw [writeEndpoints, List.length_mapIdx, allowEndpoints_eq]
  exact List.length_take_le _ _

section Rebuild

variable {φ β : Type} {F : PmxFirewall φ} (e : PmxEngine φ β) (stack : ℕ → List UInt8)

/-- The engine after the push of `rebuild_allowlist`, before a proxy is chosen. -/
theorem rebuildAllowlist_cases :
    (rebuildAllowlist F e stack =
      { e with
          lockdown := pmxLockdownSetAllowlist F e.lockdown
            (writeEndpoints stack (allowEndpoints e.profile))
          allowApplied := writeEndpoints stack (allowEndpoints e.profile)
          healthProxyId := watchedId e.profile }) ∨
    (e.allowApplied = writeEndpoints stack (allowEndpoints e.profile) ∧
      rebuildAllowlist F e stack = { e with healthProxyId := watchedId e.profile }) := by
  rw [rebuildAllowlist, pushAllowlist]
  split_ifs with h
  · exact Or.inl rfl
  · rw [not_or, not_and_or, not_not, not_not] at h
    refine Or.inr ⟨?_, rfl⟩
    rcases h.2 with hempty | hsame
    · have hnil : writeEndpoints stack (allowEndpoints e.profile) = [] :=
        List.eq_nil_of_length_eq_zero (by omega)
      rw [hnil] at h ⊢
      exact List.eq_nil_of_length_eq_zero (by simpa using h.1.symm)
    · exact hsame.symm

@[simp] theorem rebuildAllowlist_profile : (rebuildAllowlist F e stack).profile = e.profile := by
  rcases rebuildAllowlist_cases (F := F) e stack with h | ⟨-, h⟩ <;> rw [h]

@[simp] theorem rebuildAllowlist_healthCheck :
    (rebuildAllowlist F e stack).healthCheck = e.healthCheck := by
  rcases rebuildAllowlist_cases (F := F) e stack with h | ⟨-, h⟩ <;> rw [h]

@[simp] theorem rebuildAllowlist_running : (rebuildAllowlist F e stack).running = e.running := by
  rcases rebuildAllowlist_cases (F := F) e stack with h | ⟨-, h⟩ <;> rw [h]

@[simp] theorem rebuildAllowlist_healthProxyId :
    (rebuildAllowlist F e stack).healthProxyId = watchedId e.profile := by
  rcases rebuildAllowlist_cases (F := F) e stack with h | ⟨-, h⟩ <;> rw [h]

@[simp] theorem rebuildAllowlist_state :
    (rebuildAllowlist F e stack).lockdown.state = e.lockdown.state := by
  rcases rebuildAllowlist_cases (F := F) e stack with h | ⟨-, h⟩
  · rw [h, pmxLockdownSetAllowlist_state]
  · rw [h]

@[simp] theorem rebuildAllowlist_fails :
    (rebuildAllowlist F e stack).lockdown.fails = e.lockdown.fails := by
  rcases rebuildAllowlist_cases (F := F) e stack with h | ⟨-, h⟩
  · rw [h, pmxLockdownSetAllowlist_fails]
  · rw [h]

@[simp] theorem rebuildAllowlist_policy :
    (rebuildAllowlist F e stack).lockdown.policy = e.lockdown.policy := by
  rcases rebuildAllowlist_cases (F := F) e stack with h | ⟨-, h⟩
  · rw [h, pmxLockdownSetAllowlist_policy]
  · rw [h]

@[simp] theorem rebuildAllowlist_armed :
    (rebuildAllowlist F e stack).lockdown.armed = e.lockdown.armed := by
  rcases rebuildAllowlist_cases (F := F) e stack with h | ⟨-, h⟩
  · rw [h, pmxLockdownSetAllowlist_armed]
  · rw [h]

/-- Where the controller had what was applied last, it has what is applied now. -/
theorem rebuildAllowlist_allow (hsync : e.lockdown.allow = e.allowApplied) :
    (rebuildAllowlist F e stack).lockdown.allow = writeEndpoints stack (allowEndpoints e.profile) ∧
    (rebuildAllowlist F e stack).allowApplied
      = writeEndpoints stack (allowEndpoints e.profile) := by
  rcases rebuildAllowlist_cases (F := F) e stack with h | ⟨hsame, h⟩
  · rw [h]
    refine ⟨?_, rfl⟩
    rw [pmxLockdownSetAllowlist_allow, List.take_of_length_le (writeEndpoints_length_le _ _)]
  · rw [h]
    exact ⟨by rw [← hsame, ← hsync], hsame⟩

end Rebuild

end ProxiMight
