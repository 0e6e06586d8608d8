import ProxiMight.HealthWatcher
import ProxiMight.LockdownSafety

/-!
# The life of an engine (`pmx_engine_set_backend`, `pmx_engine_destroy`)

An engine owns a backend, and may be given another while it is stopped.  `PmxBackend.logged` is a backend
that keeps the calls made on it, so the backend of an engine's life carries the calls it has had, and those
of the backends that were replaced stand beside it.

* **`engineLife_backends`** — the calls on every backend are legal: started and stopped in turn, destroyed
  once, stopped, and not called any more.
* **`engineLife_shown`** — what `pmx_engine_get_status` shows is so, and a stopped or destroyed engine leaves
  no firewall engaged.
-/

namespace ProxiMight

open CString PmxLockdown

/-! ### The calls on a backend -/

/-- A call on a backend; `ok` is whether its start succeeded. -/
inductive BackendCall
  | start (ok : Bool)
  | stop
  | apply
  | destroy
  deriving DecidableEq

inductive BackendPlace
  | idle
  | started
  | destroyed
  deriving DecidableEq

/-- Where a backend stands after a call that is legal.  The pump resolves what a backend has reported also
after it was stopped. -/
def BackendPlace.next : BackendPlace → BackendCall → Option BackendPlace
  | .idle, .start ok => some (if ok then .started else .idle)
  | .started, .stop => some .idle
  | .idle, .apply => some .idle
  | .started, .apply => some .started
  | .idle, .destroy => some .destroyed
  | _, _ => none

/-- Where a backend stands after its calls, if they were legal. -/
def placeAfter (calls : List BackendCall) : Option BackendPlace :=
  Runs.runPartial BackendPlace.next .idle calls

def placeOf (running : Bool) : BackendPlace := if running then .started else .idle

theorem placeAfter_concat (calls : List BackendCall) (call : BackendCall) :
    placeAfter (calls ++ [call]) = (placeAfter calls).bind fun place => place.next call := by
  rw [placeAfter, Runs.runPartial_append, ← placeAfter]
  cases placeAfter calls with
  | none => rfl
  | some place =>
    show (place.next call).bind some = place.next call
    cases place.next call <;> rfl

theorem placeAfter_next {calls : List BackendCall} {place : BackendPlace}
    (h : placeAfter calls = some place) (call : BackendCall) :
    placeAfter (calls ++ [call]) = place.next call := by
  rw [placeAfter_concat, h, Option.bind_some]

theorem placeOf_apply (running : Bool) : (placeOf running).next .apply = some (placeOf running) := by
  cases running <;> rfl

/-- What the place says about the calls so far. -/
theorem placeAfter_counts {calls : List BackendCall} : ∀ {place : BackendPlace},
    placeAfter calls = some place →
      calls.count (.start true) = calls.count .stop + (if place = .started then 1 else 0) ∧
      calls.count .destroy = (if place = .destroyed then 1 else 0) ∧
      (place = .destroyed → calls.getLast? = some .destroy) := by
  induction calls using List.reverseRecOn with
  | nil =>
    intro place h
    cases h
    exact ⟨rfl, rfl, nofun⟩
  | append_singleton calls call ih =>
    intro place h
    rw [placeAfter_concat] at h
    cases hbefore : placeAfter calls with
    | none =>
      rw [hbefore] at h
      cases h
    | some before =>
      rw [hbefore, Option.bind_some] at h
      obtain ⟨hstarts, hdestroyed, -⟩ := ih hbefore
      rw [List.count_append, List.count_append, List.count_append, hstarts, hdestroyed]
      cases before with
      | idle =>
        cases call with
        | start ok => cases ok <;> cases h <;> simp
        | stop => cases h
        | apply => cases h; simp
        | destroy => cases h; simp
      | started =>
        cases call with
        | start ok => cases h
        | stop => cases h; simp
        | apply => cases h; simp
        | destroy => cases h
      | destroyed => cases call <;> cases h

/-- A backend destroyed was stopped as often as it was started, and destroyed once, by the last call. -/
theorem placeAfter_destroyed {calls : List BackendCall} (h : placeAfter calls = some .destroyed) :
    calls.count (.start true) = calls.count .stop ∧ calls.count .destroy = 1 ∧
      calls.getLast? = some .destroy := by
  obtain ⟨hstarts, hdestroyed, hlast⟩ := placeAfter_counts h
  exact ⟨by simpa using hstarts, by simpa using hdestroyed, hlast rfl⟩

section Life

variable {φ β ω : Type} (F : PmxFirewall φ)

/-- The backend, which keeps the calls made on it. -/
def PmxBackend.logged (B : PmxBackend β ω) : PmxBackend (β × List BackendCall) ω where
  name := B.name
  caps := B.caps
  start os b cfg :=
    let r := B.start os b.1 cfg
    ((r.1, b.2 ++ [.start (decide (r.2 = .ok))]), r.2)
  stop b :=
    let r := B.stop b.1
    ((r.1, b.2 ++ [.stop]), r.2)
  applyDecision := B.applyDecision.map fun apply b f d =>
    let r := apply b.1 f d
    ((r.1, b.2 ++ [.apply]), r.2)

/-! ### The life -/

/-- An engine with its backend, and the calls on the backends it has destroyed. -/
structure EngineLife (φ β ω : Type) where
  backend : PmxBackend β ω
  engine : PmxEngine φ (β × List BackendCall)
  retired : List (List BackendCall)
  destroyed : Bool

/-- `pmx_lockdown_destroy`, before the controller is freed. -/
def pmxLockdownDestroy (ld : PmxLockdown φ) : PmxLockdown φ :=
  if ld.armed then ld.releaseFw F else ld

/-- `pmx_engine_get_status`: the status, and the flows dropped. -/
def pmxEngineGetStatus (e : PmxEngine φ β) : PmxEngineStatus × ℕ :=
  ({ e.status with lockdownState := pmxLockdownGetState e.lockdown }, e.inboxDropped)

/-- `pmx_engine_set_backend`, with an object no call has been made on. -/
def pmxEngineSetBackend (s : EngineLife φ β ω) (B : PmxBackend β ω) (b : β) :
    EngineLife φ β ω × PmxStatus :=
  if s.engine.running then (s, .errState)
  else
    ({ s with
        backend := B
        engine :=
          { s.engine with
              backend := (b, [])
              status :=
                { s.engine.status with
                    backendName := strlcpy pmxMaxLabel B.name
                    backendReal := B.caps.real
                    backendHostNames := B.caps.hostNames
                    backendCanBlock := B.caps.canBlock } }
        retired := s.retired ++ [s.engine.backend.2 ++ [.destroy]] },
      .ok)

/-- `pmx_engine_destroy`; the engine is as it is when it is freed. -/
def pmxEngineDestroy (s : EngineLife φ β ω) : EngineLife φ β ω :=
  let e := if s.engine.running then (pmxEngineStop F s.backend.logged s.engine).1 else s.engine
  { s with
      engine :=
        { e with
            backend := (e.backend.1, e.backend.2 ++ [.destroy])
            lockdown := pmxLockdownDestroy F e.lockdown
            inbox := [] }
      destroyed := true }

/-- What happens to an engine: a step of its world, or a call of its owner. -/
inductive OwnerOp (β ω : Type)
  | engine (op : EngineOp β ω)
  | setBackend (B : PmxBackend β ω) (b : β)
  | destroy

/-- The step of an engine whose backend keeps its calls; the backend's own activity is no call. -/
def EngineOp.keeping (calls : List BackendCall) : EngineOp β ω → EngineOp (β × List BackendCall) ω
  | .edit pf => .edit pf
  | .setPolicy policy => .setPolicy policy
  | .load loaded allocOk => .load loaded allocOk
  | .start os stack => .start os stack
  | .stop => .stop
  | .pump env => .pump env
  | .flow f allocOk => .flow f allocOk
  | .backend b => .backend (b, calls)
  | .worker op => .worker op

def aliveStep (s : EngineLife φ β ω) : OwnerOp β ω → EngineLife φ β ω
  | .engine op =>
    { s with engine := engineStep F s.backend.logged s.engine (op.keeping s.engine.backend.2) }
  | .setBackend B b => (pmxEngineSetBackend s B b).1
  | .destroy => pmxEngineDestroy F s

/-- Nothing happens to an engine that is gone. -/
def ownerStep (s : EngineLife φ β ω) (op : OwnerOp β ω) : EngineLife φ β ω :=
  if s.destroyed then s else aliveStep F s op

def lifeCreate (B : PmxBackend β ω) (pf : PmxProfile) (fw : Option φ) (b : β) (allocOk : Fin 4 → Bool) :
    EngineLife φ β ω where
  backend := B
  engine := pmxEngineCreate B.logged pf fw (b, []) allocOk
  retired := []
  destroyed := false

end Life

/-! ### The calls on the backends of a life -/

section Legal

variable {φ β ω : Type} {F : PmxFirewall φ} {B : PmxBackend β ω} {e : PmxEngine φ (β × List BackendCall)}

/-- The calls on the engine's backend were legal, and it is started exactly while the engine runs. -/
def Legal (e : PmxEngine φ (β × List BackendCall)) : Prop :=
  placeAfter e.backend.2 = some (placeOf e.running)

theorem Legal.of_same {e' : PmxEngine φ (β × List BackendCall)} (h : Legal e)
    (hcalls : e'.backend.2 = e.backend.2) (hrun : e'.running = e.running) : Legal e' := by
  rw [Legal, hcalls, hrun]
  exact h

theorem Legal.pumpFlow (h : Legal e) (f : PmxFlow) : Legal (pumpFlow B.logged e f) := by
  cases happly : B.applyDecision with
  | none => exact h.of_same (by simp [ProxiMight.pumpFlow, PmxBackend.logged, happly]) rfl
  | some apply =>
    have hcalls : (ProxiMight.pumpFlow B.logged e f).backend.2 = e.backend.2 ++ [.apply] := by
      simp [ProxiMight.pumpFlow, PmxBackend.logged, happly]
    rw [Legal, hcalls, placeAfter_next h]
    exact placeOf_apply _

theorem Legal.drain (h : Legal e) : Legal (drainInbox B.logged e) := by
  have hfold : ∀ (fs : List PmxFlow) (e : PmxEngine φ (β × List BackendCall)), Legal e →
      Legal (fs.foldl (ProxiMight.pumpFlow B.logged) e) := by
    intro fs
    induction fs with
    | nil => exact fun _ h => h
    | cons f fs ih => exact fun _ h => ih _ (h.pumpFlow f)
  exact (hfold e.inbox e h).of_same rfl rfl

theorem Legal.pump (h : Legal e) (env : PumpEnv) : Legal (pmxEnginePump F B.logged e env) := by
  have hpre : Legal (pumpPrelude B.logged e env) :=
    Legal.drain (e := engineRefreshSnapshot e env.snapAllocOk) (h.of_same rfl rfl)
  rw [pmxEnginePump]
  split_ifs
  · obtain ⟨_, _, _, _, _, heq⟩ := watchHealth_frame (F := F) (pumpPrelude B.logged e env) env
    rw [heq]
    exact hpre.of_same rfl rfl
  · exact hpre.of_same rfl rfl

theorem Legal.start (h : Legal e) (os : ω) (stack : ℕ → List UInt8) :
    Legal (pmxEngineStart F B.logged e os stack).1 := by
  rw [pmxEngineStart]
  split_ifs with hrun
  · exact h
  · rw [Legal, Bool.not_eq_true] at *
    rw [hrun] at h
    dsimp only
    have hcalls : placeAfter (engineStartBackend B.logged e os).1.backend.2 =
        some (placeOf (decide ((engineStartBackend B.logged e os).2 = .ok))) :=
      (placeAfter_next h _).trans rfl
    split_ifs with hst
    · rw [hcalls, decide_eq_false hst]
      exact congrArg (some ∘ placeOf) hrun.symm
    · rw [not_not] at hst
      rw [decide_eq_true hst] at hcalls
      obtain hre | ⟨-, hre⟩ := rebuildAllowlist_cases (F := F) (engineStartBackend B.logged e os).1 stack
      · rw [engineArm, hre]
        exact hcalls
      · rw [engineArm, hre]
        exact hcalls

theorem Legal.stop (h : Legal e) :
    Legal (pmxEngineStop F B.logged e).1 ∧ (pmxEngineStop F B.logged e).1.running = false := by
  rw [pmxEngineStop]
  cases hrun : e.running with
  | false => exact ⟨h, hrun⟩
  | true =>
    rw [Legal, hrun] at h
    exact ⟨placeAfter_next h .stop, rfl⟩

theorem Legal.step (h : Legal e) (op : EngineOp β ω) :
    Legal (engineStep F B.logged e (op.keeping e.backend.2)) := by
  cases op with
  | edit pf => exact h.of_same rfl rfl
  | setPolicy policy => exact h.of_same rfl rfl
  | load loaded allocOk =>
    cases loaded with
    | error st =>
      rw [EngineOp.keeping, engineStep, pmxEngineLoadProfile]
      split_ifs
      · exact h
      · exact h.of_same rfl rfl
    | ok pf =>
      rw [EngineOp.keeping, engineStep, pmxEngineLoadProfile]
      split_ifs
      · exact h
      · exact h.of_same rfl rfl
  | start os stack => exact h.start os stack
  | stop => exact h.stop.1
  | pump env => exact h.pump env
  | flow f allocOk =>
    rw [EngineOp.keeping, engineStep, engineOnFlow]
    split_ifs
    · exact h.of_same rfl rfl
    · exact h.of_same rfl rfl
    · exact h
  | backend b => exact h.of_same rfl rfl
  | worker op => exact h.of_same rfl rfl

/-- The calls on the backends that the engine has destroyed. -/
def EngineLife.gone (s : EngineLife φ β ω) : List (List BackendCall) :=
  s.retired ++ if s.destroyed then [s.engine.backend.2] else []

theorem EngineLife.mem_retired {s : EngineLife φ β ω} {calls : List BackendCall} (hcalls : calls ∈ s.gone)
    (h : s.destroyed = false) : calls ∈ s.retired := by
  rwa [EngineLife.gone, h, if_neg Bool.false_ne_true, List.append_nil] at hcalls

/-- The backends destroyed were so legally, and the calls on the one the engine has are legal so far. -/
structure BackendsLegal (s : EngineLife φ β ω) : Prop where
  gone : ∀ calls ∈ s.gone, placeAfter calls = some .destroyed
  legal : s.destroyed = false → Legal s.engine

theorem BackendsLegal.create (pf : PmxProfile) (fw : Option φ) (b : β) (allocOk : Fin 4 → Bool) :
    BackendsLegal (lifeCreate B pf fw b allocOk) where
  gone := nofun
  legal _ := rfl

theorem BackendsLegal.step {s : EngineLife φ β ω} (op : OwnerOp β ω) (h : BackendsLegal s) :
    BackendsLegal (ownerStep F s op) := by
  rw [ownerStep]
  cases hgone : s.destroyed with
  | true => exact h
  | false =>
    rw [if_neg Bool.false_ne_true]
    have hlegal := h.legal hgone
    have hretired : ∀ calls ∈ s.retired, placeAfter calls = some .destroyed :=
      fun calls hcalls => h.gone calls (List.mem_append_left _ hcalls)
    cases op with
    | engine op =>
      refine ⟨fun calls hcalls => ?_, fun _ => hlegal.step op⟩
      have hmem := EngineLife.mem_retired hcalls hgone
      exact hretired calls hmem
    | setBackend B b =>
      rw [aliveStep, pmxEngineSetBackend]
      split_ifs with hrun
      · exact h
      · rw [Bool.not_eq_true] at hrun
        refine ⟨fun calls hcalls => ?_, fun _ => congrArg (some ∘ placeOf) hrun.symm⟩
        rcases List.mem_append.1 (EngineLife.mem_retired hcalls hgone) with hcalls | hcalls
        · exact hretired calls hcalls
        · rw [Legal, hrun] at hlegal
          rw [List.mem_singleton.1 hcalls, placeAfter_next hlegal]
          rfl
    | destroy =>
      refine ⟨fun calls hcalls => ?_, nofun⟩
      rcases List.mem_append.1 hcalls with hcalls | hcalls
      · exact hretired calls hcalls
      · rw [List.mem_singleton.1 hcalls, aliveStep, pmxEngineDestroy]
        -- it is stopped before it is destroyed
        have hidle : ∀ e : PmxEngine φ (β × List BackendCall), Legal e → e.running = false →
            placeAfter (e.backend.2 ++ [.destroy]) = some .destroyed := by
          intro e he hrun
          rw [Legal, hrun] at he
          exact placeAfter_next he _
        dsimp only
        split_ifs with hrun
        · exact hidle _ hlegal.stop.1 hlegal.stop.2
        · exact hidle _ hlegal (eq_false_of_ne_true hrun)

/-- **No backend is called out of turn.**  Whatever the owner, the backend and the worker do in an engine's
life: the backend it has is started exactly while it runs and every call on it so far was legal; every
backend it has given up was stopped as often as it was started, and destroyed once, by the last call. -/
theorem engineLife_backends (F : PmxFirewall φ) (B : PmxBackend β ω) (pf : PmxProfile) (fw : Option φ) (b : β)
    (allocOk : Fin 4 → Bool) (ops : List (OwnerOp β ω)) :
    let s := Runs.runFrom (ownerStep F) (lifeCreate B pf fw b allocOk) ops
    (s.destroyed = false → placeAfter s.engine.backend.2 = some (placeOf s.engine.running)) ∧
      ∀ calls ∈ s.gone, placeAfter calls = some .destroyed ∧
        calls.count (.start true) = calls.count .stop ∧ calls.count .destroy = 1 ∧
        calls.getLast? = some .destroy := by
  intro s
  have h : BackendsLegal s := Runs.runFrom_inv BackendsLegal (fun _ op hs => hs.step op) ops _
    (BackendsLegal.create pf fw b allocOk)
  exact ⟨h.legal, fun calls hcalls => ⟨h.gone calls hcalls, placeAfter_destroyed (h.gone calls hcalls)⟩⟩

end Legal

/-! ### What is shown -/

section Controller

variable {φ β ω : Type} {F : PmxFirewall φ} {B : PmxBackend β ω} {P : PmxLockdown φ → Prop}

/-- What every call on the controller keeps, the health watcher's reports keep. -/
theorem foldl_onHealth_keeps (hP : ∀ ld op, P ld → P (lockdownStep F ld op)) (hs : List Bool) :
    ∀ {ld : PmxLockdown φ}, P ld → P (hs.foldl (fun ld h => (pmxLockdownOnHealth F ld h).1) ld) := by
  induction hs with
  | nil => exact fun h => h
  | cons healthy hs ih => exact fun h => ih (hP _ (.onHealth healthy) h)

theorem rebuildAllowlist_keeps (hP : ∀ ld op, P ld → P (lockdownStep F ld op)) {e : PmxEngine φ β}
    (h : P e.lockdown) (stack : ℕ → List UInt8) : P (rebuildAllowlist F e stack).lockdown := by
  rcases rebuildAllowlist_cases (F := F) e stack with heq | ⟨-, heq⟩
  · rw [heq]
    exact hP _ (.setAllowlist _) h
  · rw [heq]
    exact h

theorem healthTick_keeps (hP : ∀ ld op, P ld → P (lockdownStep F ld op)) {e : PmxEngine φ β}
    (h : P e.lockdown) (env : PumpEnv) : P (healthTick F e env).lockdown := by
  have hre := rebuildAllowlist_keeps hP h env.stack
  rw [healthTick]
  split_ifs
  · rw [probeWatched]
    split
    · exact hre
    · exact hP _ (.onHealth false) hre
  · exact h

theorem pmxEnginePump_keeps (hP : ∀ ld op, P ld → P (lockdownStep F ld op)) {e : PmxEngine φ β}
    (h : P e.lockdown) (env : PumpEnv) : P (pmxEnginePump F B e env).lockdown := by
  have hpre : P (pumpPrelude B e env).lockdown := by
    rw [(pumpPrelude_sameWatch (B := B) e env).lockdown]
    exact h
  rw [pmxEnginePump]
  split_ifs
  · rw [publishState, watchHealth]
    dsimp only
    split_ifs
    · rw [pollHealth, foldl_engineOnHealth]
      exact foldl_onHealth_keeps hP _ (healthTick_keeps hP hpre env)
    · exact hpre
  · exact hpre

/-- **An engine only drives its controller.**  What every call on the controller keeps, every step of the
engine keeps. -/
theorem engineStep_keeps (hP : ∀ ld op, P ld → P (lockdownStep F ld op)) {e : PmxEngine φ β}
    (h : P e.lockdown) (op : EngineOp β ω) : P (engineStep F B e op).lockdown := by
  cases op with
  | edit pf => exact h
  | setPolicy policy => exact hP _ (.setPolicy policy) h
  | load loaded allocOk =>
    cases loaded with
    | error st =>
      rw [engineStep, pmxEngineLoadProfile]
      split_ifs
      · exact h
      · exact h
    | ok pf =>
      rw [engineStep, pmxEngineLoadProfile]
      split_ifs
      · exact h
      · exact hP _ (.setPolicy pf.lockdown) h
  | start os stack =>
    rw [engineStep, pmxEngineStart]
    split_ifs
    · exact h
    · dsimp only
      split_ifs
      · exact h
      · have hre := rebuildAllowlist_keeps hP (e := (engineStartBackend B e os).1) h stack
        exact hP _ .arm (hP _ (.setPolicy _) hre)
  | stop =>
    rw [engineStep, pmxEngineStop]
    split_ifs
    · exact h
    · exact hP _ .disarm h
  | pump env => exact pmxEnginePump_keeps hP h env
  | flow f allocOk =>
    rw [engineStep, engineOnFlow]
    split_ifs
    · exact h
    · exact h
    · exact h
  | backend b => exact h
  | worker op => exact h

end Controller

section Shown

variable {φ β ω : Type} {F : PmxFirewall φ} {B : PmxBackend β ω} {st : PmxEngineStatus}

/-- What a status says of the engine and its backend. -/
structure Displays (B : PmxBackend β ω) (active : Bool) (st : PmxEngineStatus) : Prop where
  running : st.running = active
  backendActive : st.backendActive = active
  backendReal : st.backendReal = B.caps.real
  backendHostNames : st.backendHostNames = B.caps.hostNames
  backendCanBlock : st.backendCanBlock = B.caps.canBlock
  backendName : st.backendName = strlcpy pmxMaxLabel B.name

theorem Displays.countFlow {active : Bool} (h : Displays B active st) (v : PmxVerdict) :
    Displays B active (countFlow st v) := by
  obtain ⟨hrun, hactive, hreal, hnames, hblock, hname⟩ := h
  cases v with
  | proxy => exact ⟨hrun, hactive, hreal, hnames, hblock, hname⟩
  | direct => exact ⟨hrun, hactive, hreal, hnames, hblock, hname⟩
  | block => exact ⟨hrun, hactive, hreal, hnames, hblock, hname⟩

theorem Displays.with_state {active : Bool} (h : Displays B active st) (state : PmxLockdownState) :
    Displays B active { st with lockdownState := state } :=
  ⟨h.running, h.backendActive, h.backendReal, h.backendHostNames, h.backendCanBlock, h.backendName⟩

theorem Displays.pump {e : PmxEngine φ β} (h : Displays B e.running e.status) (env : PumpEnv) :
    Displays B (pmxEnginePump F B e env).running (pmxEnginePump F B e env).status := by
  have hfold : ∀ (fs : List PmxFlow) (e : PmxEngine φ β), Displays B e.running e.status →
      Displays B (fs.foldl (pumpFlow B) e).running (fs.foldl (pumpFlow B) e).status := by
    intro fs
    induction fs with
    | nil => exact fun _ h => h
    | cons f fs ih => exact fun e h => ih (pumpFlow B e f) (h.countFlow _)
  have hpre : Displays B (pumpPrelude B e env).running (pumpPrelude B e env).status :=
    hfold e.inbox (engineRefreshSnapshot e env.snapAllocOk) h
  rw [pmxEnginePump]
  split_ifs
  · obtain ⟨_, _, _, _, _, heq⟩ := watchHealth_frame (F := F) (pumpPrelude B e env) env
    rw [heq]
    exact hpre.with_state _
  · exact hpre

theorem Displays.step {e : PmxEngine φ β} (h : Displays B e.running e.status) (op : EngineOp β ω) :
    Displays B (engineStep F B e op).running (engineStep F B e op).status := by
  cases op with
  | edit pf => exact h
  | setPolicy policy => exact h
  | load loaded allocOk =>
    cases loaded with
    | error st =>
      rw [engineStep, pmxEngineLoadProfile]
      split_ifs
      · exact h
      · exact h
    | ok pf =>
      rw [engineStep, pmxEngineLoadProfile]
      split_ifs
      · exact h
      · exact h
  | start os stack =>
    rw [engineStep, pmxEngineStart]
    split_ifs
    · exact h
    · dsimp only
      split_ifs
      · exact h
      · exact ⟨rfl, rfl, rfl, rfl, rfl, rfl⟩
  | stop =>
    rw [engineStep, pmxEngineStop]
    split_ifs
    · exact h
    · exact ⟨rfl, rfl, h.backendReal, h.backendHostNames, h.backendCanBlock, h.backendName⟩
  | pump env => exact h.pump env
  | flow f allocOk =>
    rw [engineStep, engineOnFlow]
    split_ifs
    · exact h
    · exact h
    · exact h
  | backend b => exact h
  | worker op => exact h

/-- The status is that of the engine and its backend, the controller is armed while the engine runs, and
what it reports agrees with what it enforces. -/
structure Shown (F : PmxFirewall φ) (B : PmxBackend β ω) (e : PmxEngine φ β) : Prop where
  displays : Displays B e.running e.status
  synced : Synced e
  honest : Honest F e.lockdown

theorem Shown.step (hF : F.Lawful) {e : PmxEngine φ β} (h : Shown F B e) (op : EngineOp β ω) :
    Shown F B (engineStep F B e op) where
  displays := h.displays.step op
  synced := Synced.step e op h.synced
  honest := engineStep_keeps (Honest.step hF) h.honest op

theorem Shown.ownerStep (hF : F.Lawful) {s : EngineLife φ β ω} (op : OwnerOp β ω)
    (h : Shown F s.backend.logged s.engine ∧ (s.destroyed = true → s.engine.running = false)) :
    Shown F (ownerStep F s op).backend.logged (ownerStep F s op).engine ∧
      ((ownerStep F s op).destroyed = true → (ownerStep F s op).engine.running = false) := by
  obtain ⟨hshown, hstopped⟩ := h
  rw [ProxiMight.ownerStep]
  cases hgone : s.destroyed with
  | true => exact ⟨hshown, hstopped⟩
  | false =>
    rw [if_neg Bool.false_ne_true]
    cases op with
    | engine op =>
      refine ⟨hshown.step hF _, fun hd => ?_⟩
      rw [aliveStep, hgone] at hd
      cases hd
    | setBackend B b =>
      rw [aliveStep, pmxEngineSetBackend]
      split_ifs with hrun
      · exact ⟨hshown, hstopped⟩
      · exact ⟨⟨⟨hshown.displays.running, hshown.displays.backendActive, rfl, rfl, rfl, rfl⟩,
          hshown.synced.of_same rfl rfl rfl, hshown.honest⟩, fun _ => eq_false_of_ne_true hrun⟩
    | destroy =>
      have hoff : ∀ e : PmxEngine φ (β × List BackendCall), Shown F s.backend.logged e →
          e.running = false → ∀ b, Shown F s.backend.logged
            { e with backend := b, lockdown := pmxLockdownDestroy F e.lockdown, inbox := [] } := by
        intro e he hrun b
        have hld : pmxLockdownDestroy F e.lockdown = e.lockdown := by
          rw [pmxLockdownDestroy, he.synced.armed, hrun, if_neg Bool.false_ne_true]
        rw [hld]
        exact ⟨he.displays, he.synced.of_same rfl rfl rfl, he.honest⟩
      rw [aliveStep, pmxEngineDestroy]
      dsimp only
      split_ifs with hrun
      · have hstop := hshown.step hF (.stop : EngineOp (β × List BackendCall) ω)
        have hrunning : (pmxEngineStop F s.backend.logged s.engine).1.running = false := by
          rw [pmxEngineStop, hrun]
          rfl
        exact ⟨hoff _ hstop hrunning _, fun _ => hrunning⟩
      · have hrunning := eq_false_of_ne_true hrun
        exact ⟨hoff _ hshown hrunning _, fun _ => hrunning⟩

/-- **What is shown of an engine is so.**  Whatever happens in its life, with any firewall that keeps its
promises: the status shown names the backend it has and says whether that one is started; it claims to
block only with the firewall engaged; and the firewall is engaged only while the engine runs in a mode that
blocks, so never by an engine that was stopped or is gone. -/
theorem engineLife_shown {F : PmxFirewall φ} (hF : F.Lawful) (B : PmxBackend β ω) (pf : PmxProfile)
    (fw : Option φ) (hfw : ∀ s, fw = some s → F.isEngaged s = false) (b : β) (allocOk : Fin 4 → Bool)
    (ops : List (OwnerOp β ω)) :
    let s := Runs.runFrom (ownerStep F) (lifeCreate B pf fw b allocOk) ops
    let shown := (pmxEngineGetStatus s.engine).1
    Displays s.backend s.engine.running shown ∧
      (shown.lockdownState = .inactive ↔
        shown.running = false ∨ s.engine.lockdown.policy.mode = .off) ∧
      (shown.lockdownState = .trippedBlocking ∨ shown.lockdownState = .failingOver →
        s.engine.lockdown.engaged F = true) ∧
      (s.engine.lockdown.engaged F = true →
        shown.running = true ∧ modeBlocks s.engine.lockdown.policy.mode = true) ∧
      (s.destroyed = true → shown.running = false) := by
  intro s shown
  have hcreate : Shown F B.logged (pmxEngineCreate B.logged pf fw (b, []) allocOk) :=
    ⟨⟨rfl, rfl, rfl, rfl, rfl, rfl⟩, Synced.create pf fw (b, []) allocOk,
      Honest.create F (some pf.lockdown) fw hfw⟩
  obtain ⟨hshown, hstopped⟩ : Shown F s.backend.logged s.engine ∧
      (s.destroyed = true → s.engine.running = false) :=
    Runs.runFrom_inv (fun s : EngineLife φ β ω => Shown F s.backend.logged s.engine ∧
        (s.destroyed = true → s.engine.running = false))
      (fun _ op h => Shown.ownerStep hF op h) ops _ ⟨hcreate, nofun⟩
  have hrun : shown.running = s.engine.running := hshown.displays.running
  have harmed := hshown.synced.armed
  refine ⟨?_, ?_, fun h => (hshown.honest.blocking h).2.2, fun hon => ?_, fun h => hrun.trans (hstopped h)⟩
  · have h := hshown.displays.with_state (pmxLockdownGetState s.engine.lockdown)
    exact ⟨h.running, h.backendActive, h.backendReal, h.backendHostNames, h.backendCanBlock, h.backendName⟩
  · rw [hrun, ← harmed]
    exact hshown.honest.inactive
  · -- nothing is left engaged where nothing is to be blocked
    have hreleased : ¬ (s.engine.lockdown.armed = false ∨ s.engine.lockdown.policy.mode = .off ∨
        s.engine.lockdown.policy.mode = .failOpen) := by
      intro h
      rw [hshown.honest.released h] at hon
      cases hon
    rw [not_or, not_or, Bool.not_eq_false] at hreleased
    obtain ⟨hon, hnoff, hnopen⟩ := hreleased
    refine ⟨by rw [hrun, ← harmed, hon], ?_⟩
    rcases modeBlocks_or s.engine.lockdown.policy.mode (hshown.honest.declared hon) with hm | hm | hm
    · exact absurd hm hnoff
    · exact hm
    · exact absurd hm hnopen

/-- Started, refused another backend, and destroyed while it ran. -/
theorem engineLife_shown_stub :
    let s := Runs.runFrom (ownerStep pmxFirewallStub)
      (lifeCreate pmxBackendStub pmxProfileInit (some stubFwCreate) stubImplCreate fun _ => true)
      [.engine (.start true fun _ => []), .setBackend pmxBackendStub stubImplCreate, .destroy]
    (pmxEngineGetStatus s.engine).1.running = false :=
  (engineLife_shown pmxFirewallStub_lawful pmxBackendStub pmxProfileInit (some stubFwCreate)
    (fun _ h => by cases h; rfl) stubImplCreate (fun _ => true)
    [.engine (.start true fun _ => []), .setBackend pmxBackendStub stubImplCreate, .destroy]).2.2.2.2 rfl

end Shown

end ProxiMight
