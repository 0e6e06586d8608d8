import ProxiMight.Engine
import ProxiMight.Runs
import ProxiMight.WinDivert

/-!
# The leak stance of a running backend

What happens to a connect that should be proxied but cannot be redirected is kept three times: in the
profile, in the policy of the lockdown controller, and as `block_when_cannot_proxy` in the backend.  The
last one is a copy that only a start of the backend makes.

The system is an engine over the WinDivert backend.  `pmx_engine_start` is two steps, because from the
backend's start on its thread answers connects; until it has returned, the user's thread makes no other
call.

* **`directOnlyFailOpen_iff`** — over runs: a connect that cannot be redirected is let out in another
  mode than fail-open exactly when the backend was started in fail-open and the mode has changed since.
-/

namespace ProxiMight

open CString

/-- The engine, whether it is inside `pmx_engine_start` with the backend already started, and the mode
of the profile when the backend was last started. -/
structure WdSystem (φ : Type) where
  e : PmxEngine φ WdImpl
  starting : Bool
  startMode : PmxLockdownMode

/-- The calls of the user's thread other than `pmx_engine_start`. -/
inductive UserCall
  | edit (pf : PmxProfile)
  | setPolicy (policy : PmxLockdownPolicy)
  | load (loaded : Except PmxStatus PmxProfile) (allocOk : Fin 4 → Bool)
  | stop
  | pump (env : PumpEnv)

/-- The engine's operation of a call. -/
def UserCall.op : UserCall → EngineOp WdImpl WdOs
  | .edit pf => .edit pf
  | .setPolicy policy => .setPolicy policy
  | .load loaded allocOk => .load loaded allocOk
  | .stop => .stop
  | .pump env => .pump env

/-- A step of the system; `redirect` is what the relay's threads and the network layer's pump do to the
two tables. -/
inductive WdSystemOp
  | call (c : UserCall)
  | startBackend (os : WdOs)
  | finishStart (stack : ℕ → List UInt8)
  | connect (addr : WdAddr) (env : WdEventEnv) (allocOk : Bool)
  | redirect (relay : PmxRelay) (nat : NatTable)
  | worker (op : WorkerOp)

variable {φ : Type}

/-- One connect, with `pmx_engine_decide` as the decision callback and `engine_on_flow` as the other. -/
def engineConnect (e : PmxEngine φ WdImpl) (addr : WdAddr) (env : WdEventEnv) (allocOk : Bool) :
    PmxEngine φ WdImpl × Bool :=
  let r := wdPump e.backend (pmxEngineDecide e) addr env
  let e := { e with backend := r.1 }
  (match r.2.reported with
    | some f => engineOnFlow e f allocOk
    | none => e, r.2.allowed)

def wdSystemStep (F : PmxFirewall φ) (s : WdSystem φ) : WdSystemOp → WdSystem φ
  | .call c => if s.starting then s else { s with e := engineStep F pmxBackendWindivert s.e c.op }
  | .startBackend os =>
    if s.starting || s.e.running then s
    else
      let r := engineStartBackend pmxBackendWindivert s.e os
      { e := r.1, starting := decide (r.2 = .ok), startMode := s.e.profile.lockdown.mode }
  | .finishStart stack =>
    if s.starting then { s with e := engineArm F pmxBackendWindivert s.e stack, starting := false }
    else s
  | .connect addr env allocOk =>
    if s.e.backend.running then { s with e := (engineConnect s.e addr env allocOk).1 } else s
  | .redirect relay nat =>
    { s with
        e :=
          { s.e with
              backend :=
                { s.e.backend with
                    relay := s.e.backend.relay.map fun _ => relay
                    nat := s.e.backend.nat.map fun _ => nat } } }
  | .worker op => { s with e := engineStep F pmxBackendWindivert s.e (.worker op) }

/-- `pmx_engine_create` in the process `pid`, with the backend's callbacks bound. -/
def wdSystemCreate (pf : PmxProfile) (fw : Option φ) (pid : UInt32) (allocOk : Fin 4 → Bool) :
    WdSystem φ where
  e := pmxEngineCreate pmxBackendWindivert pf fw
    { wdImplCreate pid with hasCb := true, hasDecide := true } allocOk
  starting := false
  startMode := pf.lockdown.mode

/-- The two steps of a start are `pmx_engine_start`. -/
theorem wdSystemStep_start (F : PmxFirewall φ) {s : WdSystem φ} (hs : s.starting = false) (os : WdOs)
    (stack : ℕ → List UInt8) :
    (wdSystemStep F (wdSystemStep F s (.startBackend os)) (.finishStart stack)).e =
      (pmxEngineStart F pmxBackendWindivert s.e os stack).1 := by
  have hstep : wdSystemStep F s (.startBackend os) =
      if s.e.running then s
      else
        { e := (engineStartBackend pmxBackendWindivert s.e os).1
          starting := decide ((engineStartBackend pmxBackendWindivert s.e os).2 = .ok)
          startMode := s.e.profile.lockdown.mode } := by
    rw [wdSystemStep, hs, Bool.false_or]
  rw [hstep, pmxEngineStart]
  by_cases hrun : s.e.running = true
  · rw [if_pos hrun, if_pos hrun, wdSystemStep, hs]
    rfl
  · rw [if_neg hrun, if_neg hrun, wdSystemStep]
    by_cases hok : (engineStartBackend pmxBackendWindivert s.e os).2 = .ok
    · simp [hok]
    · simp [hok]

/-! ### The copy the backend keeps -/

theorem pmxBackendWindivert_inert : pmxBackendWindivert.Inert := by
  intro apply happly b f d
  obtain rfl := Option.some.inj happly
  rfl

/-- A start that leaves the backend running succeeded and made the copy. -/
theorem wdStart_running {os : WdOs} {im : WdImpl} {cfg : PmxBackendConfig}
    (hidle : im.running = false) (hrun : (wdStart os im cfg).1.running = true) :
    (wdStart os im cfg).2 = .ok ∧
      (wdStart os im cfg).1.blockWhenCannotProxy = cfg.blockWhenCannotProxy := by
  have hcopy : (wdStart os im cfg).1.blockWhenCannotProxy = cfg.blockWhenCannotProxy ∧
      ((wdStart os im cfg).2 = .ok ∨ (wdStart os im cfg).1.running = im.running) := by
    rw [wdStart, if_neg (by rw [hidle]; exact Bool.false_ne_true)]
    cases os.socketLayer with
    | accessDenied => dsimp only; split_ifs <;> exact ⟨rfl, Or.inr rfl⟩
    | failed => dsimp only; split_ifs <;> exact ⟨rfl, Or.inr rfl⟩
    | opened =>
      dsimp only
      split_ifs
      · exact ⟨rfl, Or.inr rfl⟩
      · exact ⟨rfl, Or.inr rfl⟩
      · exact ⟨rfl, Or.inr rfl⟩
      · exact ⟨rfl, Or.inr rfl⟩
      · exact ⟨rfl, Or.inl rfl⟩
      · exact ⟨rfl, Or.inr rfl⟩
  refine ⟨?_, hcopy.1⟩
  rcases hcopy.2 with hok | hsame
  · exact hok
  · rw [hsame, hidle] at hrun
    cases hrun

/-- A connect changes the tables and the counters only. -/
theorem wdPump_flags (im : WdImpl) (decide : PmxFlow → PmxDecision) (addr : WdAddr)
    (env : WdEventEnv) :
    (wdPump im decide addr env).1.running = im.running ∧
      (wdPump im decide addr env).1.blockWhenCannotProxy = im.blockWhenCannotProxy := by
  have hreg : ∀ (im : WdImpl) (f : PmxFlow) (d : PmxDecision),
      (wdRegister im addr env f d).1.running = im.running ∧
        (wdRegister im addr env f d).1.blockWhenCannotProxy = im.blockWhenCannotProxy := by
    intro im f d
    rw [wdRegister]
    split
    · split_ifs
      · dsimp only
        split_ifs <;> exact ⟨rfl, rfl⟩
      · exact ⟨rfl, rfl⟩
    · exact ⟨rfl, rfl⟩
  have hverdict : ∀ (im : WdImpl) (f : PmxFlow) (d : PmxDecision),
      (wdVerdict im addr env f d).1.running = im.running ∧
        (wdVerdict im addr env f d).1.blockWhenCannotProxy = im.blockWhenCannotProxy := by
    intro im f d
    rw [wdVerdict]
    split
    · exact ⟨rfl, rfl⟩
    · exact ⟨rfl, rfl⟩
    · exact hreg im f d
  by_cases hgated : addr.gated im = true
  · rw [wdPump, if_pos hgated]
    exact hverdict im.counted _ _
  · rw [wdPump, if_neg hgated]
    exact ⟨rfl, rfl⟩

/-- A running backend has the stance of the mode it was started in, and an engine that knows it runs. -/
structure StanceCopied (s : WdSystem φ) : Prop where
  copied : s.e.backend.running = true →
    s.e.backend.blockWhenCannotProxy = decide (s.startMode ≠ .failOpen)
  owned : s.e.backend.running = true → s.e.running = true ∨ s.starting = true

/-- What does not touch the backend's two flags and does not stop the engine keeps the invariant. -/
theorem StanceCopied.of_same {s s' : WdSystem φ} (h : StanceCopied s)
    (hback : s'.e.backend.running = s.e.backend.running ∧
      s'.e.backend.blockWhenCannotProxy = s.e.backend.blockWhenCannotProxy)
    (hmode : s'.startMode = s.startMode)
    (hrun : s.e.running = true ∨ s.starting = true → s'.e.running = true ∨ s'.starting = true) :
    StanceCopied s' where
  copied := by rw [hback.1, hback.2, hmode]; exact h.copied
  owned := by rw [hback.1]; exact fun hr => hrun (h.owned hr)

theorem engineOnFlow_backend (e : PmxEngine φ WdImpl) (f : PmxFlow) (allocOk : Bool) :
    (engineOnFlow e f allocOk).backend = e.backend ∧
      (engineOnFlow e f allocOk).running = e.running := by
  rw [engineOnFlow]
  split_ifs <;> exact ⟨rfl, rfl⟩

theorem StanceCopied.call {s : WdSystem φ} (h : StanceCopied s) (F : PmxFirewall φ) (c : UserCall) :
    StanceCopied { s with e := engineStep F pmxBackendWindivert s.e c.op } := by
  cases c with
  | edit pf => exact h.of_same ⟨rfl, rfl⟩ rfl id
  | setPolicy policy => exact h.of_same ⟨rfl, rfl⟩ rfl id
  | load loaded allocOk =>
    have hsame : (pmxEngineLoadProfile F s.e loaded allocOk).1.backend = s.e.backend ∧
        (pmxEngineLoadProfile F s.e loaded allocOk).1.running = s.e.running := by
      cases loaded with
      | error st => rw [pmxEngineLoadProfile]; split_ifs <;> exact ⟨rfl, rfl⟩
      | ok pf => rw [pmxEngineLoadProfile]; split_ifs <;> exact ⟨rfl, rfl⟩
    refine h.of_same ⟨?_, ?_⟩ rfl ?_
    · show (pmxEngineLoadProfile F s.e loaded allocOk).1.backend.running = _
      rw [hsame.1]
    · show (pmxEngineLoadProfile F s.e loaded allocOk).1.backend.blockWhenCannotProxy = _
      rw [hsame.1]
    · show _ → (pmxEngineLoadProfile F s.e loaded allocOk).1.running = true ∨ _
      rw [hsame.2]
      exact id
  | stop =>
    by_cases hrun : s.e.running = true
    · have hstop : (engineStep F pmxBackendWindivert s.e UserCall.stop.op).backend.running = false := by
        show (pmxEngineStop F pmxBackendWindivert s.e).1.backend.running = false
        rw [pmxEngineStop, if_neg (by rw [hrun]; exact Bool.false_ne_true)]
        rfl
      constructor
      · show (engineStep F pmxBackendWindivert s.e UserCall.stop.op).backend.running = true → _
        rw [hstop]
        intro hc
        cases hc
      · show (engineStep F pmxBackendWindivert s.e UserCall.stop.op).backend.running = true → _
        rw [hstop]
        intro hc
        cases hc
    · have hsame : engineStep F pmxBackendWindivert s.e UserCall.stop.op = s.e := by
        show (pmxEngineStop F pmxBackendWindivert s.e).1 = s.e
        rw [pmxEngineStop, if_pos (by rw [Bool.not_eq_true] at hrun; rw [hrun]; rfl)]
      rw [hsame]
      exact h
  | pump env =>
    obtain ⟨hback, hrun⟩ := pmxEnginePump_backend (F := F) pmxBackendWindivert_inert s.e env
    refine h.of_same ⟨?_, ?_⟩ rfl ?_
    · show (pmxEnginePump F pmxBackendWindivert s.e env).backend.running = _
      rw [hback]
    · show (pmxEnginePump F pmxBackendWindivert s.e env).backend.blockWhenCannotProxy = _
      rw [hback]
    · show _ → (pmxEnginePump F pmxBackendWindivert s.e env).running = true ∨ _
      rw [hrun]
      exact id

theorem engineConnect_flags (e : PmxEngine φ WdImpl) (addr : WdAddr) (env : WdEventEnv)
    (allocOk : Bool) :
    (engineConnect e addr env allocOk).1.backend.running = e.backend.running ∧
      (engineConnect e addr env allocOk).1.backend.blockWhenCannotProxy
        = e.backend.blockWhenCannotProxy ∧
      (engineConnect e addr env allocOk).1.running = e.running := by
  obtain ⟨hrun, hblock⟩ := wdPump_flags e.backend (pmxEngineDecide e) addr env
  rw [engineConnect]
  dsimp only
  split
  · next f _ =>
    obtain ⟨hb, hr⟩ := engineOnFlow_backend
      { e with backend := (wdPump e.backend (pmxEngineDecide e) addr env).1 } f allocOk
    rw [hb, hr]
    exact ⟨hrun, hblock, rfl⟩
  · exact ⟨hrun, hblock, rfl⟩

/-- The backend's start copies the mode of the profile. -/
theorem StanceCopied.startBackend {s : WdSystem φ} (h : StanceCopied s) (F : PmxFirewall φ)
    (os : WdOs) : StanceCopied (wdSystemStep F s (.startBackend os)) := by
  by_cases hbusy : (s.starting || s.e.running) = true
  · rw [wdSystemStep, if_pos hbusy]
    exact h
  · rw [wdSystemStep, if_neg hbusy]
    rw [Bool.or_eq_true, not_or] at hbusy
    have hidle : s.e.backend.running = false := by
      rw [← Bool.not_eq_true]
      intro hrun
      rcases h.owned hrun with hr | hs
      · exact hbusy.2 hr
      · exact hbusy.1 hs
    constructor
    · intro hrun
      exact (wdStart_running hidle hrun).2
    · intro hrun
      exact Or.inr (decide_eq_true (wdStart_running hidle hrun).1)

theorem StanceCopied.step {s : WdSystem φ} (h : StanceCopied s) (F : PmxFirewall φ)
    (op : WdSystemOp) : StanceCopied (wdSystemStep F s op) := by
  cases op with
  | call c =>
    rw [wdSystemStep]
    split_ifs
    · exact h
    · exact h.call F c
  | startBackend os => exact h.startBackend F os
  | finishStart stack =>
    rw [wdSystemStep]
    split_ifs
    · refine h.of_same ?_ rfl (fun _ => Or.inl rfl)
      have hback : (engineArm F pmxBackendWindivert s.e stack).backend = s.e.backend := by
        rcases rebuildAllowlist_cases (F := F) s.e stack with heq | ⟨-, heq⟩ <;>
          rw [engineArm, heq]
      show (engineArm F pmxBackendWindivert s.e stack).backend.running = _ ∧
        (engineArm F pmxBackendWindivert s.e stack).backend.blockWhenCannotProxy = _
      rw [hback]
      exact ⟨rfl, rfl⟩
    · exact h
  | connect addr env allocOk =>
    rw [wdSystemStep]
    split_ifs
    · obtain ⟨hrun, hblock, hengine⟩ := engineConnect_flags s.e addr env allocOk
      refine h.of_same ⟨hrun, hblock⟩ rfl ?_
      show _ → (engineConnect s.e addr env allocOk).1.running = true ∨ _
      rw [hengine]
      exact id
    · exact h
  | redirect relay nat => exact h.of_same ⟨rfl, rfl⟩ rfl id
  | worker op => exact h.of_same ⟨rfl, rfl⟩ rfl id

theorem StanceCopied.create (pf : PmxProfile) (fw : Option φ) (pid : UInt32)
    (allocOk : Fin 4 → Bool) : StanceCopied (wdSystemCreate pf fw pid allocOk) where
  copied := fun hrun => by cases hrun
  owned := fun hrun => by cases hrun

/-! ### Connects that cannot be redirected -/

/-- The running backend is asked about this connect, the verdict is PROXY, and the tables do not take
it. -/
def CannotRedirect (s : WdSystem φ) (addr : WdAddr) (env : WdEventEnv) : Prop :=
  s.e.backend.running = true ∧ addr.gated s.e.backend = true ∧
  (wdDecision s.e.backend (pmxEngineDecide s.e) (wdFlow s.e.backend addr env)).verdict = .proxy ∧
  (wdRegister s.e.backend.counted addr env (wdFlow s.e.backend addr env)
    (wdDecision s.e.backend (pmxEngineDecide s.e) (wdFlow s.e.backend addr env))).2 = false

instance (s : WdSystem φ) (addr : WdAddr) (env : WdEventEnv) : Decidable (CannotRedirect s addr env) :=
  inferInstanceAs (Decidable (_ ∧ _))

/-- The mode in force is fail-open. -/
def FailOpenNow (s : WdSystem φ) : Prop := s.e.lockdown.policy.mode = .failOpen

instance (s : WdSystem φ) : Decidable (FailOpenNow s) := inferInstanceAs (Decidable (_ = _))

/-- **One connect.**  What cannot be redirected goes out exactly when the backend was started in
fail-open. -/
theorem engineConnect_allowed {s : WdSystem φ} (h : StanceCopied s) {addr : WdAddr} {env : WdEventEnv}
    (hcannot : CannotRedirect s addr env) (allocOk : Bool) :
    (engineConnect s.e addr env allocOk).2 = true ↔ s.startMode = .failOpen := by
  obtain ⟨hrun, hgated, hproxy, hreg⟩ := hcannot
  have hallowed := (wdPump_of_gated hgated (pmxEngineDecide s.e) env).1
  have hflag : s.e.backend.counted.blockWhenCannotProxy = decide (s.startMode ≠ .failOpen) :=
    h.copied hrun
  rw [wdVerdict_of_proxy hproxy, hreg, hflag] at hallowed
  show (wdPump s.e.backend (pmxEngineDecide s.e) addr env).2.allowed = true ↔ _
  rw [hallowed]
  simp

/-- **The stance over runs.**  Every connect that cannot be redirected is let out only in fail-open
exactly when, at each of them, the backend was started in another mode or fail-open is in force. -/
theorem directOnlyFailOpen_iff (F : PmxFirewall φ) (pf : PmxProfile) (fw : Option φ) (pid : UInt32)
    (allocOk : Fin 4 → Bool) (ops : List WdSystemOp) :
    Runs.EachStep (wdSystemStep F)
        (fun s op => ∀ addr env ok, op = .connect addr env ok → CannotRedirect s addr env →
          (engineConnect s.e addr env ok).2 = true → FailOpenNow s)
        (wdSystemCreate pf fw pid allocOk) ops ↔
      Runs.EachStep (wdSystemStep F)
        (fun s op => ∀ addr env ok, op = .connect addr env ok → CannotRedirect s addr env →
          s.startMode ≠ .failOpen ∨ FailOpenNow s)
        (wdSystemCreate pf fw pid allocOk) ops := by
  refine Runs.eachStep_congr StanceCopied (fun s op h => h.step F op) ?_ ops _
    (StanceCopied.create pf fw pid allocOk)
  intro s op h
  constructor
  · intro hstep addr env ok hop hcannot
    by_cases hmode : s.startMode = .failOpen
    · exact Or.inr (hstep addr env ok hop hcannot ((engineConnect_allowed h hcannot ok).2 hmode))
    · exact Or.inl hmode
  · intro hstep addr env ok hop hcannot hout
    rcases hstep addr env ok hop hcannot with hmode | hopen
    · exact absurd ((engineConnect_allowed h hcannot ok).1 hout) hmode
    · exact hopen

/-- Everything the operating system is asked for works. -/
def wdOsOk : WdOs := ⟨.opened, .ok, 9000, true, .opened, true⟩

/-- `oneProxyProfile` in fail-open. -/
def failOpenProfile : PmxProfile :=
  { oneProxyProfile with lockdown := { pmxLockdownPolicyDefaults with mode := .failOpen } }

/-- A UDP connect of process 8 to port 443. -/
def wdUdpConnect : WdAddr := { wdTcpConnect with protocol := ipprotoUdp }

/-- The backend starts in fail-open and the user then switches to fail-closed: UDP still goes out. -/
theorem not_directOnlyFailOpen_after_switch :
    let s := Runs.runFrom (wdSystemStep pmxFirewallStub)
      (wdSystemCreate failOpenProfile (some stubFwCreate) 7 fun _ => true)
      [.startBackend wdOsOk, .finishStart fun _ => [], .call (.edit oneProxyProfile),
        .call (.setPolicy oneProxyProfile.lockdown)]
    CannotRedirect s wdUdpConnect wdPlainEnv ∧
      (engineConnect s.e wdUdpConnect wdPlainEnv true).2 = true ∧ ¬FailOpenNow s := by
  decide +kernel

end ProxiMight
