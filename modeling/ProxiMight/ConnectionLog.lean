import ProxiMight.RefusedConnect
import ProxiMight.Stance

/-!
# The connection log

A connect is reported before it is decided.  The backend's thread hands the flow to the inbox, asks for
the verdict from the snapshot, and lets the connect out, redirects it or drops it; the user's thread takes
the flow off the inbox some pump later, resolves it once more, from the profile as it is then, and records
that.

The system is the engine over the WinDivert backend with the connect under way, what the backend did with
every flow, and what was recorded.  Beside them stands what the two threads had before them: the snapshot and
the backend's tables as a flow was answered, and the profile as it was recorded.

* **`logTruthful_iff`** — over runs: every recorded flow is recorded as what was done with it exactly when
  the profile gives the verdict the snapshot gave, and, where that was PROXY and the flow could not be
  redirected or a table had no room, the verdict that the stance comes to.
-/

namespace ProxiMight

open CString

/-! ### What is recorded -/

/-- The counters of the status are those of these events. -/
structure CountsLog (st : PmxEngineStatus) (log : List PmxConnEvent) : Prop where
  total : st.flowsTotal = log.length
  proxied : st.flowsProxied = log.countP (·.verdict == .proxy)
  direct : st.flowsDirect = log.countP (·.verdict == .direct)
  blocked : st.flowsBlocked = log.countP (·.verdict == .block)

theorem CountsLog.concat {st : PmxEngineStatus} {log : List PmxConnEvent} (h : CountsLog st log)
    (ev : PmxConnEvent) : CountsLog (countFlow st ev.verdict) (log ++ [ev]) := by
  obtain ⟨htotal, hproxied, hdirect, hblocked⟩ := h
  have hcount : ∀ p : PmxConnEvent → Bool, (log ++ [ev]).countP p = log.countP p + if p ev then 1 else 0 := by
    intro p
    rw [List.countP_append, List.countP_singleton]
  unfold countFlow
  cases hv : ev.verdict with
  | direct => constructor <;> simp [hcount, hv, htotal, hproxied, hdirect, hblocked]
  | proxy => constructor <;> simp [hcount, hv, htotal, hproxied, hdirect, hblocked]
  | block => constructor <;> simp [hcount, hv, htotal, hproxied, hdirect, hblocked]

variable {φ β ω : Type}

/-- The events and the counters of the engine are those of the log. -/
structure LogKept (e : PmxEngine φ β) (log : List PmxConnEvent) : Prop where
  ring : e.events = log.foldl recordEvent ⟨[], 0, 0⟩
  counted : CountsLog e.status log

/-- The event a pump records for a flow. -/
def loggedEvent (e : PmxEngine φ β) (f : PmxFlow) : PmxConnEvent :=
  connEvent f (pmxEngineResolve e f.query)

theorem LogKept.pumpFlow {e : PmxEngine φ β} {log : List PmxConnEvent} (h : LogKept e log)
    (B : PmxBackend β ω) (f : PmxFlow) : LogKept (pumpFlow B e f) (log ++ [loggedEvent e f]) where
  ring := by
    rw [List.foldl_append, ← h.ring]
    rfl
  counted := h.counted.concat (loggedEvent e f)

theorem LogKept.foldl_pumpFlow (B : PmxBackend β ω) (fs : List PmxFlow) :
    ∀ {e : PmxEngine φ β} {log : List PmxConnEvent}, LogKept e log →
      LogKept (fs.foldl (ProxiMight.pumpFlow B) e) (log ++ fs.map (loggedEvent e)) := by
  induction fs with
  | nil =>
    intro e log h
    rw [List.map_nil, List.append_nil]
    exact h
  | cons f fs ih =>
    intro e log h
    have hrest := ih (h.pumpFlow B f)
    rw [List.append_assoc] at hrest
    exact hrest

/-- What touches neither the events nor the counters. -/
theorem LogKept.of_same {e e' : PmxEngine φ β} {log : List PmxConnEvent} (h : LogKept e log)
    (hring : e'.events = e.events)
    (hcount : e'.status.flowsTotal = e.status.flowsTotal ∧ e'.status.flowsProxied = e.status.flowsProxied ∧
      e'.status.flowsDirect = e.status.flowsDirect ∧ e'.status.flowsBlocked = e.status.flowsBlocked) :
    LogKept e' log where
  ring := hring.trans h.ring
  counted :=
    ⟨hcount.1.trans h.counted.total, hcount.2.1.trans h.counted.proxied,
      hcount.2.2.1.trans h.counted.direct, hcount.2.2.2.trans h.counted.blocked⟩

/-- A pump records the flows of the inbox. -/
theorem LogKept.pump {e : PmxEngine φ β} {log : List PmxConnEvent} (h : LogKept e log)
    (F : PmxFirewall φ) (B : PmxBackend β ω) (env : PumpEnv) :
    LogKept (pmxEnginePump F B e env) (log ++ e.inbox.map (loggedEvent e)) := by
  have hprelude : LogKept (pumpPrelude B e env) (log ++ e.inbox.map (loggedEvent e)) := by
    have hsnap : LogKept (engineRefreshSnapshot e env.snapAllocOk) log :=
      h.of_same rfl ⟨rfl, rfl, rfl, rfl⟩
    have hdrain := hsnap.foldl_pumpFlow B (engineRefreshSnapshot e env.snapAllocOk).inbox
    exact hdrain.of_same rfl ⟨rfl, rfl, rfl, rfl⟩
  rw [pmxEnginePump]
  split_ifs
  · obtain ⟨_, _, _, _, _, heq⟩ := watchHealth_frame (F := F) (pumpPrelude B e env) env
    rw [publishState, heq]
    exact hprelude.of_same rfl ⟨rfl, rfl, rfl, rfl⟩
  · exact hprelude.of_same rfl ⟨rfl, rfl, rfl, rfl⟩

/-! ### What the backend did -/

/-- What the backend did with a flow. -/
structure Inline where
  flowId : ℕ
  registered : Bool
  allowed : Bool
  deriving DecidableEq

/-- The verdict that tells what was done: the connect was dropped, redirected, or let out as it was. -/
def Inline.done (a : Inline) : PmxVerdict :=
  if !a.allowed then .block else if a.registered then .proxy else .direct

/-- The part of `wd_pump` up to the report of the flow. -/
def wdReport (e : PmxEngine φ WdImpl) (addr : WdAddr) (env : WdEventEnv) (allocOk : Bool) :
    PmxEngine φ WdImpl :=
  let e' := { e with backend := e.backend.counted }
  if e.backend.hasCb then engineOnFlow e' (wdFlow e.backend addr env) allocOk else e'

/-- The rest of the round, from the decision on. -/
def wdAnswer (e : PmxEngine φ WdImpl) (addr : WdAddr) (env : WdEventEnv) (f : PmxFlow) :
    PmxEngine φ WdImpl × Inline :=
  let d := wdDecision e.backend (pmxEngineDecide e) f
  let r := wdVerdict e.backend addr env f d
  ({ e with
      backend :=
        { r.1 with
            nAllowed := if r.2 then r.1.nAllowed + 1 else r.1.nAllowed
            nBlocked := if r.2 then r.1.nBlocked else r.1.nBlocked + 1 } },
    { flowId := f.flowId
      registered := decide (d.verdict = .proxy) && (wdRegister e.backend addr env f d).2
      allowed := r.2 })

theorem engineOnFlow_withBackend (e : PmxEngine φ β) (b : β) (f : PmxFlow) (allocOk : Bool) :
    engineOnFlow { e with backend := b } f allocOk
      = { engineOnFlow e f allocOk with backend := b } := by
  unfold engineOnFlow
  dsimp only
  split_ifs <;> rfl

/-- A report is not seen by the decision. -/
theorem pmxEngineDecide_engineOnFlow (e : PmxEngine φ β) (f : PmxFlow) (allocOk : Bool) :
    pmxEngineDecide (engineOnFlow e f allocOk) = pmxEngineDecide e := by
  funext g
  unfold engineOnFlow
  split_ifs <;> rfl

/-- The two parts, one right after the other, are one connect. -/
theorem wdAnswer_wdReport {e : PmxEngine φ WdImpl} {addr : WdAddr} (hgated : addr.gated e.backend = true)
    (env : WdEventEnv) (allocOk : Bool) :
    ((wdAnswer (wdReport e addr env allocOk) addr env (wdFlow e.backend addr env)).1,
      (wdAnswer (wdReport e addr env allocOk) addr env (wdFlow e.backend addr env)).2.allowed) =
      engineConnect e addr env allocOk := by
  rw [engineConnect, wdPump, if_pos hgated, wdReport]
  cases e.backend.hasCb with
  | true =>
    simp only [if_true, engineOnFlow_withBackend, wdAnswer]
    have hdecide : pmxEngineDecide
        { engineOnFlow e (wdFlow e.backend addr env) allocOk with backend := e.backend.counted }
          = pmxEngineDecide e :=
      pmxEngineDecide_engineOnFlow e (wdFlow e.backend addr env) allocOk
    rw [hdecide]
    rfl
  | false => rfl

/-- What the backend had before it as it answered a connect: the event, the flow it reported, its own state
and the snapshot. -/
structure Answered where
  addr : WdAddr
  env : WdEventEnv
  flow : PmxFlow
  im : WdImpl
  snap : PmxProfile

/-- What the snapshot resolves for the flow. -/
def Answered.decision (n : Answered) : PmxDecision :=
  wdDecision n.im (fun f => pmxResolveWithProfile n.snap f.query) n.flow

/-- The flow can be redirected, and the relay and the NAT table have room for it. -/
def Answered.Redirectable (n : Answered) : Prop :=
  wdRoutable n.addr n.flow n.decision = true ∧
    ∃ relay nat, n.im.relay = some relay ∧ n.im.nat = some nat ∧
      relay.Takes n.addr.localPort n.decision.viaCount n.env.expireMs ∧
      ¬nat.Full n.addr.localPort n.env.natMs

/-- The verdict is the one the snapshot gave; for a flow that was to be proxied and cannot be redirected, the
one the stance comes to. -/
def Answered.Tells (n : Answered) (v : PmxVerdict) : Prop :=
  match n.decision.verdict with
  | .direct => v = .direct
  | .block => v = .block
  | .proxy =>
    (n.Redirectable → v = .proxy) ∧
      (¬n.Redirectable → v = if n.im.blockWhenCannotProxy then .block else .direct)

/-- What the backend made of it. -/
def Answered.inline (n : Answered) : Inline where
  flowId := n.flow.flowId
  registered :=
    decide (n.decision.verdict = .proxy) && (wdRegister n.im n.addr n.env n.flow n.decision).2
  allowed := (wdVerdict n.im n.addr n.env n.flow n.decision).2

theorem wdAnswer_inline (e : PmxEngine φ WdImpl) (addr : WdAddr) (env : WdEventEnv) (f : PmxFlow) :
    (wdAnswer e addr env f).2 = Answered.inline ⟨addr, env, f, e.backend, e.snap⟩ := rfl

/-- When both tables take a flow. -/
theorem wdRegister_ok_iff (n : Answered) :
    (wdRegister n.im n.addr n.env n.flow n.decision).2 = true ↔ n.Redirectable := by
  rw [wdRegister]
  split
  · next relay nat hrelay hnat =>
    have hroom : n.Redirectable ↔ wdRoutable n.addr n.flow n.decision = true ∧
        relay.Takes n.addr.localPort n.decision.viaCount n.env.expireMs ∧
          ¬nat.Full n.addr.localPort n.env.natMs := by
      refine and_congr_right' ⟨?_, fun h => ⟨relay, nat, hrelay, hnat, h⟩⟩
      rintro ⟨relay', nat', hrelay', hnat', h⟩
      obtain rfl := Option.some.inj (hrelay.symm.trans hrelay')
      obtain rfl := Option.some.inj (hnat.symm.trans hnat')
      exact h
    rw [hroom]
    by_cases hroute : wdRoutable n.addr n.flow n.decision = true
    · rw [if_pos hroute, and_iff_right hroute]
      dsimp only
      split_ifs with hreg
      · have htakes := pmxRelayRegister_ok_iff.1 hreg
        rw [decide_eq_true_eq, and_iff_right htakes, ← pmxNatAdd_refused_iff htakes.1, not_not]
      · exact iff_of_false not_false fun h => hreg (pmxRelayRegister_ok_iff.2 h.1)
    · rw [if_neg hroute]
      exact iff_of_false Bool.false_ne_true fun h => hroute h.1
  · next hmissing =>
    refine iff_of_false Bool.false_ne_true fun h => ?_
    obtain ⟨-, relay, nat, hrelay, hnat, -⟩ := h
    exact hmissing relay nat hrelay hnat

/-- What became of a flow that was to be proxied. -/
theorem Answered.done_of_proxy {n : Answered} (hv : n.decision.verdict = .proxy) :
    n.inline.done =
      if (wdRegister n.im n.addr n.env n.flow n.decision).2 then .proxy
      else if n.im.blockWhenCannotProxy then .block else .direct := by
  rw [Inline.done, Answered.inline, wdVerdict_of_proxy hv, hv]
  cases (wdRegister n.im n.addr n.env n.flow n.decision).2 with
  | true => rfl
  | false => cases n.im.blockWhenCannotProxy <;> rfl

/-- The verdict that tells what was done is told by the snapshot, the room in the tables and the stance. -/
theorem Answered.tells_iff (n : Answered) (v : PmxVerdict) : n.Tells v ↔ v = n.inline.done := by
  rw [Answered.Tells]
  cases hv : n.decision.verdict with
  | direct =>
    rw [Inline.done, Answered.inline, wdVerdict, hv]
    exact Iff.rfl
  | block =>
    rw [Inline.done, Answered.inline, wdVerdict, hv]
    exact Iff.rfl
  | proxy =>
    have hok := wdRegister_ok_iff n
    rw [Answered.done_of_proxy hv]
    by_cases hroom : n.Redirectable
    · rw [if_pos (hok.2 hroom)]
      exact ⟨fun h => h.1 hroom, fun h => ⟨fun _ => h, fun hno => absurd hroom hno⟩⟩
    · rw [if_neg fun h => hroom (hok.1 h)]
      exact ⟨fun h => h.2 hroom, fun h => ⟨fun hyes => absurd hyes hroom, fun _ => h⟩⟩

/-- What the user's thread had before it as it recorded a flow: the flow, and the profile. -/
structure Recorded where
  flow : PmxFlow
  live : PmxProfile

/-- What the profile resolves for the flow. -/
def Recorded.decision (r : Recorded) : PmxDecision := pmxResolveWithProfile r.live r.flow.query

/-- The event it recorded. -/
def Recorded.event (r : Recorded) : PmxConnEvent := connEvent r.flow r.decision

/-! ### The system -/

/-- The engine over the backend, the connect that was reported and is not yet answered, what was done with
every flow, and every event that was recorded; beside the last two, what the threads had before them. -/
structure LogSystem (φ : Type) where
  sys : WdSystem φ
  pending : Option (WdAddr × WdEventEnv × PmxFlow)
  acted : List Inline
  answered : List Answered
  logged : List PmxConnEvent
  recorded : List Recorded

/-- A step of the system: the two parts of a connect, and the steps of the other threads. -/
inductive LogOp
  | report (addr : WdAddr) (env : WdEventEnv) (allocOk : Bool)
  | answer
  | call (c : UserCall)
  | startBackend (os : WdOs)
  | finishStart (stack : ℕ → List UInt8)
  | redirect (relay : PmxRelay) (nat : NatTable)
  | worker (op : WorkerOp)

/-- The events a call of the user's thread records. -/
def drainedEvents (s : WdSystem φ) : UserCall → List PmxConnEvent
  | .pump _ => if s.starting then [] else s.e.inbox.map (loggedEvent s.e)
  | .edit _ | .setPolicy _ | .load _ _ | .stop => []

/-- The flows it records them for. -/
def drainedFlows (s : WdSystem φ) : UserCall → List Recorded
  | .pump _ => if s.starting then [] else s.e.inbox.map fun f => ⟨f, s.e.profile⟩
  | .edit _ | .setPolicy _ | .load _ _ | .stop => []

/-- A stop joins the backend's thread, so it waits for the answer. -/
def logStep (F : PmxFirewall φ) (s : LogSystem φ) : LogOp → LogSystem φ
  | .report addr env allocOk =>
    if s.pending.isNone && s.sys.e.backend.running && addr.gated s.sys.e.backend then
      { s with
          sys := { s.sys with e := wdReport s.sys.e addr env allocOk }
          pending := some (addr, env, wdFlow s.sys.e.backend addr env) }
    else s
  | .answer =>
    match s.pending with
    | none => s
    | some (addr, env, f) =>
      let r := wdAnswer s.sys.e addr env f
      { s with
          sys := { s.sys with e := r.1 }
          pending := none
          acted := r.2 :: s.acted
          answered := ⟨addr, env, f, s.sys.e.backend, s.sys.e.snap⟩ :: s.answered }
  | .call .stop =>
    if s.pending.isSome then s else { s with sys := wdSystemStep F s.sys (.call .stop) }
  | .call c =>
    { s with
        sys := wdSystemStep F s.sys (.call c)
        logged := s.logged ++ drainedEvents s.sys c
        recorded := s.recorded ++ drainedFlows s.sys c }
  | .startBackend os => { s with sys := wdSystemStep F s.sys (.startBackend os) }
  | .finishStart stack => { s with sys := wdSystemStep F s.sys (.finishStart stack) }
  | .redirect relay nat => { s with sys := wdSystemStep F s.sys (.redirect relay nat) }
  | .worker op => { s with sys := wdSystemStep F s.sys (.worker op) }

def logSystemCreate (pf : PmxProfile) (fw : Option φ) (pid : UInt32) (allocOk : Fin 4 → Bool) :
    LogSystem φ where
  sys := wdSystemCreate pf fw pid allocOk
  pending := none
  acted := []
  answered := []
  logged := []
  recorded := []

/-! ### The log over runs -/

/-- What was recorded is what the engine shows, and every recorded flow is recorded as what was done. -/
structure LogTruthful (s : LogSystem φ) : Prop where
  kept : LogKept s.sys.e s.logged
  truthful : ∀ ev ∈ s.logged, ∀ a ∈ s.acted, a.flowId = ev.flowId → ev.verdict = a.done

/-- What the profile resolves for a recorded flow tells what became of it, if it was answered. -/
def Agreed (r : Recorded) (n : Answered) : Prop :=
  n.flow.flowId = r.flow.flowId → n.Tells r.decision.verdict

/-- The flows of a step agree: at a pump, those it records with those that were answered; at an answer, that
flow with those that were recorded before. -/
def LogAgrees (s : LogSystem φ) : LogOp → Prop
  | .call (.pump _) =>
    s.sys.starting = false → ∀ f ∈ s.sys.e.inbox, ∀ n ∈ s.answered, Agreed ⟨f, s.sys.e.profile⟩ n
  | .answer =>
    ∀ addr env f, s.pending = some (addr, env, f) →
      ∀ r ∈ s.recorded, Agreed r ⟨addr, env, f, s.sys.e.backend, s.sys.e.snap⟩
  | _ => True

theorem LogKept.report {e : PmxEngine φ WdImpl} {log : List PmxConnEvent} (h : LogKept e log)
    (addr : WdAddr) (env : WdEventEnv) (allocOk : Bool) : LogKept (wdReport e addr env allocOk) log := by
  rw [wdReport]
  split_ifs
  · rw [engineOnFlow]
    split_ifs
    · exact h.of_same rfl ⟨rfl, rfl, rfl, rfl⟩
    · exact h.of_same rfl ⟨rfl, rfl, rfl, rfl⟩
    · exact h.of_same rfl ⟨rfl, rfl, rfl, rfl⟩
  · exact h.of_same rfl ⟨rfl, rfl, rfl, rfl⟩

theorem LogKept.arm {e : PmxEngine φ WdImpl} {log : List PmxConnEvent} (h : LogKept e log)
    (F : PmxFirewall φ) (stack : ℕ → List UInt8) :
    LogKept (engineArm F pmxBackendWindivert e stack) log := by
  rcases rebuildAllowlist_cases (F := F) e stack with heq | ⟨-, heq⟩
  · rw [engineArm, heq]
    exact h.of_same rfl ⟨rfl, rfl, rfl, rfl⟩
  · rw [engineArm, heq]
    exact h.of_same rfl ⟨rfl, rfl, rfl, rfl⟩

/-- The calls of the user's thread. -/
theorem LogKept.call {s : WdSystem φ} {log : List PmxConnEvent} (h : LogKept s.e log)
    (F : PmxFirewall φ) (c : UserCall) :
    LogKept (wdSystemStep F s (.call c)).e (log ++ drainedEvents s c) := by
  rw [wdSystemStep]
  by_cases hstarting : s.starting = true
  · have hnone : drainedEvents s c = [] := by
      cases c with
      | pump env => exact if_pos hstarting
      | _ => rfl
    rw [if_pos hstarting, hnone, List.append_nil]
    exact h
  · rw [if_neg hstarting]
    cases c with
    | pump env =>
      have hdrained : drainedEvents s (.pump env) = s.e.inbox.map (loggedEvent s.e) := if_neg hstarting
      rw [hdrained]
      exact h.pump F pmxBackendWindivert env
    | edit pf =>
      rw [drainedEvents, List.append_nil]
      exact h.of_same rfl ⟨rfl, rfl, rfl, rfl⟩
    | setPolicy policy =>
      rw [drainedEvents, List.append_nil]
      exact h.of_same rfl ⟨rfl, rfl, rfl, rfl⟩
    | load loaded allocOk =>
      rw [drainedEvents, List.append_nil]
      show LogKept (pmxEngineLoadProfile F s.e loaded allocOk).1 log
      cases loaded with
      | error st =>
        rw [pmxEngineLoadProfile]
        split_ifs
        · exact h
        · exact h.of_same rfl ⟨rfl, rfl, rfl, rfl⟩
      | ok pf =>
        rw [pmxEngineLoadProfile]
        split_ifs
        · exact h
        · exact h.of_same rfl ⟨rfl, rfl, rfl, rfl⟩
    | stop =>
      rw [drainedEvents, List.append_nil]
      show LogKept (pmxEngineStop F pmxBackendWindivert s.e).1 log
      rw [pmxEngineStop]
      split_ifs
      · exact h
      · exact h.of_same rfl ⟨rfl, rfl, rfl, rfl⟩

/-- The log is kept, and what was done and what was recorded is what the threads made of what they had
before them. -/
structure LogInv (s : LogSystem φ) : Prop where
  kept : LogKept s.sys.e s.logged
  acted : s.acted = s.answered.map Answered.inline
  logged : s.logged = s.recorded.map Recorded.event

theorem drainedEvents_eq (s : WdSystem φ) (c : UserCall) :
    drainedEvents s c = (drainedFlows s c).map Recorded.event := by
  cases c with
  | pump env =>
    rw [drainedEvents, drainedFlows]
    split_ifs
    · rfl
    · rw [List.map_map]
      rfl
  | _ => rfl

theorem LogInv.step {s : LogSystem φ} (h : LogInv s) (F : PmxFirewall φ) (op : LogOp) :
    LogInv (logStep F s op) := by
  cases op with
  | report addr env allocOk =>
    rw [logStep]
    split_ifs
    · exact ⟨h.kept.report addr env allocOk, h.acted, h.logged⟩
    · exact h
  | answer =>
    rw [logStep]
    split
    · exact h
    · exact ⟨h.kept.of_same rfl ⟨rfl, rfl, rfl, rfl⟩, congrArg (List.cons _) h.acted, h.logged⟩
  | call c =>
    have hcall := h.kept.call F c
    have hlogged : s.logged ++ drainedEvents s.sys c
        = (s.recorded ++ drainedFlows s.sys c).map Recorded.event := by
      rw [List.map_append, ← h.logged, drainedEvents_eq]
    cases c with
    | stop =>
      rw [logStep]
      split_ifs
      · exact h
      · rw [drainedEvents, List.append_nil] at hcall
        exact ⟨hcall, h.acted, h.logged⟩
    | edit pf => exact ⟨hcall, h.acted, hlogged⟩
    | setPolicy policy => exact ⟨hcall, h.acted, hlogged⟩
    | load loaded allocOk => exact ⟨hcall, h.acted, hlogged⟩
    | pump env => exact ⟨hcall, h.acted, hlogged⟩
  | startBackend os =>
    refine ⟨?_, h.acted, h.logged⟩
    rw [logStep, wdSystemStep]
    split_ifs
    · exact h.kept
    · exact h.kept.of_same rfl ⟨rfl, rfl, rfl, rfl⟩
  | finishStart stack =>
    refine ⟨?_, h.acted, h.logged⟩
    rw [logStep, wdSystemStep]
    split_ifs
    · exact h.kept.arm F stack
    · exact h.kept
  | redirect relay nat => exact ⟨h.kept.of_same rfl ⟨rfl, rfl, rfl, rfl⟩, h.acted, h.logged⟩
  | worker op => exact ⟨h.kept.of_same rfl ⟨rfl, rfl, rfl, rfl⟩, h.acted, h.logged⟩

theorem LogInv.create (pf : PmxProfile) (fw : Option φ) (pid : UInt32) (allocOk : Fin 4 → Bool) :
    LogInv (logSystemCreate pf fw pid allocOk) where
  kept := ⟨rfl, ⟨rfl, rfl, rfl, rfl⟩⟩
  acted := rfl
  logged := rfl

/-- Every flow that was recorded agrees with what was answered. -/
def AllAgreed (s : LogSystem φ) : Prop := ∀ r ∈ s.recorded, ∀ n ∈ s.answered, Agreed r n

/-- The log is truthful exactly if what it was made from agrees. -/
theorem LogInv.truthful_iff {s : LogSystem φ} (h : LogInv s) : LogTruthful s ↔ AllAgreed s := by
  have hpair : ∀ r n, Agreed r n ↔
      (n.inline.flowId = r.event.flowId → r.event.verdict = n.inline.done) :=
    fun r n => imp_congr Iff.rfl (n.tells_iff _)
  constructor
  · intro htrue r hr n hn
    refine (hpair r n).2 (htrue.truthful r.event ?_ n.inline ?_)
    · rw [h.logged]
      exact List.mem_map_of_mem hr
    · rw [h.acted]
      exact List.mem_map_of_mem hn
  · intro hall
    refine ⟨h.kept, fun ev hev a ha => ?_⟩
    rw [h.logged] at hev
    rw [h.acted] at ha
    obtain ⟨r, hr, rfl⟩ := List.mem_map.1 hev
    obtain ⟨n, hn, rfl⟩ := List.mem_map.1 ha
    exact (hpair r n).1 (hall r hr n hn)

/-- A step that neither records nor answers. -/
theorem allAgreed_iff_of_same {s s' : LogSystem φ} (hall : AllAgreed s)
    (hanswered : s'.answered = s.answered) (hrecorded : s'.recorded = s.recorded) : AllAgreed s' ↔ True := by
  refine iff_true_intro ?_
  rw [AllAgreed, hanswered, hrecorded]
  exact hall

theorem allAgreed_answer {s : LogSystem φ} (hall : AllAgreed s) (F : PmxFirewall φ) :
    AllAgreed (logStep F s .answer) ↔ LogAgrees s .answer := by
  rw [LogAgrees]
  cases hpending : s.pending with
  | none =>
    rw [logStep, hpending]
    exact iff_of_true hall fun _ _ _ h => by cases h
  | some p =>
    obtain ⟨addr, env, f⟩ := p
    rw [logStep, hpending]
    constructor
    · intro h' addr' env' f' heq r hr
      obtain ⟨rfl, rfl, rfl⟩ : addr = addr' ∧ env = env' ∧ f = f' := by simpa using heq
      exact h' r hr _ List.mem_cons_self
    · intro hagree r hr n hn
      rcases List.mem_cons.1 hn with rfl | hold
      · exact hagree addr env f rfl r hr
      · exact hall r hr n hold

theorem allAgreed_pump {s : LogSystem φ} (hall : AllAgreed s) (F : PmxFirewall φ) (env : PumpEnv) :
    AllAgreed (logStep F s (.call (.pump env))) ↔ LogAgrees s (.call (.pump env)) := by
  rw [LogAgrees]
  constructor
  · intro h' hidle f hf n hn
    refine h' ⟨f, s.sys.e.profile⟩ (List.mem_append_right _ ?_) n hn
    rw [drainedFlows, hidle, if_neg Bool.false_ne_true]
    exact List.mem_map_of_mem hf
  · intro hagree r hr n hn
    rcases List.mem_append.1 hr with hold | hnew
    · exact hall r hold n hn
    · rw [drainedFlows] at hnew
      split_ifs at hnew with hstarting
      · cases hnew
      · obtain ⟨f, hf, rfl⟩ := List.mem_map.1 hnew
        exact hagree (Bool.eq_false_iff.2 hstarting) f hf n hn

/-- **One step.** -/
theorem allAgreed_step {s : LogSystem φ} (hall : AllAgreed s) (F : PmxFirewall φ) (op : LogOp) :
    AllAgreed (logStep F s op) ↔ LogAgrees s op := by
  cases op with
  | report addr env allocOk =>
    refine allAgreed_iff_of_same hall ?_ ?_
    · rw [logStep]
      split_ifs <;> rfl
    · rw [logStep]
      split_ifs <;> rfl
  | answer => exact allAgreed_answer hall F
  | call c =>
    cases c with
    | pump env => exact allAgreed_pump hall F env
    | stop =>
      refine allAgreed_iff_of_same hall ?_ ?_
      · rw [logStep]
        split_ifs <;> rfl
      · rw [logStep]
        split_ifs <;> rfl
    | edit pf => exact allAgreed_iff_of_same hall rfl (List.append_nil _)
    | setPolicy policy => exact allAgreed_iff_of_same hall rfl (List.append_nil _)
    | load loaded allocOk => exact allAgreed_iff_of_same hall rfl (List.append_nil _)
  | startBackend os => exact allAgreed_iff_of_same hall rfl rfl
  | finishStart stack => exact allAgreed_iff_of_same hall rfl rfl
  | redirect relay nat => exact allAgreed_iff_of_same hall rfl rfl
  | worker op => exact allAgreed_iff_of_same hall rfl rfl

/-- **When the log tells the truth.**  In every run of the engine over the backend, every state shows
every recorded flow, in the events and in the counters, as what was done with it, exactly when for every flow
that is both recorded and answered the profile at its pump gives DIRECT or BLOCK where the snapshot at its
answer did, and where that gave PROXY: PROXY if the flow can be redirected and both tables have room, else
what the stance comes to. -/
theorem logTruthful_iff (F : PmxFirewall φ) (pf : PmxProfile) (fw : Option φ) (pid : UInt32)
    (allocOk : Fin 4 → Bool) (ops : List LogOp) :
    Runs.EachState (logStep F) LogTruthful (logSystemCreate pf fw pid allocOk) ops ↔
      Runs.EachStep (logStep F) LogAgrees (logSystemCreate pf fw pid allocOk) ops := by
  have hinit := LogInv.create pf fw pid allocOk
  exact Runs.eachState_iff_eachStep LogInv (fun s op h => h.step F op)
    (fun s op h htrue => (h.step F op).truthful_iff.trans (allAgreed_step (h.truthful_iff.1 htrue) F op))
    ops _ hinit ⟨hinit.kept, fun ev hev => by cases hev⟩

/-- A UDP connect under a rule that proxies it, in fail-closed: it is dropped and counted as proxied. -/
theorem not_logTruthful_udp :
    let s := Runs.runFrom (logStep pmxFirewallStub)
      (logSystemCreate oneProxyProfile (some stubFwCreate) 7 fun _ => true)
      [.startBackend wdOsOk, .finishStart fun _ => [], .report wdUdpConnect wdPlainEnv true, .answer,
        .call (.pump ⟨2000, fun _ => true, true, fun _ => [], []⟩)]
    s.acted.map (fun a => (a.flowId, a.allowed, a.done)) = [(1, false, .block)] ∧
      s.logged.map (fun ev => (ev.flowId, ev.verdict)) = [(1, .proxy)] ∧
      s.sys.e.status.flowsProxied = 1 ∧ s.sys.e.status.flowsBlocked = 0 ∧ ¬LogTruthful s := by
  intro s
  have hacted : s.acted.map (fun a => (a.flowId, a.allowed, a.done)) = [(1, false, .block)] := by
    decide +kernel
  have hlogged : s.logged.map (fun ev => (ev.flowId, ev.verdict)) = [(1, .proxy)] := by
    decide +kernel
  refine ⟨hacted, hlogged, by decide +kernel, by decide +kernel, fun h => ?_⟩
  obtain ⟨a, ha, haeq⟩ := List.mem_map.1 (hacted ▸ List.mem_cons_self)
  obtain ⟨ev, hev, heveq⟩ := List.mem_map.1 (hlogged ▸ List.mem_cons_self)
  obtain ⟨hid, -, hdone⟩ : a.flowId = 1 ∧ a.allowed = false ∧ a.done = .block := by simpa using haeq
  obtain ⟨hid', hverdict⟩ : ev.flowId = 1 ∧ ev.verdict = .proxy := by simpa using heveq
  have hsame := h.truthful ev hev a ha (hid.trans hid'.symm)
  rw [hdone, hverdict] at hsame
  cases hsame

end ProxiMight
