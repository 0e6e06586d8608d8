import ProxiMight.Backend
import ProxiMight.Runs
import ProxiMight.SlotTable

/-!
# The demo traffic of the stub backend (`backend_stub.c`)

A stub backend that is started with demo traffic has a worker that reports made-up flows.  Its owner calls
`stub_start`, `stub_stop` and `stub_set_flow_cb` one after the other; the worker takes its steps between the
calls and within them.  Threads are numbered as they are started.

* **`stubDemo_orderly`** — the flows are numbered through over all restarts, none is reported twice or out of
  order, or while the backend is stopped; between the calls it is the stub of `Backend`.
* **`stubStop_returns`** — the worker that `stub_stop` joins ends within three of its steps.
-/

namespace ProxiMight

open CString

/-! ### The flows -/

def kApps : List String :=
  ["chrome.exe", "firefox.exe", "msedge.exe", "Spotify.exe", "Discord.exe", "curl.exe", "steam.exe",
    "slack.exe", "Code.exe", "thunderbird.exe"]

def kHosts : List String :=
  ["example.com", "api.github.com", "cdn.jsdelivr.net", "youtube.com", "discord.com", "10.0.0.5",
    "192.168.1.10", "localhost", "raw.githubusercontent.com", "1.1.1.1"]

def kPorts : List PmxPort := [443, 80, 443, 8080, 443, 22, 443, 53]

/-- The flow that `demo_worker` makes of the counter. -/
def demoFlow (i : UInt64) (now : ℕ) : PmxFlow :=
  let appName : CBuf pmxMaxName := strlcpy pmxMaxName (bytes (kApps.getD (i.toNat % kApps.length) ""))
  let dstPort := kPorts.getD (i.toNat % kPorts.length) 0
  { flowId := (i + 1).toNat
    appName := appName
    appPath := strlcpy pmxMaxPath (bytes "C:\\Apps\\" ++ appName.str)
    pid := UInt32.ofNat (1000 + i.toNat % 50)
    dstHost := strlcpy pmxMaxHost (bytes (kHosts.getD ((i * 3 + 1).toNat % kHosts.length) ""))
    dstPort := dstPort
    udp := dstPort == 53
    createdMs := now }

/-! ### The threads -/

/-- Where a worker stands: before the test of its loop, of the loop in which it sleeps, asleep, before the
test behind it, before it makes a flow, and before the callback that it has read. -/
inductive DemoStage
  | outer
  | inner (slept : ℕ)
  | sleeping (slept : ℕ)
  | check
  | making
  | calling (cb : Option ℕ) (flow : PmxFlow)
  | gone
  deriving DecidableEq

/-- Where the owner stands: between calls, before `pmx_thread_start`, or joining a worker. -/
inductive StubOwner
  | idle
  | starting (cfg : PmxBackendConfig)
  | joining (worker : ℕ)
  deriving DecidableEq

/-- A call of the owner that has returned, with the answer to its `pmx_thread_start`. -/
inductive StubCall
  | start (threadOk : Bool) (cfg : PmxBackendConfig)
  | stop
  deriving DecidableEq

/-- `stub_impl` and its threads.  What was made, what was reported to which callback, and the calls are
ghosts. -/
structure StubDemo where
  running : Bool
  intervalMs : ℤ
  thread : Option ℕ
  counter : UInt64
  cb : Option ℕ
  workers : List DemoStage
  owner : StubOwner
  made : List PmxFlow
  reports : List (ℕ × PmxFlow)
  calls : List StubCall
  deriving DecidableEq

/-- `pmx_backend_stub_create`. -/
def stubDemoCreate : StubDemo where
  running := false
  intervalMs := 1500
  thread := none
  counter := 0
  cb := none
  workers := []
  owner := .idle
  made := []
  reports := []
  calls := []

inductive DemoOp
  | start (cfg : PmxBackendConfig)
  | threadStart (ok : Bool)
  | stop
  | joined
  | setFlowCb (cb : Option ℕ)
  | work (i now : ℕ)
  deriving DecidableEq

namespace StubDemo

/-- Worker `i` goes on. -/
def move (s : StubDemo) (i : ℕ) (stage : DemoStage) : StubDemo :=
  { s with workers := s.workers.set i stage }

/-- The first part of `stub_start`. -/
def started (s : StubDemo) (cfg : PmxBackendConfig) : StubDemo :=
  { s with
      running := true
      intervalMs := if cfg.demoIntervalMs > 0 then cfg.demoIntervalMs else 1500 }

/-- A call returns. -/
def returns (s : StubDemo) (call : StubCall) : StubDemo :=
  { s with owner := .idle, calls := s.calls ++ [call] }

/-- `demo_worker`, one step of worker `i`. -/
def work (s : StubDemo) (i now : ℕ) : StubDemo :=
  match s.workers[i]? with
  | some .outer => s.move i (if s.running then .inner 0 else .gone)
  | some (.inner slept) =>
    s.move i (if s.running = true ∧ (slept : ℤ) < s.intervalMs then .sleeping slept else .check)
  | some (.sleeping slept) => s.move i (.inner (slept + 50))
  | some .check => s.move i (if s.running then .making else .gone)
  | some .making =>
    { s.move i (.calling s.cb (demoFlow s.counter now)) with
        counter := s.counter + 1
        made := s.made ++ [demoFlow s.counter now] }
  | some (.calling cb flow) =>
    { s.move i .outer with reports := s.reports ++ cb.toList.map fun user => (user, flow) }
  | some .gone => s
  | none => s

end StubDemo

/-- A step that a thread cannot take where it stands changes nothing. -/
def demoStep (s : StubDemo) : DemoOp → StubDemo
  | .start cfg =>
    if s.owner ≠ .idle then s
    else if s.running then s.returns (.start false cfg)
    else if cfg.demoTraffic then { s.started cfg with owner := .starting cfg }
    else (s.started cfg).returns (.start false cfg)
  | .threadStart ok =>
    match s.owner with
    | .starting cfg =>
      if ok then
        { s.returns (.start true cfg) with
            thread := some s.workers.length
            workers := s.workers ++ [.outer] }
      else s.returns (.start false cfg)
    | _ => s
  | .stop =>
    if s.owner ≠ .idle then s
    else
      let stopped := { s with running := false, thread := none }
      match s.thread with
      | none => stopped.returns .stop
      | some t => { stopped with owner := .joining t }
  | .joined =>
    match s.owner with
    | .joining t => if s.workers[t]? = some .gone then s.returns .stop else s
    | _ => s
  | .setFlowCb cb => if s.owner = .idle then { s with cb := cb } else s
  | .work i now => s.work i now

/-- A call on the stub of the engine's model. -/
def stubCallStep (im : StubImpl) : StubCall → StubImpl
  | .start threadOk cfg => (pmxBackendStub.start threadOk im cfg).1
  | .stop => (pmxBackendStub.stop im).1

namespace StubDemo

variable {s s' : StubDemo}

/-- The stub of the engine's model that this one is. -/
def view (s : StubDemo) : StubImpl := ⟨s.running, s.intervalMs, s.thread.isSome⟩

/-- What its calls have made of it there. -/
def called (s : StubDemo) : StubImpl := Runs.runFrom stubCallStep stubImplCreate s.calls

/-- The worker that may be alive. -/
def awaited (s : StubDemo) : Option ℕ :=
  match s.owner with
  | .joining t => some t
  | _ => s.thread

/-- The place of the owner. -/
def OwnerInv (s : StubDemo) : Prop :=
  match s.owner with
  | .idle => s.view = s.called ∧ (s.running = false → s.thread = none)
  | .starting cfg => s.view = (stubStart false s.called cfg).1 ∧ s.called.running = false ∧
      s.running = true ∧ s.thread = none ∧ cfg.demoTraffic = true
  | .joining _ => s.view = (stubStop s.called).1 ∧ s.running = false ∧ s.thread = none

structure Inv (s : StubDemo) : Prop where
  owner : s.OwnerInv
  alone : ∀ i stage, s.workers[i]? = some stage → stage ≠ .gone → s.awaited = some i
  there : ∀ i, s.awaited = some i → i < s.workers.length
  counted : s.counter = UInt64.ofNat s.made.length
  numbered : ∀ i f, s.made[i]? = some f → f = demoFlow (UInt64.ofNat i) f.createdMs
  reported : (s.reports.map (·.2)).Sublist s.made
  pending : ∀ (i : ℕ) (cb : Option ℕ) (f : PmxFlow), s.workers[i]? = some (.calling cb f) →
    (s.reports.map (·.2) ++ [f]).Sublist s.made

/-! ### The worker -/

/-- A worker that goes on stays the one that may be alive. -/
theorem Inv.alone_move (h : s.Inv) {i : ℕ} {stage : DemoStage} (hi : s.workers[i]? = some stage)
    (halive : stage ≠ .gone) (stage' : DemoStage) :
    (∀ j st, (s.workers.set i stage')[j]? = some st → st ≠ .gone → s.awaited = some j) ∧
      ∀ j, j ≠ i → ∀ st, (s.workers.set i stage')[j]? = some st → st = .gone := by
  have hmine := h.alone i stage hi halive
  have hothers : ∀ j, j ≠ i → ∀ st, (s.workers.set i stage')[j]? = some st → st = .gone := by
    intro j hj st hst
    rw [List.getElem?_set_ne (Ne.symm hj)] at hst
    by_contra hgone
    exact hj (Option.some.inj ((h.alone j st hst hgone).symm.trans hmine))
  refine ⟨fun j st hst hgone => ?_, hothers⟩
  by_cases hj : j = i
  · rw [hj, hmine]
  · exact absurd (hothers j hj st hst) hgone

/-- A step that only moves the worker, to a place where it has no flow. -/
theorem Inv.move (h : s.Inv) {i : ℕ} {stage : DemoStage} (hi : s.workers[i]? = some stage)
    (halive : stage ≠ .gone) (stage' : DemoStage) (hnone : ∀ cb f, stage' ≠ .calling cb f) :
    (s.move i stage').Inv := by
  obtain ⟨halone, hothers⟩ := h.alone_move hi halive stage'
  refine ⟨h.owner, halone, ?_, h.counted, h.numbered, h.reported, fun j cb f hst => ?_⟩
  · intro j hj
    show j < (s.workers.set i stage').length
    rw [List.length_set]
    exact h.there j hj
  · by_cases hj : j = i
    · obtain ⟨hlt, -⟩ := List.getElem?_eq_some_iff.1 hi
      rw [hj, show (s.move i stage').workers = s.workers.set i stage' from rfl,
        List.getElem?_set_self hlt] at hst
      exact absurd (Option.some.inj hst) (hnone cb f)
    · cases hothers j hj _ hst

theorem Inv.work (h : s.Inv) (i now : ℕ) : (s.work i now).Inv := by
  unfold StubDemo.work
  split
  · next hi =>
    refine h.move hi DemoStage.noConfusion _ fun cb f => ?_
    split_ifs <;> exact DemoStage.noConfusion
  · next slept hi =>
    refine h.move hi DemoStage.noConfusion _ fun cb f => ?_
    split_ifs <;> exact DemoStage.noConfusion
  · next slept hi => exact h.move hi DemoStage.noConfusion _ fun cb f => DemoStage.noConfusion
  · next hi =>
    refine h.move hi DemoStage.noConfusion _ fun cb f => ?_
    split_ifs <;> exact DemoStage.noConfusion
  · next hi =>
    obtain ⟨halone, hothers⟩ := h.alone_move hi DemoStage.noConfusion (.calling s.cb (demoFlow s.counter now))
    refine ⟨h.owner, halone, ?_, ?_, ?_, ?_, ?_⟩
    · intro j hj
      show j < (s.workers.set i _).length
      rw [List.length_set]
      exact h.there j hj
    · show s.counter + 1 = UInt64.ofNat (s.made ++ [_]).length
      rw [h.counted, List.length_append, List.length_singleton, UInt64.ofNat_add]
      rfl
    · intro j f hf
      rcases Nat.lt_trichotomy j s.made.length with hlt | rfl | hgt
      · rw [List.getElem?_append_left hlt] at hf
        exact h.numbered j f hf
      · rw [List.getElem?_concat_length] at hf
        obtain rfl := Option.some.inj hf
        rw [h.counted]
        rfl
      · rw [List.getElem?_eq_none (by rw [List.length_append, List.length_singleton]; omega)] at hf
        cases hf
    · exact h.reported.trans (List.sublist_append_left _ _)
    · intro j cb f hst
      by_cases hj : j = i
      · obtain ⟨hlt, -⟩ := List.getElem?_eq_some_iff.1 hi
        rw [hj, show (s.move i _).workers = s.workers.set i _ from rfl, List.getElem?_set_self hlt] at hst
        cases hst
        exact List.Sublist.append h.reported (List.Sublist.refl _)
      · cases hothers j hj _ hst
  · next cb flow hi =>
    obtain ⟨halone, hothers⟩ := h.alone_move hi DemoStage.noConfusion .outer
    refine ⟨h.owner, halone, ?_, h.counted, h.numbered, ?_, ?_⟩
    · intro j hj
      show j < (s.workers.set i _).length
      rw [List.length_set]
      exact h.there j hj
    · have hpending := h.pending i cb flow hi
      cases cb with
      | none =>
        show ((s.reports ++ []).map Prod.snd).Sublist s.made
        rw [List.append_nil]
        exact h.reported
      | some user =>
        show ((s.reports ++ [(user, flow)]).map Prod.snd).Sublist s.made
        rw [List.map_append]
        exact hpending
    · intro j cb' f hst
      by_cases hj : j = i
      · obtain ⟨hlt, -⟩ := List.getElem?_eq_some_iff.1 hi
        rw [hj, show (s.move i _).workers = s.workers.set i _ from rfl, List.getElem?_set_self hlt] at hst
        cases hst
      · cases hothers j hj _ hst
  · exact h
  · exact h

/-! ### The owner -/

theorem called_returns (s : StubDemo) (call : StubCall) :
    (s.returns call).called = stubCallStep s.called call := List.foldl_concat _ _ _ _

/-- The owner goes on, with the workers as they are. -/
theorem Inv.owns (h : s.Inv) (howner : s'.OwnerInv) (hworkers : s'.workers = s.workers)
    (hawaited : s'.awaited = s.awaited) (hcounter : s'.counter = s.counter) (hmade : s'.made = s.made)
    (hreports : s'.reports = s.reports) : s'.Inv := by
  refine ⟨howner, ?_, ?_, ?_, ?_, ?_, ?_⟩
  · rw [hworkers, hawaited]
    exact h.alone
  · rw [hworkers, hawaited]
    exact h.there
  · rw [hcounter, hmade]
    exact h.counted
  · rw [hmade]
    exact h.numbered
  · rw [hreports, hmade]
    exact h.reported
  · rw [hworkers, hreports, hmade]
    exact h.pending

theorem view_started (hview : s.view = s.called) (hoff : s.running = false) (cfg : PmxBackendConfig) :
    (s.started cfg).view = (stubStart false s.called cfg).1 := by
  rw [← hview, stubStart, if_neg (by rw [view, hoff]; exact Bool.false_ne_true)]
  simp [view, started]

theorem Inv.start (h : s.Inv) (cfg : PmxBackendConfig) : (demoStep s (.start cfg)).Inv := by
  rw [demoStep]
  split_ifs with hbusy hrunning hdemo
  · exact h
  · have hidle := not_not.1 hbusy
    have howner := h.owner
    rw [OwnerInv, hidle] at howner
    obtain ⟨hview, hrest⟩ := howner
    refine h.owns ?_ rfl (by rw [awaited, awaited, hidle]; rfl) rfl rfl rfl
    refine ⟨?_, hrest⟩
    have hon : s.called.running = true := by rw [← hview]; exact hrunning
    rw [called_returns, stubCallStep]
    show s.view = (stubStart false s.called cfg).1
    rw [hview, stubStart, if_pos hon]
  · have hidle := not_not.1 hbusy
    have howner := h.owner
    rw [OwnerInv, hidle] at howner
    obtain ⟨hview, hrest⟩ := howner
    have hoff : s.running = false := by simpa using hrunning
    have hcalled : s.called.running = false := by rw [← hview]; exact hoff
    refine h.owns ⟨view_started hview hoff cfg, hcalled, rfl, hrest hoff, hdemo⟩ rfl ?_ rfl rfl rfl
    rw [show s.awaited = s.thread by rw [awaited, hidle]]
    rfl
  · have hidle := not_not.1 hbusy
    have howner := h.owner
    rw [OwnerInv, hidle] at howner
    obtain ⟨hview, -⟩ := howner
    have hoff : s.running = false := by simpa using hrunning
    refine h.owns ⟨?_, fun hstop => absurd hstop.symm Bool.noConfusion⟩ rfl ?_ rfl rfl rfl
    · rw [called_returns, stubCallStep]
      exact view_started hview hoff cfg
    · rw [show s.awaited = s.thread by rw [awaited, hidle]]
      rfl

theorem Inv.threadStart (h : s.Inv) (ok : Bool) : (demoStep s (.threadStart ok)).Inv := by
  rw [demoStep]
  split
  · next cfg hstarting =>
    have howner := h.owner
    rw [OwnerInv, hstarting] at howner
    obtain ⟨hview, hcalled, hon, hnone, hdemo⟩ := howner
    have hoff : ¬s.called.running = true := by rw [hcalled]; exact Bool.false_ne_true
    rw [stubStart, if_neg hoff] at hview
    have hthread : s.called.demoThread = false := by
      have hsame := congrArg StubImpl.demoThread hview
      rw [view, hnone] at hsame
      simpa using hsame.symm
    have hinterval := congrArg StubImpl.intervalMs hview
    have hawaited : s.awaited = none := by rw [awaited, hstarting, hnone]
    have hgone : ∀ (i : ℕ) (stage : DemoStage), s.workers[i]? = some stage → stage = .gone := by
      intro i stage hi
      by_contra halive
      rw [h.alone i stage hi halive] at hawaited
      cases hawaited
    split_ifs with hok
    · refine ⟨⟨?_, fun hstop => ?_⟩, ?_, ?_, h.counted, h.numbered, h.reported, ?_⟩
      · show StubImpl.mk s.running s.intervalMs true = (s.returns (.start true cfg)).called
        rw [called_returns, stubCallStep]
        show _ = (stubStart true s.called cfg).1
        rw [stubStart, if_neg hoff, hon, hdemo, hthread]
        exact congrArg (StubImpl.mk true · true) hinterval
      · exact absurd (hon.symm.trans hstop) Bool.noConfusion
      · intro i stage hi halive
        rcases Nat.lt_trichotomy i s.workers.length with hlt | rfl | hgt
        · rw [List.getElem?_append_left hlt] at hi
          exact absurd (hgone i stage hi) halive
        · rfl
        · rw [List.getElem?_eq_none (by rw [List.length_append, List.length_singleton]; omega)] at hi
          cases hi
      · intro i hi
        obtain rfl := Option.some.inj hi
        show s.workers.length < (s.workers ++ [_]).length
        rw [List.length_append]
        exact Nat.lt_succ_self _
      · intro i cb f hi
        rcases Nat.lt_trichotomy i s.workers.length with hlt | rfl | hgt
        · rw [List.getElem?_append_left hlt] at hi
          cases hgone i _ hi
        · rw [List.getElem?_concat_length] at hi
          cases hi
        · rw [List.getElem?_eq_none (by rw [List.length_append, List.length_singleton]; omega)] at hi
          cases hi
    · refine h.owns ⟨?_, fun _ => hnone⟩ rfl (by rw [awaited, awaited, hstarting]; rfl) rfl rfl rfl
      rw [called_returns, stubCallStep]
      show s.view = (stubStart false s.called cfg).1
      rw [stubStart, if_neg hoff, hview]
  · exact h

theorem Inv.stop (h : s.Inv) : (demoStep s .stop).Inv := by
  rw [demoStep]
  split_ifs with hbusy
  · exact h
  · have hidle := not_not.1 hbusy
    have howner := h.owner
    rw [OwnerInv, hidle] at howner
    obtain ⟨hview, -⟩ := howner
    have hstopped : StubImpl.mk false s.intervalMs false = (stubStop s.called).1 := by
      rw [← hview]
      rfl
    dsimp only
    cases hthread : s.thread with
    | none =>
      refine h.owns ⟨?_, fun _ => rfl⟩ rfl (by rw [awaited, awaited, hidle, hthread]; rfl) rfl rfl rfl
      rw [called_returns]
      exact hstopped
    | some t =>
      refine h.owns ⟨hstopped, rfl, rfl⟩ rfl ?_ rfl rfl rfl
      rw [awaited, awaited, hidle, hthread]

theorem Inv.joined (h : s.Inv) : (demoStep s .joined).Inv := by
  rw [demoStep]
  split
  · next t hjoining =>
    split_ifs with hgone
    · have howner := h.owner
      rw [OwnerInv, hjoining] at howner
      obtain ⟨hview, hoff, hnone⟩ := howner
      have hawaited : s.awaited = some t := by rw [awaited, hjoining]
      refine ⟨⟨?_, fun _ => hnone⟩, ?_, ?_, h.counted, h.numbered, h.reported, h.pending⟩
      · rw [called_returns]
        exact hview
      · intro i stage hi halive
        obtain rfl := Option.some.inj ((h.alone i stage hi halive).symm.trans hawaited)
        exact absurd (Option.some.inj (hgone.symm.trans hi)).symm halive
      · intro i hi
        rw [show (s.returns .stop).awaited = s.thread from rfl, hnone] at hi
        cases hi
    · exact h
  · exact h

theorem Inv.setFlowCb (h : s.Inv) (cb : Option ℕ) : (demoStep s (.setFlowCb cb)).Inv := by
  rw [demoStep]
  split_ifs with hidle
  · exact h.owns h.owner rfl rfl rfl rfl rfl
  · exact h

theorem Inv.step (s : StubDemo) (op : DemoOp) (h : s.Inv) : (demoStep s op).Inv := by
  cases op with
  | start cfg => exact h.start cfg
  | threadStart ok => exact h.threadStart ok
  | stop => exact h.stop
  | joined => exact h.joined
  | setFlowCb cb => exact h.setFlowCb cb
  | work i now => exact h.work i now

theorem Inv.create : stubDemoCreate.Inv := by
  have hnone : ∀ {α : Type} (i : ℕ) (a : α), ([] : List α)[i]? ≠ some a := fun i a h => by simp at h
  refine ⟨⟨rfl, fun _ => rfl⟩, ?_, ?_, rfl, ?_, List.Sublist.slnil, ?_⟩
  · exact fun i stage hi => absurd hi (hnone i stage)
  · exact fun i hi => absurd hi.symm (Option.some_ne_none i)
  · exact fun i f hf => absurd hf (hnone i f)
  · exact fun i cb f hi => absurd hi (hnone i _)

theorem Inv.run (ops : List DemoOp) : (Runs.runFrom demoStep stubDemoCreate ops).Inv :=
  Runs.runFrom_inv Inv Inv.step ops _ Inv.create

/-! ### Stopped -/

/-- A backend that is stopped: no worker is alive. -/
structure Quiet (s : StubDemo) : Prop where
  idle : s.owner = .idle
  off : s.running = false
  unowned : s.thread = none
  gone : ∀ (i : ℕ) (stage : DemoStage), s.workers[i]? = some stage → stage = .gone

theorem Inv.quiet (h : s.Inv) (hidle : s.owner = .idle) (hoff : s.running = false) : s.Quiet := by
  have howner := h.owner
  rw [OwnerInv, hidle] at howner
  have hnone := howner.2 hoff
  refine ⟨hidle, hoff, hnone, fun i stage hi => ?_⟩
  by_contra halive
  have hawaited := h.alone i stage hi halive
  rw [awaited, hidle] at hawaited
  exact Option.some_ne_none i (hawaited.symm.trans hnone)

/-- A stopped backend stays so until it is started, and reports nothing. -/
theorem Quiet.step (h : s.Quiet) {op : DemoOp} (hop : ∀ cfg, op ≠ .start cfg) :
    (demoStep s op).Quiet ∧ (demoStep s op).reports = s.reports := by
  cases op with
  | start cfg => exact absurd rfl (hop cfg)
  | threadStart ok => rw [demoStep, h.idle]; exact ⟨h, rfl⟩
  | stop =>
    rw [demoStep, if_neg (not_not.2 h.idle)]
    dsimp only
    rw [h.unowned]
    exact ⟨⟨rfl, rfl, rfl, h.gone⟩, rfl⟩
  | joined => rw [demoStep, h.idle]; exact ⟨h, rfl⟩
  | setFlowCb cb =>
    rw [demoStep, if_pos h.idle]
    exact ⟨⟨h.idle, h.off, h.unowned, h.gone⟩, rfl⟩
  | work i now =>
    have hsame : s.work i now = s := by
      unfold StubDemo.work
      cases hi : s.workers[i]? with
      | none => rfl
      | some stage =>
        obtain rfl := h.gone i stage hi
        rfl
    rw [demoStep, hsame]
    exact ⟨h, rfl⟩

theorem Quiet.run (h : s.Quiet) {ops : List DemoOp} (hops : ∀ op ∈ ops, ∀ cfg, op ≠ .start cfg) :
    (Runs.runFrom demoStep s ops).reports = s.reports := by
  have hkeeps := Runs.runFrom_inv_of_mem (fun s' : StubDemo => s'.Quiet ∧ s'.reports = s.reports)
    (G := fun op => ∀ cfg, op ≠ DemoOp.start cfg)
    (fun s' op hop h' => ⟨(h'.1.step hop).1, (h'.1.step hop).2.trans h'.2⟩) ops s hops ⟨h, rfl⟩
  exact hkeeps.2

end StubDemo

open StubDemo in
/-- **The demo traffic is orderly.**  In every run: the flows made are numbered through, over all starts; what
is reported is some of them, in their order and none twice; between its calls the backend is the stub of the
engine's model after the same calls; and once it is stopped it reports nothing until it is started. -/
theorem stubDemo_orderly (ops after : List DemoOp) :
    let s := Runs.runFrom demoStep stubDemoCreate ops
    (∀ i f, s.made[i]? = some f → f = demoFlow (UInt64.ofNat i) f.createdMs) ∧
      (s.reports.map (·.2)).Sublist s.made ∧
      (s.owner = .idle → s.view = Runs.runFrom stubCallStep stubImplCreate s.calls) ∧
      (s.owner = .idle → s.running = false → (∀ op ∈ after, ∀ cfg, op ≠ .start cfg) →
        (Runs.runFrom demoStep s after).reports = s.reports) := by
  intro s
  have h : s.Inv := Inv.run ops
  refine ⟨h.numbered, h.reported, fun hidle => ?_, fun hidle hoff hafter => (h.quiet hidle hoff).run hafter⟩
  have howner := h.owner
  rw [OwnerInv, hidle] at howner
  exact howner.1

/-! ### The stop returns -/

/-- What a worker has ahead of it that is to end. -/
def DemoStage.ahead : DemoStage → ℕ
  | .gone => 0
  | .outer => 1
  | .check => 1
  | .inner _ => 2
  | .calling _ _ => 2
  | .sleeping _ => 3
  | .making => 3

namespace StubDemo

variable {s s' : StubDemo}

/-- What the owner has to wait for in a stop. -/
def ahead (s : StubDemo) : ℕ :=
  match s.owner with
  | .joining t => ((s.workers[t]?).map DemoStage.ahead).getD 0 + 1
  | _ => 0

/-- A step within a call. -/
def Moves (s : StubDemo) (op : DemoOp) : Prop := s.owner ≠ .idle ∧ demoStep s op ≠ s

/-- Joining, or back. -/
def Ending (s : StubDemo) : Prop := s.owner = .idle ∨ ∃ t, s.owner = .joining t

/-- A worker that goes on, where it is the one joined. -/
theorem ahead_move {t i : ℕ} {stage stage' : DemoStage} (hjoining : s.owner = .joining t)
    (hmine : s.awaited = some i) (hi : s.workers[i]? = some stage) (hless : stage'.ahead < stage.ahead)
    (howner : s'.owner = s.owner) (hworkers : s'.workers = s.workers.set i stage') :
    s'.Ending ∧ s'.ahead < s.ahead := by
  rw [awaited, hjoining] at hmine
  obtain rfl := Option.some.inj hmine
  obtain ⟨hlt, -⟩ := List.getElem?_eq_some_iff.1 hi
  refine ⟨Or.inr ⟨t, howner.trans hjoining⟩, ?_⟩
  rw [ahead, ahead, howner, hworkers, hjoining]
  dsimp only
  rw [hi, List.getElem?_set_self hlt]
  exact Nat.succ_lt_succ hless

/-- **A step within a stop** takes from what is ahead. -/
theorem ahead_step (h : s.Inv) (hending : s.Ending) {op : DemoOp} (hmoves : Moves s op) :
    (demoStep s op).Ending ∧ (demoStep s op).ahead < s.ahead := by
  obtain ⟨hbusy, hmove⟩ := hmoves
  obtain ⟨t, hjoining⟩ := hending.resolve_left hbusy
  have howner := h.owner
  rw [OwnerInv, hjoining] at howner
  obtain ⟨-, hoff, -⟩ := howner
  cases op with
  | start cfg => exact absurd (if_pos hbusy) hmove
  | threadStart ok => exact absurd (by rw [demoStep, hjoining]) hmove
  | stop => exact absurd (if_pos hbusy) hmove
  | setFlowCb cb => exact absurd (if_neg hbusy) hmove
  | joined =>
    rw [demoStep, hjoining] at hmove ⊢
    dsimp only at hmove ⊢
    split_ifs at hmove ⊢ with hgone
    · refine ⟨Or.inl rfl, ?_⟩
      rw [show (s.returns .stop).ahead = 0 from rfl, ahead, hjoining]
      exact Nat.succ_pos _
    · exact absurd rfl hmove
  | work i now =>
    rw [demoStep] at hmove ⊢
    unfold StubDemo.work at hmove ⊢
    cases hi : s.workers[i]? with
    | none =>
      rw [hi] at hmove
      exact absurd rfl hmove
    | some stage =>
      have hmine : stage ≠ .gone → s.awaited = some i := h.alone i stage hi
      cases stage with
      | outer =>
        refine ahead_move hjoining (hmine DemoStage.noConfusion) hi ?_ rfl rfl
        rw [hoff]
        exact Nat.zero_lt_one
      | inner slept =>
        refine ahead_move hjoining (hmine DemoStage.noConfusion) hi ?_ rfl rfl
        rw [hoff, if_neg fun hon => Bool.false_ne_true hon.1]
        exact Nat.lt_succ_self 1
      | sleeping slept =>
        refine ahead_move hjoining (hmine DemoStage.noConfusion) hi ?_ rfl rfl
        exact Nat.lt_succ_self 2
      | check =>
        refine ahead_move hjoining (hmine DemoStage.noConfusion) hi ?_ rfl rfl
        rw [hoff]
        exact Nat.zero_lt_one
      | making =>
        refine ahead_move hjoining (hmine DemoStage.noConfusion) hi ?_ rfl rfl
        exact Nat.lt_succ_self 2
      | calling cb flow =>
        refine ahead_move hjoining (hmine DemoStage.noConfusion) hi ?_ rfl rfl
        exact Nat.lt_succ_self 1
      | gone =>
        rw [hi] at hmove
        exact absurd rfl hmove

/-- The owner or the worker it joins can go on. -/
theorem exists_step (h : s.Inv) {t : ℕ} (hjoining : s.owner = .joining t) :
    ∃ op : DemoOp, demoStep s op ≠ s := by
  have howner := h.owner
  rw [OwnerInv, hjoining] at howner
  obtain ⟨-, hoff, -⟩ := howner
  have hlt : t < s.workers.length := h.there t (by rw [awaited, hjoining])
  obtain ⟨stage, hstage⟩ : ∃ stage, s.workers[t]? = some stage := ⟨_, List.getElem?_eq_getElem hlt⟩
  by_cases hgone : stage = .gone
  · refine ⟨.joined, fun hsame => ?_⟩
    rw [demoStep, hjoining] at hsame
    dsimp only at hsame
    rw [if_pos (by rw [hstage, hgone])] at hsame
    exact absurd ((congrArg StubDemo.owner hsame).trans hjoining) StubOwner.noConfusion
  · have hother : ∀ stage', stage' ≠ stage → s.workers.set t stage' ≠ s.workers := by
      intro stage' hne hsame
      have hself : (s.workers.set t stage')[t]? = some stage' := List.getElem?_set_self hlt
      rw [hsame, hstage] at hself
      exact hne (Option.some.inj hself).symm
    refine ⟨.work t 0, fun hsame => ?_⟩
    have hworkers := congrArg StubDemo.workers hsame
    rw [demoStep] at hworkers
    unfold StubDemo.work at hworkers
    rw [hstage] at hworkers
    cases stage with
    | outer =>
      refine hother _ ?_ hworkers
      rw [hoff]
      exact DemoStage.noConfusion
    | inner slept =>
      refine hother _ ?_ hworkers
      split_ifs <;> exact DemoStage.noConfusion
    | check =>
      refine hother _ ?_ hworkers
      rw [hoff]
      exact DemoStage.noConfusion
    | sleeping slept => exact hother _ DemoStage.noConfusion hworkers
    | making => exact hother _ DemoStage.noConfusion hworkers
    | calling cb flow => exact hother _ DemoStage.noConfusion hworkers
    | gone => exact hgone rfl

theorem ahead_le (s : StubDemo) : s.ahead ≤ 4 := by
  rw [ahead]
  split
  · next t _ =>
    cases s.workers[t]? with
    | none => exact Nat.le_add_left 1 3
    | some stage => cases stage <;> exact Nat.le_of_ble_eq_true rfl
  · exact Nat.zero_le 4

end StubDemo

open StubDemo in
/-- **`stub_stop` returns.**  From where it joins the worker, the worker ends within three of its steps, and
until the stop has returned one of the two can go on. -/
theorem stubStop_returns (ops after : List DemoOp) (t : ℕ)
    (hjoining : (Runs.runFrom demoStep stubDemoCreate ops).owner = .joining t)
    (hmoves : Runs.EachStep demoStep Moves (Runs.runFrom demoStep stubDemoCreate ops) after) :
    after.length ≤ 4 ∧
      ((Runs.runFrom demoStep stubDemoCreate (ops ++ after)).owner = .idle ∨
        ∃ op, demoStep (Runs.runFrom demoStep stubDemoCreate (ops ++ after)) op
          ≠ Runs.runFrom demoStep stubDemoCreate (ops ++ after)) := by
  have hstart : (Runs.runFrom demoStep stubDemoCreate ops).Inv ∧
      (Runs.runFrom demoStep stubDemoCreate ops).Ending := ⟨Inv.run ops, Or.inr ⟨t, hjoining⟩⟩
  have hkeeps : ∀ s op, s.Inv ∧ s.Ending → Moves s op → (demoStep s op).Inv ∧ (demoStep s op).Ending :=
    fun s op h hmove => ⟨Inv.step s op h.1, (ahead_step h.1 h.2 hmove).1⟩
  constructor
  · have hcount := Runs.countP_add_rank_le _ StubDemo.ahead (G := fun _ => true) hkeeps
      (fun s op h hmove => (ahead_step h.1 h.2 hmove).2) after _ hstart hmoves
    have hbound := StubDemo.ahead_le (Runs.runFrom demoStep stubDemoCreate ops)
    rw [List.countP_true] at hcount
    omega
  · rw [Runs.runFrom, List.foldl_append]
    obtain ⟨h, hending⟩ := Runs.runFrom_of_guarded _ hkeeps after _ hstart hmoves
    rcases hending with hidle | ⟨t', hjoining'⟩
    · exact Or.inl hidle
    · exact Or.inr (exists_step h hjoining')

/-- The backend is stopped while its worker sleeps, and the stop is back after four moves. -/
theorem stubStop_returns_asleep :
    let ops := [DemoOp.start pmxBackendConfigDefaults, .threadStart true, .work 0 0, .work 0 0, .stop]
    let after := [DemoOp.work 0 0, .work 0 0, .work 0 0, .joined]
    (Runs.runFrom demoStep stubDemoCreate ops).owner = .joining 0 ∧ after.length ≤ 4 ∧
      (Runs.runFrom demoStep stubDemoCreate (ops ++ after)).owner = .idle :=
  ⟨by decide,
    (stubStop_returns
      [.start pmxBackendConfigDefaults, .threadStart true, .work 0 0, .work 0 0, .stop]
      [.work 0 0, .work 0 0, .work 0 0, .joined] 0 (by decide)
      ⟨⟨by decide, by decide⟩, ⟨by decide, by decide⟩, ⟨by decide, by decide⟩, ⟨by decide, by decide⟩,
        trivial⟩).1,
    by decide⟩

end ProxiMight
