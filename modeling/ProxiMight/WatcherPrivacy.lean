import ProxiMight.Engine
import ProxiMight.Runs

/-!
# What the health watcher asks for

The user's check options may ask for two extras that contact third parties: the egress address and a
ping.  The health checker is created with the options as they are, and every later change of its options
goes through `apply_check_opts`, which takes the extras out.  Its worker reads the options when it takes
a job, so a job may be older than the options it runs with.

* **`jobs_private`** — over runs: every job the health checker executes runs without the extras.
-/

namespace ProxiMight

/-- Neither of the extras is asked for. -/
def Stripped (opts : PmxCheckOpts) : Prop := opts.measureEgressIp = false ∧ opts.measurePing = false

/-- The job the worker starts in this step, with the options it takes. -/
def startedJob (chk : PmxChecker) (op : WorkerOp) : Option (CheckJob × PmxCheckOpts) :=
  if chk.taken = none then (workerStep chk op).taken else none

/-- The jobs the worker starts as it goes on. -/
def startedJobs : PmxChecker → List WorkerOp → List (CheckJob × PmxCheckOpts)
  | _, [] => []
  | chk, op :: ops => (startedJob chk op).toList ++ startedJobs (workerStep chk op) ops

section Jobs

variable {φ β ω : Type} (F : PmxFirewall φ) (B : PmxBackend β ω)

/-- The health checker when its worker goes on in the middle of a pump. -/
def pumpChecker (e : PmxEngine φ β) (env : PumpEnv) : PmxChecker :=
  if (pumpPrelude B e env).running = true ∧ Watching (pumpPrelude B e env) then
    (healthTick F (pumpPrelude B e env) env).healthCheck
  else (pumpPrelude B e env).healthCheck

/-- The jobs the health checker executes in a step of the engine's world. -/
def healthJobs (e : PmxEngine φ β) : EngineOp β ω → List (CheckJob × PmxCheckOpts)
  | .pump env => startedJobs (pumpChecker F B e env) env.worker
  | .worker op => startedJobs e.healthCheck [op]
  | _ => []

end Jobs

/-! ### The worker -/

/-- A checker that has jobs has stripped options. -/
def JobsStripped (chk : PmxChecker) : Prop := Stripped chk.opts ∨ chk.jobs = []

theorem workerStep_opts (chk : PmxChecker) (op : WorkerOp) :
    (workerStep chk op).opts = chk.opts := by
  cases op with
  | take => rw [workerStep, checkerTake]; split <;> rfl
  | deliver r allocOk => rw [workerStep, checkerDeliver]; split <;> rfl

/-- The worker adds no jobs. -/
theorem workerStep_jobs {chk : PmxChecker} (h : chk.jobs = []) (op : WorkerOp) :
    (workerStep chk op).jobs = [] := by
  cases op with
  | take =>
    rw [workerStep, checkerTake, h]
    split
    · next heq => cases heq
    · exact h
  | deliver r allocOk =>
    rw [workerStep, checkerDeliver]
    split
    · exact h
    · exact h

theorem JobsStripped.workerStep {chk : PmxChecker} (h : JobsStripped chk) (op : WorkerOp) :
    JobsStripped (workerStep chk op) := by
  rcases h with hopts | hjobs
  · exact Or.inl (by rw [workerStep_opts]; exact hopts)
  · exact Or.inr (workerStep_jobs hjobs op)

/-- A job is started with the options of that moment. -/
theorem startedJob_some {chk : PmxChecker} {op : WorkerOp} {job : CheckJob × PmxCheckOpts}
    (h : startedJob chk op = some job) : chk.jobs ≠ [] ∧ job.2 = chk.opts := by
  rw [startedJob] at h
  split_ifs at h with hfree
  cases op with
  | take =>
    rw [ProxiMight.workerStep, checkerTake] at h
    split at h
    · next heq =>
      rw [heq]
      exact ⟨List.cons_ne_nil _ _, (congrArg Prod.snd (Option.some.inj h)).symm⟩
    · rw [hfree] at h
      cases h
  | deliver r allocOk =>
    rw [ProxiMight.workerStep, checkerDeliver, hfree] at h
    rw [hfree] at h
    cases h

theorem JobsStripped.startedJobs {chk : PmxChecker} (h : JobsStripped chk) (ops : List WorkerOp) :
    ∀ job ∈ startedJobs chk ops, Stripped job.2 := by
  induction ops generalizing chk with
  | nil => intro job hjob; cases hjob
  | cons op ops ih =>
    intro job hjob
    rcases List.mem_append.1 hjob with hnow | hlater
    · obtain ⟨hjobs, hopts⟩ := startedJob_some (Option.mem_toList.1 hnow)
      rw [hopts]
      exact h.resolve_right hjobs
    · exact ih (h.workerStep op) job hlater

/-! ### The engine -/

section Engine

variable {φ β ω : Type} {F : PmxFirewall φ} {B : PmxBackend β ω} {e : PmxEngine φ β}

/-- The options are stripped, or the engine has never been started and nothing was submitted. -/
def WatcherPrivate (e : PmxEngine φ β) : Prop :=
  Stripped e.healthCheck.opts ∨ (e.healthCheck.jobs = [] ∧ e.running = false)

theorem WatcherPrivate.jobsStripped (h : WatcherPrivate e) : JobsStripped e.healthCheck :=
  h.imp id And.left

/-- A running engine has stripped the options. -/
theorem WatcherPrivate.running (h : WatcherPrivate e) (hrun : e.running = true) :
    Stripped e.healthCheck.opts :=
  h.resolve_right fun hidle => Bool.false_ne_true (hidle.2.symm.trans hrun)

theorem stripped_applyCheckOpts (e : PmxEngine φ β) :
    Stripped (applyCheckOpts e).healthCheck.opts := ⟨rfl, rfl⟩

theorem WatcherPrivate.of_same {e' : PmxEngine φ β} (h : WatcherPrivate e)
    (hchk : e'.healthCheck = e.healthCheck) (hrun : e'.running = e.running) : WatcherPrivate e' := by
  rw [WatcherPrivate, hchk, hrun]
  exact h

theorem runWorker_opts (e : PmxEngine φ β) (ops : List WorkerOp) :
    (runWorker e ops).healthCheck.opts = e.healthCheck.opts := by
  have hfold : ∀ (ops : List WorkerOp) (chk : PmxChecker),
      (ops.foldl workerStep chk).opts = chk.opts := by
    intro ops
    induction ops with
    | nil => intro chk; rfl
    | cons op ops ih => intro chk; rw [List.foldl_cons, ih, workerStep_opts]
  exact hfold ops e.healthCheck

theorem WatcherPrivate.runWorker (h : WatcherPrivate e) (ops : List WorkerOp) :
    WatcherPrivate (runWorker e ops) := by
  have hfold : ∀ (ops : List WorkerOp) (chk : PmxChecker), chk.jobs = [] →
      (ops.foldl workerStep chk).jobs = [] := by
    intro ops
    induction ops with
    | nil => intro chk hjobs; exact hjobs
    | cons op ops ih => intro chk hjobs; exact ih _ (workerStep_jobs hjobs op)
  rcases h with hopts | ⟨hjobs, hrun⟩
  · exact Or.inl (by rw [runWorker_opts]; exact hopts)
  · exact Or.inr ⟨hfold ops _ hjobs, hrun⟩

theorem healthTick_opts (e : PmxEngine φ β) (env : PumpEnv) :
    (healthTick F e env).healthCheck.opts = e.healthCheck.opts := by
  rw [healthTick]
  split_ifs
  · rw [probeWatched]
    split
    · dsimp only
      rw [rebuildAllowlist_healthCheck, pmxCheckerSubmit, enqueueJob]
      split_ifs <;> rfl
    · exact congrArg PmxChecker.opts (rebuildAllowlist_healthCheck e env.stack)
  · rfl

theorem watchHealth_opts (e : PmxEngine φ β) (env : PumpEnv) :
    (watchHealth F e env).healthCheck.opts = e.healthCheck.opts := by
  rw [watchHealth]
  split_ifs
  · rw [pollHealth, foldl_engineOnHealth]
    exact (runWorker_opts _ _).trans (healthTick_opts e env)
  · exact runWorker_opts e env.worker

theorem stripped_pumpChecker (h : WatcherPrivate e) (env : PumpEnv) :
    JobsStripped (pumpChecker F B e env) := by
  have hsame := pumpPrelude_sameWatch (B := B) e env
  have hpre : WatcherPrivate (pumpPrelude B e env) := h.of_same hsame.healthCheck hsame.running
  rw [pumpChecker]
  split_ifs with hwatch
  · exact Or.inl (by rw [healthTick_opts]; exact hpre.running hwatch.1)
  · exact hpre.jobsStripped

theorem WatcherPrivate.pump (h : WatcherPrivate e) (env : PumpEnv) :
    WatcherPrivate (pmxEnginePump F B e env) := by
  have hsame := pumpPrelude_sameWatch (B := B) e env
  have hpre : WatcherPrivate (pumpPrelude B e env) := h.of_same hsame.healthCheck hsame.running
  rw [pmxEnginePump]
  split_ifs with hrun
  · refine Or.inl ?_
    show Stripped (watchHealth F (pumpPrelude B e env) env).healthCheck.opts
    rw [watchHealth_opts]
    exact hpre.running hrun
  · exact hpre.runWorker env.worker

theorem WatcherPrivate.step (e : PmxEngine φ β) (op : EngineOp β ω) (h : WatcherPrivate e) :
    WatcherPrivate (engineStep F B e op) := by
  cases op with
  | edit pf => exact h
  | setPolicy policy => exact h
  | load loaded allocOk =>
    show WatcherPrivate (pmxEngineLoadProfile F e loaded allocOk).1
    cases loaded with
    | error st =>
      rw [pmxEngineLoadProfile]
      split_ifs <;> exact h
    | ok pf =>
      rw [pmxEngineLoadProfile]
      split_ifs
      · exact h
      · exact Or.inl (stripped_applyCheckOpts _)
  | start os stack =>
    show WatcherPrivate (pmxEngineStart F B e os stack).1
    rw [pmxEngineStart]
    dsimp only
    split_ifs
    · exact h
    · exact Or.inl (stripped_applyCheckOpts e)
    · refine Or.inl ?_
      show Stripped (rebuildAllowlist F (engineStartBackend B e os).1 stack).healthCheck.opts
      rw [rebuildAllowlist_healthCheck]
      exact stripped_applyCheckOpts e
  | stop =>
    show WatcherPrivate (pmxEngineStop F B e).1
    rw [pmxEngineStop]
    split_ifs
    · exact h
    · exact h.imp id fun hidle => ⟨hidle.1, rfl⟩
  | pump env => exact h.pump env
  | flow f allocOk =>
    show WatcherPrivate (engineOnFlow e f allocOk)
    rw [engineOnFlow]
    split_ifs <;> exact h
  | backend b => exact h
  | worker op => exact h.runWorker [op]

theorem WatcherPrivate.create (pf : PmxProfile) (fw : Option φ) (backend : β)
    (allocOk : Fin 4 → Bool) : WatcherPrivate (pmxEngineCreate B pf fw backend allocOk) :=
  Or.inr ⟨rfl, rfl⟩

/-- One step executes stripped jobs only. -/
theorem WatcherPrivate.jobs (h : WatcherPrivate e) (op : EngineOp β ω) :
    ∀ job ∈ healthJobs F B e op, Stripped job.2 := by
  cases op with
  | pump env => exact (stripped_pumpChecker h env).startedJobs env.worker
  | worker op => exact h.jobsStripped.startedJobs [op]
  | _ => intro job hjob; cases hjob

end Engine

/-- **The health watcher contacts no third party.**  In every run of the engine's world, whatever the
user's check options are and become, each job the health checker executes runs without the extras. -/
theorem jobs_private {φ β ω : Type} (F : PmxFirewall φ) (B : PmxBackend β ω) (pf : PmxProfile)
    (fw : Option φ) (backend : β) (allocOk : Fin 4 → Bool) (ops : List (EngineOp β ω)) :
    Runs.EachStep (engineStep F B)
      (fun e op => ∀ job ∈ healthJobs F B e op,
        job.2.measureEgressIp = false ∧ job.2.measurePing = false)
      (pmxEngineCreate B pf fw backend allocOk) ops :=
  Runs.eachStep_of_inv WatcherPrivate WatcherPrivate.step (fun _ op h => h.jobs op) ops _
    (WatcherPrivate.create pf fw backend allocOk)

end ProxiMight
