import ProxiMight.HealthTrip
import Mathlib.Data.List.Forall2

/-!
# What drives the kill switch

Probes run on the health checker's thread and their results wait in a queue, whatever the engine does in
the meantime.  To tell which session a probe belongs to, a traced engine carries a ghost: the number of
the session each job and each result was submitted in.  The code keeps no such thing and reads none.

* **`fresh_of_guarded`** — as long as no session starts over a busy checker and no tick changes the
  watched proxy over an unread result, every observation is of the watched proxy and of this session.
* **`stale_results_lift`** — without either, a stale result drives the controller.
-/

namespace ProxiMight

open CString

/-- The sessions of the probes in the checker, in the order of its queues, and the session now. -/
structure ProbeTags where
  session : ℕ
  jobs : List ℕ
  taken : Option ℕ
  results : List ℕ
  deriving DecidableEq

/-- A probe is submitted. -/
def tagSubmit (t : ProbeTags) (allocOk : Bool) : ProbeTags :=
  if allocOk then { t with jobs := t.jobs ++ [t.session] } else t

/-- The worker takes a job or delivers its result. -/
def tagWorker (chk : PmxChecker) (t : ProbeTags) : WorkerOp → ProbeTags
  | .take =>
    match chk.running, chk.taken, chk.jobs with
    | true, none, _ :: _ => { t with jobs := t.jobs.drop 1, taken := t.jobs.head? }
    | _, _, _ => t
  | .deliver _ allocOk =>
    match chk.taken with
    | none => t
    | some _ =>
      { t with
          taken := none
          results := if allocOk then t.results ++ t.taken.toList else t.results }

/-- The checker and its tags, as the worker goes on. -/
def tracedWorker (s : PmxChecker × ProbeTags) (op : WorkerOp) : PmxChecker × ProbeTags :=
  (workerStep s.1 op, tagWorker s.1 s.2 op)

section Traced

variable {φ β ω : Type} (F : PmxFirewall φ) (B : PmxBackend β ω)

/-- The tags after the health tick. -/
def tagTick (e : PmxEngine φ β) (env : PumpEnv) (t : ProbeTags) : ProbeTags :=
  if TickDue e env ∧ (pmxProfileFindProxy e.profile (watchedId e.profile)).isSome then
    tagSubmit t env.submitAllocOk
  else t

/-- The engine when a pump starts to poll. -/
def pollingEngine (e : PmxEngine φ β) (env : PumpEnv) : PmxEngine φ β :=
  runWorker (healthTick F e env) env.worker

/-- The tags when a pump starts to poll. -/
def pollingTags (e : PmxEngine φ β) (env : PumpEnv) (t : ProbeTags) : ProbeTags :=
  (env.worker.foldl tracedWorker ((healthTick F e env).healthCheck, tagTick e env t)).2

/-- The tags after a pump, from what its prelude leaves. -/
def tagPump (e : PmxEngine φ β) (env : PumpEnv) (t : ProbeTags) : ProbeTags :=
  if e.running = true ∧ Watching e then { pollingTags F e env t with results := [] }
  else (env.worker.foldl tracedWorker (e.healthCheck, t)).2

/-- The engine with the sessions of its probes. -/
structure TracedEngine (φ β : Type) where
  engine : PmxEngine φ β
  tags : ProbeTags

/-- The start arms the controller. -/
def Starts (e : PmxEngine φ β) (os : ω) : Prop :=
  e.running = false ∧ (engineStartBackend B e os).2 = .ok

instance (e : PmxEngine φ β) (os : ω) : Decidable (Starts B e os) :=
  inferInstanceAs (Decidable (_ ∧ _))

def tracedTags (s : TracedEngine φ β) : EngineOp β ω → ProbeTags
  | .start os _ =>
    if Starts B s.engine os then { s.tags with session := s.tags.session + 1 } else s.tags
  | .pump env => tagPump F (pumpPrelude B s.engine env) env s.tags
  | .worker op => tagWorker s.engine.healthCheck s.tags op
  | _ => s.tags

def tracedStep (s : TracedEngine φ β) (op : EngineOp β ω) : TracedEngine φ β :=
  ⟨engineStep F B s.engine op, tracedTags F B s op⟩

/-- A new engine, before its first session. -/
def tracedCreate (pf : PmxProfile) (fw : Option φ) (backend : β) (allocOk : Fin 4 → Bool) :
    TracedEngine φ β :=
  ⟨pmxEngineCreate B pf fw backend allocOk, ⟨0, [], none, []⟩⟩

/-- Each of the results is of the proxy `id` and of this session. -/
def FreshResults (id : PmxId) (rs : List PmxCheckResult) (t : ProbeTags) : Prop :=
  List.Forall₂ (fun r s => r.proxyId = id ∧ s = t.session) rs t.results

/-- Every observation the step makes from a probe result is of the proxy watched at that moment, and of
a probe submitted since the controller was armed. -/
def FreshStep (s : TracedEngine φ β) : EngineOp β ω → Prop
  | .pump env =>
    (pumpPrelude B s.engine env).running = true → Watching (pumpPrelude B s.engine env) →
      FreshResults (pollingEngine F (pumpPrelude B s.engine env) env).healthProxyId
        (pollingEngine F (pumpPrelude B s.engine env) env).healthCheck.results
        (pollingTags F (pumpPrelude B s.engine env) env s.tags)
  | _ => True

/-- No session starts while a probe is queued, running or unread, and no tick moves on to another proxy
while a result is unread. -/
def Guarded (s : TracedEngine φ β) : EngineOp β ω → Prop
  | .start os _ =>
    Starts B s.engine os →
      s.engine.healthCheck.jobs = [] ∧ s.engine.healthCheck.taken = none ∧
        s.engine.healthCheck.results = []
  | .pump env =>
    s.engine.running = true → Watching s.engine → TickDue s.engine env →
      watchedId s.engine.profile ≠ s.engine.healthProxyId → s.engine.healthCheck.results = []
  | _ => True

instance (s : TracedEngine φ β) (op : EngineOp β ω) : Decidable (FreshStep F B s op) :=
  match op with
  | .pump _ => inferInstanceAs (Decidable (_ → _ → List.Forall₂ _ _ _))
  | .edit _ | .setPolicy _ | .load _ _ | .start _ _ | .stop | .flow _ _ | .backend _ | .worker _ =>
    isTrue trivial

instance (s : TracedEngine φ β) (op : EngineOp β ω) : Decidable (Guarded B s op) :=
  match op with
  | .start _ _ => inferInstanceAs (Decidable (_ → _ ∧ _ ∧ _))
  | .pump _ => inferInstanceAs (Decidable (_ → _ → _ → _ → _))
  | .edit _ | .setPolicy _ | .load _ _ | .stop | .flow _ _ | .backend _ | .worker _ => isTrue trivial

end Traced

/-! ### Fresh probes -/

/-- Every probe in the checker is of the proxy `id` and of this session. -/
structure ProbesFresh (id : PmxId) (chk : PmxChecker) (t : ProbeTags) : Prop where
  jobs : List.Forall₂ (fun j s => j.proxy.id = id ∧ s = t.session) chk.jobs t.jobs
  taken : (chk.taken = none ∧ t.taken = none) ∨
    ∃ j opts, chk.taken = some (j, opts) ∧ t.taken = some t.session ∧ j.proxy.id = id
  results : FreshResults id chk.results t
  pending : chk.pending = chk.jobs.length + (if chk.taken.isSome then 1 else 0)

variable {id : PmxId} {chk : PmxChecker} {t : ProbeTags}

/-- The worker takes the first job with its tag, or there is nothing it can take. -/
theorem checkerTake_cases (chk : PmxChecker) (t : ProbeTags) :
    (∃ job jobs, chk.taken = none ∧ chk.jobs = job :: jobs ∧
      checkerTake chk = { chk with jobs := jobs, taken := some (job, chk.opts) } ∧
      tagWorker chk t .take = { t with jobs := t.jobs.drop 1, taken := t.jobs.head? }) ∨
    (checkerTake chk = chk ∧ tagWorker chk t .take = t) := by
  rw [checkerTake, tagWorker]
  cases hrun : chk.running with
  | false => exact Or.inr ⟨rfl, rfl⟩
  | true =>
    cases htaken : chk.taken with
    | some _ => exact Or.inr ⟨rfl, rfl⟩
    | none =>
      cases hjobs : chk.jobs with
      | nil => exact Or.inr ⟨rfl, rfl⟩
      | cons job jobs => exact Or.inl ⟨job, jobs, rfl, rfl, rfl, rfl⟩

theorem ProbesFresh.take (h : ProbesFresh id chk t) :
    ProbesFresh id (checkerTake chk) (tagWorker chk t .take) := by
  rcases checkerTake_cases chk t with ⟨job, jobs, htaken, hjobs, hchk, htags⟩ | ⟨hchk, htags⟩
  · have hfresh := h.jobs
    have hpending := h.pending
    rw [hjobs, htaken] at hpending
    rw [hjobs] at hfresh
    cases htag : t.jobs with
    | nil => rw [htag] at hfresh; cases hfresh
    | cons s ss =>
      rw [htag, List.forall₂_cons] at hfresh
      obtain ⟨⟨hid, rfl⟩, hrest⟩ := hfresh
      rw [hchk, htags, htag]
      exact ⟨hrest, Or.inr ⟨job, chk.opts, rfl, rfl, hid⟩, h.results, hpending⟩
  · rw [hchk, htags]
    exact h

theorem ProbesFresh.deliver (h : ProbesFresh id chk t) (r : PmxCheckResult) (allocOk : Bool) :
    ProbesFresh id (checkerDeliver chk r allocOk) (tagWorker chk t (.deliver r allocOk)) := by
  rcases h.taken with ⟨hchk, -⟩ | ⟨job, opts, hchk, htag, hid⟩
  · rw [checkerDeliver, tagWorker, hchk]
    exact h
  · have hpending := h.pending
    rw [hchk] at hpending
    rw [checkerDeliver, tagWorker, hchk, htag]
    refine ⟨h.jobs, Or.inl ⟨rfl, rfl⟩, ?_, ?_⟩
    · cases allocOk with
      | false => exact h.results
      | true =>
        exact List.rel_append h.results (List.Forall₂.cons ⟨hid, rfl⟩ List.Forall₂.nil)
    · show chk.pending - 1 = chk.jobs.length + 0
      rw [hpending]
      rfl

theorem ProbesFresh.workers (h : ProbesFresh id chk t) (ops : List WorkerOp) :
    ProbesFresh id (ops.foldl workerStep chk) (ops.foldl tracedWorker (chk, t)).2 := by
  induction ops generalizing chk t with
  | nil => exact h
  | cons op ops ih =>
    cases op with
    | take => exact ih h.take
    | deliver r allocOk => exact ih (h.deliver r allocOk)

theorem ProbesFresh.submit (h : ProbesFresh id chk t) {p : PmxProxy} (hid : p.id = id)
    (allocOk : Bool) :
    ProbesFresh id (pmxCheckerSubmit chk p allocOk).1 (tagSubmit t allocOk) := by
  cases allocOk with
  | false => exact h
  | true =>
    refine ⟨List.rel_append h.jobs (List.Forall₂.cons ⟨hid, rfl⟩ List.Forall₂.nil), h.taken,
      h.results, ?_⟩
    show chk.pending + 1 = (chk.jobs ++ [_]).length + (if chk.taken.isSome then 1 else 0)
    rw [h.pending, List.length_append, List.length_singleton]
    omega

/-- With nothing in it, the checker is fresh for any proxy and any session. -/
theorem ProbesFresh.of_empty (h : ProbesFresh id chk t) (hjobs : chk.jobs = [])
    (htaken : chk.taken = none) (hresults : chk.results = []) (id' : PmxId) (session : ℕ) :
    ProbesFresh id' chk { t with session := session } := by
  obtain ⟨hj, ht, hr, hp⟩ := h
  rw [hjobs, List.forall₂_nil_left_iff] at hj
  rw [FreshResults, hresults, List.forall₂_nil_left_iff] at hr
  refine ⟨?_, ?_, ?_, hp⟩
  · rw [hjobs]
    show List.Forall₂ _ [] t.jobs
    rw [hj]
    exact List.Forall₂.nil
  · rcases ht with h | ⟨_, _, hsome, -⟩
    · exact Or.inl h
    · rw [htaken] at hsome
      cases hsome
  · rw [hresults]
    show List.Forall₂ _ [] t.results
    rw [hr]
    exact List.Forall₂.nil

/-- Nothing pending means no job queued and none with the worker. -/
theorem ProbesFresh.of_pending_zero (h : ProbesFresh id chk t) (hzero : pmxCheckerPending chk = 0) :
    chk.jobs = [] ∧ chk.taken = none := by
  have hp := h.pending
  rw [show chk.pending = 0 from hzero] at hp
  refine ⟨List.eq_nil_of_length_eq_zero (by omega), ?_⟩
  cases htaken : chk.taken with
  | none => rfl
  | some j => rw [htaken] at hp; simp at hp

theorem ProbesFresh.setOpts (h : ProbesFresh id chk t) (opts : PmxCheckOpts) :
    ProbesFresh id (pmxCheckerSetOpts chk opts) t :=
  ⟨h.jobs, h.taken, h.results, h.pending⟩

/-! ### One step -/

section Step

variable {φ β ω : Type} {F : PmxFirewall φ} {B : PmxBackend β ω}

/-- What a tick that is due leaves of the watcher. -/
theorem healthTick_watcher {e : PmxEngine φ β} {env : PumpEnv} (h : TickDue e env) :
    (healthTick F e env).healthProxyId = watchedId e.profile ∧
    (healthTick F e env).healthCheck =
      match pmxProfileFindProxy e.profile (watchedId e.profile) with
      | some p => (pmxCheckerSubmit e.healthCheck p env.submitAllocOk).1
      | none => e.healthCheck := by
  rw [healthTick, if_pos h, probeWatched]
  dsimp only
  rw [rebuildAllowlist_profile, rebuildAllowlist_healthProxyId]
  cases pmxProfileFindProxy e.profile (watchedId e.profile) with
  | none =>
    exact ⟨rebuildAllowlist_healthProxyId (F := F) e env.stack,
      rebuildAllowlist_healthCheck (F := F) e env.stack⟩
  | some p =>
    dsimp only
    rw [rebuildAllowlist_healthCheck]
    exact ⟨rebuildAllowlist_healthProxyId (F := F) e env.stack, rfl⟩

/-- The tick: a probe is submitted for the proxy that is watched from now on. -/
theorem ProbesFresh.tick {e : PmxEngine φ β} (h : ProbesFresh e.healthProxyId e.healthCheck t)
    (env : PumpEnv)
    (hguard : TickDue e env → watchedId e.profile ≠ e.healthProxyId → e.healthCheck.results = []) :
    ProbesFresh (healthTick F e env).healthProxyId (healthTick F e env).healthCheck
      (tagTick e env t) := by
  by_cases hdue : TickDue e env
  · obtain ⟨hjobs, htaken⟩ := h.of_pending_zero hdue.2
    have hwatch : ProbesFresh (watchedId e.profile) e.healthCheck t := by
      by_cases hid : watchedId e.profile = e.healthProxyId
      · rw [hid]
        exact h
      · exact h.of_empty hjobs htaken (hguard hdue hid) (watchedId e.profile) t.session
    obtain ⟨hid, hchk⟩ := healthTick_watcher (F := F) hdue
    rw [hid, hchk, tagTick]
    cases hfind : pmxProfileFindProxy e.profile (watchedId e.profile) with
    | none =>
      rw [if_neg (fun h => Bool.false_ne_true h.2)]
      exact hwatch
    | some p =>
      rw [if_pos ⟨hdue, rfl⟩]
      exact hwatch.submit (pmxProfileFindProxy_some hfind).2.1 env.submitAllocOk
  · rw [healthTick_of_not_due hdue, tagTick, if_neg (fun h => hdue h.1)]
    exact h

theorem ProbesFresh.polling {e : PmxEngine φ β} (h : ProbesFresh e.healthProxyId e.healthCheck t)
    (env : PumpEnv)
    (hguard : TickDue e env → watchedId e.profile ≠ e.healthProxyId → e.healthCheck.results = []) :
    ProbesFresh (pollingEngine F e env).healthProxyId (pollingEngine F e env).healthCheck
      (pollingTags F e env t) :=
  (h.tick (F := F) env hguard).workers env.worker

/-- The probes of the engine are of the proxy it watches and of the session it is in. -/
def AllFresh (s : TracedEngine φ β) : Prop :=
  ProbesFresh s.engine.healthProxyId s.engine.healthCheck s.tags

theorem AllFresh.pump {s : TracedEngine φ β} (h : AllFresh s) (env : PumpEnv)
    (hguard : Guarded B s (.pump env)) :
    FreshStep F B s (.pump env) ∧ AllFresh (tracedStep F B s (.pump env)) := by
  have hsame := pumpPrelude_sameWatch (B := B) s.engine env
  have hprelude : ProbesFresh (pumpPrelude B s.engine env).healthProxyId
      (pumpPrelude B s.engine env).healthCheck s.tags := by
    rw [hsame.healthProxyId, hsame.healthCheck]
    exact h
  have hpolling : (pumpPrelude B s.engine env).running = true →
      Watching (pumpPrelude B s.engine env) →
      ProbesFresh (pollingEngine F (pumpPrelude B s.engine env) env).healthProxyId
        (pollingEngine F (pumpPrelude B s.engine env) env).healthCheck
        (pollingTags F (pumpPrelude B s.engine env) env s.tags) := by
    intro hrun hwatch
    apply hprelude.polling env
    rw [TickDue, hsame.profile, hsame.lastHealthSubmitMs, hsame.healthCheck, hsame.healthProxyId]
    rw [Watching, hsame.profile, hsame.healthProxyId] at hwatch
    exact hguard (by rw [← hsame.running, hrun]) hwatch
  refine ⟨?_, ?_⟩
  · intro hrun hwatch
    exact (hpolling hrun hwatch).results
  · show ProbesFresh (pmxEnginePump F B s.engine env).healthProxyId
      (pmxEnginePump F B s.engine env).healthCheck (tagPump F (pumpPrelude B s.engine env) env s.tags)
    rw [pmxEnginePump, tagPump]
    by_cases hrun : (pumpPrelude B s.engine env).running = true
    · rw [if_pos hrun, watchHealth]
      by_cases hwatch : Watching (pumpPrelude B s.engine env)
      · obtain ⟨hjobs, htaken, -, hpending⟩ := hpolling hrun hwatch
        rw [if_pos hwatch, if_pos ⟨hrun, hwatch⟩, pollHealth_eq]
        exact ⟨hjobs, htaken, List.Forall₂.nil, hpending⟩
      · rw [if_neg hwatch, if_neg (fun h => hwatch h.2)]
        exact hprelude.workers env.worker
    · rw [if_neg hrun, if_neg (fun h => hrun h.1)]
      exact hprelude.workers env.worker

theorem AllFresh.start {s : TracedEngine φ β} (h : AllFresh s) (os : ω) (stack : ℕ → List UInt8)
    (hguard : Guarded B s (.start os stack)) :
    AllFresh (tracedStep F B s (.start os stack)) := by
  show ProbesFresh (pmxEngineStart F B s.engine os stack).1.healthProxyId
    (pmxEngineStart F B s.engine os stack).1.healthCheck
    (if Starts B s.engine os then { s.tags with session := s.tags.session + 1 } else s.tags)
  rw [pmxEngineStart]
  by_cases hrun : s.engine.running = true
  · rw [if_pos hrun, if_neg (fun h => by rw [h.1] at hrun; cases hrun)]
    exact h
  · have hstopped : s.engine.running = false := Bool.not_eq_true _ ▸ hrun
    rw [if_neg hrun]
    dsimp only
    by_cases hst : (engineStartBackend B s.engine os).2 = .ok
    · -- a session starts: nothing of an earlier one is left
      obtain ⟨hjobs, htaken, hresults⟩ := hguard ⟨hstopped, hst⟩
      rw [if_neg (not_not.2 hst), if_pos ⟨hstopped, hst⟩]
      have hempty := h.of_empty hjobs htaken hresults
        (watchedId (engineStartBackend B s.engine os).1.profile) (s.tags.session + 1)
      show ProbesFresh (rebuildAllowlist F (engineStartBackend B s.engine os).1 stack).healthProxyId
        (rebuildAllowlist F (engineStartBackend B s.engine os).1 stack).healthCheck _
      rw [rebuildAllowlist_healthProxyId, rebuildAllowlist_healthCheck]
      exact hempty.setOpts _
    · rw [if_pos hst, if_neg (fun h => hst h.2)]
      exact h.setOpts _

theorem AllFresh.load {s : TracedEngine φ β} (h : AllFresh s)
    (loaded : Except PmxStatus PmxProfile) (allocOk : Fin 4 → Bool) :
    AllFresh (tracedStep F B s (.load loaded allocOk)) := by
  show ProbesFresh (pmxEngineLoadProfile F s.engine loaded allocOk).1.healthProxyId
    (pmxEngineLoadProfile F s.engine loaded allocOk).1.healthCheck s.tags
  cases loaded with
  | error st =>
    rw [pmxEngineLoadProfile]
    split_ifs
    · exact h
    · exact h
  | ok pf =>
    rw [pmxEngineLoadProfile]
    split_ifs
    · exact h
    · exact h.setOpts _

/-- **One step.**  A guarded step observes fresh results only, and leaves only fresh probes behind. -/
theorem AllFresh.step (s : TracedEngine φ β) (op : EngineOp β ω) (h : AllFresh s)
    (hguard : Guarded B s op) : FreshStep F B s op ∧ AllFresh (tracedStep F B s op) := by
  cases op with
  | pump env => exact h.pump env hguard
  | start os stack =>
    exact ⟨trivial, h.start os stack hguard⟩
  | load loaded allocOk =>
    exact ⟨trivial, h.load loaded allocOk⟩
  | worker op =>
    refine ⟨trivial, ?_⟩
    cases op with
    | take => exact ProbesFresh.take h
    | deliver r allocOk => exact ProbesFresh.deliver h r allocOk
  | stop =>
    refine ⟨trivial, ?_⟩
    show ProbesFresh (pmxEngineStop F B s.engine).1.healthProxyId
      (pmxEngineStop F B s.engine).1.healthCheck s.tags
    rw [pmxEngineStop]
    split_ifs
    · exact h
    · exact h
  | flow f allocOk =>
    refine ⟨trivial, ?_⟩
    show ProbesFresh (engineOnFlow s.engine f allocOk).healthProxyId
      (engineOnFlow s.engine f allocOk).healthCheck s.tags
    rw [engineOnFlow]
    split_ifs
    · exact h
    · exact h
    · exact h
  | _ => exact ⟨trivial, h⟩

theorem AllFresh.create (pf : PmxProfile) (fw : Option φ) (backend : β) (allocOk : Fin 4 → Bool) :
    AllFresh (tracedCreate B pf fw backend allocOk) :=
  ⟨List.Forall₂.nil, Or.inl ⟨rfl, rfl⟩, List.Forall₂.nil, rfl⟩

/-- **Fresh evidence.**  In a run whose steps are all guarded, every observation made from a probe result
is of the proxy watched at that moment and of a probe submitted since the controller was armed. -/
theorem fresh_of_guarded (F : PmxFirewall φ) (B : PmxBackend β ω) (pf : PmxProfile)
    (fw : Option φ) (backend : β) (allocOk : Fin 4 → Bool) (ops : List (EngineOp β ω))
    (hguarded : Runs.EachStep (tracedStep F B) (Guarded B) (tracedCreate B pf fw backend allocOk) ops) :
    Runs.EachStep (tracedStep F B) (FreshStep F B) (tracedCreate B pf fw backend allocOk) ops :=
  Runs.eachStep_of_guarded AllFresh AllFresh.step ops _ (AllFresh.create pf fw backend allocOk)
    hguarded

end Step

/-! ### Stale results -/

/-- A profile with one proxy, under a policy that one good probe satisfies. -/
def oneProbeProfile : PmxProfile :=
  { oneProxyProfile with
      lockdown := { pmxLockdownPolicyDefaults with successesBeforeRestore := 1 } }

/-- `oneProbeProfile` with a second proxy. -/
def secondProxyProfile : PmxProfile :=
  { oneProbeProfile with
      proxies := [{ pmxProxyInit with id := 1, enabled := false }, { pmxProxyInit with id := 2 }] }

/-- A run of a new engine over the stubs, from `oneProbeProfile`. -/
def probeRun : TracedEngine StubFw StubImpl :=
  tracedCreate pmxBackendStub oneProbeProfile (some stubFwCreate) stubImplCreate fun _ => true

/-- A probe of the first session ends after the engine was stopped; the next session starts. -/
def staleSession : List (EngineOp StubImpl Bool) :=
  [.start true (fun _ => []), .pump (quietPump 5000), .stop, .worker .take,
    .worker (.deliver goodResult true), .start true (fun _ => [])]

/-- A probe of the first proxy ends, and before the next pump another proxy is the one to watch. -/
def staleProxy : List (EngineOp StubImpl Bool) :=
  [.start true (fun _ => []), .pump (quietPump 5000), .worker .take,
    .worker (.deliver goodResult true), .edit secondProxyProfile]

/-- The result of an earlier session lifts the block of a session that has proved nothing yet, and the
result of a proxy that is watched no longer lifts it as well. -/
theorem stale_results_lift :
    let step := tracedStep pmxFirewallStub pmxBackendStub
    (¬Runs.EachStep step (FreshStep pmxFirewallStub pmxBackendStub) probeRun
        (staleSession ++ [.pump (quietPump 6000)]) ∧
      (Runs.runFrom step probeRun staleSession).engine.lockdown.state = .trippedBlocking ∧
      (Runs.runFrom step probeRun (staleSession ++ [.pump (quietPump 6000)])).engine.lockdown.state
        = .armedHealthy) ∧
    (¬Runs.EachStep step (FreshStep pmxFirewallStub pmxBackendStub) probeRun
        (staleProxy ++ [.pump (quietPump 10000)]) ∧
      (Runs.runFrom step probeRun staleProxy).engine.lockdown.state = .trippedBlocking ∧
      (Runs.runFrom step probeRun (staleProxy ++ [.pump (quietPump 10000)])).engine.lockdown.state
        = .armedHealthy) := by
  decide +kernel

/-- Two sessions, each with a probe that is read before the session ends. -/
theorem fresh_of_guarded_twoSessions :
    Runs.EachStep (tracedStep pmxFirewallStub pmxBackendStub)
      (FreshStep pmxFirewallStub pmxBackendStub) probeRun
      [.start true (fun _ => []), .pump (goodPump 5000), .stop, .start true (fun _ => []),
        .pump (goodPump 6000)] :=
  fresh_of_guarded pmxFirewallStub pmxBackendStub oneProbeProfile (some stubFwCreate)
    stubImplCreate (fun _ => true) _ (by decide +kernel)

end ProxiMight
