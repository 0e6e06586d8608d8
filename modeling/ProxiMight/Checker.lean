import ProxiMight.Profile

/-!
# The background checker (`pmx_checker.c`)

A queue of jobs, one worker thread, and a queue of results.  The worker takes a job in one critical
section and delivers its result in another; what happens on the network in between is not modelled, so
the result of a check is part of the event.
-/

namespace ProxiMight

open CString

/-- `pmx_check_result`. -/
structure PmxCheckResult where
  proxyId : PmxId
  hopIndex : ℤ
  reachable : Bool
  handshakeOk : Bool
  latencyMs : ℤ
  pingMs : ℤ
  status : PmxStatus
  egressIp : CBuf pmxMaxIp
  message : CBuf pmxMaxMsg
  checkedAtMs : ℕ
  deriving DecidableEq

/-- `check_job`. -/
structure CheckJob where
  proxy : PmxProxy
  hopIndex : ℤ
  deriving DecidableEq

/-- `struct pmx_checker`, and the job the worker is busy with, with the options it took. -/
structure PmxChecker where
  opts : PmxCheckOpts
  running : Bool
  jobs : List CheckJob
  taken : Option (CheckJob × PmxCheckOpts)
  results : List PmxCheckResult
  pending : ℕ
  deriving DecidableEq

/-- NULL options stand for the defaults. -/
def pmxCheckerCreate (opts : Option PmxCheckOpts) : PmxChecker where
  opts := opts.getD pmxCheckOptsDefaults
  running := true
  jobs := []
  taken := none
  results := []
  pending := 0

def pmxCheckerSetOpts (chk : PmxChecker) (opts : PmxCheckOpts) : PmxChecker :=
  { chk with opts := opts }

/-- `allocOk` is whether the job could be allocated. -/
def enqueueJob (chk : PmxChecker) (p : PmxProxy) (hop : ℤ) (allocOk : Bool) :
    PmxChecker × PmxStatus :=
  if allocOk then ({ chk with jobs := chk.jobs ++ [⟨p, hop⟩], pending := chk.pending + 1 }, .ok)
  else (chk, .errNoMemory)

def pmxCheckerSubmit (chk : PmxChecker) (p : PmxProxy) (allocOk : Bool) : PmxChecker × PmxStatus :=
  enqueueJob chk p (-1) allocOk

/-- The first critical section of `checker_worker`: take a job. -/
def checkerTake (chk : PmxChecker) : PmxChecker :=
  match chk.running, chk.taken, chk.jobs with
  | true, none, job :: jobs => { chk with jobs := jobs, taken := some (job, chk.opts) }
  | _, _, _ => chk

/-- The second critical section: deliver the result `r` of the check.  `allocOk` is whether the result
could be queued. -/
def checkerDeliver (chk : PmxChecker) (r : PmxCheckResult) (allocOk : Bool) : PmxChecker :=
  match chk.taken with
  | none => chk
  | some (job, _) =>
    let r := { r with hopIndex := job.hopIndex, proxyId := job.proxy.id }
    { chk with
        taken := none
        results := if allocOk then chk.results ++ [r] else chk.results
        pending := chk.pending - 1 }

/-- A step of the worker thread. -/
inductive WorkerOp
  | take
  | deliver (r : PmxCheckResult) (allocOk : Bool)

def workerStep (chk : PmxChecker) : WorkerOp → PmxChecker
  | .take => checkerTake chk
  | .deliver r allocOk => checkerDeliver chk r allocOk

def pmxCheckerPoll (chk : PmxChecker) : PmxChecker × Option PmxCheckResult :=
  match chk.results with
  | [] => (chk, none)
  | r :: rest => ({ chk with results := rest }, some r)

def pmxCheckerPending (chk : PmxChecker) : ℕ := chk.pending

/-- No job waits or runs, and no result waits to be polled. -/
structure PmxChecker.Idle (chk : PmxChecker) : Prop where
  jobs : chk.jobs = []
  taken : chk.taken = none
  results : chk.results = []
  pending : chk.pending = 0

theorem PmxChecker.Idle.workerStep {chk : PmxChecker} (h : chk.Idle) (op : WorkerOp) :
    workerStep chk op = chk := by
  cases op with
  | take =>
    show checkerTake chk = chk
    rw [checkerTake, h.jobs]
    split
    · next heq => cases heq
    · rfl
  | deliver r allocOk =>
    show checkerDeliver chk r allocOk = chk
    rw [checkerDeliver, h.taken]

theorem PmxChecker.Idle.workerSteps {chk : PmxChecker} (h : chk.Idle) (ops : List WorkerOp) :
    ops.foldl ProxiMight.workerStep chk = chk := by
  induction ops with
  | nil => rfl
  | cons op ops ih => rw [List.foldl_cons, h.workerStep, ih]

end ProxiMight
