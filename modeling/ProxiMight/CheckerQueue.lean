import ProxiMight.Checker
import ProxiMight.LinkedQueue
import ProxiMight.Runs

/-!
# The two queues of the checker (`pmx_checker.c`)

Jobs and results stand in linked queues; clients append jobs and poll results, the worker takes a job in
one critical section and delivers its result in another.  Here every critical section is one step on the
nodes in memory, and the steps of the threads come in any order.

* **`Rep.enqueueJob`**, **`Rep.take`**, **`Rep.deliver`**, **`Rep.poll`** — on memory, the sections do what
  they do on lists.
* **`checker_accounts`** — no job is lost or done twice, and the counter counts the jobs that are not done.
-/

namespace ProxiMight

open LinkedQueue Runs

/-- `struct pmx_checker` as it lies in memory, and what the worker keeps between its two critical sections:
the address of its job, and the options it copied. -/
structure PtrChecker where
  opts : PmxCheckOpts
  running : Bool
  jobs : Queue CheckJob
  results : Queue PmxCheckResult
  pending : ℕ
  taken : Option (ℕ × PmxCheckOpts)

/-- `pmx_check_proxy`: what a check of a proxy finds, under the options it is made with. -/
abbrev Check := PmxProxy → PmxCheckOpts → PmxCheckResult

namespace PtrChecker

/-- `pmx_checker_create`. -/
def create (opts : PmxCheckOpts) : PtrChecker := ⟨opts, true, .empty, .empty, 0, none⟩

/-- `enqueue_job`, with a job at `a`. -/
def enqueueJob (c : PtrChecker) (a : ℕ) (job : CheckJob) : Option PtrChecker :=
  ((c.jobs.alloc a job).push a).map fun jobs => { c with jobs := jobs, pending := c.pending + 1 }

/-- The first critical section of `checker_worker`, with `dequeue_job`. -/
def take (c : PtrChecker) : Option PtrChecker :=
  if !c.running then some c
  else
    c.jobs.pop.map fun q =>
      match q.2 with
      | none => c
      | some a => { c with jobs := q.1, taken := some (a, c.opts) }

/-- What the worker makes of a job, and the second critical section, with `push_result` and a node at `b`. -/
def deliver (c : PtrChecker) (check : Check) (b : ℕ) : Option PtrChecker :=
  match c.taken with
  | none => some c
  | some (a, opts) =>
    (c.jobs.heap a).bind fun job =>
      let r := check job.value.proxy opts
      let r := { r with hopIndex := job.value.hopIndex, proxyId := job.value.proxy.id }
      ((c.results.alloc b r).push b).map fun results =>
        { c with
          results := results
          pending := if c.pending > 0 then c.pending - 1 else c.pending
          jobs := c.jobs.free a
          taken := none }

/-- `pmx_checker_poll`. -/
def poll (c : PtrChecker) : Option (PtrChecker × Option PmxCheckResult) :=
  c.results.pop.bind fun q =>
    match q.2 with
    | none => some (c, none)
    | some a => (q.1.heap a).map fun n => ({ c with results := q.1.free a }, some n.value)

/-- `pmx_checker_pending`. -/
def pmxCheckerPending (c : PtrChecker) : ℕ := c.pending

end PtrChecker

/-! ### Memory and lists -/

/-- The result of a job: what the check found, under the ids of the job. -/
def resultOf (job : CheckJob) (found : PmxCheckResult) : PmxCheckResult :=
  { found with hopIndex := job.hopIndex, proxyId := job.proxy.id }

/-- On lists: the worker checks its job and delivers the result. -/
def checkerFinish (chk : PmxChecker) (check : Check) : PmxChecker :=
  match chk.taken with
  | none => chk
  | some (job, opts) => checkerDeliver chk (check job.proxy opts) true

theorem checkerFinish_of_busy {chk : PmxChecker} {job : CheckJob} {opts : PmxCheckOpts}
    (h : chk.taken = some (job, opts)) (check : Check) :
    checkerFinish chk check =
      { chk with
        taken := none
        results := chk.results ++ [resultOf job (check job.proxy opts)]
        pending := chk.pending - 1 } := by
  rw [checkerFinish, h]
  show checkerDeliver chk (check job.proxy opts) true = _
  rw [checkerDeliver, h]
  rfl

/-- The job the worker is busy with, by its address and by itself; its node is not in the queue any more. -/
inductive SameJob (jobs : Queue CheckJob) (js : List (ℕ × CheckJob)) :
    Option (ℕ × PmxCheckOpts) → Option (CheckJob × PmxCheckOpts) → Prop
  | idle : SameJob jobs js none none
  | busy {a : ℕ} {job : CheckJob} {next : Option ℕ} (opts : PmxCheckOpts) :
      jobs.heap a = some ⟨job, next⟩ → a ∉ addrs js → SameJob jobs js (some (a, opts)) (some (job, opts))

/-- Memory that holds a checker, with these jobs and results. -/
structure RepAt (c : PtrChecker) (chk : PmxChecker) (js : List (ℕ × CheckJob))
    (rs : List (ℕ × PmxCheckResult)) : Prop where
  opts : c.opts = chk.opts
  running : c.running = chk.running
  pending : c.pending = chk.pending
  jobs : Holds c.jobs js
  jobsEq : js.map Prod.snd = chk.jobs
  results : Holds c.results rs
  resultsEq : rs.map Prod.snd = chk.results
  taken : SameJob c.jobs js c.taken chk.taken

/-- Memory that holds a checker. -/
def Rep (c : PtrChecker) (chk : PmxChecker) : Prop := ∃ js rs, RepAt c chk js rs

theorem rep_create (opts : PmxCheckOpts) : Rep (PtrChecker.create opts) (pmxCheckerCreate (some opts)) :=
  ⟨[], [], rfl, rfl, rfl, holds_empty, rfl, holds_empty, rfl, .idle⟩

/-- The worker's node is kept while it stays allocated outside the queue. -/
theorem SameJob.congr {jobs jobs' : Queue CheckJob} {js js' : List (ℕ × CheckJob)}
    {x : Option (ℕ × PmxCheckOpts)} {y : Option (CheckJob × PmxCheckOpts)} (h : SameJob jobs js x y)
    (hkeep : ∀ a, a ∉ addrs js → jobs.heap a ≠ none → jobs'.heap a = jobs.heap a ∧ a ∉ addrs js') :
    SameJob jobs' js' x y := by
  cases h with
  | idle => exact .idle
  | busy opts hnode hout =>
    obtain ⟨hsame, hout'⟩ := hkeep _ hout (by rw [hnode]; exact Option.some_ne_none _)
    exact .busy opts (by rw [hsame, hnode]) hout'

/-- An idle worker is idle on lists. -/
theorem RepAt.idle {c : PtrChecker} {chk : PmxChecker} {js : List (ℕ × CheckJob)}
    {rs : List (ℕ × PmxCheckResult)} (h : RepAt c chk js rs) (hptr : c.taken = none) : chk.taken = none := by
  have htaken := h.taken
  rw [hptr] at htaken
  generalize chk.taken = taken at htaken ⊢
  cases htaken
  rfl

/-- A busy worker has the same job on lists, and its node is not in the queue. -/
theorem RepAt.busy {c : PtrChecker} {chk : PmxChecker} {js : List (ℕ × CheckJob)}
    {rs : List (ℕ × PmxCheckResult)} (h : RepAt c chk js rs) {a : ℕ} {opts : PmxCheckOpts}
    (hptr : c.taken = some (a, opts)) :
    ∃ job next, chk.taken = some (job, opts) ∧ c.jobs.heap a = some ⟨job, next⟩ ∧ a ∉ addrs js := by
  have htaken := h.taken
  rw [hptr] at htaken
  generalize chk.taken = taken at htaken ⊢
  cases htaken with
  | busy _ hnode hout => exact ⟨_, _, rfl, hnode, hout⟩

namespace Rep

variable {c : PtrChecker} {chk : PmxChecker}

theorem enqueueJob (h : Rep c chk) {a : ℕ} (ha : c.jobs.heap a = none) (job : CheckJob) :
    ∃ c', c.enqueueJob a job = some c' ∧
      Rep c' (ProxiMight.enqueueJob chk job.proxy job.hopIndex true).1 := by
  obtain ⟨js, rs, h⟩ := h
  obtain ⟨jobs, hpush, hjobs, hkeep⟩ := h.jobs.enqueue ha job
  have heq : c.enqueueJob a job = some { c with jobs := jobs, pending := c.pending + 1 } := by
    rw [PtrChecker.enqueueJob, hpush]
    rfl
  refine ⟨_, heq, js ++ [(a, job)], rs, h.opts, h.running, congrArg (· + 1) h.pending, hjobs, ?_, h.results,
    h.resultsEq, h.taken.congr hkeep⟩
  rw [List.map_append, h.jobsEq]
  rfl

theorem take (h : Rep c chk) (hidle : c.taken = none) :
    ∃ c', c.take = some c' ∧ Rep c' (checkerTake chk) := by
  obtain ⟨js, rs, h⟩ := h
  have hnone : chk.taken = none := h.idle hidle
  cases hrun : c.running with
  | false =>
    refine ⟨c, by rw [PtrChecker.take, hrun]; rfl, js, rs, ?_⟩
    rw [checkerTake, ← h.running, hrun]
    exact h
  | true =>
    cases js with
    | nil =>
      have hjobs : chk.jobs = [] := h.jobsEq.symm
      refine ⟨c, ?_, [], rs, ?_⟩
      · rw [PtrChecker.take, hrun, h.jobs.pop_nil]
        rfl
      · rw [checkerTake, hjobs]
        split
        · next heq => cases heq
        · exact h
    | cons av js =>
      obtain ⟨a, job⟩ := av
      obtain ⟨jobs, hpop, hjobs, hheap, next, hnode⟩ := h.jobs.pop
      have heq : c.take = some { c with jobs := jobs, taken := some (a, c.opts) } := by
        rw [PtrChecker.take, hrun, hpop]
        rfl
      have hlist : checkerTake chk =
          { chk with jobs := js.map Prod.snd, taken := some (job, chk.opts) } := by
        rw [checkerTake, ← h.running, hrun, hnone, ← h.jobsEq]
        rfl
      refine ⟨_, heq, js, rs, ?_⟩
      rw [hlist]
      refine ⟨h.opts, h.running, h.pending, hjobs, rfl, h.results, h.resultsEq, ?_⟩
      show SameJob jobs js (some (a, c.opts)) (some (job, chk.opts))
      rw [h.opts]
      exact .busy chk.opts (by rw [hheap, hnode]) (List.nodup_cons.1 h.jobs.nodup).1

theorem deliver (h : Rep c chk) (check : Check) {b : ℕ} (hb : c.results.heap b = none) :
    ∃ c', c.deliver check b = some c' ∧ Rep c' (checkerFinish chk check) := by
  obtain ⟨js, rs, h⟩ := h
  cases hptr : c.taken with
  | none =>
    refine ⟨c, by rw [PtrChecker.deliver, hptr], js, rs, ?_⟩
    rw [checkerFinish, h.idle hptr]
    exact h
  | some t =>
    obtain ⟨a, opts⟩ := t
    obtain ⟨job, next, hchk, hnode, hout⟩ := h.busy hptr
    obtain ⟨results, hpush, hresults, -⟩ := h.results.enqueue hb (resultOf job (check job.proxy opts))
    have heq : c.deliver check b =
        some { c with
          results := results
          pending := if c.pending > 0 then c.pending - 1 else c.pending
          jobs := c.jobs.free a
          taken := none } := by
      rw [PtrChecker.deliver, hptr]
      show (c.jobs.heap a).bind _ = _
      rw [hnode]
      show (Option.map _ ((c.results.alloc b (resultOf job (check job.proxy opts))).push b)) = _
      rw [hpush]
      rfl
    rw [checkerFinish_of_busy hchk check]
    refine ⟨_, heq, js, rs ++ [(b, resultOf job (check job.proxy opts))], h.opts, h.running, ?_,
      h.jobs.free hout, h.jobsEq, hresults, ?_, .idle⟩
    · show (if c.pending > 0 then c.pending - 1 else c.pending) = chk.pending - 1
      rw [← h.pending]
      split_ifs <;> omega
    · rw [List.map_append, h.resultsEq]
      rfl

theorem poll (h : Rep c chk) :
    ∃ c', c.poll = some (c', (pmxCheckerPoll chk).2) ∧ Rep c' (pmxCheckerPoll chk).1 := by
  obtain ⟨js, rs, h⟩ := h
  cases rs with
  | nil =>
    have hresults : chk.results = [] := h.resultsEq.symm
    refine ⟨c, ?_, js, [], ?_⟩
    · rw [PtrChecker.poll, h.results.pop_nil, pmxCheckerPoll, hresults]
      rfl
    · rw [pmxCheckerPoll, hresults]
      exact h
  | cons av rs =>
    obtain ⟨a, r⟩ := av
    obtain ⟨results, hpop, hresults, hheap, next, hnode⟩ := h.results.pop
    have hlist : pmxCheckerPoll chk = ({ chk with results := rs.map Prod.snd }, some r) := by
      rw [pmxCheckerPoll, ← h.resultsEq]
      rfl
    have heq : c.poll = some ({ c with results := results.free a }, some r) := by
      rw [PtrChecker.poll, hpop]
      show (results.heap a).map _ = _
      rw [hheap, hnode]
      rfl
    rw [hlist]
    exact ⟨_, heq, js, rs, h.opts, h.running, h.pending, h.jobs, h.jobsEq,
      hresults.free (List.nodup_cons.1 h.results.nodup).1, rfl, h.taken⟩

theorem setOpts (h : Rep c chk) (opts : PmxCheckOpts) :
    Rep { c with opts := opts } (pmxCheckerSetOpts chk opts) := by
  obtain ⟨js, rs, h⟩ := h
  exact ⟨js, rs, rfl, h.running, h.pending, h.jobs, h.jobsEq, h.results, h.resultsEq, h.taken⟩

theorem stop (h : Rep c chk) : Rep { c with running := false } { chk with running := false } := by
  obtain ⟨js, rs, h⟩ := h
  exact ⟨js, rs, h.opts, rfl, h.pending, h.jobs, h.jobsEq, h.results, h.resultsEq, h.taken⟩

/-- The worker is busy in memory when it is on lists, with the same options. -/
theorem taken_eq (h : Rep c chk) : c.taken.map Prod.snd = chk.taken.map Prod.snd := by
  obtain ⟨js, rs, h⟩ := h
  cases hptr : c.taken with
  | none =>
    rw [h.idle hptr]
    rfl
  | some t =>
    obtain ⟨job, next, hchk, -, -⟩ := h.busy (a := t.1) hptr
    rw [hchk]
    rfl

end Rep

/-! ### Threads in any order -/

/-- The jobs that `pmx_checker_submit_chain` enqueues, one critical section each. -/
def chainJobs (proxies : List PmxProxy) : ℕ → List PmxId → List CheckJob
  | _, [] => []
  | h, hop :: hops =>
    match proxies.find? fun p => p.id = hop with
    | some found => ⟨found, h⟩ :: chainJobs proxies (h + 1) hops
    | none => chainJobs proxies (h + 1) hops

/-- The checker with its clients: what each still has to enqueue of a chain, and what has happened so far:
the jobs submitted, what the checks of the completed ones found, and the results that polls returned. -/
structure CheckerSystem where
  chk : PtrChecker
  clients : ℕ → List CheckJob
  submitted : List CheckJob
  answers : List (PmxProxy → PmxCheckResult)
  polled : List PmxCheckResult

/-- A created checker. -/
def CheckerSystem.create (opts : PmxCheckOpts) : CheckerSystem := ⟨.create opts, fun _ => [], [], [], []⟩

/-- A critical section of some thread, with the address of the node it allocates, or a call that has none
of its own. -/
inductive CheckerEvent
  | submit (p : PmxProxy) (a : ℕ)
  | submitChain (client : ℕ) (c : PmxChain) (proxies : List PmxProxy)
  | nextHop (client : ℕ) (a : ℕ)
  | poll
  | setOpts (opts : PmxCheckOpts)
  | take
  | deliver (check : Check) (b : ℕ)
  | destroy

/-- The critical section of `enqueue_job`. -/
def CheckerSystem.enqueue (s : CheckerSystem) (a : ℕ) (job : CheckJob) : Option CheckerSystem :=
  (s.chk.enqueueJob a job).map fun chk => { s with chk := chk, submitted := s.submitted ++ [job] }

/-- One event.  An address that is in use is never allocated, a client makes one call at a time, and the
worker takes no job while it has one. -/
def checkerStep (s : CheckerSystem) : CheckerEvent → Option CheckerSystem
  | .submit p a => if (s.chk.jobs.heap a).isSome then some s else s.enqueue a ⟨p, -1⟩
  | .submitChain client c proxies =>
    if s.clients client = [] then
      some { s with clients := Function.update s.clients client (chainJobs proxies 0 c.hops) }
    else some s
  | .nextHop client a =>
    match s.clients client with
    | [] => some s
    | job :: rest =>
      if (s.chk.jobs.heap a).isSome then some s
      else CheckerSystem.enqueue { s with clients := Function.update s.clients client rest } a job
  | .poll => s.chk.poll.map fun r => { s with chk := r.1, polled := s.polled ++ r.2.toList }
  | .setOpts opts => some { s with chk := { s.chk with opts := opts } }
  | .take => if s.chk.taken.isSome then some s else s.chk.take.map fun chk => { s with chk := chk }
  | .deliver check b =>
    if (s.chk.results.heap b).isSome then some s
    else
      (s.chk.deliver check b).map fun chk =>
        { s with
          chk := chk
          answers := s.answers ++ (s.chk.taken.map fun t p => check p t.2).toList }
  | .destroy => some { s with chk := { s.chk with running := false } }

/-! ### The accounts -/

/-- The results of some jobs, from what their checks found. -/
def resultsOf (jobs : List CheckJob) (answers : List (PmxProxy → PmxCheckResult)) : List PmxCheckResult :=
  List.zipWith (fun job answer => resultOf job (answer job.proxy)) jobs answers

/-- The jobs `done` are completed, the worker has the next one, and the others wait. -/
structure AccountsAt (chk : PmxChecker) (submitted : List CheckJob)
    (answers : List (PmxProxy → PmxCheckResult)) (polled : List PmxCheckResult) (done : List CheckJob) :
    Prop where
  submitted : submitted = done ++ (chk.taken.map Prod.fst).toList ++ chk.jobs
  answered : done.length = answers.length
  results : polled ++ chk.results = resultsOf done answers
  pending : chk.pending = (chk.taken.map Prod.fst).toList.length + chk.jobs.length

/-- The books are in order. -/
def Accounts (chk : PmxChecker) (submitted : List CheckJob) (answers : List (PmxProxy → PmxCheckResult))
    (polled : List PmxCheckResult) : Prop :=
  ∃ done, AccountsAt chk submitted answers polled done

namespace Accounts

variable {chk : PmxChecker} {submitted : List CheckJob} {answers : List (PmxProxy → PmxCheckResult)}
  {polled : List PmxCheckResult}

theorem enqueueJob (h : Accounts chk submitted answers polled) (job : CheckJob) :
    Accounts (ProxiMight.enqueueJob chk job.proxy job.hopIndex true).1 (submitted ++ [job]) answers
      polled := by
  obtain ⟨done, h⟩ := h
  refine ⟨done, ?_, h.answered, h.results, ?_⟩
  · rw [h.submitted, List.append_assoc]
    rfl
  · have hpending := h.pending
    show chk.pending + 1 = (chk.taken.map Prod.fst).toList.length + (chk.jobs ++ [job]).length
    rw [List.length_append, List.length_singleton]
    omega

theorem take (h : Accounts chk submitted answers polled) :
    Accounts (checkerTake chk) submitted answers polled := by
  obtain ⟨done, h⟩ := h
  rw [checkerTake]
  split
  · next job jobs _ hidle hjobs =>
    have hsubmitted := h.submitted
    have hpending := h.pending
    rw [hidle, hjobs] at hsubmitted hpending
    refine ⟨done, ?_, h.answered, h.results, ?_⟩
    · rw [hsubmitted, List.append_assoc]
      exact (List.append_assoc done [job] jobs).symm
    · have hlen : chk.pending = 0 + (jobs.length + 1) := hpending
      show chk.pending = 1 + jobs.length
      omega
  · exact ⟨done, h⟩

theorem finish (h : Accounts chk submitted answers polled) (check : Check) :
    Accounts (checkerFinish chk check) submitted
      (answers ++ (chk.taken.map fun t p => check p t.2).toList) polled := by
  obtain ⟨done, h⟩ := h
  cases htaken : chk.taken with
  | none =>
    rw [checkerFinish, htaken]
    exact ⟨done, h.submitted, by rw [h.answered]; simp, by rw [h.results]; simp, h.pending⟩
  | some t =>
    obtain ⟨job, opts⟩ := t
    have hsubmitted := h.submitted
    have hpending := h.pending
    rw [htaken] at hsubmitted hpending
    rw [checkerFinish_of_busy htaken check]
    refine ⟨done ++ [job], ?_, ?_, ?_, ?_⟩
    · show submitted = done ++ [job] ++ [] ++ chk.jobs
      rw [hsubmitted, List.append_nil]
      rfl
    · rw [List.length_append, List.length_append, h.answered]
      rfl
    · show polled ++ (chk.results ++ _) = _
      rw [← List.append_assoc, h.results, resultsOf, resultsOf, List.zipWith_append h.answered]
      rfl
    · show chk.pending - 1 = 0 + chk.jobs.length
      have hlen : chk.pending = 1 + chk.jobs.length := hpending
      omega

theorem poll (h : Accounts chk submitted answers polled) :
    Accounts (pmxCheckerPoll chk).1 submitted answers (polled ++ (pmxCheckerPoll chk).2.toList) := by
  obtain ⟨done, h⟩ := h
  rw [pmxCheckerPoll]
  cases hresults : chk.results with
  | nil => exact ⟨done, h.submitted, h.answered, by rw [← h.results, hresults]; simp, h.pending⟩
  | cons r rest =>
    refine ⟨done, h.submitted, h.answered, ?_, h.pending⟩
    rw [← h.results, hresults]
    exact List.append_assoc _ _ _

end Accounts

/-- Memory holds a checker whose books are in order. -/
def CheckerInv (s : CheckerSystem) : Prop :=
  ∃ chk, Rep s.chk chk ∧ Accounts chk s.submitted s.answers s.polled

theorem CheckerInv.enqueue {s : CheckerSystem} (h : CheckerInv s) {a : ℕ} (ha : s.chk.jobs.heap a = none)
    (job : CheckJob) : ∃ s', s.enqueue a job = some s' ∧ CheckerInv s' := by
  obtain ⟨chk, hrep, hacc⟩ := h
  obtain ⟨c, hc, hrep'⟩ := hrep.enqueueJob ha job
  have heq : s.enqueue a job = some { s with chk := c, submitted := s.submitted ++ [job] } := by
    rw [CheckerSystem.enqueue, hc]
    rfl
  exact ⟨_, heq, _, hrep', hacc.enqueueJob job⟩

theorem CheckerInv.step {s : CheckerSystem} (h : CheckerInv s) (e : CheckerEvent) :
    ∃ s', checkerStep s e = some s' ∧ CheckerInv s' := by
  cases e with
  | submit p a =>
    rw [checkerStep]
    split_ifs with ha
    · exact ⟨s, rfl, h⟩
    · exact h.enqueue (by simpa using ha) _
  | submitChain client c proxies =>
    rw [checkerStep]
    split_ifs
    · exact ⟨_, rfl, h⟩
    · exact ⟨s, rfl, h⟩
  | nextHop client a =>
    rw [checkerStep]
    split
    · exact ⟨s, rfl, h⟩
    · next job rest _ =>
      split_ifs with ha
      · exact ⟨s, rfl, h⟩
      · exact CheckerInv.enqueue (s := { s with clients := Function.update s.clients client rest }) h
          (by simpa using ha) job
  | poll =>
    obtain ⟨chk, hrep, hacc⟩ := h
    obtain ⟨c, hc, hrep'⟩ := hrep.poll
    exact ⟨_, congrArg (Option.map _) hc, _, hrep', hacc.poll⟩
  | setOpts opts =>
    obtain ⟨chk, hrep, done, hacc⟩ := h
    exact ⟨_, rfl, _, hrep.setOpts opts, done, hacc.submitted, hacc.answered, hacc.results, hacc.pending⟩
  | take =>
    rw [checkerStep]
    split_ifs with hbusy
    · exact ⟨s, rfl, h⟩
    · obtain ⟨chk, hrep, hacc⟩ := h
      obtain ⟨c, hc, hrep'⟩ := hrep.take (by simpa using hbusy)
      exact ⟨_, congrArg (Option.map _) hc, _, hrep', hacc.take⟩
  | deliver check b =>
    rw [checkerStep]
    split_ifs with hb
    · exact ⟨s, rfl, h⟩
    · obtain ⟨chk, hrep, hacc⟩ := h
      obtain ⟨c, hc, hrep'⟩ := hrep.deliver check (b := b) (by simpa using hb)
      refine ⟨_, congrArg (Option.map _) hc, _, hrep', ?_⟩
      have hanswers : (s.chk.taken.map fun t p => check p t.2).toList =
          (chk.taken.map fun t p => check p t.2).toList := by
        have heq := congrArg (Option.map fun opts p => check p opts) hrep.taken_eq
        rw [Option.map_map, Option.map_map] at heq
        exact congrArg Option.toList heq
      show Accounts _ s.submitted (s.answers ++ _) s.polled
      rw [hanswers]
      exact hacc.finish check
  | destroy =>
    obtain ⟨chk, hrep, done, hacc⟩ := h
    exact ⟨_, rfl, _, hrep.stop, done, hacc.submitted, hacc.answered, hacc.results, hacc.pending⟩

/-- The results returned by polls and those still queued are those of the completed jobs, one for each, in
the order of submission, and the counter counts the jobs submitted and not completed. -/
structure JobsAccounted (s : CheckerSystem) : Prop where
  results : ∃ queued, Holds s.chk.results queued ∧
    s.polled ++ queued.map Prod.snd = resultsOf (s.submitted.take s.answers.length) s.answers
  completed : s.answers.length ≤ s.submitted.length
  pending : s.chk.pmxCheckerPending = s.submitted.length - s.answers.length

theorem CheckerInv.accounted {s : CheckerSystem} (h : CheckerInv s) : JobsAccounted s := by
  obtain ⟨chk, ⟨js, rs, hrep⟩, done, hacc⟩ := h
  have hlen := congrArg List.length hacc.submitted
  rw [List.length_append, List.length_append, hacc.answered] at hlen
  have hdone : s.submitted.take s.answers.length = done := by
    rw [hacc.submitted, List.append_assoc, ← hacc.answered, List.take_left]
  have hpending := hacc.pending
  rw [← hrep.pending] at hpending
  refine ⟨⟨rs, hrep.results, ?_⟩, by omega, ?_⟩
  · rw [hdone, hrep.resultsEq, hacc.results]
  · show s.chk.pending = _
    omega

/-- **No job is lost or done twice**, in whatever order the critical sections come. -/
theorem checker_accounts (opts : PmxCheckOpts) (evs : List CheckerEvent) :
    ∃ s, runPartial checkerStep (CheckerSystem.create opts) evs = some s ∧ JobsAccounted s := by
  have hcreate : CheckerInv (CheckerSystem.create opts) :=
    ⟨pmxCheckerCreate (some opts), rep_create opts, [], rfl, rfl, rfl, rfl⟩
  obtain ⟨s, hs, hinv⟩ := runPartial_inv CheckerInv (fun s e h => h.step e) evs _ hcreate
  exact ⟨s, hs, hinv.accounted⟩

end ProxiMight
