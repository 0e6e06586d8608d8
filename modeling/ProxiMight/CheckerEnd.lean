import ProxiMight.CheckerQueue

/-!
# The end of the checker (`pmx_checker_destroy`)

The flag `running` is taken back and the worker joined: it finishes the check it is busy with and takes no
other.  Then the nodes of both queues are given back, each read once more for the one behind it.

* **`checkerDestroy_frees`** — whatever the threads did before, no node is touched after it was given back,
  and none is left.
-/

namespace ProxiMight

open LinkedQueue

/-- `pmx_checker_destroy`: the worker's last check with the node of its result, and the two loops in so many
rounds at most.  What is left of the nodes. -/
def pmxCheckerDestroy (c : PtrChecker) (check : Check) (b fuel : ℕ) :
    Option (Heap CheckJob × Heap PmxCheckResult) :=
  (PtrChecker.deliver { c with running := false } check b).bind fun c =>
    (freeAll fuel c.jobs.heap c.jobs.head).bind fun jobs =>
      (freeAll fuel c.results.heap c.results.head).map fun results => (jobs, results)

/-- Every node is in its queue, or it is the worker's job. -/
def PtrChecker.Tight (c : PtrChecker) : Prop :=
  (∃ js, Owns c.jobs js (c.taken.map Prod.fst).toList) ∧ ∃ rs, Owns c.results rs []

namespace PtrChecker.Tight

variable {c : PtrChecker}

theorem create (opts : PmxCheckOpts) : (PtrChecker.create opts).Tight :=
  ⟨⟨[], Owns.empty⟩, [], Owns.empty⟩

theorem enqueueJob (h : c.Tight) {a : ℕ} (ha : c.jobs.heap a = none) (job : CheckJob) :
    ∃ c', c.enqueueJob a job = some c' ∧ c'.Tight := by
  obtain ⟨⟨js, hjobs⟩, hresults⟩ := h
  obtain ⟨q, hpush, hq⟩ := hjobs.enqueue ha job
  refine ⟨{ c with jobs := q, pending := c.pending + 1 }, ?_, ⟨js ++ [(a, job)], hq⟩, hresults⟩
  rw [PtrChecker.enqueueJob, hpush]
  rfl

theorem take (h : c.Tight) (hidle : c.taken = none) : ∃ c', c.take = some c' ∧ c'.Tight := by
  cases hrun : c.running with
  | false => exact ⟨c, by rw [PtrChecker.take, hrun]; rfl, h⟩
  | true =>
    obtain ⟨⟨js, hjobs⟩, hresults⟩ := h
    cases js with
    | nil =>
      refine ⟨c, ?_, ⟨[], hjobs⟩, hresults⟩
      rw [PtrChecker.take, hrun, hjobs.holds.pop_nil]
      rfl
    | cons av js =>
      obtain ⟨q, hpop, hq, -, -⟩ := hjobs.pop
      refine ⟨{ c with jobs := q, taken := some (av.1, c.opts) }, ?_, ⟨js, ?_⟩, hresults⟩
      · rw [PtrChecker.take, hrun, hpop]
        rfl
      · rw [hidle] at hq
        exact hq

theorem deliver (h : c.Tight) (check : Check) {b : ℕ} (hb : c.results.heap b = none) :
    ∃ c', c.deliver check b = some c' ∧ c'.Tight ∧ c'.taken = none := by
  cases htaken : c.taken with
  | none => exact ⟨c, by rw [PtrChecker.deliver, htaken], h, htaken⟩
  | some t =>
    obtain ⟨a, opts⟩ := t
    obtain ⟨⟨js, hjobs⟩, rs, hresults⟩ := h
    rw [htaken] at hjobs
    obtain ⟨job, hjob⟩ := Option.ne_none_iff_exists'.1 (hjobs.there a List.mem_cons_self)
    obtain ⟨q, hpush, hq⟩ := hresults.enqueue hb (resultOf job.value (check job.value.proxy opts))
    refine ⟨{ c with
      results := q
      pending := if c.pending > 0 then c.pending - 1 else c.pending
      jobs := c.jobs.free a
      taken := none }, ?_, ⟨⟨js, hjobs.free List.not_mem_nil⟩, _, hq⟩, rfl⟩
    rw [PtrChecker.deliver, htaken]
    dsimp only
    rw [hjob]
    show Option.map _ ((c.results.alloc b (resultOf job.value (check job.value.proxy opts))).push b) = _
    rw [hpush]
    rfl

theorem poll (h : c.Tight) : ∃ r, c.poll = some r ∧ r.1.Tight := by
  obtain ⟨hjobs, rs, hresults⟩ := h
  cases rs with
  | nil =>
    refine ⟨(c, none), ?_, hjobs, [], hresults⟩
    rw [PtrChecker.poll, hresults.holds.pop_nil]
    rfl
  | cons av rs =>
    obtain ⟨q, hpop, hq, hheap, next, hnode⟩ := hresults.pop
    refine ⟨({ c with results := q.free av.1 }, some av.2), ?_, hjobs, rs, hq.free List.not_mem_nil⟩
    rw [PtrChecker.poll, hpop]
    show (q.heap av.1).map _ = _
    rw [hheap, hnode]
    rfl

end PtrChecker.Tight

/-! ### The system -/

/-- No event faults, and every node stays in its place. -/
theorem tight_step (s : CheckerSystem) (e : CheckerEvent) (h : s.chk.Tight) :
    ∃ s', checkerStep s e = some s' ∧ s'.chk.Tight := by
  cases e with
  | submit p a =>
    rw [checkerStep]
    split_ifs with hused
    · exact ⟨s, rfl, h⟩
    · obtain ⟨c, hc, htight⟩ := h.enqueueJob (Option.not_isSome_iff_eq_none.1 hused) ⟨p, -1⟩
      exact ⟨_, by rw [CheckerSystem.enqueue, hc]; rfl, htight⟩
  | submitChain client c proxies =>
    rw [checkerStep]
    split_ifs
    · exact ⟨_, rfl, h⟩
    · exact ⟨s, rfl, h⟩
  | nextHop client a =>
    rw [checkerStep]
    split
    · exact ⟨s, rfl, h⟩
    · next job rest _ =>
      split_ifs with hused
      · exact ⟨s, rfl, h⟩
      · obtain ⟨c, hc, htight⟩ := h.enqueueJob (Option.not_isSome_iff_eq_none.1 hused) job
        exact ⟨_, by rw [CheckerSystem.enqueue, hc]; rfl, htight⟩
  | poll =>
    obtain ⟨r, hr, htight⟩ := h.poll
    exact ⟨_, by rw [checkerStep, hr]; rfl, htight⟩
  | setOpts opts => exact ⟨_, rfl, h⟩
  | take =>
    rw [checkerStep]
    split_ifs with hbusy
    · exact ⟨s, rfl, h⟩
    · obtain ⟨c, hc, htight⟩ := h.take (Option.not_isSome_iff_eq_none.1 hbusy)
      exact ⟨_, by rw [hc]; rfl, htight⟩
  | deliver check b =>
    rw [checkerStep]
    split_ifs with hused
    · exact ⟨s, rfl, h⟩
    · obtain ⟨c, hc, htight, -⟩ := h.deliver check (Option.not_isSome_iff_eq_none.1 hused)
      exact ⟨_, by rw [hc]; rfl, htight⟩
  | destroy => exact ⟨_, rfl, h⟩

/-- The end, from a checker whose nodes are in their places. -/
theorem PtrChecker.Tight.destroy {c : PtrChecker} (h : c.Tight) (check : Check) {b : ℕ}
    (hb : c.results.heap b = none) :
    ∃ n, ∀ fuel, n ≤ fuel → pmxCheckerDestroy c check b fuel = some (fun _ => none, fun _ => none) := by
  have hstopped : ({ c with running := false } : PtrChecker).Tight := h
  obtain ⟨c', hc', ⟨⟨js, hjobs⟩, rs, hresults⟩, hidle⟩ := hstopped.deliver check hb
  rw [hidle] at hjobs
  refine ⟨max js.length rs.length, fun fuel hfuel => ?_⟩
  rw [pmxCheckerDestroy, hc', Option.bind_some, hjobs.freeAll (Nat.le_trans (Nat.le_max_left _ _) hfuel),
    Option.bind_some, hresults.freeAll (Nat.le_trans (Nat.le_max_right _ _) hfuel)]
  rfl

/-- **Nothing is lost or freed twice.**  Whatever the threads did with a checker: no access was to a node
that was not allocated, and its destruction, with the worker idle or in a check, reads no node that it has
given back and leaves none behind. -/
theorem checkerDestroy_frees (opts : PmxCheckOpts) (evs : List CheckerEvent) :
    ∃ s, Runs.runPartial checkerStep (CheckerSystem.create opts) evs = some s ∧
      ∀ (check : Check) (b : ℕ), s.chk.results.heap b = none → ∃ n, ∀ fuel, n ≤ fuel →
        pmxCheckerDestroy s.chk check b fuel = some (fun _ => none, fun _ => none) := by
  obtain ⟨s, hs, htight⟩ := Runs.runPartial_inv (fun s : CheckerSystem => s.chk.Tight) tight_step evs
    (CheckerSystem.create opts) (PtrChecker.Tight.create opts)
  exact ⟨s, hs, fun check b hb => htight.destroy check hb⟩

end ProxiMight
