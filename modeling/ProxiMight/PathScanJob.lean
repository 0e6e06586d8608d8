import ProxiMight.PathScan
import ProxiMight.Runs

/-!
# The path scan as a job (`pmx_mtr_start`, `pmx_mtr_done`, `pmx_mtr_free`)

The panel runs a scan on a worker thread, on a copy of the name cut to 255 bytes.  The worker looks between
any two echoes whether it has been cancelled.  The owner may look at the job, or free it, at any time.

* **`mtrJob_agrees`** — a job that is not cancelled ends, and has the result of the blocking call.
* **`mtrJob_cancelled`** — wherever a cancel meets the worker, it ends four steps later, and sends one more
  echo at most.
-/

namespace ProxiMight

open CString

/-- Where the worker stands: before the target's address; at the head of the outer loop; before
`job_progress`; at the head of the inner loop; before an echo; before it stores the result; or ended. -/
inductive MtrPhase
  | resolving
  | head (ttl : ℕ) (out : PmxMtrResult)
  | announcing (ttl : ℕ) (out : PmxMtrResult)
  | probing (ttl c : ℕ) (out : PmxMtrResult) (s : HopScan)
  | echoing (ttl c : ℕ) (out : PmxMtrResult) (s : HopScan)
  | storing (out : PmxMtrResult)
  | ended

/-- `pmx_mtr_job` with its worker, and how many echoes it has sent. -/
structure PmxMtrJob where
  cancel : Bool
  finished : Bool
  progress : ℕ
  result : PmxMtrResult
  phase : MtrPhase
  echoes : ℕ

/-- `pmx_mtr_start`. -/
def pmxMtrStart : PmxMtrJob := ⟨false, false, 0, ⟨CBuf.empty, CBuf.empty, [], false, .ok⟩, .resolving, 0⟩

/-- The worker's next step, or `pmx_mtr_free` up to its join. -/
inductive MtrEvent
  | worker
  | cancel
  deriving DecidableEq

/-- `pmx_mtr_done`. -/
def pmxMtrDone (j : PmxMtrJob) : Option PmxMtrResult := if j.finished then some j.result else none

section Job

variable (w : PathWorld) (o : PmxPathOpts) (host : CBuf pmxMaxHost)

/-- `mtr_run` up to its loop, on `job->host`. -/
def mtrResolve : MtrPhase :=
  let out := mtrStart host.str
  match w.resolve host.str with
  | none => .storing { out with status := .errDns }
  | some addr =>
    let out := { out with targetAddr := addr }
    if w.icmpOpens then .head 1 out else .storing { out with status := .errNet }

/-- A step of `mtr_run` under `mtr_worker`. -/
def mtrWorkerStep (j : PmxMtrJob) : PmxMtrJob :=
  match j.phase with
  | .resolving => { j with phase := mtrResolve w host }
  | .head ttl out =>
    if ttl ≤ o.hopLimit && !j.cancel then { j with phase := .announcing ttl out }
    else { j with phase := .storing { out with status := .ok } }
  | .announcing ttl out => { j with progress := ttl, phase := .probing ttl 0 out (hopScanStart ttl) }
  | .probing ttl c out s =>
    if c < o.cycleCount && !j.cancel then { j with phase := .echoing ttl c out s }
    else
      let out := { out with hops := out.hops ++ [hopFinish w o s] }
      { j with phase :=
        if s.reached then .storing { out with reached := true, status := .ok } else .head (ttl + 1) out }
  | .echoing ttl c out s =>
    { j with
      echoes := j.echoes + 1
      phase := .probing ttl (c + 1) out (hopEcho s (icmpProbe w o ttl c)) }
  | .storing out => { j with result := out, finished := true, phase := .ended }
  | .ended => j

def mtrJobStep (j : PmxMtrJob) : MtrEvent → PmxMtrJob
  | .worker => mtrWorkerStep w o host j
  | .cancel => { j with cancel := true }

/-- The job after a run of events.  `pmx_mtr_start` copies the name it is given into the job. -/
def mtrJobAt (name : List UInt8) (evs : List MtrEvent) : PmxMtrJob :=
  Runs.runFrom (mtrJobStep w o (strlcpy pmxMaxHost name)) pmxMtrStart evs

/-! ### The result of a job that is left alone -/

/-- The rest of the scan behind the inner loop. -/
def mtrAfterHop (ttl : ℕ) (out : PmxMtrResult) (s : HopScan) : PmxMtrResult :=
  let out := { out with hops := out.hops ++ [hopFinish w o s] }
  if s.reached then { out with reached := true } else mtrHops w o (ttl + 1) (o.hopLimit - ttl) out

/-- What the blocking call would make of the scan from here on. -/
def MtrPhase.outcome : MtrPhase → Option PmxMtrResult
  | .resolving => some (pmxMtr w o host.str)
  | .head ttl out => some { mtrHops w o ttl (o.hopLimit + 1 - ttl) out with status := .ok }
  | .announcing ttl out => some { mtrHops w o ttl (o.hopLimit + 1 - ttl) out with status := .ok }
  | .probing ttl c out s | .echoing ttl c out s =>
    some { mtrAfterHop w o ttl out (hopEchoes w o ttl c (o.cycleCount - c) s) with status := .ok }
  | .storing out => some out
  | .ended => none

/-- How many hops are behind the worker, and how many it has announced. -/
def MtrPhase.Counted (hops progress : ℕ) : MtrPhase → Prop
  | .resolving => progress = 0
  | .head ttl out => ttl = out.hops.length + 1 ∧ progress = out.hops.length ∧ ttl ≤ o.hopLimit + 1
  | .announcing ttl out => ttl = out.hops.length + 1 ∧ progress = out.hops.length ∧ ttl ≤ o.hopLimit
  | .probing ttl c out _ => ttl = out.hops.length + 1 ∧ progress = ttl ∧ ttl ≤ o.hopLimit ∧ c ≤ o.cycleCount
  | .echoing ttl c out _ => ttl = out.hops.length + 1 ∧ progress = ttl ∧ ttl ≤ o.hopLimit ∧ c < o.cycleCount
  | .storing out => progress = out.hops.length ∧ out.hops.length ≤ o.hopLimit
  | .ended => progress = hops ∧ hops ≤ o.hopLimit

/-- How many steps of the worker are left at most. -/
def MtrPhase.rank : MtrPhase → ℕ
  | .resolving => o.hopLimit * (2 * o.cycleCount + 3) + 3
  | .head ttl _ => (o.hopLimit + 1 - ttl) * (2 * o.cycleCount + 3) + 2
  | .announcing ttl _ => (o.hopLimit - ttl) * (2 * o.cycleCount + 3) + 2 * o.cycleCount + 4
  | .probing ttl c _ _ => (o.hopLimit - ttl) * (2 * o.cycleCount + 3) + 2 * (o.cycleCount - c) + 3
  | .echoing ttl c _ _ => (o.hopLimit - ttl) * (2 * o.cycleCount + 3) + 2 * (o.cycleCount - c) + 2
  | .storing _ => 1
  | .ended => 0

/-- The same for a worker that finds itself cancelled. -/
def MtrPhase.cancelRank : MtrPhase → ℕ
  | .resolving => 3
  | .head _ _ => 2
  | .announcing _ _ => 4
  | .probing _ _ _ _ => 3
  | .echoing _ _ _ _ => 4
  | .storing _ => 1
  | .ended => 0

variable {w o host}

theorem mtrResolve_cases (w : PathWorld) (o : PmxPathOpts) (host : CBuf pmxMaxHost) :
    (∃ out, mtrResolve w host = .storing out ∧ out.hops = [] ∧ pmxMtr w o host.str = out) ∨
      ∃ out, mtrResolve w host = .head 1 out ∧ out.hops = [] ∧
        pmxMtr w o host.str = { mtrHops w o 1 o.hopLimit out with status := .ok } := by
  unfold mtrResolve pmxMtr
  cases w.resolve host.str with
  | none => exact Or.inl ⟨_, rfl, rfl, rfl⟩
  | some addr =>
    cases w.icmpOpens
    · exact Or.inl ⟨_, rfl, rfl, rfl⟩
    · exact Or.inr ⟨_, rfl, rfl, rfl⟩

/-- A worker that is not cancelled is on its way to one result. -/
theorem mtrWorkerStep_outcome {j : PmxMtrJob} (hcancel : j.cancel = false)
    (hcounted : j.phase.Counted o j.result.hops.length j.progress) {r : PmxMtrResult}
    (h : j.phase.outcome w o host = some r) :
    (mtrWorkerStep w o host j).phase.outcome w o host = some r ∨
      (mtrWorkerStep w o host j).phase = .ended ∧ (mtrWorkerStep w o host j).result = r := by
  obtain ⟨cancel, finished, progress, result, phase, echoes⟩ := j
  obtain rfl : cancel = false := hcancel
  cases phase with
  | resolving =>
    left
    rw [← h]
    rcases mtrResolve_cases w o host with ⟨out, hphase, -, hr⟩ | ⟨out, hphase, -, hr⟩
    · simp only [mtrWorkerStep, hphase, MtrPhase.outcome, hr]
    · simp only [mtrWorkerStep, hphase, MtrPhase.outcome, hr, Nat.add_sub_cancel]
  | head ttl out =>
    left
    rw [← h]
    simp only [mtrWorkerStep]
    by_cases httl : ttl ≤ o.hopLimit
    · rw [if_pos (by simp [httl])]
      rfl
    · rw [if_neg (by simp [httl])]
      simp only [MtrPhase.outcome, show o.hopLimit + 1 - ttl = 0 by omega]
      rfl
  | announcing ttl out =>
    left
    obtain ⟨-, -, httl⟩ := hcounted
    rw [← h]
    simp only [mtrWorkerStep, MtrPhase.outcome, show o.hopLimit + 1 - ttl = o.hopLimit - ttl + 1 by omega]
    rfl
  | probing ttl c out s =>
    left
    rw [← h]
    simp only [mtrWorkerStep]
    by_cases hc : c < o.cycleCount
    · rw [if_pos (by simp [hc])]
      rfl
    · rw [if_neg (by simp [hc])]
      have hnone : hopEchoes w o ttl c (o.cycleCount - c) s = s := by
        rw [Nat.sub_eq_zero_of_le (not_lt.1 hc)]
        rfl
      simp only [MtrPhase.outcome, hnone, mtrAfterHop]
      by_cases hreached : s.reached = true
      · rw [if_pos hreached, if_pos hreached]
      · rw [if_neg hreached, if_neg hreached]
        simp only [Nat.add_sub_add_right]
  | echoing ttl c out s =>
    left
    obtain ⟨-, -, -, hc⟩ := hcounted
    rw [← h]
    simp only [mtrWorkerStep, MtrPhase.outcome, show o.cycleCount - c = o.cycleCount - (c + 1) + 1 by omega]
    rfl
  | storing out =>
    right
    exact ⟨rfl, Option.some.inj h⟩
  | ended => cases h

theorem mtrWorkerStep_counted {j : PmxMtrJob} (h : j.phase.Counted o j.result.hops.length j.progress) :
    (mtrWorkerStep w o host j).phase.Counted o (mtrWorkerStep w o host j).result.hops.length
      (mtrWorkerStep w o host j).progress := by
  obtain ⟨cancel, finished, progress, result, phase, echoes⟩ := j
  cases phase with
  | resolving =>
    obtain rfl : progress = 0 := h
    rcases mtrResolve_cases w o host with
      ⟨out, hphase, hhops, -⟩ | ⟨out, hphase, hhops, -⟩
    · simp [mtrWorkerStep, hphase, MtrPhase.Counted, hhops]
    · simp [mtrWorkerStep, hphase, MtrPhase.Counted, hhops]
  | head ttl out =>
    obtain ⟨hhops, hprogress, httl⟩ := h
    simp only [mtrWorkerStep]
    split_ifs with hgo
    · rw [Bool.and_eq_true, decide_eq_true_eq] at hgo
      exact ⟨hhops, hprogress, hgo.1⟩
    · exact ⟨hprogress, by dsimp only; omega⟩
  | announcing ttl out =>
    obtain ⟨hhops, -, httl⟩ := h
    exact ⟨hhops, rfl, httl, Nat.zero_le _⟩
  | probing ttl c out s =>
    obtain ⟨hhops, hprogress, httl, hc⟩ := h
    dsimp only at hprogress
    have hlength : (out.hops ++ [hopFinish w o s]).length = out.hops.length + 1 := List.length_append
    simp only [mtrWorkerStep]
    split_ifs with hgo hreached
    · rw [Bool.and_eq_true, decide_eq_true_eq] at hgo
      exact ⟨hhops, hprogress, httl, hgo.1⟩
    · exact ⟨by dsimp only; omega, by dsimp only; omega⟩
    · exact ⟨by dsimp only; omega, by dsimp only; omega, by omega⟩
  | echoing ttl c out s => exact h
  | storing out => exact h
  | ended => exact h

/-- The worker's steps are numbered. -/
theorem mtrWorkerStep_rank {j : PmxMtrJob} (h : j.phase.Counted o j.result.hops.length j.progress)
    (hrun : j.phase ≠ .ended) : (mtrWorkerStep w o host j).phase.rank o < j.phase.rank o := by
  obtain ⟨cancel, finished, progress, result, phase, echoes⟩ := j
  have hsucc : ∀ ttl, ttl ≤ o.hopLimit → (o.hopLimit + 1 - ttl) * (2 * o.cycleCount + 3) =
      (o.hopLimit - ttl) * (2 * o.cycleCount + 3) + (2 * o.cycleCount + 3) := by
    intro ttl httl
    rw [Nat.succ_sub httl, Nat.succ_mul]
  cases phase with
  | resolving =>
    rcases mtrResolve_cases w o host with ⟨out, hphase, -⟩ | ⟨out, hphase, -⟩
    · simp [mtrWorkerStep, hphase, MtrPhase.rank]
    · simp [mtrWorkerStep, hphase, MtrPhase.rank]
  | head ttl out =>
    simp only [mtrWorkerStep]
    split_ifs with hgo
    · rw [Bool.and_eq_true, decide_eq_true_eq] at hgo
      simp only [MtrPhase.rank, hsucc ttl hgo.1]
      omega
    · simp only [MtrPhase.rank]
      omega
  | announcing ttl out =>
    simp only [mtrWorkerStep, MtrPhase.rank]
    omega
  | probing ttl c out s =>
    simp only [mtrWorkerStep]
    split_ifs with hgo hreached
    · simp only [MtrPhase.rank]
      omega
    · simp only [MtrPhase.rank]
      omega
    · simp only [MtrPhase.rank, Nat.add_sub_add_right]
      omega
  | echoing ttl c out s =>
    obtain ⟨-, -, -, hc⟩ := h
    simp only [mtrWorkerStep, MtrPhase.rank]
    omega
  | storing out => exact Nat.one_pos
  | ended => exact absurd rfl hrun

theorem mtrWorkerStep_cancelRank {j : PmxMtrJob} (hcancel : j.cancel = true) (hrun : j.phase ≠ .ended) :
    (mtrWorkerStep w o host j).phase.cancelRank < j.phase.cancelRank := by
  obtain ⟨cancel, finished, progress, result, phase, echoes⟩ := j
  obtain rfl : cancel = true := hcancel
  cases phase with
  | resolving =>
    rcases mtrResolve_cases w o host with ⟨out, hphase, -⟩ | ⟨out, hphase, -⟩
    · simp [mtrWorkerStep, hphase, MtrPhase.cancelRank]
    · simp [mtrWorkerStep, hphase, MtrPhase.cancelRank]
  | head ttl out => simp [mtrWorkerStep, MtrPhase.cancelRank]
  | announcing ttl out => simp [mtrWorkerStep, MtrPhase.cancelRank]
  | probing ttl c out s =>
    simp only [mtrWorkerStep, Bool.not_true, Bool.and_false, Bool.false_eq_true, if_false]
    split_ifs
    · simp [MtrPhase.cancelRank]
    · simp [MtrPhase.cancelRank]
  | echoing ttl c out s => simp [mtrWorkerStep, MtrPhase.cancelRank]
  | storing out => simp [mtrWorkerStep, MtrPhase.cancelRank]
  | ended => exact absurd rfl hrun

/-- An echo is the worker's next step. -/
def MtrPhase.echoesLeft : MtrPhase → ℕ
  | .echoing _ _ _ _ => 1
  | _ => 0

theorem mtrWorkerStep_echoes {j : PmxMtrJob} (hcancel : j.cancel = true) :
    (mtrWorkerStep w o host j).echoes + (mtrWorkerStep w o host j).phase.echoesLeft ≤
      j.echoes + j.phase.echoesLeft := by
  obtain ⟨cancel, finished, progress, result, phase, echoes⟩ := j
  obtain rfl : cancel = true := hcancel
  cases phase with
  | resolving =>
    rcases mtrResolve_cases w o host with ⟨out, hphase, -⟩ | ⟨out, hphase, -⟩
    · simp [mtrWorkerStep, hphase, MtrPhase.echoesLeft]
    · simp [mtrWorkerStep, hphase, MtrPhase.echoesLeft]
  | head ttl out => simp [mtrWorkerStep, MtrPhase.echoesLeft]
  | announcing ttl out => simp [mtrWorkerStep, MtrPhase.echoesLeft]
  | probing ttl c out s =>
    simp only [mtrWorkerStep, Bool.not_true, Bool.and_false, Bool.false_eq_true, if_false]
    split_ifs
    · simp [MtrPhase.echoesLeft]
    · simp [MtrPhase.echoesLeft]
  | echoing ttl c out s => simp [mtrWorkerStep, MtrPhase.echoesLeft]
  | storing out => simp [mtrWorkerStep, MtrPhase.echoesLeft]
  | ended => exact Nat.le_refl _

/-- The worker leaves the owner's flag alone, and is finished when it has ended. -/
theorem mtrWorkerStep_flags {j : PmxMtrJob} (h : j.finished = true ↔ j.phase = .ended) :
    (mtrWorkerStep w o host j).cancel = j.cancel ∧
      ((mtrWorkerStep w o host j).finished = true ↔ (mtrWorkerStep w o host j).phase = .ended) := by
  obtain ⟨cancel, finished, progress, result, phase, echoes⟩ := j
  cases phase with
  | resolving =>
    rcases mtrResolve_cases w o host with ⟨out, hphase, -⟩ | ⟨out, hphase, -⟩
    · simp_all [mtrWorkerStep]
    · simp_all [mtrWorkerStep]
  | head ttl out =>
    simp only [mtrWorkerStep]
    split_ifs <;> simp_all
  | announcing ttl out => simp_all [mtrWorkerStep]
  | probing ttl c out s =>
    simp only [mtrWorkerStep]
    split_ifs <;> simp_all
  | echoing ttl c out s => simp_all [mtrWorkerStep]
  | storing out => simp_all [mtrWorkerStep]
  | ended => exact ⟨rfl, h⟩

theorem MtrPhase.rank_eq_zero {p : MtrPhase} : p.rank o = 0 ↔ p = .ended := by
  cases p <;> simp [MtrPhase.rank]

theorem MtrPhase.cancelRank_eq_zero {p : MtrPhase} : p.cancelRank = 0 ↔ p = .ended := by
  cases p <;> simp [MtrPhase.cancelRank]

/-- What every run keeps. -/
structure MtrInv (o : PmxPathOpts) (j : PmxMtrJob) : Prop where
  counted : j.phase.Counted o j.result.hops.length j.progress
  finished : j.finished = true ↔ j.phase = .ended

/-- What a run without cancel keeps. -/
structure MtrAlone (w : PathWorld) (o : PmxPathOpts) (host : CBuf pmxMaxHost) (j : PmxMtrJob) : Prop
    extends MtrInv o j where
  alone : j.cancel = false
  agrees : j.phase.outcome w o host = some (pmxMtr w o host.str) ∨
    j.phase = .ended ∧ j.result = pmxMtr w o host.str

theorem mtrInv_start : MtrInv o pmxMtrStart := ⟨rfl, by simp [pmxMtrStart]⟩

theorem MtrInv.step {j : PmxMtrJob} (h : MtrInv o j) (e : MtrEvent) : MtrInv o (mtrJobStep w o host j e) := by
  cases e with
  | worker => exact ⟨mtrWorkerStep_counted h.counted, (mtrWorkerStep_flags h.finished).2⟩
  | cancel => exact ⟨h.counted, h.finished⟩

theorem MtrAlone.worker {j : PmxMtrJob} (h : MtrAlone w o host j) :
    MtrAlone w o host (mtrWorkerStep w o host j) := by
  refine ⟨h.toMtrInv.step .worker, (mtrWorkerStep_flags h.finished).1.trans h.alone, ?_⟩
  rcases h.agrees with hout | ⟨hended, hresult⟩
  · exact mtrWorkerStep_outcome h.alone h.counted hout
  · have hstep : mtrWorkerStep w o host j = j := by rw [mtrWorkerStep, hended]
    rw [hstep]
    exact Or.inr ⟨hended, hresult⟩

theorem MtrInv.rank_le {j : PmxMtrJob} (h : MtrInv o j) :
    (mtrWorkerStep w o host j).phase.rank o ≤ j.phase.rank o := by
  by_cases hended : j.phase = .ended
  · have hstep : mtrWorkerStep w o host j = j := by rw [mtrWorkerStep, hended]
    rw [hstep]
  · exact (mtrWorkerStep_rank h.counted hended).le

theorem MtrInv.progress_le {j : PmxMtrJob} (h : MtrInv o j) :
    j.progress ≤ (mtrWorkerStep w o host j).progress := by
  obtain ⟨hcounted, -⟩ := h
  obtain ⟨cancel, finished, progress, result, phase, echoes⟩ := j
  cases phase with
  | announcing ttl out =>
    obtain ⟨hhops, hprogress, -⟩ := hcounted
    simp only [mtrWorkerStep]
    dsimp only at hprogress
    omega
  | head ttl out =>
    simp only [mtrWorkerStep]
    split_ifs <;> exact Nat.le_refl _
  | probing ttl c out s =>
    simp only [mtrWorkerStep]
    split_ifs <;> exact Nat.le_refl _
  | resolving => exact Nat.le_refl _
  | echoing ttl c out s => exact Nat.le_refl _
  | storing out => exact Nat.le_refl _
  | ended => exact Nat.le_refl _

theorem MtrInv.progress_le_hopLimit {j : PmxMtrJob} (h : MtrInv o j) : j.progress ≤ o.hopLimit := by
  obtain ⟨hcounted, -⟩ := h
  obtain ⟨cancel, finished, progress, result, phase, echoes⟩ := j
  cases phase <;> simp only [MtrPhase.Counted] at hcounted <;> dsimp only <;> omega

theorem mtrAlone_run {name : List UInt8} {evs : List MtrEvent} (h : .cancel ∉ evs) :
    MtrAlone w o (strlcpy pmxMaxHost name) (mtrJobAt w o name evs) := by
  apply Runs.runFrom_inv_of_mem (G := (· ≠ .cancel)) (MtrAlone w o (strlcpy pmxMaxHost name))
  · intro j e he hj
    cases e with
    | worker => exact hj.worker
    | cancel => exact absurd rfl he
  · intro e he
    exact fun hcancel => h (hcancel ▸ he)
  · exact ⟨mtrInv_start, rfl, Or.inl rfl⟩

/-- What every run keeps once the job is cancelled, with so many echoes sent by then. -/
structure MtrCancelled (o : PmxPathOpts) (sent : ℕ) (j : PmxMtrJob) : Prop extends MtrInv o j where
  cancelled : j.cancel = true
  echoes_le : j.echoes + j.phase.echoesLeft ≤ sent + 1

theorem MtrPhase.echoesLeft_le (p : MtrPhase) : p.echoesLeft ≤ 1 := by cases p <;> simp [MtrPhase.echoesLeft]

theorem MtrCancelled.cancel {j : PmxMtrJob} (h : MtrInv o j) :
    MtrCancelled o j.echoes { j with cancel := true } :=
  ⟨⟨h.counted, h.finished⟩, rfl, Nat.add_le_add_left (MtrPhase.echoesLeft_le _) _⟩

theorem MtrCancelled.step {sent : ℕ} {j : PmxMtrJob} (h : MtrCancelled o sent j) (e : MtrEvent) :
    MtrCancelled o sent (mtrJobStep w o host j e) := by
  refine ⟨h.toMtrInv.step e, ?_, ?_⟩
  · cases e with
    | worker => exact (mtrWorkerStep_flags h.finished).1.trans h.cancelled
    | cancel => rfl
  · cases e with
    | worker => exact Nat.le_trans (mtrWorkerStep_echoes h.cancelled) h.echoes_le
    | cancel => exact h.echoes_le

theorem MtrCancelled.cancelRank_le {sent : ℕ} {j : PmxMtrJob} (h : MtrCancelled o sent j) :
    (mtrWorkerStep w o host j).phase.cancelRank ≤ j.phase.cancelRank := by
  by_cases hended : j.phase = .ended
  · have hstep : mtrWorkerStep w o host j = j := by rw [mtrWorkerStep, hended]
    rw [hstep]
  · exact (mtrWorkerStep_cancelRank h.cancelled hended).le

theorem MtrPhase.cancelRank_le_four {p : MtrPhase} : p.cancelRank ≤ 4 := by
  cases p <;> simp [MtrPhase.cancelRank]

/-- **The job agrees with the blocking call.**  While nobody cancels it: what it reports as done is what
`pmx_mtr` returns for the name as the job holds it, so for the name itself if it fits; with as many hops as it
has announced.  Its progress only grows, and it is done after a number of steps. -/
theorem mtrJob_agrees (w : PathWorld) (o : PmxPathOpts) (name : List UInt8) (evs : List MtrEvent)
    (h : .cancel ∉ evs) :
    let j := mtrJobAt w o name evs
    (∀ r, pmxMtrDone j = some r → r = pmxMtr w o (strlcpy pmxMaxHost name).str ∧
        (nul ∉ name → name.length < pmxMaxHost → r = pmxMtr w o name) ∧ j.progress = r.hops.length) ∧
      j.progress ≤ (mtrWorkerStep w o (strlcpy pmxMaxHost name) j).progress ∧ j.progress ≤ o.hopLimit ∧
      (o.hopLimit * (2 * o.cycleCount + 3) + 3 ≤ evs.length → (pmxMtrDone j).isSome) := by
  intro j
  have hj : MtrAlone w o (strlcpy pmxMaxHost name) j := mtrAlone_run h
  refine ⟨?_, ?_, ?_, ?_⟩
  · intro r hr
    rw [pmxMtrDone] at hr
    split_ifs at hr with hfinished
    obtain rfl := Option.some.inj hr
    have hended := hj.finished.1 hfinished
    have hcounted := hj.counted
    rw [hended] at hcounted
    have hresult : j.result = pmxMtr w o (strlcpy pmxMaxHost name).str := by
      rcases hj.agrees with hout | ⟨-, hresult⟩
      · rw [hended] at hout
        cases hout
      · exact hresult
    refine ⟨hresult, fun hnul hfits => ?_, hcounted.1⟩
    rw [strlcpy_of_fits hnul (Nat.le_sub_one_of_lt hfits)] at hresult
    exact hresult
  · exact hj.progress_le
  · exact hj.progress_le_hopLimit
  · intro hlength
    have hcount : evs.countP (· == .worker) = evs.length := by
      rw [List.countP_eq_length]
      intro e he
      cases e with
      | worker => rfl
      | cancel => exact absurd he h
    have hzero : j.phase.rank o = 0 := by
      apply Runs.runFrom_rank_eq_zero (MtrInv o) (fun j : PmxMtrJob => j.phase.rank o) (A := fun _ => True)
        (G := (· == .worker))
      · exact fun j e _ hj => hj.step e
      · intro j e _ hj
        cases e with
        | worker => exact hj.rank_le
        | cancel => exact Nat.le_refl _
      · intro j e _ hj he hpos
        cases e with
        | worker =>
          exact mtrWorkerStep_rank hj.counted fun hended => hpos.ne' (MtrPhase.rank_eq_zero.2 hended)
        | cancel => cases he
      · exact fun _ _ => trivial
      · exact mtrInv_start
      · rw [hcount]
        exact hlength
    rw [pmxMtrDone, if_pos (hj.finished.2 (MtrPhase.rank_eq_zero.1 hzero))]
    rfl

theorem mtrJob_agrees_oneRouter :
    (pmxMtrDone (mtrJobAt oneRouter pmxPathOptsDefaults [] (List.replicate 273 .worker))).isSome := by
  apply (mtrJob_agrees oneRouter pmxPathOptsDefaults [] (List.replicate 273 .worker) ?_).2.2.2
  · rw [List.length_replicate]
    decide
  · rw [List.mem_replicate]
    exact fun h => nomatch h.2

/-- **Freeing a job in flight.**  Wherever the cancel meets the worker: it sends one more echo at most, and
its end is four of its own steps away, so that the join returns. -/
theorem mtrJob_cancelled (w : PathWorld) (o : PmxPathOpts) (name : List UInt8) (pre post : List MtrEvent) :
    let j := mtrJobAt w o name pre
    let j' := mtrJobAt w o name (pre ++ .cancel :: post)
    j'.echoes ≤ j.echoes + 1 ∧ (4 ≤ post.count .worker → j'.phase = .ended ∧ (pmxMtrDone j').isSome) := by
  intro j j'
  have hrun : j' =
      Runs.runFrom (mtrJobStep w o (strlcpy pmxMaxHost name)) { j with cancel := true } post := by
    simp only [j', j, mtrJobAt, Runs.runFrom, List.foldl_append, List.foldl_cons]
    rfl
  have hj : MtrInv o j := Runs.runFrom_inv (MtrInv o) (fun _ e hj => hj.step e) pre _ mtrInv_start
  have hj' : MtrCancelled o j.echoes j' := by
    rw [hrun]
    exact Runs.runFrom_inv _ (fun _ e h => h.step e) post _ (MtrCancelled.cancel hj)
  refine ⟨Nat.le_trans (Nat.le_add_right _ _) hj'.echoes_le, fun hcount => ?_⟩
  have hzero : j'.phase.cancelRank = 0 := by
    rw [hrun]
    apply Runs.runFrom_rank_eq_zero (MtrCancelled o j.echoes) (fun j : PmxMtrJob => j.phase.cancelRank)
      (A := fun _ => True) (G := (· == .worker))
    · exact fun _ e _ h => h.step e
    · intro j e _ h
      cases e with
      | worker => exact h.cancelRank_le
      | cancel => exact Nat.le_refl _
    · intro j e _ h he hpos
      cases e with
      | worker =>
        have hrun' : j.phase ≠ .ended := fun hended => hpos.ne' (MtrPhase.cancelRank_eq_zero.2 hended)
        exact mtrWorkerStep_cancelRank h.cancelled hrun'
      | cancel => cases he
    · exact fun _ _ => trivial
    · exact MtrCancelled.cancel hj
    · exact Nat.le_trans MtrPhase.cancelRank_le_four hcount
  have hended := MtrPhase.cancelRank_eq_zero.1 hzero
  refine ⟨hended, ?_⟩
  rw [pmxMtrDone, if_pos (hj'.finished.2 hended)]
  rfl

end Job

end ProxiMight
