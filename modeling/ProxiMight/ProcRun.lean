import ProxiMight.FairRuns
import ProxiMight.Types
import Mathlib.Logic.Function.Iterate

/-!
# Running a program and reading what it prints (`pmx_proc_run`)

The child writes into a pipe that holds only so much, and is blocked while it is full.  The parent waits
for it to exit, and reads the pipe between one wait and the next: into the caller's buffer, and once that
is full into a sink.  Parent and child take their steps in any order: between looking into the pipe and
reading from it, and between a wait, the look at the clock and `TerminateProcess`, the child may go on.  A
terminated child is not gone at once; the parent waits for it, but not for ever.

* **`procRun_captures`** — in every reachable state the buffer holds the front of what was printed; a
  blocked child is blocked for at most four steps of the parent.
* **`procRun_completes`** — a child that is given its turns gets to its end, whatever it prints, and then
  the buffer holds the front of all of it.
-/

namespace ProxiMight

/-- The child: at work, terminated but not gone yet, exited by itself, or gone by the termination. -/
inductive ChildState
  | running
  | dying
  | exited
  | killed
  deriving DecidableEq

/-- It can still print. -/
def ChildState.alive (c : ChildState) : Bool := c == .running || c == .dying

/-- `TerminateProcess`, which fails for a child that is gone. -/
def ChildState.terminate : ChildState → ChildState
  | .running => .dying
  | c => c

/-- Its end, by itself or by the termination. -/
def ChildState.gone : ChildState → ChildState
  | .running => .exited
  | .dying => .killed
  | c => c

/-- Where `pmx_proc_run` stands: in `drain_pipe`, before it looks into the pipe or before it reads `n` bytes;
before it waits for the child; behind a wait that failed, before it looks at the clock; before
`TerminateProcess`; in the wait for a terminated child; or returned.  `last` is the call of `drain_pipe`
behind the loop. -/
inductive ProcPhase
  | draining (last : Bool)
  | reading (n : ℕ) (sink last : Bool)
  | waiting
  | timing
  | terminating
  | lastWait
  | finished
  deriving DecidableEq

/-- A call with its child: what the child has still to print, what it has printed, what is in the pipe,
and what the parent has read; the buffer, which has `total` bytes in it; and whether the wait for a terminated
child ran out, which the source does not look at. -/
structure ProcCall where
  child : ChildState
  todo : List UInt8
  printed : List UInt8
  pipe : List UInt8
  read : List UInt8
  out : List UInt8
  status : PmxStatus
  gaveUp : Bool
  phase : ProcPhase

/-- `out_cap`, for a call that captures, and how much the pipe holds. -/
structure ProcLimits where
  outCap : ℕ
  pipeCap : ℕ
  captures : 1 < outCap
  pipeCap_pos : 0 < pipeCap

/-- The size of `sink`. -/
def procSinkSize : ℕ := 512

/-- The child's next turn, its end in the middle of its work, or the parent's next step; `late` is whether the
time is up that the parent looks at. -/
inductive ProcEvent
  | child (k : ℕ)
  | crash
  | parent (late : Bool)

/-- The child prints up to `k + 1` more bytes, as far as the pipe takes them, or ends. -/
def ProcCall.childTurn (l : ProcLimits) (s : ProcCall) (k : ℕ) : ProcCall :=
  if s.child.alive = false then s
  else if s.todo = [] then { s with child := s.child.gone }
  else
    let n := min (k + 1) (l.pipeCap - s.pipe.length)
    { s with
        todo := s.todo.drop n
        printed := s.printed ++ s.todo.take n
        pipe := s.pipe ++ s.todo.take n }

/-- `PeekNamedPipe`, and the choice of `dst` and `want`. -/
def ProcCall.peek (l : ProcLimits) (s : ProcCall) (last : Bool) : ProcCall :=
  if s.pipe = [] then { s with phase := if last then .finished else .waiting }
  else if s.out.length + 1 < l.outCap then
    { s with phase := .reading (min s.pipe.length (l.outCap - 1 - s.out.length)) false last }
  else { s with phase := .reading (min s.pipe.length procSinkSize) true last }

def ProcCall.parentStep (l : ProcLimits) (s : ProcCall) (late : Bool) : ProcCall :=
  match s.phase with
  | .draining last => s.peek l last
  | .reading n sink last =>
    { s with
        pipe := s.pipe.drop n
        read := s.read ++ s.pipe.take n
        out := if sink then s.out else s.out ++ s.pipe.take n
        phase := .draining last }
  | .waiting => { s with phase := if s.child.alive then .timing else .draining true }
  | .timing => { s with phase := if late then .terminating else .draining false }
  | .terminating => { s with child := s.child.terminate, phase := .lastWait }
  | .lastWait =>
    -- the wait goes on
    if s.child.alive = true ∧ late = false then s
    else { s with gaveUp := s.child.alive, status := .errTimeout, phase := .draining true }
  | .finished => s

def procStep (l : ProcLimits) (s : ProcCall) : ProcEvent → ProcCall
  | .child k => s.childTurn l k
  | .crash => { s with child := s.child.gone }
  | .parent late => s.parentStep l late

/-- The loop as it is entered, with a child that is to print `script`. -/
def procStart (script : List UInt8) : ProcCall :=
  ⟨.running, script, [], [], [], [], .ok, false, .draining false⟩

/-! ### What every step keeps -/

namespace ChildState

variable {c : ChildState}

theorem alive_gone (c : ChildState) : c.gone.alive = false := by cases c <;> rfl

theorem gone_ne_running (c : ChildState) : c.gone ≠ .running := by cases c <;> decide

theorem terminate_ne_running (c : ChildState) : c.terminate ≠ .running := by cases c <;> decide

theorem ne_running_of_not_alive (h : c.alive = false) : c ≠ .running := by
  rintro rfl
  cases h

/-- Who was not terminated does not end so. -/
theorem gone_spared (h : c ≠ .dying ∧ c ≠ .killed) : c.gone ≠ .dying ∧ c.gone ≠ .killed := by
  cases c with
  | running => decide
  | dying => exact absurd rfl h.1
  | exited => decide
  | killed => exact absurd rfl h.2

end ChildState

/-- A call of `drain_pipe` behind the loop, or none any more. -/
def ProcPhase.isLast : ProcPhase → Bool
  | .draining last => last
  | .reading _ _ last => last
  | .finished => true
  | _ => false

/-- What holds between the pipe, the buffer and the child. -/
structure ProcCall.Inv (l : ProcLimits) (script : List UInt8) (s : ProcCall) : Prop where
  prints : s.printed ++ s.todo = script
  conserved : s.printed = s.read ++ s.pipe
  captured : s.out = s.read.take (l.outCap - 1)
  room : s.pipe.length ≤ l.pipeCap
  reading : ∀ n sink last, s.phase = .reading n sink last → 0 < n ∧ n ≤ s.pipe.length ∧
    if sink then l.outCap ≤ s.out.length + 1 else s.out.length + n < l.outCap
  behind : s.phase.isLast = true ∨ s.phase = .lastWait → s.child ≠ .running
  last : s.phase.isLast = true → s.gaveUp = false → s.child.alive = false
  done : s.phase = .finished → s.gaveUp = false → s.pipe = []
  status : s.status = .ok ∨ s.phase.isLast = true ∧ s.status = .errTimeout
  gaveUp : s.gaveUp = true → s.status = .errTimeout
  spared : s.status = .ok → s.phase ≠ .lastWait → s.child ≠ .dying ∧ s.child ≠ .killed

namespace ProcCall.Inv

variable {l : ProcLimits} {script : List UInt8} {s : ProcCall}

theorem start (l : ProcLimits) (script : List UInt8) : (procStart script).Inv l script where
  prints := rfl
  conserved := rfl
  captured := List.take_nil.symm
  room := Nat.zero_le _
  reading := fun _ _ _ h => by cases h
  behind := fun h => by rcases h with h | h <;> cases h
  last := fun h => by cases h
  done := fun h => by cases h
  status := Or.inl rfl
  gaveUp := fun h => by cases h
  spared := fun _ _ => ⟨ChildState.noConfusion, ChildState.noConfusion⟩

/-- The end of the child, by itself or not. -/
theorem childEnd (h : s.Inv l script) : ({ s with child := s.child.gone } : ProcCall).Inv l script :=
  { h with
    behind := fun _ => ChildState.gone_ne_running _
    last := fun _ _ => ChildState.alive_gone _
    spared := fun hok hphase => ChildState.gone_spared (h.spared hok hphase) }

theorem childTurn (h : s.Inv l script) (k : ℕ) : (s.childTurn l k).Inv l script := by
  rw [ProcCall.childTurn]
  split_ifs with hgone htodo
  · exact h
  · exact h.childEnd
  · refine { h with prints := ?_, conserved := ?_, room := ?_, reading := ?_, done := ?_ }
    · show s.printed ++ s.todo.take _ ++ s.todo.drop _ = script
      rw [List.append_assoc, List.take_append_drop, h.prints]
    · show s.printed ++ s.todo.take _ = s.read ++ (s.pipe ++ s.todo.take _)
      rw [h.conserved, List.append_assoc]
    · show (s.pipe ++ s.todo.take _).length ≤ l.pipeCap
      have hroom := h.room
      rw [List.length_append, List.length_take]
      omega
    · intro n sink last hphase
      obtain ⟨hpos, hle, hfits⟩ := h.reading n sink last hphase
      refine ⟨hpos, ?_, hfits⟩
      show n ≤ (s.pipe ++ s.todo.take _).length
      rw [List.length_append]
      omega
    · intro (hphase : s.phase = .finished) hstayed
      exact absurd (h.last (by rw [hphase]; rfl) hstayed) hgone

/-- What a read into the buffer or the sink makes of the buffer. -/
theorem captured_read (h : s.Inv l script) {n : ℕ} {sink last : Bool}
    (hphase : s.phase = .reading n sink last) :
    (if sink then s.out else s.out ++ s.pipe.take n) = (s.read ++ s.pipe.take n).take (l.outCap - 1) := by
  obtain ⟨hpos, hle, hfits⟩ := h.reading n sink last hphase
  have hlen : s.out.length = min (l.outCap - 1) s.read.length := by
    rw [h.captured, List.length_take]
  cases sink with
  | true =>
    rw [if_pos rfl] at hfits ⊢
    rw [List.take_append_of_le_length (by omega)]
    exact h.captured
  | false =>
    rw [if_neg Bool.false_ne_true] at hfits ⊢
    have hall : s.read.length ≤ l.outCap - 1 := by omega
    have hout : s.out = s.read := by
      rw [h.captured, List.take_of_length_le hall]
    have hn : (s.pipe.take n).length = n := List.length_take_of_le hle
    rw [hout] at hfits ⊢
    refine (List.take_of_length_le ?_).symm
    rw [List.length_append, hn]
    omega

/-- Before the last call of `drain_pipe` nothing has gone wrong yet. -/
theorem status_ok (h : s.Inv l script) (hlast : s.phase.isLast = false) : s.status = .ok :=
  h.status.resolve_right fun hs => by
    rw [hlast] at hs
    cases hs.1

/-- Going on, on the same side of the loop's end. -/
theorem move (h : s.Inv l script) (hwait : s.phase ≠ .lastWait) {phase : ProcPhase}
    (hlast : phase.isLast = s.phase.isLast) (hwait' : phase ≠ .lastWait)
    (hdone : phase = .finished → s.pipe = [])
    (hreading : ∀ n sink last, phase = .reading n sink last → 0 < n ∧ n ≤ s.pipe.length ∧
      if sink then l.outCap ≤ s.out.length + 1 else s.out.length + n < l.outCap) :
    ({ s with phase := phase } : ProcCall).Inv l script := by
  have hstatus := h.status
  have hbehind := h.behind
  have hgone := h.last
  rw [← hlast] at hstatus hbehind hgone
  exact { h with
    reading := hreading
    behind := fun heq => hbehind (Or.inl (heq.resolve_right hwait'))
    last := hgone
    done := fun heq _ => hdone heq
    status := hstatus
    spared := fun hok _ => h.spared hok hwait }

theorem peek (h : s.Inv l script) {last : Bool} (hphase : s.phase = .draining last) :
    (s.peek l last).Inv l script := by
  have hlast : s.phase.isLast = last := by rw [hphase]; rfl
  have hwait : s.phase ≠ .lastWait := by rw [hphase]; exact fun heq => by cases heq
  rw [ProcCall.peek]
  by_cases hempty : s.pipe = []
  · rw [if_pos hempty]
    cases last
    all_goals
      exact h.move hwait hlast.symm (fun heq => by cases heq) (fun _ => hempty)
        fun _ _ _ heq => by cases heq
  · rw [if_neg hempty]
    have hpos := List.length_pos_of_ne_nil hempty
    have hsink : 0 < procSinkSize := by decide
    by_cases hbuf : s.out.length + 1 < l.outCap
    · rw [if_pos hbuf]
      refine h.move hwait hlast.symm (fun heq => by cases heq) (fun heq => by cases heq) ?_
      rintro n sink last ⟨⟩
      refine ⟨by omega, Nat.min_le_left _ _, ?_⟩
      show s.out.length + min _ _ < l.outCap
      omega
    · rw [if_neg hbuf]
      refine h.move hwait hlast.symm (fun heq => by cases heq) (fun heq => by cases heq) ?_
      rintro n sink last ⟨⟩
      refine ⟨by omega, Nat.min_le_left _ _, ?_⟩
      show l.outCap ≤ s.out.length + 1
      omega

theorem readStep (h : s.Inv l script) {n : ℕ} {sink last : Bool} (hphase : s.phase = .reading n sink last) :
    ({ s with
        pipe := s.pipe.drop n
        read := s.read ++ s.pipe.take n
        out := if sink then s.out else s.out ++ s.pipe.take n
        phase := .draining last } : ProcCall).Inv l script := by
  have hlast : s.phase.isLast = last := by rw [hphase]; rfl
  have hwait : s.phase ≠ .lastWait := by rw [hphase]; exact fun heq => by cases heq
  have hmoved : ({ s with phase := .draining last } : ProcCall).Inv l script :=
    h.move hwait hlast.symm (fun heq => by cases heq) (fun heq => by cases heq) fun _ _ _ heq => by cases heq
  refine { hmoved with
    conserved := ?_
    captured := h.captured_read hphase
    room := ?_
    reading := fun _ _ _ heq => by cases heq
    done := fun heq => by cases heq }
  · show s.printed = s.read ++ s.pipe.take n ++ s.pipe.drop n
    rw [List.append_assoc, List.take_append_drop]
    exact h.conserved
  · show (s.pipe.drop n).length ≤ l.pipeCap
    have hroom := h.room
    rw [List.length_drop]
    omega

theorem parentStep (h : s.Inv l script) (late : Bool) : (s.parentStep l late).Inv l script := by
  rw [ProcCall.parentStep]
  cases hphase : s.phase with
  | draining last => exact h.peek hphase
  | reading n sink last => exact h.readStep hphase
  | waiting =>
    have hlast : s.phase.isLast = false := by rw [hphase]; rfl
    have hwait : s.phase ≠ .lastWait := by rw [hphase]; exact fun heq => by cases heq
    dsimp only
    cases halive : s.child.alive with
    | true =>
      exact h.move hwait hlast.symm (fun heq => by cases heq) (fun heq => by cases heq)
        fun _ _ _ heq => by cases heq
    | false =>
      have hok := h.status_ok hlast
      exact { h with
        reading := fun _ _ _ heq => by cases heq
        behind := fun _ => ChildState.ne_running_of_not_alive halive
        last := fun _ _ => halive
        done := fun heq => by cases heq
        status := Or.inl hok
        spared := fun _ _ => h.spared hok hwait }
  | timing =>
    have hlast : s.phase.isLast = false := by rw [hphase]; rfl
    have hwait : s.phase ≠ .lastWait := by rw [hphase]; exact fun heq => by cases heq
    cases late
    all_goals
      exact h.move hwait hlast.symm (fun heq => by cases heq) (fun heq => by cases heq)
        fun _ _ _ heq => by cases heq
  | terminating =>
    exact { h with
      reading := fun _ _ _ heq => by cases heq
      behind := fun _ => ChildState.terminate_ne_running _
      last := fun heq => by cases heq
      done := fun heq => by cases heq
      status := Or.inl (h.status_ok (by rw [hphase]; rfl))
      spared := fun _ heq => absurd rfl heq }
  | lastWait =>
    dsimp only
    split_ifs with hwaits
    · exact h
    · exact { h with
        reading := fun _ _ _ heq => by cases heq
        behind := fun _ => h.behind (Or.inr hphase)
        last := fun _ heq => heq
        done := fun heq => by cases heq
        status := Or.inr ⟨rfl, rfl⟩
        gaveUp := fun _ => rfl
        spared := fun heq => by cases heq }
  | finished => exact h

theorem step (h : s.Inv l script) (e : ProcEvent) : (procStep l s e).Inv l script := by
  cases e with
  | child k => exact h.childTurn k
  | crash => exact h.childEnd
  | parent late => exact h.parentStep late

end ProcCall.Inv

/-! ### Never blocked for long -/

namespace ProcCall

/-- How many steps the parent is away from a read, while there is something to read, or from terminating the
child. -/
def blockRank (s : ProcCall) : ℕ :=
  match s.phase with
  | .draining _ => 2
  | .reading _ _ _ => 1
  | .waiting => 4
  | .timing => 3
  | .terminating => 1
  | .lastWait => 0
  | .finished => 0

variable {l : ProcLimits} {script : List UInt8} {s : ProcCall}

/-- A step that takes nothing from the child at work, adds nothing to the pipe, and reads from a full one or is
nearer to it. -/
structure Yields (l : ProcLimits) (s s' : ProcCall) : Prop where
  child : s'.child = .running
  todo : s'.todo = s.todo
  pipe : s'.pipe.length ≤ s.pipe.length
  full : s.pipe.length = l.pipeCap → s'.pipe.length < l.pipeCap ∨ s'.blockRank < s.blockRank

/-- A step of the parent while the child is at work and the time is not up. -/
theorem Inv.parentStep_running (h : s.Inv l script) (hrun : s.child = .running)
    (hterm : s.phase ≠ .terminating) : Yields l s (s.parentStep l false) := by
  rw [ProcCall.parentStep]
  cases hphase : s.phase with
  | draining last =>
    have hrank : s.blockRank = 2 := by rw [blockRank, hphase]
    dsimp only
    rw [ProcCall.peek]
    split_ifs with hempty hsub hbuf
    · exact absurd hrun (h.behind (Or.inl (by rw [hphase]; exact hsub)))
    · refine ⟨hrun, rfl, Nat.le_refl _, fun hfull => absurd hfull ?_⟩
      have hpos := l.pipeCap_pos
      rw [hempty, List.length_nil]
      omega
    · exact ⟨hrun, rfl, Nat.le_refl _, fun _ => Or.inr (by rw [hrank]; exact Nat.one_lt_two)⟩
    · exact ⟨hrun, rfl, Nat.le_refl _, fun _ => Or.inr (by rw [hrank]; exact Nat.one_lt_two)⟩
  | reading n sink last =>
    obtain ⟨hpos, hle, -⟩ := h.reading n sink last hphase
    have hlen : (s.pipe.drop n).length = s.pipe.length - n := List.length_drop
    have hcap := l.pipeCap_pos
    exact ⟨hrun, rfl, by dsimp only; omega, fun hfull => Or.inl (by dsimp only; omega)⟩
  | waiting =>
    have hrank : s.blockRank = 4 := by rw [blockRank, hphase]
    have halive : s.child.alive = true := by rw [hrun]; rfl
    dsimp only
    rw [halive, if_pos rfl]
    exact ⟨hrun, rfl, Nat.le_refl _, fun _ => Or.inr (by rw [hrank]; exact Nat.lt_succ_self 3)⟩
  | timing =>
    have hrank : s.blockRank = 3 := by rw [blockRank, hphase]
    dsimp only
    rw [if_neg Bool.false_ne_true]
    exact ⟨hrun, rfl, Nat.le_refl _, fun _ => Or.inr (by rw [hrank]; exact Nat.lt_succ_self 2)⟩
  | terminating => exact absurd hphase hterm
  | lastWait => exact absurd hrun (h.behind (Or.inr hphase))
  | finished => exact absurd hrun (h.behind (Or.inl (by rw [hphase]; rfl)))

/-- From a full pipe the parent has read, or has terminated the child. -/
def Unblocked (l : ProcLimits) (s : ProcCall) : Prop := s.pipe.length < l.pipeCap ∨ s.child = .dying

/-- **The parent unblocks the child**: from a full pipe it reads within as many steps as the rank says. -/
theorem Inv.unblocks : ∀ (n : ℕ) {s : ProcCall}, s.Inv l script → s.child = .running →
    s.pipe.length = l.pipeCap → s.blockRank ≤ n →
    ∃ m ≤ n, ((fun s => procStep l s (.parent false))^[m] s).Unblocked l := by
  intro n
  induction n with
  | zero =>
    intro s h hrun hfull hrank
    have hbehind : s.phase.isLast = true ∨ s.phase = .lastWait := by
      rw [blockRank] at hrank
      split at hrank
      · omega
      · omega
      · omega
      · omega
      · omega
      · next hphase => exact Or.inr hphase
      · next hphase => exact Or.inl (by rw [hphase]; rfl)
    exact absurd hrun (h.behind hbehind)
  | succ n ih =>
    intro s h hrun hfull hrank
    have hiter : ∀ m, (fun s => procStep l s (.parent false))^[m + 1] s
        = (fun s => procStep l s (.parent false))^[m] (s.parentStep l false) :=
      fun m => Function.iterate_succ_apply _ m s
    by_cases hterm : s.phase = .terminating
    · refine ⟨1, by omega, Or.inr ?_⟩
      rw [hiter]
      show (s.parentStep l false).child = .dying
      rw [ProcCall.parentStep, hterm]
      dsimp only
      rw [hrun]
      rfl
    · obtain ⟨hrun', -, hle, hread⟩ := h.parentStep_running hrun hterm
      by_cases hroom : (s.parentStep l false).pipe.length < l.pipeCap
      · exact ⟨1, by omega, by rw [hiter]; exact Or.inl hroom⟩
      · have hlower := (hread hfull).resolve_left hroom
        obtain ⟨m, hm, hpipe⟩ := ih (h.parentStep false) hrun' (by omega) (by omega)
        exact ⟨m + 1, by omega, by rw [hiter]; exact hpipe⟩

theorem blockRank_le (s : ProcCall) : s.blockRank ≤ 4 := by
  rw [blockRank]
  split <;> decide

/-- Nothing has gone wrong while no time is up. -/
structure Untimed (s : ProcCall) : Prop where
  status : s.status = .ok
  phase : s.phase ≠ .terminating ∧ s.phase ≠ .lastWait
  child : s.child ≠ .dying ∧ s.child ≠ .killed

theorem Untimed.step (h : s.Untimed) {e : ProcEvent} (he : e ≠ .parent true) : (procStep l s e).Untimed := by
  cases e with
  | child k =>
    show (s.childTurn l k).Untimed
    rw [ProcCall.childTurn]
    split_ifs
    · exact h
    · exact { h with child := ChildState.gone_spared h.child }
    · exact { h with }
  | crash => exact { h with child := ChildState.gone_spared h.child }
  | parent late =>
    obtain rfl : late = false := Bool.eq_false_iff.2 fun hlate => he (by rw [hlate])
    show (s.parentStep l false).Untimed
    rw [ProcCall.parentStep]
    cases hphase : s.phase with
    | draining last =>
      dsimp only
      rw [ProcCall.peek]
      split_ifs
      all_goals exact { h with phase := ⟨ProcPhase.noConfusion, ProcPhase.noConfusion⟩ }
    | reading n sink last => exact { h with phase := ⟨ProcPhase.noConfusion, ProcPhase.noConfusion⟩ }
    | waiting =>
      dsimp only
      split_ifs
      all_goals exact { h with phase := ⟨ProcPhase.noConfusion, ProcPhase.noConfusion⟩ }
    | timing => exact { h with phase := ⟨ProcPhase.noConfusion, ProcPhase.noConfusion⟩ }
    | terminating => exact absurd hphase h.phase.1
    | lastWait => exact absurd hphase h.phase.2
    | finished => exact h

theorem Untimed.start (script : List UInt8) : (procStart script).Untimed :=
  ⟨rfl, ⟨ProcPhase.noConfusion, ProcPhase.noConfusion⟩, ⟨ChildState.noConfusion, ChildState.noConfusion⟩⟩

end ProcCall

/-- **What is captured.**  However child and parent interleave, and whether the child exits, crashes or is
terminated: the buffer holds the front of what the child has printed and leaves room for the terminator.  A
call that has returned holds as much of all that was printed as the buffer takes, unless its wait for a
terminated child ran out.  If it reports success the child has ended by itself; it reports a timeout, and
nothing else, only if a time was up.  From a full pipe the parent reads within four steps, or has terminated
the child. -/
theorem procRun_captures (l : ProcLimits) (script : List UInt8) (evs : List ProcEvent) :
    let s := Runs.runFrom (procStep l) (procStart script) evs
    (s.out <+: s.printed ∧ s.out.length < l.outCap ∧ s.printed <+: script) ∧
      (s.phase = .finished →
        (s.gaveUp = false → s.out = s.printed.take (l.outCap - 1) ∧ s.child.alive = false) ∧
        (s.status = .ok → s.gaveUp = false ∧ s.child = .exited) ∧
        (s.status ≠ .ok → s.status = .errTimeout ∧ .parent true ∈ evs)) ∧
      (s.child = .running → s.pipe.length = l.pipeCap →
        ∃ n ≤ 4, ((fun s => procStep l s (.parent false))^[n] s).Unblocked l) := by
  intro s
  have h : s.Inv l script :=
    Runs.runFrom_inv (ProcCall.Inv l script) (fun _ e hs => hs.step e) evs _ (ProcCall.Inv.start l script)
  refine ⟨⟨?_, ?_, _, h.prints⟩, fun hdone => ⟨fun hstayed => ?_, fun hok => ?_, fun hnot => ?_⟩,
    fun hrun hfull => h.unblocks 4 hrun hfull s.blockRank_le⟩
  · rw [h.captured, h.conserved]
    exact (List.take_prefix _ _).trans (List.prefix_append _ _)
  · have hcap := l.captures
    rw [h.captured, List.length_take]
    omega
  · refine ⟨?_, h.last (by rw [hdone]; rfl) hstayed⟩
    rw [h.captured, h.conserved, h.done hdone hstayed, List.append_nil]
  · have hstayed : s.gaveUp = false := by
      rw [Bool.eq_false_iff]
      intro hgave
      rw [h.gaveUp hgave] at hok
      cases hok
    obtain ⟨hdying, hkilled⟩ := h.spared hok (by rw [hdone]; exact fun heq => by cases heq)
    refine ⟨hstayed, ?_⟩
    cases hchild : s.child with
    | running => exact absurd hchild (h.behind (Or.inl (by rw [hdone]; rfl)))
    | dying => exact absurd hchild hdying
    | exited => rfl
    | killed => exact absurd hchild hkilled
  · refine ⟨(h.status.resolve_left hnot).2, ?_⟩
    by_contra hnever
    have huntimed : s.Untimed :=
      Runs.runFrom_inv_of_mem ProcCall.Untimed (G := (· ≠ .parent true)) (fun _ _ he hs => hs.step he) evs _
        (fun e he (heq : e = .parent true) => hnever (heq ▸ he)) (ProcCall.Untimed.start script)
    exact hnot huntimed.status

/-! ### A call returns -/

namespace ProcCall

/-- How far a call whose child is gone is from its return. -/
def returnRank (s : ProcCall) : ℕ :=
  2 * s.pipe.length +
    match s.phase with
    | .draining last => if last then 1 else 4
    | .reading _ _ last => if last then 0 else 3
    | .waiting => 2
    | .timing => 5
    | .terminating => 3
    | .lastWait => 2
    | .finished => 0

variable {l : ProcLimits} {script : List UInt8} {s : ProcCall}

/-- The child's turn: it exits if it has printed everything, and else prints what fits. -/
theorem childTurn_running (l : ProcLimits) (hrun : s.child = .running) (k : ℕ) :
    (s.todo = [] ∧ (s.childTurn l k).child = .exited) ∨
      (s.pipe.length < l.pipeCap ∧ (s.childTurn l k).child = .running ∧
        (s.childTurn l k).todo.length < s.todo.length) ∨
      (l.pipeCap ≤ s.pipe.length ∧ s.childTurn l k = s) := by
  have halive : s.child.alive ≠ false := by
    rw [hrun]
    decide
  rw [ProcCall.childTurn, if_neg halive]
  by_cases htodo : s.todo = []
  · rw [if_pos htodo]
    exact Or.inl ⟨htodo, by rw [hrun]; rfl⟩
  · rw [if_neg htodo]
    have hpos := List.length_pos_of_ne_nil htodo
    by_cases hroom : s.pipe.length < l.pipeCap
    · refine Or.inr (Or.inl ⟨hroom, hrun, ?_⟩)
      show (s.todo.drop _).length < s.todo.length
      rw [List.length_drop]
      omega
    · refine Or.inr (Or.inr ⟨Nat.not_lt.1 hroom, ?_⟩)
      have hnone : min (k + 1) (l.pipeCap - s.pipe.length) = 0 := by omega
      rw [hnone]
      dsimp only
      rw [List.drop_zero, List.take_zero, List.append_nil, List.append_nil]

theorem childTurn_todo_of_nil (l : ProcLimits) (htodo : s.todo = []) (k : ℕ) :
    (s.childTurn l k).todo = s.todo := by
  rw [ProcCall.childTurn]
  split_ifs <;> rfl

theorem parentStep_todo (l : ProcLimits) (s : ProcCall) (late : Bool) :
    (s.parentStep l late).todo = s.todo := by
  rw [ProcCall.parentStep]
  split
  · rw [ProcCall.peek]
    split_ifs <;> rfl
  · rfl
  · rfl
  · rfl
  · rfl
  · split_ifs <;> rfl
  · rfl

theorem childTurn_of_exited (l : ProcLimits) (h : s.child = .exited) (k : ℕ) : s.childTurn l k = s :=
  if_pos (by rw [h]; rfl)

/-- A step of the parent behind the child's end takes it nearer to its return. -/
theorem Inv.parentStep_exited (h : s.Inv l script) (hexit : s.child = .exited) :
    (s.parentStep l false).child = .exited ∧ ((s.parentStep l false).phase = .finished ∨
      (s.parentStep l false).returnRank < s.returnRank) := by
  have hgone : s.child.alive = false := by
    rw [hexit]
    rfl
  rw [ProcCall.parentStep, returnRank, returnRank]
  cases hphase : s.phase with
  | draining last =>
    dsimp only
    rw [ProcCall.peek]
    split_ifs with hempty hsub hbuf
    · exact ⟨hexit, Or.inl rfl⟩
    · exact ⟨hexit, Or.inr (by dsimp only; omega)⟩
    · exact ⟨hexit, Or.inr (by dsimp only; split_ifs; omega)⟩
    · exact ⟨hexit, Or.inr (by dsimp only; split_ifs; omega)⟩
    · exact ⟨hexit, Or.inr (by dsimp only; split_ifs; omega)⟩
    · exact ⟨hexit, Or.inr (by dsimp only; split_ifs; omega)⟩
  | reading n sink last =>
    obtain ⟨hpos, hle, -⟩ := h.reading n sink last hphase
    refine ⟨hexit, Or.inr ?_⟩
    dsimp only
    rw [List.length_drop]
    cases last with
    | true =>
      simp only [if_true]
      omega
    | false =>
      simp only [Bool.false_eq_true, if_false]
      omega
  | waiting =>
    dsimp only
    rw [hgone, if_neg Bool.false_ne_true]
    exact ⟨hexit, Or.inr (by simp only [if_true]; omega)⟩
  | timing =>
    dsimp only
    rw [if_neg Bool.false_ne_true]
    exact ⟨hexit, Or.inr (by simp only [Bool.false_eq_true, if_false]; omega)⟩
  | terminating =>
    dsimp only
    rw [hexit]
    exact ⟨rfl, Or.inr (by omega)⟩
  | lastWait =>
    dsimp only
    rw [hgone, if_neg fun hwaits => Bool.false_ne_true hwaits.1]
    exact ⟨hexit, Or.inr (by simp only [if_true]; omega)⟩
  | finished => exact ⟨hexit, Or.inl hphase⟩

end ProcCall

section Schedule

variable (l : ProcLimits) (script : List UInt8) (sched : ℕ → ProcEvent)

/-- The call before event `n` of the schedule. -/
def procAt (n : ℕ) : ProcCall := Runs.stateAt (procStep l) (procStart script) sched n

/-- The child does not crash, and the time is not up. -/
def Undisturbed : Prop := ∀ n, sched n ≠ .crash ∧ sched n ≠ .parent true

/-- The child's turns. -/
def ProcEvent.IsChild (e : ProcEvent) : Prop := ∃ k, e = .child k

variable {l script sched}

theorem procAt_inv (n : ℕ) : (procAt l script sched n).Inv l script :=
  Runs.stateAt_inv (ProcCall.Inv l script) (A := fun _ => True) (fun _ e _ h => h.step e)
    (fun _ => trivial) (ProcCall.Inv.start l script) n

/-- An undisturbed schedule has turns of the child and steps of the parent. -/
theorem Undisturbed.cases (hsched : Undisturbed sched) (n : ℕ) :
    (∃ k, sched n = .child k) ∨ sched n = .parent false := by
  obtain ⟨hcrash, hlate⟩ := hsched n
  cases hev : sched n with
  | child k => exact Or.inl ⟨k, rfl⟩
  | crash => exact absurd hev hcrash
  | parent late =>
    cases late with
    | true => exact absurd hev hlate
    | false => exact Or.inr rfl

theorem procAt_child {n k : ℕ} (h : sched n = .child k) :
    procAt l script sched (n + 1) = (procAt l script sched n).childTurn l k := by
  show procStep l (procAt l script sched n) (sched n) = _
  rw [h]
  rfl

theorem procAt_parent {n : ℕ} (h : sched n = .parent false) :
    procAt l script sched (n + 1) = (procAt l script sched n).parentStep l false := by
  show procStep l (procAt l script sched n) (sched n) = _
  rw [h]
  rfl

theorem procAt_untimed (hsched : Undisturbed sched) (n : ℕ) : (procAt l script sched n).Untimed :=
  Runs.stateAt_inv ProcCall.Untimed (A := (· ≠ .parent true)) (fun _ _ he h => h.step he)
    (fun n => (hsched n).2) (ProcCall.Untimed.start script) n

theorem procAt_running (hsched : Undisturbed sched) {n : ℕ}
    (hrun : (procAt l script sched n).child = .running) :
    ProcCall.Yields l (procAt l script sched n) ((procAt l script sched n).parentStep l false) :=
  (procAt_inv n).parentStep_running hrun (procAt_untimed hsched n).phase.1

/-- Undisturbed, the child is at work, or has printed everything and exited. -/
theorem procAt_running_or (hsched : Undisturbed sched) (n : ℕ) :
    (procAt l script sched n).child = .running ∨
      (procAt l script sched n).child = .exited ∧ (procAt l script sched n).todo = [] := by
  induction n with
  | zero => exact Or.inl rfl
  | succ n ih =>
    rcases hsched.cases n with ⟨k, hev⟩ | hev
    · rw [procAt_child hev]
      rcases ih with hrun | ⟨hexit, htodo⟩
      · rcases ProcCall.childTurn_running l hrun k with ⟨htodo, hexit⟩ | ⟨-, hrun', -⟩ | ⟨-, heq⟩
        · refine Or.inr ⟨hexit, ?_⟩
          rw [ProcCall.childTurn_todo_of_nil l htodo]
          exact htodo
        · exact Or.inl hrun'
        · rw [heq]
          exact Or.inl hrun
      · rw [ProcCall.childTurn_of_exited l hexit]
        exact Or.inr ⟨hexit, htodo⟩
    · rw [procAt_parent hev, ProcCall.parentStep_todo]
      rcases ih with hrun | ⟨hexit, htodo⟩
      · exact Or.inl (procAt_running hsched hrun).1
      · exact Or.inr ⟨((procAt_inv n).parentStep_exited hexit).1, htodo⟩

/-- The child is at work, with `r` bytes to print. -/
def ProcCall.Left (r : ℕ) (s : ProcCall) : Prop := s.child = .running ∧ s.todo.length = r

/-- It is done, or has fewer than `r` left. -/
def ProcCall.Less (r : ℕ) (s : ProcCall) : Prop := s.child = .exited ∨ s.child = .running ∧ s.todo.length < r

/-- Its next turn will not be in vain. -/
def ProcCall.Free (l : ProcLimits) (s : ProcCall) : Prop := s.todo = [] ∨ s.pipe.length < l.pipeCap

/-- A turn of the child that is not in vain. -/
theorem ProcCall.Left.childTurn {r : ℕ} {s : ProcCall} (h : s.Left r) (k : ℕ) :
    (s.childTurn l k).Less r ∨ ¬s.Free l ∧ s.childTurn l k = s := by
  rcases ProcCall.childTurn_running l h.1 k with ⟨-, hexit⟩ | ⟨-, hrun, hless⟩ | ⟨hfull, heq⟩
  · exact Or.inl (Or.inl hexit)
  · exact Or.inl (Or.inr ⟨hrun, by rw [← h.2]; exact hless⟩)
  · by_cases htodo : s.todo = []
    · refine Or.inl (Or.inl ?_)
      rw [ProcCall.childTurn, if_neg (by rw [h.1]; decide), if_pos htodo, h.1]
      rfl
    · exact Or.inr ⟨fun hfree => hfree.elim htodo (Nat.not_lt.2 hfull), heq⟩

theorem left_leadsTo_free (hsched : Undisturbed sched) (hparent : Runs.Often sched (· = .parent false))
    (r : ℕ) : Runs.LeadsTo (procAt l script sched) (ProcCall.Left r)
      fun s => (s.Left r ∧ s.Free l) ∨ s.Less r := by
  have hstep : ∀ n, (procAt l script sched n).Left r → sched n = .parent false →
      (procAt l script sched (n + 1)).Left r ∧ ((procAt l script sched (n + 1)).Free l ∨
        (procAt l script sched (n + 1)).blockRank < (procAt l script sched n).blockRank) := by
    intro n hleft hev
    rw [procAt_parent hev]
    obtain ⟨hrun, htodo, hle, hread⟩ := procAt_running hsched hleft.1
    have hinv : (procAt l script sched n).Inv l script := procAt_inv n
    have hroom := hinv.room
    refine ⟨⟨hrun, by rw [htodo]; exact hleft.2⟩, ?_⟩
    by_cases hfull : (procAt l script sched n).pipe.length = l.pipeCap
    · rcases hread hfull with hlt | hlt
      · exact Or.inl (Or.inr hlt)
      · exact Or.inr hlt
    · exact Or.inl (Or.inr (by omega))
  apply Runs.leadsTo_of_helpful_rank ProcCall.blockRank hparent
  · intro n (hleft : (procAt l script sched n).Left r)
    rcases hsched.cases n with ⟨k, hev⟩ | hev
    · show ((procAt l script sched (n + 1)).Left r ∧ (procAt l script sched (n + 1)).Free l ∨
          (procAt l script sched (n + 1)).Less r) ∨ (procAt l script sched (n + 1)).Left r ∧
            (procAt l script sched (n + 1)).blockRank ≤ (procAt l script sched n).blockRank
      rw [procAt_child hev]
      rcases hleft.childTurn (l := l) k with hless | ⟨-, heq⟩
      · exact Or.inl (Or.inr hless)
      · rw [heq]
        exact Or.inr ⟨hleft, Nat.le_refl _⟩
    · obtain ⟨hleft', hfree | hlt⟩ := hstep n hleft hev
      · exact Or.inl (Or.inl ⟨hleft', hfree⟩)
      · exact Or.inr ⟨hleft', Nat.le_of_lt hlt⟩
  · intro n hleft hev
    obtain ⟨hleft', hfree | hlt⟩ := hstep n hleft hev
    · exact Or.inl (Or.inl ⟨hleft', hfree⟩)
    · exact Or.inr ⟨hleft', hlt⟩

theorem free_leadsTo_less (hsched : Undisturbed sched) (hchild : Runs.Often sched ProcEvent.IsChild)
    (r : ℕ) : Runs.LeadsTo (procAt l script sched) (fun s => s.Left r ∧ s.Free l) (ProcCall.Less r) := by
  have hturn : ∀ n k, (procAt l script sched n).Left r ∧ (procAt l script sched n).Free l →
      sched n = .child k → (procAt l script sched (n + 1)).Less r := by
    intro n k hn hev
    rw [procAt_child hev]
    exact (hn.1.childTurn k).resolve_right fun h => h.1 hn.2
  apply Runs.leadsTo_of_helpful hchild
  · intro n hn
    rcases hsched.cases n with ⟨k, hev⟩ | hev
    · exact Or.inr (hturn n k hn hev)
    · obtain ⟨hrun, htodo, hle, -⟩ := procAt_running hsched hn.1.1
      refine Or.inl ?_
      show (procAt l script sched (n + 1)).Left r ∧ (procAt l script sched (n + 1)).Free l
      rw [procAt_parent hev]
      refine ⟨⟨hrun, by rw [htodo]; exact hn.1.2⟩, ?_⟩
      rcases hn.2 with hnil | hroom
      · exact Or.inl (htodo.trans hnil)
      · exact Or.inr (Nat.lt_of_le_of_lt hle hroom)
  · rintro n hn ⟨k, hev⟩
    exact hturn n k hn hev

/-- Given its turns, the child gets to its end. -/
theorem running_leadsTo_exited (hsched : Undisturbed sched)
    (hchild : Runs.Often sched ProcEvent.IsChild) (hparent : Runs.Often sched (· = .parent false)) :
    Runs.LeadsTo (procAt l script sched) (·.child = .running) (·.child = .exited) := by
  apply Runs.leadsTo_of_rank fun s => s.todo.length
  intro r
  apply (left_leadsTo_free hsched hparent r).trans
  exact (free_leadsTo_less hsched hchild r).or (Runs.LeadsTo.of_imp fun _ h => h)

/-- Behind the child's end the parent reads the rest and returns. -/
theorem exited_leadsTo_finished (hsched : Undisturbed sched)
    (hparent : Runs.Often sched (· = .parent false)) :
    Runs.LeadsTo (procAt l script sched) (·.child = .exited) (·.phase = .finished) := by
  apply Runs.leadsTo_of_helpful_rank ProcCall.returnRank hparent
  · intro n (hexit : (procAt l script sched n).child = .exited)
    show (procAt l script sched (n + 1)).phase = .finished ∨
      (procAt l script sched (n + 1)).child = .exited ∧
        (procAt l script sched (n + 1)).returnRank ≤ (procAt l script sched n).returnRank
    rcases hsched.cases n with ⟨k, hev⟩ | hev
    · rw [procAt_child hev, ProcCall.childTurn_of_exited l hexit]
      exact Or.inr ⟨hexit, Nat.le_refl _⟩
    · rw [procAt_parent hev]
      obtain ⟨hexit', hdone | hlt⟩ := (procAt_inv n).parentStep_exited hexit
      · exact Or.inl hdone
      · exact Or.inr ⟨hexit', Nat.le_of_lt hlt⟩
  · intro n (hexit : (procAt l script sched n).child = .exited) hev
    show (procAt l script sched (n + 1)).phase = .finished ∨
      (procAt l script sched (n + 1)).child = .exited ∧
        (procAt l script sched (n + 1)).returnRank < (procAt l script sched n).returnRank
    rw [procAt_parent hev]
    obtain ⟨hexit', hdone | hlt⟩ := (procAt_inv n).parentStep_exited hexit
    · exact Or.inl hdone
    · exact Or.inr ⟨hexit', hlt⟩

end Schedule

/-- **A call returns.**  A child that neither crashes nor runs out of time, and is given its turns again and
again, as the parent is, gets to its end, however much it prints; the call returns success, and the buffer
holds the front of the whole output. -/
theorem procRun_completes (l : ProcLimits) (script : List UInt8) (sched : ℕ → ProcEvent)
    (hsched : Undisturbed sched) (hchild : Runs.Often sched ProcEvent.IsChild)
    (hparent : Runs.Often sched (· = .parent false)) :
    ∃ n, (procAt l script sched n).phase = .finished ∧ (procAt l script sched n).status = .ok ∧
      (procAt l script sched n).out = script.take (l.outCap - 1) := by
  have hrun : (procAt l script sched 0).child = .running := rfl
  obtain ⟨m, -, hexit⟩ := running_leadsTo_exited hsched hchild hparent 0 hrun
  obtain ⟨n, -, hdone⟩ := exited_leadsTo_finished hsched hparent m hexit
  have hinv : (procAt l script sched n).Inv l script := procAt_inv n
  have huntimed : (procAt l script sched n).Untimed := procAt_untimed hsched n
  have hstayed : (procAt l script sched n).gaveUp = false := by
    rw [Bool.eq_false_iff]
    intro hgave
    have hstatus := huntimed.status
    rw [hinv.gaveUp hgave] at hstatus
    cases hstatus
  have hbehind := hinv.behind (Or.inl (by rw [hdone]; rfl))
  obtain ⟨-, htodo⟩ := (procAt_running_or hsched n).resolve_left hbehind
  have hread : (procAt l script sched n).read = script := by
    have hprints := hinv.prints
    rw [htodo, List.append_nil, hinv.conserved, hinv.done hdone hstayed, List.append_nil] at hprints
    exact hprints
  refine ⟨n, hdone, huntimed.status, ?_⟩
  rw [hinv.captured, hread]

/-- Turns taken one after the other. -/
def takingTurns (n : ℕ) : ProcEvent := if n % 2 = 0 then .child 9 else .parent false

/-- Five bytes through a pipe of two, into a buffer of four. -/
theorem procRun_completes_turns :
    ∃ n, (procAt ⟨4, 2, by decide, by decide⟩ [1, 2, 3, 4, 5] takingTurns n).out = [1, 2, 3] := by
  have hodd : ∀ n, (2 * n + 1) % 2 = 1 := fun n => by omega
  obtain ⟨n, -, -, hout⟩ := procRun_completes ⟨4, 2, by decide, by decide⟩ [1, 2, 3, 4, 5] takingTurns
    (fun n => by rw [takingTurns]; split_ifs <;> exact ⟨nofun, nofun⟩)
    (fun n => ⟨2 * n, by omega, 9, if_pos (by omega)⟩)
    (fun n => ⟨2 * n + 1, by omega, if_neg (by rw [hodd]; decide)⟩)
  exact ⟨n, hout⟩

end ProxiMight
