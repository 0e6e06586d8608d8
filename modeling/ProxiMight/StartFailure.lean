import ProxiMight.Runs
import ProxiMight.WinDivert

/-!
# What a failed start leaves behind (`wd_start`, `wd_stop`)

A start opens two driver handles, starts the relay, allocates the NAT table and starts two pump threads.
Each step that fails undoes the ones before it by a list of its own.  Here the handles, relays, tables and
threads are counted one by one, under numbers that are never given twice.

* **`leavesNothing_iff`** — a run leaves nothing behind just when no start of it fails at a thread.
* **`failedStarts_leak`** — each start that fails at the second thread leaves a relay, a table and a pump.
-/

namespace ProxiMight

open Runs

/-- What is held for the backend: open driver handles, relays, NAT tables, threads that are not joined, and
pump threads that run. -/
structure WdHeld where
  handles : List ℕ
  relays : List ℕ
  nats : List ℕ
  threads : List ℕ
  pumps : List ℕ
  next : ℕ
  deriving DecidableEq

/-- What is left of some objects when one is let go, unless the pointer is NULL. -/
def letGo : Option ℕ → List ℕ → List ℕ
  | none, l => l
  | some a, l => l.erase a

namespace WdHeld

variable (w : WdHeld)

/-- `WinDivertOpen`. -/
def winDivertOpen : WdHeld × ℕ := ({ w with handles := w.next :: w.handles, next := w.next + 1 }, w.next)

/-- `WinDivertClose`, of a handle that is not NULL. -/
def winDivertClose (h : Option ℕ) : WdHeld := { w with handles := letGo h w.handles }

/-- `pmx_relay_start`. -/
def relayStart : WdHeld × ℕ := ({ w with relays := w.next :: w.relays, next := w.next + 1 }, w.next)

/-- `pmx_relay_stop`. -/
def relayStop (r : Option ℕ) : WdHeld := { w with relays := letGo r w.relays }

/-- `pmx_nat_create`. -/
def natCreate : WdHeld × ℕ := ({ w with nats := w.next :: w.nats, next := w.next + 1 }, w.next)

/-- `pmx_nat_destroy`. -/
def natDestroy (t : Option ℕ) : WdHeld := { w with nats := letGo t w.nats }

/-- `pmx_thread_start`, of a pump. -/
def threadStart : WdHeld × ℕ :=
  ({ w with threads := w.next :: w.threads, pumps := w.next :: w.pumps, next := w.next + 1 }, w.next)

/-- `pmx_thread_join`: it waits until the thread has ended. -/
def threadJoin (t : Option ℕ) : WdHeld :=
  { w with threads := letGo t w.threads, pumps := letGo t w.pumps }

/-- A pump returns. -/
def pumpEnds (t : ℕ) : WdHeld := { w with pumps := w.pumps.erase t }

end WdHeld

/-- The members of `wd_impl` that own something, the flags a start reads and writes, and what is held. -/
structure WdObj where
  handle : Option ℕ
  netHandle : Option ℕ
  netPump : Option ℕ
  relay : Option ℕ
  relayPort : PmxPort
  nat : Option ℕ
  hasDecide : Bool
  pump : Option ℕ
  running : Bool
  blockWhenCannotProxy : Bool
  held : WdHeld
  deriving DecidableEq

/-- `pmx_backend_windivert_create`, the object. -/
def wdObjCreate : WdObj where
  handle := none
  netHandle := none
  netPump := none
  relay := none
  relayPort := 0
  nat := none
  hasDecide := false
  pump := none
  running := false
  blockWhenCannotProxy := true
  held := ⟨[], [], [], [], [], 0⟩

/-- What the operating system answers during `wd_start`, each thread apart. -/
structure WdStartOs where
  socketLayer : WdOpen
  relayStatus : PmxStatus
  relayPort : PmxPort
  natAllocOk : Bool
  networkLayer : WdOpen
  firstThread : Bool
  secondThread : Bool

namespace WdObj

/-- What `wd_start` undoes when a thread does not start. -/
def threadFailed (s : WdObj) : WdObj :=
  { s with
    running := false
    held := (s.held.winDivertClose s.handle).winDivertClose s.netHandle
    handle := none
    netHandle := none }

/-- The two threads. -/
def startPumps (s : WdObj) (first second : Bool) : WdObj × PmxStatus :=
  if !first then (s.threadFailed, .errBackend)
  else
    let t := s.held.threadStart
    let s := { s with pump := some t.2, held := t.1 }
    if !second then (s.threadFailed, .errBackend)
    else
      let t := s.held.threadStart
      ({ s with netPump := some t.2, held := t.1 }, .ok)

/-- `wd_start` once the socket layer is open. -/
def startOpened (s : WdObj) (os : WdStartOs) : WdObj × PmxStatus :=
  let h := s.held.winDivertOpen
  if os.relayStatus ≠ .ok then
    -- `pmx_relay_start` writes NULL before it tries
    ({ s with relay := none, held := h.1.winDivertClose (some h.2) }, os.relayStatus)
  else
    let r := h.1.relayStart
    let s := { s with relay := some r.2, relayPort := os.relayPort }
    if !os.natAllocOk then
      ({ s with
          nat := none
          relay := none
          held := (r.1.relayStop (some r.2)).winDivertClose (some h.2) }, .errNoMemory)
    else
      let t := r.1.natCreate
      if os.networkLayer ≠ .opened then
        ({ s with
            nat := none
            relay := none
            held := ((t.1.natDestroy (some t.2)).relayStop (some r.2)).winDivertClose (some h.2) },
          .errBackend)
      else
        let nh := t.1.winDivertOpen
        startPumps
          { s with
            nat := some t.2
            handle := some h.2
            netHandle := some nh.2
            running := true
            held := nh.1 } os.firstThread os.secondThread

def wdStart (s : WdObj) (os : WdStartOs) (cfg : PmxBackendConfig) : WdObj × PmxStatus :=
  if s.running then (s, .ok)
  else
    let s := { s with blockWhenCannotProxy := cfg.blockWhenCannotProxy }
    if !s.hasDecide then (s, .errState)
    else
      match os.socketLayer with
      | .accessDenied => (s, .errPermission)
      | .failed => (s, .errBackend)
      | .opened => s.startOpened os

def wdStop (s : WdObj) : WdObj × PmxStatus :=
  let joined := (s.held.threadJoin s.pump).threadJoin s.netPump
  let closed := (joined.winDivertClose s.handle).winDivertClose s.netHandle
  ({ s with
      running := false
      pump := none
      netPump := none
      handle := none
      netHandle := none
      relay := none
      nat := none
      held := (closed.relayStop s.relay).natDestroy s.nat }, .ok)

end WdObj

/-! ### Runs -/

/-- What happens to a backend: the engine binds the callback, starts and stops it, and a pump returns. -/
inductive WdEvent
  | setDecide (bound : Bool)
  | start (os : WdStartOs) (cfg : PmxBackendConfig)
  | stop
  | pumpEnds (t : ℕ)

/-- One event; a pump returns only when it finds `running` false. -/
def wdObjStep (s : WdObj) : WdEvent → WdObj
  | .setDecide bound => { s with hasDecide := bound }
  | .start os cfg => (s.wdStart os cfg).1
  | .stop => s.wdStop.1
  | .pumpEnds t => if s.running then s else { s with held := s.held.pumpEnds t }

/-- Nothing is left: not in the object, and not outside. -/
structure Released (s : WdObj) : Prop where
  running : s.running = false
  relay : s.relay = none
  nat : s.nat = none
  handles : s.handle = none ∧ s.netHandle = none
  threads : s.pump = none ∧ s.netPump = none
  noHandle : s.held.handles = []
  noRelay : s.held.relays = []
  noNat : s.held.nats = []
  noThread : s.held.threads = []
  noPump : s.held.pumps = []

/-- A start that fails, and every stop, leaves nothing. -/
def LeavesNothing (s : WdObj) : WdEvent → Prop
  | .start os cfg => (s.wdStart os cfg).2 ≠ .ok → Released (s.wdStart os cfg).1
  | .stop => Released s.wdStop.1
  | _ => True

/-- The start does not come as far as a thread that does not start. -/
def NoThreadFails (s : WdObj) : WdEvent → Prop
  | .start os _ =>
    s.running = true ∨ s.hasDecide = false ∨ os.socketLayer ≠ .opened ∨ os.relayStatus ≠ .ok ∨
      os.natAllocOk = false ∨ os.networkLayer ≠ .opened ∨ (os.firstThread = true ∧ os.secondThread = true)
  | _ => True

/-! ### What a run owns -/

/-- What is held is what the object points at, and it points at nothing unless the backend runs. -/
structure Owned (s : WdObj) : Prop where
  handles : s.held.handles = s.netHandle.toList ++ s.handle.toList
  relays : s.held.relays = s.relay.toList
  nats : s.held.nats = s.nat.toList
  threads : s.held.threads = s.netPump.toList ++ s.pump.toList
  pumps : s.held.pumps = s.netPump.toList ++ s.pump.toList
  idle : s.running = false → s.relay = none ∧ s.nat = none ∧ (s.handle = none ∧ s.netHandle = none) ∧
    (s.pump = none ∧ s.netPump = none)

theorem Owned.released {s : WdObj} (h : Owned s) (hidle : s.running = false) : Released s := by
  obtain ⟨hrelay, hnat, hhandles, hthreads⟩ := h.idle hidle
  refine ⟨hidle, hrelay, hnat, hhandles, hthreads, ?_, ?_, ?_, ?_, ?_⟩
  · rw [h.handles, hhandles.1, hhandles.2]
    rfl
  · rw [h.relays, hrelay]
    rfl
  · rw [h.nats, hnat]
    rfl
  · rw [h.threads, hthreads.1, hthreads.2]
    rfl
  · rw [h.pumps, hthreads.1, hthreads.2]
    rfl

theorem Released.owned {s : WdObj} (h : Released s) : Owned s := by
  refine ⟨?_, ?_, ?_, ?_, ?_, fun _ => ⟨h.relay, h.nat, h.handles, h.threads⟩⟩
  · rw [h.noHandle, h.handles.1, h.handles.2]
    rfl
  · rw [h.noRelay, h.relay]
    rfl
  · rw [h.noNat, h.nat]
    rfl
  · rw [h.noThread, h.threads.1, h.threads.2]
    rfl
  · rw [h.noPump, h.threads.1, h.threads.2]
    rfl

theorem released_create : Released wdObjCreate :=
  ⟨rfl, rfl, rfl, ⟨rfl, rfl⟩, ⟨rfl, rfl⟩, rfl, rfl, rfl, rfl, rfl⟩

theorem letGo_some (a : ℕ) (l : List ℕ) : letGo (some a) (a :: l) = l := List.erase_cons_head a l

theorem letGo_toList (a : Option ℕ) : letGo a a.toList = [] := by
  cases a with
  | none => rfl
  | some a => exact letGo_some a []

/-- What two pointers own is gone when both are let go. -/
theorem letGo_both (a b : Option ℕ) : letGo b (letGo a (b.toList ++ a.toList)) = [] := by
  cases b with
  | none => exact letGo_toList a
  | some b =>
    cases a with
    | none => exact letGo_some b []
    | some a =>
      show (List.erase [b, a] a).erase b = []
      by_cases hab : b = a
      · rw [hab, List.erase_cons_head, List.erase_cons_head]
      · rw [List.erase_cons_tail (by simpa using hab), List.erase_cons_head, List.erase_cons_head]

/-- **A stop releases all that is owned.** -/
theorem Owned.wdStop {s : WdObj} (h : Owned s) : Released s.wdStop.1 := by
  refine ⟨rfl, rfl, rfl, ⟨rfl, rfl⟩, ⟨rfl, rfl⟩, ?_, ?_, ?_, ?_, ?_⟩
  · show letGo s.netHandle (letGo s.handle s.held.handles) = []
    rw [h.handles, letGo_both]
  · show letGo s.relay s.held.relays = []
    rw [h.relays, letGo_toList]
  · show letGo s.nat s.held.nats = []
    rw [h.nats, letGo_toList]
  · show letGo s.netPump (letGo s.pump s.held.threads) = []
    rw [h.threads, letGo_both]
  · show letGo s.netPump (letGo s.pump s.held.pumps) = []
    rw [h.pumps, letGo_both]

/-! ### Starts -/

section Starts

variable {s : WdObj} {os : WdStartOs} {cfg : PmxBackendConfig}

/-- What `wd_start` does first: it stops here, or goes on to the socket layer and beyond. -/
theorem wdStart_cases (hidle : s.running = false) (os : WdStartOs) (cfg : PmxBackendConfig) :
    let s' := { s with blockWhenCannotProxy := cfg.blockWhenCannotProxy }
    (s.hasDecide = true ∧ os.socketLayer = .opened ∧ s.wdStart os cfg = s'.startOpened os) ∨
      ((s.hasDecide = false ∨ os.socketLayer ≠ .opened) ∧ (s.wdStart os cfg).1 = s' ∧
        (s.wdStart os cfg).2 ≠ .ok) := by
  rw [WdObj.wdStart, if_neg (by rw [hidle]; exact Bool.false_ne_true)]
  dsimp only
  by_cases hdecide : s.hasDecide = true
  · rw [if_neg (by rw [hdecide]; exact Bool.false_ne_true)]
    cases hsocket : os.socketLayer with
    | opened => exact Or.inl ⟨hdecide, rfl, rfl⟩
    | accessDenied => exact Or.inr ⟨Or.inr (by decide), rfl, fun h => by cases h⟩
    | failed => exact Or.inr ⟨Or.inr (by decide), rfl, fun h => by cases h⟩
  · rw [Bool.not_eq_true] at hdecide
    rw [if_pos (by rw [hdecide]; rfl)]
    exact Or.inr ⟨Or.inl hdecide, rfl, fun h => by cases h⟩

/-- Steps that fail before the threads are undone. -/
theorem Released.startOpened_early (h : Released s)
    (hearly : os.relayStatus ≠ .ok ∨ os.natAllocOk = false ∨ os.networkLayer ≠ .opened) :
    Released (s.startOpened os).1 := by
  obtain ⟨hrunning, hrelay, hnat, hhandles, hthreads, hnoHandle, hnoRelay, hnoNat, hnoThread, hnoPump⟩ := h
  rw [WdObj.startOpened]
  dsimp only
  split_ifs with hstatus halloc hnetwork
  · exact ⟨hrunning, rfl, hnat, hhandles, hthreads, (letGo_some _ _).trans hnoHandle, hnoRelay, hnoNat,
      hnoThread, hnoPump⟩
  · exact ⟨hrunning, rfl, rfl, hhandles, hthreads, (letGo_some _ _).trans hnoHandle,
      (letGo_some _ _).trans hnoRelay, hnoNat, hnoThread, hnoPump⟩
  · exact ⟨hrunning, rfl, rfl, hhandles, hthreads, (letGo_some _ _).trans hnoHandle,
      (letGo_some _ _).trans hnoRelay, (letGo_some _ _).trans hnoNat, hnoThread, hnoPump⟩
  · rw [Bool.not_eq_true, Bool.not_eq_false'] at halloc
    rcases hearly with h | h | h
    · exact absurd h hstatus
    · rw [halloc] at h
      cases h
    · exact absurd h hnetwork

/-- With everything opened, the threads decide. -/
theorem startOpened_late (hstatus : os.relayStatus = .ok) (halloc : os.natAllocOk = true)
    (hnetwork : os.networkLayer = .opened) :
    ∃ s' : WdObj, s.startOpened os = s'.startPumps os.firstThread os.secondThread ∧
      s'.running = true ∧ (∃ r, s'.relay = some r) ∧
      (Released s → Owned s' ∧ s'.pump = none ∧ s'.netPump = none) := by
  rw [WdObj.startOpened, if_neg (not_not.2 hstatus), if_neg (by rw [halloc]; exact Bool.false_ne_true),
    if_neg (not_not.2 hnetwork)]
  refine ⟨_, rfl, rfl, ⟨_, rfl⟩, ?_⟩
  rintro ⟨hrunning, hrelay, hnat, hhandles, hthreads, hnoHandle, hnoRelay, hnoNat, hnoThread, hnoPump⟩
  refine ⟨⟨?_, ?_, ?_, ?_, ?_, fun hfalse => absurd hfalse Bool.true_eq_false.mp⟩, hthreads⟩
  · exact congrArg (fun l => _ :: _ :: l) hnoHandle
  · exact congrArg (fun l => _ :: l) hnoRelay
  · exact congrArg (fun l => _ :: l) hnoNat
  · show s.held.threads = s.netPump.toList ++ s.pump.toList
    rw [hnoThread, hthreads.1, hthreads.2]
    rfl
  · show s.held.pumps = s.netPump.toList ++ s.pump.toList
    rw [hnoPump, hthreads.1, hthreads.2]
    rfl

/-- A thread that does not start leaves the relay. -/
theorem startPumps_failed {first second : Bool} (hfail : ¬ (first = true ∧ second = true)) :
    (s.startPumps first second).2 = .errBackend ∧ (s.startPumps first second).1.relay = s.relay := by
  rw [WdObj.startPumps]
  split_ifs with hfirst hsecond
  · exact ⟨rfl, rfl⟩
  · exact ⟨rfl, rfl⟩
  · simp only [Bool.not_eq_true, Bool.not_eq_false'] at hfirst hsecond
    exact absurd ⟨hfirst, hsecond⟩ hfail

theorem Owned.startPumps (h : Owned s) (hrunning : s.running = true)
    (hpumps : s.pump = none ∧ s.netPump = none) :
    (s.startPumps true true).2 = .ok ∧ Owned (s.startPumps true true).1 := by
  obtain ⟨hhandles, hrelays, hnats, hthreads, halive, -⟩ := h
  rw [hpumps.1, hpumps.2] at hthreads halive
  refine ⟨rfl, hhandles, hrelays, hnats, ?_, ?_, ?_⟩
  · exact congrArg (fun l => _ :: _ :: l) hthreads
  · exact congrArg (fun l => _ :: _ :: l) halive
  · intro hidle
    have hstill : (s.startPumps true true).1.running = s.running := rfl
    rw [hstill, hrunning] at hidle
    cases hidle

end Starts

/-! ### Steps and runs -/

theorem Released.congr {s s' : WdObj} (h : Released s) (hheld : s'.held = s.held)
    (hrunning : s'.running = s.running) (hrelay : s'.relay = s.relay) (hnat : s'.nat = s.nat)
    (hhandles : s'.handle = s.handle ∧ s'.netHandle = s.netHandle)
    (hthreads : s'.pump = s.pump ∧ s'.netPump = s.netPump) : Released s' := by
  obtain ⟨h1, h2, h3, h4, h5, h6, h7, h8, h9, h10⟩ := h
  refine ⟨hrunning.trans h1, hrelay.trans h2, hnat.trans h3, ⟨hhandles.1.trans h4.1, hhandles.2.trans h4.2⟩,
    ⟨hthreads.1.trans h5.1, hthreads.2.trans h5.2⟩, ?_, ?_, ?_, ?_, ?_⟩ <;> rwa [hheld]

/-- A start that comes as far as the threads without one failing, or not so far. -/
theorem Owned.start {s : WdObj} (h : Owned s) {os : WdStartOs} {cfg : PmxBackendConfig}
    (hC : NoThreadFails s (.start os cfg)) :
    ((s.wdStart os cfg).2 ≠ .ok → Released (s.wdStart os cfg).1) ∧ Owned (s.wdStart os cfg).1 := by
  by_cases hrunning : s.running = true
  · have hstart : s.wdStart os cfg = (s, .ok) := by rw [WdObj.wdStart, if_pos hrunning]
    rw [hstart]
    exact ⟨fun hne => absurd rfl hne, h⟩
  · have hidle : s.running = false := Bool.not_eq_true _ ▸ hrunning
    have hrel : Released { s with blockWhenCannotProxy := cfg.blockWhenCannotProxy } :=
      (h.released hidle).congr rfl rfl rfl rfl ⟨rfl, rfl⟩ ⟨rfl, rfl⟩
    rcases wdStart_cases hidle os cfg with ⟨hdecide, hsocket, heq⟩ | ⟨-, heq, -⟩
    · rw [heq]
      by_cases hearly : os.relayStatus ≠ .ok ∨ os.natAllocOk = false ∨ os.networkLayer ≠ .opened
      · have hdone := hrel.startOpened_early hearly
        exact ⟨fun _ => hdone, hdone.owned⟩
      · simp only [not_or, not_not, Bool.not_eq_false] at hearly
        obtain ⟨hstatus, halloc, hnetwork⟩ := hearly
        obtain ⟨s', hpumps, hrun, -, howned⟩ := startOpened_late hstatus halloc hnetwork
        obtain ⟨hfirst, hsecond⟩ : os.firstThread = true ∧ os.secondThread = true := by
          simpa [NoThreadFails, hidle, hdecide, hsocket, hstatus, halloc, hnetwork] using hC
        obtain ⟨hown, hnone⟩ := howned hrel
        obtain ⟨hok, hafter⟩ := hown.startPumps hrun hnone
        rw [hpumps, hfirst, hsecond]
        exact ⟨fun hne => absurd hok hne, hafter⟩
    · rw [heq]
      exact ⟨fun _ => hrel, hrel.owned⟩

theorem Owned.step {s : WdObj} {e : WdEvent} (h : Owned s) (hC : NoThreadFails s e) :
    LeavesNothing s e ∧ Owned (wdObjStep s e) := by
  cases e with
  | setDecide bound => exact ⟨trivial, h.handles, h.relays, h.nats, h.threads, h.pumps, h.idle⟩
  | start os cfg => exact h.start hC
  | stop => exact ⟨h.wdStop, h.wdStop.owned⟩
  | pumpEnds t =>
    refine ⟨trivial, ?_⟩
    rw [wdObjStep]
    by_cases hrunning : s.running = true
    · rw [if_pos hrunning]
      exact h
    · rw [if_neg hrunning]
      have hrel := h.released (Bool.not_eq_true _ ▸ hrunning)
      refine ⟨h.handles, h.relays, h.nats, h.threads, ?_, h.idle⟩
      show s.held.pumps.erase t = s.netPump.toList ++ s.pump.toList
      rw [hrel.noPump, hrel.threads.1, hrel.threads.2]
      rfl

/-- A start that fails at a thread leaves the relay, whatever was there before. -/
theorem noThreadFails_of_leavesNothing {s : WdObj} {e : WdEvent} (h : LeavesNothing s e) :
    NoThreadFails s e := by
  cases e with
  | setDecide bound => trivial
  | stop => trivial
  | pumpEnds t => trivial
  | start os cfg =>
    by_contra hC
    simp only [NoThreadFails, not_or, Bool.not_eq_true, Bool.not_eq_false, not_not] at hC
    obtain ⟨hidle, hdecide, hsocket, hstatus, halloc, hnetwork, hthreads⟩ := hC
    rcases wdStart_cases hidle os cfg with ⟨-, -, heq⟩ | ⟨hearly, -, -⟩
    · obtain ⟨s', hpumps, -, ⟨r, hrelay⟩, -⟩ :=
        startOpened_late (s := { s with blockWhenCannotProxy := cfg.blockWhenCannotProxy }) hstatus halloc
          hnetwork
      obtain ⟨hfailed, hkept⟩ := startPumps_failed (s := s') hthreads
      have hrel : Released (s.wdStart os cfg).1 := by
        apply h
        rw [heq, hpumps, hfailed]
        exact fun hok => by cases hok
      have hnone := hrel.relay
      rw [heq, hpumps, hkept, hrelay] at hnone
      cases hnone
    · rcases hearly with hno | hno
      · rw [hdecide] at hno
        cases hno
      · exact absurd hsocket hno

/-- **A run leaves nothing behind just when no start of it fails at a thread.** -/
theorem leavesNothing_iff (evs : List WdEvent) :
    EachStep wdObjStep LeavesNothing wdObjCreate evs ↔ EachStep wdObjStep NoThreadFails wdObjCreate evs := by
  constructor
  · exact eachStep_of_guarded (fun _ => True)
      (fun s e _ h => ⟨noThreadFails_of_leavesNothing h, trivial⟩) evs wdObjCreate trivial
  · exact eachStep_of_guarded Owned (fun s e h hC => h.step hC) evs wdObjCreate released_create.owned

/-- A start that comes as far as the second thread, which does not start. -/
def secondThreadFails : WdStartOs := ⟨.opened, .ok, 50000, true, .opened, true, false⟩

/-- The relay is left to such a start, and so are the NAT table and the first pump. -/
theorem not_leavesNothing : ¬ ∀ evs : List WdEvent, EachStep wdObjStep LeavesNothing wdObjCreate evs := by
  intro h
  have hrun := h [.setDecide true, .start secondThreadFails pmxBackendConfigDefaults]
  have hrel : Released _ := hrun.2.1 (fun hok => by cases hok)
  cases hrel.relay

/-- **Every such start leaves a relay, a NAT table and a pump.** -/
theorem failedStarts_leak (cfg : PmxBackendConfig) (n : ℕ) {s : WdObj} (hidle : s.running = false)
    (hdecide : s.hasDecide = true) :
    let s' := runFrom wdObjStep s (List.replicate n (.start secondThreadFails cfg))
    s'.running = false ∧ s'.held.relays.length = s.held.relays.length + n ∧
      s'.held.nats.length = s.held.nats.length + n ∧ s'.held.pumps.length = s.held.pumps.length + n := by
  induction n generalizing s with
  | zero => exact ⟨hidle, rfl, rfl, rfl⟩
  | succ n ih =>
    have hstep : wdObjStep s (.start secondThreadFails cfg) =
        (({ s with blockWhenCannotProxy := cfg.blockWhenCannotProxy } : WdObj).startOpened
          secondThreadFails).1 := by
      rcases wdStart_cases hidle secondThreadFails cfg with ⟨-, -, heq⟩ | ⟨hearly, -, -⟩
      · exact congrArg Prod.fst heq
      · rcases hearly with hno | hno
        · rw [hdecide] at hno
          cases hno
        · exact absurd rfl hno
    obtain ⟨hrunning, hrelays, hnats, hpumps⟩ := ih (s := wdObjStep s (.start secondThreadFails cfg))
      (by rw [hstep]; rfl) (by rw [hstep]; exact hdecide)
    rw [List.replicate_succ, runFrom_cons]
    refine ⟨hrunning, hrelays.trans ?_, hnats.trans ?_, hpumps.trans ?_⟩
    · rw [hstep]
      show s.held.relays.length + 1 + n = _
      omega
    · rw [hstep]
      show s.held.nats.length + 1 + n = _
      omega
    · rw [hstep]
      show s.held.pumps.length + 1 + n = _
      omega

/-! ### The tables of the relay -/

/-- The two threads taken together. -/
def WdStartOs.coarse (os : WdStartOs) : WdOs where
  socketLayer := os.socketLayer
  relayStatus := os.relayStatus
  relayPort := os.relayPort
  natAllocOk := os.natAllocOk
  networkLayer := os.networkLayer
  threadsOk := os.firstThread && os.secondThread

/-- The object, with what its relay and its NAT table hold. -/
structure Sees (im : WdImpl) (s : WdObj) : Prop where
  running : im.running = s.running
  hasDecide : im.hasDecide = s.hasDecide
  block : im.blockWhenCannotProxy = s.blockWhenCannotProxy
  relay : im.relay.isSome = s.relay.isSome
  relayPort : im.relayPort = s.relayPort
  nat : im.nat.isSome = s.nat.isSome

/-- A start answers and leaves the same, counted or not. -/
theorem Sees.start {im : WdImpl} {s : WdObj} (h : Sees im s) (os : WdStartOs) (cfg : PmxBackendConfig) :
    (wdStart os.coarse im cfg).2 = (s.wdStart os cfg).2 ∧
      Sees (wdStart os.coarse im cfg).1 (s.wdStart os cfg).1 := by
  obtain ⟨socketLayer, relayStatus, relayPort, natAllocOk, networkLayer, first, second⟩ := os
  obtain ⟨relay, port, nat, ownPid, hasCb, hasDecide, running, block, counter, allowed, blocked⟩ := im
  obtain ⟨handle, netHandle, netPump, relayNo, port, natNo, hasDecide, pump, running, block, held⟩ := s
  obtain ⟨hrunning, hdecide, hblock, hrelay, hport, hnat⟩ := h
  dsimp only at hrunning hdecide hblock hrelay hport hnat
  subst hrunning hdecide hblock hport
  rw [wdStart, WdObj.wdStart]
  dsimp only [WdStartOs.coarse]
  cases running with
  | true => exact ⟨rfl, rfl, rfl, rfl, hrelay, rfl, hnat⟩
  | false =>
    cases hasDecide with
    | false => exact ⟨rfl, rfl, rfl, rfl, hrelay, rfl, hnat⟩
    | true =>
      cases socketLayer with
      | accessDenied => exact ⟨rfl, rfl, rfl, rfl, hrelay, rfl, hnat⟩
      | failed => exact ⟨rfl, rfl, rfl, rfl, hrelay, rfl, hnat⟩
      | opened =>
        by_cases hstatus : relayStatus = .ok
        · subst hstatus
          cases natAllocOk with
          | false => exact ⟨rfl, rfl, rfl, rfl, rfl, rfl, rfl⟩
          | true =>
            cases networkLayer with
            | accessDenied => exact ⟨rfl, rfl, rfl, rfl, rfl, rfl, rfl⟩
            | failed => exact ⟨rfl, rfl, rfl, rfl, rfl, rfl, rfl⟩
            | opened =>
              cases first with
              | false => exact ⟨rfl, rfl, rfl, rfl, rfl, rfl, rfl⟩
              | true => cases second <;> exact ⟨rfl, rfl, rfl, rfl, rfl, rfl, rfl⟩
        · simp only [WdObj.startOpened, Bool.not_true, Bool.false_eq_true, if_false, ne_eq, hstatus,
            not_false_eq_true, if_true]
          exact ⟨trivial, rfl, rfl, rfl, rfl, rfl, hnat⟩

theorem Sees.stop {im : WdImpl} {s : WdObj} (h : Sees im s) : Sees (wdStop im).1 s.wdStop.1 :=
  ⟨rfl, h.hasDecide, h.block, rfl, h.relayPort, rfl⟩

end ProxiMight
