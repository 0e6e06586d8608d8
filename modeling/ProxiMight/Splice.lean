import ProxiMight.Net
import ProxiMight.Runs
import Mathlib.Data.Int.Basic
import Mathlib.Logic.Function.Basic

/-!
# The splice of a relayed connection (`relay_conn_worker`, its second half)

One loop copies both ways between the client and the upstream socket and ends at the first thing that
fails, the end of either stream included.  The loop's round is written over any network; what the two
sockets do is a pair of `Wire`s, or, where only the results matter, a table of results.

* **`splice_delivers`** — what is written to a peer is a front of what the other has sent; the stream
  whose end is read is written out whole; nothing at all is lost exactly in the runs that end so.
* **`pmxRelayStop_ends_iff`** — the loop looks at `running` only in a round that finds nothing to read.
-/

namespace ProxiMight

/-- `PMX_RELAY_BUF`. -/
def pmxRelayBuf : ℕ := 8192

/-- The two ends of a relayed connection. -/
inductive Peer
  | client
  | up
  deriving DecidableEq

def Peer.other : Peer → Peer
  | .client => .up
  | .up => .client

@[simp] theorem Peer.other_other (p : Peer) : p.other.other = p := by
  cases p <;> rfl

theorem Peer.other_ne (p : Peer) : p.other ≠ p := by
  cases p <;> decide

theorem Peer.eq_or_eq_other (q p : Peer) : q = p ∨ q = p.other := by
  cases q <;> cases p <;> decide

/-- What `select` says of the two sockets. -/
inductive SelectResult
  | failed
  | timedOut
  | ready (a b : Bool)
  deriving DecidableEq

def pmxWaitTwo : SelectResult → ℤ
  | .failed => -1
  | .timedOut => 0
  | .ready a b => (a.toNat ||| 2 * b.toNat : ℕ)

/-- `pmx_recv_some` from a peer and `pmx_send_all` to it. -/
structure SpliceNet (σ : Type) where
  recvSome : Peer → σ → Except PmxStatus (List UInt8) × σ
  sendAll : Peer → List UInt8 → σ → PmxStatus × σ

variable {σ : Type}

/-- What `p` has sent, received and sent on; whether the loop goes on. -/
def relayFrom (net : SpliceNet σ) (p : Peer) (s : σ) : Bool × σ :=
  match net.recvSome p s with
  | (.error _, s) => (false, s)
  | (.ok got, s) =>
    let r := net.sendAll p.other got s
    (decide (r.1 = .ok), r.2)

/-- One round of the loop, given the result of `pmx_wait_two`; whether the loop goes on. -/
def spliceRound (net : SpliceNet σ) (m : ℤ) (running : Bool) (s : σ) : Bool × σ :=
  if m < 0 then (false, s)
  -- the only look at `relay_running`
  else if m = 0 then (running, s)
  else
    let c := if m.toNat.testBit 0 then relayFrom net .client s else (true, s)
    if c.1 then
      if m.toNat.testBit 1 then relayFrom net .up c.2 else c
    else c

/-! ### Stopping: the results of the calls are given -/

/-- What the calls of one round return. -/
structure RoundResults where
  wait : ℤ
  received : Peer → Except PmxStatus (List UInt8)
  sent : Peer → PmxStatus

def RoundResults.net (r : RoundResults) : SpliceNet Unit :=
  ⟨fun p _ => (r.received p, ()), fun p _ _ => (r.sent p, ())⟩

/-- Whether the loop is still going before round `n`; `running j` is what round `j` would read. -/
def splicing (results : ℕ → RoundResults) (running : ℕ → Bool) : ℕ → Bool
  | 0 => true
  | n + 1 =>
    splicing results running n && (spliceRound (results n).net (results n).wait (running n) ()).1

/-- `running` as read by a worker whose round `k` is the first to begin after `pmx_relay_stop`. -/
def stoppedFrom (k n : ℕ) : Bool := decide (n < k)

/-- A worker that is splicing when the relay is stopped: what its calls return, round after round, and
the first round to begin after the stop. -/
structure SplicingWorker where
  results : ℕ → RoundResults
  stop : ℕ

/-- The loop of the worker has ended before round `n`. -/
def SplicingWorker.EndedBy (w : SplicingWorker) (n : ℕ) : Prop :=
  splicing w.results (stoppedFrom w.stop) n = false

/-- `relay_reap(r, true)` in `pmx_relay_stop`: the join of every worker returns. -/
def StopReturns (workers : List SplicingWorker) : Prop := ∀ w ∈ workers, ∃ n, w.EndedBy n

/-- What a receive from `p` gives is sent on. -/
def RoundResults.Relays (r : RoundResults) (p : Peer) : Prop :=
  (∃ got, r.received p = .ok got) ∧ r.sent p.other = .ok

/-- A call of the round fails: the wait, or the receive or the send of a peer reported ready. -/
def RoundResults.Fails (r : RoundResults) : Prop :=
  r.wait < 0 ∨ 0 < r.wait ∧ ((r.wait.toNat.testBit 0 = true ∧ ¬r.Relays .client) ∨
    (r.wait.toNat.testBit 1 = true ∧ ¬r.Relays .up))

theorem relayFrom_results (r : RoundResults) (p : Peer) (s : Unit) :
    (relayFrom r.net p s).1 = true ↔ r.Relays p := by
  have hnet : r.net.recvSome p s = (r.received p, ()) := rfl
  rw [relayFrom, RoundResults.Relays, hnet]
  cases r.received p with
  | error st => simp
  | ok got =>
    show decide (r.sent p.other = .ok) = true ↔ _
    rw [decide_eq_true_eq]
    exact ⟨fun h => ⟨⟨got, rfl⟩, h⟩, fun h => h.2⟩

/-- A round ends the loop when one of its calls fails, or when nothing is ready and `running` is off. -/
theorem spliceRound_ends_iff (r : RoundResults) (running : Bool) :
    (spliceRound r.net r.wait running ()).1 = false ↔
      r.Fails ∨ (r.wait = 0 ∧ running = false) := by
  rw [spliceRound, RoundResults.Fails, ← relayFrom_results r .client (), ← relayFrom_results r .up ()]
  by_cases hneg : r.wait < 0
  · simp [hneg]
  by_cases hzero : r.wait = 0
  · simp [hzero]
  have hpos : 0 < r.wait := by omega
  rw [if_neg hneg, if_neg hzero]
  cases r.wait.toNat.testBit 0 <;> cases r.wait.toNat.testBit 1 <;>
    cases hc : (relayFrom r.net .client ()).1 <;> simp [hc, hpos, hneg, hzero]

theorem splicing_eq_false_iff (results : ℕ → RoundResults) (running : ℕ → Bool) (n : ℕ) :
    splicing results running n = false ↔
      ∃ j < n, (results j).Fails ∨ ((results j).wait = 0 ∧ running j = false) := by
  induction n with
  | zero => simp [splicing]
  | succ n ih =>
    rw [splicing, Bool.and_eq_false_iff, ih, spliceRound_ends_iff]
    constructor
    · rintro (⟨j, hj, h⟩ | h)
      · exact ⟨j, by omega, h⟩
      · exact ⟨n, by omega, h⟩
    · rintro ⟨j, hj, h⟩
      rcases Nat.lt_succ_iff_lt_or_eq.1 hj with hlt | rfl
      · exact Or.inl ⟨j, hlt, h⟩
      · exact Or.inr h

theorem SplicingWorker.endedBy_iff (w : SplicingWorker) (n : ℕ) :
    w.EndedBy n ↔
      ∃ j < n, (w.results j).Fails ∨ ((w.results j).wait = 0 ∧ w.stop ≤ j) := by
  rw [SplicingWorker.EndedBy, splicing_eq_false_iff]
  simp only [stoppedFrom, decide_eq_false_iff_not, not_lt]

/-- **Stopping.**  A worker ends with the first round to begin after the stop exactly when that round
finds nothing ready, or a call up to then fails; and the joins return exactly when every worker has
such a round at some time, so not for a flow that never goes idle. -/
theorem pmxRelayStop_ends_iff (workers : List SplicingWorker) :
    ((∀ w ∈ workers, w.EndedBy (w.stop + 1)) ↔
      ∀ w ∈ workers, (w.results w.stop).wait = 0 ∨ ∃ j ≤ w.stop, (w.results j).Fails) ∧
    (StopReturns workers ↔
      ∀ w ∈ workers, (∃ j ≥ w.stop, (w.results j).wait = 0) ∨ ∃ j, (w.results j).Fails) := by
  constructor
  · apply forall₂_congr
    intro w _
    rw [w.endedBy_iff]
    constructor
    · rintro ⟨j, hj, h | ⟨h, hstop⟩⟩
      · exact Or.inr ⟨j, by omega, h⟩
      · obtain rfl : j = w.stop := by omega
        exact Or.inl h
    · rintro (h | ⟨j, hj, h⟩)
      · exact ⟨w.stop, by omega, Or.inr ⟨h, le_rfl⟩⟩
      · exact ⟨j, by omega, Or.inl h⟩
  · apply forall₂_congr
    intro w _
    simp only [w.endedBy_iff]
    constructor
    · rintro ⟨n, j, -, h | ⟨h, hstop⟩⟩
      · exact Or.inr ⟨j, h⟩
      · exact Or.inl ⟨j, hstop, h⟩
    · rintro (⟨j, hj, h⟩ | ⟨j, h⟩)
      · exact ⟨j + 1, j, by omega, Or.inr ⟨h, hj⟩⟩
      · exact ⟨j + 1, j, by omega, Or.inl h⟩

/-- A download: in every round the upstream has a byte and the client takes it. -/
def busyWorker : SplicingWorker := ⟨fun _ => ⟨2, fun _ => .ok [120], fun _ => .ok⟩, 0⟩

/-- Stopped while the download runs, the worker never ends, and the join waits for it for good. -/
theorem busyWorker_never_ends :
    ¬(∀ workers : List SplicingWorker,
        (∀ w ∈ workers, w.EndedBy (w.stop + 1)) ∧ StopReturns workers) ∧
      ¬StopReturns [busyWorker] := by
  have hrelays : ∀ j, ¬(busyWorker.results j).Fails := by
    rintro j (h | ⟨-, h | h⟩)
    · cases h
    · exact absurd (show (2 : ℤ).toNat.testBit 0 = true from h.1) (by decide)
    · exact h.2 ⟨⟨[120], rfl⟩, rfl⟩
  have hnot : ¬StopReturns [busyWorker] := by
    intro h
    obtain ⟨n, hn⟩ := h busyWorker (by simp)
    obtain ⟨j, -, h | ⟨h, -⟩⟩ := (busyWorker.endedBy_iff n).1 hn
    · exact hrelays j h
    · cases h
  exact ⟨fun h => hnot (h [busyWorker]).2, hnot⟩

/-! ### Carrying: the two sockets are wires -/

/-- The sockets towards the two peers. -/
def spliceWires : SpliceNet (Peer → Wire) where
  recvSome p wire :=
    let r := pmxRecvSome (wire p) pmxRelayBuf
    (r.1, Function.update wire p r.2)
  sendAll p msg wire :=
    let r := pmxSendAll (wire p) msg
    (r.1, Function.update wire p r.2)

/-- The loop, its sockets, and what the peers have done: all that `p` has sent, and whether it has
closed its sending side. -/
structure Splice where
  wire : Peer → Wire
  said : Peer → List UInt8
  shut : Peer → Bool
  going : Bool

/-- The start of the loop: nothing has been sent yet, and no send will fail. -/
def spliceStart : Splice :=
  ⟨fun _ => wireOpen [] .errTimeout none, fun _ => [], fun _ => false, true⟩

/-- A peer sends, or closes its sending side, or the loop goes round. -/
inductive SpliceEvent
  | send (p : Peer) (msg : List UInt8)
  | shutdown (p : Peer)
  | round (sel : SelectResult)

/-- `p`'s side of the stream grows by a segment. -/
def Splice.arrive (s : Splice) (p : Peer) (seg : List UInt8) : Splice :=
  { s with
    wire := Function.update s.wire p { s.wire p with arriving := (s.wire p).arriving ++ [seg] }
    said := Function.update s.said p (s.said p ++ seg) }

/-- A peer sends nothing once it has closed; the relay is not stopped. -/
def spliceStep (s : Splice) : SpliceEvent → Splice
  | .send p msg => if s.shut p ∨ msg = [] then s else s.arrive p msg
  | .shutdown p =>
    if s.shut p then s else { s.arrive p [] with shut := Function.update s.shut p true }
  | .round sel =>
    if s.going then
      let r := spliceRound spliceWires (pmxWaitTwo sel) true s.wire
      { s with wire := r.2, going := r.1 }
    else s

/-- What `p` has sent and the loop has not read. -/
def Splice.unread (s : Splice) (p : Peer) : List UInt8 := (s.wire p).arriving.flatten

/-- A receive from the socket does not find a byte: the stream is at its end, or nothing comes. -/
def Wire.Dry (w : Wire) : Prop := w.arriving = [] ∨ w.arriving.head? = some []

instance (w : Wire) : Decidable w.Dry := inferInstanceAs (Decidable (_ ∨ _))

/-- Once the loop has ended, all that has been sent has been written to the other peer. -/
def Splice.NothingLost (s : Splice) : Prop :=
  s.going = false → ∀ p : Peer, (s.wire p.other).sent = s.said p

/-- What the client's half of a round leaves unread. -/
def Splice.clientLeft (s : Splice) (a : Bool) : List UInt8 :=
  if a then (Segments.receive pmxRelayBuf (s.wire .client).arriving).2.flatten else s.unread .client

/-- A step after which nothing is lost for good: a round that finds a stream at its end, or fails, finds
all of the other read, and a peer still open sends nothing behind the end of the loop. -/
def Splice.Harmless (s : Splice) : SpliceEvent → Prop
  | .send p msg => s.going = false → s.shut p = true ∨ msg = []
  | .shutdown _ => True
  | .round .failed => s.going = true → ∀ p, s.unread p = []
  | .round .timedOut => True
  | .round (.ready a b) =>
    s.going = true →
      (a = true ∧ (s.wire .client).Dry → s.unread .up = []) ∧
      (¬(a = true ∧ (s.wire .client).Dry) → b = true ∧ (s.wire .up).Dry → s.clientLeft a = [])

/-- The round reads the end of `p`'s stream. -/
def Splice.ReadsEnd (s : Splice) : Peer → SelectResult → Prop
  | .client, .ready a _ => a = true ∧ (s.wire .client).arriving.head? = some []
  | .up, .ready a b =>
    ¬(a = true ∧ (s.wire .client).Dry) ∧ b = true ∧ (s.wire .up).arriving.head? = some []
  | _, _ => False

/-- Nothing sent is missing or twice there, and the end of a stream is the last thing on it. -/
structure Splice.Kept (said : Peer → List UInt8) (shut : Peer → Bool) (wire : Peer → Wire) : Prop where
  conserved : ∀ p : Peer, said p = (wire p.other).sent ++ (wire p).arriving.flatten
  takes : ∀ p, (wire p).takes = none
  ends : ∀ p, ∃ segs : List (List UInt8), [] ∉ segs ∧
    (wire p).arriving = segs ++ if shut p then [[]] else []

namespace Splice.Kept

variable {said : Peer → List UInt8} {shut : Peer → Bool} {wire : Peer → Wire}

/-- On a dry socket nothing is unread. -/
theorem flatten_of_dry (h : Kept said shut wire) {p : Peer} (hdry : (wire p).Dry) :
    (wire p).arriving.flatten = [] := by
  obtain ⟨segs, hne, harr⟩ := h.ends p
  rcases hdry with hnil | hhead
  · rw [hnil, List.flatten_nil]
  · cases segs with
    | nil =>
      rw [harr]
      cases shut p <;> rfl
    | cons seg segs =>
      rw [harr, List.cons_append, List.head?_cons, Option.some.injEq] at hhead
      exact absurd (hhead ▸ List.mem_cons_self) hne

theorem relayFrom_dry {p : Peer} (hdry : (wire p).Dry) :
    relayFrom spliceWires p wire = (false, wire) := by
  have hrecv : ∃ st, pmxRecvSome (wire p) pmxRelayBuf = (.error st, wire p) := by
    rw [pmxRecvSome]
    rcases hdry with hnil | hhead
    · exact ⟨_, by rw [hnil]⟩
    · cases harr : (wire p).arriving with
      | nil => exact ⟨_, rfl⟩
      | cons seg rest =>
        rw [harr, List.head?_cons, Option.some.injEq] at hhead
        exact ⟨.errNet, by simp [hhead]⟩
  obtain ⟨st, hst⟩ := hrecv
  have hstep : spliceWires.recvSome p wire = (.error st, wire) := by
    show (_, Function.update wire p _) = _
    rw [hst, Function.update_eq_self]
  rw [relayFrom, hstep]

/-- What a round that finds bytes makes of the two sockets. -/
def carried (wire : Peer → Wire) (p : Peer) : Peer → Wire :=
  let r := Segments.receive pmxRelayBuf (wire p).arriving
  Function.update (Function.update wire p { wire p with arriving := r.2 }) p.other
    { wire p.other with sent := (wire p.other).sent ++ r.1 }

theorem relayFrom_not_dry (h : Kept said shut wire) {p : Peer} (hdry : ¬(wire p).Dry) :
    relayFrom spliceWires p wire = (true, carried wire p) := by
  cases harr : (wire p).arriving with
  | nil => exact absurd (Or.inl harr) hdry
  | cons seg rest =>
    have hseg : ¬(seg = [] ∨ pmxRelayBuf = 0) := by
      rintro (rfl | hbuf)
      · exact hdry (Or.inr (by rw [harr]; rfl))
      · cases hbuf
    have hrecv : spliceWires.recvSome p wire =
        (.ok (Segments.receive pmxRelayBuf (seg :: rest)).1,
          Function.update wire p
            { wire p with arriving := (Segments.receive pmxRelayBuf (seg :: rest)).2 }) := by
      show (_, Function.update wire p _) = _
      rw [pmxRecvSome, harr]
      simp only [if_neg hseg]
    rw [relayFrom, hrecv, carried, harr]
    simp only [spliceWires, Function.update_of_ne p.other_ne]
    rw [pmxSendAll, h.takes p.other]
    simp

section carried

variable (wire : Peer → Wire) (p : Peer)

@[simp] theorem carried_arriving_self :
    (carried wire p p).arriving = (Segments.receive pmxRelayBuf (wire p).arriving).2 := by
  rw [carried, Function.update_of_ne p.other_ne.symm, Function.update_self]

@[simp] theorem carried_arriving_other :
    (carried wire p p.other).arriving = (wire p.other).arriving := by
  rw [carried, Function.update_self]

@[simp] theorem carried_sent_self : (carried wire p p).sent = (wire p).sent := by
  rw [carried, Function.update_of_ne p.other_ne.symm, Function.update_self]

@[simp] theorem carried_sent_other :
    (carried wire p p.other).sent
      = (wire p.other).sent ++ (Segments.receive pmxRelayBuf (wire p).arriving).1 := by
  rw [carried, Function.update_self]

end carried

/-- A half round moves a front of the unread bytes behind those already written. -/
theorem carried_kept (h : Kept said shut wire) {p : Peer} (hdry : ¬(wire p).Dry) :
    Kept said shut (carried wire p) where
  conserved q := by
    rcases q.eq_or_eq_other p with rfl | rfl
    · rw [carried_sent_other, carried_arriving_self, List.append_assoc, Segments.receive_flatten]
      exact h.conserved q
    · have hother := h.conserved p.other
      rw [Peer.other_other] at hother ⊢
      rw [carried_sent_self, carried_arriving_other]
      exact hother
  takes q := by
    rw [carried]
    rcases q.eq_or_eq_other p with rfl | rfl
    · rw [Function.update_of_ne q.other_ne.symm, Function.update_self]
      exact h.takes q
    · rw [Function.update_self]
      exact h.takes p.other
  ends q := by
    obtain ⟨segs, hne, harr⟩ := h.ends q
    rcases q.eq_or_eq_other p with rfl | rfl
    · cases segs with
      | nil =>
        refine absurd ?_ hdry
        rw [Wire.Dry, harr]
        cases shut q
        · exact Or.inl rfl
        · exact Or.inr rfl
      | cons seg segs =>
        rw [List.mem_cons, not_or] at hne
        rw [carried_arriving_self, harr, List.cons_append, Segments.receive]
        by_cases hlen : seg.length ≤ pmxRelayBuf
        · rw [if_pos hlen]
          exact ⟨segs, hne.2, rfl⟩
        · rw [if_neg hlen]
          refine ⟨seg.drop pmxRelayBuf :: segs, ?_, rfl⟩
          rw [List.mem_cons, not_or]
          refine ⟨fun hdrop => hlen ?_, hne.2⟩
          exact List.drop_eq_nil_iff.1 hdrop.symm
    · rw [carried_arriving_other]
      exact ⟨segs, hne, harr⟩

/-- The sockets after the client's half of a round. -/
def halfway (wire : Peer → Wire) (a : Bool) : Peer → Wire :=
  if a then carried wire .client else wire

theorem halfway_kept (h : Kept said shut wire) {a : Bool} (ha : ¬(a = true ∧ (wire .client).Dry)) :
    Kept said shut (halfway wire a) := by
  cases a with
  | false => exact h
  | true => exact h.carried_kept fun hdry => ha ⟨rfl, hdry⟩

theorem halfway_up (wire : Peer → Wire) (a : Bool) :
    ((halfway wire a) .up).arriving = (wire .up).arriving := by
  cases a with
  | false => rfl
  | true => exact carried_arriving_other wire .client

/-- What a round does when `select` reports `a` of the client and `b` of the upstream. -/
theorem spliceRound_ready (h : Kept said shut wire) (a b : Bool) :
    spliceRound spliceWires (pmxWaitTwo (.ready a b)) true wire =
      if a = true ∧ (wire .client).Dry then (false, wire)
      else if b = true ∧ (wire .up).Dry then (false, halfway wire a)
      else (true, if b then carried (halfway wire a) .up else halfway wire a) := by
  have hround : spliceRound spliceWires (pmxWaitTwo (.ready a b)) true wire =
      let c := if a then relayFrom spliceWires .client wire else (true, wire)
      if c.1 then if b then relayFrom spliceWires .up c.2 else c else c := by
    cases a <;> cases b <;> rfl
  rw [hround]
  by_cases hclient : a = true ∧ (wire .client).Dry
  · rw [if_pos hclient, if_pos hclient.1, relayFrom_dry hclient.2]
    rfl
  have hhalf : (if a then relayFrom spliceWires .client wire else (true, wire))
      = (true, halfway wire a) := by
    cases a with
    | false => rfl
    | true => exact h.relayFrom_not_dry fun hdry => hclient ⟨rfl, hdry⟩
  rw [if_neg hclient, hhalf]
  cases b with
  | false => rfl
  | true =>
    have hdry_iff : ((halfway wire a) .up).Dry ↔ (wire .up).Dry := by
      rw [Wire.Dry, Wire.Dry, halfway_up]
    by_cases hup : (wire .up).Dry
    · simp only [hup, relayFrom_dry (hdry_iff.2 hup), and_self, if_true]
    · simp only [hup, (h.halfway_kept hclient).relayFrom_not_dry (fun hd => hup (hdry_iff.1 hd)),
        and_false, if_true, if_false]

end Splice.Kept

namespace Splice

/-- The invariant of the loop. -/
def Inv (s : Splice) : Prop := Kept s.said s.shut s.wire

theorem arrive_wire_self (s : Splice) (p : Peer) (seg : List UInt8) :
    (s.arrive p seg).wire p = { s.wire p with arriving := (s.wire p).arriving ++ [seg] } :=
  Function.update_self ..

theorem arrive_wire_of_ne (s : Splice) {p q : Peer} (hq : q ≠ p) (seg : List UInt8) :
    (s.arrive p seg).wire q = s.wire q :=
  Function.update_of_ne hq ..

theorem arrive_said (s : Splice) (p q : Peer) (seg : List UInt8) :
    (s.arrive p seg).said q = s.said q ++ if q = p then seg else [] := by
  show Function.update s.said p (s.said p ++ seg) q = _
  by_cases hq : q = p
  · subst hq
    rw [Function.update_self, if_pos rfl]
  · rw [Function.update_of_ne hq, if_neg hq, List.append_nil]

theorem arrive_unread (s : Splice) (p q : Peer) (seg : List UInt8) :
    (s.arrive p seg).unread q = s.unread q ++ if q = p then seg else [] := by
  rw [unread, unread]
  by_cases hq : q = p
  · subst hq
    rw [arrive_wire_self, if_pos rfl, List.flatten_append, List.flatten_singleton]
  · rw [s.arrive_wire_of_ne hq, if_neg hq, List.append_nil]

/-- What arrives goes to the end of the stream; `last` is whether the peer has closed with it. -/
theorem Inv.arrive {s : Splice} (h : s.Inv) {p : Peer} (hopen : s.shut p = false) {seg : List UInt8}
    {last : Bool} (hseg : seg = [] ↔ last = true) :
    Kept (s.arrive p seg).said (Function.update s.shut p last) (s.arrive p seg).wire where
  conserved q := by
    have hsent : ((s.arrive p seg).wire q.other).sent = (s.wire q.other).sent := by
      by_cases hq : q.other = p
      · subst hq
        rw [arrive_wire_self]
      · rw [s.arrive_wire_of_ne hq]
    have hunread := s.arrive_unread p q seg
    rw [unread, unread] at hunread
    rw [hsent, hunread, ← List.append_assoc, ← h.conserved q, arrive_said]
  takes q := by
    by_cases hq : q = p
    · subst hq
      rw [arrive_wire_self]
      exact h.takes q
    · rw [s.arrive_wire_of_ne hq]
      exact h.takes q
  ends q := by
    obtain ⟨segs, hne, harr⟩ := h.ends q
    by_cases hq : q = p
    · subst hq
      rw [hopen] at harr
      rw [arrive_wire_self, Function.update_self, harr]
      cases last with
      | false =>
        refine ⟨segs ++ [seg], ?_, by simp⟩
        rw [List.mem_append, List.mem_singleton, not_or]
        exact ⟨hne, fun hnil => by simpa using hseg.1 hnil.symm⟩
      | true =>
        rw [hseg.2 rfl]
        exact ⟨segs, hne, by simp⟩
    · rw [s.arrive_wire_of_ne hq, Function.update_of_ne hq]
      exact ⟨segs, hne, harr⟩

theorem Inv.step {s : Splice} (h : s.Inv) (e : SpliceEvent) : (spliceStep s e).Inv := by
  cases e with
  | send p msg =>
    rw [spliceStep]
    split_ifs with hcond
    · exact h
    · rw [not_or, Bool.not_eq_true] at hcond
      have hsays : msg = [] ↔ false = true := by simpa using hcond.2
      have hkept := h.arrive hcond.1 hsays
      rwa [← hcond.1, Function.update_eq_self] at hkept
  | shutdown p =>
    rw [spliceStep]
    split_ifs with hshut
    · exact h
    · rw [Bool.not_eq_true] at hshut
      exact h.arrive hshut (by simp)
  | round sel =>
    rw [spliceStep]
    split_ifs with hgoing
    · cases sel with
      | failed => exact h
      | timedOut => exact h
      | ready a b =>
        show Kept s.said s.shut (spliceRound spliceWires (pmxWaitTwo (.ready a b)) true s.wire).2
        rw [h.spliceRound_ready]
        split_ifs with hclient hup hb
        · exact h
        · exact h.halfway_kept hclient
        · apply (h.halfway_kept hclient).carried_kept
          rw [Wire.Dry, Kept.halfway_up]
          exact fun hdry => hup ⟨hb, hdry⟩
        · exact h.halfway_kept hclient
    · exact h

theorem start_inv : spliceStart.Inv where
  conserved _ := rfl
  takes _ := rfl
  ends _ := ⟨[], by simp, rfl⟩

/-- What is written out is all that was sent exactly when nothing is unread. -/
theorem Inv.sent_eq_iff {s : Splice} (h : s.Inv) (p : Peer) :
    (s.wire p.other).sent = s.said p ↔ s.unread p = [] := by
  rw [h.conserved p, unread, List.self_eq_append_right]

theorem Inv.nothingLost_iff {s : Splice} (h : s.Inv) :
    s.NothingLost ↔ (s.going = false → ∀ p, s.unread p = []) :=
  imp_congr_right fun _ => forall_congr' fun p => h.sent_eq_iff p

theorem forall_peer {P : Peer → Prop} : (∀ p, P p) ↔ P .client ∧ P .up :=
  ⟨fun h => ⟨h .client, h .up⟩, fun h p => by cases p; exacts [h.1, h.2]⟩

/-- What the client is left with when the round ends at the other socket. -/
theorem halfway_client_flatten (s : Splice) (a : Bool) :
    ((Kept.halfway s.wire a) .client).arriving.flatten = s.clientLeft a := by
  rw [clientLeft]
  cases a with
  | false => rfl
  | true => exact congrArg List.flatten (Kept.carried_arriving_self s.wire .client)

/-- A round that finds sockets ready. -/
theorem Inv.nothingLost_ready_iff {s : Splice} (h : s.Inv) (hgoing : s.going = true) (a b : Bool) :
    ((spliceRound spliceWires (pmxWaitTwo (.ready a b)) true s.wire).1 = false →
        ∀ p, ((spliceRound spliceWires (pmxWaitTwo (.ready a b)) true s.wire).2 p).arriving.flatten = []) ↔
      s.Harmless (.round (.ready a b)) := by
  rw [Harmless, h.spliceRound_ready]
  by_cases hclient : a = true ∧ (s.wire .client).Dry
  · have hread : (s.wire .client).arriving.flatten = [] := h.flatten_of_dry hclient.2
    rw [if_pos hclient, forall_peer]
    constructor
    · exact fun hstep _ => ⟨fun _ => (hstep rfl).2, fun hno => absurd hclient hno⟩
    · exact fun hharm _ => ⟨hread, (hharm hgoing).1 hclient⟩
  · by_cases hup : b = true ∧ (s.wire .up).Dry
    · have hread : ((Kept.halfway s.wire a) .up).arriving.flatten = [] := by
        rw [Kept.halfway_up]
        exact h.flatten_of_dry hup.2
      rw [if_neg hclient, if_pos hup, forall_peer, halfway_client_flatten]
      constructor
      · exact fun hstep _ => ⟨fun hc => absurd hc hclient, fun _ _ => (hstep rfl).1⟩
      · exact fun hharm _ => ⟨(hharm hgoing).2 hclient hup, hread⟩
    · rw [if_neg hclient, if_neg hup]
      exact ⟨fun _ _ => ⟨fun hc => absurd hc hclient, fun _ hu => absurd hu hup⟩,
        fun _ hended => Bool.noConfusion hended⟩

/-- One step loses nothing for good exactly when it is harmless. -/
theorem Inv.nothingLost_step_iff {s : Splice} (h : s.Inv) (hlost : s.NothingLost) (e : SpliceEvent) :
    (spliceStep s e).NothingLost ↔ s.Harmless e := by
  rw [(h.step e).nothingLost_iff]
  rw [h.nothingLost_iff] at hlost
  cases e with
  | send p msg =>
    rw [spliceStep, Harmless]
    split_ifs with hcond
    · exact ⟨fun _ _ => hcond, fun _ => hlost⟩
    · constructor
      · intro hstep hended
        have hall := hstep hended p
        rw [arrive_unread, if_pos rfl, List.append_eq_nil_iff] at hall
        exact absurd (Or.inr hall.2) hcond
      · exact fun hharm hended => absurd (hharm hended) hcond
  | shutdown p =>
    rw [spliceStep, Harmless]
    split_ifs with hshut
    · exact ⟨fun _ => trivial, fun _ => hlost⟩
    · refine ⟨fun _ => trivial, fun _ hended q => ?_⟩
      have hunread := s.arrive_unread p q []
      rw [ite_self, List.append_nil] at hunread
      exact hunread.trans (hlost hended q)
  | round sel =>
    rw [spliceStep]
    by_cases hgoing : s.going = true
    · rw [if_pos hgoing]
      cases sel with
      | failed => exact ⟨fun hstep _ => hstep rfl, fun hharm _ => hharm hgoing⟩
      | timedOut => exact ⟨fun _ => trivial, fun _ hended => Bool.noConfusion hended⟩
      | ready a b =>
        exact h.nothingLost_ready_iff hgoing a b
    · rw [if_neg hgoing]
      refine ⟨fun _ => ?_, fun _ => hlost⟩
      cases sel with
      | failed => exact fun hg => absurd hg hgoing
      | timedOut => trivial
      | ready a b => exact fun hg => absurd hg hgoing

/-- A round that reads the end of `p`'s stream ends the loop, and all of that stream has been written. -/
theorem Inv.readsEnd {s : Splice} (h : s.Inv) (hgoing : s.going = true) {p : Peer} {sel : SelectResult}
    (hend : s.ReadsEnd p sel) :
    (spliceStep s (.round sel)).going = false ∧
      ((spliceStep s (.round sel)).wire p.other).sent = s.said p := by
  have hinv := h.step (.round sel)
  have hsaid : (spliceStep s (.round sel)).said = s.said := by
    rw [spliceStep, if_pos hgoing]
  rw [← hsaid, hinv.sent_eq_iff, unread, spliceStep, if_pos hgoing]
  cases sel with
  | failed => cases p <;> exact hend.elim
  | timedOut => cases p <;> exact hend.elim
  | ready a b =>
    rw [h.spliceRound_ready]
    cases p with
    | client =>
      have hclient : a = true ∧ (s.wire .client).Dry := ⟨hend.1, Or.inr hend.2⟩
      rw [if_pos hclient]
      exact ⟨rfl, h.flatten_of_dry hclient.2⟩
    | up =>
      obtain ⟨hclient, hb, hhead⟩ := hend
      have hup : b = true ∧ (s.wire .up).Dry := ⟨hb, Or.inr hhead⟩
      rw [if_neg hclient, if_pos hup]
      refine ⟨rfl, ?_⟩
      show ((Kept.halfway s.wire a) .up).arriving.flatten = []
      rw [Kept.halfway_up]
      exact h.flatten_of_dry hup.2

end Splice

/-- **What the splice delivers.**  At every moment what has been written to a peer is a front of what
the other has sent; a round that reads the end of a stream ends the loop with all of that stream
written; and nothing at all is lost in a run exactly when all its steps are harmless. -/
theorem splice_delivers (evs : List SpliceEvent) :
    let s := Runs.runFrom spliceStep spliceStart evs
    (∀ p : Peer, (s.wire p.other).sent <+: s.said p) ∧
      (∀ p sel, s.going = true → s.ReadsEnd p sel →
        (spliceStep s (.round sel)).going = false ∧
          ((spliceStep s (.round sel)).wire p.other).sent = s.said p) ∧
      (Runs.EachState spliceStep Splice.NothingLost spliceStart evs ↔
        Runs.EachStep spliceStep Splice.Harmless spliceStart evs) := by
  have hinv := Runs.runFrom_inv Splice.Inv (fun _ e h => h.step e) evs spliceStart Splice.start_inv
  refine ⟨fun p => ⟨_, (hinv.conserved p).symm⟩, fun p sel hgoing hend => hinv.readsEnd hgoing hend, ?_⟩
  apply Runs.eachState_iff_eachStep Splice.Inv (fun _ e h => h.step e)
  · exact fun s e h hlost => h.nothingLost_step_iff hlost e
  · exact Splice.start_inv
  · exact fun hended => Bool.noConfusion hended

/-- A client sends its request and closes its sending side; the response comes after. -/
def halfCloseRun : List SpliceEvent :=
  [.send .client [71, 69, 84], .round (.ready true false), .shutdown .client,
    .round (.ready true false), .send .up [79, 75], .shutdown .up, .round (.ready false true)]

/-- The whole request has been written to the upstream, and none of the response to the client. -/
theorem halfCloseRun_loses :
    ¬(∀ evs, (Runs.runFrom spliceStep spliceStart evs).NothingLost) ∧
      ((Runs.runFrom spliceStep spliceStart halfCloseRun).wire .up).sent = [71, 69, 84] ∧
      (Runs.runFrom spliceStep spliceStart halfCloseRun).said .up = [79, 75] ∧
      ((Runs.runFrom spliceStep spliceStart halfCloseRun).wire .client).sent = [] := by
  have hsent : ((Runs.runFrom spliceStep spliceStart halfCloseRun).wire .client).sent = [] := by
    decide
  have hsaid : (Runs.runFrom spliceStep spliceStart halfCloseRun).said .up = [79, 75] := by decide
  refine ⟨fun hall => ?_, by decide, hsaid, hsent⟩
  have hlost := hall halfCloseRun (by decide) .up
  rw [hsaid] at hlost
  exact absurd (hsent.symm.trans hlost) (by decide)

end ProxiMight
