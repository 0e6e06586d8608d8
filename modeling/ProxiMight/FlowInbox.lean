import ProxiMight.Engine
import ProxiMight.LinkedQueue
import ProxiMight.Runs

/-!
# The inbox of the engine (`engine_on_flow`, `inbox_pop`)

The backend's thread reports a flow in two critical sections: the capacity test and, with a node in hand,
the insertion.  The pumping thread takes nodes off in a third.  Here each is one step on the nodes in
memory, and the steps of the two threads come in any order.

* **`InboxRep.report`**, **`InboxRep.pop`** — on memory, the sections do what they do on lists.
* **`inbox_accounts`** — each flow reported was popped, is queued or was counted as dropped.
-/

namespace ProxiMight

open LinkedQueue Runs

/-- The inbox of `struct pmx_engine` as it lies in memory. -/
structure FlowInbox where
  flows : Queue PmxFlow
  inboxLen : ℕ
  inboxDropped : ℕ

namespace FlowInbox

/-- No flow. -/
def empty : FlowInbox := ⟨.empty, 0, 0⟩

/-- The first critical section of `engine_on_flow`; the second component is whether there is room. -/
def offer (b : FlowInbox) : FlowInbox × Bool :=
  if b.inboxLen ≥ pmxInboxMax then ({ b with inboxDropped := b.inboxDropped + 1 }, false) else (b, true)

/-- The second critical section, with a node at `a`. -/
def insert (b : FlowInbox) (a : ℕ) (f : PmxFlow) : Option FlowInbox :=
  ((b.flows.alloc a f).push a).map fun flows => { b with flows := flows, inboxLen := b.inboxLen + 1 }

/-- `inbox_pop`. -/
def pop (b : FlowInbox) : Option (FlowInbox × Option ℕ) :=
  b.flows.pop.map fun r =>
    match r.2 with
    | none => (b, none)
    | some a =>
      ({ b with
          flows := r.1
          inboxLen := if b.inboxLen > 0 then b.inboxLen - 1 else b.inboxLen }, some a)

/-- `free(n)`. -/
def free (b : FlowInbox) (a : ℕ) : FlowInbox := { b with flows := b.flows.free a }

end FlowInbox

/-! ### Memory and lists -/

section Lists

variable {φ β : Type} {b : FlowInbox} {e : PmxEngine φ β}

/-- Memory that holds the inbox of an engine. -/
def InboxRep (b : FlowInbox) (e : PmxEngine φ β) : Prop :=
  ∃ l, Holds b.flows l ∧ l.map Prod.snd = e.inbox ∧ b.inboxLen = e.inbox.length ∧
    b.inboxDropped = e.inboxDropped

/-- A report whose two critical sections follow each other is `engineOnFlow`. -/
theorem InboxRep.report (h : InboxRep b e) (f : PmxFlow) {a : ℕ} (ha : b.flows.heap a = none) :
    (b.offer.2 = false ∧ InboxRep b.offer.1 (engineOnFlow e f true)) ∨
      (b.offer = (b, true) ∧ ∃ b', b.insert a f = some b' ∧ InboxRep b' (engineOnFlow e f true)) := by
  obtain ⟨l, hflows, hinbox, hlen, hdropped⟩ := h
  by_cases hfull : e.inbox.length ≥ pmxInboxMax
  · rw [FlowInbox.offer, engineOnFlow, if_pos (by rw [hlen]; exact hfull), if_pos hfull]
    exact Or.inl ⟨rfl, l, hflows, hinbox, hlen, congrArg (· + 1) hdropped⟩
  · rw [FlowInbox.offer, engineOnFlow, if_neg (by rw [hlen]; exact hfull), if_neg hfull, if_pos rfl]
    obtain ⟨flows, hpush, hflows', -⟩ := hflows.enqueue ha f
    refine Or.inr ⟨rfl, _, congrArg (Option.map _) hpush, l ++ [(a, f)], hflows', ?_, ?_, hdropped⟩
    · rw [List.map_append, hinbox]
      rfl
    · show b.inboxLen + 1 = (e.inbox ++ [f]).length
      rw [List.length_append, List.length_singleton, hlen]

theorem InboxRep.pop_nil (h : InboxRep b e) (hnil : e.inbox = []) : b.pop = some (b, none) := by
  obtain ⟨l, hflows, hinbox, -, -⟩ := h
  rw [hnil, List.map_eq_nil_iff] at hinbox
  subst hinbox
  exact congrArg (Option.map _) hflows.pop_nil

/-- The pump gets the first flow, and frees its node when it is done. -/
theorem InboxRep.pop (h : InboxRep b e) {f : PmxFlow} {rest : List PmxFlow} (hcons : e.inbox = f :: rest) :
    ∃ b' a n, b.pop = some (b', some a) ∧ b'.flows.heap a = some n ∧ n.value = f ∧
      InboxRep (b'.free a) { e with inbox := rest } := by
  obtain ⟨l, hflows, hinbox, hlen, hdropped⟩ := h
  rw [hcons] at hinbox hlen
  obtain ⟨av, l, rfl, rfl, hrest⟩ := List.map_eq_cons_iff.1 hinbox
  obtain ⟨a, f⟩ := av
  obtain ⟨flows, hpop, hflows', hheap, next, hnode⟩ := hflows.pop
  refine ⟨_, a, ⟨f, next⟩, congrArg (Option.map _) hpop, ?_, rfl, l,
    hflows'.free (List.nodup_cons.1 hflows.nodup).1, hrest, ?_, hdropped⟩
  · show flows.heap a = _
    rw [hheap, hnode]
  · show (if b.inboxLen > 0 then b.inboxLen - 1 else b.inboxLen) = rest.length
    rw [List.length_cons] at hlen
    rw [hlen, if_pos (Nat.succ_pos _)]
    rfl

end Lists

/-! ### The two threads -/

/-- The inbox with its two threads: the flow whose report is past the capacity test, the node the pump
works on, and what has happened so far: the reports that returned, each with whether its flow was taken in,
the flows popped, and those the pump has read. -/
structure InboxSystem where
  inbox : FlowInbox
  reporting : Option PmxFlow
  held : Option ℕ
  returned : List (PmxFlow × Bool)
  popped : List PmxFlow
  read : List PmxFlow

/-- Nothing has happened. -/
def InboxSystem.create : InboxSystem := ⟨.empty, none, none, [], [], []⟩

/-- A step of the backend's thread or of the pump. -/
inductive InboxEvent
  | report (f : PmxFlow)
  | insert (a : ℕ)
  | pop
  | release

/-- The first critical section of a report. -/
def InboxSystem.report (s : InboxSystem) (f : PmxFlow) : InboxSystem :=
  let r := s.inbox.offer
  if r.2 then { s with inbox := r.1, reporting := some f }
  else { s with inbox := r.1, returned := s.returned ++ [(f, false)] }

/-- The critical section of the pump, which keeps the node it gets. -/
def InboxSystem.pop (s : InboxSystem) : Option InboxSystem :=
  s.inbox.pop.bind fun r =>
    match r.2 with
    | none => some s
    | some a =>
      (r.1.flows.heap a).map fun n => { s with inbox := r.1, held := some a, popped := s.popped ++ [n.value] }

/-- One event.  A thread that is in the middle of something does not begin it again, and an address that is
in use is never allocated. -/
def inboxStep (s : InboxSystem) : InboxEvent → Option InboxSystem
  | .report f => if s.reporting.isSome then some s else some (s.report f)
  | .insert a =>
    match s.reporting with
    | none => some s
    | some f =>
      if (s.inbox.flows.heap a).isSome then some s
      else
        (s.inbox.insert a f).map fun b =>
          { s with inbox := b, reporting := none, returned := s.returned ++ [(f, true)] }
  | .pop => if s.held.isSome then some s else s.pop
  | .release =>
    match s.held with
    | none => some s
    | some a =>
      (s.inbox.flows.heap a).map fun n =>
        { s with inbox := s.inbox.free a, held := none, read := s.read ++ [n.value] }

/-- The flows taken in, in the order in which they were reported. -/
def takenIn (returned : List (PmxFlow × Bool)) : List PmxFlow :=
  (returned.filter fun r => r.2).map Prod.fst

theorem takenIn_concat (returned : List (PmxFlow × Bool)) (f : PmxFlow) (taken : Bool) :
    takenIn (returned ++ [(f, taken)]) = takenIn returned ++ if taken then [f] else [] := by
  cases taken <;> simp [takenIn, List.filter_append]

/-! ### The invariant -/

/-- The flow of the node that the pump works on; the node is not in the queue any more. -/
inductive HeldFlow (flows : Queue PmxFlow) (l : List (ℕ × PmxFlow)) : Option ℕ → List PmxFlow → Prop
  | idle : HeldFlow flows l none []
  | busy {a : ℕ} {f : PmxFlow} {next : Option ℕ} :
      flows.heap a = some ⟨f, next⟩ → a ∉ addrs l → HeldFlow flows l (some a) [f]

theorem HeldFlow.congr {flows flows' : Queue PmxFlow} {l l' : List (ℕ × PmxFlow)} {held : Option ℕ}
    {fs : List PmxFlow} (h : HeldFlow flows l held fs)
    (hkeep : ∀ a, a ∉ addrs l → flows.heap a ≠ none → flows'.heap a = flows.heap a ∧ a ∉ addrs l') :
    HeldFlow flows' l' held fs := by
  cases h with
  | idle => exact .idle
  | busy hnode hout =>
    obtain ⟨hsame, hout'⟩ := hkeep _ hout (by rw [hnode]; exact Option.some_ne_none _)
    exact .busy (by rw [hsame, hnode]) hout'

/-- The queue holds `l`, and the pump holds `fs`. -/
structure InboxAt (s : InboxSystem) (l : List (ℕ × PmxFlow)) (fs : List PmxFlow) : Prop where
  flows : Holds s.inbox.flows l
  len : s.inbox.inboxLen = l.length
  room : l.length + s.reporting.toList.length ≤ pmxInboxMax
  order : s.popped ++ l.map Prod.snd = takenIn s.returned
  count : s.returned.length = s.popped.length + l.length + s.inbox.inboxDropped
  held : HeldFlow s.inbox.flows l s.held fs
  read : s.read ++ fs = s.popped

def InboxInv (s : InboxSystem) : Prop := ∃ l fs, InboxAt s l fs

theorem inboxInv_create : InboxInv .create :=
  ⟨[], [], holds_empty, rfl, Nat.zero_le _, rfl, rfl, .idle, rfl⟩

namespace InboxInv

variable {s : InboxSystem}

theorem report (h : InboxInv s) (f : PmxFlow) : InboxInv (s.report f) := by
  obtain ⟨l, fs, h⟩ := h
  have hlen := h.len
  rw [InboxSystem.report, FlowInbox.offer]
  by_cases hfull : s.inbox.inboxLen ≥ pmxInboxMax
  · rw [if_pos hfull]
    refine ⟨l, fs, h.flows, h.len, h.room, ?_, ?_, h.held, h.read⟩
    · show s.popped ++ l.map Prod.snd = takenIn (s.returned ++ [(f, false)])
      rw [takenIn_concat, h.order]
      exact (List.append_nil _).symm
    · have hcount := h.count
      show (s.returned ++ [(f, false)]).length = s.popped.length + l.length + (s.inbox.inboxDropped + 1)
      rw [List.length_append, List.length_singleton]
      omega
  · rw [if_neg hfull]
    refine ⟨l, fs, h.flows, h.len, ?_, h.order, h.count, h.held, h.read⟩
    show l.length + 1 ≤ pmxInboxMax
    omega

theorem insert (h : InboxInv s) {f : PmxFlow} (hbusy : s.reporting = some f) {a : ℕ}
    (ha : s.inbox.flows.heap a = none) :
    ∃ b, s.inbox.insert a f = some b ∧
      InboxInv { s with inbox := b, reporting := none, returned := s.returned ++ [(f, true)] } := by
  obtain ⟨l, fs, h⟩ := h
  have hroom := h.room
  have hlen := h.len
  have hcount := h.count
  rw [hbusy] at hroom
  obtain ⟨flows, hpush, hflows, hkeep⟩ := h.flows.enqueue ha f
  refine ⟨_, congrArg (Option.map _) hpush, l ++ [(a, f)], fs, hflows, ?_, ?_, ?_, ?_,
    h.held.congr hkeep, h.read⟩
  · show s.inbox.inboxLen + 1 = _
    rw [List.length_append, List.length_singleton, hlen]
  · show (l ++ [(a, f)]).length + 0 ≤ pmxInboxMax
    rw [List.length_append, List.length_singleton]
    exact hroom
  · show s.popped ++ (l ++ [(a, f)]).map Prod.snd = takenIn (s.returned ++ [(f, true)])
    rw [takenIn_concat, ← h.order, List.map_append, ← List.append_assoc]
    rfl
  · show (s.returned ++ [(f, true)]).length =
      s.popped.length + (l ++ [(a, f)]).length + s.inbox.inboxDropped
    rw [List.length_append, List.length_append, List.length_singleton, List.length_singleton]
    omega

theorem pop (h : InboxInv s) (hidle : s.held = none) : ∃ s', s.pop = some s' ∧ InboxInv s' := by
  obtain ⟨l, fs, h⟩ := h
  cases l with
  | nil =>
    refine ⟨s, ?_, [], fs, h⟩
    rw [InboxSystem.pop, FlowInbox.pop, h.flows.pop_nil]
    rfl
  | cons av l =>
    obtain ⟨a, f⟩ := av
    have hlen := h.len
    have hroom := h.room
    have hcount := h.count
    rw [List.length_cons] at hlen hroom hcount
    have hread : s.read = s.popped := by
      have hheld := h.held
      rw [hidle] at hheld
      cases hheld
      rw [← h.read, List.append_nil]
    obtain ⟨flows, hpop, hflows, hheap, next, hnode⟩ := h.flows.pop
    have heq : s.pop = some { s with
        inbox := { s.inbox with
          flows := flows
          inboxLen := if s.inbox.inboxLen > 0 then s.inbox.inboxLen - 1 else s.inbox.inboxLen }
        held := some a
        popped := s.popped ++ [f] } := by
      rw [InboxSystem.pop, FlowInbox.pop, hpop]
      show (flows.heap a).map _ = _
      rw [hheap, hnode]
      rfl
    refine ⟨_, heq, l, [f], hflows, ?_, ?_, ?_, ?_, ?_, ?_⟩
    · show (if s.inbox.inboxLen > 0 then s.inbox.inboxLen - 1 else s.inbox.inboxLen) = l.length
      rw [hlen, if_pos (Nat.succ_pos _)]
      rfl
    · show l.length + s.reporting.toList.length ≤ pmxInboxMax
      omega
    · show s.popped ++ [f] ++ l.map Prod.snd = takenIn s.returned
      rw [← h.order, List.append_assoc]
      rfl
    · show s.returned.length = (s.popped ++ [f]).length + l.length + s.inbox.inboxDropped
      rw [List.length_append, List.length_singleton]
      omega
    · exact .busy (by show flows.heap a = _; rw [hheap, hnode]) (List.nodup_cons.1 h.flows.nodup).1
    · show s.read ++ [f] = s.popped ++ [f]
      rw [hread]

theorem release (h : InboxInv s) {a : ℕ} (hbusy : s.held = some a) :
    ∃ n, s.inbox.flows.heap a = some n ∧
      InboxInv { s with inbox := s.inbox.free a, held := none, read := s.read ++ [n.value] } := by
  obtain ⟨l, fs, h⟩ := h
  have hheld := h.held
  rw [hbusy] at hheld
  cases hheld with
  | @busy _ f next hnode hout =>
    refine ⟨_, hnode, l, [], h.flows.free hout, h.len, h.room, h.order, h.count, .idle, ?_⟩
    rw [List.append_nil]
    exact h.read

theorem step (h : InboxInv s) (e : InboxEvent) : ∃ s', inboxStep s e = some s' ∧ InboxInv s' := by
  cases e with
  | report f =>
    rw [inboxStep]
    split_ifs
    · exact ⟨s, rfl, h⟩
    · exact ⟨_, rfl, h.report f⟩
  | insert a =>
    rw [inboxStep]
    split
    · exact ⟨s, rfl, h⟩
    · next f hbusy =>
      split_ifs with ha
      · exact ⟨s, rfl, h⟩
      · obtain ⟨b, hb, hinv⟩ := h.insert hbusy (a := a) (by simpa using ha)
        exact ⟨_, congrArg (Option.map _) hb, hinv⟩
  | pop =>
    rw [inboxStep]
    split_ifs with hbusy
    · exact ⟨s, rfl, h⟩
    · exact h.pop (by simpa using hbusy)
  | release =>
    rw [inboxStep]
    split
    · exact ⟨s, rfl, h⟩
    · next a hbusy =>
      obtain ⟨n, hn, hinv⟩ := h.release hbusy
      exact ⟨_, congrArg (Option.map _) hn, hinv⟩

end InboxInv

/-- The queue is as long as `inbox_len` says and no longer than 4096, it holds what was taken in and not
popped, every report that returned is accounted for, and a flow is dropped only when the queue is full. -/
structure FlowsAccounted (s : InboxSystem) : Prop where
  queue : ∃ queued, Holds s.inbox.flows queued ∧ s.inbox.inboxLen = queued.length ∧ queued.length ≤ 4096 ∧
    s.popped ++ queued.map Prod.snd = takenIn s.returned ∧
    s.returned.length = s.popped.length + queued.length + s.inbox.inboxDropped
  read : s.read <+: s.popped
  full : ∀ f s', inboxStep s (.report f) = some s' → s'.inbox.inboxDropped ≠ s.inbox.inboxDropped →
    s.inbox.inboxLen = 4096

theorem InboxInv.accounted {s : InboxSystem} (h : InboxInv s) : FlowsAccounted s := by
  obtain ⟨l, fs, h⟩ := h
  have hbound : l.length ≤ 4096 := Nat.le_trans (Nat.le_add_right _ _) h.room
  refine ⟨⟨l, h.flows, h.len, hbound, h.order, h.count⟩, ⟨fs, h.read⟩, fun f s' hstep hdrop => ?_⟩
  rw [inboxStep] at hstep
  split_ifs at hstep
  · obtain rfl := Option.some.inj hstep
    exact absurd rfl hdrop
  · obtain rfl := Option.some.inj hstep
    rw [InboxSystem.report, FlowInbox.offer] at hdrop
    by_cases hfull : s.inbox.inboxLen ≥ pmxInboxMax
    · have hlen := h.len
      have hmax : pmxInboxMax = 4096 := rfl
      omega
    · rw [if_neg hfull] at hdrop
      exact absurd rfl hdrop

/-- **Every flow reported is accounted for**, in whatever order the critical sections come. -/
theorem inbox_accounts (evs : List InboxEvent) :
    ∃ s, runPartial inboxStep .create evs = some s ∧ FlowsAccounted s := by
  obtain ⟨s, hs, hinv⟩ := runPartial_inv InboxInv (fun s e h => h.step e) evs _ inboxInv_create
  exact ⟨s, hs, hinv.accounted⟩

end ProxiMight
