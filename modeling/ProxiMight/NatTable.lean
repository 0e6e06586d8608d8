import ProxiMight.Types
import ProxiMight.SlotTable

/-!
# The NAT table behind transparent redirection (`pmx_nat.c`)

A proxied connect is remembered under its source port, so that its packets are rewritten to the relay
and the replies back.  The table has a fixed number of slots; a lookup refreshes a live entry, an entry
that is idle for longer than `ttl_ms` expires, and an entry whose relay side has ended is kept but may
be reclaimed.  Times are the milliseconds of a monotonic clock; every difference the code takes is
guarded by a comparison, so none of them wraps.

What an operation does to the entry of one port is read off `lookup`, the first used slot with that
port: one lemma for each operation, and none of the later modules unfolds the operations.
-/

namespace ProxiMight

/-- `pmx_nat_entry`. -/
structure NatEntry where
  srcAddr : UInt32
  srcPort : PmxPort
  origDstAddr : UInt32
  origDstPort : PmxPort
  createdMs : ℕ
  deriving DecidableEq, Repr

/-- `nat_slot`. -/
structure NatSlot where
  used : Bool
  closed : Bool
  lastSeenMs : ℕ
  e : NatEntry
  deriving DecidableEq, Repr

/-- `struct pmx_nat`; the capacity is the number of slots. -/
structure NatTable where
  slots : List NatSlot
  count : ℕ
  ttlMs : ℕ
  deriving DecidableEq, Repr

/-- The zeroed slot of `calloc`, which `pmx_nat_remove` and `pmx_nat_expire` also write. -/
def emptySlot : NatSlot := ⟨false, false, 0, ⟨0, 0, 0, 0, 0⟩⟩

/-- The `created_ms`, `last_seen_ms` and mapping that `pmx_nat_add` writes. -/
def freshSlot (srcAddr : UInt32) (srcPort : PmxPort) (origDstAddr : UInt32)
    (origDstPort : PmxPort) (nowMs : ℕ) : NatSlot :=
  ⟨true, false, nowMs, ⟨srcAddr, srcPort, origDstAddr, origDstPort, nowMs⟩⟩

def pmxNatCreate (capacity : ℕ) (ttlMs : ℤ) : NatTable where
  slots := List.replicate (if capacity = 0 then 512 else capacity) emptySlot
  count := 0
  ttlMs := if ttlMs > 0 then ttlMs.toNat else 120000

namespace NatTable

/-- Expiry is inactivity, not age. -/
def expired (n : NatTable) (s : NatSlot) (nowMs : ℕ) : Bool :=
  decide (nowMs > s.lastSeenMs) && decide (nowMs - s.lastSeenMs > n.ttlMs)

/-- The test of `find_slot`. -/
def holds (srcPort : PmxPort) (s : NatSlot) : Bool := s.used && s.e.srcPort == srcPort

def findSlot (n : NatTable) (srcPort : PmxPort) : Option ℕ := n.slots.findIdx? (holds srcPort)

/-- The slot `find_slot` points at. -/
def lookup (n : NatTable) (srcPort : PmxPort) : Option NatSlot := n.slots.find? (holds srcPort)

def setSlot (n : NatTable) (i : ℕ) (s : NatSlot) : NatTable := { n with slots := n.slots.set i s }

/-- Where `pmx_nat_add` puts a port that has no slot yet. -/
inductive SlotChoice
  | free (i : ℕ)
  | reclaim (i : ℕ)
  | full
  deriving DecidableEq, Repr

/-- The loop of `pmx_nat_add`: the first free slot ends it; `reclaim` is the oldest expired or closed
slot met so far, with its `created_ms`. -/
def chooseSlot (n : NatTable) (nowMs : ℕ) : List NatSlot → ℕ → Option (ℕ × ℕ) → SlotChoice
  | [], _, none => .full
  | [], _, some (i, _) => .reclaim i
  | s :: rest, i, reclaim =>
    if !s.used then .free i
    else if (n.expired s nowMs || s.closed) &&
        (match reclaim with
          | none => true
          | some (_, created) => decide (s.e.createdMs < created)) then
      chooseSlot n nowMs rest (i + 1) (some (i, s.e.createdMs))
    else chooseSlot n nowMs rest (i + 1) reclaim

end NatTable

open NatTable

def pmxNatAdd (n : NatTable) (srcAddr : UInt32) (srcPort : PmxPort) (origDstAddr : UInt32)
    (origDstPort : PmxPort) (nowMs : ℕ) : NatTable × PmxStatus :=
  if srcPort = 0 then (n, .errInvalidArg)
  else
    let s := freshSlot srcAddr srcPort origDstAddr origDstPort nowMs
    match n.findSlot srcPort with
    | some i => (n.setSlot i s, .ok)
    | none =>
      match n.chooseSlot nowMs n.slots 0 none with
      | .free i => ({ n.setSlot i s with count := n.count + 1 }, .ok)
      | .reclaim i => (n.setSlot i s, .ok)
      -- full of live flows: fail closed, never leak
      | .full => (n, .errState)

/-- The second component is `*out` on success and `none` when the call returns `false`. -/
def pmxNatFind (n : NatTable) (srcPort : PmxPort) (nowMs : ℕ) : NatTable × Option NatEntry :=
  if srcPort = 0 then (n, none)
  else
    match n.findSlot srcPort with
    | none => (n, none)
    | some i =>
      match n.slots[i]? with
      | none => (n, none)
      | some s =>
        if n.expired s nowMs then (n, none)
        -- a hit refreshes the idle timer, but only of a live flow
        else if s.closed then (n, some s.e)
        else (n.setSlot i { s with lastSeenMs := nowMs }, some s.e)

def pmxNatMarkClosed (n : NatTable) (srcPort : PmxPort) : NatTable :=
  if srcPort = 0 then n
  else
    match n.findSlot srcPort with
    | none => n
    | some i =>
      match n.slots[i]? with
      | none => n
      | some s => n.setSlot i { s with closed := true }

def pmxNatRemove (n : NatTable) (srcPort : PmxPort) : NatTable :=
  match n.findSlot srcPort with
  | none => n
  | some i => { n.setSlot i emptySlot with count := n.count - 1 }

/-- The slot `pmx_nat_expire` leaves behind. -/
def NatTable.sweepSlot (n : NatTable) (nowMs : ℕ) (s : NatSlot) : NatSlot :=
  if s.used && n.expired s nowMs then emptySlot else s

/-- The second component is the number of entries dropped. -/
def pmxNatExpire (n : NatTable) (nowMs : ℕ) : NatTable × ℕ :=
  let dropped := n.slots.countP fun s => s.used && n.expired s nowMs
  ({ n with slots := n.slots.map (n.sweepSlot nowMs), count := n.count - dropped }, dropped)

def pmxNatCount (n : NatTable) : ℕ := n.count

/-! ### Looking up one port after an operation -/

namespace NatTable

/-- A slot of a flow that is neither closed nor idle for longer than the time to live. -/
def Live (n : NatTable) (nowMs : ℕ) (s : NatSlot) : Prop :=
  s.closed = false ∧ n.expired s nowMs = false

@[simp] theorem setSlot_ttlMs (n : NatTable) (i : ℕ) (s : NatSlot) :
    (n.setSlot i s).ttlMs = n.ttlMs := rfl

@[simp] theorem setSlot_slots (n : NatTable) (i : ℕ) (s : NatSlot) :
    (n.setSlot i s).slots = n.slots.set i s := rfl

theorem expired_eq_false (n : NatTable) (s : NatSlot) (nowMs : ℕ) :
    n.expired s nowMs = false ↔ nowMs ≤ s.lastSeenMs + n.ttlMs := by
  rw [← Bool.not_eq_true, expired, Bool.and_eq_true, decide_eq_true_eq, decide_eq_true_eq]
  omega

theorem holds_iff (srcPort : PmxPort) (s : NatSlot) :
    holds srcPort s = true ↔ s.used = true ∧ s.e.srcPort = srcPort := by
  rw [holds, Bool.and_eq_true, beq_iff_eq]

theorem lookup_holds {n : NatTable} {srcPort : PmxPort} {s : NatSlot}
    (h : n.lookup srcPort = some s) : s.used = true ∧ s.e.srcPort = srcPort :=
  (holds_iff srcPort s).1 (List.find?_some h)

/-- `find_slot` finds exactly when `lookup` does, at the slot `lookup` returns. -/
theorem findSlot_eq_some {n : NatTable} {srcPort : PmxPort} {i : ℕ}
    (h : n.findSlot srcPort = some i) :
    ∃ s, n.slots[i]? = some s ∧ n.lookup srcPort = some s := by
  obtain ⟨hi, hp, hfirst⟩ := List.findIdx?_eq_some_iff_getElem.1 h
  refine ⟨n.slots[i], List.getElem?_eq_getElem hi, ?_⟩
  rw [lookup, List.find?_eq_some_iff_getElem]
  exact ⟨hp, i, hi, rfl, fun j hj => by simpa using hfirst j hj⟩

theorem findSlot_eq_none {n : NatTable} {srcPort : PmxPort} :
    n.findSlot srcPort = none ↔ n.lookup srcPort = none := by
  rw [findSlot, lookup, List.findIdx?_eq_none_iff, List.find?_eq_none]
  simp only [Bool.not_eq_true]

theorem findSlot_of_lookup {n : NatTable} {srcPort : PmxPort} {s : NatSlot}
    (h : n.lookup srcPort = some s) :
    ∃ i, n.findSlot srcPort = some i ∧ n.slots[i]? = some s := by
  cases hf : n.findSlot srcPort with
  | none => rw [findSlot_eq_none.1 hf] at h; cases h
  | some i =>
    obtain ⟨s', hs', hl⟩ := findSlot_eq_some hf
    obtain rfl : s' = s := Option.some.inj (hl.symm.trans h)
    exact ⟨i, rfl, hs'⟩

/-- What the choice of a slot promises: the slot is unused, or it is expired or closed. -/
def SlotChoice.Sound (n : NatTable) (nowMs : ℕ) : SlotChoice → Prop
  | .free i => ∃ s, n.slots[i]? = some s ∧ s.used = false
  | .reclaim i => ∃ s, n.slots[i]? = some s ∧ ¬n.Live nowMs s
  | .full => True

theorem chooseSlot_sound (n : NatTable) (nowMs : ℕ) :
    ∀ (rest seen : List NatSlot) (reclaim : Option (ℕ × ℕ)), n.slots = seen ++ rest →
      (∀ i c, reclaim = some (i, c) → ∃ s, n.slots[i]? = some s ∧ ¬n.Live nowMs s) →
      (n.chooseSlot nowMs rest seen.length reclaim).Sound n nowMs := by
  intro rest
  induction rest with
  | nil =>
    intro seen reclaim _ hrec
    cases reclaim with
    | none => trivial
    | some ic => exact hrec ic.1 ic.2 rfl
  | cons s rest ih =>
    intro seen reclaim hall hrec
    have hat : n.slots[seen.length]? = some s := by rw [hall]; simp
    have hnext : n.slots = (seen ++ [s]) ++ rest := by
      rw [hall, List.append_assoc, List.singleton_append]
    have hlen : (seen ++ [s]).length = seen.length + 1 := by simp
    unfold chooseSlot
    split_ifs with hfree htake
    · exact ⟨s, hat, by simpa using hfree⟩
    · have hdead : ¬n.Live nowMs s := by
        rintro ⟨hc, he⟩
        simp [hc, he] at htake
      rw [← hlen]
      refine ih (seen ++ [s]) _ hnext ?_
      rintro i c hic
      obtain ⟨rfl, -⟩ := Prod.mk.inj (Option.some.inj hic)
      exact ⟨s, hat, hdead⟩
    · rw [← hlen]
      exact ih (seen ++ [s]) reclaim hnext hrec

end NatTable

/-- `pmx_nat_add` writes at most one slot: the port's own, a free one, or one that is not live. -/
theorem pmxNatAdd_cases (n : NatTable) (srcAddr : UInt32) (srcPort : PmxPort)
    (origDstAddr : UInt32) (origDstPort : PmxPort) (nowMs : ℕ) :
    ((pmxNatAdd n srcAddr srcPort origDstAddr origDstPort nowMs).2 ≠ .ok ∧
      (pmxNatAdd n srcAddr srcPort origDstAddr origDstPort nowMs).1 = n) ∨
    ((pmxNatAdd n srcAddr srcPort origDstAddr origDstPort nowMs).2 = .ok ∧ srcPort ≠ 0 ∧
      ∃ i s count, n.slots[i]? = some s ∧
        (pmxNatAdd n srcAddr srcPort origDstAddr origDstPort nowMs).1 =
          { n.setSlot i (freshSlot srcAddr srcPort origDstAddr origDstPort nowMs)
            with count := count } ∧
        (n.findSlot srcPort = some i ∨
          n.findSlot srcPort = none ∧ (s.used = false ∨ ¬n.Live nowMs s))) := by
  unfold pmxNatAdd
  by_cases hp : srcPort = 0
  · rw [if_pos hp]
    exact .inl ⟨by simp, rfl⟩
  · rw [if_neg hp]
    cases hf : n.findSlot srcPort with
    | some i =>
      obtain ⟨s, hs, -⟩ := findSlot_eq_some hf
      exact .inr ⟨rfl, hp, i, s, n.count, hs, rfl, .inl rfl⟩
    | none =>
      have hspec := chooseSlot_sound n nowMs n.slots [] none rfl (by simp)
      rw [List.length_nil] at hspec
      dsimp only
      cases hc : n.chooseSlot nowMs n.slots 0 none with
      | free i =>
        rw [hc] at hspec
        obtain ⟨s, hs, hfree⟩ := hspec
        exact .inr ⟨rfl, hp, i, s, n.count + 1, hs, rfl, .inr ⟨rfl, .inl hfree⟩⟩
      | reclaim i =>
        rw [hc] at hspec
        obtain ⟨s, hs, hdead⟩ := hspec
        exact .inr ⟨rfl, hp, i, s, n.count, hs, rfl, .inr ⟨rfl, .inr hdead⟩⟩
      | full => exact .inl ⟨by simp, rfl⟩

theorem pmxNatAdd_of_refused {n : NatTable} {srcAddr : UInt32} {srcPort : PmxPort}
    {origDstAddr : UInt32} {origDstPort : PmxPort} {nowMs : ℕ}
    (h : (pmxNatAdd n srcAddr srcPort origDstAddr origDstPort nowMs).2 ≠ .ok) :
    (pmxNatAdd n srcAddr srcPort origDstAddr origDstPort nowMs).1 = n := by
  rcases pmxNatAdd_cases n srcAddr srcPort origDstAddr origDstPort nowMs with ⟨-, heq⟩ | ⟨hok, -⟩
  · exact heq
  · exact absurd hok h

theorem pmxNatAdd_port {n : NatTable} {srcAddr : UInt32} {srcPort : PmxPort}
    {origDstAddr : UInt32} {origDstPort : PmxPort} {nowMs : ℕ}
    (h : (pmxNatAdd n srcAddr srcPort origDstAddr origDstPort nowMs).2 = .ok) : srcPort ≠ 0 := by
  rcases pmxNatAdd_cases n srcAddr srcPort origDstAddr origDstPort nowMs with ⟨hne, -⟩ | ⟨-, hp, -⟩
  · exact absurd h hne
  · exact hp

/-- **A successful add is what the port then maps to.** -/
theorem lookup_pmxNatAdd_self {n : NatTable} {srcAddr : UInt32} {srcPort : PmxPort}
    {origDstAddr : UInt32} {origDstPort : PmxPort} {nowMs : ℕ}
    (hok : (pmxNatAdd n srcAddr srcPort origDstAddr origDstPort nowMs).2 = .ok) :
    (pmxNatAdd n srcAddr srcPort origDstAddr origDstPort nowMs).1.lookup srcPort =
      some (freshSlot srcAddr srcPort origDstAddr origDstPort nowMs) := by
  have hself : holds srcPort (freshSlot srcAddr srcPort origDstAddr origDstPort nowMs) = true :=
    (holds_iff _ _).2 ⟨rfl, rfl⟩
  rcases pmxNatAdd_cases n srcAddr srcPort origDstAddr origDstPort nowMs with
    ⟨hne, -⟩ | ⟨-, -, i, s, count, hs, heq, hslot⟩
  · exact absurd hok hne
  · rw [heq]
    rcases hslot with hf | ⟨hf, -⟩
    · exact SlotTable.find?_set_of_findIdx? _ hself n.slots i hf
    · exact SlotTable.find?_set_of_none _ hself n.slots i (findSlot_eq_none.1 hf)
        (List.getElem?_eq_some_iff.1 hs).1

/-- **An add never touches a live entry of another port**, whether or not it succeeds. -/
theorem lookup_pmxNatAdd_of_ne {n : NatTable} {srcAddr : UInt32} {srcPort : PmxPort}
    {origDstAddr : UInt32} {origDstPort : PmxPort} {nowMs : ℕ} {p : PmxPort} {s : NatSlot}
    (hp : p ≠ srcPort) (hs : n.lookup p = some s) (hlive : n.Live nowMs s) :
    (pmxNatAdd n srcAddr srcPort origDstAddr origDstPort nowMs).1.lookup p = some s := by
  obtain ⟨hused, hport⟩ := lookup_holds hs
  rcases pmxNatAdd_cases n srcAddr srcPort origDstAddr origDstPort nowMs with
    ⟨-, heq⟩ | ⟨-, -, i, s', count, hs', heq, hslot⟩
  · rw [heq, hs]
  · rw [heq]
    have hother : holds p (freshSlot srcAddr srcPort origDstAddr origDstPort nowMs) = false := by
      rw [← Bool.not_eq_true, holds_iff]
      rintro ⟨-, hport'⟩
      exact hp hport'.symm
    refine SlotTable.find?_set_of_ne _ hother n.slots i s hs ?_
    rw [hs']
    intro hss
    obtain rfl : s' = s := Option.some.inj hss
    rcases hslot with hf | ⟨-, hunused | hdead⟩
    · obtain ⟨s'', hs'', hl⟩ := findSlot_eq_some hf
      obtain rfl : s'' = s' := Option.some.inj (hs''.symm.trans hs')
      exact hp (hport.symm.trans (lookup_holds hl).2)
    · rw [hused] at hunused; cases hunused
    · exact hdead hlive

@[simp] theorem pmxNatAdd_ttlMs (n : NatTable) (srcAddr : UInt32) (srcPort : PmxPort)
    (origDstAddr : UInt32) (origDstPort : PmxPort) (nowMs : ℕ) :
    (pmxNatAdd n srcAddr srcPort origDstAddr origDstPort nowMs).1.ttlMs = n.ttlMs := by
  rcases pmxNatAdd_cases n srcAddr srcPort origDstAddr origDstPort nowMs with
    ⟨-, heq⟩ | ⟨-, -, i, s, count, -, heq, -⟩
  · rw [heq]
  · rw [heq]; rfl

/-- **A lookup of a live entry** returns it and restarts its idle timer. -/
theorem pmxNatFind_of_live {n : NatTable} {srcPort : PmxPort} {nowMs : ℕ} {s : NatSlot}
    (hp : srcPort ≠ 0) (hs : n.lookup srcPort = some s) (hlive : n.Live nowMs s) :
    (pmxNatFind n srcPort nowMs).2 = some s.e ∧
      (pmxNatFind n srcPort nowMs).1.lookup srcPort = some { s with lastSeenMs := nowMs } := by
  obtain ⟨i, hf, hi⟩ := findSlot_of_lookup hs
  have heq : pmxNatFind n srcPort nowMs =
      (n.setSlot i { s with lastSeenMs := nowMs }, some s.e) := by
    rw [pmxNatFind, if_neg hp, hf]
    simp only [hi, hlive.1, hlive.2, Bool.false_eq_true, if_false]
  rw [heq]
  have hself : holds srcPort { s with lastSeenMs := nowMs } = true :=
    (holds_iff _ _).2 ⟨(lookup_holds hs).1, (lookup_holds hs).2⟩
  exact ⟨rfl, SlotTable.find?_set_of_findIdx? _ hself n.slots i hf⟩

/-- A lookup changes nothing, or the idle timer of the entry it finds. -/
theorem pmxNatFind_cases (n : NatTable) (srcPort : PmxPort) (nowMs : ℕ) :
    (pmxNatFind n srcPort nowMs).1 = n ∨
      ∃ i s, n.slots[i]? = some s ∧ n.lookup srcPort = some s ∧
        (pmxNatFind n srcPort nowMs).1 = n.setSlot i { s with lastSeenMs := nowMs } := by
  unfold pmxNatFind
  by_cases hp : srcPort = 0
  · rw [if_pos hp]; exact .inl rfl
  · rw [if_neg hp]
    cases hf : n.findSlot srcPort with
    | none => exact .inl rfl
    | some i =>
      obtain ⟨s, hs, hl⟩ := findSlot_eq_some hf
      simp only [hs]
      split
      · exact .inl rfl
      · split
        · exact .inl rfl
        · exact .inr ⟨i, s, hs, hl, rfl⟩

/-- What a lookup answers. -/
theorem pmxNatFind_eq_some_iff {n : NatTable} {srcPort : PmxPort} {nowMs : ℕ} {e : NatEntry} :
    (pmxNatFind n srcPort nowMs).2 = some e ↔
      srcPort ≠ 0 ∧ ∃ s, n.lookup srcPort = some s ∧ n.expired s nowMs = false ∧ s.e = e := by
  unfold pmxNatFind
  by_cases hp : srcPort = 0
  · rw [if_pos hp]
    exact iff_of_false (fun h => by cases h) fun h => h.1 hp
  · rw [if_neg hp]
    cases hf : n.findSlot srcPort with
    | none =>
      refine iff_of_false (fun h => by cases h) ?_
      rintro ⟨-, s, hs, -⟩
      rw [findSlot_eq_none.1 hf] at hs
      cases hs
    | some i =>
      obtain ⟨s, hs, hl⟩ := findSlot_eq_some hf
      simp only [hs, hl]
      cases hexp : n.expired s nowMs with
      | true => simp [hexp]
      | false =>
        cases s.closed with
        | true => simp [hexp, hp]
        | false => simp [hexp, hp]

/-- A lookup refreshes nothing exactly when it finds no live entry, or one that was seen just now. -/
theorem pmxNatFind_same_iff {n : NatTable} {srcPort : PmxPort} {nowMs : ℕ} :
    (pmxNatFind n srcPort nowMs).1 = n ↔
      srcPort = 0 ∨ ∀ s, n.lookup srcPort = some s →
        n.expired s nowMs = true ∨ s.closed = true ∨ s.lastSeenMs = nowMs := by
  unfold pmxNatFind
  by_cases hp : srcPort = 0
  · rw [if_pos hp]
    exact iff_of_true rfl (Or.inl hp)
  · rw [if_neg hp]
    cases hf : n.findSlot srcPort with
    | none =>
      refine iff_of_true rfl (Or.inr fun s hs => ?_)
      rw [findSlot_eq_none.1 hf] at hs
      cases hs
    | some i =>
      obtain ⟨s, hs, hl⟩ := findSlot_eq_some hf
      have hset : n.setSlot i { s with lastSeenMs := nowMs } = n ↔ s.lastSeenMs = nowMs := by
        constructor
        · intro heq
          have hi : (n.setSlot i { s with lastSeenMs := nowMs }).slots[i]? = some s := by
            rw [heq, hs]
          rw [setSlot_slots, List.getElem?_set_self (List.getElem?_eq_some_iff.1 hs).1] at hi
          exact (congrArg NatSlot.lastSeenMs (Option.some.inj hi)).symm
        · rintro rfl
          obtain ⟨hlt, hget⟩ := List.getElem?_eq_some_iff.1 hs
          have hsame : n.slots.set i s = n.slots := by
            rw [← hget]
            exact List.set_getElem_self hlt
          rw [NatTable.setSlot, hsame]
      simp only [hs, hl, hp, false_or, Option.some.injEq, forall_eq']
      cases hexp : n.expired s nowMs with
      | true => simp
      | false =>
        cases hclosed : s.closed with
        | true => simp
        | false => simpa [hclosed] using hset

/-- Marking closed changes nothing, or the `closed` flag of the entry it finds. -/
theorem pmxNatMarkClosed_cases (n : NatTable) (srcPort : PmxPort) :
    pmxNatMarkClosed n srcPort = n ∨
      ∃ i s, n.slots[i]? = some s ∧ n.lookup srcPort = some s ∧
        pmxNatMarkClosed n srcPort = n.setSlot i { s with closed := true } := by
  unfold pmxNatMarkClosed
  by_cases hp : srcPort = 0
  · rw [if_pos hp]; exact .inl rfl
  · rw [if_neg hp]
    cases hf : n.findSlot srcPort with
    | none => exact .inl rfl
    | some i =>
      obtain ⟨s, hs, hl⟩ := findSlot_eq_some hf
      simp only [hs]
      exact .inr ⟨i, s, hs, hl, rfl⟩

/-- Removing changes nothing, or empties the entry it finds. -/
theorem pmxNatRemove_cases (n : NatTable) (srcPort : PmxPort) :
    pmxNatRemove n srcPort = n ∨
      ∃ i s, n.slots[i]? = some s ∧ n.lookup srcPort = some s ∧
        pmxNatRemove n srcPort = { n.setSlot i emptySlot with count := n.count - 1 } := by
  unfold pmxNatRemove
  cases hf : n.findSlot srcPort with
  | none => exact .inl rfl
  | some i =>
    obtain ⟨s, hs, hl⟩ := findSlot_eq_some hf
    exact .inr ⟨i, s, hs, hl, rfl⟩

/-- Overwriting the slot of one port, by a slot that no other port matches, is not seen by another. -/
theorem lookup_setSlot_of_ne {n : NatTable} {srcPort p : PmxPort} {i : ℕ} {s v x : NatSlot}
    (hp : p ≠ srcPort) (hi : n.slots[i]? = some s) (hs : n.lookup srcPort = some s)
    (hv : v.used = false ∨ v.e.srcPort = srcPort) (hx : n.lookup p = some x) :
    (n.setSlot i v).lookup p = some x := by
  have hvp : holds p v = false := by
    rw [← Bool.not_eq_true, holds_iff]
    rintro ⟨hu, hport⟩
    rcases hv with hv | hv
    · rw [hv] at hu; cases hu
    · exact hp (hport.symm.trans hv)
  refine SlotTable.find?_set_of_ne v hvp n.slots i x hx ?_
  rw [hi]
  intro hsx
  obtain rfl : s = x := Option.some.inj hsx
  exact hp ((lookup_holds hx).2.symm.trans (lookup_holds hs).2)

theorem lookup_pmxNatFind_of_ne {n : NatTable} {srcPort p : PmxPort} {nowMs : ℕ} {x : NatSlot}
    (hp : p ≠ srcPort) (hx : n.lookup p = some x) :
    (pmxNatFind n srcPort nowMs).1.lookup p = some x := by
  rcases pmxNatFind_cases n srcPort nowMs with heq | ⟨i, s, hi, hs, heq⟩
  · rw [heq, hx]
  · rw [heq]
    exact lookup_setSlot_of_ne hp hi hs (.inr (lookup_holds hs).2) hx

theorem lookup_pmxNatMarkClosed_of_ne {n : NatTable} {srcPort p : PmxPort} {x : NatSlot}
    (hp : p ≠ srcPort) (hx : n.lookup p = some x) :
    (pmxNatMarkClosed n srcPort).lookup p = some x := by
  rcases pmxNatMarkClosed_cases n srcPort with heq | ⟨i, s, hi, hs, heq⟩
  · rw [heq, hx]
  · rw [heq]
    exact lookup_setSlot_of_ne hp hi hs (.inr (lookup_holds hs).2) hx

theorem lookup_pmxNatRemove_of_ne {n : NatTable} {srcPort p : PmxPort} {x : NatSlot}
    (hp : p ≠ srcPort) (hx : n.lookup p = some x) :
    (pmxNatRemove n srcPort).lookup p = some x := by
  rcases pmxNatRemove_cases n srcPort with heq | ⟨i, s, hi, hs, heq⟩
  · rw [heq, hx]
  · rw [heq]
    exact lookup_setSlot_of_ne hp hi hs (.inl rfl) hx

/-- An expiry sweep keeps an entry that is not expired. -/
theorem lookup_pmxNatExpire {n : NatTable} {p : PmxPort} {nowMs : ℕ} {x : NatSlot}
    (hx : n.lookup p = some x) (hlive : n.expired x nowMs = false) :
    (pmxNatExpire n nowMs).1.lookup p = some x := by
  refine SlotTable.find?_map_of_fixed (n.sweepSlot nowMs) ?_ n.slots x hx ?_
  · intro y hy
    unfold sweepSlot at hy
    split at hy
    · cases hy
    · exact hy
  · rw [sweepSlot, hlive, Bool.and_false]
    rfl

@[simp] theorem pmxNatFind_ttlMs (n : NatTable) (srcPort : PmxPort) (nowMs : ℕ) :
    (pmxNatFind n srcPort nowMs).1.ttlMs = n.ttlMs := by
  rcases pmxNatFind_cases n srcPort nowMs with heq | ⟨i, s, -, -, heq⟩
  · rw [heq]
  · rw [heq]; rfl

@[simp] theorem pmxNatMarkClosed_ttlMs (n : NatTable) (srcPort : PmxPort) :
    (pmxNatMarkClosed n srcPort).ttlMs = n.ttlMs := by
  rcases pmxNatMarkClosed_cases n srcPort with heq | ⟨i, s, -, -, heq⟩
  · rw [heq]
  · rw [heq]; rfl

@[simp] theorem pmxNatRemove_ttlMs (n : NatTable) (srcPort : PmxPort) :
    (pmxNatRemove n srcPort).ttlMs = n.ttlMs := by
  rcases pmxNatRemove_cases n srcPort with heq | ⟨i, s, -, -, heq⟩
  · rw [heq]
  · rw [heq]; rfl

@[simp] theorem pmxNatExpire_ttlMs (n : NatTable) (nowMs : ℕ) :
    (pmxNatExpire n nowMs).1.ttlMs = n.ttlMs := rfl

/-! ### One slot for each port -/

namespace NatTable

/-- The port a slot is used for. -/
def slotPort (s : NatSlot) : Option PmxPort := if s.used then some s.e.srcPort else none

/-- No port has two slots. -/
def PortsDistinct (n : NatTable) : Prop := SlotTable.KeysDistinct slotPort n.slots

theorem slotPort_eq_some {s : NatSlot} {p : PmxPort} :
    slotPort s = some p ↔ s.used = true ∧ s.e.srcPort = p := by
  rw [slotPort]
  split_ifs with h
  · simp [h]
  · simp [h]

theorem portsDistinct_create (capacity : ℕ) (ttlMs : ℤ) :
    (pmxNatCreate capacity ttlMs).PortsDistinct := by
  intro i j a b k hi _ ha _
  have hempty := List.eq_of_mem_replicate (List.mem_of_getElem? hi)
  rw [hempty] at ha
  cases ha

theorem unused_of_mem_create {capacity : ℕ} {ttlMs : ℤ} {s : NatSlot}
    (h : s ∈ (pmxNatCreate capacity ttlMs).slots) : s.used = false := by
  rw [List.eq_of_mem_replicate h]
  rfl

/-- What stands at the place of an add: the port's own slot, and no other slot has the port. -/
theorem PortsDistinct.free_of_place {n : NatTable} (h : n.PortsDistinct) {srcPort : PmxPort} {i : ℕ}
    (hplace : n.findSlot srcPort = some i ∨ n.findSlot srcPort = none) {j : ℕ} {b : NatSlot}
    (hji : j ≠ i) (hj : n.slots[j]? = some b) : slotPort b ≠ some srcPort := by
  intro hb
  obtain ⟨hused, hport⟩ := slotPort_eq_some.1 hb
  rcases hplace with hf | hf
  · obtain ⟨s, hs, hl⟩ := findSlot_eq_some hf
    have hsp : slotPort s = some srcPort := slotPort_eq_some.2 (lookup_holds hl)
    exact hji (h j i b s srcPort hj hs hb hsp)
  · have hnone := List.find?_eq_none.1 (findSlot_eq_none.1 hf) b (List.mem_of_getElem? hj)
    exact hnone ((holds_iff srcPort b).2 ⟨hused, hport⟩)

end NatTable

/-- **An add keeps one slot for each port**; every slot in use is the new one or one of another port. -/
theorem portsDistinct_pmxNatAdd {n : NatTable} (h : n.PortsDistinct) (srcAddr : UInt32)
    (srcPort : PmxPort) (origDstAddr : UInt32) (origDstPort : PmxPort) (nowMs : ℕ) :
    (pmxNatAdd n srcAddr srcPort origDstAddr origDstPort nowMs).1.PortsDistinct ∧
    ((pmxNatAdd n srcAddr srcPort origDstAddr origDstPort nowMs).2 = .ok →
      ∀ s ∈ (pmxNatAdd n srcAddr srcPort origDstAddr origDstPort nowMs).1.slots, s.used = true →
        s = freshSlot srcAddr srcPort origDstAddr origDstPort nowMs ∨
          s ∈ n.slots ∧ s.e.srcPort ≠ srcPort) := by
  rcases pmxNatAdd_cases n srcAddr srcPort origDstAddr origDstPort nowMs with
    ⟨hne, heq⟩ | ⟨-, -, i, s, count, -, heq, hslot⟩
  · rw [heq]
    exact ⟨h, fun hok => absurd hok hne⟩
  · have hplace : n.findSlot srcPort = some i ∨ n.findSlot srcPort = none := hslot.imp_right And.left
    rw [heq]
    constructor
    · apply SlotTable.KeysDistinct.set h
      intro j b k hji hj hk
      obtain ⟨-, rfl⟩ := slotPort_eq_some.1 hk
      exact h.free_of_place hplace hji hj
    · intro _ t ht hused
      rcases SlotTable.mem_set_cases ht with rfl | ⟨j, hji, hj⟩
      · exact Or.inl rfl
      · refine Or.inr ⟨List.mem_of_getElem? hj, fun hport => ?_⟩
        exact h.free_of_place hplace hji hj (slotPort_eq_some.2 ⟨hused, hport⟩)

/-- A lookup keeps one slot for each port, and every slot up to its idle timer. -/
theorem portsDistinct_pmxNatFind {n : NatTable} (h : n.PortsDistinct) (srcPort : PmxPort)
    (nowMs : ℕ) :
    (pmxNatFind n srcPort nowMs).1.PortsDistinct ∧
    ∀ s ∈ (pmxNatFind n srcPort nowMs).1.slots,
      ∃ s₀ ∈ n.slots, s₀.used = s.used ∧ s₀.closed = s.closed ∧ s₀.e = s.e := by
  rcases pmxNatFind_cases n srcPort nowMs with heq | ⟨i, s₀, hi, -, heq⟩
  · rw [heq]
    exact ⟨h, fun s hs => ⟨s, hs, rfl, rfl, rfl⟩⟩
  · rw [heq]
    refine ⟨SlotTable.KeysDistinct.set_same h hi (Or.inr rfl), ?_⟩
    intro s hs
    rcases SlotTable.mem_set_cases hs with rfl | ⟨j, -, hj⟩
    · exact ⟨s₀, List.mem_of_getElem? hi, rfl, rfl, rfl⟩
    · exact ⟨s, List.mem_of_getElem? hj, rfl, rfl, rfl⟩

/-- Marking a port closed keeps one slot for each port, and closes the port's slot and no other. -/
theorem portsDistinct_pmxNatMarkClosed {n : NatTable} (h : n.PortsDistinct) (srcPort : PmxPort)
    (hp : n.lookup srcPort ≠ none → srcPort ≠ 0) :
    (pmxNatMarkClosed n srcPort).PortsDistinct ∧
    (∀ s ∈ (pmxNatMarkClosed n srcPort).slots, s.used = true →
      s ∈ n.slots ∧ s.e.srcPort ≠ srcPort ∨
        ∃ s₀, n.lookup srcPort = some s₀ ∧ s = { s₀ with closed := true }) ∧
    (∀ s₀, n.lookup srcPort = some s₀ →
      { s₀ with closed := true } ∈ (pmxNatMarkClosed n srcPort).slots) := by
  cases hl : n.lookup srcPort with
  | none =>
    have heq : pmxNatMarkClosed n srcPort = n := by
      rw [pmxNatMarkClosed, findSlot_eq_none.2 hl]
      split_ifs <;> rfl
    rw [heq]
    refine ⟨h, ?_, fun s₀ hs₀ => by cases hs₀⟩
    intro s hs hused
    refine Or.inl ⟨hs, fun hport => ?_⟩
    exact List.find?_eq_none.1 hl s hs ((holds_iff srcPort s).2 ⟨hused, hport⟩)
  | some s₀ =>
    obtain ⟨i, hf, hi⟩ := findSlot_of_lookup hl
    have heq : pmxNatMarkClosed n srcPort = n.setSlot i { s₀ with closed := true } := by
      rw [pmxNatMarkClosed, if_neg (hp (by rw [hl]; exact Option.some_ne_none s₀)), hf]
      simp only [hi]
    rw [heq]
    refine ⟨SlotTable.KeysDistinct.set_same h hi (Or.inr rfl), ?_, ?_⟩
    · intro s hs hused
      rcases SlotTable.mem_set_cases hs with rfl | ⟨j, hji, hj⟩
      · exact Or.inr ⟨s₀, rfl, rfl⟩
      · refine Or.inl ⟨List.mem_of_getElem? hj, fun hport => ?_⟩
        exact h.free_of_place (Or.inl hf) hji hj (slotPort_eq_some.2 ⟨hused, hport⟩)
    · intro s₁ hs₁
      obtain rfl := Option.some.inj hs₁
      exact List.mem_set (List.getElem?_eq_some_iff.1 hi).1 _

end ProxiMight
