import ProxiMight.NatInvariants

/-!
# Expired entries and the mappings that still match

A closed flow keeps its mapping until the slot is needed, since late packets of the application would
otherwise leave directly.  `pmx_nat_add` takes the oldest of the expired and the closed slots by
`created_ms`, while expiry goes by the last use, so a closed mapping that still matches can go before an
expired entry does; whether it does depends on when expired entries are swept.

`Sim` relates two tables that answer alike: they have the same entries but for those that are expired.

* **`dropsLast_iff`** — exactly when an add drops a matching mapping too early.
* **`natSweep_invisible`** — in runs whose adds find the oldest reclaimable entry expired, extra sweeps
  are not seen.
-/

namespace ProxiMight

open NatTable

/-- What the caller of `pmx_nat_add` or `pmx_nat_find` gets back. -/
inductive NatResult
  | added (status : PmxStatus)
  | found (e : Option NatEntry)
  deriving DecidableEq, Repr

def natResult (n : NatTable) : ℕ × NatOp → List NatResult
  | (now, .add srcAddr srcPort origDstAddr origDstPort) =>
    [.added (pmxNatAdd n srcAddr srcPort origDstAddr origDstPort now).2]
  | (now, .find srcPort) => [.found (pmxNatFind n srcPort now).2]
  | _ => []

/-- The results of a run, in order. -/
def natResults : NatTable → List (ℕ × NatOp) → List NatResult
  | _, [] => []
  | n, c :: run => natResult n c ++ natResults (natStep n c) run

/-- The second run is the first with extra calls of `pmx_nat_expire`. -/
inductive WithExpires : List (ℕ × NatOp) → List (ℕ × NatOp) → Prop
  | nil : WithExpires [] []
  | keep (c : ℕ × NatOp) {run run' : List (ℕ × NatOp)} (h : WithExpires run run') :
      WithExpires (c :: run) (c :: run')
  | sweep (now : ℕ) {run run' : List (ℕ × NatOp)} (h : WithExpires run run') :
      WithExpires run ((now, .expire) :: run')

/-- An add drops a closed mapping of another port that is not expired only when no slot is free and no
entry is expired. -/
def DropsLast (n : NatTable) : ℕ × NatOp → Prop
  | (now, .add srcAddr srcPort origDstAddr origDstPort) =>
    ∀ s ∈ n.slots, s.used = true → s.closed = true → n.expired s now = false →
      s.e.srcPort ≠ srcPort →
      s ∉ (pmxNatAdd n srcAddr srcPort origDstAddr origDstPort now).1.slots →
      ∀ t ∈ n.slots, t.used = true ∧ n.expired t now = false
  | _ => True

instance instDecidableDropsLast (n : NatTable) : ∀ c : ℕ × NatOp, Decidable (DropsLast n c)
  | (now, .add srcAddr srcPort origDstAddr origDstPort) =>
    inferInstanceAs (Decidable (∀ s ∈ n.slots, s.used = true → s.closed = true →
      n.expired s now = false → s.e.srcPort ≠ srcPort →
      s ∉ (pmxNatAdd n srcAddr srcPort origDstAddr origDstPort now).1.slots →
      ∀ t ∈ n.slots, t.used = true ∧ n.expired t now = false))
  | (_, .find _) => isTrue trivial
  | (_, .markClosed _) => isTrue trivial
  | (_, .remove _) => isTrue trivial
  | (_, .expire) => isTrue trivial

/-- If some entry is expired, one was created before every closed entry that is not, or at the same
time and stands in front of it. -/
def ExpiredOldest (n : NatTable) (nowMs : ℕ) : Prop :=
  (∃ s ∈ n.slots, n.expired s nowMs = true) →
    ∀ (j : ℕ) (c : NatSlot), n.slots[j]? = some c → c.closed = true → n.expired c nowMs = false →
      ∃ (i : ℕ) (e : NatSlot), n.slots[i]? = some e ∧ n.expired e nowMs = true ∧
        (e.e.createdMs < c.e.createdMs ∨ (e.e.createdMs = c.e.createdMs ∧ i ≤ j))

/-- If no entry is expired, no two closed ones are the oldest. -/
def OneOldestClosed (n : NatTable) (nowMs : ℕ) : Prop :=
  (∀ s ∈ n.slots, n.expired s nowMs = false) →
    ∀ a ∈ n.slots, ∀ b ∈ n.slots, a.closed = true → b.closed = true →
      (∀ c ∈ n.slots, c.closed = true → a.e.createdMs ≤ c.e.createdMs) →
      b.e.createdMs = a.e.createdMs → b = a

/-- The table is full and the port of the add has no slot in it. -/
def NeedsSlot (n : NatTable) (srcPort : PmxPort) : Prop :=
  srcPort ≠ 0 ∧ n.lookup srcPort = none ∧ ∀ s ∈ n.slots, s.used = true

/-- An add that has to make room finds an expired entry the oldest, if there is one. -/
def SweepsFirst (n : NatTable) : ℕ × NatOp → Prop
  | (now, .add _ srcPort _ _) => NeedsSlot n srcPort → ExpiredOldest n now
  | _ => True

/-- An add that has to make room has only one entry to choose. -/
def ChoosesOne (n : NatTable) : ℕ × NatOp → Prop
  | (now, .add _ srcPort _ _) => NeedsSlot n srcPort → ExpiredOldest n now ∧ OneOldestClosed n now
  | _ => True

/-! ## What an add drops -/

/-- What an overwrite takes out of the table is the slot that was overwritten. -/
theorem eq_of_notMem_set {l : List NatSlot} {i : ℕ} {old v s : NatSlot} (hi : l[i]? = some old)
    (hs : s ∈ l) (hno : s ∉ l.set i v) : s = old := by
  obtain ⟨j, hj⟩ := List.mem_iff_getElem?.1 hs
  by_cases hji : i = j
  · rw [← hji, hi] at hj
    exact (Option.some.inj hj).symm
  · rw [← List.getElem?_set_ne hji] at hj
    exact absurd (List.mem_of_getElem? hj) hno

theorem notMem_set_of_distinct {n : NatTable} (h : n.PortsDistinct) {i : ℕ} {old v : NatSlot}
    (hi : n.slots[i]? = some old) (hused : old.used = true) (hv : v.e.srcPort ≠ old.e.srcPort) :
    old ∉ n.slots.set i v := by
  intro hmem
  rcases SlotTable.mem_set_cases hmem with rfl | ⟨j, hji, hj⟩
  · exact hv rfl
  · have hport := slotPort_eq_some.2 ⟨hused, rfl⟩
    exact hji (h j i old old _ hj hi hport hport)

theorem lookup_eq_none {n : NatTable} {srcPort : PmxPort} (h : n.lookup srcPort = none) {s : NatSlot}
    (hs : s ∈ n.slots) (hused : s.used = true) : s.e.srcPort ≠ srcPort := fun hport =>
  List.find?_eq_none.1 h s hs ((holds_iff srcPort s).2 ⟨hused, hport⟩)

/-- An entry to be given away that is not expired is closed. -/
theorem NatTable.OldestDead.closed_of_not_expired {n : NatTable} {nowMs : ℕ} {i : ℕ} {old : NatSlot}
    (hold : n.OldestDead nowMs n.slots i old) (hno : n.expired old nowMs = false) :
    old.closed = true := by
  by_contra hopen
  rw [Bool.not_eq_true] at hopen
  exact hold.2.1 ⟨hopen, hno⟩

/-- The oldest of the expired and the closed entries is expired exactly if there is an expired one that is
older than any closed one. -/
theorem expiredOldest_iff {n : NatTable} {nowMs : ℕ} {i : ℕ} {old : NatSlot}
    (hold : n.OldestDead nowMs n.slots i old) :
    ExpiredOldest n nowMs ↔
      ((∃ s ∈ n.slots, n.expired s nowMs = true) → n.expired old nowMs = true) := by
  constructor
  · intro h hex
    by_contra hno
    rw [Bool.not_eq_true] at hno
    obtain ⟨k, e, hk, he, hlex⟩ := h hex i old hold.1 (hold.closed_of_not_expired hno) hno
    have hmin := hold.2.2 k e hk fun hlive => by
      rw [hlive.2] at he
      cases he
    -- the two orders meet in one slot, which is both expired and not
    obtain rfl : k = i := by omega
    rw [Option.some.inj (hk.symm.trans hold.1), hno] at he
    cases he
  · intro h hex j c hj hclosed hc
    refine ⟨i, old, hold.1, h hex, ?_⟩
    exact hold.2.2 j c hj fun hlive => by
      rw [hlive.1] at hclosed
      cases hclosed

/-- **An add drops a matching mapping too early** exactly if it has to make room and an expired entry is
there but is not the oldest. -/
theorem dropsLast_iff {n : NatTable} (h : NatOk n) (c : ℕ × NatOp) : DropsLast n c ↔ SweepsFirst n c := by
  obtain ⟨now, op⟩ := c
  cases op with
  | find | markClosed | remove | expire => exact Iff.rfl
  | add srcAddr srcPort origDstAddr origDstPort =>
    by_cases hp : srcPort = 0
    · refine iff_of_true (fun s hs _ _ _ _ hno => ?_) fun hneed => absurd hp hneed.1
      rw [pmxNatAdd, if_pos hp] at hno
      exact absurd hs hno
    rcases pmxNatAdd_exact n srcAddr origDstAddr origDstPort now hp with
      ⟨heq, hnone, hfull⟩ | ⟨i, old, hi, heq, hold⟩
    · -- the add fails: every entry is live
      refine iff_of_true (fun s hs _ _ _ _ hno => ?_) fun _ _ j c hj hclosed _ => ?_
      · rw [heq] at hno
        exact absurd hs hno
      · rw [(hfull c (List.mem_of_getElem? hj)).2.1] at hclosed
        cases hclosed
    have hdrop : DropsLast n (now, .add srcAddr srcPort origDstAddr origDstPort) ↔
        ∀ s ∈ n.slots, s.used = true → s.closed = true → n.expired s now = false →
          s.e.srcPort ≠ srcPort →
          s ∉ n.slots.set i (freshSlot srcAddr srcPort origDstAddr origDstPort now) →
          ∀ t ∈ n.slots, t.used = true ∧ n.expired t now = false := by
      rw [DropsLast, heq]
      rfl
    rw [hdrop]
    rcases hold with hl | ⟨hnone, hfree | ⟨hused, hdead⟩⟩
    · -- the port's own slot is used again
      refine iff_of_true (fun s hs _ _ _ hport hno => ?_) fun hneed => ?_
      · exact absurd ((eq_of_notMem_set hi hs hno) ▸ (lookup_holds hl).2) hport
      · rw [hneed.2.1] at hl
        cases hl
    · -- a free slot is taken
      refine iff_of_true (fun s hs hused _ _ _ hno => ?_) fun hneed => ?_
      · rw [eq_of_notMem_set hi hs hno, hfree] at hused
        cases hused
      · rw [hneed.2.2 old (List.mem_of_getElem? hi)] at hfree
        cases hfree
    · have hport := lookup_eq_none hnone (List.mem_of_getElem? hi) (hused old (List.mem_of_getElem? hi))
      show _ ↔ (NeedsSlot n srcPort → ExpiredOldest n now)
      rw [imp_iff_right ⟨hp, hnone, hused⟩, expiredOldest_iff hdead]
      constructor
      · rintro hlast ⟨t, ht, hexp⟩
        by_contra hno
        rw [Bool.not_eq_true] at hno
        have hclosed := hdead.closed_of_not_expired hno
        have hgone := hlast old (List.mem_of_getElem? hi) (hused old (List.mem_of_getElem? hi)) hclosed
          hno hport (notMem_set_of_distinct h.distinct hi (hused old (List.mem_of_getElem? hi))
            (Ne.symm hport)) t ht
        rw [hgone.2] at hexp
        cases hexp
      · intro hexp s hs _ _ hs' _ hno t ht
        refine ⟨hused t ht, ?_⟩
        by_contra hex
        rw [Bool.not_eq_false] at hex
        rw [eq_of_notMem_set hi hs hno, hexp ⟨t, ht, hex⟩] at hs'
        cases hs'

/-! ## The entries that match -/

namespace NatTable

/-- A lookup of the slot's port would find it. -/
def matchesAt (n : NatTable) (nowMs : ℕ) (s : NatSlot) : Bool := s.used && !n.expired s nowMs

/-- The entries a lookup can find. -/
def matching (n : NatTable) (nowMs : ℕ) : List NatSlot := n.slots.filter (n.matchesAt nowMs)

/-- The entry a lookup of the port finds. -/
def own (n : NatTable) (nowMs : ℕ) (srcPort : PmxPort) : Option NatSlot :=
  (n.lookup srcPort).filter fun s => !n.expired s nowMs

theorem matchesAt_iff {n : NatTable} {nowMs : ℕ} {s : NatSlot} :
    n.matchesAt nowMs s = true ↔ s.used = true ∧ n.expired s nowMs = false := by
  rw [matchesAt, Bool.and_eq_true, Bool.not_eq_true']

theorem own_eq_some {n : NatTable} {nowMs : ℕ} {srcPort : PmxPort} {s : NatSlot} :
    n.own nowMs srcPort = some s ↔ n.lookup srcPort = some s ∧ n.expired s nowMs = false := by
  rw [own, Option.filter_eq_some_iff, Bool.not_eq_true']

theorem own_eq_none {n : NatTable} {nowMs : ℕ} {srcPort : PmxPort} (h : n.findSlot srcPort = none) :
    n.own nowMs srcPort = none := by
  rw [own, findSlot_eq_none.1 h, Option.filter_none]

theorem own_eq_some_iff_mem {n : NatTable} (h : n.PortsDistinct) {nowMs : ℕ} {srcPort : PmxPort}
    {s : NatSlot} :
    n.own nowMs srcPort = some s ↔ s ∈ n.matching nowMs ∧ s.e.srcPort = srcPort := by
  rw [own_eq_some, matching, List.mem_filter, matchesAt_iff]
  constructor
  · rintro ⟨hl, hexp⟩
    exact ⟨⟨List.mem_of_find?_eq_some hl, (lookup_holds hl).1, hexp⟩, (lookup_holds hl).2⟩
  · rintro ⟨⟨hmem, hused, hexp⟩, hport⟩
    refine ⟨?_, hexp⟩
    cases hl : n.lookup srcPort with
    | none => exact absurd hport (lookup_eq_none hl hmem hused)
    | some s' =>
      obtain ⟨i, hi⟩ := List.mem_iff_getElem?.1 hmem
      obtain ⟨j, -, hj⟩ := findSlot_of_lookup hl
      have hij := h i j s s' srcPort hi hj (slotPort_eq_some.2 ⟨hused, hport⟩)
        (slotPort_eq_some.2 (lookup_holds hl))
      rw [← hij, hi] at hj
      rw [Option.some.inj hj]

/-- An overwrite takes the old entry out of the matching ones and puts the new one in. -/
theorem matching_setSlot {n : NatTable} {i : ℕ} {old : NatSlot} (hi : n.slots[i]? = some old)
    (v : NatSlot) (nowMs : ℕ) :
    ([old].filter (n.matchesAt nowMs) ++ (n.setSlot i v).matching nowMs).Perm
      ([v].filter (n.matchesAt nowMs) ++ n.matching nowMs) := by
  have hperm := (SlotTable.cons_set_perm hi v).filter (n.matchesAt nowMs)
  show ([old].filter (n.matchesAt nowMs) ++ (n.slots.set i v).filter (n.matchesAt nowMs)).Perm
    ([v].filter (n.matchesAt nowMs) ++ n.slots.filter (n.matchesAt nowMs))
  rw [← List.filter_append, ← List.filter_append]
  exact hperm

theorem own_toList {n : NatTable} {nowMs : ℕ} {srcPort : PmxPort} {s : NatSlot}
    (hl : n.lookup srcPort = some s) : (n.own nowMs srcPort).toList = [s].filter (n.matchesAt nowMs) := by
  rw [own, hl]
  cases hexp : n.expired s nowMs with
  | true => simp [matchesAt, hexp]
  | false => simp [matchesAt, hexp, (lookup_holds hl).1]

/-- Rewriting the port's own entry, as long as that does not make an expired one match. -/
theorem matching_setOwn {n : NatTable} (nowMs : ℕ) {srcPort : PmxPort} {s : NatSlot} {i : ℕ}
    (hl : n.lookup srcPort = some s) (hi : n.slots[i]? = some s) (f : NatSlot → NatSlot)
    (hf : n.matchesAt nowMs (f s) = n.matchesAt nowMs s) :
    ((n.own nowMs srcPort).toList ++ (n.setSlot i (f s)).matching nowMs).Perm
      (((n.own nowMs srcPort).map f).toList ++ n.matching nowMs) := by
  have hmap : ((n.own nowMs srcPort).map f).toList = [f s].filter (n.matchesAt nowMs) := by
    rw [Option.toList_map, own_toList hl, List.filter_singleton, List.filter_singleton, hf]
    cases n.matchesAt nowMs s <;> rfl
  rw [own_toList hl, hmap]
  exact matching_setSlot hi (f s) nowMs

end NatTable

/-- The entry after a lookup: the idle timer of a closed one is left alone. -/
def touch (nowMs : ℕ) (s : NatSlot) : NatSlot := if s.closed then s else { s with lastSeenMs := nowMs }

theorem matching_pmxNatFind (n : NatTable) {srcPort : PmxPort} (hp : srcPort ≠ 0) (nowMs : ℕ) :
    ((n.own nowMs srcPort).toList ++ (pmxNatFind n srcPort nowMs).1.matching nowMs).Perm
      (((n.own nowMs srcPort).map (touch nowMs)).toList ++ n.matching nowMs) := by
  rw [pmxNatFind, if_neg hp]
  cases hf : n.findSlot srcPort with
  | none =>
    rw [own_eq_none hf]
    exact List.Perm.refl _
  | some i =>
    obtain ⟨s, hs, hl⟩ := findSlot_eq_some hf
    simp only [hs]
    by_cases hexp : n.expired s nowMs = true
    · have hown : n.own nowMs srcPort = none := by
        rw [own, hl, Option.filter_some, hexp]
        rfl
      rw [if_pos hexp, hown]
      exact List.Perm.refl _
    rw [if_neg hexp]
    rw [Bool.not_eq_true] at hexp
    have hown : n.own nowMs srcPort = some s := own_eq_some.2 ⟨hl, hexp⟩
    by_cases hclosed : s.closed = true
    · have htouch : touch nowMs s = s := by rw [touch, if_pos hclosed]
      rw [if_pos hclosed, hown, Option.map_some, htouch]
    · have htouch : touch nowMs s = { s with lastSeenMs := nowMs } := by rw [touch, if_neg hclosed]
      have hset := matching_setOwn nowMs hl hs (touch nowMs) (by
        rw [Bool.eq_iff_iff, matchesAt_iff, matchesAt_iff, htouch, expired_eq_false]
        exact iff_of_true ⟨(lookup_holds hl).1, Nat.le_add_right _ _⟩ ⟨(lookup_holds hl).1, hexp⟩)
      rw [htouch] at hset
      rw [if_neg hclosed]
      exact hset

theorem matching_pmxNatMarkClosed (n : NatTable) {srcPort : PmxPort} (hp : srcPort ≠ 0) (nowMs : ℕ) :
    ((n.own nowMs srcPort).toList ++ (pmxNatMarkClosed n srcPort).matching nowMs).Perm
      (((n.own nowMs srcPort).map fun s => { s with closed := true }).toList ++ n.matching nowMs) := by
  rw [pmxNatMarkClosed, if_neg hp]
  cases hf : n.findSlot srcPort with
  | none =>
    rw [own_eq_none hf]
    exact List.Perm.refl _
  | some i =>
    obtain ⟨s, hs, hl⟩ := findSlot_eq_some hf
    simp only [hs]
    exact matching_setOwn _ hl hs (fun s => { s with closed := true }) rfl

theorem matching_pmxNatRemove (n : NatTable) (srcPort : PmxPort) (nowMs : ℕ) :
    ((n.own nowMs srcPort).toList ++ (pmxNatRemove n srcPort).matching nowMs).Perm
      (n.matching nowMs) := by
  rw [pmxNatRemove]
  cases hf : n.findSlot srcPort with
  | none =>
    rw [own_eq_none hf]
    exact List.Perm.refl _
  | some i =>
    obtain ⟨s, hs, hl⟩ := findSlot_eq_some hf
    rw [own_toList hl]
    exact matching_setSlot hs emptySlot nowMs

/-- A sweep takes away nothing that matches. -/
theorem matching_pmxNatExpire (n : NatTable) (nowMs : ℕ) :
    (pmxNatExpire n nowMs).1.matching nowMs = n.matching nowMs := by
  show (n.slots.map (n.sweepSlot nowMs)).filter (n.matchesAt nowMs) = n.slots.filter (n.matchesAt nowMs)
  induction n.slots with
  | nil => rfl
  | cons s l ih =>
    rw [List.map_cons, List.filter_cons, List.filter_cons, ih]
    cases hused : s.used <;> cases hexp : n.expired s nowMs <;>
      simp [sweepSlot, matchesAt, hused, hexp, emptySlot]

/-- The new entry matches. -/
theorem matchesAt_freshSlot (n : NatTable) (srcAddr : UInt32) (srcPort : PmxPort) (origDstAddr : UInt32)
    (origDstPort : PmxPort) (nowMs : ℕ) :
    n.matchesAt nowMs (freshSlot srcAddr srcPort origDstAddr origDstPort nowMs) = true := by
  rw [matchesAt_iff, expired_eq_false]
  exact ⟨rfl, Nat.le_add_right _ _⟩

section Add

variable {n : NatTable} (srcAddr : UInt32) {srcPort : PmxPort} (origDstAddr : UInt32)
  (origDstPort : PmxPort) {nowMs : ℕ}

/-- An add of a port that is matched replaces its entry. -/
theorem matching_pmxNatAdd_own (hp : srcPort ≠ 0) {s : NatSlot} (hown : n.own nowMs srcPort = some s) :
    (pmxNatAdd n srcAddr srcPort origDstAddr origDstPort nowMs).2 = .ok ∧
      ([s] ++ (pmxNatAdd n srcAddr srcPort origDstAddr origDstPort nowMs).1.matching nowMs).Perm
        ([freshSlot srcAddr srcPort origDstAddr origDstPort nowMs] ++ n.matching nowMs) := by
  obtain ⟨hl, hexp⟩ := own_eq_some.1 hown
  obtain ⟨i, hf, hi⟩ := findSlot_of_lookup hl
  rw [pmxNatAdd, if_neg hp, hf]
  refine ⟨rfl, ?_⟩
  have hset := matching_setSlot hi (freshSlot srcAddr srcPort origDstAddr origDstPort nowMs) nowMs
  rw [List.filter_singleton, List.filter_singleton, matchesAt_freshSlot,
    matchesAt_iff.2 ⟨(lookup_holds hl).1, hexp⟩] at hset
  exact hset

theorem matches_of_length (h : (n.matching nowMs).length = n.slots.length) :
    ∀ s ∈ n.slots, n.matchesAt nowMs s = true :=
  List.length_filter_eq_length_iff.1 h

/-- With room, or an expired entry in the way, an add drops no entry that matches, if it takes the expired
entry. -/
theorem matching_pmxNatAdd_room (hp : srcPort ≠ 0) (hown : n.own nowMs srcPort = none)
    (hroom : (n.matching nowMs).length < n.slots.length)
    (hfirst : NeedsSlot n srcPort → ExpiredOldest n nowMs) :
    (pmxNatAdd n srcAddr srcPort origDstAddr origDstPort nowMs).2 = .ok ∧
      ((pmxNatAdd n srcAddr srcPort origDstAddr origDstPort nowMs).1.matching nowMs).Perm
        ([freshSlot srcAddr srcPort origDstAddr origDstPort nowMs] ++ n.matching nowMs) := by
  have hmiss : ¬ ∀ s ∈ n.slots, n.matchesAt nowMs s = true := fun hall => by
    rw [matching, List.filter_eq_self.2 hall] at hroom
    exact Nat.lt_irrefl _ hroom
  rcases pmxNatAdd_exact n srcAddr origDstAddr origDstPort nowMs hp with
    ⟨-, -, hfull⟩ | ⟨i, old, hi, heq, hold⟩
  · exact absurd (fun s hs => matchesAt_iff.2 ⟨(hfull s hs).1, (hfull s hs).2.2⟩) hmiss
  · have hno : n.matchesAt nowMs old = false := by
      rw [Bool.eq_false_iff, ne_eq, matchesAt_iff]
      rintro ⟨hused, hexp⟩
      rcases hold with hl | ⟨hnone, hfree | ⟨hall, hdead⟩⟩
      · rw [own_eq_some.2 ⟨hl, hexp⟩] at hown
        cases hown
      · rw [hused] at hfree
        cases hfree
      · refine hmiss fun s hs => matchesAt_iff.2 ⟨hall s hs, ?_⟩
        by_contra hs'
        rw [Bool.not_eq_false] at hs'
        rw [(expiredOldest_iff hdead).1 (hfirst ⟨hp, hnone, hall⟩) ⟨s, hs, hs'⟩] at hexp
        cases hexp
    rw [heq]
    refine ⟨rfl, ?_⟩
    have hset := matching_setSlot hi (freshSlot srcAddr srcPort origDstAddr origDstPort nowMs) nowMs
    rw [List.filter_singleton, List.filter_singleton, matchesAt_freshSlot, hno] at hset
    exact hset

/-- In a table full of entries that match, an add fails if none of them is closed, and otherwise takes the
oldest that is. -/
theorem matching_pmxNatAdd_full (hp : srcPort ≠ 0) (hown : n.own nowMs srcPort = none)
    (hfull : (n.matching nowMs).length = n.slots.length) :
    NeedsSlot n srcPort ∧
    (((∀ s ∈ n.slots, s.closed = false) ∧
        pmxNatAdd n srcAddr srcPort origDstAddr origDstPort nowMs = (n, .errState)) ∨
      ∃ v ∈ n.slots, v.closed = true ∧
        (∀ s ∈ n.slots, s.closed = true → v.e.createdMs ≤ s.e.createdMs) ∧
        (pmxNatAdd n srcAddr srcPort origDstAddr origDstPort nowMs).2 = .ok ∧
        ([v] ++ (pmxNatAdd n srcAddr srcPort origDstAddr origDstPort nowMs).1.matching nowMs).Perm
          ([freshSlot srcAddr srcPort origDstAddr origDstPort nowMs] ++ n.matching nowMs)) := by
  have hall := matches_of_length hfull
  have hused : ∀ s ∈ n.slots, s.used = true := fun s hs => (matchesAt_iff.1 (hall s hs)).1
  have hnone : n.lookup srcPort = none := by
    cases hl : n.lookup srcPort with
    | none => rfl
    | some s =>
      have hexp := (matchesAt_iff.1 (hall s (List.mem_of_find?_eq_some hl))).2
      rw [own_eq_some.2 ⟨hl, hexp⟩] at hown
      cases hown
  refine ⟨⟨hp, hnone, hused⟩, ?_⟩
  rcases pmxNatAdd_exact n srcAddr origDstAddr origDstPort nowMs hp with
    ⟨heq, -, hlive⟩ | ⟨i, old, hi, heq, hold⟩
  · exact .inl ⟨fun s hs => (hlive s hs).2.1, heq⟩
  · have hmem := List.mem_of_getElem? hi
    rcases hold with hl | ⟨-, hfree | ⟨-, hdead⟩⟩
    · rw [hnone] at hl
      cases hl
    · rw [hused old hmem] at hfree
      cases hfree
    · refine .inr ⟨old, hmem, ?_, ?_, by rw [heq], ?_⟩
      · by_contra hopen
        rw [Bool.not_eq_true] at hopen
        exact hdead.2.1 ⟨hopen, (matchesAt_iff.1 (hall old hmem)).2⟩
      · intro s hs hclosed
        obtain ⟨j, hj⟩ := List.mem_iff_getElem?.1 hs
        have hmin := hdead.2.2 j s hj fun hlive => by
          rw [hlive.1] at hclosed
          cases hclosed
        omega
      · rw [heq]
        have hset := matching_setSlot hi (freshSlot srcAddr srcPort origDstAddr origDstPort nowMs) nowMs
        rw [List.filter_singleton, List.filter_singleton, matchesAt_freshSlot, hall old hmem] at hset
        exact hset

end Add

/-! ## Two tables that answer alike -/

/-- The tables have the same entries but for expired ones. -/
structure Sim (nowMs : ℕ) (n n' : NatTable) : Prop where
  ok : NatOk n
  ok' : NatOk n'
  ttlMs : n.ttlMs = n'.ttlMs
  capacity : n.slots.length = n'.slots.length
  perm : (n.matching nowMs).Perm (n'.matching nowMs)

theorem Sim.own_eq {nowMs : ℕ} {n n' : NatTable} (h : Sim nowMs n n') (srcPort : PmxPort) :
    n.own nowMs srcPort = n'.own nowMs srcPort := by
  ext s
  rw [own_eq_some_iff_mem h.ok.distinct, own_eq_some_iff_mem h.ok'.distinct, h.perm.mem_iff]

/-- What has expired stays expired. -/
theorem Sim.later {nowMs t : ℕ} {n n' : NatTable} (h : Sim nowMs n n') (ht : nowMs ≤ t) : Sim t n n' := by
  refine { h with perm := ?_ }
  have hstep : ∀ m : NatTable,
      m.matching t = (m.matching nowMs).filter fun s => !m.expired s t := by
    intro m
    rw [matching, matching, List.filter_filter]
    refine List.filter_congr fun s _ => ?_
    rw [Bool.eq_iff_iff, matchesAt_iff, Bool.and_eq_true, matchesAt_iff, Bool.not_eq_true',
      expired_eq_false, expired_eq_false]
    constructor
    · rintro ⟨hused, hle⟩
      exact ⟨hle, hused, by omega⟩
    · rintro ⟨hle, hused, -⟩
      exact ⟨hused, hle⟩
  have hexp : (fun s => !n.expired s t) = fun s => !n'.expired s t := by
    funext s
    rw [expired, expired, h.ttlMs]
  rw [hstep n, hstep n', hexp]
  exact h.perm.filter _

/-- Both tables lose and gain the same entries. -/
theorem Sim.of_perm {n n' : NatTable} {now : ℕ} (h : Sim now n n') (op : NatOp)
    (lost gained : List NatSlot)
    (hn : (lost ++ (natStep n (now, op)).matching now).Perm (gained ++ n.matching now))
    (hn' : (lost ++ (natStep n' (now, op)).matching now).Perm (gained ++ n'.matching now)) :
    Sim now (natStep n (now, op)) (natStep n' (now, op)) where
  ok := natOk_natStep h.ok _
  ok' := natOk_natStep h.ok' _
  ttlMs := by rw [natStep_ttlMs, natStep_ttlMs, h.ttlMs]
  capacity := by rw [natStep_slots_length, natStep_slots_length, h.capacity]
  perm := by
    have hall := hn.trans ((h.perm.append_left gained).trans hn'.symm)
    exact (List.perm_append_left_iff lost).1 hall

theorem pmxNatFind_eq_own (n : NatTable) {srcPort : PmxPort} (hp : srcPort ≠ 0) (nowMs : ℕ) :
    (pmxNatFind n srcPort nowMs).2 = (n.own nowMs srcPort).map (·.e) := by
  ext e
  rw [pmxNatFind_eq_some_iff, Option.map_eq_some_iff]
  simp only [own_eq_some, hp, ne_eq, not_false_eq_true, true_and, and_assoc]

/-- An add that has only one entry to choose does the same to both tables. -/
theorem Sim.add {n n' : NatTable} {now : ℕ} (h : Sim now n n') (srcAddr : UInt32) (srcPort : PmxPort)
    (origDstAddr : UInt32) (origDstPort : PmxPort)
    (hc : NeedsSlot n srcPort → ExpiredOldest n now ∧ OneOldestClosed n now)
    (hc' : NeedsSlot n' srcPort → ExpiredOldest n' now) :
    (pmxNatAdd n srcAddr srcPort origDstAddr origDstPort now).2
        = (pmxNatAdd n' srcAddr srcPort origDstAddr origDstPort now).2 ∧
      Sim now (natStep n (now, .add srcAddr srcPort origDstAddr origDstPort))
        (natStep n' (now, .add srcAddr srcPort origDstAddr origDstPort)) := by
  by_cases hp : srcPort = 0
  · rw [natStep, natStep, pmxNatAdd, pmxNatAdd, if_pos hp, if_pos hp]
    exact ⟨rfl, h⟩
  cases hown : n.own now srcPort with
  | some s =>
    obtain ⟨hst, hperm⟩ := matching_pmxNatAdd_own srcAddr origDstAddr origDstPort hp hown
    rw [h.own_eq srcPort] at hown
    obtain ⟨hst', hperm'⟩ := matching_pmxNatAdd_own srcAddr origDstAddr origDstPort hp hown
    exact ⟨hst.trans hst'.symm, h.of_perm (.add srcAddr srcPort origDstAddr origDstPort) _ _ hperm hperm'⟩
  | none =>
    have hown' := hown
    rw [h.own_eq srcPort] at hown'
    have hlen : (n.matching now).length = (n'.matching now).length := h.perm.length_eq
    have hle : (n.matching now).length ≤ n.slots.length := List.length_filter_le _ _
    rcases Nat.lt_or_eq_of_le hle with hroom | hfull
    · obtain ⟨hst, hperm⟩ := matching_pmxNatAdd_room srcAddr origDstAddr origDstPort hp hown hroom
        fun hneed => (hc hneed).1
      obtain ⟨hst', hperm'⟩ := matching_pmxNatAdd_room srcAddr origDstAddr origDstPort hp hown'
        (by rw [← hlen, ← h.capacity]; exact hroom) hc'
      exact ⟨hst.trans hst'.symm, h.of_perm (.add srcAddr srcPort origDstAddr origDstPort) [] _ hperm
        hperm'⟩
    · have hfull' : (n'.matching now).length = n'.slots.length := by rw [← hlen, hfull, h.capacity]
      -- every slot matches, so the two tables hold the same entries
      have hmem : ∀ s, s ∈ n.slots ↔ s ∈ n'.slots := by
        intro s
        have hperm := h.perm
        rw [matching, matching, List.filter_eq_self.2 (matches_of_length hfull),
          List.filter_eq_self.2 (matches_of_length hfull')] at hperm
        exact hperm.mem_iff
      obtain ⟨hneed, hadd⟩ := matching_pmxNatAdd_full srcAddr origDstAddr origDstPort hp hown hfull
      obtain ⟨-, hadd'⟩ := matching_pmxNatAdd_full srcAddr origDstAddr origDstPort hp hown' hfull'
      rcases hadd with ⟨hopen, heq⟩ | ⟨v, hv, hclosed, hmin, hst, hperm⟩ <;>
        rcases hadd' with ⟨hopen', heq'⟩ | ⟨v', hv', hclosed', hmin', hst', hperm'⟩
      · rw [natStep, natStep, heq, heq']
        exact ⟨rfl, h⟩
      · rw [hopen v' ((hmem v').2 hv')] at hclosed'
        cases hclosed'
      · rw [hopen' v ((hmem v).1 hv)] at hclosed
        cases hclosed
      · obtain rfl : v' = v := by
          refine (hc hneed).2 (fun s hs => (matchesAt_iff.1 (matches_of_length hfull s hs)).2) v hv v'
            ((hmem v').2 hv') hclosed hclosed' hmin ?_
          exact Nat.le_antisymm (hmin' v ((hmem v).1 hv) hclosed) (hmin v' ((hmem v').2 hv') hclosed')
        exact ⟨hst.trans hst'.symm,
          h.of_perm (.add srcAddr srcPort origDstAddr origDstPort) _ _ hperm hperm'⟩

/-- **One operation answers alike** on two such tables, and leaves two such tables. -/
theorem Sim.step {n n' : NatTable} {c : ℕ × NatOp} (h : Sim c.1 n n') (hc : ChoosesOne n c)
    (hc' : ChoosesOne n' c) :
    natResult n c = natResult n' c ∧ Sim c.1 (natStep n c) (natStep n' c) := by
  obtain ⟨now, op⟩ := c
  cases op with
  | add srcAddr srcPort origDstAddr origDstPort =>
    obtain ⟨hst, hsim⟩ := h.add srcAddr srcPort origDstAddr origDstPort hc fun hneed => (hc' hneed).1
    refine ⟨?_, hsim⟩
    rw [natResult, natResult, hst]
  | find srcPort =>
    by_cases hp : srcPort = 0
    · have hsame : ∀ m : NatTable, pmxNatFind m srcPort now = (m, none) := fun m => by
        rw [pmxNatFind, if_pos hp]
      rw [natResult, natResult, natStep, natStep, hsame, hsame]
      exact ⟨rfl, h⟩
    · have hperm' := matching_pmxNatFind n' hp now
      rw [← h.own_eq] at hperm'
      refine ⟨?_, h.of_perm (.find srcPort) _ _ (matching_pmxNatFind n hp now) hperm'⟩
      rw [natResult, natResult, pmxNatFind_eq_own n hp, pmxNatFind_eq_own n' hp, h.own_eq]
  | markClosed srcPort =>
    refine ⟨rfl, ?_⟩
    by_cases hp : srcPort = 0
    · have hsame : ∀ m : NatTable, pmxNatMarkClosed m srcPort = m := fun m => by
        rw [pmxNatMarkClosed, if_pos hp]
      rw [natStep, natStep, hsame, hsame]
      exact h
    · have hperm' := matching_pmxNatMarkClosed n' hp now
      rw [← h.own_eq] at hperm'
      exact h.of_perm (.markClosed srcPort) _ _ (matching_pmxNatMarkClosed n hp now) hperm'
  | remove srcPort =>
    have hperm' := matching_pmxNatRemove n' srcPort now
    rw [← h.own_eq] at hperm'
    exact ⟨rfl, h.of_perm (.remove srcPort) _ [] (matching_pmxNatRemove n srcPort now) hperm'⟩
  | expire =>
    refine ⟨rfl, h.of_perm .expire [] [] ?_ ?_⟩
    · exact (matching_pmxNatExpire n now) ▸ List.Perm.refl _
    · exact (matching_pmxNatExpire n' now) ▸ List.Perm.refl _

/-- **A run and the same run with extra sweeps** answer alike from such tables. -/
theorem natResults_eq_of_sim {run run' : List (ℕ × NatOp)} (hrun : WithExpires run run') :
    ∀ (n n' : NatTable) (t : ℕ), Sim t n n' → (∀ c ∈ run', t ≤ c.1) →
      (run'.map Prod.fst).Pairwise (· ≤ ·) → Runs.EachStep natStep ChoosesOne n run →
      Runs.EachStep natStep ChoosesOne n' run' → natResults n run = natResults n' run' := by
  induction hrun with
  | nil => intro n n' t _ _ _ _ _; rfl
  | keep c _ ih =>
    intro n n' t h ht hmono hc hc'
    rw [List.map_cons, List.pairwise_cons] at hmono
    obtain ⟨hres, hsim⟩ := (h.later (ht c List.mem_cons_self)).step hc.1 hc'.1
    rw [natResults, natResults, hres,
      ih _ _ c.1 hsim (fun d hd => hmono.1 d.1 (List.mem_map_of_mem hd)) hmono.2 hc.2 hc'.2]
  | sweep now _ ih =>
    intro n n' t h ht hmono hc hc'
    rw [List.map_cons, List.pairwise_cons] at hmono
    have hlater := h.later (ht (now, .expire) List.mem_cons_self)
    have hsim : Sim now n (natStep n' (now, .expire)) :=
      { ok := hlater.ok
        ok' := natOk_natStep hlater.ok' _
        ttlMs := hlater.ttlMs
        capacity := by rw [natStep_slots_length, hlater.capacity]
        perm := by
          rw [show (natStep n' (now, .expire)).matching now = n'.matching now from
            matching_pmxNatExpire n' now]
          exact hlater.perm }
    exact ih n _ now hsim (fun d hd => hmono.1 d.1 (List.mem_map_of_mem hd)) hmono.2 hc hc'.2

/-- **When sweeps are not seen.**  In every run, an add drops a closed mapping that is not expired only
as the last resort exactly if every add that has to make room finds an expired entry the oldest, if there
is one; and if such adds have only one entry to choose, in a run and in the same run with extra sweeps,
the two runs give the same results. -/
theorem natSweep_invisible (capacity : ℕ) (ttlMs : ℤ) :
    (∀ run, Runs.EachStep natStep DropsLast (pmxNatCreate capacity ttlMs) run ↔
      Runs.EachStep natStep SweepsFirst (pmxNatCreate capacity ttlMs) run) ∧
    ∀ run run', WithExpires run run' → (run'.map Prod.fst).Pairwise (· ≤ ·) →
      Runs.EachStep natStep ChoosesOne (pmxNatCreate capacity ttlMs) run →
      Runs.EachStep natStep ChoosesOne (pmxNatCreate capacity ttlMs) run' →
      natResults (pmxNatCreate capacity ttlMs) run = natResults (pmxNatCreate capacity ttlMs) run' := by
  have hok := natOk_create capacity ttlMs
  constructor
  · intro run
    exact Runs.eachStep_congr NatOk (fun _ c h => natOk_natStep h c)
      (fun _ c h => dropsLast_iff h c) run _ hok
  · intro run run' hrun hmono hc hc'
    exact natResults_eq_of_sim hrun _ _ 0 ⟨hok, hok, rfl, rfl, List.Perm.refl _⟩
      (fun c _ => Nat.zero_le c.1) hmono hc hc'

/-- Port 1 is kept alive and then closed, port 2 expires; the add of port 3 takes the older port 1, unless
the table is swept before. -/
theorem natSweep_seen :
    WithExpires
      [(0, .add 1 1 9 443), (10, .add 1 2 9 443), (400, .find 1), (800, .find 1), (1000, .markClosed 1),
        (1100, .add 1 3 9 443), (1100, .find 1)]
      [(0, .add 1 1 9 443), (10, .add 1 2 9 443), (400, .find 1), (800, .find 1), (1000, .markClosed 1),
        (1100, .expire), (1100, .add 1 3 9 443), (1100, .find 1)] ∧
    natResults (pmxNatCreate 2 500)
        [(0, .add 1 1 9 443), (10, .add 1 2 9 443), (400, .find 1), (800, .find 1), (1000, .markClosed 1),
          (1100, .add 1 3 9 443), (1100, .find 1)] ≠
      natResults (pmxNatCreate 2 500)
        [(0, .add 1 1 9 443), (10, .add 1 2 9 443), (400, .find 1), (800, .find 1), (1000, .markClosed 1),
          (1100, .expire), (1100, .add 1 3 9 443), (1100, .find 1)] ∧
    ¬ Runs.EachStep natStep DropsLast (pmxNatCreate 2 500)
        [(0, .add 1 1 9 443), (10, .add 1 2 9 443), (400, .find 1), (800, .find 1), (1000, .markClosed 1),
          (1100, .add 1 3 9 443), (1100, .find 1)] := by
  refine ⟨?_, by decide, by decide⟩
  exact .keep _ (.keep _ (.keep _ (.keep _ (.keep _ (.sweep 1100 (.keep _ (.keep _ .nil)))))))

end ProxiMight
