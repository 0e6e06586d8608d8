import ProxiMight.NatLiveFlow

/-!
# What holds of the NAT table after any history

`NatOk` is the invariant: a port has one slot, and the counter kept beside the table counts its used
slots.  `chooseSlot_exact` says which slot an add takes for a new port: a free one, else the oldest of
those that are expired or closed, and none only if every slot is in use by a live flow.

* **`natOk_natStep`** — every operation keeps the invariant, at any time.
* **`natTable_reachable`** — the invariant, and exactly when an add fails, in every reachable state.
-/

namespace ProxiMight

open NatTable

/-! ## Which slot an add takes -/

namespace NatTable

/-- The slot `i` holds `s`, which is expired or closed, and of all those it is the oldest; of two that
were created at the same time, the one in front. -/
def OldestDead (n : NatTable) (nowMs : ℕ) (slots : List NatSlot) (i : ℕ) (s : NatSlot) : Prop :=
  slots[i]? = some s ∧ ¬ n.Live nowMs s ∧
    ∀ j s', slots[j]? = some s' → ¬ n.Live nowMs s' →
      s.e.createdMs < s'.e.createdMs ∨ (s.e.createdMs = s'.e.createdMs ∧ i ≤ j)

/-- What the loop remembers of the slots it has seen, all of them in use. -/
def ReclaimOf (n : NatTable) (nowMs : ℕ) (seen : List NatSlot) : Option (ℕ × ℕ) → Prop
  | none => ∀ s ∈ seen, n.Live nowMs s
  | some (i, created) => ∃ s, n.OldestDead nowMs seen i s ∧ s.e.createdMs = created

/-- What the choice of a slot comes to. -/
def SlotChoice.Exact (n : NatTable) (nowMs : ℕ) : SlotChoice → Prop
  | .free i => ∃ s, n.slots[i]? = some s ∧ s.used = false
  | .reclaim i => (∀ s ∈ n.slots, s.used = true) ∧ ∃ s, n.OldestDead nowMs n.slots i s
  | .full => ∀ s ∈ n.slots, s.used = true ∧ n.Live nowMs s

theorem live_iff (n : NatTable) (nowMs : ℕ) (s : NatSlot) :
    n.Live nowMs s ↔ (n.expired s nowMs || s.closed) = false := by
  rw [Bool.or_eq_false_iff, Live, and_comm]

theorem getElem?_concat_cases {l : List NatSlot} {a b : NatSlot} {j : ℕ}
    (h : (l ++ [a])[j]? = some b) : l[j]? = some b ∧ j < l.length ∨ j = l.length ∧ b = a := by
  rcases Nat.lt_or_ge j l.length with hj | hj
  · rw [List.getElem?_append_left hj] at h
    exact .inl ⟨h, hj⟩
  · rw [List.getElem?_append_right hj, List.getElem?_singleton] at h
    split_ifs at h with hzero
    exact .inr ⟨by omega, (Option.some.inj h).symm⟩

/-- The loop goes past a live slot, or one that is not older than the slot it remembers. -/
theorem OldestDead.concat {n : NatTable} {nowMs : ℕ} {seen : List NatSlot} {i : ℕ} {s s' : NatSlot}
    (h : n.OldestDead nowMs seen i s)
    (hs' : n.Live nowMs s' ∨ s.e.createdMs ≤ s'.e.createdMs) :
    n.OldestDead nowMs (seen ++ [s']) i s := by
  have hi := (List.getElem?_eq_some_iff.1 h.1).1
  refine ⟨by rw [List.getElem?_append_left hi, h.1], h.2.1, ?_⟩
  intro j t hj ht
  rcases getElem?_concat_cases hj with ⟨hj, -⟩ | ⟨rfl, rfl⟩
  · exact h.2.2 j t hj ht
  · have hle := hs'.resolve_left ht
    omega

/-- A slot that is older than those remembered is the oldest. -/
theorem oldestDead_last {n : NatTable} {nowMs : ℕ} {seen : List NatSlot} {s : NatSlot}
    (hs : ¬ n.Live nowMs s)
    (hold : ∀ t ∈ seen, ¬ n.Live nowMs t → s.e.createdMs < t.e.createdMs) :
    n.OldestDead nowMs (seen ++ [s]) seen.length s := by
  refine ⟨by simp, hs, ?_⟩
  intro j t hj ht
  rcases getElem?_concat_cases hj with ⟨hj, -⟩ | ⟨rfl, rfl⟩
  · exact .inl (hold t (List.mem_of_getElem? hj) ht)
  · exact .inr ⟨rfl, Nat.le_refl _⟩

theorem chooseSlot_exact_from (n : NatTable) (nowMs : ℕ) :
    ∀ (rest seen : List NatSlot) (reclaim : Option (ℕ × ℕ)), n.slots = seen ++ rest →
      (∀ s ∈ seen, s.used = true) → n.ReclaimOf nowMs seen reclaim →
      (n.chooseSlot nowMs rest seen.length reclaim).Exact n nowMs := by
  intro rest
  induction rest with
  | nil =>
    intro seen reclaim hall hused hrec
    rw [List.append_nil] at hall
    cases reclaim with
    | none => exact fun s hs => ⟨hused s (hall ▸ hs), hrec s (hall ▸ hs)⟩
    | some ic =>
      obtain ⟨i, c⟩ := ic
      obtain ⟨s, hs, -⟩ := hrec
      exact ⟨fun t ht => hused t (hall ▸ ht), s, by rw [hall]; exact hs⟩
  | cons s rest ih =>
    intro seen reclaim hall hused hrec
    have hat : n.slots[seen.length]? = some s := by rw [hall]; simp
    have hnext : n.slots = (seen ++ [s]) ++ rest := by
      rw [hall, List.append_assoc, List.singleton_append]
    have hlen : (seen ++ [s]).length = seen.length + 1 := by simp
    have hmem : ∀ {t}, t ∈ seen ++ [s] → t ∈ seen ∨ t = s := by
      intro t ht
      rwa [List.mem_append, List.mem_singleton] at ht
    unfold chooseSlot
    by_cases hfree : (!s.used) = true
    · rw [if_pos hfree]
      exact ⟨s, hat, by simpa using hfree⟩
    have hused' : ∀ t ∈ seen ++ [s], t.used = true := by
      intro t ht
      rcases hmem ht with ht | rfl
      · exact hused t ht
      · simpa using hfree
    rw [if_neg hfree, ← hlen]
    split_ifs with htake
    · -- this slot is reclaimable, and older than any other so far
      rw [Bool.and_eq_true] at htake
      have hdead : ¬ n.Live nowMs s := by
        rw [live_iff, htake.1]
        exact Bool.true_eq_false.mp
      refine ih (seen ++ [s]) _ hnext hused' ⟨s, oldestDead_last hdead fun t ht htdead => ?_, rfl⟩
      cases reclaim with
      | none => exact absurd (hrec t ht) htdead
      | some ic =>
        obtain ⟨s₀, hs₀, hcreated⟩ := hrec
        obtain ⟨j, hj⟩ := List.mem_iff_getElem?.1 ht
        have hlt : s.e.createdMs < ic.2 := of_decide_eq_true htake.2
        have hmin := hs₀.2.2 j t hj htdead
        omega
    · -- this slot is live, or not older than the one remembered
      refine ih (seen ++ [s]) reclaim hnext hused' ?_
      cases reclaim with
      | none =>
        intro t ht
        rcases hmem ht with ht | rfl
        · exact hrec t ht
        · rw [live_iff]
          simpa using htake
      | some ic =>
        obtain ⟨s₀, hs₀, hcreated⟩ := hrec
        refine ⟨s₀, hs₀.concat ?_, hcreated⟩
        by_cases hlive : n.Live nowMs s
        · exact .inl hlive
        · rw [live_iff, Bool.not_eq_false] at hlive
          rw [hlive, Bool.true_and, decide_eq_true_eq] at htake
          exact .inr (by omega)

theorem chooseSlot_exact (n : NatTable) (nowMs : ℕ) :
    (n.chooseSlot nowMs n.slots 0 none).Exact n nowMs :=
  chooseSlot_exact_from n nowMs n.slots [] none rfl (fun _ hs => nomatch hs) fun _ hs => nomatch hs

end NatTable

/-! ## The invariant -/

/-- A port has one slot, and the counter counts the used slots. -/
structure NatOk (n : NatTable) : Prop where
  distinct : n.PortsDistinct
  count : n.count = n.slots.countP (·.used)

theorem natOk_create (capacity : ℕ) (ttlMs : ℤ) : NatOk (pmxNatCreate capacity ttlMs) where
  distinct := portsDistinct_create capacity ttlMs
  count := by
    refine (List.countP_eq_zero.2 fun s hs => ?_).symm
    rw [unused_of_mem_create hs]
    exact Bool.false_ne_true

/-- Where an add writes, and what it makes of the counter. -/
theorem pmxNatAdd_exact (n : NatTable) (srcAddr : UInt32) {srcPort : PmxPort}
    (origDstAddr : UInt32) (origDstPort : PmxPort) (nowMs : ℕ) (hp : srcPort ≠ 0) :
    (pmxNatAdd n srcAddr srcPort origDstAddr origDstPort nowMs = (n, .errState) ∧
      n.lookup srcPort = none ∧ ∀ s ∈ n.slots, s.used = true ∧ n.Live nowMs s) ∨
    ∃ i old, n.slots[i]? = some old ∧
      pmxNatAdd n srcAddr srcPort origDstAddr origDstPort nowMs =
        ({ n.setSlot i (freshSlot srcAddr srcPort origDstAddr origDstPort nowMs)
            with count := n.count + if old.used then 0 else 1 }, .ok) ∧
      (n.lookup srcPort = some old ∨
        n.lookup srcPort = none ∧ (old.used = false ∨
          (∀ s ∈ n.slots, s.used = true) ∧ n.OldestDead nowMs n.slots i old)) := by
  rw [pmxNatAdd, if_neg hp]
  cases hf : n.findSlot srcPort with
  | some i =>
    obtain ⟨s, hs, hl⟩ := findSlot_eq_some hf
    refine .inr ⟨i, s, hs, ?_, .inl hl⟩
    rw [(lookup_holds hl).1]
    rfl
  | none =>
    have hnone := findSlot_eq_none.1 hf
    have hexact := chooseSlot_exact n nowMs
    dsimp only
    cases hc : n.chooseSlot nowMs n.slots 0 none with
    | free i =>
      rw [hc] at hexact
      obtain ⟨s, hs, hfree⟩ := hexact
      refine .inr ⟨i, s, hs, ?_, .inr ⟨hnone, .inl hfree⟩⟩
      rw [hfree]
      rfl
    | reclaim i =>
      rw [hc] at hexact
      obtain ⟨hused, s, hs⟩ := hexact
      refine .inr ⟨i, s, hs.1, ?_, .inr ⟨hnone, .inr ⟨hused, hs⟩⟩⟩
      rw [hused s (List.mem_of_getElem? hs.1)]
      rfl
    | full =>
      rw [hc] at hexact
      exact .inl ⟨rfl, hnone, hexact⟩

/-- Overwriting a slot keeps the counter true if it is moved by the difference. -/
theorem count_setSlot {n : NatTable} (h : n.count = n.slots.countP (·.used)) {i : ℕ} {old s : NatSlot}
    (hi : n.slots[i]? = some old) :
    (n.slots.set i s).countP (·.used) + (if old.used then 1 else 0)
      = n.count + if s.used then 1 else 0 := by
  rw [h]
  exact SlotTable.countP_set hi s

theorem natOk_pmxNatAdd {n : NatTable} (h : NatOk n) (srcAddr : UInt32) (srcPort : PmxPort)
    (origDstAddr : UInt32) (origDstPort : PmxPort) (nowMs : ℕ) :
    NatOk (pmxNatAdd n srcAddr srcPort origDstAddr origDstPort nowMs).1 := by
  refine ⟨(portsDistinct_pmxNatAdd h.distinct srcAddr srcPort origDstAddr origDstPort nowMs).1, ?_⟩
  by_cases hp : srcPort = 0
  · rw [pmxNatAdd, if_pos hp]
    exact h.count
  rcases pmxNatAdd_exact n srcAddr origDstAddr origDstPort nowMs hp with
    ⟨heq, -⟩ | ⟨i, old, hi, heq, -⟩
  · rw [heq]
    exact h.count
  · rw [heq]
    have hset := count_setSlot h.count (s := freshSlot srcAddr srcPort origDstAddr origDstPort nowMs) hi
    rw [show (freshSlot srcAddr srcPort origDstAddr origDstPort nowMs).used = true from rfl,
      if_pos rfl] at hset
    show n.count + (if old.used then 0 else 1)
      = (n.slots.set i (freshSlot srcAddr srcPort origDstAddr origDstPort nowMs)).countP (·.used)
    split_ifs at hset ⊢ <;> omega

theorem natOk_pmxNatFind {n : NatTable} (h : NatOk n) (srcPort : PmxPort) (nowMs : ℕ) :
    NatOk (pmxNatFind n srcPort nowMs).1 := by
  refine ⟨(portsDistinct_pmxNatFind h.distinct srcPort nowMs).1, ?_⟩
  rcases pmxNatFind_cases n srcPort nowMs with heq | ⟨i, s, hi, -, heq⟩
  · rw [heq]
    exact h.count
  · rw [heq]
    have hset := count_setSlot h.count (s := { s with lastSeenMs := nowMs }) hi
    exact (Nat.add_right_cancel hset).symm

theorem natOk_pmxNatMarkClosed {n : NatTable} (h : NatOk n) (srcPort : PmxPort) :
    NatOk (pmxNatMarkClosed n srcPort) := by
  rcases pmxNatMarkClosed_cases n srcPort with heq | ⟨i, s, hi, -, heq⟩
  · rw [heq]
    exact h
  · rw [heq]
    have hset := count_setSlot h.count (s := { s with closed := true }) hi
    exact ⟨SlotTable.KeysDistinct.set_same h.distinct hi (.inr rfl), (Nat.add_right_cancel hset).symm⟩

theorem natOk_pmxNatRemove {n : NatTable} (h : NatOk n) (srcPort : PmxPort) :
    NatOk (pmxNatRemove n srcPort) := by
  rcases pmxNatRemove_cases n srcPort with heq | ⟨i, s, hi, hl, heq⟩
  · rw [heq]
    exact h
  · rw [heq]
    have hset := count_setSlot h.count (s := emptySlot) hi
    rw [(lookup_holds hl).1, if_pos rfl, show emptySlot.used = false from rfl,
      if_neg Bool.false_ne_true] at hset
    refine ⟨SlotTable.KeysDistinct.set_same h.distinct hi (.inl rfl), ?_⟩
    show n.count - 1 = (n.slots.set i emptySlot).countP _
    omega

/-- An expiry sweep keeps one slot for each port. -/
theorem portsDistinct_pmxNatExpire {n : NatTable} (h : n.PortsDistinct) (nowMs : ℕ) :
    (pmxNatExpire n nowMs).1.PortsDistinct := by
  refine SlotTable.KeysDistinct.map h fun s p hp => ?_
  rw [sweepSlot] at hp
  split_ifs at hp
  · cases hp
  · exact hp

theorem natOk_pmxNatExpire {n : NatTable} (h : NatOk n) (nowMs : ℕ) :
    NatOk (pmxNatExpire n nowMs).1 := by
  constructor
  · exact portsDistinct_pmxNatExpire h.distinct nowMs
  · show n.count - n.slots.countP (fun s => s.used && n.expired s nowMs)
      = (n.slots.map (n.sweepSlot nowMs)).countP (·.used)
    have hsplit := List.countP_eq_countP_filter_add n.slots (·.used) fun s => n.expired s nowMs
    rw [List.countP_filter, List.countP_filter] at hsplit
    have hkept : (fun s : NatSlot => s.used) ∘ n.sweepSlot nowMs =
        fun s => s.used && !n.expired s nowMs := by
      funext s
      show (n.sweepSlot nowMs s).used = _
      rw [sweepSlot]
      cases hused : s.used <;> cases hexp : n.expired s nowMs <;> simp [hused, emptySlot]
    rw [h.count, List.countP_map, hkept]
    omega

/-- **Every operation keeps the invariant**, and the number of slots. -/
theorem natOk_natStep {n : NatTable} (h : NatOk n) (c : ℕ × NatOp) : NatOk (natStep n c) := by
  obtain ⟨now, op⟩ := c
  cases op with
  | add srcAddr srcPort origDstAddr origDstPort =>
    exact natOk_pmxNatAdd h srcAddr srcPort origDstAddr origDstPort now
  | find srcPort => exact natOk_pmxNatFind h srcPort now
  | markClosed srcPort => exact natOk_pmxNatMarkClosed h srcPort
  | remove srcPort => exact natOk_pmxNatRemove h srcPort
  | expire => exact natOk_pmxNatExpire h now

theorem natStep_slots_length (n : NatTable) (c : ℕ × NatOp) :
    (natStep n c).slots.length = n.slots.length := by
  obtain ⟨now, op⟩ := c
  cases op with
  | add srcAddr srcPort origDstAddr origDstPort =>
    show (pmxNatAdd n srcAddr srcPort origDstAddr origDstPort now).1.slots.length = _
    rcases pmxNatAdd_cases n srcAddr srcPort origDstAddr origDstPort now with
      ⟨-, heq⟩ | ⟨-, -, i, s, count, -, heq, -⟩
    · rw [heq]
    · rw [heq]
      exact List.length_set
  | find srcPort =>
    show (pmxNatFind n srcPort now).1.slots.length = _
    rcases pmxNatFind_cases n srcPort now with heq | ⟨i, s, -, -, heq⟩
    · rw [heq]
    · rw [heq]
      exact List.length_set
  | markClosed srcPort =>
    show (pmxNatMarkClosed n srcPort).slots.length = _
    rcases pmxNatMarkClosed_cases n srcPort with heq | ⟨i, s, -, -, heq⟩
    · rw [heq]
    · rw [heq]
      exact List.length_set
  | remove srcPort =>
    show (pmxNatRemove n srcPort).slots.length = _
    rcases pmxNatRemove_cases n srcPort with heq | ⟨i, s, -, -, heq⟩
    · rw [heq]
    · rw [heq]
      exact List.length_set
  | expire => exact List.length_map _

/-! ## Every reachable table -/

/-- What a successful add of `srcPort` leaves behind: its entry is the new one, and the one slot that was
written was its own, or free, or, if the table was full, that of an expired or closed flow. -/
structure AddEffect (n n' : NatTable) (srcPort : PmxPort) (fresh : NatSlot) (nowMs : ℕ) : Prop where
  entry : n'.lookup srcPort = some fresh
  live : n'.Live nowMs fresh
  others : ∃ i old, n.slots[i]? = some old ∧ n'.slots = n.slots.set i fresh ∧
    (old.used = true → old.e.srcPort ≠ srcPort →
      ¬ n.Live nowMs old ∧ ∀ s ∈ n.slots, s.used = true)

/-- An add fails exactly if the port is absent and every slot is used by a flow that is neither closed nor
expired; the table is then unchanged. -/
structure AddSpec (n : NatTable) (srcAddr : UInt32) (srcPort : PmxPort) (origDstAddr : UInt32)
    (origDstPort : PmxPort) (nowMs : ℕ) : Prop where
  fails : (pmxNatAdd n srcAddr srcPort origDstAddr origDstPort nowMs).2 = .errState ↔
    n.lookup srcPort = none ∧ ∀ s ∈ n.slots, s.used = true ∧ n.Live nowMs s
  unchanged : (pmxNatAdd n srcAddr srcPort origDstAddr origDstPort nowMs).2 = .errState →
    (pmxNatAdd n srcAddr srcPort origDstAddr origDstPort nowMs).1 = n
  succeeds : (pmxNatAdd n srcAddr srcPort origDstAddr origDstPort nowMs).2 ≠ .errState →
    (pmxNatAdd n srcAddr srcPort origDstAddr origDstPort nowMs).2 = .ok ∧
      AddEffect n (pmxNatAdd n srcAddr srcPort origDstAddr origDstPort nowMs).1 srcPort
        (freshSlot srcAddr srcPort origDstAddr origDstPort nowMs) nowMs

theorem addSpec (n : NatTable) (srcAddr : UInt32) {srcPort : PmxPort} (origDstAddr : UInt32)
    (origDstPort : PmxPort) (nowMs : ℕ) (hp : srcPort ≠ 0) :
    AddSpec n srcAddr srcPort origDstAddr origDstPort nowMs := by
  rcases pmxNatAdd_exact n srcAddr origDstAddr origDstPort nowMs hp with
    ⟨heq, hnone, hfull⟩ | ⟨i, old, hi, heq, hold⟩
  · rw [← Prod.eta (pmxNatAdd _ _ _ _ _ _), Prod.mk.injEq] at heq
    exact ⟨iff_of_true heq.2 ⟨hnone, hfull⟩, fun _ => heq.1, fun hno => absurd heq.2 hno⟩
  · have hok : (pmxNatAdd n srcAddr srcPort origDstAddr origDstPort nowMs).2 = .ok := by rw [heq]
    have hne : (pmxNatAdd n srcAddr srcPort origDstAddr origDstPort nowMs).2 ≠ .errState := by
      rw [hok]
      exact fun h => nomatch h
    refine ⟨iff_of_false hne ?_, fun herr => absurd herr hne, fun _ => ⟨hok, ?_⟩⟩
    · rintro ⟨hnone, hfull⟩
      have holdfull := hfull old (List.mem_of_getElem? hi)
      rcases hold with hl | ⟨-, hfree | ⟨-, hdead⟩⟩
      · rw [hnone] at hl
        cases hl
      · rw [holdfull.1] at hfree
        cases hfree
      · exact hdead.2.1 holdfull.2
    · refine ⟨lookup_pmxNatAdd_self hok, ⟨rfl, ?_⟩, i, old, hi, by rw [heq]; rfl, ?_⟩
      · rw [expired_eq_false]
        exact Nat.le_add_right _ _
      · intro hused hport
        rcases hold with hl | ⟨-, hfree | ⟨hfull, hdead⟩⟩
        · exact absurd (lookup_holds hl).2 hport
        · rw [hused] at hfree
          cases hfree
        · exact ⟨hdead.2.1, hfull⟩

/-- **Every reachable table.**  After any operations at any times, a port has one slot, the count is that
of the used slots and at most the capacity, and an add of any port does what it should. -/
theorem natTable_reachable (capacity : ℕ) (ttlMs : ℤ) (run : List (ℕ × NatOp)) :
    (Runs.runFrom natStep (pmxNatCreate capacity ttlMs) run).PortsDistinct ∧
    pmxNatCount (Runs.runFrom natStep (pmxNatCreate capacity ttlMs) run)
      = (Runs.runFrom natStep (pmxNatCreate capacity ttlMs) run).slots.countP (·.used) ∧
    pmxNatCount (Runs.runFrom natStep (pmxNatCreate capacity ttlMs) run)
      ≤ (if capacity = 0 then 512 else capacity) ∧
    ∀ (srcAddr : UInt32) (srcPort : PmxPort) (origDstAddr : UInt32) (origDstPort : PmxPort)
      (nowMs : ℕ), srcPort ≠ 0 →
        AddSpec (Runs.runFrom natStep (pmxNatCreate capacity ttlMs) run) srcAddr srcPort origDstAddr
          origDstPort nowMs := by
  have hok : NatOk (Runs.runFrom natStep (pmxNatCreate capacity ttlMs) run) :=
    Runs.runFrom_inv NatOk (fun _ c h => natOk_natStep h c) run _ (natOk_create capacity ttlMs)
  have hlen : (Runs.runFrom natStep (pmxNatCreate capacity ttlMs) run).slots.length
      = if capacity = 0 then 512 else capacity :=
    Runs.runFrom_inv (fun n => n.slots.length = if capacity = 0 then 512 else capacity)
      (fun n c h => (natStep_slots_length n c).trans h) run _ List.length_replicate
  refine ⟨hok.distinct, hok.count, ?_, fun srcAddr srcPort origDstAddr origDstPort nowMs hp =>
    addSpec _ srcAddr origDstAddr origDstPort nowMs hp⟩
  rw [pmxNatCount, hok.count, ← hlen]
  exact List.countP_le_length

end ProxiMight
