import ProxiMight.NatTable
import ProxiMight.Runs

/-!
# A live proxied flow keeps its mapping

A run of the table is a list of timed operations.  `Paced ttl p t₀ run` says that `p` is looked up in
`run` with gaps of at most `ttl`, the first lookup at most `ttl` after `t₀`.  The invariant is `Held`:
the entry of `p` is there, not closed, and was last seen at the last lookup.  One operation keeps it as
long as the clock is within `ttl` of that lookup (`natStep_held`), and before a lookup that comes in
time the clock always is (`Paced.now_le`).
-/

namespace ProxiMight

open NatTable

/-- An operation on the table; `markClosed` and `remove` read no clock. -/
inductive NatOp
  | add (srcAddr : UInt32) (srcPort : PmxPort) (origDstAddr : UInt32) (origDstPort : PmxPort)
  | find (srcPort : PmxPort)
  | markClosed (srcPort : PmxPort)
  | remove (srcPort : PmxPort)
  | expire
  deriving DecidableEq, Repr

/-- The table after one operation, called at the given time. -/
def natStep (n : NatTable) : ℕ × NatOp → NatTable
  | (now, .add srcAddr srcPort origDstAddr origDstPort) =>
    (pmxNatAdd n srcAddr srcPort origDstAddr origDstPort now).1
  | (now, .find srcPort) => (pmxNatFind n srcPort now).1
  | (_, .markClosed srcPort) => pmxNatMarkClosed n srcPort
  | (_, .remove srcPort) => pmxNatRemove n srcPort
  | (now, .expire) => (pmxNatExpire n now).1

/-- The operation neither re-adds, removes nor closes `p`. -/
def NatOp.Spares (p : PmxPort) : NatOp → Prop
  | .add _ srcPort _ _ => srcPort ≠ p
  | .find _ => True
  | .markClosed srcPort => srcPort ≠ p
  | .remove srcPort => srcPort ≠ p
  | .expire => True

/-- `p` is looked up with gaps of at most `ttlMs`, counted from `lastMs`. -/
def Paced (ttlMs : ℕ) (p : PmxPort) : ℕ → List (ℕ × NatOp) → Prop
  | _, [] => True
  | lastMs, (now, op) :: rest =>
    if op = .find p then now ≤ lastMs + ttlMs ∧ Paced ttlMs p now rest
    else Paced ttlMs p lastMs rest

/-- The entry `e` of port `p` is in the table, live, and was last looked up at `lastMs`. -/
def Held (n : NatTable) (p : PmxPort) (e : NatEntry) (lastMs : ℕ) : Prop :=
  n.lookup p = some ⟨true, false, lastMs, e⟩

/-- The time of the last lookup of `p` after one more operation. -/
def lastSeen (p : PmxPort) (lastMs : ℕ) (c : ℕ × NatOp) : ℕ :=
  if c.2 = .find p then c.1 else lastMs

@[simp] theorem natStep_ttlMs (n : NatTable) (c : ℕ × NatOp) : (natStep n c).ttlMs = n.ttlMs := by
  obtain ⟨now, op⟩ := c
  cases op <;> simp [natStep]

/-- **One operation keeps a held entry** while the clock is within the time to live. -/
theorem natStep_held {n : NatTable} {p : PmxPort} {e : NatEntry} {lastMs : ℕ} (c : ℕ × NatOp)
    (hp : p ≠ 0) (h : Held n p e lastMs) (hspare : c.2.Spares p) (hnow : c.1 ≤ lastMs + n.ttlMs) :
    Held (natStep n c) p e (lastSeen p lastMs c) := by
  obtain ⟨now, op⟩ := c
  have hlive : n.Live now ⟨true, false, lastMs, e⟩ := ⟨rfl, (expired_eq_false _ _ _).2 hnow⟩
  cases op with
  | add srcAddr srcPort origDstAddr origDstPort =>
    exact lookup_pmxNatAdd_of_ne (Ne.symm hspare) h hlive
  | find srcPort =>
    by_cases hq : srcPort = p
    · subst hq
      rw [lastSeen, if_pos rfl]
      exact (pmxNatFind_of_live hp h hlive).2
    · rw [lastSeen, if_neg (by simpa using hq)]
      exact lookup_pmxNatFind_of_ne (Ne.symm hq) h
  | markClosed srcPort => exact lookup_pmxNatMarkClosed_of_ne (Ne.symm hspare) h
  | remove srcPort => exact lookup_pmxNatRemove_of_ne (Ne.symm hspare) h
  | expire => exact lookup_pmxNatExpire h hlive.2

theorem paced_cons {ttlMs : ℕ} {p : PmxPort} {lastMs : ℕ} {c : ℕ × NatOp}
    {rest : List (ℕ × NatOp)} (h : Paced ttlMs p lastMs (c :: rest)) :
    Paced ttlMs p (lastSeen p lastMs c) rest := by
  rw [Paced] at h
  rw [lastSeen]
  split_ifs at h ⊢ with hop
  · exact h.2
  · exact h

theorem Paced.of_append {ttlMs : ℕ} {p : PmxPort} {post : List (ℕ × NatOp)} :
    ∀ {pre : List (ℕ × NatOp)} {lastMs : ℕ}, Paced ttlMs p lastMs (pre ++ post) →
      Paced ttlMs p lastMs pre := by
  intro pre
  induction pre with
  | nil => intro lastMs _; trivial
  | cons c pre ih =>
    intro lastMs h
    rw [List.cons_append, Paced] at h
    rw [Paced]
    split_ifs at h ⊢ with hop
    · exact ⟨h.1, ih h.2⟩
    · exact ih h

/-- Before a lookup that is in time, the clock is within the time to live of the last one. -/
theorem Paced.now_le {ttlMs : ℕ} {p : PmxPort} {now t : ℕ} :
    ∀ (run : List (ℕ × NatOp)) (lastMs : ℕ), Paced ttlMs p lastMs run → (t, .find p) ∈ run →
      (∀ c ∈ run, now ≤ c.1) → now ≤ lastMs + ttlMs := by
  intro run
  induction run with
  | nil => intro lastMs _ hmem _; simp at hmem
  | cons c run ih =>
    intro lastMs h hmem hnow
    have hc : now ≤ c.1 := hnow c List.mem_cons_self
    by_cases hop : c.2 = .find p
    · rw [Paced, if_pos hop] at h
      omega
    · have hne : (t, NatOp.find p) ≠ c := fun heq => hop (heq ▸ rfl)
      rw [Paced, if_neg hop] at h
      exact ih lastMs h ((List.mem_cons.1 hmem).resolve_left hne)
        (fun c' hc' => hnow c' (List.mem_cons_of_mem c hc'))

/-- **The run keeps a held entry up to every lookup that is in time.** -/
theorem run_held {p : PmxPort} {e : NatEntry} {t : ℕ} (hp : p ≠ 0) :
    ∀ (pre : List (ℕ × NatOp)) (n : NatTable) (lastMs : ℕ),
      Held n p e lastMs → (∀ c ∈ pre, c.2.Spares p) →
      ((pre ++ [(t, NatOp.find p)]).map Prod.fst).Pairwise (· ≤ ·) →
      Paced n.ttlMs p lastMs (pre ++ [(t, .find p)]) →
      ∃ last, Held (Runs.runFrom natStep n pre) p e last ∧ t ≤ last + n.ttlMs := by
  intro pre
  induction pre with
  | nil =>
    intro n lastMs h _ _ hpace
    refine ⟨lastMs, h, ?_⟩
    exact hpace.now_le (t := t) _ lastMs (by simp) (by simp)
  | cons c pre ih =>
    intro n lastMs h hspare hmono hpace
    rw [List.cons_append, List.map_cons, List.pairwise_cons] at hmono
    have hnow : c.1 ≤ lastMs + n.ttlMs := by
      refine hpace.now_le (t := t) _ lastMs (by simp) ?_
      intro c' hc'
      rcases List.mem_cons.1 hc' with rfl | hc'
      · exact Nat.le_refl _
      · exact hmono.1 c'.1 (List.mem_map_of_mem hc')
    have hstep := natStep_held c hp h (hspare c List.mem_cons_self) hnow
    have hnext := ih (natStep n c) (lastSeen p lastMs c) hstep
      (fun c' hc' => hspare c' (List.mem_cons_of_mem c hc')) hmono.2
      (by rw [natStep_ttlMs]; exact paced_cons hpace)
    rwa [natStep_ttlMs] at hnext

/-- **A live proxied flow never loses its mapping.**  After a successful `pmx_nat_add` for port `p`, in
every later run with non-decreasing times that spares `p` and looks it up often enough, each lookup of
`p` returns the mapping that was added. -/
theorem pmxNatFind_of_paced_run (n : NatTable) (srcAddr : UInt32) (p : PmxPort)
    (origDstAddr : UInt32) (origDstPort : PmxPort) (t₀ : ℕ)
    (hadd : (pmxNatAdd n srcAddr p origDstAddr origDstPort t₀).2 = .ok)
    (run : List (ℕ × NatOp)) (hmono : (t₀ :: run.map Prod.fst).Pairwise (· ≤ ·))
    (hspare : ∀ c ∈ run, c.2.Spares p) (hpace : Paced n.ttlMs p t₀ run)
    (pre post : List (ℕ × NatOp)) (t : ℕ) (hrun : run = pre ++ (t, .find p) :: post) :
    (pmxNatFind (Runs.runFrom natStep (pmxNatAdd n srcAddr p origDstAddr origDstPort t₀).1 pre)
      p t).2 = some ⟨srcAddr, p, origDstAddr, origDstPort, t₀⟩ := by
  have hp : p ≠ 0 := by
    rcases pmxNatAdd_cases n srcAddr p origDstAddr origDstPort t₀ with ⟨hne, -⟩ | ⟨-, hp, -⟩
    · exact absurd hadd hne
    · exact hp
  have hsplit : run = (pre ++ [(t, .find p)]) ++ post := by rw [hrun, List.append_assoc]; rfl
  have hpre : Paced n.ttlMs p t₀ (pre ++ [(t, .find p)]) := by
    rw [hsplit] at hpace
    exact hpace.of_append
  obtain ⟨last, hheld, hlast⟩ := run_held hp pre
    (pmxNatAdd n srcAddr p origDstAddr origDstPort t₀).1 t₀ (lookup_pmxNatAdd_self hadd)
    (fun c hc => hspare c (by rw [hrun]; exact List.mem_append_left _ hc))
    (by
      rw [hsplit, List.map_append] at hmono
      exact (List.pairwise_append.1 (List.pairwise_cons.1 hmono).2).1)
    (by rwa [pmxNatAdd_ttlMs])
  rw [pmxNatAdd_ttlMs] at hlast
  have httl : (Runs.runFrom natStep (pmxNatAdd n srcAddr p origDstAddr origDstPort t₀).1 pre).ttlMs
      = n.ttlMs :=
    Runs.runFrom_inv (fun n' : NatTable => n'.ttlMs = n.ttlMs)
      (fun s c hs => by rw [natStep_ttlMs, hs]) pre _ (pmxNatAdd_ttlMs _ _ _ _ _ _)
  have hlive : NatTable.Live
      (Runs.runFrom natStep (pmxNatAdd n srcAddr p origDstAddr origDstPort t₀).1 pre) t
      ⟨true, false, last, ⟨srcAddr, p, origDstAddr, origDstPort, t₀⟩⟩ :=
    ⟨rfl, (expired_eq_false _ _ _).2 (by rw [httl]; exact hlast)⟩
  exact (pmxNatFind_of_live hp hheld hlive).1

/-- A flow polled every 900 ms in a table of two slots with a time to live of one second. -/
theorem pmxNatFind_of_paced_run_polled :
    (pmxNatFind (Runs.runFrom natStep
      (pmxNatAdd (pmxNatCreate 2 1000) 0xC0A80132 6000 0x5DB8D822 443 0).1
      [(900, .find 6000), (950, .add 0xC0A80132 6001 0x01010101 80), (1800, .expire)])
      6000 1800).2 = some ⟨0xC0A80132, 6000, 0x5DB8D822, 443, 0⟩ :=
  pmxNatFind_of_paced_run (pmxNatCreate 2 1000) 0xC0A80132 6000 0x5DB8D822 443 0 (by decide)
    [(900, .find 6000), (950, .add 0xC0A80132 6001 0x01010101 80), (1800, .expire),
      (1800, .find 6000)]
    (by decide) (by simp [NatOp.Spares]) (by simp [Paced, pmxNatCreate]) _ [] 1800 rfl

end ProxiMight
