import ProxiMight.CString
import ProxiMight.Doubles
import ProxiMight.Json
import ProxiMight.Types
import Mathlib.Algebra.Order.Field.Rat
import Mathlib.Algebra.Order.Field.Basic
import Mathlib.Algebra.Order.BigOperators.Group.List
import Mathlib.Algebra.BigOperators.Ring.Finset
import Mathlib.Tactic.Positivity
import Mathlib.Tactic.FieldSimp
import Mathlib.Tactic.Linarith

/-!
# The path scan (`pmx_mtr`)

A scan raises the TTL from 1 on, sends every hop a number of echoes, and stops at the first hop where the
target itself answers.  Average and loss are doubles: each operation rounds.

* **`pmxMtr_report`** — what a scan reports, hop by hop, and where it stops.
-/

namespace ProxiMight

open CString Doubles

/-- `PMX_MAX_HOPS`. -/
def pmxMaxHops : ℕ := 30

/-- `pmx_path_opts`.  `cycles` is an `int`. -/
structure PmxPathOpts where
  maxHops : ℤ
  cycles : ℤ
  cycles_le : cycles ≤ intMax
  timeoutMs : ℤ
  payloadSize : ℤ
  resolveNames : Bool

theorem three_le_intMax : (3 : ℤ) ≤ intMax := by decide

def pmxPathOptsDefaults : PmxPathOpts := ⟨pmxMaxHops, 3, three_le_intMax, 1000, 32, false⟩

/-- The reply's status: `IP_SUCCESS`, `IP_TTL_EXPIRED_TRANSIT`, or any other. -/
inductive EchoStatus
  | success
  | ttlExpired
  | other
  deriving DecidableEq

/-- What `icmp_probe` hands back.  No echo waits for `INT_MAX` milliseconds. -/
structure EchoReply where
  got : Bool
  status : EchoStatus
  addr : CBuf pmxMaxIp
  rtt : ℕ
  rtt_le : (rtt : ℤ) ≤ intMax

/-- What the scan meets outside: the addresses of names, the ICMP handle, what each echo (by TTL, payload,
timeout and its number at this TTL) comes back with, and the names of addresses. -/
structure PathWorld where
  resolve : List UInt8 → Option (CBuf pmxMaxIp)
  icmpOpens : Bool
  echo : ℕ → ℕ → ℤ → ℕ → EchoReply
  reverseDns : CBuf pmxMaxIp → CBuf pmxMaxHost

/-- `pmx_hop`. -/
structure PmxHop where
  ttl : ℕ
  addr : CBuf pmxMaxIp
  name : CBuf pmxMaxHost
  sent : ℕ
  recv : ℕ
  bestMs : ℤ
  worstMs : ℤ
  avgMs : ℚ
  lossPct : ℚ
  isDest : Bool

/-- `pmx_mtr_result`. -/
structure PmxMtrResult where
  target : CBuf pmxMaxHost
  targetAddr : CBuf pmxMaxIp
  hops : List PmxHop
  reached : Bool
  status : PmxStatus

/-- A hop in the making, with the locals `sum` and `reached`. -/
structure HopScan where
  hop : PmxHop
  sum : ℚ
  reached : Bool

/-- The clamp to `send_buf`. -/
def icmpPayload (payload : ℤ) : ℕ :=
  if payload < 0 then 0 else if 256 < payload then 256 else payload.toNat

section Scan

variable (w : PathWorld) (o : PmxPathOpts)

def icmpProbe (ttl c : ℕ) : EchoReply := w.echo ttl (icmpPayload o.payloadSize) o.timeoutMs c

def PmxPathOpts.hopLimit : ℕ :=
  if 0 < o.maxHops ∧ o.maxHops ≤ pmxMaxHops then o.maxHops.toNat else pmxMaxHops

def PmxPathOpts.cycleCount : ℕ := if 0 < o.cycles then o.cycles.toNat else 3

def hopScanStart (ttl : ℕ) : HopScan :=
  ⟨⟨ttl, CBuf.empty, CBuf.empty, 0, 0, intMax, -1, 0, 0, false⟩, 0, false⟩

/-- A router's or the target's own answer. -/
def EchoReply.counts (r : EchoReply) : Bool := r.got && (r.status == .success || r.status == .ttlExpired)

/-- The target's own answer. -/
def EchoReply.arrived (r : EchoReply) : Bool := r.got && r.status == .success

/-- One round of the inner loop. -/
def hopEcho (s : HopScan) (r : EchoReply) : HopScan :=
  let hop := { s.hop with sent := s.hop.sent + 1 }
  if r.counts then
    { hop := { hop with
        recv := hop.recv + 1
        addr := if hop.addr.isEmpty && !r.addr.isEmpty then r.addr else hop.addr
        bestMs := if r.rtt < hop.bestMs then r.rtt else hop.bestMs
        worstMs := if hop.worstMs < r.rtt then r.rtt else hop.worstMs }
      sum := roundDouble (s.sum + r.rtt)
      reached := s.reached || r.status == .success }
  else { s with hop := hop }

/-- What is filled in behind the inner loop. -/
def hopFinish (s : HopScan) : PmxHop :=
  { s.hop with
    avgMs := if 0 < s.hop.recv then roundDouble (s.sum / s.hop.recv) else s.hop.avgMs
    bestMs := if 0 < s.hop.recv then s.hop.bestMs else -1
    worstMs := if 0 < s.hop.recv then s.hop.worstMs else -1
    lossPct :=
      if 0 < s.hop.sent then
        roundDouble (roundDouble (100 * ((s.hop.sent : ℚ) - s.hop.recv)) / s.hop.sent)
      else 0
    isDest := s.reached
    name := if o.resolveNames && !s.hop.addr.isEmpty then w.reverseDns s.hop.addr else s.hop.name }

/-- The inner loop from echo `c` on, for `n` echoes. -/
def hopEchoes (ttl c n : ℕ) (s : HopScan) : HopScan :=
  (List.range' c n).foldl (fun s c => hopEcho s (icmpProbe w o ttl c)) s

/-- The outer loop from `ttl` on, for `n` hops at most. -/
def mtrHops : (ttl n : ℕ) → PmxMtrResult → PmxMtrResult
  | _, 0, out => out
  | ttl, n + 1, out =>
    let s := hopEchoes w o ttl 0 o.cycleCount (hopScanStart ttl)
    let out := { out with hops := out.hops ++ [hopFinish w o s] }
    if s.reached then { out with reached := true } else mtrHops (ttl + 1) n out

def mtrStart (host : List UInt8) : PmxMtrResult := ⟨strlcpy pmxMaxHost host, CBuf.empty, [], false, .ok⟩

/-- `mtr_run` without a job: the blocking `pmx_mtr`. -/
def pmxMtr (host : List UInt8) : PmxMtrResult :=
  let out := mtrStart host
  match w.resolve host with
  | none => { out with status := .errDns }
  | some addr =>
    let out := { out with targetAddr := addr }
    if w.icmpOpens then { mtrHops w o 1 o.hopLimit out with status := .ok }
    else { out with status := .errNet }

end Scan

/-! ### What a hop reports -/

def heard (rs : List EchoReply) : List EchoReply := rs.filter EchoReply.counts

def rtts (rs : List EchoReply) : List ℕ := (heard rs).map EchoReply.rtt

/-- A hop before `hopFinish`, after the replies `rs`. -/
structure HopScan.Inv (ttl : ℕ) (rs : List EchoReply) (s : HopScan) : Prop where
  ttl_eq : s.hop.ttl = ttl
  name : s.hop.name = CBuf.empty
  sent : s.hop.sent = rs.length
  recv : s.hop.recv = (heard rs).length
  addr : s.hop.addr = (((heard rs).map EchoReply.addr).find? fun a => !a.isEmpty).getD CBuf.empty
  best_le : ∀ t ∈ rtts rs, s.hop.bestMs ≤ t
  best_mem : heard rs ≠ [] → ∃ t ∈ rtts rs, s.hop.bestMs = t
  best_none : heard rs = [] → s.hop.bestMs = intMax
  le_worst : ∀ t ∈ rtts rs, (t : ℤ) ≤ s.hop.worstMs
  worst_mem : heard rs ≠ [] → ∃ t ∈ rtts rs, s.hop.worstMs = t
  worst_none : heard rs = [] → s.hop.worstMs = -1
  avg : s.hop.avgMs = 0
  sum : s.sum = sumDouble (rtts rs)
  reached : s.reached = rs.any EchoReply.arrived

theorem heard_append (rs : List EchoReply) (r : EchoReply) :
    heard (rs ++ [r]) = if r.counts then heard rs ++ [r] else heard rs := by
  rw [heard, List.filter_append, List.filter_singleton]
  cases r.counts
  · exact List.append_nil _
  · rfl

theorem EchoReply.arrived_of_not_counts {r : EchoReply} (h : r.counts = false) : r.arrived = false := by
  rw [EchoReply.counts] at h
  rw [EchoReply.arrived]
  cases hgot : r.got
  · rfl
  · rw [hgot, Bool.true_and, Bool.or_eq_false_iff] at h
    exact h.1

theorem EchoReply.arrived_of_counts {r : EchoReply} (h : r.counts = true) :
    r.arrived = (r.status == .success) := by
  rw [EchoReply.counts, Bool.and_eq_true] at h
  rw [EchoReply.arrived, h.1, Bool.true_and]

namespace HopScan.Inv

theorem start (ttl : ℕ) : (hopScanStart ttl).Inv ttl [] where
  ttl_eq := rfl
  name := rfl
  sent := rfl
  recv := rfl
  addr := rfl
  best_le := nofun
  best_mem h := absurd rfl h
  best_none _ := rfl
  le_worst := nofun
  worst_mem h := absurd rfl h
  worst_none _ := rfl
  avg := rfl
  sum := rfl
  reached := rfl

variable {ttl : ℕ} {rs : List EchoReply} {s : HopScan}

/-- The first address that is none of the empty ones is kept. -/
theorem addr_append (as : List (CBuf pmxMaxIp)) (a : CBuf pmxMaxIp) :
    (if ((as.find? fun a => !a.isEmpty).getD CBuf.empty).isEmpty && !a.isEmpty then a
      else (as.find? fun a => !a.isEmpty).getD CBuf.empty) =
      ((as ++ [a]).find? fun a => !a.isEmpty).getD CBuf.empty := by
  rw [List.find?_append]
  cases hfind : as.find? fun a => !a.isEmpty with
  | none =>
    have hempty : (CBuf.empty : CBuf pmxMaxIp).isEmpty = true := rfl
    rw [Option.getD_none, hempty, Bool.true_and, Option.none_or, List.find?_singleton]
    cases a.isEmpty
    · rfl
    · rfl
  | some b =>
    have hb : b.isEmpty = false := by simpa using List.find?_some hfind
    rw [Option.getD_some, hb, Option.some_or]
    rfl

theorem best_append {ts : List ℕ} {b : ℤ} (hle : ∀ t ∈ ts, b ≤ t) (hmem : ts ≠ [] → ∃ t ∈ ts, b = t)
    {t : ℕ} (hfirst : ts = [] → (t : ℤ) ≤ b) :
    (∀ u ∈ ts ++ [t], (if (t : ℤ) < b then (t : ℤ) else b) ≤ u) ∧
      ∃ u ∈ ts ++ [t], (if (t : ℤ) < b then (t : ℤ) else b) = u := by
  constructor
  · intro u hu
    rcases List.mem_append.1 hu with hu | hu
    · have := hle u hu
      split_ifs <;> omega
    · obtain rfl := List.mem_singleton.1 hu
      split_ifs <;> omega
  · split_ifs with hlt
    · exact ⟨t, by simp, rfl⟩
    · by_cases hnil : ts = []
      · exact ⟨t, by simp, le_antisymm (not_lt.1 hlt) (hfirst hnil)⟩
      · obtain ⟨u, hu, rfl⟩ := hmem hnil
        exact ⟨u, List.mem_append_left _ hu, rfl⟩

theorem worst_append {ts : List ℕ} {b : ℤ} (hle : ∀ t ∈ ts, (t : ℤ) ≤ b) (hmem : ts ≠ [] → ∃ t ∈ ts, b = t)
    {t : ℕ} (hfirst : ts = [] → b ≤ t) :
    (∀ u ∈ ts ++ [t], (u : ℤ) ≤ if b < t then (t : ℤ) else b) ∧
      ∃ u ∈ ts ++ [t], (if b < (t : ℤ) then (t : ℤ) else b) = u := by
  constructor
  · intro u hu
    rcases List.mem_append.1 hu with hu | hu
    · have := hle u hu
      split_ifs <;> omega
    · obtain rfl := List.mem_singleton.1 hu
      split_ifs <;> omega
  · split_ifs with hlt
    · exact ⟨t, by simp, rfl⟩
    · by_cases hnil : ts = []
      · exact ⟨t, by simp, le_antisymm (hfirst hnil) (not_lt.1 hlt)⟩
      · obtain ⟨u, hu, rfl⟩ := hmem hnil
        exact ⟨u, List.mem_append_left _ hu, rfl⟩

/-- One echo more. -/
theorem echo (h : s.Inv ttl rs) (r : EchoReply) : (hopEcho s r).Inv ttl (rs ++ [r]) := by
  cases hcounts : r.counts with
  | false =>
    have hheard : heard (rs ++ [r]) = heard rs := by rw [heard_append, hcounts]; rfl
    have hrtts : rtts (rs ++ [r]) = rtts rs := by rw [rtts, hheard]; rfl
    rw [hopEcho, hcounts]
    constructor
    all_goals
      simp only [hheard, hrtts, List.length_append, List.length_singleton, Bool.false_eq_true, if_false]
    · exact h.ttl_eq
    · exact h.name
    · rw [h.sent]
    · exact h.recv
    · exact h.addr
    · exact h.best_le
    · exact h.best_mem
    · exact h.best_none
    · exact h.le_worst
    · exact h.worst_mem
    · exact h.worst_none
    · exact h.avg
    · exact h.sum
    · rw [h.reached, List.any_append]
      simp [EchoReply.arrived_of_not_counts hcounts]
  | true =>
    have hheard : heard (rs ++ [r]) = heard rs ++ [r] := by rw [heard_append, hcounts]; rfl
    have hrtts : rtts (rs ++ [r]) = rtts rs ++ [r.rtt] := by rw [rtts, hheard, List.map_append]; rfl
    have hnil : heard rs ≠ [] ↔ rtts rs ≠ [] := not_congr List.map_eq_nil_iff.symm
    have hbest := best_append h.best_le (fun hne => h.best_mem (hnil.2 hne)) (t := r.rtt) fun hnone => by
      rw [h.best_none (List.map_eq_nil_iff.1 hnone)]
      exact r.rtt_le
    have hworst := worst_append h.le_worst (fun hne => h.worst_mem (hnil.2 hne)) (t := r.rtt) fun hnone => by
      rw [h.worst_none (List.map_eq_nil_iff.1 hnone)]
      omega
    have hne : heard rs ++ [r] ≠ [] := List.append_ne_nil_of_right_ne_nil _ (List.cons_ne_nil _ _)
    rw [hopEcho, hcounts]
    constructor
    all_goals simp only [hheard, hrtts, List.length_append, List.length_singleton, if_true]
    · exact h.ttl_eq
    · exact h.name
    · rw [h.sent]
    · rw [h.recv]
    · rw [List.map_append, h.addr]
      exact addr_append _ _
    · exact hbest.1
    · exact fun _ => hbest.2
    · exact fun hnone => absurd hnone hne
    · exact hworst.1
    · exact fun _ => hworst.2
    · exact fun hnone => absurd hnone hne
    · exact h.avg
    · rw [h.sum, sumDouble_append]
    · rw [h.reached, List.any_append]
      simp [EchoReply.arrived_of_counts hcounts]

end HopScan.Inv

section Report

variable (w : PathWorld) (o : PmxPathOpts)

/-- What comes back from the echoes of a hop. -/
def hopReplies (ttl : ℕ) : List EchoReply := (List.range o.cycleCount).map (icmpProbe w o ttl)

/-- A hop of the result against the replies to its echoes.  The average is the double next to the exact one
while the times sum up to less than `2 ^ 53`. -/
structure HopReport (ttl : ℕ) (hop : PmxHop) : Prop where
  ttl_eq : hop.ttl = ttl
  sent : hop.sent = o.cycleCount
  recv : hop.recv = (heard (hopReplies w o ttl)).length
  addr : hop.addr =
    (((heard (hopReplies w o ttl)).map EchoReply.addr).find? fun a => !a.isEmpty).getD CBuf.empty
  name : hop.name =
    if o.resolveNames && !hop.addr.isEmpty then w.reverseDns hop.addr else CBuf.empty
  silent : hop.recv = 0 → hop.bestMs = -1 ∧ hop.worstMs = -1 ∧ hop.avgMs = 0
  best : 0 < hop.recv →
    (∀ t ∈ rtts (hopReplies w o ttl), hop.bestMs ≤ t) ∧ ∃ t ∈ rtts (hopReplies w o ttl), hop.bestMs = t
  worst : 0 < hop.recv →
    (∀ t ∈ rtts (hopReplies w o ttl), t ≤ hop.worstMs) ∧ ∃ t ∈ rtts (hopReplies w o ttl), hop.worstMs = t
  avg : 0 < hop.recv → (rtts (hopReplies w o ttl)).sum < 2 ^ 53 →
    hop.avgMs = roundDouble ((rtts (hopReplies w o ttl)).sum / hop.recv)
  between : 0 < hop.recv → (rtts (hopReplies w o ttl)).sum < 2 ^ 53 →
    hop.bestMs ≤ hop.avgMs ∧ hop.avgMs ≤ hop.worstMs
  loss : hop.lossPct = roundDouble (100 * ((hop.sent : ℚ) - hop.recv) / hop.sent)
  percent : 0 ≤ hop.lossPct ∧ hop.lossPct ≤ 100
  isDest : hop.isDest = true ↔ ∃ r ∈ hopReplies w o ttl, r.arrived = true

variable {w o} {ttl : ℕ}

theorem hopEchoes_inv (n : ℕ) :
    ∀ {c : ℕ} {s : HopScan} {rs : List EchoReply}, s.Inv ttl rs →
      (hopEchoes w o ttl c n s).Inv ttl (rs ++ (List.range' c n).map (icmpProbe w o ttl)) := by
  induction n with
  | zero =>
    intro c s rs h
    simpa [hopEchoes] using h
  | succ n ih =>
    intro c s rs h
    have hnext := ih (c := c + 1) (h.echo (icmpProbe w o ttl c))
    rw [List.append_assoc] at hnext
    exact hnext

/-- The hop as the outer loop leaves it. -/
def scannedHop (w : PathWorld) (o : PmxPathOpts) (ttl : ℕ) : HopScan :=
  hopEchoes w o ttl 0 o.cycleCount (hopScanStart ttl)

theorem scannedHop_inv : (scannedHop w o ttl).Inv ttl (hopReplies w o ttl) := by
  have h := hopEchoes_inv (w := w) (o := o) o.cycleCount (c := 0) (HopScan.Inv.start ttl)
  rwa [List.nil_append, ← List.range_eq_range'] at h

theorem cycleCount_pos : 0 < o.cycleCount := by
  rw [PmxPathOpts.cycleCount]
  split_ifs with h
  · omega
  · decide

/-- A sum lies between the least and the greatest of its terms, times their number. -/
theorem sum_between {ts : List ℕ} {b u : ℤ} (hb : ∀ t ∈ ts, b ≤ t) (hu : ∀ t ∈ ts, (t : ℤ) ≤ u) :
    (b : ℚ) * ts.length ≤ ts.sum ∧ (ts.sum : ℚ) ≤ u * ts.length := by
  have hmap : ((ts.map (Nat.cast : ℕ → ℚ)).sum) = (ts.sum : ℚ) := (Nat.cast_list_sum ts).symm
  have hlow := List.card_nsmul_le_sum (ts.map (Nat.cast : ℕ → ℚ)) b fun x hx => by
    obtain ⟨t, ht, rfl⟩ := List.mem_map.1 hx
    exact_mod_cast hb t ht
  have hhigh := List.sum_le_card_nsmul (ts.map (Nat.cast : ℕ → ℚ)) u fun x hx => by
    obtain ⟨t, ht, rfl⟩ := List.mem_map.1 hx
    exact_mod_cast hu t ht
  rw [hmap, List.length_map, nsmul_eq_mul, mul_comm] at hlow hhigh
  exact ⟨hlow, hhigh⟩

theorem cycleCount_le : (o.cycleCount : ℤ) ≤ intMax := by
  rw [PmxPathOpts.cycleCount]
  split_ifs with h
  · rw [Int.toNat_of_nonneg h.le]
    exact o.cycles_le
  · decide

theorem lt_of_mem_rtts {rs : List EchoReply} {t : ℕ} (h : t ∈ rtts rs) : t < 2 ^ 53 := by
  obtain ⟨r, -, rfl⟩ := List.mem_map.1 h
  have hle := r.rtt_le
  rw [intMax] at hle
  omega

/-- The double next to the average stays between the extremes, which are doubles themselves. -/
theorem avg_between {rs : List EchoReply} {b u : ℤ} {n : ℕ} (hpos : 0 < n)
    (hsum : (b : ℚ) * n ≤ (rtts rs).sum ∧ ((rtts rs).sum : ℚ) ≤ u * n)
    (hb : ∃ t ∈ rtts rs, b = t) (hu : ∃ t ∈ rtts rs, u = t) :
    (b : ℚ) ≤ roundDouble ((rtts rs).sum / n) ∧ roundDouble ((rtts rs).sum / n) ≤ u := by
  obtain ⟨t, ht, rfl⟩ := hb
  obtain ⟨v, hv, rfl⟩ := hu
  have hn : (0 : ℚ) < n := by exact_mod_cast hpos
  rw [Int.cast_natCast, Int.cast_natCast] at *
  constructor
  · exact le_roundDouble (lt_of_mem_rtts ht) ((le_div_iff₀ hn).2 hsum.1)
  · exact roundDouble_le (lt_of_mem_rtts hv) (by positivity) ((div_le_iff₀ hn).2 hsum.2)

/-- The numerator of the loss is exact. -/
theorem lossPct_eq {sent recv : ℕ} (hle : recv ≤ sent) (hsent : (sent : ℤ) ≤ intMax) :
    roundDouble (roundDouble (100 * ((sent : ℚ) - recv)) / sent) =
      roundDouble (100 * ((sent : ℚ) - recv) / sent) := by
  rw [intMax] at hsent
  have hexact := roundDouble_natCast (n := 100 * (sent - recv)) (by omega)
  rw [Nat.cast_mul, Nat.cast_sub hle, Nat.cast_ofNat] at hexact
  rw [hexact]

theorem percent_between {sent recv : ℕ} (hle : recv ≤ sent) (hpos : 0 < sent) :
    0 ≤ roundDouble (100 * ((sent : ℚ) - recv) / sent) ∧
      roundDouble (100 * ((sent : ℚ) - recv) / sent) ≤ 100 := by
  have hsent : (0 : ℚ) < sent := by exact_mod_cast hpos
  have hleQ : (recv : ℚ) ≤ sent := by exact_mod_cast hle
  have hrecv : (0 : ℚ) ≤ recv := Nat.cast_nonneg _
  have hzero : 0 ≤ 100 * ((sent : ℚ) - recv) / sent := div_nonneg (by linarith) hsent.le
  have hhundred : 100 * ((sent : ℚ) - recv) / sent ≤ 100 := by
    rw [div_le_iff₀ hsent]
    linarith
  exact ⟨by exact_mod_cast le_roundDouble (n := 0) (by norm_num) (by exact_mod_cast hzero),
    by exact_mod_cast roundDouble_le (n := 100) (by norm_num) hzero (by exact_mod_cast hhundred)⟩

/-- **What is filled in agrees with the replies.** -/
theorem hopFinish_report : HopReport w o ttl (hopFinish w o (scannedHop w o ttl)) := by
  have h := (scannedHop_inv : (scannedHop w o ttl).Inv ttl (hopReplies w o ttl))
  have hcycles : (scannedHop w o ttl).hop.sent = o.cycleCount := by
    rw [h.sent, hopReplies, List.length_map, List.length_range]
  have hsent : 0 < (scannedHop w o ttl).hop.sent := hcycles ▸ cycleCount_pos
  have hsentLe : ((scannedHop w o ttl).hop.sent : ℤ) ≤ intMax := hcycles ▸ cycleCount_le
  have hle : (scannedHop w o ttl).hop.recv ≤ (scannedHop w o ttl).hop.sent := by
    rw [h.recv, h.sent]
    exact List.length_filter_le _ _
  have hheard : 0 < (scannedHop w o ttl).hop.recv → heard (hopReplies w o ttl) ≠ [] := by
    rw [h.recv]
    exact List.ne_nil_of_length_pos
  have hlength : (rtts (hopReplies w o ttl)).length = (scannedHop w o ttl).hop.recv := by
    rw [rtts, List.length_map, h.recv]
  have hsum := sum_between h.best_le h.le_worst
  rw [hlength] at hsum
  generalize scannedHop w o ttl = s at h hcycles hsent hsentLe hle hheard hlength hsum
  constructor
  all_goals simp only [hopFinish]
  · exact h.ttl_eq
  · exact hcycles
  · exact h.recv
  · exact h.addr
  · exact if_congr Iff.rfl rfl h.name
  · intro hnone
    rw [if_neg (by omega), if_neg (by omega), if_neg (by omega)]
    exact ⟨rfl, rfl, h.avg⟩
  · intro hpos
    rw [if_pos hpos]
    exact ⟨h.best_le, h.best_mem (hheard hpos)⟩
  · intro hpos
    rw [if_pos hpos]
    exact ⟨h.le_worst, h.worst_mem (hheard hpos)⟩
  · intro hpos hfits
    rw [if_pos hpos, h.sum, sumDouble_eq _ hfits]
  · intro hpos hfits
    rw [if_pos hpos, if_pos hpos, if_pos hpos, h.sum, sumDouble_eq _ hfits]
    exact avg_between hpos hsum (h.best_mem (hheard hpos)) (h.worst_mem (hheard hpos))
  · rw [if_pos hsent, lossPct_eq hle hsentLe]
  · rw [if_pos hsent, lossPct_eq hle hsentLe]
    exact percent_between hle hsent
  · rw [h.reached, List.any_eq_true]

/-- The target answers at this TTL. -/
def Answers (w : PathWorld) (o : PmxPathOpts) (ttl : ℕ) : Prop :=
  ∃ r ∈ hopReplies w o ttl, r.arrived = true

theorem scannedHop_reached : (scannedHop w o ttl).reached = true ↔ Answers w o ttl := by
  rw [scannedHop_inv.reached, List.any_eq_true]
  rfl

/-- The outer loop runs for `k` hops, up to the first where the target answers or to the last. -/
theorem mtrHops_eq (n : ℕ) : ∀ (ttl : ℕ) (out : PmxMtrResult), ∃ k ≤ n,
    (mtrHops w o ttl n out).hops =
      out.hops ++ (List.range' ttl k).map (fun t => hopFinish w o (scannedHop w o t)) ∧
    (∀ j, j + 1 < k → ¬ Answers w o (ttl + j)) ∧
    ((mtrHops w o ttl n out).reached = true ∧ 0 < k ∧ Answers w o (ttl + (k - 1)) ∨
      (mtrHops w o ttl n out).reached = out.reached ∧ k = n ∧
        ∀ j, j < n → ¬ Answers w o (ttl + j)) := by
  induction n with
  | zero =>
    intro ttl out
    exact ⟨0, Nat.le_refl 0, (List.append_nil _).symm, nofun, Or.inr ⟨rfl, rfl, nofun⟩⟩
  | succ n ih =>
    intro ttl out
    have heq : mtrHops w o ttl (n + 1) out =
        if (scannedHop w o ttl).reached then
          { out with hops := out.hops ++ [hopFinish w o (scannedHop w o ttl)], reached := true }
        else mtrHops w o (ttl + 1) n
          { out with hops := out.hops ++ [hopFinish w o (scannedHop w o ttl)] } := rfl
    rw [heq]
    by_cases hreached : (scannedHop w o ttl).reached = true
    · rw [if_pos hreached]
      exact ⟨1, by omega, rfl, fun j hj => absurd hj (by omega),
        Or.inl ⟨rfl, Nat.one_pos, scannedHop_reached.1 hreached⟩⟩
    · rw [if_neg hreached]
      have hfirst : ¬ Answers w o ttl := fun h => hreached (scannedHop_reached.2 h)
      have hshift : ∀ m, (∀ j, j < m → ¬ Answers w o (ttl + 1 + j)) →
          ∀ j, j < m + 1 → ¬ Answers w o (ttl + j) := by
        intro m hrest j hj
        cases j with
        | zero => exact hfirst
        | succ j =>
          have := hrest j (by omega)
          rwa [Nat.add_assoc, Nat.add_comm 1] at this
      obtain ⟨k, hk, hhops, hbefore, hend⟩ := ih (ttl + 1)
        { out with hops := out.hops ++ [hopFinish w o (scannedHop w o ttl)] }
      refine ⟨k + 1, by omega, ?_, ?_, ?_⟩
      · rw [hhops, List.append_assoc]
        rfl
      · cases k with
        | zero => intro j hj; omega
        | succ k =>
          intro j hj
          exact hshift k (fun i hi => hbefore i (by omega)) j (by omega)
      · rcases hend with ⟨hr, hpos, hanswers⟩ | ⟨hr, rfl, hnone⟩
        · refine Or.inl ⟨hr, Nat.succ_pos k, ?_⟩
          rwa [Nat.add_sub_cancel, show ttl + k = ttl + 1 + (k - 1) by omega]
        · exact Or.inr ⟨hr, rfl, hshift _ hnone⟩

theorem hopLimit_le : o.hopLimit ≤ pmxMaxHops := by
  rw [PmxPathOpts.hopLimit]
  split_ifs with h
  · omega
  · exact Nat.le_refl _

/-- The hops of a scan that has run: those of TTL 1, 2, ..., no more than there is room for, each as the
replies to its echoes were.  It stops at the first hop where the target answers; without one it has looked at
them all. -/
structure ScanReport (w : PathWorld) (o : PmxPathOpts) (hops : List PmxHop) (reached : Bool) : Prop where
  length_le : hops.length ≤ o.hopLimit
  room : o.hopLimit ≤ pmxMaxHops
  hop : ∀ i (hi : i < hops.length), HopReport w o (i + 1) hops[i]
  earlier : ∀ ttl, 0 < ttl → ttl < hops.length → ¬ Answers w o ttl
  stops : if reached then 0 < hops.length ∧ Answers w o hops.length
    else hops.length = o.hopLimit ∧ ∀ ttl, 0 < ttl → ttl ≤ o.hopLimit → ¬ Answers w o ttl

theorem mtrHops_report {out : PmxMtrResult} (hhops : out.hops = []) (hreached : out.reached = false) :
    ScanReport w o (mtrHops w o 1 o.hopLimit out).hops (mtrHops w o 1 o.hopLimit out).reached := by
  obtain ⟨k, hk, hscanned, hbefore, hend⟩ := mtrHops_eq (w := w) (o := o) o.hopLimit 1 out
  rw [hhops, List.nil_append] at hscanned
  have hlength : (mtrHops w o 1 o.hopLimit out).hops.length = k := by
    rw [hscanned, List.length_map, List.length_range']
  have hone : ∀ ttl, 0 < ttl → 1 + (ttl - 1) = ttl := fun ttl h => by omega
  refine ⟨by omega, hopLimit_le, ?_, ?_, ?_⟩
  · intro i hi
    simp only [hscanned, List.getElem_map, List.getElem_range', Nat.one_mul, Nat.add_comm 1]
    exact hopFinish_report
  · intro ttl hpos hlt
    have := hbefore (ttl - 1) (by omega)
    rwa [hone ttl hpos] at this
  · rw [hlength]
    rcases hend with ⟨hr, hpos, hanswers⟩ | ⟨hr, rfl, hnone⟩
    · rw [if_pos hr]
      rw [hone k hpos] at hanswers
      exact ⟨hpos, hanswers⟩
    · rw [if_neg (by rw [hr, hreached]; exact Bool.false_ne_true)]
      refine ⟨rfl, fun ttl hpos hle => ?_⟩
      have := hnone (ttl - 1) (by omega)
      rwa [hone ttl hpos] at this

/-- A scan fails before its loop, or runs it. -/
theorem pmxMtr_cases (w : PathWorld) (o : PmxPathOpts) (host : List UInt8) :
    (¬ ((w.resolve host).isSome = true ∧ w.icmpOpens = true) ∧ (pmxMtr w o host).status ≠ .ok ∧
        (pmxMtr w o host).hops = [] ∧ (pmxMtr w o host).reached = false) ∨
      ((w.resolve host).isSome = true ∧ w.icmpOpens = true) ∧ ∃ out : PmxMtrResult,
        out.hops = [] ∧ out.reached = false ∧
        pmxMtr w o host = { mtrHops w o 1 o.hopLimit out with status := .ok } := by
  unfold pmxMtr
  cases w.resolve host with
  | none => exact Or.inl ⟨by simp, by simp, rfl, rfl⟩
  | some addr =>
    cases w.icmpOpens with
    | false => exact Or.inl ⟨by simp, by simp, rfl, rfl⟩
    | true => exact Or.inr ⟨⟨rfl, rfl⟩, { mtrStart host with targetAddr := addr }, rfl, rfl, rfl⟩

/-- **What a scan reports.**  It succeeds exactly if the name has an address and the ICMP handle opens; else
it reports no hop. -/
theorem pmxMtr_report (w : PathWorld) (o : PmxPathOpts) (host : List UInt8) :
    let r := pmxMtr w o host
    (r.status = .ok ↔ (w.resolve host).isSome = true ∧ w.icmpOpens = true) ∧
      if r.status = .ok then ScanReport w o r.hops r.reached else r.hops = [] ∧ r.reached = false := by
  intro r
  rcases pmxMtr_cases w o host with ⟨hopen, hstatus, hnone⟩ | ⟨hopen, out, hhops, hreached, hr⟩
  · exact ⟨⟨fun h => absurd h hstatus, fun h => absurd h hopen⟩, by rwa [if_neg hstatus]⟩
  · have hstatus : r.status = .ok := by simp only [r, hr]
    refine ⟨⟨fun _ => hopen, fun _ => hstatus⟩, ?_⟩
    rw [if_pos hstatus]
    simp only [r, hr]
    exact mtrHops_report hhops hreached

/-- A router answers at TTL 1, and the target behind it; both answer late the second time. -/
def oneRouter : PathWorld where
  resolve _ := some CBuf.empty
  icmpOpens := true
  echo ttl _ _ c :=
    ⟨c != 2, if ttl = 1 then .ttlExpired else .success, CBuf.empty, if c = 1 then 9 else 2, by
      split_ifs <;> decide⟩
  reverseDns _ := CBuf.empty

example :
    ((pmxMtr oneRouter pmxPathOptsDefaults []).hops.map fun h => (h.sent, h.recv, h.bestMs, h.worstMs)) =
    [(3, 2, 2, 9), (3, 2, 2, 9)] := by decide +kernel

/-- A third is no double. -/
example : ((pmxMtr oneRouter pmxPathOptsDefaults []).hops.map fun h => (h.avgMs, h.lossPct)) =
    List.replicate 2 (11 / 2, 4691249611844267 / 2 ^ 47) := by decide +kernel

end Report

end ProxiMight
