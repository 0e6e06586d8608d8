import ProxiMight.Types
import ProxiMight.CString

/-!
# The kill switch (`pmx_lockdown.c`)

The controller is a state machine with hysteresis over a pluggable firewall.  The firewall is a record
of operations on a state of its own, so that nothing here depends on which one is plugged in;
`PmxFirewall.Lawful` is what a firewall has to keep to, and the stub of the source keeps to it.

Two blocks of the source occur again and again: engaging a firewall that is not engaged yet
(`ensureEngaged`) and disengaging one that is (`releaseFw`).  Each has one lemma for what it leaves
behind, and the transitions below are put together from them.
-/

namespace ProxiMight

open CString

/-- `pmx_lockdown_mode`; a profile file may carry any other integer. -/
inductive PmxLockdownMode
  | off
  | failClosed
  | failBackup
  | failOpen
  | other (raw : Undeclared 3)
  deriving DecidableEq

/-- `pmx_lockdown_policy`. -/
structure PmxLockdownPolicy where
  mode : PmxLockdownMode
  blockUntilVerified : Bool
  blockDnsLeak : Bool
  blockIpv6 : Bool
  healthIntervalMs : ℤ
  failuresBeforeTrip : ℤ
  successesBeforeRestore : ℤ
  deriving DecidableEq

def pmxLockdownPolicyDefaults : PmxLockdownPolicy where
  mode := .failClosed
  blockUntilVerified := true
  blockDnsLeak := true
  blockIpv6 := true
  healthIntervalMs := 4000
  failuresBeforeTrip := 2
  successesBeforeRestore := 2

/-- `pmx_lockdown_state`. -/
inductive PmxLockdownState
  | inactive
  | armedHealthy
  | trippedBlocking
  | failingOver
  | failedOpen
  deriving DecidableEq, Repr

/-! ### Firewalls -/

/-- `PMX_MAX_ALLOWLIST`. -/
def pmxMaxAllowlist : ℕ := 32

/-- `pmx_fw_endpoint`; `hostBytes` is the whole `host` array, with what follows the terminator. -/
structure PmxFwEndpoint where
  hostBytes : List UInt8
  port : PmxPort
  deriving DecidableEq

/-- The host name in the array. -/
def PmxFwEndpoint.host (ep : PmxFwEndpoint) : List UInt8 := cstr ep.hostBytes

/-- `pmx_firewall`, by its operations on the state `φ` of the object. -/
structure PmxFirewall (φ : Type) where
  engage : φ → List PmxFwEndpoint → PmxLockdownPolicy → φ × PmxStatus
  disengage : φ → φ × PmxStatus
  isEngaged : φ → Bool

/-- A successful engage engages, a failed one leaves the firewall engaged or not as it was, and
disengage disengages. -/
structure PmxFirewall.Lawful {φ : Type} (F : PmxFirewall φ) : Prop where
  engage_ok : ∀ fw allow policy, (F.engage fw allow policy).2 = .ok →
    F.isEngaged (F.engage fw allow policy).1 = true
  engage_failed : ∀ fw allow policy, (F.engage fw allow policy).2 ≠ .ok →
    F.isEngaged (F.engage fw allow policy).1 = F.isEngaged fw
  disengage_off : ∀ fw, F.isEngaged (F.disengage fw).1 = false

/-- `stub_fw`. -/
structure StubFw where
  engaged : Bool
  allow : List PmxFwEndpoint
  deriving DecidableEq

def stubEngage (_ : StubFw) (allow : List PmxFwEndpoint) (_ : PmxLockdownPolicy) :
    StubFw × PmxStatus :=
  (⟨true, allow.take pmxMaxAllowlist⟩, .ok)

def stubDisengage (_ : StubFw) : StubFw × PmxStatus := (⟨false, []⟩, .ok)

def stubIsEngaged (fw : StubFw) : Bool := fw.engaged

/-- `pmx_firewall_stub_create`, the operations. -/
def pmxFirewallStub : PmxFirewall StubFw := ⟨stubEngage, stubDisengage, stubIsEngaged⟩

/-- `pmx_firewall_stub_create`, the object. -/
def stubFwCreate : StubFw := ⟨false, []⟩

theorem pmxFirewallStub_lawful : pmxFirewallStub.Lawful where
  engage_ok := fun _ _ _ _ => rfl
  engage_failed := fun _ _ _ h => absurd rfl h
  disengage_off := fun _ => rfl

/-! ### The controller -/

/-- `struct pmx_lockdown`; `fw = none` is a NULL firewall. -/
structure PmxLockdown (φ : Type) where
  policy : PmxLockdownPolicy
  fw : Option φ
  allow : List PmxFwEndpoint
  state : PmxLockdownState
  fails : ℤ
  succ : ℤ
  armed : Bool

variable {φ : Type}

/-- A NULL policy stands for the defaults. -/
def pmxLockdownCreate (policy : Option PmxLockdownPolicy) (fw : Option φ) : PmxLockdown φ where
  policy := policy.getD pmxLockdownPolicyDefaults
  fw := fw
  allow := []
  state := .inactive
  fails := 0
  succ := 0
  armed := false

def modeBlocks : PmxLockdownMode → Bool
  | .failClosed => true
  | .failBackup => true
  | _ => false

def sanitizeMode : PmxLockdownMode → PmxLockdownMode
  | .off => .off
  | .failClosed => .failClosed
  | .failBackup => .failBackup
  | .failOpen => .failOpen
  | .other _ => .failClosed

namespace PmxLockdown

variable (F : PmxFirewall φ) (ld : PmxLockdown φ)

/-- `ld->fw != NULL && ld->fw->is_engaged(ld->fw)`. -/
def engaged : Bool := ld.fw.any F.isEngaged

/-- `if (ld->fw != NULL && ld->fw->is_engaged(ld->fw)) ld->fw->disengage(ld->fw);` -/
def releaseFw : PmxLockdown φ :=
  if ld.engaged F then { ld with fw := ld.fw.map fun fw => (F.disengage fw).1 } else ld

/-- A NULL firewall is a failure to enforce, not a silent success. -/
def applyEngage : PmxLockdown φ × PmxStatus :=
  match ld.fw with
  | none => (ld, .errFirewall)
  | some fw =>
    let r := F.engage fw ld.allow ld.policy
    ({ ld with fw := some r.1 }, r.2)

/-- The hysteresis counters start over. -/
def resetCounters : PmxLockdown φ := { ld with fails := 0, succ := 0 }

/-- `if (ld->fw == NULL || !ld->fw->is_engaged(ld->fw)) st = apply_engage(ld);`, from `PMX_OK`. -/
def ensureEngaged : PmxLockdown φ × PmxStatus :=
  if ld.engaged F then (ld, .ok) else ld.applyEngage F

end PmxLockdown

open PmxLockdown

variable (F : PmxFirewall φ)

def lockdownReconcile (ld : PmxLockdown φ) : PmxLockdown φ × PmxStatus :=
  let ld := ld.resetCounters
  if ld.policy.mode = .off then
    ({ ld.releaseFw F with state := .inactive }, .ok)
  else if modeBlocks ld.policy.mode then
    let r := ld.ensureEngaged F
    if r.2 = .ok then
      ({ r.1 with
          state := if ld.policy.blockUntilVerified then .trippedBlocking else .armedHealthy }, .ok)
    -- we meant to block and could not: say so
    else ({ r.1 with state := .failedOpen }, r.2)
  else ({ ld.releaseFw F with state := .armedHealthy }, .ok)

def pmxLockdownSetPolicy (ld : PmxLockdown φ) (policy : PmxLockdownPolicy) : PmxLockdown φ :=
  let ld' := { ld with policy := { policy with mode := sanitizeMode policy.mode } }
  -- only an actual change of mode reconciles: the settings panel calls this on every frame
  if ld.armed && ld'.policy.mode != ld.policy.mode then (lockdownReconcile F ld').1 else ld'

def pmxLockdownSetAllowlist (ld : PmxLockdown φ) (eps : List PmxFwEndpoint) : PmxLockdown φ :=
  let ld := { ld with allow := eps.take pmxMaxAllowlist }
  if ld.armed && ld.engaged F then (ld.applyEngage F).1 else ld

def pmxLockdownArm (ld : PmxLockdown φ) : PmxLockdown φ × PmxStatus :=
  lockdownReconcile F
    { ld with armed := true, policy := { ld.policy with mode := sanitizeMode ld.policy.mode } }

/-- Returns `PMX_OK`. -/
def pmxLockdownDisarm (ld : PmxLockdown φ) : PmxLockdown φ :=
  { ({ ld with armed := false }).releaseFw F with state := .inactive }

namespace PmxLockdown

/-- The hysteresis counters after one observation. -/
def countHealth (ld : PmxLockdown φ) (healthy : Bool) : PmxLockdown φ :=
  if healthy then { ld with succ := ld.succ + 1, fails := 0 }
  else { ld with fails := ld.fails + 1, succ := 0 }

/-- The proxy recovered. -/
def restore (ld : PmxLockdown φ) : PmxLockdown φ :=
  { (if ld.policy.mode = .failOpen then ld.releaseFw F else ld) with state := .armedHealthy }

/-- The arms of `PMX_LOCKDOWN_FAIL_CLOSED` and `PMX_LOCKDOWN_FAIL_BACKUP`, by the state they report.
A failed engage is not reported as a blocking state. -/
def tripTo (ld : PmxLockdown φ) (blocking : PmxLockdownState) : PmxLockdown φ :=
  let r := ld.ensureEngaged F
  { r.1 with state := if r.2 = .ok then blocking else .failedOpen }

/-- The proxy went down: act per policy. -/
def trip (ld : PmxLockdown φ) : PmxLockdown φ :=
  match ld.policy.mode with
  | .failClosed => ld.tripTo F .trippedBlocking
  | .failBackup => ld.tripTo F .failingOver
  | .failOpen => { ld.releaseFw F with state := .failedOpen }
  | _ => ld

/-- The guard of the recovery branch. -/
def restores (ld : PmxLockdown φ) (healthy : Bool) : Bool :=
  healthy && ld.state != .armedHealthy && decide (ld.succ ≥ ld.policy.successesBeforeRestore)

/-- The guard of the trip branch. -/
def trips (ld : PmxLockdown φ) (healthy : Bool) : Bool :=
  !healthy && ld.state == .armedHealthy && decide (ld.fails ≥ ld.policy.failuresBeforeTrip)

end PmxLockdown

/-- Returns `PMX_OK`; the second component is `*changed`. -/
def pmxLockdownOnHealth (ld : PmxLockdown φ) (healthy : Bool) : PmxLockdown φ × Bool :=
  if !ld.armed || decide (ld.policy.mode = .off) then (ld, false)
  else
    let ld₁ := ld.countHealth healthy
    let ld₂ :=
      if ld₁.restores healthy then ld₁.restore F
      else if ld₁.trips healthy then ld₁.trip F
      else ld₁
    (ld₂, ld₂.state != ld.state)

def pmxLockdownGetState (ld : PmxLockdown φ) : PmxLockdownState := ld.state

/-! ### What an operation leaves behind -/

namespace PmxLockdown

variable {F : PmxFirewall φ} (ld : PmxLockdown φ)

@[simp] theorem engaged_set_state (st : PmxLockdownState) :
    ({ ld with state := st }).engaged F = ld.engaged F := rfl

@[simp] theorem releaseFw_policy : (ld.releaseFw F).policy = ld.policy := by
  rw [releaseFw]; split_ifs <;> rfl

@[simp] theorem releaseFw_allow : (ld.releaseFw F).allow = ld.allow := by
  rw [releaseFw]; split_ifs <;> rfl

@[simp] theorem releaseFw_armed : (ld.releaseFw F).armed = ld.armed := by
  rw [releaseFw]; split_ifs <;> rfl

@[simp] theorem releaseFw_succ : (ld.releaseFw F).succ = ld.succ := by
  rw [releaseFw]; split_ifs <;> rfl

@[simp] theorem releaseFw_fails : (ld.releaseFw F).fails = ld.fails := by
  rw [releaseFw]; split_ifs <;> rfl

theorem releaseFw_engaged (hF : F.Lawful) : (ld.releaseFw F).engaged F = false := by
  rw [releaseFw]
  split_ifs with h
  · show (ld.fw.map fun fw => (F.disengage fw).1).any F.isEngaged = false
    cases ld.fw with
    | none => rfl
    | some fw => exact hF.disengage_off fw
  · simpa using h

@[simp] theorem applyEngage_policy : (ld.applyEngage F).1.policy = ld.policy := by
  rw [applyEngage]; split <;> rfl

@[simp] theorem applyEngage_allow : (ld.applyEngage F).1.allow = ld.allow := by
  rw [applyEngage]; split <;> rfl

@[simp] theorem applyEngage_armed : (ld.applyEngage F).1.armed = ld.armed := by
  rw [applyEngage]; split <;> rfl

@[simp] theorem applyEngage_state : (ld.applyEngage F).1.state = ld.state := by
  rw [applyEngage]; split <;> rfl

@[simp] theorem applyEngage_succ : (ld.applyEngage F).1.succ = ld.succ := by
  rw [applyEngage]; split <;> rfl

@[simp] theorem applyEngage_fails : (ld.applyEngage F).1.fails = ld.fails := by
  rw [applyEngage]; split <;> rfl

theorem applyEngage_engaged (hF : F.Lawful) :
    (ld.applyEngage F).1.engaged F
      = (decide ((ld.applyEngage F).2 = .ok) || ld.engaged F) := by
  rw [applyEngage]
  split
  · next hfw => simp [engaged, hfw]
  · next fw hfw =>
    by_cases h : (F.engage fw ld.allow ld.policy).2 = .ok
    · have hon := hF.engage_ok fw ld.allow ld.policy h
      simp [engaged, h, hon]
    · have hsame := hF.engage_failed fw ld.allow ld.policy h
      simp [engaged, hfw, h, hsame]

@[simp] theorem ensureEngaged_policy : (ld.ensureEngaged F).1.policy = ld.policy := by
  rw [ensureEngaged]; split_ifs <;> simp

@[simp] theorem ensureEngaged_allow : (ld.ensureEngaged F).1.allow = ld.allow := by
  rw [ensureEngaged]; split_ifs <;> simp

@[simp] theorem ensureEngaged_armed : (ld.ensureEngaged F).1.armed = ld.armed := by
  rw [ensureEngaged]; split_ifs <;> simp

@[simp] theorem ensureEngaged_succ : (ld.ensureEngaged F).1.succ = ld.succ := by
  rw [ensureEngaged]; split_ifs <;> simp

@[simp] theorem ensureEngaged_fails : (ld.ensureEngaged F).1.fails = ld.fails := by
  rw [ensureEngaged]; split_ifs <;> simp

/-- `ensureEngaged` tells the truth: it reports `PMX_OK` exactly when the firewall ends up engaged. -/
theorem ensureEngaged_engaged (hF : F.Lawful) :
    (ld.ensureEngaged F).1.engaged F = decide ((ld.ensureEngaged F).2 = .ok) := by
  rw [ensureEngaged]
  split_ifs with h
  · simpa using h
  · rw [applyEngage_engaged ld hF, Bool.not_eq_true] at *
    rw [h, Bool.or_false]

end PmxLockdown

/-- What `lockdown_reconcile` does to the state and the firewall, by the mode. -/
theorem lockdownReconcile_cases {F : PmxFirewall φ} (hF : F.Lawful) (ld : PmxLockdown φ) :
    let r := (lockdownReconcile F ld).1
    (ld.policy.mode = .off ∧ r.state = .inactive ∧ r.engaged F = false) ∨
    (modeBlocks ld.policy.mode = true ∧ r.state = .failedOpen ∧ r.engaged F = false) ∨
    (modeBlocks ld.policy.mode = true ∧ r.engaged F = true ∧
      r.state = if ld.policy.blockUntilVerified then .trippedBlocking else .armedHealthy) ∨
    (ld.policy.mode ≠ .off ∧ modeBlocks ld.policy.mode = false ∧ r.state = .armedHealthy ∧
      r.engaged F = false) := by
  have hpol : ld.resetCounters.policy = ld.policy := rfl
  by_cases hoff : ld.policy.mode = .off
  · refine Or.inl ⟨hoff, ?_⟩
    simp only [lockdownReconcile, hpol, if_pos hoff]
    exact ⟨trivial, releaseFw_engaged _ hF⟩
  by_cases hblock : modeBlocks ld.policy.mode = true
  · have hon := ensureEngaged_engaged ld.resetCounters hF
    by_cases hst : (ld.resetCounters.ensureEngaged F).2 = .ok
    · refine Or.inr (Or.inr (Or.inl ⟨hblock, ?_⟩))
      simp only [lockdownReconcile, hpol, if_neg hoff, if_pos hblock, if_pos hst]
      exact ⟨by rw [engaged_set_state, hon, hst]; rfl, trivial⟩
    · refine Or.inr (Or.inl ⟨hblock, ?_⟩)
      simp only [lockdownReconcile, hpol, if_neg hoff, if_pos hblock, if_neg hst]
      exact ⟨trivial, by rw [engaged_set_state, hon]; exact decide_eq_false hst⟩
  · refine Or.inr (Or.inr (Or.inr ⟨hoff, by simpa using hblock, ?_⟩))
    simp only [lockdownReconcile, hpol, if_neg hoff, if_neg hblock]
    exact ⟨trivial, releaseFw_engaged _ hF⟩

section Fields

variable {F : PmxFirewall φ} (ld : PmxLockdown φ)

@[simp] theorem lockdownReconcile_policy : (lockdownReconcile F ld).1.policy = ld.policy := by
  rw [lockdownReconcile]; dsimp only; split_ifs <;> simp [resetCounters]

@[simp] theorem lockdownReconcile_allow : (lockdownReconcile F ld).1.allow = ld.allow := by
  rw [lockdownReconcile]; dsimp only; split_ifs <;> simp [resetCounters]

@[simp] theorem lockdownReconcile_armed : (lockdownReconcile F ld).1.armed = ld.armed := by
  rw [lockdownReconcile]; dsimp only; split_ifs <;> simp [resetCounters]

@[simp] theorem lockdownReconcile_succ : (lockdownReconcile F ld).1.succ = 0 := by
  rw [lockdownReconcile]; dsimp only; split_ifs <;> simp [resetCounters]

@[simp] theorem lockdownReconcile_fails : (lockdownReconcile F ld).1.fails = 0 := by
  rw [lockdownReconcile]; dsimp only; split_ifs <;> simp [resetCounters]

end Fields

theorem sanitizeMode_eq_self {m : PmxLockdownMode} (h : ∀ raw, m ≠ .other raw) :
    sanitizeMode m = m := by
  cases m with
  | other raw => exact absurd rfl (h raw)
  | _ => rfl

theorem sanitizeMode_ne_other (m : PmxLockdownMode) (raw : Undeclared 3) :
    sanitizeMode m ≠ .other raw := by
  cases m <;> exact fun h => PmxLockdownMode.noConfusion h

/-- A sanitized mode is `OFF`, blocks, or is `FAIL_OPEN`. -/
theorem modeBlocks_or (m : PmxLockdownMode) (h : ∀ raw, m ≠ .other raw) :
    m = .off ∨ modeBlocks m = true ∨ m = .failOpen := by
  cases m with
  | off => exact Or.inl rfl
  | failClosed => exact Or.inr (Or.inl rfl)
  | failBackup => exact Or.inr (Or.inl rfl)
  | failOpen => exact Or.inr (Or.inr rfl)
  | other raw => exact absurd rfl (h raw)

theorem pmxLockdownSetPolicy_cases (F : PmxFirewall φ) (ld : PmxLockdown φ)
    (policy : PmxLockdownPolicy) :
    let ld' := { ld with policy := { policy with mode := sanitizeMode policy.mode } }
    (ld.armed = true ∧ sanitizeMode policy.mode ≠ ld.policy.mode ∧
      pmxLockdownSetPolicy F ld policy = (lockdownReconcile F ld').1) ∨
    ((ld.armed = true → sanitizeMode policy.mode = ld.policy.mode) ∧
      pmxLockdownSetPolicy F ld policy = ld') := by
  rw [pmxLockdownSetPolicy]
  dsimp only
  split_ifs with h
  · rw [Bool.and_eq_true, bne_iff_ne] at h
    exact Or.inl ⟨h.1, h.2, rfl⟩
  · refine Or.inr ⟨fun harmed => ?_, rfl⟩
    rw [harmed, Bool.true_and, bne_iff_ne, not_not] at h
    exact h

@[simp] theorem pmxLockdownSetPolicy_armed (F : PmxFirewall φ) (ld : PmxLockdown φ)
    (policy : PmxLockdownPolicy) : (pmxLockdownSetPolicy F ld policy).armed = ld.armed := by
  rcases pmxLockdownSetPolicy_cases F ld policy with ⟨-, -, h⟩ | ⟨-, h⟩
  · rw [h, lockdownReconcile_armed]
  · rw [h]

@[simp] theorem pmxLockdownSetPolicy_allow (F : PmxFirewall φ) (ld : PmxLockdown φ)
    (policy : PmxLockdownPolicy) : (pmxLockdownSetPolicy F ld policy).allow = ld.allow := by
  rcases pmxLockdownSetPolicy_cases F ld policy with ⟨-, -, h⟩ | ⟨-, h⟩
  · rw [h, lockdownReconcile_allow]
  · rw [h]

section SetAllowlist

variable (F : PmxFirewall φ) (ld : PmxLockdown φ) (eps : List PmxFwEndpoint)

@[simp] theorem pmxLockdownSetAllowlist_policy :
    (pmxLockdownSetAllowlist F ld eps).policy = ld.policy := by
  rw [pmxLockdownSetAllowlist]; split_ifs <;> simp

@[simp] theorem pmxLockdownSetAllowlist_allow :
    (pmxLockdownSetAllowlist F ld eps).allow = eps.take pmxMaxAllowlist := by
  rw [pmxLockdownSetAllowlist]; split_ifs <;> simp

@[simp] theorem pmxLockdownSetAllowlist_state :
    (pmxLockdownSetAllowlist F ld eps).state = ld.state := by
  rw [pmxLockdownSetAllowlist]; split_ifs <;> simp

@[simp] theorem pmxLockdownSetAllowlist_armed :
    (pmxLockdownSetAllowlist F ld eps).armed = ld.armed := by
  rw [pmxLockdownSetAllowlist]; split_ifs <;> simp

@[simp] theorem pmxLockdownSetAllowlist_fails :
    (pmxLockdownSetAllowlist F ld eps).fails = ld.fails := by
  rw [pmxLockdownSetAllowlist]; split_ifs <;> simp

@[simp] theorem pmxLockdownSetAllowlist_succ :
    (pmxLockdownSetAllowlist F ld eps).succ = ld.succ := by
  rw [pmxLockdownSetAllowlist]; split_ifs <;> simp

/-- A live re-application never lets go of an engaged firewall. -/
theorem pmxLockdownSetAllowlist_engaged (hF : F.Lawful) :
    (pmxLockdownSetAllowlist F ld eps).engaged F = ld.engaged F := by
  have hsame : ({ ld with allow := eps.take pmxMaxAllowlist } : PmxLockdown φ).engaged F
      = ld.engaged F := rfl
  rw [pmxLockdownSetAllowlist]
  dsimp only
  split_ifs with h
  · rw [Bool.and_eq_true] at h
    rw [applyEngage_engaged _ hF, h.2, Bool.or_true, ← hsame, h.2]
  · exact hsame

end SetAllowlist

@[simp] theorem pmxLockdownDisarm_state (F : PmxFirewall φ) (ld : PmxLockdown φ) :
    (pmxLockdownDisarm F ld).state = .inactive := rfl

@[simp] theorem pmxLockdownDisarm_armed (F : PmxFirewall φ) (ld : PmxLockdown φ) :
    (pmxLockdownDisarm F ld).armed = false := by
  rw [pmxLockdownDisarm]; simp

@[simp] theorem pmxLockdownDisarm_allow (F : PmxFirewall φ) (ld : PmxLockdown φ) :
    (pmxLockdownDisarm F ld).allow = ld.allow := by
  rw [pmxLockdownDisarm]; simp

theorem pmxLockdownDisarm_engaged {F : PmxFirewall φ} (hF : F.Lawful) (ld : PmxLockdown φ) :
    (pmxLockdownDisarm F ld).engaged F = false := by
  rw [pmxLockdownDisarm, engaged_set_state]
  exact releaseFw_engaged _ hF

/-! ### One health observation -/

section OnHealth

variable {F : PmxFirewall φ} (ld : PmxLockdown φ) (healthy : Bool)

theorem pmxLockdownOnHealth_idle (h : ld.armed = false ∨ ld.policy.mode = .off) :
    pmxLockdownOnHealth F ld healthy = (ld, false) := by
  rw [pmxLockdownOnHealth, if_pos (by simpa using h)]

@[simp] theorem countHealth_policy : (ld.countHealth healthy).policy = ld.policy := by
  cases healthy <;> rfl

@[simp] theorem countHealth_state : (ld.countHealth healthy).state = ld.state := by
  cases healthy <;> rfl

@[simp] theorem countHealth_armed : (ld.countHealth healthy).armed = ld.armed := by
  cases healthy <;> rfl

@[simp] theorem countHealth_allow : (ld.countHealth healthy).allow = ld.allow := by
  cases healthy <;> rfl

@[simp] theorem countHealth_engaged : (ld.countHealth healthy).engaged F = ld.engaged F := by
  cases healthy <;> rfl

@[simp] theorem restore_policy : (ld.restore F).policy = ld.policy := by
  rw [restore]; split_ifs <;> simp

@[simp] theorem restore_allow : (ld.restore F).allow = ld.allow := by
  rw [restore]; split_ifs <;> simp

@[simp] theorem restore_armed : (ld.restore F).armed = ld.armed := by
  rw [restore]; split_ifs <;> simp

@[simp] theorem restore_succ : (ld.restore F).succ = ld.succ := by
  rw [restore]; split_ifs <;> simp

@[simp] theorem restore_fails : (ld.restore F).fails = ld.fails := by
  rw [restore]; split_ifs <;> simp

@[simp] theorem trip_policy : (ld.trip F).policy = ld.policy := by
  rw [trip]; split <;> simp [tripTo]

@[simp] theorem trip_allow : (ld.trip F).allow = ld.allow := by
  rw [trip]; split <;> simp [tripTo]

@[simp] theorem trip_armed : (ld.trip F).armed = ld.armed := by
  rw [trip]; split <;> simp [tripTo]

@[simp] theorem trip_succ : (ld.trip F).succ = ld.succ := by
  rw [trip]; split <;> simp [tripTo]

@[simp] theorem trip_fails : (ld.trip F).fails = ld.fails := by
  rw [trip]; split <;> simp [tripTo]

/-- Every case of `pmx_lockdown_on_health` is `countHealth` followed by nothing, `restore` or `trip`. -/
theorem pmxLockdownOnHealth_active (harmed : ld.armed = true) (hmode : ld.policy.mode ≠ .off) :
    (pmxLockdownOnHealth F ld healthy).1 =
      if (ld.countHealth healthy).restores healthy then (ld.countHealth healthy).restore F
      else if (ld.countHealth healthy).trips healthy then (ld.countHealth healthy).trip F
      else ld.countHealth healthy := by
  rw [pmxLockdownOnHealth, if_neg (by simp [harmed, hmode])]

@[simp] theorem pmxLockdownOnHealth_policy :
    (pmxLockdownOnHealth F ld healthy).1.policy = ld.policy := by
  rw [pmxLockdownOnHealth]; dsimp only; split_ifs <;> simp

@[simp] theorem pmxLockdownOnHealth_allow :
    (pmxLockdownOnHealth F ld healthy).1.allow = ld.allow := by
  rw [pmxLockdownOnHealth]; dsimp only; split_ifs <;> simp

@[simp] theorem pmxLockdownOnHealth_armed :
    (pmxLockdownOnHealth F ld healthy).1.armed = ld.armed := by
  rw [pmxLockdownOnHealth]; dsimp only; split_ifs <;> simp

theorem pmxLockdownOnHealth_fails (harmed : ld.armed = true) (hmode : ld.policy.mode ≠ .off) :
    (pmxLockdownOnHealth F ld healthy).1.fails = if healthy then 0 else ld.fails + 1 := by
  have hcount : (pmxLockdownOnHealth F ld healthy).1.fails = (ld.countHealth healthy).fails := by
    rw [pmxLockdownOnHealth_active ld healthy harmed hmode]
    split_ifs <;> simp
  rw [hcount]
  cases healthy <;> rfl

theorem pmxLockdownOnHealth_succ (harmed : ld.armed = true) (hmode : ld.policy.mode ≠ .off) :
    (pmxLockdownOnHealth F ld healthy).1.succ = if healthy then ld.succ + 1 else 0 := by
  have hcount : (pmxLockdownOnHealth F ld healthy).1.succ = (ld.countHealth healthy).succ := by
    rw [pmxLockdownOnHealth_active ld healthy harmed hmode]
    split_ifs <;> simp
  rw [hcount]
  cases healthy <;> rfl

theorem restores_countHealth : (ld.countHealth healthy).restores healthy = true ↔
    healthy = true ∧ ld.state ≠ .armedHealthy ∧ ld.policy.successesBeforeRestore ≤ ld.succ + 1 := by
  cases healthy <;> simp [restores, countHealth]

theorem trips_countHealth : (ld.countHealth healthy).trips healthy = true ↔
    healthy = false ∧ ld.state = .armedHealthy ∧ ld.policy.failuresBeforeTrip ≤ ld.fails + 1 := by
  cases healthy <;> simp [trips, countHealth]

theorem restore_engaged (hF : F.Lawful) : (ld.restore F).engaged F
    = (!decide (ld.policy.mode = .failOpen) && ld.engaged F) := by
  rw [restore]
  split_ifs with h
  · rw [engaged_set_state, releaseFw_engaged ld hF, h]; rfl
  · rw [engaged_set_state, decide_eq_false h]; rfl

theorem tripTo_cases (hF : F.Lawful) (blocking : PmxLockdownState) :
    ((ld.tripTo F blocking).state = blocking ∧ (ld.tripTo F blocking).engaged F = true) ∨
    ((ld.tripTo F blocking).state = .failedOpen ∧ (ld.tripTo F blocking).engaged F = false) := by
  have hon := ensureEngaged_engaged ld hF
  rw [tripTo]
  by_cases h : (ld.ensureEngaged F).2 = .ok
  · exact Or.inl ⟨if_pos h, by rw [engaged_set_state, hon]; exact decide_eq_true h⟩
  · exact Or.inr ⟨if_neg h, by rw [engaged_set_state, hon]; exact decide_eq_false h⟩

/-- A trip in a blocking mode leaves a blocking state with the firewall engaged, or admits that
nothing is blocked. -/
theorem trip_blocking (hF : F.Lawful) (hblock : modeBlocks ld.policy.mode = true) :
    (((ld.trip F).state = .trippedBlocking ∨ (ld.trip F).state = .failingOver) ∧
      (ld.trip F).engaged F = true) ∨
    ((ld.trip F).state = .failedOpen ∧ (ld.trip F).engaged F = false) := by
  cases hm : ld.policy.mode with
  | failClosed =>
    rw [show ld.trip F = ld.tripTo F .trippedBlocking from by rw [trip, hm]]
    exact (tripTo_cases ld hF _).imp (fun h => ⟨Or.inl h.1, h.2⟩) id
  | failBackup =>
    rw [show ld.trip F = ld.tripTo F .failingOver from by rw [trip, hm]]
    exact (tripTo_cases ld hF _).imp (fun h => ⟨Or.inr h.1, h.2⟩) id
  | _ => rw [hm] at hblock; cases hblock

theorem trip_failOpen (hF : F.Lawful) (hm : ld.policy.mode = .failOpen) :
    (ld.trip F).state = .failedOpen ∧ (ld.trip F).engaged F = false := by
  rw [show ld.trip F = { ld.releaseFw F with state := .failedOpen } from by rw [trip, hm]]
  exact ⟨rfl, releaseFw_engaged ld hF⟩

/-- A trip in a blocking mode leaves `ARMED_HEALTHY`, whatever the firewall answers. -/
theorem trip_not_healthy (hblock : modeBlocks ld.policy.mode = true) :
    (ld.trip F).state ≠ .armedHealthy := by
  have htrip : ∀ blocking, blocking ≠ PmxLockdownState.armedHealthy →
      (ld.tripTo F blocking).state ≠ .armedHealthy := by
    intro blocking hne
    show (if _ then blocking else PmxLockdownState.failedOpen) ≠ _
    split_ifs
    · exact hne
    · exact fun h => PmxLockdownState.noConfusion h
  cases hm : ld.policy.mode with
  | failClosed =>
    rw [show ld.trip F = ld.tripTo F .trippedBlocking from by rw [trip, hm]]
    exact htrip _ fun h => PmxLockdownState.noConfusion h
  | failBackup =>
    rw [show ld.trip F = ld.tripTo F .failingOver from by rw [trip, hm]]
    exact htrip _ fun h => PmxLockdownState.noConfusion h
  | _ => rw [hm] at hblock; cases hblock

/-- One failed probe of an armed controller in a blocking mode. -/
theorem pmxLockdownOnHealth_false_state (harmed : ld.armed = true)
    (hblock : modeBlocks ld.policy.mode = true) :
    (pmxLockdownOnHealth F ld false).1.state ≠ .armedHealthy ↔
      ld.state ≠ .armedHealthy ∨ ld.policy.failuresBeforeTrip ≤ ld.fails + 1 := by
  have hnoff : ld.policy.mode ≠ .off := fun hm => by rw [hm] at hblock; cases hblock
  rw [pmxLockdownOnHealth_active ld false harmed hnoff]
  split_ifs with hr ht
  · exact absurd ((restores_countHealth ld false).1 hr).1 Bool.false_ne_true
  · obtain ⟨-, -, hfails⟩ := (trips_countHealth ld false).1 ht
    exact iff_of_true (trip_not_healthy _ (by rw [countHealth_policy, hblock])) (Or.inr hfails)
  · rw [countHealth_state]
    by_cases hs : ld.state = .armedHealthy
    · have hfails : ¬ld.policy.failuresBeforeTrip ≤ ld.fails + 1 := fun h =>
        ht ((trips_countHealth ld false).2 ⟨rfl, hs, h⟩)
      simp [hs, hfails]
    · simp [hs]

end OnHealth

end ProxiMight
