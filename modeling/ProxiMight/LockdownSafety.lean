import ProxiMight.Lockdown
import ProxiMight.Runs

/-!
# The kill switch over whole runs

A run is a list of calls on the controller.  Two properties of every state reached:

* **`lockdown_honest`** — the controller claims to block only when it does, is inactive exactly when it
  is disarmed or off, and never keeps a firewall engaged in a mode that does not block.  The invariant
  is `Honest`; every call keeps it, whatever the firewall answers.
* **`enforced_iff`** — while armed in a blocking mode the firewall is engaged or the controller says
  that it failed open, exactly as long as no healthy observation restores a controller whose firewall
  is not engaged: recovery moves the state and does not engage again.
-/

namespace ProxiMight

open PmxLockdown

variable {φ : Type}

/-- A call on the controller. -/
inductive LockdownOp
  | arm
  | disarm
  | setPolicy (policy : PmxLockdownPolicy)
  | setAllowlist (eps : List PmxFwEndpoint)
  | onHealth (healthy : Bool)

/-- The controller after one call. -/
def lockdownStep (F : PmxFirewall φ) (ld : PmxLockdown φ) : LockdownOp → PmxLockdown φ
  | .arm => (pmxLockdownArm F ld).1
  | .disarm => pmxLockdownDisarm F ld
  | .setPolicy policy => pmxLockdownSetPolicy F ld policy
  | .setAllowlist eps => pmxLockdownSetAllowlist F ld eps
  | .onHealth healthy => (pmxLockdownOnHealth F ld healthy).1

/-- What the controller reports agrees with what it enforces. -/
structure Honest (F : PmxFirewall φ) (ld : PmxLockdown φ) : Prop where
  /-- a blocking state is claimed only while blocking -/
  blocking : ld.state = .trippedBlocking ∨ ld.state = .failingOver →
    ld.armed = true ∧ modeBlocks ld.policy.mode = true ∧ ld.engaged F = true
  inactive : ld.state = .inactive ↔ ld.armed = false ∨ ld.policy.mode = .off
  /-- nothing is left engaged where nothing is to be blocked -/
  released : ld.armed = false ∨ ld.policy.mode = .off ∨ ld.policy.mode = .failOpen →
    ld.engaged F = false
  /-- an armed controller runs in a declared mode -/
  declared : ld.armed = true → ∀ raw, ld.policy.mode ≠ .other raw

theorem Honest.of_disarmed {F : PmxFirewall φ} {ld : PmxLockdown φ} (harmed : ld.armed = false)
    (hstate : ld.state = .inactive) (hoff : ld.engaged F = false) : Honest F ld where
  blocking := by rw [hstate]; intro h; rcases h with h | h <;> cases h
  inactive := ⟨fun _ => Or.inl harmed, fun _ => hstate⟩
  released := fun _ => hoff
  declared := by rw [harmed]; intro h; cases h

/-- Reconciling an armed controller makes it honest, whatever it was before. -/
theorem Honest.reconcile {F : PmxFirewall φ} (hF : F.Lawful) {ld : PmxLockdown φ}
    (harmed : ld.armed = true) (hmode : ∀ raw, ld.policy.mode ≠ .other raw) :
    Honest F (lockdownReconcile F ld).1 := by
  have hdecl : ∀ raw, (lockdownReconcile F ld).1.policy.mode ≠ .other raw := by
    rw [lockdownReconcile_policy]; exact hmode
  have hstill : (lockdownReconcile F ld).1.armed = true := by rw [lockdownReconcile_armed, harmed]
  rcases lockdownReconcile_cases hF ld with ⟨hm, hs, hoff⟩ | ⟨hm, hs, hoff⟩ | ⟨hm, hon, hs⟩ |
    ⟨hne, hm, hs, hoff⟩
  · refine ⟨?_, ?_, fun _ => hoff, fun _ => hdecl⟩
    · rw [hs]; intro h; rcases h with h | h <;> cases h
    · rw [hs, lockdownReconcile_policy]; exact ⟨fun _ => Or.inr hm, fun _ => rfl⟩
  · have hnoff : ld.policy.mode ≠ .off := fun h => by rw [h] at hm; cases hm
    refine ⟨?_, ?_, fun _ => hoff, fun _ => hdecl⟩
    · rw [hs]; intro h; rcases h with h | h <;> cases h
    · rw [hs, hstill, lockdownReconcile_policy]; simp [hnoff]
  · have hnoff : ld.policy.mode ≠ .off := fun h => by rw [h] at hm; cases hm
    have hnopen : ld.policy.mode ≠ .failOpen := fun h => by rw [h] at hm; cases hm
    refine ⟨fun _ => ⟨hstill, ?_, hon⟩, ?_, ?_, fun _ => hdecl⟩
    · rw [lockdownReconcile_policy, hm]
    · rw [hs, hstill, lockdownReconcile_policy]; split_ifs <;> simp [hnoff]
    · rw [hstill, lockdownReconcile_policy]; simp [hnoff, hnopen]
  · refine ⟨?_, ?_, fun _ => hoff, fun _ => hdecl⟩
    · rw [hs]; intro h; rcases h with h | h <;> cases h
    · rw [hs, hstill, lockdownReconcile_policy]; simp [hne]

/-- An observation leaves armed, mode and honesty alone as long as the new state fits the firewall. -/
theorem Honest.onHealth {F : PmxFirewall φ} (hF : F.Lawful) {ld : PmxLockdown φ} (h : Honest F ld)
    (healthy : Bool) : Honest F (pmxLockdownOnHealth F ld healthy).1 := by
  by_cases hidle : ld.armed = false ∨ ld.policy.mode = .off
  · rw [pmxLockdownOnHealth_idle ld healthy hidle]
    exact h
  rw [not_or, Bool.not_eq_false] at hidle
  obtain ⟨harmed, hnoff⟩ := hidle
  have hactive : ld.state ≠ .inactive := by
    intro hs
    rcases h.inactive.1 hs with h' | h'
    · rw [harmed] at h'; cases h'
    · exact hnoff h'
  have hdecl := h.declared harmed
  -- what is left to show, by the new state and the new answer of the firewall
  suffices hs : (((pmxLockdownOnHealth F ld healthy).1.state = .trippedBlocking ∨
        (pmxLockdownOnHealth F ld healthy).1.state = .failingOver →
          modeBlocks ld.policy.mode = true ∧ (pmxLockdownOnHealth F ld healthy).1.engaged F = true) ∧
      (pmxLockdownOnHealth F ld healthy).1.state ≠ .inactive ∧
      (ld.policy.mode = .failOpen → (pmxLockdownOnHealth F ld healthy).1.engaged F = false)) by
    refine ⟨fun hb => ⟨?_, ?_, ?_⟩, ?_, ?_, ?_⟩
    · rw [pmxLockdownOnHealth_armed, harmed]
    · rw [pmxLockdownOnHealth_policy]; exact (hs.1 hb).1
    · exact (hs.1 hb).2
    · rw [pmxLockdownOnHealth_armed, pmxLockdownOnHealth_policy, harmed]
      simp [hs.2.1, hnoff]
    · rw [pmxLockdownOnHealth_armed, pmxLockdownOnHealth_policy, harmed]
      simpa [hnoff] using hs.2.2
    · rw [pmxLockdownOnHealth_policy]; exact fun _ => hdecl
  rw [pmxLockdownOnHealth_active ld healthy harmed hnoff]
  split_ifs with hr ht
  · refine ⟨?_, ?_, ?_⟩
    · intro hb; rcases hb with hb | hb <;> cases hb
    · exact fun hb => PmxLockdownState.noConfusion hb
    · intro hm
      rw [restore_engaged _ hF, countHealth_policy, hm]; rfl
  · rcases modeBlocks_or ld.policy.mode hdecl with hm | hm | hm
    · exact absurd hm hnoff
    · have hnopen : ld.policy.mode ≠ .failOpen := fun h => by rw [h] at hm; cases hm
      rcases trip_blocking (ld.countHealth healthy) hF (by rw [countHealth_policy, hm]) with
        ⟨hs, hon⟩ | ⟨hs, -⟩
      · refine ⟨fun _ => ⟨hm, hon⟩, ?_, fun h' => absurd h' hnopen⟩
        rcases hs with hs | hs <;> rw [hs] <;> exact fun hb => PmxLockdownState.noConfusion hb
      · rw [hs]
        refine ⟨?_, fun hb => PmxLockdownState.noConfusion hb, fun h' => absurd h' hnopen⟩
        intro hb; rcases hb with hb | hb <;> cases hb
    · obtain ⟨hs, hoff⟩ := trip_failOpen (ld.countHealth healthy) hF (by rw [countHealth_policy, hm])
      rw [hs]
      refine ⟨?_, fun hb => PmxLockdownState.noConfusion hb, fun _ => hoff⟩
      intro hb; rcases hb with hb | hb <;> cases hb
  · rw [countHealth_state, countHealth_engaged]
    exact ⟨fun hb => (h.blocking hb).2, hactive, fun hm => h.released (Or.inr (Or.inr hm))⟩

/-- **Every call keeps the controller honest.** -/
theorem Honest.step {F : PmxFirewall φ} (hF : F.Lawful) (ld : PmxLockdown φ) (op : LockdownOp)
    (h : Honest F ld) : Honest F (lockdownStep F ld op) := by
  cases op with
  | arm => exact Honest.reconcile hF rfl (sanitizeMode_ne_other _)
  | disarm =>
    exact Honest.of_disarmed (pmxLockdownDisarm_armed F ld) rfl (pmxLockdownDisarm_engaged hF ld)
  | setPolicy policy =>
    show Honest F (pmxLockdownSetPolicy F ld policy)
    rcases pmxLockdownSetPolicy_cases F ld policy with ⟨harmed, -, hrec⟩ | ⟨hsame, hset⟩
    · rw [hrec]
      exact Honest.reconcile hF harmed (sanitizeMode_ne_other _)
    · rw [hset]
      rcases Bool.eq_false_or_eq_true ld.armed with harmed | harmed
      · -- same mode, so every clause reads as before
        have hmode := hsame harmed
        have hblocking := h.blocking
        have hinactive := h.inactive
        have hreleased := h.released
        rw [← hmode] at hblocking hinactive hreleased
        exact ⟨hblocking, hinactive, hreleased, fun _ => sanitizeMode_ne_other _⟩
      · exact Honest.of_disarmed harmed (h.inactive.2 (Or.inl harmed)) (h.released (Or.inl harmed))
  | setAllowlist eps =>
    have hon := pmxLockdownSetAllowlist_engaged F ld eps hF
    constructor <;>
      simp only [lockdownStep, pmxLockdownSetAllowlist_state, pmxLockdownSetAllowlist_armed,
        pmxLockdownSetAllowlist_policy, hon]
    · exact h.blocking
    · exact h.inactive
    · exact h.released
    · exact h.declared
  | onHealth healthy => exact h.onHealth hF healthy

theorem Honest.create (F : PmxFirewall φ) (policy : Option PmxLockdownPolicy) (fw : Option φ)
    (hfw : ∀ s, fw = some s → F.isEngaged s = false) : Honest F (pmxLockdownCreate policy fw) := by
  refine Honest.of_disarmed rfl rfl ?_
  cases fw with
  | none => rfl
  | some s => exact hfw s rfl

/-- **Lockdown never claims to block when it does not, and never keeps blocking when it should not.** -/
theorem lockdown_honest {F : PmxFirewall φ} (hF : F.Lawful) (policy : Option PmxLockdownPolicy)
    (fw : Option φ) (hfw : ∀ s, fw = some s → F.isEngaged s = false) (ops : List LockdownOp) :
    let ld := Runs.runFrom (lockdownStep F) (pmxLockdownCreate policy fw) ops
    (ld.state = .trippedBlocking ∨ ld.state = .failingOver →
      ld.armed = true ∧ modeBlocks ld.policy.mode = true ∧ ld.engaged F = true) ∧
    (ld.state = .inactive ↔ ld.armed = false ∨ ld.policy.mode = .off) ∧
    (ld.armed = false ∨ ld.policy.mode = .off ∨ ld.policy.mode = .failOpen →
      ld.engaged F = false) := by
  intro ld
  have h : Honest F ld :=
    Runs.runFrom_inv (Honest F) (Honest.step hF) ops _ (Honest.create F policy fw hfw)
  exact ⟨h.blocking, h.inactive, h.released⟩

/-- A stub firewall, tripped before the first probe and healthy after two good ones. -/
theorem lockdown_honest_stub :
    let ld := Runs.runFrom (lockdownStep pmxFirewallStub)
      (pmxLockdownCreate (some pmxLockdownPolicyDefaults) (some stubFwCreate)) [.arm, .onHealth true]
    (ld.state = .trippedBlocking ∨ ld.state = .failingOver →
      ld.armed = true ∧ modeBlocks ld.policy.mode = true ∧ ld.engaged pmxFirewallStub = true) ∧
    (ld.state = .inactive ↔ ld.armed = false ∨ ld.policy.mode = .off) ∧
    (ld.armed = false ∨ ld.policy.mode = .off ∨ ld.policy.mode = .failOpen →
      ld.engaged pmxFirewallStub = false) :=
  lockdown_honest pmxFirewallStub_lawful (some pmxLockdownPolicyDefaults) (some stubFwCreate)
    (fun _ h => by cases h; rfl) [.arm, .onHealth true]

/-! ### Enforcement, and how recovery gives it up -/

/-- Armed in a blocking mode, the firewall is engaged or the controller says that it failed open. -/
def Enforced (F : PmxFirewall φ) (ld : PmxLockdown φ) : Prop :=
  ld.armed = true → modeBlocks ld.policy.mode = true →
    ld.engaged F = true ∨ ld.state = .failedOpen

/-- The call is the healthy observation that completes the recovery of a controller which is armed in
a blocking mode and whose firewall is not engaged. -/
def RestoresUnengaged (F : PmxFirewall φ) (ld : PmxLockdown φ) (op : LockdownOp) : Prop :=
  op = .onHealth true ∧ ld.armed = true ∧ modeBlocks ld.policy.mode = true ∧
    ld.engaged F = false ∧ ld.state ≠ .armedHealthy ∧
    ld.policy.successesBeforeRestore ≤ ld.succ + 1

theorem enforced_reconcile {F : PmxFirewall φ} (hF : F.Lawful) (ld : PmxLockdown φ) :
    Enforced F (lockdownReconcile F ld).1 := by
  intro _ hblock
  rw [lockdownReconcile_policy] at hblock
  rcases lockdownReconcile_cases hF ld with ⟨hm, -, -⟩ | ⟨-, hs, -⟩ | ⟨-, hon, -⟩ | ⟨-, hm, -, -⟩
  · rw [hm] at hblock; cases hblock
  · exact Or.inr hs
  · exact Or.inl hon
  · rw [hm] at hblock; cases hblock

/-- An observation keeps enforcement exactly when it does not restore an unengaged controller. -/
theorem enforced_onHealth {F : PmxFirewall φ} (hF : F.Lawful) {ld : PmxLockdown φ}
    (h : Enforced F ld) (healthy : Bool) :
    Enforced F (pmxLockdownOnHealth F ld healthy).1 ↔
      ¬RestoresUnengaged F ld (.onHealth healthy) := by
  by_cases hactive : ld.armed = true ∧ modeBlocks ld.policy.mode = true
  · obtain ⟨harmed, hblock⟩ := hactive
    have hnoff : ld.policy.mode ≠ .off := fun hm => by rw [hm] at hblock; cases hblock
    have hnopen : ld.policy.mode ≠ .failOpen := fun hm => by rw [hm] at hblock; cases hblock
    have hgoal : Enforced F (pmxLockdownOnHealth F ld healthy).1 ↔
        (pmxLockdownOnHealth F ld healthy).1.engaged F = true ∨
          (pmxLockdownOnHealth F ld healthy).1.state = .failedOpen := by
      rw [Enforced, pmxLockdownOnHealth_armed, pmxLockdownOnHealth_policy]
      simp [harmed, hblock]
    rw [hgoal, pmxLockdownOnHealth_active ld healthy harmed hnoff]
    split_ifs with hr ht
    · rw [restore_engaged _ hF, countHealth_policy, decide_eq_false hnopen, countHealth_engaged]
      obtain ⟨rfl, hstate, hsucc⟩ := (restores_countHealth ld healthy).1 hr
      simp [RestoresUnengaged, restore, harmed, hblock, hstate, hsucc]
    · obtain ⟨rfl, -, -⟩ := (trips_countHealth ld healthy).1 ht
      refine iff_of_true ?_ (fun hbad => by cases hbad.1)
      exact (trip_blocking (ld.countHealth false) hF (by rw [countHealth_policy, hblock])).imp
        (fun h' => h'.2) (fun h' => h'.1)
    · rw [countHealth_engaged, countHealth_state]
      refine iff_of_true (h harmed hblock) ?_
      rintro ⟨hop, -, -, -, hstate, hsucc⟩
      cases hop
      exact hr ((restores_countHealth ld true).2 ⟨rfl, hstate, hsucc⟩)
  · refine iff_of_true ?_ (fun hbad => hactive ⟨hbad.2.1, hbad.2.2.1⟩)
    intro harmed hblock
    rw [pmxLockdownOnHealth_armed] at harmed
    rw [pmxLockdownOnHealth_policy] at hblock
    exact absurd ⟨harmed, hblock⟩ hactive

/-- **One call keeps enforcement exactly when it does not restore an unengaged controller.** -/
theorem enforced_step {F : PmxFirewall φ} (hF : F.Lawful) (ld : PmxLockdown φ) (op : LockdownOp)
    (h : Enforced F ld) : Enforced F (lockdownStep F ld op) ↔ ¬RestoresUnengaged F ld op := by
  have hother : ∀ op', (∀ b, op' ≠ .onHealth b) → ¬RestoresUnengaged F ld op' :=
    fun op' hne hbad => hne true hbad.1
  cases op with
  | arm => exact iff_of_true (enforced_reconcile hF _) (hother _ fun _ hc => by cases hc)
  | disarm =>
    refine iff_of_true (fun harmed => ?_) (hother _ fun _ hc => by cases hc)
    rw [show (lockdownStep F ld .disarm).armed = false from pmxLockdownDisarm_armed F ld] at harmed
    cases harmed
  | setPolicy policy =>
    refine iff_of_true ?_ (hother _ fun _ hc => by cases hc)
    show Enforced F (pmxLockdownSetPolicy F ld policy)
    rcases pmxLockdownSetPolicy_cases F ld policy with ⟨-, -, hrec⟩ | ⟨hsame, hset⟩
    · rw [hrec]
      exact enforced_reconcile hF _
    · rw [hset]
      intro harmed hblock
      exact h harmed (by rw [← hsame harmed]; exact hblock)
  | setAllowlist eps =>
    refine iff_of_true ?_ (hother _ fun _ hc => by cases hc)
    intro harmed hblock
    rw [lockdownStep, pmxLockdownSetAllowlist_engaged F ld eps hF, pmxLockdownSetAllowlist_state]
    exact h (by rw [← harmed, lockdownStep, pmxLockdownSetAllowlist_armed])
      (by rw [← hblock, lockdownStep, pmxLockdownSetAllowlist_policy])
  | onHealth healthy => exact enforced_onHealth hF h healthy

/-- **When enforcement holds over a run.**  Every state of the run is enforced exactly when no call of
it restores a controller that is armed in a blocking mode with its firewall not engaged. -/
theorem enforced_iff {F : PmxFirewall φ} (hF : F.Lawful) (policy : Option PmxLockdownPolicy)
    (fw : Option φ) (ops : List LockdownOp) :
    Runs.EachState (lockdownStep F) (Enforced F) (pmxLockdownCreate policy fw) ops ↔
      Runs.EachStep (lockdownStep F) (fun ld op => ¬RestoresUnengaged F ld op)
        (pmxLockdownCreate policy fw) ops :=
  Runs.eachState_iff_eachStep (fun _ => True) (fun _ _ _ => trivial)
    (fun ld op _ h => enforced_step hF ld op h) ops _ trivial (fun harmed => by cases harmed)

/-- With the stub firewall, armed and restored by two healthy probes. -/
theorem enforced_iff_stub :
    Runs.EachState (lockdownStep pmxFirewallStub) (Enforced pmxFirewallStub)
        (pmxLockdownCreate none (some stubFwCreate)) [.arm, .onHealth true, .onHealth true] ↔
      Runs.EachStep (lockdownStep pmxFirewallStub)
        (fun ld op => ¬RestoresUnengaged pmxFirewallStub ld op)
        (pmxLockdownCreate none (some stubFwCreate)) [.arm, .onHealth true, .onHealth true] :=
  enforced_iff pmxFirewallStub_lawful none (some stubFwCreate) [.arm, .onHealth true, .onHealth true]

/-- A firewall that is there but whose every engage is refused, as without administrator rights. -/
def refusingFw : PmxFirewall Unit := ⟨fun _ _ _ => ((), .errPermission), fun _ => ((), .ok), fun _ => false⟩

theorem refusingFw_lawful : refusingFw.Lawful where
  engage_ok := fun _ _ _ h => by cases h
  engage_failed := fun _ _ _ _ => rfl
  disengage_off := fun _ => rfl

/-- Armed without administrator rights, two healthy probes: the controller reports that it is armed and
healthy, and nothing is enforced. -/
theorem not_enforced_refusingFw :
    refusingFw.Lawful ∧
    let ld := Runs.runFrom (lockdownStep refusingFw) (pmxLockdownCreate none (some ()))
      [.arm, .onHealth true, .onHealth true]
    ld.armed = true ∧ ld.policy.mode = .failClosed ∧ ld.engaged refusingFw = false ∧
      ld.state = .armedHealthy :=
  ⟨refusingFw_lawful, by decide⟩

end ProxiMight
