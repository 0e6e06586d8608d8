import ProxiMight.Lockdown
import ProxiMight.Runs
import ProxiMight.Streaks

/-!
# The hysteresis of the kill switch

From the moment the controller is armed, or its mode changes, the two counters are the streaks of failed
and of successful probes at the end of the observations made since.  Pushing the same policy again and
changing the allowlist leave both counters and the state alone.

* **`onHealth_hysteresis`** — so a trip comes with the `F`-th failure in a row, a recovery with the
  `S`-th success in a row, and nothing else moves the state.
-/

namespace ProxiMight

open PmxLockdown Streaks

variable {φ : Type}

/-- The policy the controller keeps when it is given `policy`. -/
def sanitizePolicy (policy : PmxLockdownPolicy) : PmxLockdownPolicy :=
  { policy with mode := sanitizeMode policy.mode }

/-- A controller at the moment it is armed under `policy`, or at the moment `policy` changes its mode. -/
inductive JustArmed (F : PmxFirewall φ) (policy : PmxLockdownPolicy) : PmxLockdown φ → Prop
  | arm (ld : PmxLockdown φ) (hpolicy : sanitizePolicy ld.policy = sanitizePolicy policy) :
      JustArmed F policy (pmxLockdownArm F ld).1
  | modeChange (ld : PmxLockdown φ) (harmed : ld.armed = true)
      (hmode : ld.policy.mode ≠ sanitizeMode policy.mode) :
      JustArmed F policy (pmxLockdownSetPolicy F ld policy)

/-- What happens to a controller whose policy stays the same. -/
inductive HysteresisOp
  | observe (healthy : Bool)
  | setPolicy
  | setAllowlist (eps : List PmxFwEndpoint)

def hysteresisOp (F : PmxFirewall φ) (policy : PmxLockdownPolicy) (ld : PmxLockdown φ) :
    HysteresisOp → PmxLockdown φ
  | .observe healthy => (pmxLockdownOnHealth F ld healthy).1
  | .setPolicy => pmxLockdownSetPolicy F ld policy
  | .setAllowlist eps => pmxLockdownSetAllowlist F ld eps

/-- The observations among the operations. -/
def observations : List HysteresisOp → List Bool
  | [] => []
  | .observe healthy :: ops => healthy :: observations ops
  | _ :: ops => observations ops

/-! ### The counters are streaks -/

/-- The controller is armed under `policy` and has counted the observations `hist`. -/
structure Counted (policy : PmxLockdownPolicy) (hist : List Bool) (ld : PmxLockdown φ) : Prop where
  armed : ld.armed = true
  policy_eq : ld.policy = sanitizePolicy policy
  succ : ld.succ = streak true hist
  fails : ld.fails = streak false hist

theorem Counted.of_same {policy : PmxLockdownPolicy} {hist : List Bool} {ld ld' : PmxLockdown φ}
    (h : Counted policy hist ld) (harmed : ld'.armed = ld.armed) (hpolicy : ld'.policy = ld.policy)
    (hsucc : ld'.succ = ld.succ) (hfails : ld'.fails = ld.fails) : Counted policy hist ld' :=
  ⟨by rw [harmed, h.armed], by rw [hpolicy, h.policy_eq], by rw [hsucc, h.succ],
    by rw [hfails, h.fails]⟩

theorem Counted.of_justArmed {F : PmxFirewall φ} {policy : PmxLockdownPolicy} {ld : PmxLockdown φ}
    (h : JustArmed F policy ld) : Counted policy [] ld := by
  cases h with
  | arm ld hpolicy =>
    rw [pmxLockdownArm]
    refine ⟨lockdownReconcile_armed _, ?_, lockdownReconcile_succ _, lockdownReconcile_fails _⟩
    rw [lockdownReconcile_policy]
    exact hpolicy
  | modeChange ld harmed hmode =>
    rcases pmxLockdownSetPolicy_cases F ld policy with ⟨-, -, heq⟩ | ⟨hsame, -⟩
    · rw [heq]
      refine ⟨?_, ?_, lockdownReconcile_succ _, lockdownReconcile_fails _⟩
      · rw [lockdownReconcile_armed]
        exact harmed
      · rw [lockdownReconcile_policy]
        rfl
    · exact absurd (hsame harmed).symm hmode

/-- Pushing the policy that is in force changes nothing. -/
theorem Counted.setPolicy {policy : PmxLockdownPolicy} {hist : List Bool} {ld : PmxLockdown φ}
    (h : Counted policy hist ld) (F : PmxFirewall φ) : pmxLockdownSetPolicy F ld policy = ld := by
  have hpolicy : ({ ld with policy := sanitizePolicy policy } : PmxLockdown φ) = ld := by
    rw [← h.policy_eq]
  rcases pmxLockdownSetPolicy_cases F ld policy with ⟨-, hmode, -⟩ | ⟨-, heq⟩
  · rw [h.policy_eq] at hmode
    exact absurd rfl hmode
  · exact heq.trans hpolicy

theorem Counted.mode_ne_off {policy : PmxLockdownPolicy} {hist : List Bool} {ld : PmxLockdown φ}
    (h : Counted policy hist ld) (hmode : policy.mode ≠ .off) : ld.policy.mode ≠ .off := by
  rw [h.policy_eq]
  show sanitizeMode policy.mode ≠ .off
  cases hm : policy.mode with
  | off => exact absurd hm hmode
  | _ => exact fun h => PmxLockdownMode.noConfusion h

theorem Counted.observe {policy : PmxLockdownPolicy} {hist : List Bool} {ld : PmxLockdown φ}
    (h : Counted policy hist ld) (hmode : policy.mode ≠ .off) (F : PmxFirewall φ) (healthy : Bool) :
    Counted policy (hist ++ [healthy]) (pmxLockdownOnHealth F ld healthy).1 := by
  have hoff := h.mode_ne_off hmode
  refine ⟨by rw [pmxLockdownOnHealth_armed, h.armed],
    by rw [pmxLockdownOnHealth_policy, h.policy_eq], ?_, ?_⟩
  · rw [pmxLockdownOnHealth_succ ld healthy h.armed hoff, h.succ]
    cases healthy with
    | true => rw [streak_concat_self]; rfl
    | false => rw [streak_concat_of_ne Bool.false_ne_true]; rfl
  · rw [pmxLockdownOnHealth_fails ld healthy h.armed hoff, h.fails]
    cases healthy with
    | true => rw [streak_concat_of_ne (Ne.symm Bool.false_ne_true)]; rfl
    | false => rw [streak_concat_self]; rfl

/-- **The run lemma.**  After any operations the counters are the streaks of all that was observed. -/
theorem Counted.run {policy : PmxLockdownPolicy} (hmode : policy.mode ≠ .off) (F : PmxFirewall φ) :
    ∀ (ops : List HysteresisOp) (hist : List Bool) (ld : PmxLockdown φ), Counted policy hist ld →
      Counted policy (hist ++ observations ops) (Runs.runFrom (hysteresisOp F policy) ld ops) := by
  intro ops
  induction ops with
  | nil =>
    intro hist ld h
    rw [observations, List.append_nil]
    exact h
  | cons op ops ih =>
    intro hist ld h
    rw [Runs.runFrom_cons]
    cases op with
    | observe healthy =>
      have hstep := ih (hist ++ [healthy]) _ (h.observe hmode F healthy)
      rw [List.append_assoc] at hstep
      exact hstep
    | setPolicy =>
      rw [show hysteresisOp F policy ld .setPolicy = ld from h.setPolicy F]
      exact ih hist ld h
    | setAllowlist eps =>
      exact ih hist _ (h.of_same (pmxLockdownSetAllowlist_armed F ld eps)
        (pmxLockdownSetAllowlist_policy F ld eps) (pmxLockdownSetAllowlist_succ F ld eps)
        (pmxLockdownSetAllowlist_fails F ld eps))

/-! ### One observation -/

theorem trip_state_ne {F : PmxFirewall φ} {ld : PmxLockdown φ} (hoff : ld.policy.mode ≠ .off)
    (hother : ∀ raw, ld.policy.mode ≠ .other raw) : (ld.trip F).state ≠ .armedHealthy := by
  rcases modeBlocks_or ld.policy.mode hother with hm | hm | hm
  · exact absurd hm hoff
  · exact trip_not_healthy ld hm
  · rw [show ld.trip F = { ld.releaseFw F with state := .failedOpen } from by rw [trip, hm]]
    exact fun h => PmxLockdownState.noConfusion h

/-- A healthy observation restores the controller, or leaves its state alone. -/
theorem onHealth_true_state {F : PmxFirewall φ} {ld : PmxLockdown φ} (harmed : ld.armed = true)
    (hoff : ld.policy.mode ≠ .off) : (pmxLockdownOnHealth F ld true).1.state =
      if ld.policy.successesBeforeRestore ≤ ld.succ + 1 then .armedHealthy else ld.state := by
  rw [pmxLockdownOnHealth_active ld true harmed hoff]
  split_ifs with hr hS ht hS hS
  · rfl
  · exact absurd ((restores_countHealth ld true).1 hr).2.2 hS
  · exact absurd ((trips_countHealth ld true).1 ht).1 (Ne.symm Bool.false_ne_true)
  · exact absurd ((trips_countHealth ld true).1 ht).1 (Ne.symm Bool.false_ne_true)
  · -- enough successes and no recovery: the state was `ARMED_HEALTHY` already
    by_contra hne
    rw [countHealth_state] at hne
    exact hr ((restores_countHealth ld true).2 ⟨rfl, hne, hS⟩)
  · exact countHealth_state ld true

/-- An unhealthy observation trips the controller, or leaves its state alone. -/
theorem onHealth_false_state {F : PmxFirewall φ} {ld : PmxLockdown φ} (harmed : ld.armed = true)
    (hoff : ld.policy.mode ≠ .off) (hother : ∀ raw, ld.policy.mode ≠ .other raw) :
    (ld.policy.failuresBeforeTrip ≤ ld.fails + 1 →
      (pmxLockdownOnHealth F ld false).1.state ≠ .armedHealthy) ∧
    (¬ld.policy.failuresBeforeTrip ≤ ld.fails + 1 →
      (pmxLockdownOnHealth F ld false).1.state = ld.state) := by
  rw [pmxLockdownOnHealth_active ld false harmed hoff]
  split_ifs with hr ht
  · exact absurd ((restores_countHealth ld false).1 hr).1 Bool.false_ne_true
  · refine ⟨fun _ => trip_state_ne (by rw [countHealth_policy]; exact hoff)
      (by rw [countHealth_policy]; exact hother), fun hF => ?_⟩
    exact absurd ((trips_countHealth ld false).1 ht).2.2 hF
  · rw [countHealth_state]
    refine ⟨fun hF hs => ht ((trips_countHealth ld false).2 ⟨rfl, hs, hF⟩), fun _ => rfl⟩

/-- `*changed` tells whether the state is another one. -/
theorem onHealth_changed {F : PmxFirewall φ} {ld : PmxLockdown φ} (harmed : ld.armed = true)
    (hoff : ld.policy.mode ≠ .off) (healthy : Bool) :
    (pmxLockdownOnHealth F ld healthy).2 = true ↔
      (pmxLockdownOnHealth F ld healthy).1.state ≠ ld.state := by
  have hactive : ¬(!ld.armed || decide (ld.policy.mode = .off)) = true := by simp [harmed, hoff]
  rw [pmxLockdownOnHealth, if_neg hactive]
  exact bne_iff_ne

/-- What the observation made after `hist` does to the state. -/
structure HysteresisStep (policy : PmxLockdownPolicy) (hist : List Bool) (before : PmxLockdownState)
    (after : PmxLockdownState) (changed : Bool) : Prop where
  restored : LastAll policy.successesBeforeRestore.toNat true hist → after = .armedHealthy
  tripped : LastAll policy.failuresBeforeTrip.toNat false hist → after ≠ .armedHealthy
  kept : ¬LastAll policy.successesBeforeRestore.toNat true hist →
    ¬LastAll policy.failuresBeforeTrip.toNat false hist → after = before
  changed_iff : changed = true ↔ after ≠ before

theorem Counted.hysteresisStep {policy : PmxLockdownPolicy} {hist : List Bool} {ld : PmxLockdown φ}
    (h : Counted policy hist ld) (hmode : policy.mode ≠ .off)
    (hS : 1 ≤ policy.successesBeforeRestore) (hF : 1 ≤ policy.failuresBeforeTrip)
    (F : PmxFirewall φ) (healthy : Bool) :
    HysteresisStep policy (hist ++ [healthy]) ld.state
      (pmxLockdownOnHealth F ld healthy).1.state (pmxLockdownOnHealth F ld healthy).2 := by
  have hoff := h.mode_ne_off hmode
  have hother : ∀ raw, ld.policy.mode ≠ .other raw := by
    rw [h.policy_eq]
    exact sanitizeMode_ne_other policy.mode
  have hpolS : ld.policy.successesBeforeRestore = policy.successesBeforeRestore := by
    rw [h.policy_eq]; rfl
  have hpolF : ld.policy.failuresBeforeTrip = policy.failuresBeforeTrip := by
    rw [h.policy_eq]; rfl
  cases healthy with
  | true =>
    have hlast : LastAll policy.successesBeforeRestore.toNat true (hist ++ [true]) ↔
        ld.policy.successesBeforeRestore ≤ ld.succ + 1 := by
      rw [lastAll_iff_le_streak, streak_concat_self, hpolS, h.succ]
      omega
    have hstate := onHealth_true_state (F := F) h.armed hoff
    have hnot : ¬LastAll policy.failuresBeforeTrip.toNat false (hist ++ [true]) :=
      not_lastAll_concat (Ne.symm Bool.false_ne_true) (by omega) hist
    refine ⟨fun hall => ?_, fun hall => absurd hall hnot, fun hall _ => ?_,
      onHealth_changed h.armed hoff true⟩
    · rw [hstate, if_pos (hlast.1 hall)]
    · rw [hstate, if_neg (fun hle => hall (hlast.2 hle))]
  | false =>
    have hlast : LastAll policy.failuresBeforeTrip.toNat false (hist ++ [false]) ↔
        ld.policy.failuresBeforeTrip ≤ ld.fails + 1 := by
      rw [lastAll_iff_le_streak, streak_concat_self, hpolF, h.fails]
      omega
    obtain ⟨htrip, hkeep⟩ := onHealth_false_state (F := F) h.armed hoff hother
    have hnot : ¬LastAll policy.successesBeforeRestore.toNat true (hist ++ [false]) :=
      not_lastAll_concat Bool.false_ne_true (by omega) hist
    exact ⟨fun hall => absurd hall hnot, fun hall => htrip (hlast.1 hall),
      fun _ hall => hkeep fun hle => hall (hlast.2 hle), onHealth_changed h.armed hoff false⟩

/-- **Hysteresis is exact.**  After any operations since the controller was armed, one more observation
leaves `ARMED_HEALTHY` if the last `successes_before_restore` were all healthy, another state if the last
`failures_before_trip` were all unhealthy, and otherwise the state it found. -/
theorem onHealth_hysteresis (F : PmxFirewall φ) (policy : PmxLockdownPolicy) (start : PmxLockdown φ)
    (hstart : JustArmed F policy start) (hmode : policy.mode ≠ .off)
    (hS : 1 ≤ policy.successesBeforeRestore) (hF : 1 ≤ policy.failuresBeforeTrip)
    (ops : List HysteresisOp) (healthy : Bool) :
    let ld := Runs.runFrom (hysteresisOp F policy) start ops
    HysteresisStep policy (observations ops ++ [healthy]) ld.state
      (pmxLockdownOnHealth F ld healthy).1.state (pmxLockdownOnHealth F ld healthy).2 := by
  have hcounted := (Counted.of_justArmed hstart).run hmode F ops [] start
  rw [List.nil_append] at hcounted
  exact hcounted.hysteresisStep hmode hS hF F healthy

/-- The default policy, armed over the stub firewall: a failure, a pushed policy, and a success. -/
theorem onHealth_hysteresis_defaults :
    let start := (pmxLockdownArm pmxFirewallStub (pmxLockdownCreate none (some stubFwCreate))).1
    let ld := Runs.runFrom (hysteresisOp pmxFirewallStub pmxLockdownPolicyDefaults) start
      [.observe false, .observe true, .setPolicy, .setAllowlist []]
    HysteresisStep pmxLockdownPolicyDefaults [false, true, true] ld.state
      (pmxLockdownOnHealth pmxFirewallStub ld true).1.state
      (pmxLockdownOnHealth pmxFirewallStub ld true).2 :=
  onHealth_hysteresis pmxFirewallStub pmxLockdownPolicyDefaults _
    (.arm (pmxLockdownCreate none (some stubFwCreate)) rfl) PmxLockdownMode.noConfusion (by decide)
    (by decide) [.observe false, .observe true, .setPolicy, .setAllowlist []] true

end ProxiMight
