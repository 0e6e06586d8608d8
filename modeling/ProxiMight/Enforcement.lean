import ProxiMight.LockdownSafety

/-!
# What the firewall was last told

The controller keeps an allowlist and two flags, and passes them on whenever it engages the firewall.  A
firewall that is engaged already is not engaged again, except by `pmx_lockdown_set_allowlist`, so what
the firewall holds is a copy.

* **`firewallCurrent_iff`** — over runs: an engaged firewall of an armed controller holds the allowlist
  and the flags of the controller exactly as long as no call sets other flags while the firewall is
  engaged and stays so.
-/

namespace ProxiMight

open PmxLockdown

/-- What `engage` is given, as far as it is enforced. -/
structure EngageArgs where
  allow : List PmxFwEndpoint
  blockDnsLeak : Bool
  blockIpv6 : Bool
  deriving DecidableEq

/-- The arguments of an `engage` under this policy. -/
def engageArgs (allow : List PmxFwEndpoint) (policy : PmxLockdownPolicy) : EngageArgs :=
  ⟨allow, policy.blockDnsLeak, policy.blockIpv6⟩

variable {φ : Type}

/-- What the controller was told. -/
def PmxLockdown.args (ld : PmxLockdown φ) : EngageArgs := engageArgs ld.allow ld.policy

/-- The firewall always engages, and `received` is what it was engaged with last. -/
structure PmxFirewall.Receives (F : PmxFirewall φ) (received : φ → EngageArgs) : Prop where
  engage_ok : ∀ fw allow policy, (F.engage fw allow policy).2 = .ok
  engage_on : ∀ fw allow policy, F.isEngaged (F.engage fw allow policy).1 = true
  engage_received : ∀ fw allow policy,
    received (F.engage fw allow policy).1 = engageArgs allow policy
  disengage_off : ∀ fw, F.isEngaged (F.disengage fw).1 = false

theorem PmxFirewall.Receives.lawful {F : PmxFirewall φ} {received : φ → EngageArgs}
    (h : F.Receives received) : F.Lawful where
  engage_ok := fun fw allow policy _ => h.engage_on fw allow policy
  engage_failed := fun fw allow policy hbad => absurd (h.engage_ok fw allow policy) hbad
  disengage_off := h.disengage_off

section Current

variable (F : PmxFirewall φ) (received : φ → EngageArgs)

/-- An engaged firewall holds what the controller was told. -/
def InSync (ld : PmxLockdown φ) : Prop :=
  ∀ fw, ld.fw = some fw → F.isEngaged fw = true → received fw = ld.args

/-- What is enforced by an armed controller is what it was told. -/
def FirewallCurrent (ld : PmxLockdown φ) : Prop := ld.armed = true → InSync F received ld

/-- The call sets other flags while the firewall is engaged, and keeps it engaged. -/
def SwapsFlags (ld : PmxLockdown φ) : LockdownOp → Prop
  | .setPolicy policy =>
    ld.armed = true ∧ ld.engaged F = true ∧ modeBlocks (sanitizeMode policy.mode) = true ∧
      ¬(policy.blockDnsLeak = ld.policy.blockDnsLeak ∧ policy.blockIpv6 = ld.policy.blockIpv6)
  | _ => False

end Current

variable {F : PmxFirewall φ} {received : φ → EngageArgs} {ld : PmxLockdown φ}

theorem inSync_of_not_engaged (hoff : ld.engaged F = false) : InSync F received ld := by
  intro fw hfw hon
  rw [PmxLockdown.engaged, hfw, Option.any_some, hon] at hoff
  cases hoff

/-- The arguments are the only thing besides the firewall that counts. -/
theorem InSync.of_same {ld' : PmxLockdown φ} (hfw : ld'.fw = ld.fw) (hargs : ld'.args = ld.args)
    (h : InSync F received ld) : InSync F received ld' := by
  intro fw hsome hon
  rw [hargs]
  exact h fw (hfw ▸ hsome) hon

theorem inSync_releaseFw (hF : F.Receives received) : InSync F received (ld.releaseFw F) :=
  inSync_of_not_engaged (releaseFw_engaged ld hF.lawful)

/-- **To engage is to pass on what the controller was told.** -/
theorem inSync_applyEngage (hF : F.Receives received) :
    InSync F received (ld.applyEngage F).1 := by
  rw [applyEngage]
  split
  · next hnone =>
    intro fw hfw
    rw [hnone] at hfw
    cases hfw
  · intro fw hfw _
    obtain rfl := Option.some.inj hfw
    exact hF.engage_received _ _ _

/-- An engaged firewall is left with what it has. -/
theorem inSync_ensureEngaged (hF : F.Receives received) :
    InSync F received (ld.ensureEngaged F).1 ↔ InSync F received ld := by
  rw [ensureEngaged]
  split_ifs with hon
  · exact Iff.rfl
  · exact iff_of_true (inSync_applyEngage hF) (inSync_of_not_engaged (by simpa using hon))

/-- Reconciling takes the flags over only if the new mode lets the firewall go. -/
theorem inSync_reconcile (hF : F.Receives received) :
    InSync F received (lockdownReconcile F ld).1 ↔
      (modeBlocks ld.policy.mode = true → InSync F received ld) := by
  have hreset : InSync F received ld.resetCounters ↔ InSync F received ld := Iff.rfl
  have hpol : ld.resetCounters.policy = ld.policy := rfl
  rw [lockdownReconcile]
  simp only [hpol]
  split_ifs with hoff hblock
  · refine iff_of_true (inSync_releaseFw hF) ?_
    rw [hoff]
    intro hc
    cases hc
  · simp only [hblock, forall_const]
    exact (inSync_ensureEngaged hF).trans hreset
  · simp only [hblock, forall_const]
    exact (inSync_ensureEngaged hF).trans hreset
  · simp only [hblock, forall_const]
    exact (inSync_ensureEngaged hF).trans hreset
  · exact iff_of_true (inSync_releaseFw hF) (fun hc => absurd hc hblock)

theorem inSync_onHealth (hF : F.Receives received) (h : InSync F received ld) (healthy : Bool) :
    InSync F received (pmxLockdownOnHealth F ld healthy).1 := by
  have hcount : InSync F received (ld.countHealth healthy) := by
    cases healthy <;> exact h
  have htripTo : ∀ blocking, InSync F received ((ld.countHealth healthy).tripTo F blocking) :=
    fun _ => (inSync_ensureEngaged hF).2 hcount
  rw [pmxLockdownOnHealth]
  dsimp only
  split_ifs
  · exact h
  · rw [restore]
    split_ifs
    · exact inSync_releaseFw hF
    · exact hcount
  · rw [trip]
    split
    · exact htripTo _
    · exact htripTo _
    · exact inSync_releaseFw hF
    · exact hcount
  · exact hcount

/-- The policy changes under an engaged firewall. -/
theorem inSync_set_policy (hon : ld.engaged F = true) (h : InSync F received ld)
    (policy : PmxLockdownPolicy) :
    InSync F received { ld with policy := policy } ↔
      policy.blockDnsLeak = ld.policy.blockDnsLeak ∧ policy.blockIpv6 = ld.policy.blockIpv6 := by
  obtain ⟨fw, hfw, hfwon⟩ := (Option.any_eq_true _ _).1 hon
  have hrecv := h fw hfw hfwon
  constructor
  · intro hnew
    have heq : ld.args = engageArgs ld.allow policy := hrecv.symm.trans (hnew fw hfw hfwon)
    exact ⟨(congrArg EngageArgs.blockDnsLeak heq).symm, (congrArg EngageArgs.blockIpv6 heq).symm⟩
  · rintro ⟨hdns, hipv6⟩
    intro fw' hfw' hon'
    rw [h fw' hfw' hon', PmxLockdown.args, PmxLockdown.args, engageArgs, engageArgs, hdns, hipv6]

/-- A change of policy is taken over unless it swaps the flags under an engaged firewall. -/
theorem firewallCurrent_setPolicy (hF : F.Receives received) (hhonest : Honest F ld)
    (h : FirewallCurrent F received ld) (policy : PmxLockdownPolicy) :
    FirewallCurrent F received (pmxLockdownSetPolicy F ld policy) ↔
      ¬SwapsFlags F ld (.setPolicy policy) := by
  rw [FirewallCurrent, pmxLockdownSetPolicy_armed]
  cases harmed : ld.armed with
  | false =>
    refine iff_of_true (fun hc => by cases hc) (fun hbad => ?_)
    exact Bool.false_ne_true (harmed.symm.trans hbad.1)
  | true =>
    simp only [forall_const]
    have hsync := h harmed
    cases hon : ld.engaged F with
    | false =>
      have hset : InSync F received
          { ld with policy := { policy with mode := sanitizeMode policy.mode } } :=
        inSync_of_not_engaged hon
      refine iff_of_true ?_ (fun hbad => ?_)
      · rcases pmxLockdownSetPolicy_cases F ld policy with ⟨-, -, hrec⟩ | ⟨-, heq⟩
        · rw [hrec]
          exact (inSync_reconcile hF).2 fun _ => hset
        · rw [heq]
          exact hset
      · exact Bool.false_ne_true (hon.symm.trans hbad.2.1)
    | true =>
      have hset := inSync_set_policy hon hsync { policy with mode := sanitizeMode policy.mode }
      have hswap : SwapsFlags F ld (.setPolicy policy) ↔
          modeBlocks (sanitizeMode policy.mode) = true ∧
            ¬(policy.blockDnsLeak = ld.policy.blockDnsLeak ∧
              policy.blockIpv6 = ld.policy.blockIpv6) := by
        simp [SwapsFlags, harmed, hon]
      rw [hswap, not_and, not_not, ← hset]
      rcases pmxLockdownSetPolicy_cases F ld policy with ⟨-, -, hrec⟩ | ⟨hsame, heq⟩
      · rw [hrec]
        exact inSync_reconcile hF
      · -- an engaged firewall means a mode that blocks, and this one is the same
        have hblocks : modeBlocks (sanitizeMode policy.mode) = true := by
          rw [hsame harmed]
          rcases modeBlocks_or ld.policy.mode (hhonest.declared harmed) with hm | hm | hm
          · rw [hhonest.released (Or.inr (Or.inl hm))] at hon
            cases hon
          · exact hm
          · rw [hhonest.released (Or.inr (Or.inr hm))] at hon
            cases hon
        rw [heq]
        simp only [hblocks, forall_const]

/-- **One call leaves the firewall with what the controller was told, unless it swaps its flags.** -/
theorem firewallCurrent_step (hF : F.Receives received) (op : LockdownOp) (hhonest : Honest F ld)
    (h : FirewallCurrent F received ld) :
    FirewallCurrent F received (lockdownStep F ld op) ↔ ¬SwapsFlags F ld op := by
  cases op with
  | arm =>
    refine iff_of_true (fun _ => ?_) (fun hbad => hbad)
    refine (inSync_reconcile hF).2 fun _ => ?_
    cases harmed : ld.armed with
    | false => exact inSync_of_not_engaged (hhonest.released (Or.inl harmed))
    | true => exact (h harmed).of_same rfl rfl
  | disarm =>
    refine iff_of_true (fun harmed => ?_) (fun hbad => hbad)
    rw [show (lockdownStep F ld .disarm).armed = false from pmxLockdownDisarm_armed F ld] at harmed
    cases harmed
  | setPolicy policy => exact firewallCurrent_setPolicy hF hhonest h policy
  | setAllowlist eps =>
    refine iff_of_true (fun harmed => ?_) (fun hbad => hbad)
    rw [lockdownStep, pmxLockdownSetAllowlist_armed] at harmed
    show InSync F received (pmxLockdownSetAllowlist F ld eps)
    rw [pmxLockdownSetAllowlist]
    dsimp only
    split_ifs with hon
    · exact inSync_applyEngage hF
    · rw [show ld.armed = true from harmed, Bool.true_and, Bool.not_eq_true] at hon
      exact inSync_of_not_engaged hon
  | onHealth healthy =>
    refine iff_of_true (fun harmed => ?_) (fun hbad => hbad)
    rw [lockdownStep, pmxLockdownOnHealth_armed] at harmed
    exact inSync_onHealth hF (h harmed) healthy

/-- **When the firewall enforces what the controller was told.**  In every state of a run an engaged
firewall of an armed controller holds the allowlist and the flags of the controller exactly when no call
of the run swaps the flags under an engaged firewall. -/
theorem firewallCurrent_iff (hF : F.Receives received) (policy : Option PmxLockdownPolicy)
    (fw : Option φ) (hfw : ∀ s, fw = some s → F.isEngaged s = false) (ops : List LockdownOp) :
    Runs.EachState (lockdownStep F) (FirewallCurrent F received) (pmxLockdownCreate policy fw) ops ↔
      Runs.EachStep (lockdownStep F) (fun ld op => ¬SwapsFlags F ld op)
        (pmxLockdownCreate policy fw) ops :=
  Runs.eachState_iff_eachStep (Honest F) (Honest.step hF.lawful)
    (fun _ op hhonest h => firewallCurrent_step hF op hhonest h) ops _
    (Honest.create F policy fw hfw) (fun harmed => by cases harmed)

/-- A firewall that records what it is engaged with. -/
def recordingFw : PmxFirewall (Bool × EngageArgs) where
  engage := fun _ allow policy => ((true, engageArgs allow policy), .ok)
  disengage := fun fw => ((false, fw.2), .ok)
  isEngaged := fun fw => fw.1

theorem recordingFw_receives : recordingFw.Receives Prod.snd where
  engage_ok := fun _ _ _ => rfl
  engage_on := fun _ _ _ => rfl
  engage_received := fun _ _ _ => rfl
  disengage_off := fun _ => rfl

/-- A recording firewall that nobody has engaged yet. -/
def recordingFwCreate : Bool × EngageArgs := (false, ⟨[], false, false⟩)

/-- Armed, and then the mode is switched to one that does not block and back. -/
theorem firewallCurrent_iff_recording :
    Runs.EachState (lockdownStep recordingFw) (FirewallCurrent recordingFw Prod.snd)
        (pmxLockdownCreate none (some recordingFwCreate))
        [.arm, .setPolicy { pmxLockdownPolicyDefaults with mode := .failOpen, blockIpv6 := false },
          .setPolicy pmxLockdownPolicyDefaults] ↔
      Runs.EachStep (lockdownStep recordingFw) (fun ld op => ¬SwapsFlags recordingFw ld op)
        (pmxLockdownCreate none (some recordingFwCreate))
        [.arm, .setPolicy { pmxLockdownPolicyDefaults with mode := .failOpen, blockIpv6 := false },
          .setPolicy pmxLockdownPolicyDefaults] :=
  firewallCurrent_iff recordingFw_receives none (some recordingFwCreate)
    (fun _ h => by cases h; rfl) _

/-- The user arms with IPv6 allowed and then switches "Block IPv6" on: the firewall never hears of it. -/
theorem not_firewallCurrent_blockIpv6 :
    let ld := Runs.runFrom (lockdownStep recordingFw)
      (pmxLockdownCreate (some { pmxLockdownPolicyDefaults with blockIpv6 := false })
        (some recordingFwCreate)) [.arm, .setPolicy pmxLockdownPolicyDefaults]
    recordingFw.Receives Prod.snd ∧ ld.armed = true ∧ ld.engaged recordingFw = true ∧
      ld.policy.blockIpv6 = true ∧ (ld.fw.map fun fw => fw.2.blockIpv6) = some false :=
  ⟨recordingFw_receives, by decide⟩

end ProxiMight
