import ProxiMight.Engine
import ProxiMight.ProfileJson

/-!
# Profiles with values that are not declared

A profile file may carry any integer where the program has an enumeration, and the integer is cast.  What
such a value does is decided by whoever looks at it.  An undeclared target kind or chain mode leaves the
verdict alone, and an undeclared lockdown mode is taken for fail-closed; an undeclared action falls
through the switch of `pmx_resolve_with_profile` to the verdict it started from.

* **`failsClosed_iff`** — a loaded profile fails closed on a query exactly when the deciding rule has a
  declared action.
-/

namespace ProxiMight

open CString

/-- The same profile in fail-closed. -/
def PmxProfile.asFailClosed (pf : PmxProfile) : PmxProfile :=
  { pf with lockdown := { pf.lockdown with mode := .failClosed } }

/-- The engine over another profile. -/
def PmxEngine.withProfile {φ β : Type} (e : PmxEngine φ β) (pf : PmxProfile) : PmxEngine φ β :=
  { e with profile := pf }

/-- Only a rule that says so lets a connection out directly, and a lockdown mode that is not declared
is fail-closed: a controller created with it and armed, and an engine started on it, are those of the
profile in fail-closed. -/
structure FailsClosed {φ β ω : Type} (F : PmxFirewall φ) (B : PmxBackend β ω) (pf : PmxProfile)
    (q : PmxConnQuery) : Prop where
  direct : (pmxResolveWithProfile pf q).verdict = .direct → ∀ r, Decides pf q r → r.action = .direct
  armed : ∀ raw, pf.lockdown.mode = .other raw → ∀ fw,
    pmxLockdownArm F (pmxLockdownCreate (some pf.lockdown) fw) =
      pmxLockdownArm F (pmxLockdownCreate (some pf.asFailClosed.lockdown) fw)
  started : ∀ raw, pf.lockdown.mode = .other raw → ∀ (e : PmxEngine φ β) (os : ω) stack,
    pmxEngineStart F B (e.withProfile pf) os stack =
      (let r := pmxEngineStart F B (e.withProfile pf.asFailClosed) os stack
      (r.1.withProfile pf, r.2))

/-- The verdict is DIRECT for the action DIRECT, and for one that is not declared. -/
theorem verdict_direct_iff (pf : PmxProfile) (q : PmxConnQuery) :
    (pmxResolveWithProfile pf q).verdict = .direct ↔
      (chooseRule pf q).action = .direct ∨ ∃ raw, (chooseRule pf q).action = .other raw := by
  cases ha : (chooseRule pf q).action with
  | other raw =>
    refine iff_of_true ?_ (Or.inr ⟨raw, rfl⟩)
    rw [pmxResolveWithProfile]
    simp only [ha]
    rfl
  | _ =>
    have hdecl : ∀ raw, (chooseRule pf q).action ≠ .other raw := by
      intro raw h
      rw [ha] at h
      cases h
    have hverdict := pmxResolveWithProfile_verdict hdecl
    rw [ha] at hverdict
    rw [← Option.some.inj hverdict]
    simp

/-- To set a policy is to set its sanitized form. -/
theorem pmxLockdownSetPolicy_sanitized {φ : Type} (F : PmxFirewall φ) (ld : PmxLockdown φ)
    (policy : PmxLockdownPolicy) :
    pmxLockdownSetPolicy F ld policy =
      pmxLockdownSetPolicy F ld { policy with mode := sanitizeMode policy.mode } := by
  have hmode : sanitizeMode (sanitizeMode policy.mode) = sanitizeMode policy.mode :=
    sanitizeMode_eq_self (sanitizeMode_ne_other policy.mode)
  rw [pmxLockdownSetPolicy, pmxLockdownSetPolicy]
  simp only [hmode]

section Modes

variable {φ β ω : Type} (F : PmxFirewall φ) (B : PmxBackend β ω) {pf : PmxProfile} {raw : Undeclared 3}

theorem arm_asFailClosed (hmode : pf.lockdown.mode = .other raw) (fw : Option φ) :
    pmxLockdownArm F (pmxLockdownCreate (some pf.lockdown) fw) =
      pmxLockdownArm F (pmxLockdownCreate (some pf.asFailClosed.lockdown) fw) := by
  simp only [pmxLockdownArm, pmxLockdownCreate, PmxProfile.asFailClosed, Option.getD_some, hmode,
    sanitizeMode]

/-- What a start does with an undeclared mode, the backend's stance included. -/
theorem start_asFailClosed (hmode : pf.lockdown.mode = .other raw) (e : PmxEngine φ β) (os : ω)
    (stack : ℕ → List UInt8) :
    pmxEngineStart F B (e.withProfile pf) os stack =
      (let r := pmxEngineStart F B (e.withProfile pf.asFailClosed) os stack
      (r.1.withProfile pf, r.2)) := by
  have hconfig : engineBackendConfig pf = engineBackendConfig pf.asFailClosed := by
    simp [engineBackendConfig, PmxProfile.asFailClosed, hmode]
  have hpolicy : ∀ ld, pmxLockdownSetPolicy F ld pf.lockdown =
      pmxLockdownSetPolicy F ld pf.asFailClosed.lockdown := by
    intro ld
    rw [pmxLockdownSetPolicy_sanitized, hmode]
    rfl
  have hstart : engineStartBackend B (e.withProfile pf) os =
      (let r := engineStartBackend B (e.withProfile pf.asFailClosed) os
      (r.1.withProfile pf, r.2)) := by
    simp only [engineStartBackend, applyCheckOpts, PmxEngine.withProfile, hconfig]
    rfl
  have hpush : ∀ (e : PmxEngine φ β) eps, pushAllowlist F (e.withProfile pf) eps =
      (pushAllowlist F (e.withProfile pf.asFailClosed) eps).withProfile pf := by
    intro e eps
    have happ : ∀ pf, (e.withProfile pf).allowApplied = e.allowApplied := fun _ => rfl
    rw [pushAllowlist, pushAllowlist, happ, happ]
    split_ifs <;> rfl
  have hrebuild : ∀ e : PmxEngine φ β, rebuildAllowlist F (e.withProfile pf) stack =
      (rebuildAllowlist F (e.withProfile pf.asFailClosed) stack).withProfile pf := by
    intro e
    rw [rebuildAllowlist, hpush]
    rfl
  have harm : ∀ e : PmxEngine φ β, engineArm F B (e.withProfile pf) stack =
      (engineArm F B (e.withProfile pf.asFailClosed) stack).withProfile pf := by
    intro e
    have hprofile : (rebuildAllowlist F (e.withProfile pf.asFailClosed) stack).profile
        = pf.asFailClosed := rebuildAllowlist_profile _ _
    rw [engineArm, engineArm, hrebuild]
    generalize rebuildAllowlist F (e.withProfile pf.asFailClosed) stack = e' at hprofile ⊢
    simp only [PmxEngine.withProfile, hprofile, hpolicy]
  have hrunning : ∀ pf, (e.withProfile pf).running = e.running := fun _ => rfl
  rw [pmxEngineStart, pmxEngineStart, hstart, hrunning, hrunning]
  dsimp only
  by_cases hrun : e.running = true
  · rw [if_pos hrun, if_pos hrun]
    rfl
  rw [if_neg hrun, if_neg hrun]
  by_cases hok : (engineStartBackend B (e.withProfile pf.asFailClosed) os).2 ≠ .ok
  · rw [if_pos hok, if_pos hok]
  · rw [if_neg hok, if_neg hok, harm]
    rfl

end Modes

/-- **When a loaded profile fails closed.**  For every text that is loaded and every query, exactly when
the deciding rule has a declared action. -/
theorem failsClosed_iff {φ β ω : Type} (F : PmxFirewall φ) (B : PmxBackend β ω) {C : CJson}
    {alloc : JsonAlloc} {pf₀ pf : PmxProfile} {text : CStr}
    (_ : pmxProfileFromJson C alloc pf₀ text = (pf, .ok)) (q : PmxConnQuery) :
    FailsClosed F B pf q ↔ ∀ r, Decides pf q r → ∀ raw, r.action ≠ .other raw := by
  constructor
  · intro h r hr raw hraw
    have hdirect := h.direct ((verdict_direct_iff pf q).2 (Or.inr ⟨raw, hr.eq_chooseRule ▸ hraw⟩)) r hr
    rw [hdirect] at hraw
    cases hraw
  · intro h
    refine ⟨fun hdirect r hr => ?_, fun raw hmode fw => arm_asFailClosed F hmode fw,
      fun raw hmode e os stack => start_asFailClosed F B hmode e os stack⟩
    rcases (verdict_direct_iff pf q).1 hdirect with ha | ⟨raw, ha⟩
    · rw [hr.eq_chooseRule, ha]
    · exact absurd ha (h _ (decides_chooseRule pf q) raw)


/-- A profile with a rule whose action is of another build. -/
def foreignText : CStr :=
  ⟨cstr (bytes "\x7b\"format\":\"pmxprofile\",\"rules\":[\x7b\"action\":3\x7d]\x7d"), nul_notMem_cstr _⟩

/-- The tree of that text. -/
def foreignTree : Json :=
  .obj [("format", jsonText pmxProfileFormat), ("rules", .arr [.obj [("action", jsonInt 3)]])]

/-- A profile that says nothing but its format. -/
def bareText : CStr :=
  ⟨cstr (bytes "\x7b\"format\":\"pmxprofile\"\x7d"), nul_notMem_cstr _⟩

/-- The tree of that text. -/
def bareTree : Json := .obj [("format", jsonText pmxProfileFormat)]

theorem failsClosed_iff_bare :
    FailsClosed pmxFirewallStub pmxBackendStub (profileFromTree .unlimited bareTree)
        ⟨none, none, none, 443⟩ ↔
      ∀ r, Decides (profileFromTree .unlimited bareTree) ⟨none, none, none, 443⟩ r →
        ∀ raw, r.action ≠ .other raw :=
  failsClosed_iff pmxFirewallStub pmxBackendStub
    (pmxProfileFromJson_oneText rfl .unlimited pmxProfileInit bareText) ⟨none, none, none, 443⟩

/-- Every connection goes out directly, by a rule whose action is not DIRECT. -/
theorem not_failsClosed_foreign :
    ∃ pf r, pmxProfileFromJson (oneTextCJson foreignText foreignTree) .unlimited pmxProfileInit
        foreignText = (pf, .ok) ∧
      Decides pf ⟨none, none, none, 443⟩ r ∧ r.action ≠ .direct ∧
      (pmxResolveWithProfile pf ⟨none, none, none, 443⟩).verdict = .direct := by
  refine ⟨_, _, pmxProfileFromJson_oneText rfl _ _ _, decides_chooseRule _ _, ?_, ?_⟩
  · decide +kernel
  · decide +kernel

end ProxiMight
