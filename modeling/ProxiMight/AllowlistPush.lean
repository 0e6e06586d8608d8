import ProxiMight.HealthWatcher
import ProxiMight.LockdownSafety

/-!
# Pushing the allowlist to the firewall

`rebuild_allowlist` pushes a list that has changed, the controller applies it again if the firewall is
engaged, and the engine writes down what it has pushed.  Nobody looks at what the firewall answers, or
whether it was asked: the list counts as applied, and no later rebuild pushes it again.

The firewall is any whose successful engage leaves it engaged; a failed one may leave it as it was or let
go of it.  Beside its state stands a note of the list it accepted.

* **`rebuildTold_iff`** — one rebuild.
* **`allowlistPush`** — over runs: each list is accepted or pushed again exactly where every rebuild of an
  armed, blocking controller finds the last engage accepted, or has a changed list accepted at once.
-/

namespace ProxiMight

open CString PmxLockdown Runs

variable {φ β ω : Type} {F : PmxFirewall φ} {B : PmxBackend β ω}

/-- What `engage` promises: after a success the firewall is engaged. -/
def EngageHolds (F : PmxFirewall φ) : Prop :=
  ∀ fw allow policy, (F.engage fw allow policy).2 = .ok →
    F.isEngaged (F.engage fw allow policy).1 = true

/-! ### The note -/

/-- A firewall object, with the list of its last engage if that succeeded and was not disengaged since. -/
structure Noted (φ : Type) where
  fw : φ
  accepted : Option (List PmxFwEndpoint)
  deriving DecidableEq

/-- The firewall with the note; it answers as without. -/
def noting (F : PmxFirewall φ) : PmxFirewall (Noted φ) where
  engage n allow policy :=
    let r := F.engage n.fw allow policy
    (⟨r.1, if r.2 = .ok then some allow else none⟩, r.2)
  disengage n :=
    let r := F.disengage n.fw
    (⟨r.1, none⟩, r.2)
  isEngaged n := F.isEngaged n.fw

/-- A firewall object that has not accepted anything yet. -/
def notedNew (fw : Option φ) : Option (Noted φ) := fw.map fun fw => ⟨fw, none⟩

/-- The list the firewall of the controller has accepted. -/
def PmxLockdown.accepted (ld : PmxLockdown (Noted φ)) : Option (List PmxFwEndpoint) :=
  ld.fw.bind Noted.accepted

/-! ### What a rebuild owes -/

/-- The states that tell the user that nothing gets out past the proxy. -/
def promisesBlock : PmxLockdownState → Bool
  | .armedHealthy => true
  | .trippedBlocking => true
  | .failingOver => true
  | _ => false

/-- The controller is armed in a blocking mode. -/
def Guards (ld : PmxLockdown φ) : Prop := ld.armed = true ∧ modeBlocks ld.policy.mode = true

instance (ld : PmxLockdown φ) : Decidable (Guards ld) := inferInstanceAs (Decidable (_ ∧ _))

/-- The list that `rebuild_allowlist` computes. -/
def computedList (e : PmxEngine φ β) (stack : ℕ → List UInt8) : List PmxFwEndpoint :=
  writeEndpoints stack (allowEndpoints e.profile)

/-- The list is not the one that counts as applied, so a rebuild pushes it. -/
def PushDue (e : PmxEngine φ β) (eps : List PmxFwEndpoint) : Prop :=
  eps.length ≠ e.allowApplied.length ∨ (eps.length > 0 ∧ eps ≠ e.allowApplied)

instance (e : PmxEngine φ β) (eps : List PmxFwEndpoint) : Decidable (PushDue e eps) :=
  inferInstanceAs (Decidable (_ ∨ _))

/-- A rebuild of an armed controller in a blocking mode is neither hidden nor forgotten: only an engaged
firewall is reported as blocking, and a list that the firewall has not accepted will be pushed again. -/
structure RebuildTold (F : PmxFirewall φ) (e : PmxEngine (Noted φ) β) (stack : ℕ → List UInt8) :
    Prop where
  truthful : Guards e.lockdown →
    promisesBlock (rebuildAllowlist (noting F) e stack).lockdown.state = true →
      (rebuildAllowlist (noting F) e stack).lockdown.engaged (noting F) = true
  retried : Guards e.lockdown →
    (rebuildAllowlist (noting F) e stack).lockdown.accepted ≠ some (computedList e stack) →
      PushDue (rebuildAllowlist (noting F) e stack) (computedList e stack)

/-- What the rebuild of an armed controller in a blocking mode meets: a changed list meets an engaged firewall
that accepts it; an unchanged one a firewall that has accepted the last list it was given. -/
def RebuildAccepted (F : PmxFirewall φ) (e : PmxEngine (Noted φ) β) (stack : ℕ → List UInt8) : Prop :=
  Guards e.lockdown →
    if PushDue e (computedList e stack) then
      e.lockdown.engaged (noting F) = true ∧
        (({ e.lockdown with allow := (computedList e stack).take pmxMaxAllowlist }).applyEngage
          (noting F)).2 = .ok
    else e.lockdown.accepted ≠ none

instance (e : PmxEngine (Noted φ) β) (stack : ℕ → List UInt8) : Decidable (RebuildAccepted F e stack) :=
  inferInstanceAs (Decidable (Guards e.lockdown → ite _ _ _))

/-- The engine a step calls `rebuild_allowlist` on, and what the stack holds then. -/
def rebuildAt (B : PmxBackend β ω) (e : PmxEngine φ β) :
    EngineOp β ω → Option (PmxEngine φ β × (ℕ → List UInt8))
  | .start os stack =>
    if e.running || decide ((engineStartBackend B e os).2 ≠ .ok) then none
    else some ((engineStartBackend B e os).1, stack)
  | .pump env =>
    let e := pumpPrelude B e env
    if e.running = true ∧ Watching e ∧ TickDue e env then some (e, env.stack) else none
  | _ => none

theorem rebuildAt_pump {e : PmxEngine φ β} {env : PumpEnv}
    (h : (pumpPrelude B e env).running = true ∧ Watching (pumpPrelude B e env) ∧
      TickDue (pumpPrelude B e env) env) :
    rebuildAt B e (.pump env) = some (pumpPrelude B e env, env.stack) := if_pos h

/-- The rebuild of the step, if there is one, is told. -/
def StepTold (F : PmxFirewall φ) (B : PmxBackend β ω) (e : PmxEngine (Noted φ) β)
    (op : EngineOp β ω) : Prop :=
  ∀ e₁ stack, rebuildAt B e op = some (e₁, stack) → RebuildTold F e₁ stack

/-- The rebuild of the step, if there is one, is accepted. -/
def StepAccepted (F : PmxFirewall φ) (B : PmxBackend β ω) (e : PmxEngine (Noted φ) β)
    (op : EngineOp β ω) : Prop :=
  ∀ e₁ stack, rebuildAt B e op = some (e₁, stack) → RebuildAccepted F e₁ stack

/-! ### Calls on the controller -/

theorem EngageHolds.noting (hF : EngageHolds F) : EngageHolds (noting F) :=
  fun n allow policy hok => hF n.fw allow policy hok

theorem applyEngage_ok (hF : EngageHolds F) {ld : PmxLockdown φ} (h : (ld.applyEngage F).2 = .ok) :
    (ld.applyEngage F).1.engaged F = true := by
  rw [applyEngage] at h ⊢
  cases hfw : ld.fw with
  | none =>
    rw [hfw] at h
    cases h
  | some fw =>
    rw [hfw] at h
    exact hF fw ld.allow ld.policy h

/-- What is noted is the stored list of an armed controller, and the firewall is engaged. -/
def NoteHolds (F : PmxFirewall φ) (ld : PmxLockdown (Noted φ)) : Prop :=
  ∀ l, ld.accepted = some l → ld.armed = true ∧ ld.engaged (noting F) = true ∧ l = ld.allow

theorem NoteHolds.of_none {ld : PmxLockdown (Noted φ)} (h : ld.accepted = none) : NoteHolds F ld :=
  fun l hl => by rw [h] at hl; cases hl

/-- An engage is noted as it was answered. -/
theorem applyEngage_accepted (ld : PmxLockdown (Noted φ)) :
    (ld.applyEngage (noting F)).1.accepted
      = if (ld.applyEngage (noting F)).2 = .ok then some ld.allow else none := by
  rw [applyEngage]
  cases hfw : ld.fw with
  | none =>
    show ld.fw.bind Noted.accepted = _
    rw [hfw]
    rfl
  | some n => rfl

theorem NoteHolds.applyEngage (hF : EngageHolds F) {ld : PmxLockdown (Noted φ)} (harmed : ld.armed = true) :
    NoteHolds F (ld.applyEngage (noting F)).1 := by
  intro l hl
  rw [applyEngage_accepted] at hl
  split_ifs at hl with hok
  rw [applyEngage_armed, applyEngage_allow]
  exact ⟨harmed, applyEngage_ok hF.noting hok, (Option.some.inj hl).symm⟩

theorem NoteHolds.ensureEngaged (hF : EngageHolds F) {ld : PmxLockdown (Noted φ)} (h : NoteHolds F ld)
    (harmed : ld.armed = true) : NoteHolds F (ld.ensureEngaged (noting F)).1 := by
  rw [PmxLockdown.ensureEngaged]
  split_ifs
  · exact h
  · exact NoteHolds.applyEngage hF harmed

/-- Nothing is noted once the firewall was let go of. -/
theorem releaseFw_accepted {ld : PmxLockdown (Noted φ)}
    (hon : ∀ l, ld.accepted = some l → ld.engaged (noting F) = true) :
    (ld.releaseFw (noting F)).accepted = none := by
  rw [releaseFw]
  split_ifs with hengaged
  · show (ld.fw.map fun n => ((noting F).disengage n).1).bind Noted.accepted = none
    cases ld.fw with
    | none => rfl
    | some n => rfl
  · by_contra hne
    obtain ⟨l, hl⟩ := Option.ne_none_iff_exists'.1 hne
    exact hengaged (hon l hl)

theorem NoteHolds.releaseFw {ld : PmxLockdown (Noted φ)} (h : NoteHolds F ld) :
    NoteHolds F (ld.releaseFw (noting F)) :=
  .of_none (releaseFw_accepted fun l hl => (h l hl).2.1)

theorem NoteHolds.reconcile (hF : EngageHolds F) {ld : PmxLockdown (Noted φ)} (h : NoteHolds F ld)
    (harmed : ld.armed = true) : NoteHolds F (lockdownReconcile (noting F) ld).1 := by
  have hreset : NoteHolds F ld.resetCounters := h
  rw [lockdownReconcile]
  dsimp only
  by_cases hoff : ld.resetCounters.policy.mode = .off
  · rw [if_pos hoff]
    exact hreset.releaseFw
  rw [if_neg hoff]
  by_cases hblock : modeBlocks ld.resetCounters.policy.mode = true
  · rw [if_pos hblock]
    by_cases hok : (ld.resetCounters.ensureEngaged (noting F)).2 = .ok
    · rw [if_pos hok]
      exact hreset.ensureEngaged hF harmed
    · rw [if_neg hok]
      exact hreset.ensureEngaged hF harmed
  · rw [if_neg hblock]
    exact hreset.releaseFw

theorem NoteHolds.setPolicy (hF : EngageHolds F) {ld : PmxLockdown (Noted φ)} (h : NoteHolds F ld)
    (policy : PmxLockdownPolicy) : NoteHolds F (pmxLockdownSetPolicy (noting F) ld policy) := by
  rcases pmxLockdownSetPolicy_cases (noting F) ld policy with ⟨harmed, -, hrec⟩ | ⟨-, hset⟩
  · rw [hrec]
    have hstored : NoteHolds F { ld with policy := { policy with mode := sanitizeMode policy.mode } } := h
    exact hstored.reconcile hF harmed
  · rw [hset]
    exact h

theorem NoteHolds.arm (hF : EngageHolds F) {ld : PmxLockdown (Noted φ)} (h : NoteHolds F ld) :
    NoteHolds F (pmxLockdownArm (noting F) ld).1 := by
  refine NoteHolds.reconcile hF ?_ rfl
  intro l hl
  exact ⟨rfl, (h l hl).2⟩

theorem NoteHolds.disarm {ld : PmxLockdown (Noted φ)} (h : NoteHolds F ld) :
    NoteHolds F (pmxLockdownDisarm (noting F) ld) := by
  have hnone : (({ ld with armed := false }).releaseFw (noting F)).accepted = none :=
    releaseFw_accepted fun l hl => (h l hl).2.1
  exact .of_none hnone

theorem NoteHolds.trip (hF : EngageHolds F) {ld : PmxLockdown (Noted φ)} (h : NoteHolds F ld)
    (harmed : ld.armed = true) : NoteHolds F (ld.trip (noting F)) := by
  rw [PmxLockdown.trip]
  split
  · exact h.ensureEngaged hF harmed
  · exact h.ensureEngaged hF harmed
  · exact h.releaseFw
  · exact h

theorem NoteHolds.onHealth (hF : EngageHolds F) {ld : PmxLockdown (Noted φ)} (h : NoteHolds F ld)
    (healthy : Bool) : NoteHolds F (pmxLockdownOnHealth (noting F) ld healthy).1 := by
  by_cases hidle : ld.armed = false ∨ ld.policy.mode = .off
  · rw [pmxLockdownOnHealth_idle ld healthy hidle]
    exact h
  rw [not_or, Bool.not_eq_false] at hidle
  have hcount : NoteHolds F (ld.countHealth healthy) := by
    cases healthy <;> exact h
  rw [pmxLockdownOnHealth_active ld healthy hidle.1 hidle.2]
  split_ifs
  · rw [PmxLockdown.restore]
    split_ifs
    · exact hcount.releaseFw
    · exact hcount
  · exact hcount.trip hF (by rw [countHealth_armed, hidle.1])
  · exact hcount

theorem NoteHolds.polled (hF : EngageHolds F) (hs : List Bool) {ld : PmxLockdown (Noted φ)}
    (h : NoteHolds F ld) :
    NoteHolds F (hs.foldl (fun ld healthy => (pmxLockdownOnHealth (noting F) ld healthy).1) ld) := by
  induction hs generalizing ld with
  | nil => exact h
  | cons healthy hs ih => exact ih (h.onHealth hF healthy)

/-- A new list is noted if it was pushed and accepted; without an engaged firewall nothing is. -/
theorem setAllowlist_accepted {ld : PmxLockdown (Noted φ)} (h : NoteHolds F ld) (eps : List PmxFwEndpoint) :
    (pmxLockdownSetAllowlist (noting F) ld eps).accepted =
      if (ld.armed = true ∧ ld.engaged (noting F) = true) ∧
        (({ ld with allow := eps.take pmxMaxAllowlist }).applyEngage (noting F)).2 = .ok then
        some (eps.take pmxMaxAllowlist)
      else none := by
  have hguard : (ld.armed && ({ ld with allow := eps.take pmxMaxAllowlist }).engaged (noting F)) = true ↔
      ld.armed = true ∧ ld.engaged (noting F) = true := Bool.and_eq_true_iff
  rw [pmxLockdownSetAllowlist]
  dsimp only
  by_cases hpush : ld.armed = true ∧ ld.engaged (noting F) = true
  · rw [if_pos (hguard.2 hpush), applyEngage_accepted]
    exact if_congr (and_iff_right hpush).symm rfl rfl
  · rw [if_neg fun hg => hpush (hguard.1 hg), if_neg fun hboth => hpush hboth.1]
    show ld.accepted = none
    by_contra hne
    obtain ⟨l, hl⟩ := Option.ne_none_iff_exists'.1 hne
    exact hpush ⟨(h l hl).1, (h l hl).2.1⟩

theorem NoteHolds.setAllowlist (hF : EngageHolds F) {ld : PmxLockdown (Noted φ)} (h : NoteHolds F ld)
    (eps : List PmxFwEndpoint) : NoteHolds F (pmxLockdownSetAllowlist (noting F) ld eps) := by
  have hnote := setAllowlist_accepted h eps
  by_cases hpush : (ld.armed && ({ ld with allow := eps.take pmxMaxAllowlist }).engaged (noting F)) = true
  · rw [pmxLockdownSetAllowlist, if_pos hpush]
    exact NoteHolds.applyEngage hF (Bool.and_eq_true_iff.1 hpush).1
  · rw [if_neg fun hboth => hpush (Bool.and_eq_true_iff.2 hboth.1)] at hnote
    exact .of_none hnote

/-! ### One rebuild -/

/-- After a rebuild its list counts as applied. -/
theorem rebuildAllowlist_allowApplied (e : PmxEngine φ β) (stack : ℕ → List UInt8) :
    (rebuildAllowlist F e stack).allowApplied = computedList e stack := by
  rcases rebuildAllowlist_cases (F := F) e stack with h | ⟨hsame, h⟩
  · rw [h]
    rfl
  · rw [h]
    exact hsame

theorem not_pushDue_rebuilt (e : PmxEngine φ β) (stack : ℕ → List UInt8) :
    ¬PushDue (rebuildAllowlist F e stack) (computedList e stack) := by
  rw [PushDue, rebuildAllowlist_allowApplied]
  rintro (h | h)
  · exact h rfl
  · exact h.2 rfl

theorem rebuildAllowlist_of_due {e : PmxEngine φ β} {stack : ℕ → List UInt8}
    (h : PushDue e (computedList e stack)) :
    (rebuildAllowlist F e stack).lockdown
      = pmxLockdownSetAllowlist F e.lockdown (computedList e stack) := by
  rw [PushDue] at h
  show (pushAllowlist F e (computedList e stack)).lockdown = _
  rw [pushAllowlist, if_pos h]

theorem rebuildAllowlist_of_not_due {e : PmxEngine φ β} {stack : ℕ → List UInt8}
    (h : ¬PushDue e (computedList e stack)) :
    (rebuildAllowlist F e stack).lockdown = e.lockdown ∧ computedList e stack = e.allowApplied := by
  have hpush : pushAllowlist F e (computedList e stack) = e := if_neg h
  have happlied := rebuildAllowlist_allowApplied (F := F) e stack
  change (pushAllowlist F e (computedList e stack)).allowApplied = _ at happlied
  rw [hpush] at happlied
  refine ⟨?_, happlied.symm⟩
  show (pushAllowlist F e (computedList e stack)).lockdown = _
  rw [hpush]

theorem NoteHolds.rebuild (hF : EngageHolds F) {e : PmxEngine (Noted φ) β} (h : NoteHolds F e.lockdown)
    (stack : ℕ → List UInt8) : NoteHolds F (rebuildAllowlist (noting F) e stack).lockdown := by
  by_cases hdue : PushDue e (computedList e stack)
  · rw [rebuildAllowlist_of_due hdue]
    exact h.setAllowlist hF _
  · rw [(rebuildAllowlist_of_not_due hdue).1]
    exact h

/-- The rebuild of an armed controller leaves its list accepted exactly if it met what it has to meet. -/
theorem accepted_rebuilt_iff {e : PmxEngine (Noted φ) β}
    (hallow : e.lockdown.allow = e.allowApplied) (h : NoteHolds F e.lockdown)
    (hguards : Guards e.lockdown) (stack : ℕ → List UInt8) :
    (rebuildAllowlist (noting F) e stack).lockdown.accepted = some (computedList e stack) ↔
      RebuildAccepted F e stack := by
  have hfits : (computedList e stack).take pmxMaxAllowlist = computedList e stack :=
    List.take_of_length_le (writeEndpoints_length_le stack e.profile)
  refine Iff.trans ?_ (forall_prop_of_true hguards).symm
  by_cases hdue : PushDue e (computedList e stack)
  · rw [rebuildAllowlist_of_due hdue, setAllowlist_accepted h, if_pos hdue]
    refine Iff.trans ?_ (and_congr_left' (and_iff_right hguards.1))
    split_ifs with hmet
    · exact iff_of_true (congrArg some hfits) hmet
    · exact iff_of_false nofun hmet
  · obtain ⟨hsame, hlist⟩ := rebuildAllowlist_of_not_due (F := noting F) hdue
    rw [hsame, if_neg hdue]
    constructor
    · intro hacc hnone
      rw [hnone] at hacc
      cases hacc
    · intro hne
      obtain ⟨l, hl⟩ := Option.ne_none_iff_exists'.1 hne
      rw [hl, (h l hl).2.2, hallow, hlist]

/-- **One rebuild** is told exactly if its list is accepted at once or was accepted before. -/
theorem rebuildTold_iff (hF : EngageHolds F) {e : PmxEngine (Noted φ) β}
    (hallow : e.lockdown.allow = e.allowApplied) (h : NoteHolds F e.lockdown) (stack : ℕ → List UInt8) :
    RebuildTold F e stack ↔ RebuildAccepted F e stack := by
  constructor
  · intro htold hguards
    refine (accepted_rebuilt_iff hallow h hguards stack).1 ?_ hguards
    by_contra hrefused
    exact not_pushDue_rebuilt e stack (htold.retried hguards hrefused)
  · intro hacc
    have hlist : Guards e.lockdown →
        (rebuildAllowlist (noting F) e stack).lockdown.accepted = some (computedList e stack) :=
      fun hguards => (accepted_rebuilt_iff hallow h hguards stack).2 hacc
    exact ⟨fun hguards _ => (h.rebuild hF stack _ (hlist hguards)).2.1,
      fun hguards hrefused => absurd (hlist hguards) hrefused⟩

/-! ### One step -/

theorem NoteHolds.tick (hF : EngageHolds F) {e : PmxEngine (Noted φ) β} (h : NoteHolds F e.lockdown)
    (env : PumpEnv) : NoteHolds F (healthTick (noting F) e env).lockdown := by
  by_cases hdue : TickDue e env
  · have hrebuilt := h.rebuild hF env.stack
    rcases healthTick_of_due (F := noting F) hdue with ⟨-, hc, heq⟩ | ⟨-, heq⟩
    · rw [heq]
      exact hrebuilt
    · rw [heq]
      exact hrebuilt.onHealth hF false
  · rw [healthTick_of_not_due hdue]
    exact h

theorem NoteHolds.pump (hF : EngageHolds F) {e : PmxEngine (Noted φ) β} (h : NoteHolds F e.lockdown)
    (env : PumpEnv) : NoteHolds F (pmxEnginePump (noting F) B e env).lockdown := by
  by_cases hw : e.running = true ∧ Watching e
  · obtain ⟨e₁, hsame, heq⟩ := pmxEnginePump_of_watching (F := noting F) (B := B) env hw.1 hw.2
    have htick : NoteHolds F (healthTick (noting F) e₁ env).lockdown :=
      NoteHolds.tick hF (by rw [hsame.lockdown]; exact h) env
    rw [heq]
    show NoteHolds F (pollHealth (noting F) (runWorker (healthTick (noting F) e₁ env) env.worker)).lockdown
    rw [pollHealth_eq]
    exact htick.polled hF _
  · have hsame := pmxEnginePump_of_not_watching (F := noting F) (B := B) env
      (fun hrun hwatch => hw ⟨hrun, hwatch⟩)
    rw [hsame.lockdown]
    exact h

/-- A step has touched neither the controller nor the list that was pushed before it rebuilds. -/
theorem rebuildAt_untouched {e e₁ : PmxEngine φ β} {op : EngineOp β ω} {stack : ℕ → List UInt8}
    (hat : rebuildAt B e op = some (e₁, stack)) :
    e₁.lockdown = e.lockdown ∧ e₁.allowApplied = e.allowApplied := by
  cases op with
  | start os stack' =>
    rw [rebuildAt] at hat
    split_ifs at hat
    obtain ⟨rfl, rfl⟩ := Prod.mk.inj (Option.some.inj hat)
    exact ⟨rfl, rfl⟩
  | pump env =>
    rw [rebuildAt] at hat
    split_ifs at hat
    obtain ⟨rfl, rfl⟩ := Prod.mk.inj (Option.some.inj hat)
    have hsame := pumpPrelude_sameWatch (B := B) e env
    exact ⟨hsame.lockdown, hsame.allowApplied⟩
  | _ => cases hat

theorem NoteHolds.step (hF : EngageHolds F) (e : PmxEngine (Noted φ) β) (op : EngineOp β ω)
    (h : NoteHolds F e.lockdown) : NoteHolds F (engineStep (noting F) B e op).lockdown := by
  cases op with
  | edit pf => exact h
  | setPolicy policy => exact h.setPolicy hF policy
  | load loaded allocOk =>
    cases loaded with
    | error st =>
      rw [engineStep, pmxEngineLoadProfile]
      split_ifs
      · exact h
      · exact h
    | ok pf =>
      rw [engineStep, pmxEngineLoadProfile]
      split_ifs
      · exact h
      · exact h.setPolicy hF pf.lockdown
  | start os stack =>
    rw [engineStep, pmxEngineStart]
    split_ifs
    · exact h
    · dsimp only
      split_ifs
      · exact h
      · have hstarted : NoteHolds F (engineStartBackend B e os).1.lockdown := h
        exact ((hstarted.rebuild hF stack).setPolicy hF _).arm hF
  | stop =>
    rw [engineStep, pmxEngineStop]
    split_ifs
    · exact h
    · exact h.disarm
  | pump env => exact h.pump hF env
  | flow f allocOk =>
    rw [engineStep, engineOnFlow]
    split_ifs
    · exact h
    · exact h
    · exact h
  | backend b => exact h
  | worker op => exact h

theorem NoteHolds.create (B : PmxBackend β ω) (pf : PmxProfile) (fw : Option φ) (backend : β)
    (allocOk : Fin 4 → Bool) :
    NoteHolds F (pmxEngineCreate B pf (notedNew fw) backend allocOk).lockdown := by
  refine .of_none ?_
  show (notedNew fw).bind Noted.accepted = none
  cases fw with
  | none => rfl
  | some fw => rfl

theorem stepTold_iff (hF : EngageHolds F) {e : PmxEngine (Noted φ) β} (hsync : Synced e)
    (h : NoteHolds F e.lockdown) (op : EngineOp β ω) : StepTold F B e op ↔ StepAccepted F B e op := by
  refine forall₃_congr fun e₁ stack hat => ?_
  obtain ⟨hld, happ⟩ := rebuildAt_untouched hat
  have hallow : e₁.lockdown.allow = e₁.allowApplied := by rw [hld, happ, hsync.allow]
  exact rebuildTold_iff hF hallow (by rw [hld]; exact h) stack

/-- **Failed updates are neither hidden nor forgotten** in a run exactly if, at each rebuild of an armed
controller in a blocking mode, a changed list meets an engaged firewall that accepts it and an unchanged
one a firewall whose last engage succeeded and was not let go of. -/
theorem allowlistPush (hF : EngageHolds F) (B : PmxBackend β ω) (pf : PmxProfile) (fw : Option φ)
    (backend : β) (allocOk : Fin 4 → Bool) (ops : List (EngineOp β ω)) :
    EachStep (engineStep (noting F) B) (StepTold F B)
        (pmxEngineCreate B pf (notedNew fw) backend allocOk) ops ↔
      EachStep (engineStep (noting F) B) (StepAccepted F B)
        (pmxEngineCreate B pf (notedNew fw) backend allocOk) ops :=
  eachStep_congr (fun e => Synced e ∧ NoteHolds F e.lockdown)
    (fun e op h => ⟨h.1.step e op, h.2.step hF e op⟩) (fun _ op h => stepTold_iff hF h.1 h.2 op) ops _
    ⟨Synced.create pf (notedNew fw) backend allocOk, NoteHolds.create B pf fw backend allocOk⟩

/-- A run in which a proxy is added while the firewall blocks. -/
def addProxyRun : List (EngineOp StubImpl Bool) :=
  [.start true (fun _ => []),
    .edit { oneProxyProfile with
      proxies := oneProxyProfile.proxies ++ [{ pmxProxyInit with id := 2, port := 1081 }] }]

/-- The engine of that run over a firewall that has not been used. -/
def newEngine (fw : φ) : PmxEngine (Noted φ) StubImpl :=
  pmxEngineCreate pmxBackendStub oneProxyProfile (notedNew (some fw)) stubImplCreate fun _ => true

/-- That engine after the run, as the next pump rebuilds its list. -/
def editedEngine (F : PmxFirewall φ) (fw : φ) : PmxEngine (Noted φ) StubImpl :=
  pumpPrelude pmxBackendStub (runFrom (engineStep (noting F) pmxBackendStub) (newEngine fw) addProxyRun)
    (quietPump 5000)

theorem rebuild_stubEngine :
    let e := editedEngine pmxFirewallStub stubFwCreate
    (e.running = true ∧ Watching e ∧ TickDue e (quietPump 5000)) ∧ PushDue e (computedList e fun _ => []) ∧
      RebuildAccepted pmxFirewallStub e (fun _ => []) := by
  decide +kernel

/-- With the stub firewall the new list is applied, and the controller says what is so. -/
theorem allowlistPush_stub :
    EachStep (engineStep (noting pmxFirewallStub) pmxBackendStub) (StepTold pmxFirewallStub pmxBackendStub)
      (newEngine stubFwCreate) (addProxyRun ++ [.pump (quietPump 5000)]) := by
  refine (allowlistPush pmxFirewallStub_lawful.engage_ok pmxBackendStub oneProxyProfile
    (some stubFwCreate) stubImplCreate (fun _ => true) _).2 ⟨?_, ?_, ?_, trivial⟩
  · -- the controller is not armed yet
    intro e₁ stack hat hguards
    rw [(rebuildAt_untouched hat).1] at hguards
    exact absurd hguards.1 Bool.false_ne_true
  · intro e₁ stack hat
    cases hat
  · intro e₁ stack hat
    obtain ⟨hat', -, hmet⟩ := rebuild_stubEngine
    obtain ⟨rfl, rfl⟩ := Prod.mk.inj (Option.some.inj ((rebuildAt_pump hat').symm.trans hat))
    exact hmet

/-- A firewall that accepts one list and loses its filters over the next. -/
structure OnceFw where
  used : Bool
  engaged : Bool
  deriving DecidableEq

def onceFw : PmxFirewall OnceFw where
  engage fw _ _ := if fw.used then (⟨true, false⟩, .errFirewall) else (⟨true, true⟩, .ok)
  disengage fw := (⟨fw.used, false⟩, .ok)
  isEngaged fw := fw.engaged

theorem onceFw_engageHolds : EngageHolds onceFw := by
  intro fw allow policy hok
  cases fw with
  | mk used engaged =>
    cases used with
    | false => rfl
    | true => cases hok

/-- The firewall refuses the list with the second proxy and blocks nothing any more; the controller goes on
reporting that it blocks, and the list counts as applied. -/
theorem rebuild_onceEngine :
    let e := editedEngine onceFw ⟨false, false⟩
    let e' := rebuildAllowlist (noting onceFw) e (fun _ => [])
    (e.running = true ∧ Watching e ∧ TickDue e (quietPump 5000)) ∧ Guards e.lockdown ∧
      e'.lockdown.state = .trippedBlocking ∧ e'.lockdown.engaged (noting onceFw) = false ∧
      e'.lockdown.accepted = none ∧ ¬PushDue e' (computedList e fun _ => []) := by
  decide +kernel

theorem not_told_onceFw :
    EngageHolds onceFw ∧
    ¬EachStep (engineStep (noting onceFw) pmxBackendStub) (StepTold onceFw pmxBackendStub)
      (newEngine ⟨false, false⟩) (addProxyRun ++ [.pump (quietPump 5000)]) := by
  refine ⟨onceFw_engageHolds, fun h => ?_⟩
  obtain ⟨hat, hguards, hstate, hoff, -⟩ := rebuild_onceEngine
  have htold : RebuildTold onceFw (editedEngine onceFw ⟨false, false⟩) (fun _ => []) :=
    h.2.2.1 _ _ (rebuildAt_pump hat)
  have hon := htold.truthful hguards (by rw [hstate]; rfl)
  rw [hoff] at hon
  cases hon

end ProxiMight
