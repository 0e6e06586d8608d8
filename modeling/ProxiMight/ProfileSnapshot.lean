import ProxiMight.Engine
import ProxiMight.Runs

/-!
# The snapshot verdicts come from (`pmx_profile_copy`, `engine_refresh_snapshot`)

The copy reserves room in all four arrays of the destination before it assigns any of them.  `RawProfile`
keeps the arrays as the code has them, with a capacity and with whatever stands behind the elements in
use; what an allocator puts into new memory is an argument.

* **`profileCopy_refines`** — on what the arrays hold, the copy is all or nothing.
* **`decide_published`** — so over any run a verdict is resolved against the live profile as it was at
  the last refresh that succeeded.
-/

namespace ProxiMight

open CString

/-! ### Growable arrays -/

/-- An array that grows: all slots that are allocated, and how many are in use. -/
structure GrowArray (α : Type) where
  slots : List α
  count : ℕ
  count_le : count ≤ slots.length

namespace GrowArray

variable {α : Type}

/-- The elements in use. -/
def elems (a : GrowArray α) : List α := a.slots.take a.count

/-- The capacity. -/
def cap (a : GrowArray α) : ℕ := a.slots.length

/-- `realloc` to capacity `n`: the old slots stay, the new ones are `fresh`. -/
def realloc (a : GrowArray α) (n : ℕ) (fresh : ℕ → α) : GrowArray α where
  slots := a.slots ++ (List.range (n - a.cap)).map fresh
  count := a.count
  count_le := Nat.le_trans a.count_le (by rw [List.length_append]; exact Nat.le_add_right _ _)

/-- `PMX_RESERVE_ARRAY`; `mem` is what `realloc` finds in the new memory, or that it finds none. -/
def reserve (a : GrowArray α) (n : ℕ) (mem : Option (ℕ → α)) : Option (GrowArray α) :=
  if n > a.cap then mem.map (a.realloc (growCap (if a.cap = 0 then 8 else a.cap) n)) else some a

/-- `PMX_ASSIGN_ARRAY`: `memcpy` to the front, what stands behind stays. -/
def assign (a : GrowArray α) (xs : List α) : GrowArray α where
  slots := xs ++ a.slots.drop xs.length
  count := xs.length
  count_le := by rw [List.length_append]; exact Nat.le_add_right _ _

@[simp] theorem elems_assign (a : GrowArray α) (xs : List α) : (a.assign xs).elems = xs :=
  List.take_left

/-- An assignment that fits does not write past the end. -/
theorem cap_assign {a : GrowArray α} {xs : List α} (h : xs.length ≤ a.cap) :
    (a.assign xs).cap = a.cap := by
  show (xs ++ a.slots.drop xs.length).length = _
  rw [List.length_append, List.length_drop]
  exact Nat.add_sub_cancel' h

theorem elems_realloc (a : GrowArray α) (n : ℕ) (fresh : ℕ → α) :
    (a.realloc n fresh).elems = a.elems :=
  List.take_append_of_le_length a.count_le

theorem cap_realloc {a : GrowArray α} {n : ℕ} (h : a.cap ≤ n) (fresh : ℕ → α) :
    (a.realloc n fresh).cap = n := by
  show (a.slots ++ (List.range (n - a.cap)).map fresh).length = n
  rw [List.length_append, List.length_map, List.length_range]
  exact Nat.add_sub_cancel' h

end GrowArray

/-- Doubling reaches the count, and never shrinks. -/
theorem growCap_spec (cap count : ℕ) (h : 0 < cap) :
    cap ≤ growCap cap count ∧ count ≤ growCap cap count := by
  fun_induction growCap cap count with
  | case1 cap hlt ih =>
    obtain ⟨hcap, hcount⟩ := ih (by omega)
    exact ⟨by omega, hcount⟩
  | case2 cap hge => omega

namespace GrowArray

variable {α : Type}

/-- Reserving keeps the elements, and makes the room it was asked for or says that it could not. -/
theorem reserve_spec {a b : GrowArray α} {n : ℕ} {mem : Option (ℕ → α)}
    (h : a.reserve n mem = some b) :
    b.elems = a.elems ∧ n ≤ b.cap ∧ reserveArray a.cap n mem.isSome = some b.cap := by
  by_cases hroom : n > a.cap
  · rw [reserve, if_pos hroom] at h
    obtain ⟨fresh, rfl, rfl⟩ := Option.map_eq_some_iff.1 h
    have hpos : 0 < if a.cap = 0 then 8 else a.cap := by split_ifs <;> omega
    obtain ⟨hgrow, hfit⟩ := growCap_spec (if a.cap = 0 then 8 else a.cap) n hpos
    have hle : a.cap ≤ growCap (if a.cap = 0 then 8 else a.cap) n :=
      Nat.le_trans (by split_ifs <;> omega) hgrow
    rw [cap_realloc hle, reserveArray, if_pos hroom]
    exact ⟨elems_realloc a _ fresh, hfit, rfl⟩
  · rw [reserve, if_neg hroom] at h
    obtain rfl := Option.some.inj h
    exact ⟨rfl, Nat.not_lt.1 hroom, by rw [reserveArray, if_neg hroom]⟩

theorem reserve_none {a : GrowArray α} {n : ℕ} {mem : Option (ℕ → α)}
    (h : a.reserve n mem = none) : reserveArray a.cap n mem.isSome = none := by
  by_cases hroom : n > a.cap
  · rw [reserve, if_pos hroom, Option.map_eq_none_iff] at h
    rw [reserveArray, if_pos hroom, h]
    rfl
  · rw [reserve, if_neg hroom] at h
    cases h

end GrowArray

/-! ### The copy -/

/-- `pmx_profile`, with its arrays as they lie in memory. -/
structure RawProfile where
  label : CBuf pmxMaxLabel
  path : CBuf pmxMaxPath
  proxies : GrowArray PmxProxy
  rules : GrowArray PmxRule
  chains : GrowArray PmxChain
  vpns : GrowArray PmxVpn
  defaultRule : PmxRule
  lockdown : PmxLockdownPolicy
  settings : PmxProfileSettings
  nextId : PmxId

/-- The profile the arrays hold. -/
def RawProfile.profile (pf : RawProfile) : PmxProfile where
  label := pf.label
  path := pf.path
  proxies := pf.proxies.elems
  rules := pf.rules.elems
  chains := pf.chains.elems
  vpns := pf.vpns.elems
  defaultRule := pf.defaultRule
  lockdown := pf.lockdown
  settings := pf.settings
  nextId := pf.nextId

def RawProfile.caps (pf : RawProfile) : ProfileCaps :=
  ⟨pf.proxies.cap, pf.rules.cap, pf.chains.cap, pf.vpns.cap⟩

/-- What `realloc` answers to each of the four reservations. -/
structure CopyMem where
  proxies : Option (ℕ → PmxProxy)
  rules : Option (ℕ → PmxRule)
  chains : Option (ℕ → PmxChain)
  vpns : Option (ℕ → PmxVpn)

/-- Which reservations get their memory. -/
def CopyMem.ok (mem : CopyMem) : Fin 4 → Bool
  | 0 => mem.proxies.isSome
  | 1 => mem.rules.isSome
  | 2 => mem.chains.isSome
  | 3 => mem.vpns.isSome

/-- The second pass of `pmx_profile_copy`, which cannot fail. -/
def assignProfile (dst : RawProfile) (src : PmxProfile) : RawProfile where
  proxies := dst.proxies.assign src.proxies
  rules := dst.rules.assign src.rules
  chains := dst.chains.assign src.chains
  vpns := dst.vpns.assign src.vpns
  label := strlcpy pmxMaxLabel src.label.str
  path := strlcpy pmxMaxPath src.path.str
  defaultRule := src.defaultRule
  lockdown := src.lockdown
  settings := src.settings
  nextId := src.nextId

/-- `pmx_profile_copy` on the arrays themselves. -/
def profileCopy (dst : RawProfile) (src : PmxProfile) (mem : CopyMem) : RawProfile × PmxStatus :=
  match dst.proxies.reserve src.proxies.length mem.proxies with
  | none => (dst, .errNoMemory)
  | some proxies =>
    let dst := { dst with proxies := proxies }
    match dst.rules.reserve src.rules.length mem.rules with
    | none => (dst, .errNoMemory)
    | some rules =>
      let dst := { dst with rules := rules }
      match dst.chains.reserve src.chains.length mem.chains with
      | none => (dst, .errNoMemory)
      | some chains =>
        let dst := { dst with chains := chains }
        match dst.vpns.reserve src.vpns.length mem.vpns with
        | none => (dst, .errNoMemory)
        | some vpns => (assignProfile { dst with vpns := vpns } src, .ok)

@[simp] theorem assignProfile_profile (dst : RawProfile) (src : PmxProfile) :
    (assignProfile dst src).profile = src := by
  simp only [RawProfile.profile, assignProfile, GrowArray.elems_assign, strlcpy_self]

/-- **The copy refines.**  What the arrays hold afterwards, their capacities and the status are those of
the copy that replaces a profile as a whole. -/
theorem profileCopy_refines (dst : RawProfile) (src : PmxProfile) (mem : CopyMem) :
    ((profileCopy dst src mem).1.profile, (profileCopy dst src mem).1.caps,
        (profileCopy dst src mem).2)
      = pmxProfileCopy dst.profile dst.caps src mem.ok := by
  rw [profileCopy, pmxProfileCopy]
  cases hp : dst.proxies.reserve src.proxies.length mem.proxies with
  | none =>
    rw [show reserveArray dst.caps.proxies _ (mem.ok 0) = none from GrowArray.reserve_none hp]
  | some proxies =>
  obtain ⟨hpe, hpn, hpc⟩ := GrowArray.reserve_spec hp
  rw [show reserveArray dst.caps.proxies _ (mem.ok 0) = some proxies.cap from hpc]
  dsimp only
  cases hr : dst.rules.reserve src.rules.length mem.rules with
  | none =>
    rw [show reserveArray dst.caps.rules _ (mem.ok 1) = none from GrowArray.reserve_none hr]
    simp only [RawProfile.profile, RawProfile.caps, hpe]
  | some rules =>
  obtain ⟨hre, hrn, hrc⟩ := GrowArray.reserve_spec hr
  rw [show reserveArray dst.caps.rules _ (mem.ok 1) = some rules.cap from hrc]
  dsimp only
  cases hc : dst.chains.reserve src.chains.length mem.chains with
  | none =>
    rw [show reserveArray dst.caps.chains _ (mem.ok 2) = none from GrowArray.reserve_none hc]
    simp only [RawProfile.profile, RawProfile.caps, hpe, hre]
  | some chains =>
  obtain ⟨hce, hcn, hcc⟩ := GrowArray.reserve_spec hc
  rw [show reserveArray dst.caps.chains _ (mem.ok 2) = some chains.cap from hcc]
  dsimp only
  cases hv : dst.vpns.reserve src.vpns.length mem.vpns with
  | none =>
    rw [show reserveArray dst.caps.vpns _ (mem.ok 3) = none from GrowArray.reserve_none hv]
    simp only [RawProfile.profile, RawProfile.caps, hpe, hre, hce]
  | some vpns =>
  obtain ⟨-, hvn, hvc⟩ := GrowArray.reserve_spec hv
  rw [show reserveArray dst.caps.vpns _ (mem.ok 3) = some vpns.cap from hvc]
  -- every array has room now, so the assignments leave the capacities alone
  dsimp only
  rw [assignProfile_profile]
  simp only [RawProfile.caps, assignProfile, GrowArray.cap_assign hpn, GrowArray.cap_assign hrn,
    GrowArray.cap_assign hcn, GrowArray.cap_assign hvn]

/-- **All or nothing.**  The copy runs out of memory and changes no element and no scalar, or it succeeds
and the destination holds the source, whatever it held before. -/
theorem pmxProfileCopy_cases (dst : PmxProfile) (caps : ProfileCaps) (src : PmxProfile)
    (allocOk : Fin 4 → Bool) :
    ((pmxProfileCopy dst caps src allocOk).2.2 = .errNoMemory ∧
      (pmxProfileCopy dst caps src allocOk).1 = dst) ∨
    ((pmxProfileCopy dst caps src allocOk).2.2 = .ok ∧
      (pmxProfileCopy dst caps src allocOk).1 = src) := by
  rw [pmxProfileCopy]
  split
  · exact Or.inl ⟨rfl, rfl⟩
  · dsimp only
    split
    · exact Or.inl ⟨rfl, rfl⟩
    · split
      · exact Or.inl ⟨rfl, rfl⟩
      · split
        · exact Or.inl ⟨rfl, rfl⟩
        · exact Or.inr ⟨rfl, rfl⟩

theorem profileCopy_cases (dst : RawProfile) (src : PmxProfile) (mem : CopyMem) :
    ((profileCopy dst src mem).2 = .errNoMemory ∧
      (profileCopy dst src mem).1.profile = dst.profile) ∨
    ((profileCopy dst src mem).2 = .ok ∧ (profileCopy dst src mem).1.profile = src) := by
  obtain ⟨hprofile, hrest⟩ := Prod.mk.inj (profileCopy_refines dst src mem)
  rw [hprofile, (Prod.mk.inj hrest).2]
  exact pmxProfileCopy_cases dst.profile dst.caps src mem.ok

/-! ### The snapshot over a run -/

section Run

variable {φ β ω : Type} {F : PmxFirewall φ} {B : PmxBackend β ω}

/-- The profile verdicts come from after a refresh: the live one if the refresh succeeds. -/
def republish (published live : PmxProfile) (e : PmxEngine φ β) (allocOk : Fin 4 → Bool) :
    PmxProfile :=
  if (pmxProfileCopy e.snap e.snapCaps live allocOk).2.2 = .ok then live else published

/-- The live profile at the last refresh that succeeded, after one more step from `e`. -/
def publishStep (published : PmxProfile) (e : PmxEngine φ β) : EngineOp β ω → PmxProfile
  | .pump env => republish published e.profile e env.snapAllocOk
  | .load (.ok pf) allocOk => if e.running then published else republish published pf e allocOk
  | _ => published

/-- The live profile at the last refresh that succeeded, over a run from `e`. -/
def lastPublished (F : PmxFirewall φ) (B : PmxBackend β ω) :
    PmxProfile → PmxEngine φ β → List (EngineOp β ω) → PmxProfile
  | published, _, [] => published
  | published, e, op :: ops =>
    lastPublished F B (publishStep published e op) (engineStep F B e op) ops

theorem engineRefreshSnapshot_snap {published : PmxProfile} {e : PmxEngine φ β}
    (h : e.snap = published) (allocOk : Fin 4 → Bool) :
    (engineRefreshSnapshot e allocOk).snap = republish published e.profile e allocOk := by
  show (pmxProfileCopy e.snap e.snapCaps e.profile allocOk).1 = _
  rw [republish]
  rcases pmxProfileCopy_cases e.snap e.snapCaps e.profile allocOk with ⟨hst, hsnap⟩ | ⟨hst, hsnap⟩
  · rw [hsnap, hst, if_neg (by decide), h]
  · rw [hsnap, hst, if_pos rfl]

theorem pmxEnginePump_snap {published : PmxProfile} {e : PmxEngine φ β} (h : e.snap = published)
    (env : PumpEnv) :
    (pmxEnginePump F B e env).snap = republish published e.profile e env.snapAllocOk := by
  have hprelude : (pumpPrelude B e env).snap = republish published e.profile e env.snapAllocOk := by
    obtain ⟨_, _, _, heq⟩ := drainInbox_frame (B := B) (engineRefreshSnapshot e env.snapAllocOk)
    rw [pumpPrelude, heq]
    exact engineRefreshSnapshot_snap h env.snapAllocOk
  rw [← hprelude, pmxEnginePump]
  split_ifs
  · obtain ⟨_, _, _, _, _, heq⟩ := watchHealth_frame (F := F) (pumpPrelude B e env) env
    rw [heq]
    rfl
  · rfl

/-- One step: the snapshot is what was published last. -/
theorem engineStep_snap {published : PmxProfile} {e : PmxEngine φ β} (h : e.snap = published)
    (op : EngineOp β ω) : (engineStep F B e op).snap = publishStep published e op := by
  cases op with
  | pump env => exact pmxEnginePump_snap h env
  | load loaded allocOk =>
    cases loaded with
    | error st =>
      rw [engineStep, pmxEngineLoadProfile]
      split_ifs <;> exact h
    | ok pf =>
      rw [engineStep, pmxEngineLoadProfile, publishStep]
      split_ifs
      · exact h
      · refine Eq.trans (engineRefreshSnapshot_snap ?_ allocOk) rfl
        exact h
  | start os stack =>
    rw [engineStep, pmxEngineStart]
    dsimp only
    split_ifs
    · exact h
    · exact h
    · rcases rebuildAllowlist_cases (F := F) (engineStartBackend B e os).1 stack with heq | ⟨-, heq⟩
      · rw [engineArm, heq]
        exact h
      · rw [engineArm, heq]
        exact h
  | stop =>
    rw [engineStep, pmxEngineStop]
    split_ifs <;> exact h
  | flow f allocOk =>
    rw [engineStep, engineOnFlow]
    split_ifs <;> exact h
  | _ => exact h

theorem runFrom_snap (ops : List (EngineOp β ω)) :
    ∀ (published : PmxProfile) (e : PmxEngine φ β), e.snap = published →
      (Runs.runFrom (engineStep F B) e ops).snap = lastPublished F B published e ops := by
  induction ops with
  | nil => intro published e h; exact h
  | cons op ops ih => intro published e h; exact ih _ _ (engineStep_snap h op)

/-- **Verdicts come from one consistent profile generation.**  Over any run of a new engine a decision is
resolved against the live profile as it was at the last refresh that succeeded; a refresh that fails
leaves every element and scalar of the snapshot, and one that succeeds makes it the live profile. -/
theorem decide_published (F : PmxFirewall φ) (B : PmxBackend β ω) (pf : PmxProfile)
    (fw : Option φ) (backend : β) (allocOk : Fin 4 → Bool) :
    (∀ (ops : List (EngineOp β ω)) (f : PmxFlow),
      let created := pmxEngineCreate B pf fw backend allocOk
      let published :=
        if (pmxProfileCopy pmxProfileInit ⟨0, 0, 0, 0⟩ pf allocOk).2.2 = .ok then pf
        else pmxProfileInit
      pmxEngineDecide (Runs.runFrom (engineStep F B) created ops) f
        = pmxResolveWithProfile (lastPublished F B published created ops) f.query) ∧
    (∀ (dst : RawProfile) (src : PmxProfile) (mem : CopyMem),
      ((profileCopy dst src mem).2 = .errNoMemory ∧
        (profileCopy dst src mem).1.profile = dst.profile) ∨
      ((profileCopy dst src mem).2 = .ok ∧ (profileCopy dst src mem).1.profile = src)) := by
  refine ⟨?_, profileCopy_cases⟩
  intro ops f created published
  have hcreated : created.snap = published := engineRefreshSnapshot_snap rfl allocOk
  rw [pmxEngineDecide, runFrom_snap ops published created hcreated]

end Run

end ProxiMight
