import ProxiMight.HealthWatcher

/-!
# What stays reachable while everything else is blocked

The allowlist has room for 32 endpoints.  The enabled proxies are written first and the endpoints of the
enabled VPNs get what room is left, so a profile with many proxies locks its own tunnel out.

* **`allReachable_iff`** — exactly when everything that is enabled stays reachable.
-/

namespace ProxiMight

open CString

variable {φ β ω : Type} {F : PmxFirewall φ} {B : PmxBackend β ω}

/-- Every enabled proxy, and every endpoint of every enabled VPN, is in the list. -/
structure AllReachable (pf : PmxProfile) (allow : List PmxFwEndpoint) : Prop where
  proxies : ∀ p ∈ pf.proxies, p.enabled = true → (p.host.str, p.port) ∈ allowedNames allow
  vpns : ∀ v ∈ pf.vpns, v.enabled = true → ∀ ep ∈ v.endpoints,
    (ep.host.str, ep.port) ∈ allowedNames allow

/-- The endpoints that should stay reachable, by name and port: those of the enabled proxies, then those
of the enabled VPNs. -/
def wantedNames (pf : PmxProfile) : List (List UInt8 × PmxPort) :=
  (wantedEndpoints pf).map fun ep => (ep.1.str, ep.2)

/-- Whatever comes after the first 32 has been among them. -/
def FitsAllowlist (pf : PmxProfile) : Prop :=
  ∀ name ∈ (wantedNames pf).drop pmxMaxAllowlist, name ∈ (wantedNames pf).take pmxMaxAllowlist

instance (pf : PmxProfile) : Decidable (FitsAllowlist pf) :=
  inferInstanceAs (Decidable (∀ _ ∈ _, _))

theorem allReachable_iff_wantedNames (pf : PmxProfile) (allow : List PmxFwEndpoint) :
    AllReachable pf allow ↔ ∀ name ∈ wantedNames pf, name ∈ allowedNames allow := by
  constructor
  · intro h name hname
    obtain ⟨ep, hep, rfl⟩ := List.mem_map.1 hname
    rcases List.mem_append.1 hep with hproxy | hvpn
    · obtain ⟨p, hp, rfl⟩ := List.mem_map.1 hproxy
      obtain ⟨hmem, hen⟩ := List.mem_filter.1 hp
      exact h.proxies p hmem hen
    · obtain ⟨v, hv, hep⟩ := List.mem_flatMap.1 hvpn
      obtain ⟨hmem, hen⟩ := List.mem_filter.1 hv
      obtain ⟨endpoint, hendpoint, rfl⟩ := List.mem_map.1 hep
      exact h.vpns v hmem hen endpoint hendpoint
  · intro h
    constructor
    · intro p hp hen
      refine h _ (List.mem_map.2 ⟨(p.host, p.port), List.mem_append_left _ ?_, rfl⟩)
      exact List.mem_map.2 ⟨p, List.mem_filter.2 ⟨hp, hen⟩, rfl⟩
    · intro v hv hen ep hep
      refine h _ (List.mem_map.2 ⟨(ep.host, ep.port), List.mem_append_right _ ?_, rfl⟩)
      exact List.mem_flatMap.2 ⟨v, List.mem_filter.2 ⟨hv, hen⟩, List.mem_map.2 ⟨ep, hep, rfl⟩⟩

/-- A list is within its front exactly if its tail is. -/
theorem forall_mem_take_iff {α : Type} (l : List α) (n : ℕ) :
    (∀ a ∈ l, a ∈ l.take n) ↔ ∀ a ∈ l.drop n, a ∈ l.take n := by
  constructor
  · intro h a ha
    exact h a (List.mem_of_mem_drop ha)
  · intro h a ha
    rw [← List.take_append_drop n l] at ha
    exact (List.mem_append.1 ha).elim id (h a)

/-- The list that is pushed holds the first 32 of the wanted names. -/
theorem allowedNames_rebuilt {e : PmxEngine φ β} (hsync : e.lockdown.allow = e.allowApplied)
    (stack : ℕ → List UInt8) :
    allowedNames (rebuildAllowlist F e stack).lockdown.allow
      = (wantedNames e.profile).take pmxMaxAllowlist := by
  rw [(rebuildAllowlist_allow e stack hsync).1, writeEndpoints_names, allowEndpoints_eq, List.map_take,
    wantedNames]

/-- **When the kill switch leaves its own tunnel open.**  In whatever state the engine has reached, and
with whatever profile, a rebuild allows every enabled proxy and every endpoint of every enabled VPN
exactly if whatever comes after the first 32 of them is one of these again. -/
theorem allReachable_iff (F : PmxFirewall φ) (B : PmxBackend β ω) (pf : PmxProfile) (fw : Option φ)
    (backend : β) (allocOk : Fin 4 → Bool) (ops : List (EngineOp β ω)) (stack : ℕ → List UInt8) :
    let e := Runs.runFrom (engineStep F B) (pmxEngineCreate B pf fw backend allocOk) ops
    AllReachable e.profile (rebuildAllowlist F e stack).lockdown.allow ↔ FitsAllowlist e.profile := by
  intro e
  have hsync : Synced e :=
    Runs.runFrom_inv Synced (fun e op h => h.step (F := F) (B := B) e op) ops _
      (Synced.create pf fw backend allocOk)
  rw [allReachable_iff_wantedNames, allowedNames_rebuilt hsync.allow, forall_mem_take_iff,
    FitsAllowlist]

/-- 32 enabled proxies, and a VPN. -/
def crowdedProfile : PmxProfile :=
  { pmxProfileInit with
      proxies := (List.range 32).map fun i =>
        { pmxProxyInit with
            id := UInt64.ofNat (i + 1)
            host := strlcpy pmxMaxHost (bytes "proxy.example.net")
            port := UInt16.ofNat (1080 + i) }
      vpns := [addEndpoint { pmxVpnInit with id := 33 } (bytes "vpn.example.net") 51820 true] }

/-- The engine is started with the lockdown on, and blocks the endpoint of its VPN. -/
theorem not_allReachable_crowded :
    let e := Runs.runFrom (engineStep pmxFirewallStub pmxBackendStub)
      (pmxEngineCreate pmxBackendStub crowdedProfile (some stubFwCreate) stubImplCreate fun _ => true)
      [.start true fun _ => []]
    let allow := (rebuildAllowlist pmxFirewallStub e fun _ => []).lockdown.allow
    e.lockdown.engaged pmxFirewallStub = true ∧
    (bytes "vpn.example.net", 51820) ∈ wantedNames e.profile ∧
    (bytes "vpn.example.net", 51820) ∉ allowedNames allow ∧
    ¬AllReachable e.profile allow := by
  simp only [allReachable_iff_wantedNames]
  decide +kernel

end ProxiMight
