import ProxiMight.TunnelTable

/-!
# What is reported of a tunnel (`pmx_vpn_runner_state`)

A VPN reported down should have no service installed and no child alive, and one reported running should
have its service, or a child that was alive at the last poll.  The removal of a service is not checked, a
finished entry is reclaimed whatever stands behind it, two configuration files of one name have one
service, and a child that ended with the code 259 looks alive.

* **`tunnelHonesty`** — a run of calls reports the truth all along just when none of its steps meets one
  of these: a failed removal of an installed service, the reclaiming of the entry of a VPN whose service
  is installed, the removal of the service of another that is running, a poll of a child with code 259.
-/

namespace ProxiMight

open CString Runs SlotTable

/-! ### What holds of the machine -/

/-- A service that was installed for the VPN is still there. -/
def Installed (w : VpnWorld) (id : PmxId) : Prop := ∃ s ∈ w.services, s.1 = id

/-- A child that was started for the VPN has not ended. -/
def ChildAlive (w : VpnWorld) (id : PmxId) : Prop := ∃ c ∈ w.children, c.id = id ∧ c.exit = none

/-- A child that was started for the VPN was alive at the last poll. -/
def ChildPolled (w : VpnWorld) (id : PmxId) : Prop := ∃ c ∈ w.children, c.id = id ∧ c.handle ∈ w.polled

instance (w : VpnWorld) (id : PmxId) : Decidable (Installed w id) := inferInstanceAs (Decidable (∃ _, _))

/-- What is reported of a VPN is true. -/
def HonestAt (w : VpnWorld) (id : PmxId) : Prop :=
  (pmxVpnRunnerState w id = .down → ¬Installed w id ∧ ¬ChildAlive w id) ∧
    (pmxVpnRunnerState w id = .running → Installed w id ∨ ChildPolled w id)

def StatesHonest (w : VpnWorld) : Prop := ∀ id, HonestAt w id

/-- A step that leaves what is reported true. -/
def Harmless (w : VpnWorld) : VpnOp → Prop
  | .up v found _ =>
    found = true → (pmxVpnValidate 128 v).1 = .ok →
      ∀ e ∈ reclaimed w.entries v.id, ¬Installed w e.id
  | .down v found ran =>
    v.kind = .wireguard → found = true → (∃ e ∈ w.entries, slotKey e = some v.id) →
      if ran.succeeded then
        ∀ s ∈ w.services, s.1 ≠ v.id → s.2 = serviceName v.configPath → pmxVpnRunnerState w s.1 ≠ .running
      else ¬Installed w v.id
  | .poll => ∀ e ∈ w.entries, e.used = true → ∀ c ∈ w.children, e.proc = some c.handle →
      c.exit ≠ some stillActive
  | .exit _ _ => True

/-- Each id keeps its kind and its configuration file. -/
def VpnOp.Keeps (kind : PmxId → PmxVpnKind) (path : PmxId → CBuf pmxMaxPath) : VpnOp → Prop
  | .up v _ _ | .down v _ _ => v.kind = kind v.id ∧ v.configPath = path v.id
  | _ => True

variable {kind : PmxId → PmxVpnKind} {path : PmxId → CBuf pmxMaxPath}

theorem VpnOp.Keeps.keepsKind {op : VpnOp} (h : op.Keeps kind path) : op.KeepsKind kind := by
  cases op with
  | up v found env => exact h.1
  | down v found ran => exact h.1
  | poll => trivial
  | exit handle code => trivial

/-! ### The state of a VPN -/

/-- The entry of a VPN. -/
def entryOf (w : VpnWorld) (id : PmxId) : Option VpnEntry := w.entries.find? fun e => slotKey e == some id

theorem pmxVpnRunnerState_eq {w : VpnWorld} (hkeys : KeysDistinct slotKey w.entries) (id : PmxId) :
    pmxVpnRunnerState w id = ((entryOf w id).map (·.state)).getD .down := by
  rw [pmxVpnRunnerState, entryOf]
  rcases entryFor_false w.entries id with ⟨i, e, hi, hkey, heq⟩ | ⟨hnone, heq⟩
  · rw [heq, hkeys.find?_key hi hkey]
    dsimp only
    rw [entryAt_eq hi]
    rfl
  · rw [heq, find?_key_eq_none.2 hnone]
    rfl

theorem TableInv.entryOf_eq {w : VpnWorld} (hw : TableInv w) {e : VpnEntry} (he : e ∈ w.entries) {x : PmxId}
    (hkey : slotKey e = some x) : entryOf w x = some e := by
  obtain ⟨i, hi⟩ := List.mem_iff_getElem?.1 he
  exact hw.keys.find?_key hi hkey

/-- What is reported of a VPN is the state in its entry. -/
theorem TableInv.state_of_entry {w : VpnWorld} (hw : TableInv w) {e : VpnEntry} (he : e ∈ w.entries)
    {x : PmxId} (hkey : slotKey e = some x) : pmxVpnRunnerState w x = e.state := by
  rw [pmxVpnRunnerState_eq hw.keys, hw.entryOf_eq he hkey]
  rfl

/-- The states after a slot has been given to a VPN: its own is that of the new entry, and the VPN it was
taken from is down. -/
theorem pmxVpnRunnerState_set {w w' : VpnWorld} (hw : TableInv w) (hw' : TableInv w') {id : PmxId} {i : ℕ}
    {old start new : VpnEntry} (htakes : Takes w id i old start) (hentries : w'.entries = w.entries.set i new)
    (hkey : slotKey new = some id) (x : PmxId) :
    pmxVpnRunnerState w' x =
      if x = id then new.state else if slotKey old = some x then .down else pmxVpnRunnerState w x := by
  have hkeys : KeysDistinct slotKey (w.entries.set i new) := by
    rw [← hentries]
    exact hw'.keys
  rw [pmxVpnRunnerState_eq hw'.keys, pmxVpnRunnerState_eq hw.keys, entryOf, entryOf, hentries,
    hw.keys.find?_key_set htakes.slot hkeys, hkey]
  by_cases hx : x = id
  · rw [if_pos hx, if_pos (by rw [hx])]
    rfl
  · rw [if_neg hx, if_neg fun h => hx (Option.some.inj h).symm]
    split_ifs
    · rfl
    · rfl

/-- What is reported of a VPN stays true while its state, its service and its children stay. -/
theorem HonestAt.mono {w w' : VpnWorld} {x : PmxId} (h : HonestAt w x)
    (hstate : pmxVpnRunnerState w' x = pmxVpnRunnerState w x) (hservice : Installed w' x ↔ Installed w x)
    (halive : ChildAlive w' x → ChildAlive w x) (hpolled : ChildPolled w x → ChildPolled w' x) :
    HonestAt w' x := by
  rw [HonestAt, hstate, hservice]
  exact ⟨fun hdown => ⟨(h.1 hdown).1, fun hc => (h.1 hdown).2 (halive hc)⟩,
    fun hrunning => (h.2 hrunning).imp_right hpolled⟩

/-! ### The invariant -/

/-- The name of a tunnel is that of its configuration file, and its child was started for it. -/
def OwnOk (path : PmxId → CBuf pmxMaxPath) (cs : List VpnChild) (e : VpnEntry) : Prop :=
  e.used = true → (e.tunnelName.isEmpty = true ∨ e.tunnelName = serviceName (path e.id)) ∧
    ∀ handle, e.proc = some handle → ∃ c ∈ cs, c.handle = handle ∧ c.id = e.id

structure HonestyInv (kind : PmxId → PmxVpnKind) (path : PmxId → CBuf pmxMaxPath) (w : VpnWorld) : Prop where
  table : TableInv w
  kinds : ∀ e ∈ w.entries, KindOk kind e
  own : ∀ e ∈ w.entries, OwnOk path w.children e
  services : ∀ s ∈ w.services, kind s.1 = .wireguard ∧ s.2 = serviceName (path s.1)
  children : ∀ c ∈ w.children, kind c.id ≠ .wireguard

/-- Every child there was is still there, alive or not. -/
def ChildrenKept (cs cs' : List VpnChild) : Prop :=
  ∀ c ∈ cs, ∃ c' ∈ cs', c'.handle = c.handle ∧ c'.id = c.id

theorem OwnOk.mono {cs cs' : List VpnChild} (hkept : ChildrenKept cs cs') {e : VpnEntry}
    (h : OwnOk path cs e) : OwnOk path cs' e := by
  intro hused
  refine ⟨(h hused).1, fun handle hproc => ?_⟩
  obtain ⟨c, hc, hhandle, hid⟩ := (h hused).2 handle hproc
  obtain ⟨c', hc', hhandle', hid'⟩ := hkept c hc
  exact ⟨c', hc', hhandle'.trans hhandle, hid'.trans hid⟩

@[simp] theorem endChild_id (handle : ℕ) (code : ℤ) (c : VpnChild) : (endChild handle code c).id = c.id := by
  rw [endChild]
  split_ifs
  · rfl
  · rfl

theorem childrenKept_endChild (cs : List VpnChild) (handle : ℕ) (code : ℤ) :
    ChildrenKept cs (cs.map (endChild handle code)) := fun c hc =>
  ⟨endChild handle code c, List.mem_map_of_mem hc, endChild_handle handle code c, endChild_id handle code c⟩

theorem childrenKept_procFree (cs : List VpnChild) (proc : Option ℕ) :
    ChildrenKept cs (procFree cs proc) := by
  cases proc with
  | none => exact fun c hc => ⟨c, hc, rfl, rfl⟩
  | some handle => exact childrenKept_endChild cs handle 1

/-- No child is there that was not there before. -/
theorem mem_endChild_id {cs : List VpnChild} {handle : ℕ} {code : ℤ} {c : VpnChild}
    (hc : c ∈ cs.map (endChild handle code)) : ∃ c₀ ∈ cs, c₀.id = c.id := by
  obtain ⟨c₀, hc₀, rfl⟩ := List.mem_map.1 hc
  exact ⟨c₀, hc₀, (endChild_id handle code c₀).symm⟩

theorem mem_procFree_id {cs : List VpnChild} {proc : Option ℕ} {c : VpnChild} (hc : c ∈ procFree cs proc) :
    ∃ c₀ ∈ cs, c₀.id = c.id := by
  cases proc with
  | none => exact ⟨c, hc, rfl⟩
  | some handle => exact mem_endChild_id hc

/-! ### Bringing up -/

/-- What a bring-up leaves: in the slot an entry that is not down, and is running only where the service
has been installed; and either no other child, or the old one freed and perhaps a new one. -/
structure BroughtUp (w w' : VpnWorld) (v : PmxVpn) (i : ℕ) (start new : VpnEntry) : Prop where
  entries : w'.entries = w.entries.set i new
  key : slotKey new = slotKey start
  state : new.state ≠ .down ∧ (new.state = .running → Installed w' v.id)
  name : new.tunnelName = start.tunnelName ∨ new.tunnelName = serviceName v.configPath
  services : w'.services = w.services ∨
    v.kind = .wireguard ∧ w'.services = (v.id, serviceName v.configPath) :: w.services
  children : w'.children = w.children ∧ new.proc = start.proc ∨
    w'.children = procFree w.children start.proc ∧ new.proc = none ∨
    v.kind ≠ .wireguard ∧ w'.children = ⟨w.nextHandle, v.id, none⟩ :: procFree w.children start.proc ∧
      new.proc = some w.nextHandle
  polled : w'.polled = w.polled

theorem bringUp_broughtUp (w : VpnWorld) (v : PmxVpn) (env : UpEnv) (i : ℕ) (start : VpnEntry) :
    ∃ new, BroughtUp w (bringUp w v env i start).1 v i start new := by
  rcases bringUp_cases w v env i start with
    ⟨hkind, state, message, tunnelName, heq, hstate, hname⟩ | ⟨hkind, state, message, heq, hstate⟩
  · rw [heq]
    refine ⟨_, rfl, rfl, ?_, hname, ?_, Or.inl ⟨rfl, rfl⟩, rfl⟩
    · dsimp only
      by_cases hup : (env.elevated && env.ran.succeeded) = true
      · rw [hstate, if_pos hup, if_pos hup]
        exact ⟨by decide, fun _ => ⟨_, List.mem_cons_self, rfl⟩⟩
      · rw [hstate, if_neg hup]
        exact ⟨by decide, fun h => by cases h⟩
    · by_cases hup : (env.elevated && env.ran.succeeded) = true
      · exact Or.inr ⟨hkind, if_pos hup⟩
      · exact Or.inl (if_neg hup)
  · rw [heq]
    by_cases hspawn : env.spawn = .ok
    · rw [if_pos hspawn] at hstate
      refine ⟨_, rfl, rfl, ?_, Or.inl rfl, Or.inl rfl,
        Or.inr (Or.inr ⟨hkind, if_pos hspawn, if_pos hspawn⟩), rfl⟩
      dsimp only
      rw [hstate]
      exact ⟨by decide, fun h => by cases h⟩
    · rw [if_neg hspawn] at hstate
      refine ⟨_, rfl, rfl, ?_, Or.inl rfl, Or.inl rfl,
        Or.inr (Or.inl ⟨if_neg hspawn, if_neg hspawn⟩), rfl⟩
      dsimp only
      rw [hstate]
      exact ⟨by decide, fun h => by cases h⟩

section

variable {w w' : VpnWorld} {v : PmxVpn} {i : ℕ} {old start new : VpnEntry}

theorem BroughtUp.installed (h : BroughtUp w w' v i start new) {x : PmxId} (hx : x ≠ v.id) :
    Installed w' x ↔ Installed w x := by
  rw [Installed, Installed]
  rcases h.services with heq | ⟨-, heq⟩
  · rw [heq]
  · rw [heq, List.exists_mem_cons_iff]
    exact or_iff_right (Ne.symm hx)

theorem BroughtUp.alive (h : BroughtUp w w' v i start new) {x : PmxId} (hx : x ≠ v.id)
    (halive : ChildAlive w' x) : ChildAlive w x := by
  obtain ⟨c, hc, hid, hlives⟩ := halive
  rcases h.children with ⟨heq, -⟩ | ⟨heq, -⟩ | ⟨-, heq, -⟩
  · rw [heq] at hc
    exact ⟨c, hc, hid, hlives⟩
  · rw [heq] at hc
    exact ⟨c, (mem_procFree hc hlives).1, hid, hlives⟩
  · rw [heq] at hc
    rcases List.mem_cons.1 hc with rfl | hc
    · exact absurd hid.symm hx
    · exact ⟨c, (mem_procFree hc hlives).1, hid, hlives⟩

theorem BroughtUp.kept (h : BroughtUp w w' v i start new) : ChildrenKept w.children w'.children := by
  rcases h.children with ⟨heq, -⟩ | ⟨heq, -⟩ | ⟨-, heq, -⟩
  · rw [heq]
    exact fun c hc => ⟨c, hc, rfl, rfl⟩
  · rw [heq]
    exact childrenKept_procFree w.children start.proc
  · rw [heq]
    intro c hc
    obtain ⟨c', hc', hsame⟩ := childrenKept_procFree w.children start.proc c hc
    exact ⟨c', List.mem_cons_of_mem _ hc', hsame⟩

/-- A child alive at the last poll is still there. -/
theorem ChildPolled.mono {x : PmxId} (hkept : ChildrenKept w.children w'.children)
    (hpolled : w'.polled = w.polled) (h : ChildPolled w x) : ChildPolled w' x := by
  obtain ⟨c, hc, hid, hmem⟩ := h
  obtain ⟨c', hc', hhandle, hid'⟩ := hkept c hc
  rw [← hhandle, ← hpolled] at hmem
  exact ⟨c', hc', hid'.trans hid, hmem⟩

theorem BroughtUp.honestyInv (h : BroughtUp w w' v i start new) (hw : HonestyInv kind path w)
    (htakes : Takes w v.id i old start) (hkeeps : v.kind = kind v.id ∧ v.configPath = path v.id)
    (htable : TableInv w') (hkinds : ∀ e ∈ w'.entries, KindOk kind e) : HonestyInv kind path w' where
  table := htable
  kinds := hkinds
  own := by
    have hstart : OwnOk path w.children start := by
      rcases htakes.start with ⟨-, rfl⟩ | ⟨-, -, rfl⟩
      · exact hw.own start (List.mem_of_getElem? htakes.slot)
      · exact fun _ => ⟨Or.inl rfl, fun handle hproc => by cases hproc⟩
    obtain ⟨hused, hid⟩ := slotKey_used htakes.key
    obtain ⟨-, hnewid⟩ := slotKey_used (h.key.trans htakes.key)
    rw [h.entries]
    refine forall_mem_set (fun e he => (hw.own e he).mono h.kept) fun _ => ⟨?_, fun handle hproc => ?_⟩
    · rw [hnewid, ← hkeeps.2]
      rcases h.name with hname | hname
      · have hold := (hstart hused).1
        rw [hid, ← hkeeps.2] at hold
        rw [hname]
        exact hold
      · exact Or.inr hname
    · rcases h.children with ⟨-, hnew⟩ | ⟨-, hnew⟩ | ⟨-, heq, hnew⟩
      · obtain ⟨c, hc, hhandle, hcid⟩ := (hstart hused).2 handle (hnew.symm.trans hproc)
        obtain ⟨c', hc', hsame⟩ := h.kept c hc
        exact ⟨c', hc', hsame.1.trans hhandle, by rw [hsame.2, hcid, hid, hnewid]⟩
      · rw [hnew] at hproc
        cases hproc
      · rw [hnew] at hproc
        rw [heq]
        exact ⟨_, List.mem_cons_self, Option.some.inj hproc, hnewid.symm⟩
  services := by
    rcases h.services with heq | ⟨hkind, heq⟩
    · rw [heq]
      exact hw.services
    · rw [heq]
      exact List.forall_mem_cons.2 ⟨⟨hkeeps.1.symm.trans hkind, congrArg serviceName hkeeps.2⟩, hw.services⟩
  children := by
    have hfreed : ∀ c ∈ procFree w.children start.proc, kind c.id ≠ .wireguard := by
      intro c hc
      obtain ⟨c₀, hc₀, hid⟩ := mem_procFree_id hc
      rw [← hid]
      exact hw.children c₀ hc₀
    rcases h.children with ⟨heq, -⟩ | ⟨heq, -⟩ | ⟨hkind, heq, -⟩
    · rw [heq]
      exact hw.children
    · rw [heq]
      exact hfreed
    · rw [heq]
      exact List.forall_mem_cons.2 ⟨hkeeps.1 ▸ hkind, hfreed⟩

/-- **Bringing up** leaves what is reported true, unless it takes the entry of a VPN whose service is
installed. -/
theorem BroughtUp.honest_iff (h : BroughtUp w w' v i start new) (hw : TableInv w) (hw' : TableInv w')
    (htakes : Takes w v.id i old start) (hhonest : StatesHonest w) :
    StatesHonest w' ↔ ∀ e ∈ reclaimed w.entries v.id, ¬Installed w e.id := by
  have hstates := pmxVpnRunnerState_set hw hw' htakes h.entries (h.key.trans htakes.key)
  have hpolled : ∀ x, ChildPolled w x → ChildPolled w' x := fun x => ChildPolled.mono h.kept h.polled
  constructor
  · intro hhonest' e he
    rw [htakes.reclaimed] at he
    split_ifs at he with hother
    · obtain rfl := Option.mem_some.1 he
      have hkey : slotKey old = some old.id := if_pos hother.1
      have hid : old.id ≠ v.id := fun hid => hother.2 (by rw [hkey, hid])
      have hdown := hstates old.id
      rw [if_neg hid, if_pos hkey] at hdown
      rw [← h.installed hid]
      exact ((hhonest' old.id).1 hdown).1
    · cases he
  · intro hharmless x
    by_cases hx : x = v.id
    · obtain rfl := hx
      have hnew := hstates v.id
      rw [if_pos rfl] at hnew
      rw [HonestAt, hnew]
      exact ⟨fun hdown => absurd hdown h.state.1, fun hrunning => Or.inl (h.state.2 hrunning)⟩
    · by_cases hold : slotKey old = some x
      · -- the VPN that loses its entry
        obtain ⟨hused, rfl⟩ := slotKey_used hold
        have hother : slotKey old ≠ some v.id := fun hkey => hx (Option.some.inj (hold.symm.trans hkey))
        have hdead : ¬old.Live := by
          rcases htakes.start with ⟨hown, -⟩ | ⟨-, hdead, -⟩
          · exact absurd hown hother
          · exact hdead
        have hservice : ¬Installed w old.id := by
          refine hharmless old ?_
          rw [htakes.reclaimed, if_pos ⟨hused, hother⟩]
          rfl
        have hdown := hstates old.id
        rw [if_neg hx, if_pos hold] at hdown
        rw [HonestAt, hdown, h.installed hx]
        refine ⟨fun _ => ⟨hservice, fun halive => ?_⟩, fun hrunning => by cases hrunning⟩
        obtain ⟨c, hc, hid, hlives⟩ := h.alive hx halive
        rw [← hid] at hold
        refine hdead ⟨hused, Or.inl ?_⟩
        rw [hw.proc_of_lives hc hlives (List.mem_of_getElem? htakes.slot) hold]
        exact Option.some_ne_none c.handle
      · have hsame := hstates x
        rw [if_neg hx, if_neg hold] at hsame
        exact (hhonest x).mono hsame (h.installed hx) (h.alive hx) (hpolled x)

end

/-! ### Bringing down -/

/-- What a bring-down leaves: the entry down, unless the client was not found; the services without those
of that name, where the removal succeeded; the child of an OpenVPN tunnel freed. -/
structure BroughtDown (w w' : VpnWorld) (v : PmxVpn) (found : Bool) (ran : ProcRun) (i : ℕ)
    (e new : VpnEntry) : Prop where
  entries : w'.entries = w.entries.set i new
  key : slotKey new = slotKey e
  state : new.state = if v.kind = .wireguard ∧ found = false then e.state else .down
  name : new.tunnelName = e.tunnelName ∨ new.tunnelName = serviceName v.configPath
  services : w'.services =
    if v.kind = .wireguard ∧ found = true ∧ ran.succeeded = true then
      w.services.filter fun s => decide (s.2 ≠ serviceName v.configPath)
    else w.services
  children : if v.kind = .wireguard then w'.children = w.children ∧ new.proc = e.proc
    else w'.children = procFree w.children e.proc ∧ new.proc = none
  polled : w'.polled = w.polled

theorem bringDown_broughtDown {w : VpnWorld} {v : PmxVpn} (found : Bool) (ran : ProcRun) (i : ℕ)
    {e : VpnEntry} (hname : e.tunnelName.isEmpty = true ∨ e.tunnelName = serviceName v.configPath) :
    ∃ new, BroughtDown w (bringDown w v found ran i e).1 v found ran i e new := by
  have hused : (if e.tunnelName.isEmpty = true then serviceName v.configPath else e.tunnelName)
      = serviceName v.configPath := by
    rcases hname with hempty | hname
    · rw [if_pos hempty]
    · rw [hname, ite_self]
  rcases bringDown_cases w v found ran i e with
    ⟨hkind, hfound, heq⟩ | ⟨hkind, hfound, message, tunnelName, heq, htunnel⟩ | ⟨hkind, message, heq⟩
  · rw [heq]
    refine ⟨_, rfl, rfl, (if_pos ⟨hkind, hfound⟩).symm, Or.inl rfl, (if_neg ?_).symm, ?_, rfl⟩
    · rw [hfound]
      exact fun h => absurd h.2.1 Bool.false_ne_true
    · rw [if_pos hkind]
      exact ⟨rfl, rfl⟩
  · obtain rfl := htunnel.trans hused
    rw [heq]
    refine ⟨_, rfl, rfl, (if_neg ?_).symm, Or.inr rfl, ?_, ?_, rfl⟩
    · rw [hfound]
      exact fun h => absurd h.2.symm Bool.false_ne_true
    · exact if_congr ⟨fun h => ⟨hkind, hfound, h⟩, fun h => h.2.2⟩ rfl rfl
    · rw [if_pos hkind]
      exact ⟨rfl, rfl⟩
  · rw [heq]
    refine ⟨_, rfl, rfl, (if_neg fun h => hkind h.1).symm, Or.inl rfl, (if_neg fun h => hkind h.1).symm, ?_,
      rfl⟩
    rw [if_neg hkind]
    exact ⟨rfl, rfl⟩

theorem HonestyInv.name_ok {w : VpnWorld} (hw : HonestyInv kind path w) {v : PmxVpn}
    (hpath : v.configPath = path v.id) {i : ℕ} {e : VpnEntry} (hslot : w.entries[i]? = some e)
    (hkey : slotKey e = some v.id) :
    e.tunnelName.isEmpty = true ∨ e.tunnelName = serviceName v.configPath := by
  obtain ⟨hused, hid⟩ := slotKey_used hkey
  rw [hpath, ← hid]
  exact (hw.own e (List.mem_of_getElem? hslot) hused).1

/-- A WireGuard tunnel has no child. -/
theorem HonestyInv.not_childAlive {w : VpnWorld} (hw : HonestyInv kind path w) {x : PmxId}
    (hkind : kind x = .wireguard) : ¬ChildAlive w x := by
  rintro ⟨c, hc, rfl, -⟩
  exact hw.children c hc hkind

theorem HonestyInv.not_childPolled {w : VpnWorld} (hw : HonestyInv kind path w) {x : PmxId}
    (hkind : kind x = .wireguard) : ¬ChildPolled w x := by
  rintro ⟨c, hc, rfl, -⟩
  exact hw.children c hc hkind

/-- An OpenVPN tunnel has no service. -/
theorem HonestyInv.not_installed {w : VpnWorld} (hw : HonestyInv kind path w) {x : PmxId}
    (hkind : kind x ≠ .wireguard) : ¬Installed w x := by
  rintro ⟨s, hs, rfl⟩
  exact hkind (hw.services s hs).1

section

variable {w w' : VpnWorld} {v : PmxVpn} {found : Bool} {ran : ProcRun} {i : ℕ} {e new : VpnEntry}

theorem BroughtDown.kept (h : BroughtDown w w' v found ran i e new) :
    ChildrenKept w.children w'.children := by
  have hchildren := h.children
  split_ifs at hchildren
  · rw [hchildren.1]
    exact fun c hc => ⟨c, hc, rfl, rfl⟩
  · rw [hchildren.1]
    exact childrenKept_procFree w.children e.proc

theorem BroughtDown.alive (h : BroughtDown w w' v found ran i e new) {x : PmxId}
    (halive : ChildAlive w' x) : ChildAlive w x := by
  obtain ⟨c, hc, hid, hlives⟩ := halive
  have hchildren := h.children
  split_ifs at hchildren
  · rw [hchildren.1] at hc
    exact ⟨c, hc, hid, hlives⟩
  · rw [hchildren.1] at hc
    exact ⟨c, (mem_procFree hc hlives).1, hid, hlives⟩

theorem BroughtDown.mem_services (h : BroughtDown w w' v found ran i e new) {s : PmxId × CBuf 64}
    (hs : s ∈ w'.services) : s ∈ w.services := by
  rw [h.services] at hs
  split_ifs at hs
  · exact (List.mem_filter.1 hs).1
  · exact hs

theorem BroughtDown.honestyInv (h : BroughtDown w w' v found ran i e new) (hw : HonestyInv kind path w)
    (hslot : w.entries[i]? = some e) (hkey : slotKey e = some v.id) (hpath : v.configPath = path v.id)
    (htable : TableInv w') (hkinds : ∀ e ∈ w'.entries, KindOk kind e) : HonestyInv kind path w' where
  table := htable
  kinds := hkinds
  own := by
    obtain ⟨hused, hid⟩ := slotKey_used hkey
    obtain ⟨-, hnewid⟩ := slotKey_used (h.key.trans hkey)
    have hown := hw.own e (List.mem_of_getElem? hslot) hused
    rw [h.entries]
    refine forall_mem_set (fun e he => (hw.own e he).mono h.kept) fun _ => ⟨?_, fun handle hproc => ?_⟩
    · rw [hnewid, ← hpath]
      rcases h.name with hname | hname
      · rw [hname, hpath, ← hid]
        exact hown.1
      · exact Or.inr hname
    · have hchildren := h.children
      split_ifs at hchildren
      · obtain ⟨c, hc, hhandle, hcid⟩ := hown.2 handle (hchildren.2.symm.trans hproc)
        rw [hchildren.1]
        exact ⟨c, hc, hhandle, by rw [hcid, hid, hnewid]⟩
      · rw [hchildren.2] at hproc
        cases hproc
  services := fun s hs => hw.services s (h.mem_services hs)
  children := by
    intro c hc
    have hchildren := h.children
    split_ifs at hchildren
    · rw [hchildren.1] at hc
      exact hw.children c hc
    · rw [hchildren.1] at hc
      obtain ⟨c₀, hc₀, hid⟩ := mem_procFree_id hc
      rw [← hid]
      exact hw.children c₀ hc₀

/-- The child of an OpenVPN tunnel is dead after it has been brought down. -/
theorem BroughtDown.not_childAlive (h : BroughtDown w w' v found ran i e new) (hw : HonestyInv kind path w)
    (hslot : w.entries[i]? = some e) (hkey : slotKey e = some v.id) (hkeeps : v.kind = kind v.id) :
    ¬ChildAlive w' v.id := by
  intro halive
  by_cases hkind : v.kind = .wireguard
  · exact hw.not_childAlive (hkeeps.symm.trans hkind) (h.alive halive)
  · obtain ⟨c, hc, hid, hlives⟩ := halive
    have hchildren := h.children
    rw [if_neg hkind] at hchildren
    rw [hchildren.1] at hc
    obtain ⟨hmem, hne⟩ := mem_procFree hc hlives
    rw [← hid] at hkey
    exact hne (hw.table.proc_of_lives hmem hlives (List.mem_of_getElem? hslot) hkey)

theorem BroughtDown.state_own (h : BroughtDown w w' v found ran i e new) (hw : TableInv w) (hw' : TableInv w')
    (hslot : w.entries[i]? = some e) (hkey : slotKey e = some v.id) :
    pmxVpnRunnerState w' v.id = new.state := by
  rw [pmxVpnRunnerState_set hw hw' (Takes.own hslot hkey) h.entries (h.key.trans hkey), if_pos rfl]

theorem BroughtDown.state_other (h : BroughtDown w w' v found ran i e new) (hw : TableInv w)
    (hw' : TableInv w') (hslot : w.entries[i]? = some e) (hkey : slotKey e = some v.id) {x : PmxId}
    (hx : x ≠ v.id) : pmxVpnRunnerState w' x = pmxVpnRunnerState w x := by
  rw [pmxVpnRunnerState_set hw hw' (Takes.own hslot hkey) h.entries (h.key.trans hkey), if_neg hx,
    if_neg fun hkey' => hx (Option.some.inj (hkey'.symm.trans hkey))]

/-- A VPN that has no child alive and no service is reported down truly. -/
theorem honestAt_of_down {x : PmxId} (hdown : pmxVpnRunnerState w x = .down) (hdead : ¬ChildAlive w x)
    (hremoved : ¬Installed w x) : HonestAt w x := by
  refine ⟨fun _ => ⟨hremoved, hdead⟩, fun hrunning => ?_⟩
  rw [hdown] at hrunning
  cases hrunning

/-- A removal that succeeds: the services of that name are gone, those of other VPNs among them. -/
theorem BroughtDown.honest_iff_removed (h : BroughtDown w w' v found ran i e new)
    (hw : HonestyInv kind path w) (hw' : HonestyInv kind path w') (hslot : w.entries[i]? = some e)
    (hkey : slotKey e = some v.id) (hpath : v.configPath = path v.id) (hhonest : StatesHonest w)
    (hdown : pmxVpnRunnerState w' v.id = .down) (hdead : ¬ChildAlive w' v.id)
    (hmem : ∀ s, s ∈ w'.services ↔ s ∈ w.services ∧ s.2 ≠ serviceName v.configPath) :
    StatesHonest w' ↔ ∀ s ∈ w.services, s.1 ≠ v.id → s.2 = serviceName v.configPath →
      pmxVpnRunnerState w s.1 ≠ .running := by
  have hother : ∀ x, x ≠ v.id → pmxVpnRunnerState w' x = pmxVpnRunnerState w x := fun x hx =>
    h.state_other hw.table hw'.table hslot hkey hx
  constructor
  · intro hhonest' s hs hne hname hrunning
    rcases (hhonest' s.1).2 ((hother s.1 hne).trans hrunning) with ⟨s', hs', hid⟩ | hpolled
    · -- both are services of one id, so they have one name
      obtain ⟨hmem', hname'⟩ := (hmem s').1 hs'
      rw [(hw.services s' hmem').2, hid, ← (hw.services s hs).2] at hname'
      exact hname' hname
    · exact hw'.not_childPolled (hw.services s hs).1 hpolled
  · intro hharmless x
    by_cases hx : x = v.id
    · obtain rfl := hx
      refine honestAt_of_down hdown hdead ?_
      rintro ⟨s, hs, hid⟩
      obtain ⟨hs, hname⟩ := (hmem s).1 hs
      rw [(hw.services s hs).2, hid, hpath] at hname
      exact hname rfl
    · rw [HonestAt, hother x hx]
      refine ⟨fun hxdown => ⟨?_, fun halive => ((hhonest x).1 hxdown).2 (h.alive halive)⟩,
        fun hrunning => ?_⟩
      · rintro ⟨s, hs, hid⟩
        exact ((hhonest x).1 hxdown).1 ⟨s, h.mem_services hs, hid⟩
      · rcases (hhonest x).2 hrunning with ⟨s, hs, rfl⟩ | hpolled
        · exact Or.inl ⟨s, (hmem s).2 ⟨hs, fun hname => hharmless s hs hx hname hrunning⟩, rfl⟩
        · exact Or.inr (ChildPolled.mono h.kept h.polled hpolled)

/-- A bring-down that leaves the services alone: what is reported of the other VPNs stays true. -/
theorem BroughtDown.honest_iff_own (h : BroughtDown w w' v found ran i e new) (hw : TableInv w)
    (hw' : TableInv w') (hslot : w.entries[i]? = some e) (hkey : slotKey e = some v.id)
    (hhonest : StatesHonest w) (hservices : ∀ x, Installed w' x ↔ Installed w x) :
    StatesHonest w' ↔ HonestAt w' v.id := by
  refine ⟨fun hhonest' => hhonest' v.id, fun hown x => ?_⟩
  by_cases hx : x = v.id
  · rw [hx]
    exact hown
  · exact (hhonest x).mono (h.state_other hw hw' hslot hkey hx) (hservices x) h.alive
      (ChildPolled.mono h.kept h.polled)

/-- **Bringing down** leaves what is reported true just when it is harmless. -/
theorem BroughtDown.honest_iff (h : BroughtDown w w' v found ran i e new) (hw : HonestyInv kind path w)
    (hw' : HonestyInv kind path w') (hslot : w.entries[i]? = some e) (hkey : slotKey e = some v.id)
    (hkeeps : v.kind = kind v.id ∧ v.configPath = path v.id) (hhonest : StatesHonest w) :
    StatesHonest w' ↔ Harmless w (.down v found ran) := by
  have hown := h.state_own hw.table hw'.table hslot hkey
  have hdead := h.not_childAlive hw hslot hkey hkeeps.1
  by_cases hremoves : v.kind = .wireguard ∧ found = true
  · have hdown : pmxVpnRunnerState w' v.id = .down := by
      rw [hown, h.state, if_neg]
      rintro ⟨-, hfound⟩
      rw [hremoves.2] at hfound
      cases hfound
    have hharmless : Harmless w (.down v found ran) ↔ if ran.succeeded then
        ∀ s ∈ w.services, s.1 ≠ v.id → s.2 = serviceName v.configPath →
          pmxVpnRunnerState w s.1 ≠ .running
        else ¬Installed w v.id :=
      ⟨fun hh => hh hremoves.1 hremoves.2 ⟨e, List.mem_of_getElem? hslot, hkey⟩, fun hh _ _ _ => hh⟩
    rw [hharmless]
    by_cases hran : ran.succeeded = true
    · rw [if_pos hran]
      refine h.honest_iff_removed hw hw' hslot hkey hkeeps.2 hhonest hdown hdead fun s => ?_
      rw [h.services, if_pos ⟨hremoves.1, hremoves.2, hran⟩, List.mem_filter, decide_eq_true_iff]
    · have hservices : ∀ x, Installed w' x ↔ Installed w x := by
        intro x
        rw [Installed, Installed, h.services, if_neg fun hh => hran hh.2.2]
      rw [if_neg hran, ← hservices, h.honest_iff_own hw.table hw'.table hslot hkey hhonest hservices]
      exact ⟨fun hhonest' => (hhonest'.1 hdown).1, honestAt_of_down hdown hdead⟩
  · have hservices : ∀ x, Installed w' x ↔ Installed w x := by
      intro x
      rw [Installed, Installed, h.services, if_neg fun hh => hremoves ⟨hh.1, hh.2.1⟩]
    rw [h.honest_iff_own hw.table hw'.table hslot hkey hhonest hservices]
    refine iff_of_true ?_ fun hkind hfound => absurd ⟨hkind, hfound⟩ hremoves
    by_cases hkind : v.kind = .wireguard
    · -- the client was not found, and the state stays what it was
      have hfound : found = false := by
        rw [← Bool.not_eq_true]
        exact fun hfound => hremoves ⟨hkind, hfound⟩
      have hsame : pmxVpnRunnerState w' v.id = pmxVpnRunnerState w v.id := by
        rw [hown, h.state, if_pos ⟨hkind, hfound⟩,
          hw.table.state_of_entry (List.mem_of_getElem? hslot) hkey]
      exact (hhonest v.id).mono hsame (hservices v.id) h.alive (ChildPolled.mono h.kept h.polled)
    · have hdown : pmxVpnRunnerState w' v.id = .down := by
        rw [hown, h.state, if_neg fun hh => hkind hh.1]
      exact honestAt_of_down hdown hdead (hw'.not_installed fun hwg => hkind (hkeeps.1.trans hwg))

end

/-! ### Polling -/

/-- The state of an entry with a child follows the child. -/
theorem pollEntry_state (cs : List VpnChild) {e : VpnEntry} (hused : e.used = true) {handle : ℕ}
    (hproc : e.proc = some handle) :
    (procRunning cs handle = true ∧
        (pollEntry cs e).state = if e.state = .starting then .running else e.state) ∨
      (procRunning cs handle = false ∧ (pollEntry cs e).state ≠ .running) := by
  rw [pollEntry, hproc]
  dsimp only
  rw [if_neg (by rw [hused]; exact Bool.true_eq_false.mp)]
  by_cases hrunning : procRunning cs handle = true
  · rw [if_pos hrunning]
    refine Or.inl ⟨hrunning, ?_⟩
    split_ifs
    · rfl
    · rfl
  · rw [if_neg hrunning]
    refine Or.inr ⟨Bool.not_eq_true _ ▸ hrunning, ?_⟩
    split_ifs
    · exact PmxVpnState.noConfusion
    · exact PmxVpnState.noConfusion

theorem pmxVpnRunnerState_poll {w : VpnWorld} (hw : TableInv w) (x : PmxId) :
    pmxVpnRunnerState (pmxVpnRunnerPoll w) x =
      ((entryOf w x).map fun e => (pollEntry w.children e).state).getD .down := by
  have hkeys : (fun e => slotKey e == some x) ∘ pollEntry w.children = fun e => slotKey e == some x := by
    funext e
    rw [Function.comp_apply, slotKey_pollEntry]
  rw [pmxVpnRunnerState_eq (pmxVpnRunnerPoll_tableInv hw).keys, entryOf, entryOf, pmxVpnRunnerPoll]
  dsimp only
  rw [List.find?_map, hkeys, Option.map_map]
  rfl

/-- After a poll, the children alive at the last poll are those that are alive. -/
theorem childPolled_poll {w : VpnWorld} (hw : TableInv w) (x : PmxId) :
    ChildPolled (pmxVpnRunnerPoll w) x ↔ ChildAlive w x := by
  have hpolled : ∀ handle, handle ∈ (pmxVpnRunnerPoll w).polled ↔
      ∃ c ∈ w.children, c.exit = none ∧ c.handle = handle := by
    intro handle
    rw [pmxVpnRunnerPoll, List.mem_map]
    simp only [List.mem_filter, beq_iff_eq, and_assoc]
  constructor
  · rintro ⟨c, hc, hid, hmem⟩
    obtain ⟨c', hc', hlives, hhandle⟩ := (hpolled c.handle).1 hmem
    obtain rfl := hw.handle_inj hc' hc hhandle
    exact ⟨c', hc', hid, hlives⟩
  · rintro ⟨c, hc, hid, hlives⟩
    exact ⟨c, hc, hid, (hpolled c.handle).2 ⟨c, hc, hlives, rfl⟩⟩

theorem pmxVpnRunnerPoll_honestyInv {w : VpnWorld} (hw : HonestyInv kind path w) :
    HonestyInv kind path (pmxVpnRunnerPoll w) where
  table := pmxVpnRunnerPoll_tableInv hw.table
  kinds := by
    intro e' he'
    obtain ⟨e, he, rfl⟩ := List.mem_map.1 he'
    exact pollEntry_kindOk w.children (hw.kinds e he)
  own := by
    intro e' he' hused
    obtain ⟨e, he, rfl⟩ := List.mem_map.1 he'
    obtain ⟨proc, state, message, heq, hproc⟩ := pollEntry_frame w.children e
    rw [heq] at hused ⊢
    refine ⟨(hw.own e he hused).1, fun handle hhandle => ?_⟩
    rcases hproc with rfl | rfl
    · exact (hw.own e he hused).2 handle hhandle
    · cases hhandle
  services := hw.services
  children := hw.children

section

variable {w : VpnWorld} {e : VpnEntry}

theorem TableInv.poll_state_of_entry (hw : TableInv w) (he : e ∈ w.entries) {x : PmxId}
    (hkey : slotKey e = some x) :
    pmxVpnRunnerState (pmxVpnRunnerPoll w) x = (pollEntry w.children e).state := by
  rw [pmxVpnRunnerState_poll hw, hw.entryOf_eq he hkey]
  rfl

/-- An entry that has a child is that of an OpenVPN tunnel which is starting or running. -/
theorem HonestyInv.started (hw : HonestyInv kind path w) (he : e ∈ w.entries) (hused : e.used = true)
    {handle : ℕ} (hproc : e.proc = some handle) :
    kind e.id ≠ .wireguard ∧ (e.state = .starting ∨ e.state = .running) := by
  obtain ⟨hkind, hnone, hchild⟩ := hw.kinds e he hused
  have hsome : e.proc ≠ none := by
    rw [hproc]
    exact Option.some_ne_none handle
  have hovpn : e.kind ≠ .wireguard := fun h => hsome (hnone h)
  exact ⟨hkind ▸ hovpn, (hchild hovpn).1 hsome⟩

/-- After a poll such an entry is running just when its child looks alive. -/
theorem HonestyInv.pollEntry_running (hw : HonestyInv kind path w) (he : e ∈ w.entries)
    (hused : e.used = true) {handle : ℕ} (hproc : e.proc = some handle) :
    (pollEntry w.children e).state = .running ↔ procRunning w.children handle = true := by
  rcases pollEntry_state w.children hused hproc with ⟨hruns, heq⟩ | ⟨hended, hnot⟩
  · rw [heq]
    refine iff_of_true ?_ hruns
    rcases (hw.started he hused hproc).2 with hstate | hstate
    · rw [hstate, if_pos rfl]
    · rw [hstate, if_neg (by decide)]
  · rw [hended]
    exact iff_of_false hnot Bool.false_ne_true

/-- A child that has ended with the code of one that runs is reported running. -/
theorem HonestyInv.not_honestAt_poll (hw : HonestyInv kind path w) (he : e ∈ w.entries)
    (hused : e.used = true) {c : VpnChild} (hc : c ∈ w.children) (hproc : e.proc = some c.handle)
    (hcode : c.exit = some stillActive) : ¬HonestAt (pmxVpnRunnerPoll w) e.id := by
  intro hhonest
  have hkey : slotKey e = some e.id := if_pos hused
  have hlooks : procRunning w.children c.handle = true := by
    rw [procRunning, find?_handle hw.table.nodup hc]
    dsimp only
    rw [hcode]
    rfl
  have hrunning : pmxVpnRunnerState (pmxVpnRunnerPoll w) e.id = .running :=
    (hw.table.poll_state_of_entry he hkey).trans ((hw.pollEntry_running he hused hproc).2 hlooks)
  rcases hhonest.2 hrunning with hservice | hpolled
  · exact hw.not_installed (hw.started he hused hproc).1 hservice
  · obtain ⟨c', hc', hid, hlives⟩ := (childPolled_poll hw.table e.id).1 hpolled
    rw [← hid] at hkey
    have hsame := hw.table.proc_of_lives hc' hlives he hkey
    obtain rfl := hw.table.handle_inj hc hc' (Option.some.inj (hproc.symm.trans hsame))
    rw [hlives] at hcode
    cases hcode

/-- The state of an entry without a child stays. -/
theorem HonestyInv.honestAt_poll_of_none (hw : HonestyInv kind path w) (he : e ∈ w.entries)
    (hused : e.used = true) (hnone : e.proc = none) (hhonest : HonestAt w e.id) :
    HonestAt (pmxVpnRunnerPoll w) e.id := by
  have hkey : slotKey e = some e.id := if_pos hused
  have hbefore := hw.table.state_of_entry he hkey
  have hsame : pmxVpnRunnerState (pmxVpnRunnerPoll w) e.id = e.state := by
    rw [hw.table.poll_state_of_entry he hkey, pollEntry, hnone]
  rw [HonestAt, hsame, childPolled_poll hw.table]
  refine ⟨fun hdown => hhonest.1 (hbefore.trans hdown), fun hrunning => ?_⟩
  rcases hhonest.2 (hbefore.trans hrunning) with hservice | hpolled
  · exact Or.inl hservice
  · obtain ⟨hkind, -, hchild⟩ := hw.kinds e he hused
    have hovpn : e.kind ≠ .wireguard := fun h => hw.not_childPolled (hkind.symm.trans h) hpolled
    exact absurd hnone ((hchild hovpn).2 (Or.inr hrunning))

/-- The state of an entry with a child is that of the child, which is taken for alive just when it is. -/
theorem HonestyInv.honestAt_poll_of_child (hw : HonestyInv kind path w) (he : e ∈ w.entries)
    (hused : e.used = true) {handle : ℕ} (hproc : e.proc = some handle)
    (hcode : ∀ c ∈ w.children, e.proc = some c.handle → c.exit ≠ some stillActive) :
    HonestAt (pmxVpnRunnerPoll w) e.id := by
  have hkey : slotKey e = some e.id := if_pos hused
  obtain ⟨hovpn, -⟩ := hw.started he hused hproc
  have hruns_iff := hw.pollEntry_running he hused hproc
  obtain ⟨c, hc, hhandle, hid⟩ := (hw.own e he hused).2 handle hproc
  rw [HonestAt, hw.table.poll_state_of_entry he hkey, childPolled_poll hw.table]
  refine ⟨fun hdown => ⟨hw.not_installed hovpn, ?_⟩, fun hrunning => Or.inr ⟨c, hc, hid, ?_⟩⟩
  · rintro ⟨c', hc', hid', hlives⟩
    rw [← hid'] at hkey
    have hsame := hw.table.proc_of_lives hc' hlives he hkey
    obtain rfl := Option.some.inj (hproc.symm.trans hsame)
    have hrunning := hruns_iff.2 (procRunning_of_lives hw.table.nodup hc' hlives)
    rw [hdown] at hrunning
    cases hrunning
  · have hruns := hruns_iff.1 hrunning
    have hended := hcode c hc (hproc.trans (congrArg some hhandle.symm))
    rw [procRunning, ← hhandle, find?_handle hw.table.nodup hc] at hruns
    simpa [hended] using hruns

/-- **A poll** leaves what is reported true, unless a child has ended with the code of one that runs. -/
theorem pmxVpnRunnerPoll_honest_iff (hw : HonestyInv kind path w) (hhonest : StatesHonest w) :
    StatesHonest (pmxVpnRunnerPoll w) ↔ Harmless w .poll := by
  constructor
  · intro hhonest' e he hused c hc hproc hcode
    exact hw.not_honestAt_poll he hused hc hproc hcode (hhonest' e.id)
  · intro hharmless x
    cases hfind : entryOf w x with
    | none =>
      have hbefore := pmxVpnRunnerState_eq hw.table.keys x
      have hstate := pmxVpnRunnerState_poll hw.table x
      rw [hfind] at hbefore hstate
      rw [HonestAt, hstate]
      exact ⟨fun _ => (hhonest x).1 hbefore, fun h => by cases h⟩
    | some e =>
      obtain ⟨i, hi, hkey⟩ := find?_key_some hfind
      obtain ⟨hused, rfl⟩ := slotKey_used hkey
      have he := List.mem_of_getElem? hi
      cases hproc : e.proc with
      | none => exact hw.honestAt_poll_of_none he hused hproc (hhonest e.id)
      | some handle => exact hw.honestAt_poll_of_child he hused hproc (hharmless e he hused)

end

/-! ### Every run -/

theorem vpnStep_honestyInv (w : VpnWorld) (op : VpnOp) (hop : op.Keeps kind path)
    (hw : HonestyInv kind path w) : HonestyInv kind path (vpnStep w op) := by
  have htable := vpnStep_tableInv op hw.table
  have hkinds := vpnStep_kindOk hop.keepsKind hw.kinds
  cases op with
  | up v found env =>
    rw [vpnStep] at htable hkinds ⊢
    rcases pmxVpnUp_cases w v found env with ⟨heq, -⟩ | ⟨i, old, start, htakes, -, -, heq⟩
    · rw [heq]
      exact hw
    · rw [heq] at htable hkinds ⊢
      obtain ⟨new, hup⟩ := bringUp_broughtUp w v env i start
      exact hup.honestyInv hw htakes hop htable hkinds
  | down v found ran =>
    rw [vpnStep] at htable hkinds ⊢
    rcases pmxVpnDown_cases w v found ran with ⟨heq, -⟩ | ⟨i, e, hslot, hkey, heq⟩
    · rw [heq]
      exact hw
    · rw [heq] at htable hkinds ⊢
      obtain ⟨new, hdown⟩ := bringDown_broughtDown found ran i (hw.name_ok hop.2 hslot hkey)
      exact hdown.honestyInv hw hslot hkey hop.2 htable hkinds
  | poll => exact pmxVpnRunnerPoll_honestyInv hw
  | exit handle code =>
    refine ⟨htable, hkinds, ?_, hw.services, ?_⟩
    · exact fun e he => (hw.own e he).mono (childrenKept_endChild w.children handle code)
    · intro c hc
      obtain ⟨c₀, hc₀, hid⟩ := mem_endChild_id hc
      rw [← hid]
      exact hw.children c₀ hc₀

/-- A step leaves what is reported true just when it is harmless. -/
theorem vpnStep_honest_iff (w : VpnWorld) (op : VpnOp) (hop : op.Keeps kind path)
    (hw : HonestyInv kind path w) (hhonest : StatesHonest w) :
    StatesHonest (vpnStep w op) ↔ Harmless w op := by
  have hw' := vpnStep_honestyInv w op hop hw
  cases op with
  | up v found env =>
    rw [vpnStep] at hw' ⊢
    rcases pmxVpnUp_cases w v found env with ⟨heq, hwhy⟩ | ⟨i, old, start, htakes, hfound, hvalid, heq⟩
    · rw [heq]
      refine iff_of_true hhonest fun hfound hvalid e he => ?_
      rcases hwhy with hnot | hnot | hnot
      · rw [hfound] at hnot
        cases hnot
      · exact absurd hvalid hnot
      · rw [hnot] at he
        cases he
    · rw [heq] at hw' ⊢
      obtain ⟨new, hup⟩ := bringUp_broughtUp w v env i start
      rw [hup.honest_iff hw.table hw'.table htakes hhonest]
      exact ⟨fun h _ _ => h, fun h => h hfound hvalid⟩
  | down v found ran =>
    rw [vpnStep] at hw' ⊢
    rcases pmxVpnDown_cases w v found ran with ⟨heq, hnone⟩ | ⟨i, e, hslot, hkey, heq⟩
    · rw [heq]
      refine iff_of_true hhonest fun _ _ hentry => ?_
      obtain ⟨e, he, hkey⟩ := hentry
      exact absurd hkey (hnone e he)
    · rw [heq] at hw' ⊢
      obtain ⟨new, hdown⟩ := bringDown_broughtDown found ran i (hw.name_ok hop.2 hslot hkey)
      exact hdown.honest_iff hw hw' hslot hkey hop hhonest
  | poll => exact pmxVpnRunnerPoll_honest_iff hw hhonest
  | exit handle code =>
    refine iff_of_true (fun x => (hhonest x).mono rfl Iff.rfl ?_ ?_) trivial
    · rintro ⟨c, hc, hid, hlives⟩
      exact ⟨c, (mem_endChild hc hlives).1, hid, hlives⟩
    · exact ChildPolled.mono (childrenKept_endChild w.children handle code) rfl

theorem vpnRunnerCreate_honestyInv : HonestyInv kind path vpnRunnerCreate where
  table := vpnRunnerCreate_tableInv
  kinds := vpnRunnerCreate_kindOk kind
  own := by
    intro e he
    obtain rfl := List.eq_of_mem_replicate he
    exact fun hused => absurd hused Bool.false_ne_true
  services s hs := by cases hs
  children c hc := by cases hc

theorem vpnRunnerCreate_honest : StatesHonest vpnRunnerCreate := by
  intro x
  rw [HonestAt, pmxVpnRunnerState_eq vpnRunnerCreate_tableInv.keys, entryOf,
    find?_key_eq_none.2 fun e he => ?_]
  · refine ⟨fun _ => ⟨?_, ?_⟩, fun hrunning => by cases hrunning⟩
    · rintro ⟨s, hs, -⟩
      cases hs
    · rintro ⟨c, hc, -⟩
      cases hc
  · obtain rfl := List.eq_of_mem_replicate he
    exact (Option.some_ne_none x).symm

/-- **What is reported is true all along** in a run of calls and of ends of children just when each of its
steps is harmless. -/
theorem tunnelHonesty (kind : PmxId → PmxVpnKind) (path : PmxId → CBuf pmxMaxPath) (ops : List VpnOp)
    (hkeeps : ∀ op ∈ ops, op.Keeps kind path) :
    EachState vpnStep StatesHonest vpnRunnerCreate ops ↔ EachStep vpnStep Harmless vpnRunnerCreate ops :=
  eachState_iff_eachStep_of_mem (HonestyInv kind path) vpnStep_honestyInv vpnStep_honest_iff ops
    vpnRunnerCreate hkeeps vpnRunnerCreate_honestyInv vpnRunnerCreate_honest

/-- A WireGuard tunnel. -/
def officeWg : PmxVpn where
  __ := pmxVpnInit
  id := 3
  kind := .wireguard
  configPath := strlcpy pmxMaxPath (bytes "office.conf")
  endpoints := [⟨strlcpy pmxMaxHost (bytes "vpn.example"), 51820, true⟩]
  peerPublicKey := strlcpy 64 (bytes "cGVlcg==")
  hasPrivateKey := true
  endpoints_fit := by decide

/-- The tunnel brought up, and brought down by a client that exits with this code. -/
def upAndDown (code : ℤ) : List VpnOp :=
  [.up officeWg true startedEnv, .down officeWg true ⟨.ok, code, default⟩]

theorem upAndDown_keeps (code : ℤ) : ∀ op ∈ upAndDown code,
    op.Keeps (fun _ => .wireguard) fun _ => officeWg.configPath := by
  intro op hop
  rcases List.mem_pair.1 hop with rfl | rfl
  · exact ⟨rfl, rfl⟩
  · exact ⟨rfl, rfl⟩

/-- Where the service is removed, what is reported is true. -/
theorem tunnelHonesty_removed : EachState vpnStep StatesHonest vpnRunnerCreate (upAndDown 0) :=
  (tunnelHonesty _ _ _ (upAndDown_keeps 0)).2 (by
    refine ⟨fun _ _ e he => ?_, fun _ _ _ => ?_, trivial⟩
    · have hnone : reclaimed vpnRunnerCreate.entries officeWg.id = none := by decide
      rw [hnone] at he
      cases he
    · have hown : ∀ s ∈ (vpnStep vpnRunnerCreate (.up officeWg true startedEnv)).services,
          s.1 = officeWg.id := by decide +kernel
      exact fun s hs hne => absurd (hown s hs) hne)

/-- Where the client fails to remove the service, the tunnel is reported down while its service is still
installed. -/
theorem not_tunnelHonesty_notRemoved :
    (∀ op ∈ upAndDown 1, op.Keeps (fun _ => .wireguard) fun _ => officeWg.configPath) ∧
      ¬EachState vpnStep StatesHonest vpnRunnerCreate (upAndDown 1) := by
  refine ⟨upAndDown_keeps 1, fun hhonest => ?_⟩
  have hlast := (hhonest.2.2 officeWg.id).1 (by decide +kernel)
  have hinstalled : Installed (runFrom vpnStep vpnRunnerCreate (upAndDown 1)) officeWg.id := by
    decide +kernel
  exact hlast.1 hinstalled

end ProxiMight
