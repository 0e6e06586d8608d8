import ProxiMight.VpnRunner

/-!
# The table of tunnels (`entry_for`)

A VPN is looked up by its id, takes the first free entry, or else the first that is finished.  An entry
counts as live while it has the handle of a child or is starting or running; the child itself may have
ended since, and where the id has changed its kind the entry may be down or failed with that handle.

* **`tunnelTable`** — in every state reachable by calls on the runner and ends of children: an id has one
  entry, an entry that is alive stays with its id, and management ports are distinct; and a VPN gets no
  entry only when all eight are alive and of others, where no call leaves a handle behind.
-/

namespace ProxiMight

open CString Runs SlotTable

/-- The id an entry is in use for. -/
def slotKey (e : VpnEntry) : Option PmxId := if e.used then some e.id else none

/-- The entry is in use, and has the handle of a child or is starting or running. -/
def VpnEntry.Live (e : VpnEntry) : Prop :=
  e.used = true ∧ (e.proc ≠ none ∨ e.state = .starting ∨ e.state = .running)

instance (e : VpnEntry) : Decidable e.Live := inferInstanceAs (Decidable (_ ∧ _))

/-- The entry that a VPN which has none takes from another VPN: the first finished one, if none is
free. -/
def reclaimed (es : List VpnEntry) (id : PmxId) : Option VpnEntry :=
  if (∃ e ∈ es, slotKey e = some id) ∨ ∃ e ∈ es, e.used = false then none
  else es.find? VpnEntry.finished

/-! ### Looking up -/

theorem isOf_eq (id : PmxId) : VpnEntry.isOf id = fun e => slotKey e == some id := by
  funext e
  rw [VpnEntry.isOf, slotKey]
  cases e.used with
  | false => rfl
  | true => rfl

theorem isOf_iff {id : PmxId} {e : VpnEntry} : e.isOf id = true ↔ slotKey e = some id := by
  rw [isOf_eq, beq_iff_eq]

theorem slotKey_used {e : VpnEntry} {id : PmxId} (h : slotKey e = some id) :
    e.used = true ∧ e.id = id := by
  rw [slotKey] at h
  split_ifs at h with hused
  exact ⟨hused, Option.some.inj h⟩

theorem finished_iff {e : VpnEntry} (hused : e.used = true) : e.finished = true ↔ ¬e.Live := by
  rw [VpnEntry.finished, VpnEntry.Live, hused, Bool.and_eq_true, Option.isNone_iff_eq_none]
  cases e.state <;> simp

theorem findIdx?_slot {es : List VpnEntry} {p : VpnEntry → Bool} {i : ℕ} (h : es.findIdx? p = some i) :
    ∃ e, es[i]? = some e ∧ p e = true ∧ es.find? p = some e := by
  obtain ⟨hi, hp, -⟩ := List.findIdx?_eq_some_iff_getElem.1 h
  refine ⟨es[i], List.getElem?_eq_getElem hi, hp, ?_⟩
  rw [List.find?_eq_bind_findIdx?_getElem?, h, Option.bind_some, List.getElem?_eq_getElem hi]

/-- **The slot a VPN gets**: its own; or one that is not live, free or reclaimed; or none, where every
entry is live and of another. -/
theorem entryFor_cases (es : List VpnEntry) (id : PmxId) :
    (∃ i e, es[i]? = some e ∧ slotKey e = some id ∧ entryFor es id true = (es, some i) ∧
      reclaimed es id = none) ∨
    ((∀ e ∈ es, slotKey e ≠ some id) ∧ ∃ i e, es[i]? = some e ∧ ¬e.Live ∧
      entryFor es id true = (es.set i (.fresh id), some i) ∧
      reclaimed es id = if e.used then some e else none) ∨
    ((∀ e ∈ es, slotKey e ≠ some id ∧ e.Live) ∧ entryFor es id true = (es, none) ∧
      reclaimed es id = none) := by
  rw [entryFor]
  cases hown : es.findIdx? (VpnEntry.isOf id) with
  | some i =>
    obtain ⟨e, hi, he, -⟩ := findIdx?_slot hown
    rw [isOf_iff] at he
    exact Or.inl ⟨i, e, hi, he, rfl, if_pos (Or.inl ⟨e, List.mem_of_getElem? hi, he⟩)⟩
  | none =>
    have hnone : ∀ e ∈ es, slotKey e ≠ some id := by
      intro e he hkey
      have hnot := List.findIdx?_eq_none_iff.1 hown e he
      rw [isOf_iff.2 hkey] at hnot
      cases hnot
    rw [if_neg (by decide)]
    dsimp only
    cases hfree : es.findIdx? fun e => !e.used with
    | some i =>
      obtain ⟨e, hi, he, -⟩ := findIdx?_slot hfree
      have hused : e.used = false := by simpa using he
      refine Or.inr (Or.inl ⟨hnone, i, e, hi, fun hlive => ?_, rfl, ?_⟩)
      · rw [hlive.1] at hused
        cases hused
      · rw [hused]
        exact if_pos (Or.inr ⟨e, List.mem_of_getElem? hi, hused⟩)
    | none =>
      have hused : ∀ e ∈ es, e.used = true := fun e he => by
        simpa using List.findIdx?_eq_none_iff.1 hfree e he
      have hfull : reclaimed es id = es.find? VpnEntry.finished := by
        refine if_neg ?_
        rintro (⟨e, he, hkey⟩ | ⟨e, he, hunused⟩)
        · exact hnone e he hkey
        · rw [hused e he] at hunused
          cases hunused
      dsimp only
      cases hdone : es.findIdx? VpnEntry.finished with
      | some i =>
        obtain ⟨e, hi, he, hfind⟩ := findIdx?_slot hdone
        have heused := hused e (List.mem_of_getElem? hi)
        refine Or.inr (Or.inl ⟨hnone, i, e, hi, (finished_iff heused).1 he, rfl, ?_⟩)
        rw [hfull, hfind, heused]
        rfl
      | none =>
        refine Or.inr (Or.inr ⟨fun e he => ⟨hnone e he, ?_⟩, rfl, ?_⟩)
        · by_contra hdead
          have hnot := List.findIdx?_eq_none_iff.1 hdone e he
          rw [(finished_iff (hused e he)).2 hdead] at hnot
          cases hnot
        · rw [hfull, List.find?_eq_none]
          intro e he
          rw [List.findIdx?_eq_none_iff.1 hdone e he]
          exact Bool.false_ne_true

/-- A look-up that may not create an entry. -/
theorem entryFor_false (es : List VpnEntry) (id : PmxId) :
    (∃ i e, es[i]? = some e ∧ slotKey e = some id ∧ (entryFor es id false).2 = some i) ∨
    ((∀ e ∈ es, slotKey e ≠ some id) ∧ (entryFor es id false).2 = none) := by
  rw [entryFor]
  cases hown : es.findIdx? (VpnEntry.isOf id) with
  | some i =>
    obtain ⟨e, hi, he, -⟩ := findIdx?_slot hown
    exact Or.inl ⟨i, e, hi, isOf_iff.1 he, rfl⟩
  | none =>
    refine Or.inr ⟨fun e he hkey => ?_, rfl⟩
    have hnot := List.findIdx?_eq_none_iff.1 hown e he
    rw [isOf_iff.2 hkey] at hnot
    cases hnot

theorem entryAt_eq {es : List VpnEntry} {i : ℕ} {e : VpnEntry} (h : es[i]? = some e) :
    entryAt es i = e := by
  rw [entryAt, List.getD_eq_getElem?_getD, h, Option.getD_some]

/-! ### One call -/

/-- What a VPN starts from: its own entry, or a fresh one in place of one that is not live. -/
structure Takes (w : VpnWorld) (id : PmxId) (i : ℕ) (old start : VpnEntry) : Prop where
  slot : w.entries[i]? = some old
  start : (slotKey old = some id ∧ start = old) ∨
    ((∀ e ∈ w.entries, slotKey e ≠ some id) ∧ ¬old.Live ∧ start = .fresh id)
  reclaimed : reclaimed w.entries id = if old.used = true ∧ slotKey old ≠ some id then some old else none

theorem Takes.key {w : VpnWorld} {id : PmxId} {i : ℕ} {old start : VpnEntry}
    (h : Takes w id i old start) : slotKey start = some id := by
  rcases h.start with ⟨hkey, rfl⟩ | ⟨-, -, rfl⟩
  · exact hkey
  · rfl

/-- A bring-up does nothing but answer, or it gets a slot. -/
theorem pmxVpnUp_cases (w : VpnWorld) (v : PmxVpn) (found : Bool) (env : UpEnv) :
    ((pmxVpnUp w v found env).1 = w ∧
      (found = false ∨ (pmxVpnValidate 128 v).1 ≠ .ok ∨ reclaimed w.entries v.id = none)) ∨
    ∃ i old start, Takes w v.id i old start ∧ found = true ∧ (pmxVpnValidate 128 v).1 = .ok ∧
      pmxVpnUp w v found env = bringUp w v env i start := by
  rw [pmxVpnUp]
  split_ifs with hfound hvalid
  · exact Or.inl ⟨rfl, Or.inl hfound⟩
  · exact Or.inl ⟨rfl, Or.inr (Or.inl hvalid)⟩
  · rw [Bool.not_eq_false] at hfound
    rw [not_not] at hvalid
    rcases entryFor_cases w.entries v.id with
      ⟨i, e, hi, hkey, heq, hrec⟩ | ⟨hnone, i, e, hi, hdead, heq, hrec⟩ | ⟨-, heq, hrec⟩
    · rw [heq]
      refine Or.inr ⟨i, e, e, ⟨hi, Or.inl ⟨hkey, rfl⟩, ?_⟩, hfound, hvalid, ?_⟩
      · rw [hrec, if_neg fun h => h.2 hkey]
      · dsimp only
        rw [entryAt_eq hi]
    · rw [heq]
      refine Or.inr ⟨i, e, .fresh v.id, ⟨hi, Or.inr ⟨hnone, hdead, rfl⟩, ?_⟩, hfound, hvalid, ?_⟩
      · rw [hrec]
        exact if_congr (iff_self_and.2 fun _ => hnone e (List.mem_of_getElem? hi)) rfl rfl
      · -- the entry is cleared and then filled in, both in the same slot
        obtain ⟨hlt, -⟩ := List.getElem?_eq_some_iff.1 hi
        dsimp only
        rw [entryAt_eq (List.getElem?_set_self hlt), bringUp, bringUp]
        simp only [List.set_set]
    · rw [heq]
      exact Or.inl ⟨rfl, Or.inr (Or.inr hrec)⟩

/-- A VPN without an entry was never started, and is left alone. -/
theorem pmxVpnDown_cases (w : VpnWorld) (v : PmxVpn) (found : Bool) (ran : ProcRun) :
    ((pmxVpnDown w v found ran).1 = w ∧ ∀ e ∈ w.entries, slotKey e ≠ some v.id) ∨
    ∃ i e, w.entries[i]? = some e ∧ slotKey e = some v.id ∧
      pmxVpnDown w v found ran = bringDown w v found ran i e := by
  rw [pmxVpnDown]
  rcases entryFor_false w.entries v.id with ⟨i, e, hi, hkey, heq⟩ | ⟨hnone, heq⟩
  · rw [heq]
    refine Or.inr ⟨i, e, hi, hkey, ?_⟩
    dsimp only
    rw [entryAt_eq hi]
  · rw [heq]
    exact Or.inl ⟨rfl, hnone⟩

/-- The WireGuard branch touches the state, the message and the tunnel's name. -/
theorem wireguardUp_frame (v : PmxVpn) (env : UpEnv) (e : VpnEntry) : ∃ state message tunnelName,
    (wireguardUp v env e).1 =
      { e with state := state, message := message, tunnelName := tunnelName } ∧
    state = (if (env.elevated && env.ran.succeeded) = true then .running else .failed) ∧
    (tunnelName = e.tunnelName ∨ tunnelName = serviceName v.configPath) := by
  rw [wireguardUp]
  cases env.elevated with
  | false => exact ⟨_, _, e.tunnelName, rfl, rfl, Or.inl rfl⟩
  | true =>
    rw [if_neg (by decide)]
    dsimp only
    cases env.ran.succeeded with
    | false => exact ⟨_, _, _, rfl, rfl, Or.inr rfl⟩
    | true => exact ⟨_, _, _, rfl, rfl, Or.inr rfl⟩

/-- The management port of a slot. -/
def mgmtPortOf (slot : ℕ) : PmxPort := UInt16.ofNat (pmxOvpnMgmtBase + slot)

/-- The OpenVPN branch sets the port, the child, the state and the message. -/
theorem openvpnUp_frame (slot handle : ℕ) (env : UpEnv) (e : VpnEntry) : ∃ state message,
    (openvpnUp slot handle env e).1 =
      { e with
          mgmtPort := if e.mgmtPort = 0 then mgmtPortOf slot else e.mgmtPort
          proc := if env.spawn = .ok then some handle else none
          state := state
          message := message } ∧
      state = if env.spawn = .ok then .starting else .failed := by
  rw [openvpnUp]
  by_cases hspawn : env.spawn = .ok
  · rw [if_neg (not_not.2 hspawn), if_pos hspawn, if_pos hspawn]
    exact ⟨_, _, rfl, rfl⟩
  · rw [if_pos hspawn, if_neg hspawn, if_neg hspawn]
    exact ⟨_, _, rfl, rfl⟩

/-- **What a bring-up does**: it writes the slot, and either installs a service or frees the child that was
there and starts a new one. -/
theorem bringUp_cases (w : VpnWorld) (v : PmxVpn) (env : UpEnv) (i : ℕ) (start : VpnEntry) :
    (v.kind = .wireguard ∧ ∃ state message tunnelName,
      (bringUp w v env i start).1 =
        { w with
            entries := w.entries.set i
              { start with
                  kind := v.kind
                  stopping := false
                  state := state
                  message := message
                  tunnelName := tunnelName }
            services :=
              if (env.elevated && env.ran.succeeded) = true then
                (v.id, serviceName v.configPath) :: w.services
              else w.services } ∧
        state = (if (env.elevated && env.ran.succeeded) = true then .running else .failed) ∧
        (tunnelName = start.tunnelName ∨ tunnelName = serviceName v.configPath)) ∨
    (v.kind ≠ .wireguard ∧ ∃ state message,
      (bringUp w v env i start).1 =
        { w with
            entries := w.entries.set i
              { start with
                  kind := v.kind
                  stopping := false
                  mgmtPort := if start.mgmtPort = 0 then mgmtPortOf i else start.mgmtPort
                  proc := if env.spawn = .ok then some w.nextHandle else none
                  state := state
                  message := message }
            children :=
              if env.spawn = .ok then ⟨w.nextHandle, v.id, none⟩ :: procFree w.children start.proc
              else procFree w.children start.proc
            nextHandle := w.nextHandle + 1 } ∧
        state = if env.spawn = .ok then .starting else .failed) := by
  rw [bringUp]
  dsimp only
  by_cases hkind : v.kind = .wireguard
  · rw [if_pos hkind]
    obtain ⟨state, message, tunnelName, heq, hstate, hname⟩ :=
      wireguardUp_frame v env { start with kind := v.kind, stopping := false }
    rw [heq]
    exact Or.inl ⟨hkind, state, message, tunnelName, rfl, hstate, hname⟩
  · rw [if_neg hkind]
    obtain ⟨state, message, heq, hstate⟩ :=
      openvpnUp_frame i w.nextHandle env { start with kind := v.kind, stopping := false }
    rw [heq]
    exact Or.inr ⟨hkind, state, message, rfl, hstate⟩

/-- **What a bring-down does**: without a client it marks the entry, else it removes the service where the
client does, or frees the child. -/
theorem bringDown_cases (w : VpnWorld) (v : PmxVpn) (found : Bool) (ran : ProcRun) (i : ℕ) (e : VpnEntry) :
    (v.kind = .wireguard ∧ found = false ∧
      (bringDown w v found ran i e).1 = { w with entries := w.entries.set i { e with stopping := true } }) ∨
    (v.kind = .wireguard ∧ found = true ∧ ∃ message tunnelName,
      (bringDown w v found ran i e).1 =
        { w with
            entries := w.entries.set i
              { e with stopping := true, tunnelName := tunnelName, state := .down, message := message }
            services :=
              if ran.succeeded = true then w.services.filter fun s => decide (s.2 ≠ tunnelName)
              else w.services } ∧
        tunnelName = if e.tunnelName.isEmpty = true then serviceName v.configPath else e.tunnelName) ∨
    (v.kind ≠ .wireguard ∧ ∃ message,
      (bringDown w v found ran i e).1 =
        { w with
            entries := w.entries.set i
              { e with stopping := true, proc := none, state := .down, message := message }
            children := procFree w.children e.proc }) := by
  rw [bringDown]
  dsimp only
  by_cases hkind : v.kind = .wireguard
  · rw [if_pos hkind]
    cases found with
    | false => exact Or.inl ⟨hkind, rfl, rfl⟩
    | true => exact Or.inr (Or.inl ⟨hkind, rfl, _, _, rfl, rfl⟩)
  · rw [if_neg hkind]
    exact Or.inr (Or.inr ⟨hkind, _, rfl⟩)

/-! ### Children -/

/-- A child ends once; the others are left alone. -/
theorem endChild_cases (handle : ℕ) (code : ℤ) (c : VpnChild) :
    (¬(c.handle = handle ∧ c.exit = none) ∧ endChild handle code c = c) ∨
      (endChild handle code c).exit = some code := by
  rw [endChild]
  by_cases hends : c.handle = handle ∧ c.exit = none
  · rw [if_pos hends]
    exact Or.inr rfl
  · rw [if_neg hends]
    exact Or.inl ⟨hends, rfl⟩

@[simp] theorem endChild_handle (handle : ℕ) (code : ℤ) (c : VpnChild) :
    (endChild handle code c).handle = c.handle := by
  rw [endChild]
  split_ifs
  · rfl
  · rfl

theorem map_handle_endChild (handle : ℕ) (code : ℤ) (cs : List VpnChild) :
    (cs.map (endChild handle code)).map (·.handle) = cs.map (·.handle) := by
  rw [List.map_map]
  exact List.map_congr_left fun c _ => endChild_handle handle code c

/-- A child that lives after another has ended lived before. -/
theorem mem_endChild {handle : ℕ} {code : ℤ} {cs : List VpnChild} {c : VpnChild}
    (hc : c ∈ cs.map (endChild handle code)) (hlives : c.exit = none) : c ∈ cs ∧ c.handle ≠ handle := by
  obtain ⟨c₀, hc₀, rfl⟩ := List.mem_map.1 hc
  rcases endChild_cases handle code c₀ with ⟨hother, heq⟩ | hend
  · rw [heq] at hlives ⊢
    exact ⟨hc₀, fun hhandle => hother ⟨hhandle, hlives⟩⟩
  · rw [hend] at hlives
    cases hlives

theorem map_handle_procFree (cs : List VpnChild) (proc : Option ℕ) :
    (procFree cs proc).map (·.handle) = cs.map (·.handle) := by
  cases proc with
  | none => rfl
  | some handle => exact map_handle_endChild handle 1 cs

/-- What lives after a child has been freed is another child. -/
theorem mem_procFree {cs : List VpnChild} {proc : Option ℕ} {c : VpnChild} (hc : c ∈ procFree cs proc)
    (hlives : c.exit = none) : c ∈ cs ∧ proc ≠ some c.handle := by
  cases proc with
  | none => exact ⟨hc, (Option.some_ne_none _).symm⟩
  | some handle =>
    obtain ⟨hmem, hne⟩ := mem_endChild hc hlives
    exact ⟨hmem, fun h => hne (Option.some.inj h).symm⟩

/-- With distinct handles, a child is the one found by its handle. -/
theorem find?_handle {cs : List VpnChild} (hnodup : (cs.map (·.handle)).Nodup) {c : VpnChild}
    (hc : c ∈ cs) : cs.find? (·.handle == c.handle) = some c := by
  induction cs with
  | nil => cases hc
  | cons d cs ih =>
    rw [List.map_cons, List.nodup_cons] at hnodup
    rcases List.mem_cons.1 hc with rfl | hc
    · exact List.find?_cons_of_pos (beq_self_eq_true _)
    · have hne : d.handle ≠ c.handle := fun h => hnodup.1 (List.mem_map.2 ⟨c, hc, h.symm⟩)
      rw [List.find?_cons_of_neg (by simp [hne])]
      exact ih hnodup.2 hc

/-! ### The invariant -/

/-- Every child that lives is held by the entry of the VPN it was started for. -/
def ChildrenHeld (w : VpnWorld) : Prop :=
  ∀ c ∈ w.children, c.exit = none → ∃ e ∈ w.entries, slotKey e = some c.id ∧ e.proc = some c.handle

/-- The port of an entry: none, or that of its slot, which an entry of an OpenVPN tunnel has. -/
def PortOk (i : ℕ) (e : VpnEntry) : Prop :=
  (e.mgmtPort = 0 ∨ e.mgmtPort = mgmtPortOf i) ∧
    (e.used = true → e.kind ≠ .wireguard → e.mgmtPort = mgmtPortOf i)

structure TableInv (w : VpnWorld) : Prop where
  size : w.entries.length = pmxVpnMaxTracked
  keys : KeysDistinct slotKey w.entries
  ports : ∀ (i : ℕ) (e : VpnEntry), w.entries[i]? = some e → PortOk i e
  held : ChildrenHeld w
  handles : (w.nextHandle :: w.children.map (·.handle)).Pairwise (· > ·)

/-- An overwrite of a slot keeps the children held, if each that lives is held by the new entry or is not
the one the old entry held. -/
theorem ChildrenHeld.set {w w' : VpnWorld} {i : ℕ} {old new : VpnEntry} (hw : ChildrenHeld w)
    (hslot : w.entries[i]? = some old) (hentries : w'.entries = w.entries.set i new)
    (hchildren : ∀ c ∈ w'.children, c.exit = none →
      (slotKey new = some c.id ∧ new.proc = some c.handle) ∨
        c ∈ w.children ∧ ¬(slotKey old = some c.id ∧ old.proc = some c.handle)) : ChildrenHeld w' := by
  intro c hc hlives
  rw [hentries]
  obtain ⟨hlt, -⟩ := List.getElem?_eq_some_iff.1 hslot
  rcases hchildren c hc hlives with hnew | ⟨hmem, hold⟩
  · exact ⟨new, List.mem_set hlt new, hnew⟩
  · obtain ⟨e, he, hheld⟩ := hw c hmem hlives
    obtain ⟨j, hj⟩ := List.mem_iff_getElem?.1 he
    have hij : i ≠ j := by
      rintro rfl
      obtain rfl := Option.some.inj (hslot.symm.trans hj)
      exact hold hheld
    exact ⟨e, List.mem_of_getElem? ((List.getElem?_set_ne hij).trans hj), hheld⟩

theorem Takes.keys {w : VpnWorld} {id : PmxId} {i : ℕ} {old start new : VpnEntry}
    (h : Takes w id i old start) (hw : KeysDistinct slotKey w.entries) (hnew : slotKey new = some id) :
    KeysDistinct slotKey (w.entries.set i new) := by
  rcases h.start with ⟨hown, -⟩ | ⟨hnone, -, -⟩
  · exact hw.set_same h.slot (Or.inr (hnew.trans hown.symm))
  · apply hw.set
    intro j b k _ hj hk hb
    rw [hnew] at hk
    rw [← hk] at hb
    exact hnone b (List.mem_of_getElem? hj) hb

/-- An entry that is reclaimed held no child, and starts without one. -/
theorem Takes.proc {w : VpnWorld} {id : PmxId} {i : ℕ} {old start : VpnEntry}
    (h : Takes w id i old start) {cid : PmxId} {handle : ℕ} (hkey : slotKey old = some cid)
    (hproc : old.proc = some handle) : cid = id ∧ start.proc = some handle := by
  rcases h.start with ⟨hown, rfl⟩ | ⟨-, hdead, -⟩
  · exact ⟨Option.some.inj (hkey.symm.trans hown), hproc⟩
  · refine absurd ⟨(slotKey_used hkey).1, Or.inl ?_⟩ hdead
    rw [hproc]
    exact Option.some_ne_none handle

theorem Takes.port {w : VpnWorld} {id : PmxId} {i : ℕ} {old start : VpnEntry}
    (h : Takes w id i old start) (hw : PortOk i old) :
    start.mgmtPort = 0 ∨ start.mgmtPort = mgmtPortOf i := by
  rcases h.start with ⟨-, rfl⟩ | ⟨-, -, rfl⟩
  · exact hw.1
  · exact Or.inl rfl

/-- What a call has to bring along to keep the invariant: the entry written is that of the VPN, its port
is in order, and it holds the child started, or still the one it held, or that one has ended. -/
theorem TableInv.set {w w' : VpnWorld} {id : PmxId} {i : ℕ} {old start new : VpnEntry} (hw : TableInv w)
    (htakes : Takes w id i old start) (hentries : w'.entries = w.entries.set i new)
    (hkey : slotKey new = some id) (hport : PortOk i new)
    (hhandles : (w'.nextHandle :: w'.children.map (·.handle)).Pairwise (· > ·))
    (hchildren : ∀ c ∈ w'.children, c.exit = none →
      (slotKey new = some c.id ∧ new.proc = some c.handle) ∨
        c ∈ w.children ∧ (new.proc = start.proc ∨ start.proc ≠ some c.handle)) : TableInv w' where
  size := by rw [hentries, List.length_set, hw.size]
  keys := by
    rw [hentries]
    exact htakes.keys hw.keys hkey
  ports := by
    rw [hentries]
    exact forall_set hw.ports hport
  held := by
    refine hw.held.set htakes.slot hentries fun c hc hlives => ?_
    rcases hchildren c hc hlives with hnew | ⟨hmem, hproc⟩
    · exact Or.inl hnew
    · by_cases hold : slotKey old = some c.id ∧ old.proc = some c.handle
      · obtain ⟨hid, hstart⟩ := htakes.proc hold.1 hold.2
        rcases hproc with hsame | hended
        · exact Or.inl ⟨by rw [hkey, hid], hsame.trans hstart⟩
        · exact absurd hstart hended
      · exact Or.inr ⟨hmem, hold⟩
  handles := hhandles

theorem bringUp_tableInv {w : VpnWorld} (hw : TableInv w) (v : PmxVpn) (env : UpEnv) {i : ℕ}
    {old start : VpnEntry} (htakes : Takes w v.id i old start) : TableInv (bringUp w v env i start).1 := by
  have hport := htakes.port (hw.ports i old htakes.slot)
  have hkey := htakes.key
  rcases bringUp_cases w v env i start with
    ⟨hkind, state, message, tunnelName, heq, -, -⟩ | ⟨hkind, state, message, heq, -⟩
  · rw [heq]
    exact hw.set htakes rfl hkey ⟨hport, fun _ h => absurd hkind h⟩ hw.handles
      fun c hc _ => Or.inr ⟨hc, Or.inl rfl⟩
  · have hslot : (if start.mgmtPort = 0 then mgmtPortOf i else start.mgmtPort) = mgmtPortOf i := by
      rcases hport with h | h
      · rw [if_pos h]
      · rw [h, ite_self]
    rw [heq]
    refine hw.set htakes rfl hkey ⟨Or.inr hslot, fun _ _ => hslot⟩ ?_ fun c hc hlives => ?_
    · have hnext : ∀ h ∈ w.nextHandle :: w.children.map (·.handle), h < w.nextHandle + 1 := by
        intro h hmem
        rcases List.mem_cons.1 hmem with rfl | hmem
        · omega
        · have hlt := List.rel_of_pairwise_cons hw.handles hmem
          omega
      dsimp only
      split_ifs
      · rw [List.map_cons, map_handle_procFree]
        exact List.pairwise_cons.2 ⟨hnext, hw.handles⟩
      · rw [map_handle_procFree]
        exact List.pairwise_cons.2
          ⟨fun h hmem => hnext h (List.mem_cons_of_mem _ hmem), hw.handles.tail⟩
    · -- the child that was there has been killed, and the new one is in the entry
      have hfreed : ∀ hc : c ∈ procFree w.children start.proc,
          c ∈ w.children ∧ start.proc ≠ some c.handle := fun hc => mem_procFree hc hlives
      dsimp only at hc ⊢
      by_cases hspawn : env.spawn = .ok
      · rw [if_pos hspawn] at hc ⊢
        rcases List.mem_cons.1 hc with rfl | hc
        · exact Or.inl ⟨hkey, rfl⟩
        · exact Or.inr ⟨(hfreed hc).1, Or.inr (hfreed hc).2⟩
      · rw [if_neg hspawn] at hc
        exact Or.inr ⟨(hfreed hc).1, Or.inr (hfreed hc).2⟩

theorem Takes.own {w : VpnWorld} {id : PmxId} {i : ℕ} {e : VpnEntry} (hslot : w.entries[i]? = some e)
    (hkey : slotKey e = some id) : Takes w id i e e where
  slot := hslot
  start := Or.inl ⟨hkey, rfl⟩
  reclaimed := by
    rw [if_neg fun h => h.2 hkey]
    exact if_pos (Or.inl ⟨e, List.mem_of_getElem? hslot, hkey⟩)

theorem bringDown_tableInv {w : VpnWorld} (hw : TableInv w) (v : PmxVpn) (found : Bool) (ran : ProcRun)
    {i : ℕ} {e : VpnEntry} (hslot : w.entries[i]? = some e) (hkey : slotKey e = some v.id) :
    TableInv (bringDown w v found ran i e).1 := by
  have htakes := Takes.own hslot hkey
  have hport : PortOk i e := hw.ports i e hslot
  rcases bringDown_cases w v found ran i e with
    ⟨-, -, heq⟩ | ⟨-, -, message, tunnelName, heq, -⟩ | ⟨-, message, heq⟩
  · rw [heq]
    exact hw.set htakes rfl hkey hport hw.handles fun c hc _ => Or.inr ⟨hc, Or.inl rfl⟩
  · rw [heq]
    exact hw.set htakes rfl hkey hport hw.handles fun c hc _ => Or.inr ⟨hc, Or.inl rfl⟩
  · rw [heq]
    refine hw.set htakes rfl hkey hport ?_ fun c hc hlives => ?_
    · dsimp only
      rw [map_handle_procFree]
      exact hw.handles
    · obtain ⟨hmem, hne⟩ := mem_procFree hc hlives
      exact Or.inr ⟨hmem, Or.inr hne⟩

/-- A poll touches the state and the message of an entry, and may take its child away. -/
theorem pollEntry_frame (cs : List VpnChild) (e : VpnEntry) : ∃ proc state message,
    pollEntry cs e = { e with proc := proc, state := state, message := message } ∧
      (proc = e.proc ∨ proc = none) := by
  rw [pollEntry]
  cases hproc : e.proc with
  | none => exact ⟨e.proc, e.state, e.message, rfl, Or.inr hproc⟩
  | some handle =>
    dsimp only
    split_ifs
    · exact ⟨e.proc, e.state, e.message, rfl, Or.inl hproc⟩
    · exact ⟨some handle, .running, e.message, rfl, Or.inl rfl⟩
    · exact ⟨e.proc, e.state, e.message, rfl, Or.inl hproc⟩
    · exact ⟨none, .down, e.message, rfl, Or.inr rfl⟩
    · exact ⟨none, .failed, _, rfl, Or.inr rfl⟩

@[simp] theorem slotKey_pollEntry (cs : List VpnChild) (e : VpnEntry) :
    slotKey (pollEntry cs e) = slotKey e := by
  obtain ⟨proc, state, message, heq, -⟩ := pollEntry_frame cs e
  rw [heq]
  rfl

/-- The child of an entry stays while it runs. -/
theorem pollEntry_proc {cs : List VpnChild} {e : VpnEntry} {handle : ℕ} (hproc : e.proc = some handle)
    (hrunning : procRunning cs handle = true) : (pollEntry cs e).proc = some handle := by
  rw [pollEntry, hproc]
  dsimp only
  by_cases hused : e.used = false
  · rw [if_pos hused, hproc]
  · rw [if_neg hused, if_pos hrunning]
    split_ifs
    · rfl
    · exact hproc

theorem procRunning_of_lives {cs : List VpnChild} (hnodup : (cs.map (·.handle)).Nodup) {c : VpnChild}
    (hc : c ∈ cs) (hlives : c.exit = none) : procRunning cs c.handle = true := by
  rw [procRunning, find?_handle hnodup hc]
  dsimp only
  rw [hlives]
  rfl

theorem TableInv.nodup {w : VpnWorld} (hw : TableInv w) : (w.children.map (·.handle)).Nodup :=
  hw.handles.tail.imp fun h => Nat.ne_of_gt h

/-- The entry of a VPN holds the child of it that lives. -/
theorem TableInv.proc_of_lives {w : VpnWorld} (hw : TableInv w) {c : VpnChild} (hc : c ∈ w.children)
    (hlives : c.exit = none) {e : VpnEntry} (he : e ∈ w.entries) (hkey : slotKey e = some c.id) :
    e.proc = some c.handle := by
  obtain ⟨e', he', hkey', hproc⟩ := hw.held c hc hlives
  obtain ⟨i, hi⟩ := List.mem_iff_getElem?.1 he
  obtain ⟨j, hj⟩ := List.mem_iff_getElem?.1 he'
  obtain rfl := hw.keys j i e' e c.id hj hi hkey' hkey
  obtain rfl := Option.some.inj (hj.symm.trans hi)
  exact hproc

theorem TableInv.handle_inj {w : VpnWorld} (hw : TableInv w) {c c' : VpnChild} (hc : c ∈ w.children)
    (hc' : c' ∈ w.children) (hsame : c.handle = c'.handle) : c = c' := by
  have hfind := find?_handle hw.nodup hc
  rw [hsame, find?_handle hw.nodup hc'] at hfind
  exact (Option.some.inj hfind).symm

theorem pmxVpnRunnerPoll_tableInv {w : VpnWorld} (hw : TableInv w) : TableInv (pmxVpnRunnerPoll w) where
  size := (List.length_map _).trans hw.size
  keys := hw.keys.map fun e k hk => by rwa [slotKey_pollEntry] at hk
  ports i e' hi := by
    obtain ⟨e, he, rfl⟩ := Option.map_eq_some_iff.1 ((List.getElem?_map ..).symm.trans hi)
    obtain ⟨proc, state, message, heq, -⟩ := pollEntry_frame w.children e
    rw [heq]
    exact hw.ports i e he
  held c hc hlives := by
    obtain ⟨e, he, hkey, hproc⟩ := hw.held c hc hlives
    refine ⟨pollEntry w.children e, List.mem_map_of_mem he, ?_, ?_⟩
    · rw [slotKey_pollEntry, hkey]
    · exact pollEntry_proc hproc (procRunning_of_lives hw.nodup hc hlives)
  handles := hw.handles

theorem vpnStep_tableInv {w : VpnWorld} (op : VpnOp) (hw : TableInv w) : TableInv (vpnStep w op) := by
  cases op with
  | up v found env =>
    rw [vpnStep]
    rcases pmxVpnUp_cases w v found env with ⟨heq, -⟩ | ⟨i, old, start, htakes, -, -, heq⟩
    · rw [heq]
      exact hw
    · rw [heq]
      exact bringUp_tableInv hw v env htakes
  | down v found ran =>
    rw [vpnStep]
    rcases pmxVpnDown_cases w v found ran with ⟨heq, -⟩ | ⟨i, e, hslot, hkey, heq⟩
    · rw [heq]
      exact hw
    · rw [heq]
      exact bringDown_tableInv hw v found ran hslot hkey
  | poll => exact pmxVpnRunnerPoll_tableInv hw
  | exit handle code =>
    refine ⟨hw.size, hw.keys, hw.ports, fun c hc hlives => ?_, ?_⟩
    · exact hw.held c (mem_endChild hc hlives).1 hlives
    · rw [vpnStep]
      dsimp only
      rw [map_handle_endChild]
      exact hw.handles

theorem vpnRunnerCreate_tableInv : TableInv vpnRunnerCreate where
  size := List.length_replicate
  keys i j a b k hi hj ha hb := by
    obtain rfl := List.eq_of_mem_replicate (List.mem_of_getElem? hi)
    cases ha
  ports i e hi := by
    obtain rfl := List.eq_of_mem_replicate (List.mem_of_getElem? hi)
    exact ⟨Or.inl rfl, fun h => absurd h Bool.false_ne_true⟩
  held c hc := by cases hc
  handles := List.pairwise_singleton _ _

/-! ### A live entry stays -/

theorem bringUp_entries (w : VpnWorld) (v : PmxVpn) (env : UpEnv) (i : ℕ) (start : VpnEntry) :
    ∃ new, (bringUp w v env i start).1.entries = w.entries.set i new ∧ slotKey new = slotKey start := by
  rcases bringUp_cases w v env i start with
    ⟨-, state, message, tunnelName, heq, -, -⟩ | ⟨-, state, message, heq, -⟩
  · exact ⟨_, congrArg VpnWorld.entries heq, rfl⟩
  · exact ⟨_, congrArg VpnWorld.entries heq, rfl⟩

theorem bringDown_entries (w : VpnWorld) (v : PmxVpn) (found : Bool) (ran : ProcRun) (i : ℕ)
    (e : VpnEntry) :
    ∃ new, (bringDown w v found ran i e).1.entries = w.entries.set i new ∧ slotKey new = slotKey e := by
  rcases bringDown_cases w v found ran i e with
    ⟨-, -, heq⟩ | ⟨-, -, message, tunnelName, heq, -⟩ | ⟨-, message, heq⟩
  · exact ⟨_, congrArg VpnWorld.entries heq, rfl⟩
  · exact ⟨_, congrArg VpnWorld.entries heq, rfl⟩
  · exact ⟨_, congrArg VpnWorld.entries heq, rfl⟩

theorem getElem?_set_key {es : List VpnEntry} {i j : ℕ} {e new : VpnEntry} (hi : es[i]? = some e)
    (hnew : j = i → slotKey new = slotKey e) :
    ∃ e' : VpnEntry, (es.set j new)[i]? = some e' ∧ slotKey e' = slotKey e := by
  obtain ⟨hlt, -⟩ := List.getElem?_eq_some_iff.1 hi
  by_cases hji : j = i
  · obtain rfl := hji
    exact ⟨new, List.getElem?_set_self hlt, hnew rfl⟩
  · exact ⟨e, (List.getElem?_set_ne hji).trans hi, rfl⟩

/-- No step hands a live entry to another VPN. -/
theorem vpnStep_live (w : VpnWorld) (op : VpnOp) {i : ℕ} {e : VpnEntry} (hi : w.entries[i]? = some e)
    (hlive : e.Live) : ∃ e' : VpnEntry, (vpnStep w op).entries[i]? = some e' ∧ slotKey e' = slotKey e := by
  cases op with
  | up v found env =>
    rw [vpnStep]
    rcases pmxVpnUp_cases w v found env with ⟨heq, -⟩ | ⟨j, old, start, htakes, -, -, heq⟩
    · rw [heq]
      exact ⟨e, hi, rfl⟩
    · rw [heq]
      obtain ⟨new, hentries, hnew⟩ := bringUp_entries w v env j start
      rw [hentries]
      refine getElem?_set_key hi ?_
      rintro rfl
      obtain rfl := Option.some.inj (htakes.slot.symm.trans hi)
      rcases htakes.start with ⟨-, rfl⟩ | ⟨-, hdead, -⟩
      · exact hnew
      · exact absurd hlive hdead
  | down v found ran =>
    rw [vpnStep]
    rcases pmxVpnDown_cases w v found ran with ⟨heq, -⟩ | ⟨j, own, hslot, -, heq⟩
    · rw [heq]
      exact ⟨e, hi, rfl⟩
    · rw [heq]
      obtain ⟨new, hentries, hnew⟩ := bringDown_entries w v found ran j own
      rw [hentries]
      refine getElem?_set_key hi ?_
      rintro rfl
      obtain rfl := Option.some.inj (hslot.symm.trans hi)
      exact hnew
  | poll =>
    refine ⟨pollEntry w.children e, ?_, slotKey_pollEntry w.children e⟩
    exact (List.getElem?_map ..).trans (congrArg (Option.map _) hi)
  | exit handle code => exact ⟨e, hi, rfl⟩

/-! ### VPNs that keep their kind -/

/-- The VPN that is brought up or down is of the kind its id has. -/
def VpnOp.KeepsKind (kind : PmxId → PmxVpnKind) : VpnOp → Prop
  | .up v _ _ | .down v _ _ => v.kind = kind v.id
  | _ => True

/-- An entry is of the kind its id has; a WireGuard tunnel has no child, and an OpenVPN tunnel has one just
while it is starting or running. -/
def KindOk (kind : PmxId → PmxVpnKind) (e : VpnEntry) : Prop :=
  e.used = true → e.kind = kind e.id ∧ (e.kind = .wireguard → e.proc = none) ∧
    (e.kind ≠ .wireguard → (e.proc ≠ none ↔ e.state = .starting ∨ e.state = .running))

theorem Takes.proc_eq_none {kind : PmxId → PmxVpnKind} {w : VpnWorld}
    (hw : ∀ e ∈ w.entries, KindOk kind e) {id : PmxId} {i : ℕ} {old start : VpnEntry}
    (h : Takes w id i old start) (hkind : kind id = .wireguard) : start.proc = none := by
  rcases h.start with ⟨hkey, rfl⟩ | ⟨-, -, rfl⟩
  · obtain ⟨hused, rfl⟩ := slotKey_used hkey
    obtain ⟨hsame, hnone, -⟩ := hw start (List.mem_of_getElem? h.slot) hused
    exact hnone (hsame.trans hkind)
  · rfl

theorem bringUp_kindOk {kind : PmxId → PmxVpnKind} {w : VpnWorld}
    (hw : ∀ e ∈ w.entries, KindOk kind e) {v : PmxVpn} (hkeeps : v.kind = kind v.id) (env : UpEnv) {i : ℕ}
    {old start : VpnEntry} (htakes : Takes w v.id i old start) :
    ∀ e ∈ (bringUp w v env i start).1.entries, KindOk kind e := by
  have hid : v.kind = kind start.id := by rw [hkeeps, (slotKey_used htakes.key).2]
  rcases bringUp_cases w v env i start with
    ⟨hkind, state, message, tunnelName, heq, -, -⟩ | ⟨hkind, state, message, heq, hstate⟩
  · have hproc : start.proc = none := htakes.proc_eq_none hw (hkeeps.symm.trans hkind)
    rw [heq]
    exact forall_mem_set hw fun _ => ⟨hid, fun _ => hproc, fun h => absurd hkind h⟩
  · rw [heq]
    refine forall_mem_set hw fun _ => ⟨hid, fun h => absurd h hkind, fun _ => ?_⟩
    dsimp only
    by_cases hspawn : env.spawn = .ok
    · rw [hstate, if_pos hspawn, if_pos hspawn]
      exact iff_of_true (Option.some_ne_none _) (Or.inl rfl)
    · rw [hstate, if_neg hspawn, if_neg hspawn]
      exact iff_of_false (fun h => h rfl) (by decide)

theorem bringDown_kindOk {kind : PmxId → PmxVpnKind} {w : VpnWorld}
    (hw : ∀ e ∈ w.entries, KindOk kind e) {v : PmxVpn} (hkeeps : v.kind = kind v.id) (found : Bool)
    (ran : ProcRun) {i : ℕ} {e : VpnEntry} (hslot : w.entries[i]? = some e)
    (hkey : slotKey e = some v.id) : ∀ e' ∈ (bringDown w v found ran i e).1.entries, KindOk kind e' := by
  obtain ⟨hused, hid⟩ := slotKey_used hkey
  obtain ⟨hsame, hnone, -⟩ := hw e (List.mem_of_getElem? hslot) hused
  rw [← hid, ← hsame] at hkeeps
  rcases bringDown_cases w v found ran i e with
    ⟨hkind, -, heq⟩ | ⟨hkind, -, message, tunnelName, heq, -⟩ | ⟨hkind, message, heq⟩
  · rw [heq]
    exact forall_mem_set hw fun _ =>
      ⟨hsame, fun _ => hnone (hkeeps.symm.trans hkind), fun h => absurd (hkeeps.symm.trans hkind) h⟩
  · rw [heq]
    exact forall_mem_set hw fun _ =>
      ⟨hsame, fun _ => hnone (hkeeps.symm.trans hkind), fun h => absurd (hkeeps.symm.trans hkind) h⟩
  · rw [heq]
    refine forall_mem_set hw fun _ => ⟨hsame, fun _ => rfl, fun _ => ?_⟩
    exact iff_of_false (fun h => h rfl) (by dsimp only; decide)

theorem pollEntry_kindOk {kind : PmxId → PmxVpnKind} {e : VpnEntry} (cs : List VpnChild)
    (he : KindOk kind e) : KindOk kind (pollEntry cs e) := by
  rw [pollEntry]
  cases hproc : e.proc with
  | none => exact he
  | some handle =>
    have hchild : e.proc ≠ none := by
      rw [hproc]
      exact Option.some_ne_none handle
    dsimp only
    split_ifs with hunused
    · exact he
    · refine fun hused => ⟨(he hused).1, fun h => absurd ((he hused).2.1 h) hchild, fun _ => ?_⟩
      exact iff_of_true (Option.some_ne_none handle) (Or.inr rfl)
    · exact he
    · refine fun hused => ⟨(he hused).1, fun _ => rfl, fun _ => ?_⟩
      exact iff_of_false (fun h => h rfl) (by dsimp only; decide)
    · refine fun hused => ⟨(he hused).1, fun _ => rfl, fun _ => ?_⟩
      exact iff_of_false (fun h => h rfl) (by dsimp only; decide)

theorem vpnStep_kindOk {kind : PmxId → PmxVpnKind} {w : VpnWorld} {op : VpnOp} (hop : op.KeepsKind kind)
    (hw : ∀ e ∈ w.entries, KindOk kind e) : ∀ e ∈ (vpnStep w op).entries, KindOk kind e := by
  cases op with
  | up v found env =>
    rw [vpnStep]
    rcases pmxVpnUp_cases w v found env with ⟨heq, -⟩ | ⟨i, old, start, htakes, -, -, heq⟩
    · rw [heq]
      exact hw
    · rw [heq]
      exact bringUp_kindOk hw hop env htakes
  | down v found ran =>
    rw [vpnStep]
    rcases pmxVpnDown_cases w v found ran with ⟨heq, -⟩ | ⟨i, e, hslot, hkey, heq⟩
    · rw [heq]
      exact hw
    · rw [heq]
      exact bringDown_kindOk hw hop found ran hslot hkey
  | poll =>
    intro e' he'
    obtain ⟨e, he, rfl⟩ := List.mem_map.1 he'
    exact pollEntry_kindOk w.children (hw e he)
  | exit handle code => exact hw

theorem vpnRunnerCreate_kindOk (kind : PmxId → PmxVpnKind) :
    ∀ e ∈ vpnRunnerCreate.entries, KindOk kind e := by
  intro e he
  obtain rfl := List.eq_of_mem_replicate he
  exact fun h => absurd h Bool.false_ne_true

/-! ### Every run -/

/-- The entry is in use for an OpenVPN tunnel. -/
def VpnEntry.IsOpenvpn (e : VpnEntry) : Prop := e.used = true ∧ e.kind ≠ .wireguard

/-- The entry is in use, and its child lives or it is starting or running. -/
def VpnWorld.Alive (w : VpnWorld) (e : VpnEntry) : Prop :=
  e.used = true ∧
    ((∃ c ∈ w.children, e.proc = some c.handle ∧ c.exit = none) ∨ e.state = .starting ∨ e.state = .running)

instance (w : VpnWorld) (e : VpnEntry) : Decidable (w.Alive e) := inferInstanceAs (Decidable (_ ∧ _))

theorem VpnWorld.Alive.live {w : VpnWorld} {e : VpnEntry} (h : w.Alive e) : e.Live := by
  refine ⟨h.1, h.2.imp_left ?_⟩
  rintro ⟨c, -, hproc, -⟩
  rw [hproc]
  exact Option.some_ne_none c.handle

/-- What the table of a runner keeps. -/
structure KeepsIdentities (w : VpnWorld) : Prop where
  /-- An id occupies one entry. -/
  unique : KeysDistinct slotKey w.entries
  /-- A child that lives belongs to the entry of the VPN it was started for. -/
  held : ∀ c ∈ w.children, c.exit = none → ∃ e ∈ w.entries, w.Alive e ∧ e.id = c.id ∧ e.proc = some c.handle
  /-- An entry that is alive stays with its id, whatever comes next. -/
  stays : ∀ (op : VpnOp) (i : ℕ) (e : VpnEntry), w.entries[i]? = some e → w.Alive e →
    ∃ e' : VpnEntry, (vpnStep w op).entries[i]? = some e' ∧ e'.used = true ∧ e'.id = e.id
  /-- Two OpenVPN tunnels have two management ports. -/
  ports : ∀ (i j : ℕ) (a b : VpnEntry), w.entries[i]? = some a → w.entries[j]? = some b →
    a.IsOpenvpn → b.IsOpenvpn → a.mgmtPort = b.mgmtPort → i = j

/-- What the table of a runner is meant to keep: besides, a VPN gets no entry only when all eight are alive
and of others. -/
structure SoundTable (w : VpnWorld) : Prop extends KeepsIdentities w where
  full : ∀ id : PmxId, (entryFor w.entries id true).2 = none →
    w.entries.length = 8 ∧ ∀ e ∈ w.entries, w.Alive e ∧ e.id ≠ id

/-- No entry of the id has the handle of a child. -/
def VpnWorld.NoHandle (w : VpnWorld) (id : PmxId) : Prop :=
  ∀ e ∈ w.entries, slotKey e = some id → e.proc = none

instance (w : VpnWorld) (id : PmxId) : Decidable (w.NoHandle id) :=
  inferInstanceAs (Decidable (∀ e ∈ w.entries, _))

/-- The call does not leave an entry down or failed with the handle of a child: no WireGuard bring-up that
fails and no WireGuard bring-down, with the client found, meets a handle in the entry of its id. -/
def LeavesNoHandle (w : VpnWorld) : VpnOp → Prop
  | .up v found env =>
    v.kind = .wireguard ∧ found = true ∧ (pmxVpnValidate 128 v).1 = .ok ∧
      (env.elevated && env.ran.succeeded) = false → w.NoHandle v.id
  | .down v found _ => v.kind = .wireguard ∧ found = true → w.NoHandle v.id
  | _ => True

/-- An entry that holds the handle of a child is starting or running. -/
def VpnEntry.Settled (e : VpnEntry) : Prop :=
  e.used = true → e.proc ≠ none → e.state = .starting ∨ e.state = .running

theorem mgmtPortOf_inj {i j : ℕ} (hi : i < 8) (hj : j < 8) (h : mgmtPortOf i = mgmtPortOf j) : i = j := by
  have hnat := congrArg UInt16.toNat h
  rw [mgmtPortOf, mgmtPortOf, pmxOvpnMgmtBase, UInt16.toNat_ofNat', UInt16.toNat_ofNat'] at hnat
  omega

theorem TableInv.keepsIdentities {w : VpnWorld} (hw : TableInv w) : KeepsIdentities w where
  unique := hw.keys
  held c hc hlives := by
    obtain ⟨e, he, hkey, hproc⟩ := hw.held c hc hlives
    obtain ⟨hused, hid⟩ := slotKey_used hkey
    exact ⟨e, he, ⟨hused, Or.inl ⟨c, hc, hproc, hlives⟩⟩, hid, hproc⟩
  stays op i e hi halive := by
    obtain ⟨e', hi', hkey⟩ := vpnStep_live w op hi halive.live
    rw [show slotKey e = some e.id from if_pos halive.1] at hkey
    exact ⟨e', hi', slotKey_used hkey⟩
  ports i j a b hi hj ha hb hsame := by
    obtain ⟨hilt, -⟩ := List.getElem?_eq_some_iff.1 hi
    obtain ⟨hjlt, -⟩ := List.getElem?_eq_some_iff.1 hj
    rw [hw.size] at hilt hjlt
    rw [(hw.ports i a hi).2 ha.1 ha.2, (hw.ports j b hj).2 hb.1 hb.2] at hsame
    exact mgmtPortOf_inj hilt hjlt hsame

theorem TableInv.soundTable {w : VpnWorld} (hw : TableInv w) (hsettled : ∀ e ∈ w.entries, e.Settled) :
    SoundTable w where
  toKeepsIdentities := hw.keepsIdentities
  full id hnone := by
    rcases entryFor_cases w.entries id with
      ⟨i, e, -, -, heq, -⟩ | ⟨-, i, e, -, -, heq, -⟩ | ⟨hothers, -, -⟩
    · rw [heq] at hnone
      cases hnone
    · rw [heq] at hnone
      cases hnone
    · refine ⟨hw.size, fun e he => ⟨?_, fun hid => (hothers e he).1 ?_⟩⟩
      · obtain ⟨hused, hproc | hstate⟩ := (hothers e he).2
        · exact ⟨hused, Or.inr (hsettled e he hused hproc)⟩
        · exact ⟨hused, Or.inr hstate⟩
      · rw [slotKey, if_pos (hothers e he).2.1, hid]

/-! ### Handles that stay behind -/

theorem bringUp_settled {w : VpnWorld} (hw : ∀ e ∈ w.entries, e.Settled) {v : PmxVpn} {env : UpEnv} {i : ℕ}
    {old start : VpnEntry} (htakes : Takes w v.id i old start)
    (hclean : v.kind = .wireguard → (env.elevated && env.ran.succeeded) = false → w.NoHandle v.id) :
    ∀ e ∈ (bringUp w v env i start).1.entries, e.Settled := by
  rcases bringUp_cases w v env i start with
    ⟨hkind, state, message, tunnelName, heq, hstate, -⟩ | ⟨hkind, state, message, heq, hstate⟩
  · rw [heq]
    refine forall_mem_set hw fun _ hproc => ?_
    dsimp only at hproc ⊢
    cases hran : env.elevated && env.ran.succeeded with
    | true =>
      rw [hstate, hran]
      exact Or.inr rfl
    | false =>
      refine absurd ?_ hproc
      rcases htakes.start with ⟨hkey, rfl⟩ | ⟨-, -, rfl⟩
      · exact hclean hkind hran start (List.mem_of_getElem? htakes.slot) hkey
      · rfl
  · rw [heq]
    refine forall_mem_set hw fun _ hproc => ?_
    dsimp only at hproc ⊢
    by_cases hspawn : env.spawn = .ok
    · rw [hstate, if_pos hspawn]
      exact Or.inl rfl
    · rw [if_neg hspawn] at hproc
      exact absurd rfl hproc

theorem bringDown_settled {w : VpnWorld} (hw : ∀ e ∈ w.entries, e.Settled) {v : PmxVpn} {found : Bool}
    {ran : ProcRun} {i : ℕ} {e : VpnEntry} (hslot : w.entries[i]? = some e) (hkey : slotKey e = some v.id)
    (hclean : v.kind = .wireguard ∧ found = true → w.NoHandle v.id) :
    ∀ e' ∈ (bringDown w v found ran i e).1.entries, e'.Settled := by
  rcases bringDown_cases w v found ran i e with
    ⟨-, -, heq⟩ | ⟨hkind, hfound, message, tunnelName, heq, -⟩ | ⟨-, message, heq⟩
  · rw [heq]
    exact forall_mem_set hw (hw e (List.mem_of_getElem? hslot))
  · rw [heq]
    exact forall_mem_set hw fun _ hproc =>
      absurd (hclean ⟨hkind, hfound⟩ e (List.mem_of_getElem? hslot) hkey) hproc
  · rw [heq]
    exact forall_mem_set hw fun _ hproc => absurd rfl hproc

/-- A poll releases a child that has ended, whatever the state. -/
theorem pollEntry_settled {e : VpnEntry} (cs : List VpnChild) (he : e.Settled) :
    (pollEntry cs e).Settled := by
  rw [pollEntry]
  cases hproc : e.proc with
  | none => exact he
  | some handle =>
    dsimp only
    split_ifs
    · exact he
    · exact fun _ _ => Or.inr rfl
    · exact he
    · exact fun _ h => absurd rfl h
    · exact fun _ h => absurd rfl h

theorem vpnStep_settled {w : VpnWorld} {op : VpnOp} (hop : LeavesNoHandle w op)
    (hw : ∀ e ∈ w.entries, e.Settled) : ∀ e ∈ (vpnStep w op).entries, e.Settled := by
  cases op with
  | up v found env =>
    rw [vpnStep]
    rcases pmxVpnUp_cases w v found env with ⟨heq, -⟩ | ⟨i, old, start, htakes, hfound, hvalid, heq⟩
    · rw [heq]
      exact hw
    · rw [heq]
      exact bringUp_settled hw htakes fun hkind hran => hop ⟨hkind, hfound, hvalid, hran⟩
  | down v found ran =>
    rw [vpnStep]
    rcases pmxVpnDown_cases w v found ran with ⟨heq, -⟩ | ⟨i, e, hslot, hkey, heq⟩
    · rw [heq]
      exact hw
    · rw [heq]
      exact bringDown_settled hw hslot hkey hop
  | poll =>
    intro e' he'
    obtain ⟨e, he, rfl⟩ := List.mem_map.1 he'
    exact pollEntry_settled w.children (hw e he)
  | exit handle code => exact hw

theorem vpnRunnerCreate_settled : ∀ e ∈ vpnRunnerCreate.entries, e.Settled := by
  intro e he
  obtain rfl := List.eq_of_mem_replicate he
  exact fun h => absurd h Bool.false_ne_true

/-- Where an id keeps its kind, its entry has no handle when a WireGuard call comes. -/
theorem leavesNoHandle_of_keepsKind {kind : PmxId → PmxVpnKind} {w : VpnWorld} {op : VpnOp}
    (hw : ∀ e ∈ w.entries, KindOk kind e) (hop : op.KeepsKind kind) : LeavesNoHandle w op := by
  have hnone : ∀ v : PmxVpn, v.kind = kind v.id → v.kind = .wireguard → w.NoHandle v.id := by
    intro v hkeeps hkind e he hkey
    obtain ⟨hused, hid⟩ := slotKey_used hkey
    obtain ⟨hsame, hproc, -⟩ := hw e he hused
    refine hproc ?_
    rw [hsame, hid, ← hkeeps, hkind]
  cases op with
  | up v found env => exact fun h => hnone v hop h.1
  | down v found ran => exact fun h => hnone v hop h.1
  | poll | exit => trivial

/-- **The table of tunnels keeps its identities** in every state a run of calls and of ends of children
reaches: an id has one entry, no entry that is alive is given away, and management ports are distinct.
Where no call leaves a handle behind, moreover, a VPN gets no entry only when all eight are alive and of
others; and no call does where each id keeps its kind. -/
theorem tunnelTable (ops : List VpnOp) :
    KeepsIdentities (runFrom vpnStep vpnRunnerCreate ops) ∧
      (EachStep vpnStep LeavesNoHandle vpnRunnerCreate ops →
        EachState vpnStep SoundTable vpnRunnerCreate ops) ∧
      ∀ kind : PmxId → PmxVpnKind, EachStep vpnStep (fun _ op => op.KeepsKind kind) vpnRunnerCreate ops →
        EachStep vpnStep LeavesNoHandle vpnRunnerCreate ops := by
  refine ⟨?_, fun hclean => ?_, fun kind hkeeps => ?_⟩
  · have hinv : TableInv (runFrom vpnStep vpnRunnerCreate ops) :=
      runFrom_inv TableInv (fun _ op => vpnStep_tableInv op) ops vpnRunnerCreate vpnRunnerCreate_tableInv
    exact hinv.keepsIdentities
  · exact eachState_of_guarded (fun w => TableInv w ∧ ∀ e ∈ w.entries, e.Settled)
      (fun w op hw hop => ⟨vpnStep_tableInv op hw.1, vpnStep_settled hop hw.2⟩)
      (fun w hw => hw.1.soundTable hw.2) ops vpnRunnerCreate
      ⟨vpnRunnerCreate_tableInv, vpnRunnerCreate_settled⟩ hclean
  · exact eachStep_of_guarded (fun w => ∀ e ∈ w.entries, KindOk kind e)
      (fun w op hw hop => ⟨leavesNoHandle_of_keepsKind hw hop, vpnStep_kindOk hop hw⟩) ops vpnRunnerCreate
      (vpnRunnerCreate_kindOk kind) hkeeps

/-- An OpenVPN tunnel. -/
def homeOvpn : PmxVpn where
  __ := pmxVpnInit
  id := 7
  kind := .openvpn
  configPath := strlcpy pmxMaxPath (bytes "home.ovpn")
  endpoints := [⟨strlcpy pmxMaxHost (bytes "vpn.example"), 1194, true⟩]
  endpoints_fit := by decide

/-- The client starts. -/
def startedEnv : UpEnv := ⟨true, ⟨.ok, 0, default⟩, .ok⟩

/-- The program is not elevated. -/
def plainEnv : UpEnv := ⟨false, ⟨.ok, 0, default⟩, .ok⟩

/-- The same VPN as a WireGuard tunnel. -/
def homeWg : PmxVpn :=
  { homeOvpn with kind := .wireguard, peerPublicKey := strlcpy _ (bytes "k"), hasPrivateKey := true }

/-- Brought up, polled and brought down, then brought up as a WireGuard tunnel, without a handle left. -/
theorem tunnelTable_homeOvpn :
    EachState vpnStep SoundTable vpnRunnerCreate
      [.up homeOvpn true startedEnv, .poll, .down homeOvpn true ⟨.ok, 0, default⟩, .up homeWg true plainEnv] :=
  (tunnelTable _).2.1 (by
    refine ⟨fun h => ?_, trivial, fun h => ?_, fun _ => ?_, trivial⟩
    · exact absurd h.1 (by decide)
    · exact absurd h.1 (by decide)
    · show VpnWorld.NoHandle _ _
      decide +kernel)

/-- A VPN comes up as an OpenVPN tunnel, is brought up as a WireGuard tunnel without the rights for it, and
its child ends. -/
def switchedKind (n : ℕ) : List VpnOp :=
  let id := UInt64.ofNat (n + 1)
  [.up { homeOvpn with id := id } true startedEnv, .up { homeWg with id := id } true plainEnv, .exit n 1]

/-- Eight of them fill the table with entries that are failed and have no child, and the ninth is refused. -/
theorem not_soundTable_switchedKind :
    ¬SoundTable (runFrom vpnStep vpnRunnerCreate ((List.range 8).flatMap switchedKind)) ∧
      (pmxVpnUp (runFrom vpnStep vpnRunnerCreate ((List.range 8).flatMap switchedKind))
        { homeOvpn with id := 9 } true startedEnv).2 = .errState := by
  refine ⟨fun h => ?_, by decide +kernel⟩
  have hnone : (entryFor (runFrom vpnStep vpnRunnerCreate ((List.range 8).flatMap switchedKind)).entries 9
      true).2 = none := by decide +kernel
  have hdead : ∃ e ∈ (runFrom vpnStep vpnRunnerCreate ((List.range 8).flatMap switchedKind)).entries,
      ¬(runFrom vpnStep vpnRunnerCreate ((List.range 8).flatMap switchedKind)).Alive e := by decide +kernel
  obtain ⟨e, he, hdead⟩ := hdead
  exact hdead ((h.full 9 hnone).2 e he).1

end ProxiMight
