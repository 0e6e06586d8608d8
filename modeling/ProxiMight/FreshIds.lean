import ProxiMight.ProfileJson
import ProxiMight.RemoveProxy
import ProxiMight.Runs

/-!
# Ids that are issued (`pmx_profile_next_id` and what edits a profile)

Proxies, rules, chains and VPNs share one counter of 64 bits, which goes on from 1 after its last value.
After a load the counter is raised above the ids of proxies, rules and chains.  The ids of VPNs are left
out, and the id `-1` of a file wraps the counter to 0.

* **`staysFresh_iff`** — how many additions a profile has room for before an id is issued again.
* **`freshIds`** — after a load the VPNs alone decide, as long as nothing wraps the counter.
-/

namespace ProxiMight

open CString Runs

/-! ### Edits of a profile -/

/-- The id that is issued next; `PMX_ID_NONE` is passed over. -/
def dueId (nextId : PmxId) : PmxId := if nextId = pmxIdNone then 1 else nextId

def pmxProfileNextId (pf : PmxProfile) : PmxProfile × PmxId :=
  ({ pf with nextId := dueId pf.nextId + 1 }, dueId pf.nextId)

/-- `granted` tells whether the array has room for one more proxy, or gets it. -/
def pmxProfileAddProxy (pf : PmxProfile) (granted : Bool) : PmxProfile × Option PmxProxy :=
  if granted then
    let (pf, id) := pmxProfileNextId pf
    let p := { pmxProxyInit with id := id }
    ({ pf with proxies := pf.proxies ++ [p] }, some p)
  else (pf, none)

def pmxProfileAddRule (pf : PmxProfile) (granted : Bool) : PmxProfile × Option PmxRule :=
  if granted then
    let (pf, id) := pmxProfileNextId pf
    let r := { pmxRuleInit with id := id }
    ({ pf with rules := pf.rules ++ [r] }, some r)
  else (pf, none)

def pmxProfileAddChain (pf : PmxProfile) (granted : Bool) : PmxProfile × Option PmxChain :=
  if granted then
    let (pf, id) := pmxProfileNextId pf
    let c := { pmxChainInit with id := id }
    ({ pf with chains := pf.chains ++ [c] }, some c)
  else (pf, none)

def pmxProfileAddVpn (pf : PmxProfile) (granted : Bool) : PmxProfile × Option PmxVpn :=
  if granted then
    let (pf, id) := pmxProfileNextId pf
    let v := { pmxVpnInit with id := id }
    ({ pf with vpns := pf.vpns ++ [v] }, some v)
  else (pf, none)

/-- `parsed` is what `pmx_vpn_load_file` returns. -/
def pmxProfileImportVpn (pf : PmxProfile) (parsed : Except PmxStatus PmxVpn) (granted : Bool) :
    PmxProfile × Except PmxStatus PmxVpn :=
  match parsed with
  | .error st => (pf, .error st)
  | .ok parsed =>
    if granted then
      let (pf, id) := pmxProfileNextId pf
      let v := { parsed with id := id }
      ({ pf with vpns := pf.vpns ++ [v] }, .ok v)
    else (pf, .error .errNoMemory)

def pmxProfileRemoveRule (pf : PmxProfile) (id : PmxId) : PmxProfile × PmxStatus :=
  if pf.rules.any (·.id == id) then ({ pf with rules := pf.rules.eraseP (·.id == id) }, .ok)
  else (pf, .errNotFound)

/-- The loop over the rules of `pmx_profile_remove_chain`, on one rule. -/
def untargetChain (id : PmxId) (r : PmxRule) : PmxRule :=
  if r.targetKind = .chain ∧ r.targetId = id then { r with targetId := pmxIdNone } else r

def pmxProfileRemoveChain (pf : PmxProfile) (id : PmxId) : PmxProfile × PmxStatus :=
  if pf.chains.any (·.id == id) then
    ({ pf with
        chains := pf.chains.eraseP (·.id == id)
        rules := pf.rules.map (untargetChain id) }, .ok)
  else (pf, .errNotFound)

def pmxProfileRemoveVpn (pf : PmxProfile) (id : PmxId) : PmxProfile × PmxStatus :=
  if pf.vpns.any (·.id == id) then ({ pf with vpns := pf.vpns.eraseP (·.id == id) }, .ok)
  else (pf, .errNotFound)

def pmxProfileMoveRule (pf : PmxProfile) (src dst : ℕ) : PmxProfile × PmxStatus :=
  match pf.rules[src]? with
  | none => (pf, .errInvalidArg)
  | some moved =>
    if dst ≥ pf.rules.length then (pf, .errInvalidArg)
    else if src = dst then (pf, .ok)
    else ({ pf with rules := (pf.rules.eraseIdx src).insertIdx dst moved }, .ok)

/-- A call that edits the profile. -/
inductive ProfileEdit
  | addProxy (granted : Bool)
  | addRule (granted : Bool)
  | addChain (granted : Bool)
  | addVpn (granted : Bool)
  | importVpn (parsed : Except PmxStatus PmxVpn) (granted : Bool)
  | removeProxy (id : PmxId)
  | removeRule (id : PmxId)
  | removeChain (id : PmxId)
  | removeVpn (id : PmxId)
  | moveRule (src dst : ℕ)

def editProfile (pf : PmxProfile) : ProfileEdit → PmxProfile
  | .addProxy granted => (pmxProfileAddProxy pf granted).1
  | .addRule granted => (pmxProfileAddRule pf granted).1
  | .addChain granted => (pmxProfileAddChain pf granted).1
  | .addVpn granted => (pmxProfileAddVpn pf granted).1
  | .importVpn parsed granted => (pmxProfileImportVpn pf parsed granted).1
  | .removeProxy id => (pmxProfileRemoveProxy pf id).1
  | .removeRule id => (pmxProfileRemoveRule pf id).1
  | .removeChain id => (pmxProfileRemoveChain pf id).1
  | .removeVpn id => (pmxProfileRemoveVpn pf id).1
  | .moveRule src dst => (pmxProfileMoveRule pf src dst).1

/-- The id that the call issues. -/
def issuedId (pf : PmxProfile) : ProfileEdit → Option PmxId
  | .addProxy granted => (pmxProfileAddProxy pf granted).2.map (·.id)
  | .addRule granted => (pmxProfileAddRule pf granted).2.map (·.id)
  | .addChain granted => (pmxProfileAddChain pf granted).2.map (·.id)
  | .addVpn granted => (pmxProfileAddVpn pf granted).2.map (·.id)
  | .importVpn parsed granted => (pmxProfileImportVpn pf parsed granted).2.toOption.map (·.id)
  | _ => none

/-- The call is one that may issue an id. -/
def ProfileEdit.adds : ProfileEdit → Bool
  | .addProxy _ | .addRule _ | .addChain _ | .addVpn _ | .importVpn _ _ => true
  | _ => false

/-- The ids of everything in the profile. -/
def PmxProfile.ids (pf : PmxProfile) : List PmxId :=
  pf.proxies.map (·.id) ++ pf.rules.map (·.id) ++ pf.chains.map (·.id) ++ pf.vpns.map (·.id)

/-- The id that the call issues, if it issues one, is an id and nothing goes by it. -/
def IssuesFresh (pf : PmxProfile) (e : ProfileEdit) : Prop :=
  ∀ id, issuedId pf e = some id → id ≠ pmxIdNone ∧ id ∉ pf.ids

/-- Every run with up to `n` additions issues fresh ids only. -/
def StaysFresh (pf : PmxProfile) (n : ℕ) : Prop :=
  ∀ run : List ProfileEdit, run.countP (·.adds) ≤ n → EachStep editProfile IssuesFresh pf run

/-- How many ids are issued before this one, counting on from 1 after the last of them. -/
def ahead (nextId id : PmxId) : ℕ :=
  if (dueId nextId).toNat ≤ id.toNat then id.toNat - (dueId nextId).toNat
  else 2 ^ 64 - 1 + id.toNat - (dueId nextId).toNat

/-- None of the next `n` ids is in the profile, and no two of them are the same. -/
def RoomFor (pf : PmxProfile) (n : ℕ) : Prop :=
  n < 2 ^ 64 ∧ ∀ id ∈ pf.ids, id ≠ pmxIdNone → n ≤ ahead pf.nextId id

/-! ### What one edit does to the ids -/

theorem dueId_ne_none (nextId : PmxId) : dueId nextId ≠ pmxIdNone := by
  rw [dueId]
  split_ifs with h
  · decide
  · exact h

theorem mem_ids {pf : PmxProfile} {id : PmxId} :
    id ∈ pf.ids ↔ id ∈ pf.proxies.map (·.id) ∨ id ∈ pf.rules.map (·.id) ∨
      id ∈ pf.chains.map (·.id) ∨ id ∈ pf.vpns.map (·.id) := by
  rw [PmxProfile.ids, List.mem_append, List.mem_append, List.mem_append, or_assoc, or_assoc]

theorem ids_subset {pf pf' : PmxProfile} (hp : pf'.proxies.map (·.id) ⊆ pf.proxies.map (·.id))
    (hr : pf'.rules.map (·.id) ⊆ pf.rules.map (·.id))
    (hc : pf'.chains.map (·.id) ⊆ pf.chains.map (·.id))
    (hv : pf'.vpns.map (·.id) ⊆ pf.vpns.map (·.id)) : pf'.ids ⊆ pf.ids := by
  intro id hid
  rw [mem_ids] at hid ⊢
  exact hid.imp (@hp id) (Or.imp (@hr id) (Or.imp (@hc id) (@hv id)))

/-- A loop that rewrites elements and leaves their ids alone. -/
theorem map_id_rewritten {α : Type} {key : α → PmxId} {f : α → α} (hf : ∀ a, key (f a) = key a)
    (l : List α) : (l.map f).map key ⊆ l.map key := by
  have hsame : (l.map f).map key = l.map key := by
    rw [List.map_map]
    exact List.map_congr_left fun a _ => hf a
  rw [hsame]
  exact List.Subset.refl _

theorem map_id_erased {α : Type} (key : α → PmxId) (p : α → Bool) (l : List α) :
    (l.eraseP p).map key ⊆ l.map key :=
  List.map_subset key (List.eraseP_subset)

theorem untargetChain_id (id : PmxId) (r : PmxRule) : (untargetChain id r).id = r.id := by
  rw [untargetChain]; split_ifs <;> rfl

/-- A call that issues no id leaves the counter as it is, and brings no id in. -/
def KeepsIds (pf pf' : PmxProfile) : Prop := pf'.nextId = pf.nextId ∧ pf'.ids ⊆ pf.ids

/-- A call that issues an id takes the one that is due. -/
structure AddsId (pf pf' : PmxProfile) : Prop where
  nextId : pf'.nextId = dueId pf.nextId + 1
  ids : ∀ id, id ∈ pf'.ids ↔ id ∈ pf.ids ∨ id = dueId pf.nextId

/-- One of the four arrays has got the id that was due. -/
theorem addsId_of {pf pf' : PmxProfile} {ps rs cs vs : List PmxId}
    (hnext : pf'.nextId = dueId pf.nextId + 1)
    (hp : pf'.proxies.map (·.id) = pf.proxies.map (·.id) ++ ps)
    (hr : pf'.rules.map (·.id) = pf.rules.map (·.id) ++ rs)
    (hc : pf'.chains.map (·.id) = pf.chains.map (·.id) ++ cs)
    (hv : pf'.vpns.map (·.id) = pf.vpns.map (·.id) ++ vs)
    (hnew : ps ++ rs ++ cs ++ vs = [dueId pf.nextId]) : AddsId pf pf' := by
  refine ⟨hnext, fun id => ?_⟩
  have hid : id = dueId pf.nextId ↔ id ∈ ps ∨ id ∈ rs ∨ id ∈ cs ∨ id ∈ vs := by
    rw [← List.mem_singleton, ← hnew, List.mem_append, List.mem_append, List.mem_append, or_assoc,
      or_assoc]
  rw [mem_ids, mem_ids, hp, hr, hc, hv, hid, List.mem_append, List.mem_append, List.mem_append,
    List.mem_append, or_or_or_comm (a := id ∈ pf.chains.map (·.id)),
    or_or_or_comm (a := id ∈ pf.rules.map (·.id)), or_or_or_comm]

theorem keepsIds_refl (pf : PmxProfile) : KeepsIds pf pf := ⟨rfl, List.Subset.refl _⟩

theorem keepsIds_removeProxy (pf : PmxProfile) (id : PmxId) :
    KeepsIds pf (pmxProfileRemoveProxy pf id).1 := by
  rw [pmxProfileRemoveProxy]
  split_ifs
  · refine ⟨rfl, ids_subset (map_id_erased _ _ _) ?_ ?_ (List.Subset.refl _)⟩
    · exact map_id_rewritten (unhookRule_id id) pf.rules
    · exact map_id_rewritten (unhookChain_id id) pf.chains
  · exact keepsIds_refl pf

theorem keepsIds_removeRule (pf : PmxProfile) (id : PmxId) :
    KeepsIds pf (pmxProfileRemoveRule pf id).1 := by
  rw [pmxProfileRemoveRule]
  split_ifs
  · exact ⟨rfl, ids_subset (List.Subset.refl _) (map_id_erased _ _ _) (List.Subset.refl _)
      (List.Subset.refl _)⟩
  · exact keepsIds_refl pf

theorem keepsIds_removeChain (pf : PmxProfile) (id : PmxId) :
    KeepsIds pf (pmxProfileRemoveChain pf id).1 := by
  rw [pmxProfileRemoveChain]
  split_ifs
  · refine ⟨rfl, ids_subset (List.Subset.refl _) ?_ (map_id_erased _ _ _) (List.Subset.refl _)⟩
    exact map_id_rewritten (untargetChain_id id) pf.rules
  · exact keepsIds_refl pf

theorem keepsIds_removeVpn (pf : PmxProfile) (id : PmxId) :
    KeepsIds pf (pmxProfileRemoveVpn pf id).1 := by
  rw [pmxProfileRemoveVpn]
  split_ifs
  · exact ⟨rfl, ids_subset (List.Subset.refl _) (List.Subset.refl _) (List.Subset.refl _)
      (map_id_erased _ _ _)⟩
  · exact keepsIds_refl pf

theorem keepsIds_moveRule (pf : PmxProfile) (src dst : ℕ) :
    KeepsIds pf (pmxProfileMoveRule pf src dst).1 := by
  rw [pmxProfileMoveRule]
  cases hmoved : pf.rules[src]? with
  | none => exact keepsIds_refl pf
  | some moved =>
    dsimp only
    split_ifs
    · exact keepsIds_refl pf
    · exact keepsIds_refl pf
    · refine ⟨rfl, ids_subset (List.Subset.refl _) (List.map_subset _ fun r hr => ?_)
        (List.Subset.refl _) (List.Subset.refl _)⟩
      rcases List.eq_or_mem_of_mem_insertIdx hr with rfl | hr
      · exact List.mem_of_getElem? hmoved
      · exact List.mem_of_mem_eraseIdx hr

/-- **One edit.**  It issues the id that is due, or it brings in no id. -/
theorem editProfile_cases (pf : PmxProfile) (e : ProfileEdit) :
    (issuedId pf e = none ∧ KeepsIds pf (editProfile pf e)) ∨
    (e.adds = true ∧ issuedId pf e = some (dueId pf.nextId) ∧ AddsId pf (editProfile pf e)) := by
  cases e with
  | removeProxy id => exact Or.inl ⟨rfl, keepsIds_removeProxy pf id⟩
  | removeRule id => exact Or.inl ⟨rfl, keepsIds_removeRule pf id⟩
  | removeChain id => exact Or.inl ⟨rfl, keepsIds_removeChain pf id⟩
  | removeVpn id => exact Or.inl ⟨rfl, keepsIds_removeVpn pf id⟩
  | moveRule src dst => exact Or.inl ⟨rfl, keepsIds_moveRule pf src dst⟩
  | addProxy granted =>
    cases granted with
    | false => exact Or.inl ⟨rfl, keepsIds_refl pf⟩
    | true =>
      exact Or.inr ⟨rfl, rfl, addsId_of rfl List.map_append (List.append_nil _).symm
        (List.append_nil _).symm (List.append_nil _).symm rfl⟩
  | addRule granted =>
    cases granted with
    | false => exact Or.inl ⟨rfl, keepsIds_refl pf⟩
    | true =>
      exact Or.inr ⟨rfl, rfl, addsId_of rfl (List.append_nil _).symm List.map_append
        (List.append_nil _).symm (List.append_nil _).symm rfl⟩
  | addChain granted =>
    cases granted with
    | false => exact Or.inl ⟨rfl, keepsIds_refl pf⟩
    | true =>
      exact Or.inr ⟨rfl, rfl, addsId_of rfl (List.append_nil _).symm (List.append_nil _).symm
        List.map_append (List.append_nil _).symm rfl⟩
  | addVpn granted =>
    cases granted with
    | false => exact Or.inl ⟨rfl, keepsIds_refl pf⟩
    | true =>
      exact Or.inr ⟨rfl, rfl, addsId_of rfl (List.append_nil _).symm (List.append_nil _).symm
        (List.append_nil _).symm List.map_append rfl⟩
  | importVpn parsed granted =>
    cases parsed with
    | error st => exact Or.inl ⟨rfl, keepsIds_refl pf⟩
    | ok parsed =>
      cases granted with
      | false => exact Or.inl ⟨rfl, keepsIds_refl pf⟩
      | true =>
        exact Or.inr ⟨rfl, rfl, addsId_of rfl (List.append_nil _).symm (List.append_nil _).symm
          (List.append_nil _).symm List.map_append rfl⟩

/-! ### The counter -/

theorem toNat_pos {id : PmxId} (h : id ≠ pmxIdNone) : 0 < id.toNat := by
  by_contra hzero
  exact h (UInt64.toNat_inj.1 (by rw [show id.toNat = 0 from by omega]; rfl))

theorem dueId_toNat_succ (id : PmxId) :
    (dueId (id + 1)).toNat = if id.toNat = 2 ^ 64 - 1 then 1 else id.toNat + 1 := by
  have hlt := id.toNat_lt
  have hadd : (id + 1).toNat = (id.toNat + 1) % 2 ^ 64 := UInt64.toNat_add id 1
  have hzero : id + 1 = pmxIdNone ↔ id.toNat = 2 ^ 64 - 1 := by
    rw [← UInt64.toNat_inj, hadd, show pmxIdNone.toNat = 0 from rfl]
    omega
  rw [dueId]
  split_ifs with hwrap hmax hmax
  · rfl
  · exact absurd (hzero.1 hwrap) hmax
  · exact absurd (hzero.2 hmax) hwrap
  · rw [hadd]
    omega

theorem ahead_dueId (nextId : PmxId) : ahead nextId (dueId nextId) = 0 := by
  rw [ahead, if_pos (Nat.le_refl _), Nat.sub_self]

/-- The id that has been issued is the last to come again. -/
theorem ahead_issued (nextId : PmxId) : ahead (dueId nextId + 1) (dueId nextId) = 2 ^ 64 - 2 := by
  have hpos := toNat_pos (dueId_ne_none nextId)
  have hlt := (dueId nextId).toNat_lt
  have hsucc := dueId_toNat_succ (dueId nextId)
  rw [ahead, hsucc]
  split_ifs <;> omega

/-- Every other id is one issue nearer. -/
theorem ahead_succ {nextId id : PmxId} (hid : id ≠ pmxIdNone) (hne : id ≠ dueId nextId) :
    ahead nextId id = ahead (dueId nextId + 1) id + 1 := by
  have hpos := toNat_pos hid
  have hlt := id.toNat_lt
  have hdue := toNat_pos (dueId_ne_none nextId)
  have hduelt := (dueId nextId).toNat_lt
  have hsucc := dueId_toNat_succ (dueId nextId)
  have hne' : id.toNat ≠ (dueId nextId).toNat := fun h => hne (UInt64.toNat_inj.1 h)
  rw [ahead, ahead, hsucc]
  split_ifs <;> omega

/-! ### Room for more additions -/

theorem RoomFor.keeps {pf pf' : PmxProfile} {n : ℕ} (h : RoomFor pf n) (hkeeps : KeepsIds pf pf') :
    RoomFor pf' n := by
  refine ⟨h.1, fun id hid hnone => ?_⟩
  rw [hkeeps.1]
  exact h.2 id (hkeeps.2 hid) hnone

/-- Room for one more addition: the id that is due is free, and there is room afterwards. -/
theorem roomFor_succ {pf pf' : PmxProfile} (hadds : AddsId pf pf') (n : ℕ) :
    RoomFor pf (n + 1) ↔ dueId pf.nextId ∉ pf.ids ∧ RoomFor pf' n := by
  constructor
  · rintro ⟨hn, hroom⟩
    refine ⟨fun hmem => ?_, by omega, fun id hid hnone => ?_⟩
    · have hahead := hroom _ hmem (dueId_ne_none pf.nextId)
      rw [ahead_dueId] at hahead
      omega
    · rw [hadds.nextId]
      rcases (hadds.ids id).1 hid with hold | rfl
      · have hahead := hroom id hold hnone
        by_cases hdue : id = dueId pf.nextId
        · rw [hdue, ahead_dueId] at hahead
          omega
        · rw [ahead_succ hnone hdue] at hahead
          omega
      · rw [ahead_issued]
        omega
  · rintro ⟨hfree, -, hroom⟩
    rw [hadds.nextId] at hroom
    constructor
    · have hissued := hroom _ ((hadds.ids _).2 (Or.inr rfl)) (dueId_ne_none pf.nextId)
      rw [ahead_issued] at hissued
      omega
    · intro id hid hnone
      have hdue : id ≠ dueId pf.nextId := fun h => hfree (h ▸ hid)
      rw [ahead_succ hnone hdue]
      exact Nat.succ_le_succ (hroom id ((hadds.ids id).2 (Or.inl hid)) hnone)

/-- Where there is room for the additions of a run, each issues a fresh id. -/
theorem issuesFresh_of_roomFor : ∀ (run : List ProfileEdit) (pf : PmxProfile),
    RoomFor pf (run.countP (·.adds)) → EachStep editProfile IssuesFresh pf run := by
  intro run
  induction run with
  | nil => intro pf _; trivial
  | cons e run ih =>
    intro pf hroom
    rw [List.countP_cons] at hroom
    rcases editProfile_cases pf e with ⟨hnone, hkeeps⟩ | ⟨hadd, hissued, hadds⟩
    · refine ⟨fun id hid => ?_, ih _ ?_⟩
      · rw [hnone] at hid
        cases hid
      · exact RoomFor.keeps ⟨by have := hroom.1; omega, fun id hid hne => by
          have := hroom.2 id hid hne; omega⟩ hkeeps
    · rw [if_pos hadd, roomFor_succ hadds] at hroom
      refine ⟨fun id hid => ?_, ih _ hroom.2⟩
      rw [hissued] at hid
      obtain rfl := Option.some.inj hid
      exact ⟨dueId_ne_none _, hroom.1⟩

theorem RoomFor.mono {pf : PmxProfile} {m n : ℕ} (h : RoomFor pf n) (hle : m ≤ n) : RoomFor pf m :=
  ⟨Nat.lt_of_le_of_lt hle h.1, fun id hid hnone => hle.trans (h.2 id hid hnone)⟩

/-- **How far ids stay fresh:** as far as the profile has room. -/
theorem staysFresh_iff (pf : PmxProfile) (n : ℕ) : StaysFresh pf n ↔ RoomFor pf n := by
  constructor
  · intro h
    induction n generalizing pf with
    | zero => exact ⟨by decide, fun _ _ _ => Nat.zero_le _⟩
    | succ n ih =>
      -- rules are added, one after the other
      have hadds : AddsId pf (editProfile pf (.addRule true)) := by
        rcases editProfile_cases pf (.addRule true) with ⟨hnone, -⟩ | ⟨-, -, hadds⟩
        · cases hnone
        · exact hadds
      refine (roomFor_succ hadds n).2 ⟨?_, ih _ fun run hrun => ?_⟩
      · exact ((h [.addRule true] (by simp [ProfileEdit.adds])).1 _ rfl).2
      · refine (h (.addRule true :: run) ?_).2
        rw [List.countP_cons, if_pos (show (ProfileEdit.addRule true).adds = true from rfl)]
        omega
  · intro hroom run hrun
    exact issuesFresh_of_roomFor run pf (hroom.mono hrun)

/-! ### After a load -/

theorem le_raiseNextId (nextId : PmxId) {ids : List PmxId} (h : ∀ id ∈ ids, id.toNat < 2 ^ 64 - 1) :
    nextId ≤ raiseNextId nextId ids ∧ ∀ id ∈ ids, id < raiseNextId nextId ids := by
  induction ids generalizing nextId with
  | nil => exact ⟨UInt64.le_refl _, fun id hid => by cases hid⟩
  | cons a rest ih =>
    have ha : a.toNat < 2 ^ 64 - 1 := h a List.mem_cons_self
    have hsucc : (a + 1).toNat = a.toNat + 1 := by
      rw [UInt64.toNat_add, show (1 : UInt64).toNat = 1 from rfl]
      omega
    obtain ⟨hle, hrest⟩ := ih (if a ≥ nextId then a + 1 else nextId)
      fun id hid => h id (List.mem_cons_of_mem a hid)
    have hstep : nextId ≤ (if a ≥ nextId then a + 1 else nextId) ∧
        a < (if a ≥ nextId then a + 1 else nextId) := by
      rw [UInt64.le_iff_toNat_le, UInt64.lt_iff_toNat_lt]
      split_ifs with hge
      · rw [ge_iff_le, UInt64.le_iff_toNat_le] at hge
        omega
      · rw [ge_iff_le, UInt64.not_le, UInt64.lt_iff_toNat_lt] at hge
        omega
    refine ⟨UInt64.le_trans hstep.1 hle, fun id hid => ?_⟩
    rcases List.mem_cons.1 hid with rfl | hid
    · exact UInt64.lt_of_lt_of_le hstep.2 hle
    · exact hrest id hid

/-- The ids that the loops after a load look at. -/
def PmxProfile.checkedIds (pf : PmxProfile) : List PmxId :=
  pf.proxies.map (·.id) ++ pf.rules.map (·.id) ++ pf.chains.map (·.id)

/-- The loops put the counter above every id they look at, unless one of them is the last there is. -/
theorem checkedIds_lt {alloc : JsonAlloc} {root : Json}
    (h : ∀ id ∈ (profileFromTree alloc root).checkedIds, id.toNat < 2 ^ 64 - 1) :
    ∀ id ∈ (profileFromTree alloc root).checkedIds, id < (profileFromTree alloc root).nextId := by
  simp only [PmxProfile.checkedIds, List.forall_mem_append] at h ⊢
  obtain ⟨⟨hproxies, hrules⟩, hchains⟩ := h
  obtain ⟨-, hpBelow⟩ := le_raiseNextId (idOfInt (pmxJsonInt root "next_id" 1)) hproxies
  obtain ⟨hpRaised, hrBelow⟩ := le_raiseNextId _ hrules
  obtain ⟨hrRaised, hcBelow⟩ := le_raiseNextId _ hchains
  refine ⟨⟨fun id hid => ?_, fun id hid => ?_⟩, hcBelow⟩
  · exact UInt64.lt_of_lt_of_le (UInt64.lt_of_lt_of_le (hpBelow id hid) hpRaised) hrRaised
  · exact UInt64.lt_of_lt_of_le (hrBelow id hid) hrRaised

theorem le_dueId (nextId : PmxId) : nextId ≤ dueId nextId := by
  rw [dueId, UInt64.le_iff_toNat_le]
  split_ifs with h
  · rw [h]
    exact Nat.zero_le _
  · exact Nat.le_refl _

/-- Before the counter wraps, there is room as long as the ids from the one that is due on are free. -/
theorem roomFor_iff_of_noWrap {pf : PmxProfile} {n : ℕ} (hn : (dueId pf.nextId).toNat + n ≤ 2 ^ 64) :
    RoomFor pf n ↔
      ∀ id ∈ pf.ids, id < dueId pf.nextId ∨ (dueId pf.nextId).toNat + n ≤ id.toNat := by
  have hdue := toNat_pos (dueId_ne_none pf.nextId)
  have hahead : ∀ id : PmxId, (id ≠ pmxIdNone → n ≤ ahead pf.nextId id) ↔
      (id < dueId pf.nextId ∨ (dueId pf.nextId).toNat + n ≤ id.toNat) := by
    intro id
    rw [UInt64.lt_iff_toNat_lt, ahead]
    by_cases hnone : id = pmxIdNone
    · rw [hnone]
      exact iff_of_true (fun h => absurd rfl h) (Or.inl hdue)
    · have hpos := toNat_pos hnone
      rw [imp_iff_right hnone]
      split_ifs <;> omega
  constructor
  · intro h id hid
    exact (hahead id).1 (h.2 id hid)
  · intro h
    exact ⟨by omega, fun id hid => (hahead id).2 (h id hid)⟩

/-- **Ids after a load.**  Up to `n` additions issue fresh ids only exactly if the loaded profile has
room for them.  Where no proxy, rule or chain of the file has the last id and the counter does not wrap,
that is a condition on the VPNs alone. -/
theorem freshIds {C : CJson} {alloc : JsonAlloc} {pf₀ pf : PmxProfile} {text : CStr}
    (hload : pmxProfileFromJson C alloc pf₀ text = (pf, .ok)) :
    (∀ n, StaysFresh pf n ↔ RoomFor pf n) ∧
    ((∀ id ∈ pf.checkedIds, id.toNat < 2 ^ 64 - 1) →
      ∀ n, (dueId pf.nextId).toNat + n ≤ 2 ^ 64 →
        (StaysFresh pf n ↔
          ∀ v ∈ pf.vpns, v.id < dueId pf.nextId ∨ (dueId pf.nextId).toNat + n ≤ v.id.toNat)) := by
  refine ⟨staysFresh_iff pf, fun hlast n hn => ?_⟩
  have hchecked : ∀ id ∈ pf.checkedIds, id < dueId pf.nextId := by
    cases hparse : C.parse text with
    | none =>
      rw [pmxProfileFromJson, hparse] at hload
      cases hload
    | some root =>
      obtain rfl := eq_profileFromTree_of_loaded hparse hload
      exact fun id hid => UInt64.lt_of_lt_of_le (checkedIds_lt hlast id hid) (le_dueId _)
  rw [staysFresh_iff, roomFor_iff_of_noWrap hn]
  show (∀ id ∈ pf.checkedIds ++ pf.vpns.map (·.id), _) ↔ _
  rw [List.forall_mem_append, List.forall_mem_map]
  exact and_iff_right fun id hid => Or.inl (hchecked id hid)

/-- A file with one VPN, which has taken the first id. -/
def oneVpnText : CStr :=
  ⟨cstr (bytes "\x7b\"format\":\"pmxprofile\",\"vpns\":[\x7b\"id\":1\x7d]\x7d"), nul_notMem_cstr _⟩

/-- The tree of that text. -/
def oneVpnTree : Json :=
  .obj [("format", jsonText pmxProfileFormat), ("vpns", .arr [.obj [("id", jsonInt 1)]])]

theorem oneVpn_load : pmxProfileFromJson (oneTextCJson oneVpnText oneVpnTree) .unlimited pmxProfileInit
    oneVpnText = (profileFromTree .unlimited oneVpnTree, .ok) :=
  pmxProfileFromJson_oneText rfl _ _ _

/-- The first rule that is added gets the id of the VPN. -/
theorem freshIds_oneVpn : ¬StaysFresh (profileFromTree .unlimited oneVpnTree) 1 := by
  have hchecked : (profileFromTree .unlimited oneVpnTree).checkedIds = [] := by decide +kernel
  rw [(freshIds oneVpn_load).2 (by rw [hchecked]; exact fun id hid => by cases hid) 1
    (by decide +kernel)]
  decide +kernel

/-- A rule is added to the file with one VPN, and they share an id. -/
theorem not_issuesFresh_oneVpn :
    ∃ pf, pmxProfileFromJson (oneTextCJson oneVpnText oneVpnTree) .unlimited pmxProfileInit oneVpnText
        = (pf, .ok) ∧
      pf.vpns.map (·.id) = [1] ∧ issuedId pf (.addRule true) = some 1 ∧
      ¬EachStep editProfile IssuesFresh pf [.addRule true] := by
  refine ⟨_, oneVpn_load, by decide +kernel, by decide +kernel, fun h => ?_⟩
  exact (h.1 1 (by decide +kernel)).2 (by decide +kernel)

end ProxiMight
