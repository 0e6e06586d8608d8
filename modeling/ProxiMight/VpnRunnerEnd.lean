import ProxiMight.SlotTable
import ProxiMight.TunnelTable

/-!
# No child is left behind (`pmx_vpn_runner_destroy`)

The runner frees a child, which closes its handle and kills it if it still runs, when a tunnel is brought up
again or down, when it finds it ended, and when it is destroyed itself.  A log of the handles that were freed
stands beside the world.

* **`vpnRunner_freesOnce`** — over the life of a runner every child is freed once, and none outlives it.
-/

namespace ProxiMight

open SlotTable

/-! ### What is freed -/

/-- The child freed by `pmx_vpn_up`, before it starts another. -/
def upFreed (w : VpnWorld) (v : PmxVpn) (found : Bool) : List ℕ :=
  if found = false then []
  else if (pmxVpnValidate 128 v).1 ≠ .ok then []
  else
    match entryFor w.entries v.id true with
    | (es, some slot) => if v.kind = .wireguard then [] else (entryAt es slot).proc.toList
    | (_, none) => []

/-- The child freed by `pmx_vpn_down`. -/
def downFreed (w : VpnWorld) (v : PmxVpn) : List ℕ :=
  match (entryFor w.entries v.id false).2 with
  | some slot => if v.kind = .wireguard then [] else (entryAt w.entries slot).proc.toList
  | none => []

/-- The child of an entry, if `pmx_vpn_runner_poll` finds that it has ended. -/
def polledFreed (children : List VpnChild) (e : VpnEntry) : List ℕ :=
  match e.proc with
  | some handle => if e.used = false then [] else if procRunning children handle then [] else [handle]
  | none => []

def freedBy (w : VpnWorld) : VpnOp → List ℕ
  | .up v found _ => upFreed w v found
  | .down v _ _ => downFreed w v
  | .poll => w.entries.flatMap (polledFreed w.children)
  | .exit _ _ => []

/-- A step of the runner and the machine, with the log of freed handles. -/
def vpnLogStep (s : VpnWorld × List ℕ) (op : VpnOp) : VpnWorld × List ℕ :=
  (vpnStep s.1 op, s.2 ++ freedBy s.1 op)

/-- The handles that the entries hold. -/
def heldBy (es : List VpnEntry) : List ℕ := es.flatMap fun e => e.proc.toList

/-- `pmx_vpn_runner_destroy`, which frees every child that is held. -/
def pmxVpnRunnerDestroy (w : VpnWorld) : VpnWorld :=
  { w with
      entries := w.entries.map fun e => { e with proc := none }
      children := w.entries.foldl (fun cs e => procFree cs e.proc) w.children }

/-! ### Cases -/

/-- A bring-up frees nothing and does nothing, or frees the child of the entry it starts from. -/
theorem upFreed_cases (w : VpnWorld) (v : PmxVpn) (found : Bool) (env : UpEnv) :
    ((pmxVpnUp w v found env).1 = w ∧ upFreed w v found = []) ∨
    ∃ i old start, w.entries[i]? = some old ∧ (start = old ∨ ¬old.Live ∧ start = .fresh v.id) ∧
      start.used = true ∧ pmxVpnUp w v found env = bringUp w v env i start ∧
      upFreed w v found = if v.kind = .wireguard then [] else start.proc.toList := by
  rw [pmxVpnUp, upFreed]
  by_cases hfound : found = false
  · rw [if_pos hfound, if_pos hfound]
    exact Or.inl ⟨rfl, rfl⟩
  rw [if_neg hfound, if_neg hfound]
  by_cases hvalid : (pmxVpnValidate 128 v).1 ≠ .ok
  · rw [if_pos hvalid, if_pos hvalid]
    exact Or.inl ⟨rfl, rfl⟩
  · rw [if_neg hvalid, if_neg hvalid]
    rcases entryFor_cases w.entries v.id with
      ⟨i, e, hi, hkey, heq, -⟩ | ⟨-, i, e, hi, hdead, heq, -⟩ | ⟨-, heq, -⟩
    · rw [heq]
      refine Or.inr ⟨i, e, e, hi, Or.inl rfl, (slotKey_used hkey).1, ?_, ?_⟩
      · dsimp only
        rw [entryAt_eq hi]
      · dsimp only
        rw [entryAt_eq hi]
    · rw [heq]
      obtain ⟨hlt, -⟩ := List.getElem?_eq_some_iff.1 hi
      refine Or.inr ⟨i, e, .fresh v.id, hi, Or.inr ⟨hdead, rfl⟩, rfl, ?_, ?_⟩
      · dsimp only
        rw [entryAt_eq (List.getElem?_set_self hlt), bringUp, bringUp]
        simp only [List.set_set]
      · dsimp only
        rw [entryAt_eq (List.getElem?_set_self hlt)]
    · rw [heq]
      exact Or.inl ⟨rfl, rfl⟩

theorem downFreed_cases (w : VpnWorld) (v : PmxVpn) (found : Bool) (ran : ProcRun) :
    ((pmxVpnDown w v found ran).1 = w ∧ downFreed w v = []) ∨
    ∃ i e, w.entries[i]? = some e ∧ slotKey e = some v.id ∧
      pmxVpnDown w v found ran = bringDown w v found ran i e ∧
      downFreed w v = if v.kind = .wireguard then [] else e.proc.toList := by
  rw [pmxVpnDown, downFreed]
  rcases entryFor_false w.entries v.id with ⟨i, e, hi, hkey, heq⟩ | ⟨-, heq⟩
  · rw [heq]
    refine Or.inr ⟨i, e, hi, hkey, ?_, ?_⟩
    · dsimp only
      rw [entryAt_eq hi]
    · dsimp only
      rw [entryAt_eq hi]
  · rw [heq]
    exact Or.inl ⟨rfl, rfl⟩

/-! ### The log -/

/-- What every run keeps of the world and the log. -/
structure FreedOnce (s : VpnWorld × List ℕ) : Prop where
  table : TableInv s.1
  unused : ∀ e ∈ s.1.entries, e.used = false → e.proc = none
  once : (s.2 ++ heldBy s.1.entries).Perm (s.1.children.map (·.handle))
  ended : ∀ c ∈ s.1.children, c.handle ∈ s.2 → c.exit ≠ none

theorem heldBy_set {es : List VpnEntry} {i : ℕ} {old : VpnEntry} (hi : es[i]? = some old) (new : VpnEntry) :
    (old.proc.toList ++ heldBy (es.set i new)).Perm (new.proc.toList ++ heldBy es) := by
  have h := (cons_set_perm hi new).flatMap_right fun e => e.proc.toList
  rwa [List.flatMap_cons, List.flatMap_cons] at h

/-- A poll frees what it finds ended, and the entries hold on to the rest. -/
theorem heldBy_poll (cs : List VpnChild) (es : List VpnEntry) :
    (es.flatMap (polledFreed cs) ++ heldBy (es.map (pollEntry cs))).Perm (heldBy es) := by
  have hentry : ∀ e : VpnEntry, polledFreed cs e ++ (pollEntry cs e).proc.toList = e.proc.toList := by
    intro e
    rw [polledFreed, pollEntry]
    cases hproc : e.proc with
    | none =>
      dsimp only
      rw [hproc]
      rfl
    | some handle =>
      dsimp only
      split_ifs
      · rw [hproc]
        rfl
      · rfl
      · rw [hproc]
        rfl
      · rfl
      · rfl
  rw [heldBy, heldBy, List.flatMap_map]
  refine (List.flatMap_append_perm _ _ _).trans ?_
  simp only [hentry]
  exact List.Perm.refl _

/-- The child freed has ended, and the others that had ended before. -/
theorem procFree_ended {cs : List VpnChild} {log : List ℕ} {proc : Option ℕ}
    (h : ∀ c ∈ cs, c.handle ∈ log → c.exit ≠ none) :
    ∀ c ∈ procFree cs proc, c.handle ∈ log ++ proc.toList → c.exit ≠ none := by
  intro c hc hmem hlives
  obtain ⟨hc₀, hne⟩ := mem_procFree hc hlives
  rcases List.mem_append.1 hmem with hlog | hproc
  · exact h c hc₀ hlog hlives
  · exact hne (Option.mem_toList.1 hproc)

namespace FreedOnce

variable {s : VpnWorld × List ℕ}

theorem create : FreedOnce (vpnRunnerCreate, []) where
  table := vpnRunnerCreate_tableInv
  unused e he _ := by
    obtain rfl := List.eq_of_mem_replicate he
    rfl
  once := by decide
  ended := nofun

/-- What is freed or held is a child that was started before. -/
theorem handle_lt (h : FreedOnce s) {handle : ℕ} (hmem : handle ∈ s.2 ++ heldBy s.1.entries) :
    handle < s.1.nextHandle :=
  List.rel_of_pairwise_cons h.table.handles (h.once.mem_iff.1 hmem)

/-- A slot is written, and the child that was in it is freed or still in it; `new` may hold one more. -/
theorem write (h : FreedOnce s) {w' : VpnWorld} {freed : List ℕ} {i : ℕ} {old new : VpnEntry}
    (htable : TableInv w') (hslot : s.1.entries[i]? = some old) (hnew : new.used = true)
    (hentries : w'.entries = s.1.entries.set i new) (more : List ℕ)
    (hproc : (freed ++ new.proc.toList).Perm (more ++ old.proc.toList))
    (hchildren : (w'.children.map (·.handle)).Perm (more ++ s.1.children.map (·.handle)))
    (hended : ∀ c ∈ w'.children, c.handle ∈ s.2 ++ freed → c.exit ≠ none) :
    FreedOnce (w', s.2 ++ freed) where
  table := htable
  unused e he hunused := by
    rw [hentries] at he
    rcases List.mem_or_eq_of_mem_set he with he | rfl
    · exact h.unused e he hunused
    · rw [hnew] at hunused
      cases hunused
  once := by
    dsimp only
    rw [hentries]
    have hset := heldBy_set hslot new
    have honce := h.once
    rw [List.perm_iff_count] at hset honce hproc hchildren ⊢
    intro handle
    have h₁ := hset handle
    have h₂ := honce handle
    have h₃ := hproc handle
    have h₄ := hchildren handle
    simp only [List.count_append] at h₁ h₂ h₃ h₄ ⊢
    omega
  ended := hended

/-- An entry that is not live holds no child. -/
theorem proc_of_dead (h : FreedOnce s) {e : VpnEntry} (he : e ∈ s.1.entries) (hdead : ¬e.Live) :
    e.proc = none := by
  by_cases hused : e.used = true
  · by_contra hproc
    exact hdead ⟨hused, Or.inl hproc⟩
  · exact h.unused e he (Bool.not_eq_true _ ▸ hused)

theorem up (h : FreedOnce s) (v : PmxVpn) (found : Bool) (env : UpEnv) :
    FreedOnce (vpnLogStep s (.up v found env)) := by
  have htable := vpnStep_tableInv (.up v found env) h.table
  rw [vpnLogStep, vpnStep, freedBy]
  rw [vpnStep] at htable
  rcases upFreed_cases s.1 v found env with
    ⟨hsame, hfreed⟩ | ⟨i, old, start, hslot, hstart, hused, heq, hfreed⟩
  · rw [hsame, hfreed, List.append_nil]
    exact h
  · have hproc : start.proc = old.proc := by
      rcases hstart with rfl | ⟨hdead, rfl⟩
      · rfl
      · exact (h.proc_of_dead (List.mem_of_getElem? hslot) hdead).symm
    rw [heq] at htable ⊢
    rw [hfreed]
    rcases bringUp_cases s.1 v env i start with
      ⟨hkind, state, message, name, hw, -⟩ | ⟨hkind, state, message, hw, -⟩
    · rw [if_pos hkind]
      refine h.write htable hslot ?_ (congrArg VpnWorld.entries hw) [] ?_ ?_ ?_
      · exact hused
      · exact List.Perm.of_eq (congrArg Option.toList hproc)
      · rw [hw]
        exact List.Perm.refl _
      · rw [hw, List.append_nil]
        exact h.ended
    · have hfresh : s.1.nextHandle ∉ s.2 ++ start.proc.toList := by
        intro hmem
        refine Nat.lt_irrefl _ (h.handle_lt ?_)
        rcases List.mem_append.1 hmem with hlog | hheld
        · exact List.mem_append_left _ hlog
        · rw [hproc] at hheld
          exact List.mem_append_right _ (List.mem_flatMap.2 ⟨old, List.mem_of_getElem? hslot, hheld⟩)
      rw [if_neg hkind]
      refine h.write htable hslot ?_ (congrArg VpnWorld.entries hw)
        (if env.spawn = .ok then [s.1.nextHandle] else []) ?_ ?_ ?_
      · exact hused
      · dsimp only
        rw [hproc]
        split_ifs
        · exact List.perm_append_comm
        · exact List.perm_append_comm
      · rw [hw]
        dsimp only
        split_ifs
        · rw [List.map_cons, map_handle_procFree]
          exact List.Perm.refl _
        · rw [map_handle_procFree]
          exact List.Perm.refl _
      · rw [hw]
        dsimp only
        intro c hc hmem
        split_ifs at hc
        · rcases List.mem_cons.1 hc with rfl | hc
          · exact absurd hmem hfresh
          · exact procFree_ended h.ended c hc hmem
        · exact procFree_ended h.ended c hc hmem

theorem down (h : FreedOnce s) (v : PmxVpn) (found : Bool) (ran : ProcRun) :
    FreedOnce (vpnLogStep s (.down v found ran)) := by
  have htable := vpnStep_tableInv (.down v found ran) h.table
  rw [vpnLogStep, vpnStep, freedBy]
  rw [vpnStep] at htable
  rcases downFreed_cases s.1 v found ran with ⟨hsame, hfreed⟩ | ⟨i, e, hslot, hkey, heq, hfreed⟩
  · rw [hsame, hfreed, List.append_nil]
    exact h
  · have hused : e.used = true := (slotKey_used hkey).1
    rw [heq] at htable ⊢
    rw [hfreed]
    rcases bringDown_cases s.1 v found ran i e with
      ⟨hkind, -, hw⟩ | ⟨hkind, -, message, name, hw, -⟩ | ⟨hkind, message, hw⟩
    · rw [if_pos hkind]
      refine h.write htable hslot ?_ (congrArg VpnWorld.entries hw) [] (List.Perm.refl _) ?_ ?_
      · exact hused
      · rw [hw]
        exact List.Perm.refl _
      · rw [hw, List.append_nil]
        exact h.ended
    · rw [if_pos hkind]
      refine h.write htable hslot ?_ (congrArg VpnWorld.entries hw) [] (List.Perm.refl _) ?_ ?_
      · exact hused
      · rw [hw]
        exact List.Perm.refl _
      · rw [hw, List.append_nil]
        exact h.ended
    · rw [if_neg hkind]
      refine h.write htable hslot ?_ (congrArg VpnWorld.entries hw) [] ?_ ?_ ?_
      · exact hused
      · exact List.perm_append_comm
      · rw [hw]
        dsimp only
        rw [map_handle_procFree]
        exact List.Perm.refl _
      · rw [hw]
        exact procFree_ended h.ended

theorem poll (h : FreedOnce s) : FreedOnce (vpnLogStep s .poll) where
  table := vpnStep_tableInv .poll h.table
  unused e' he' hunused := by
    obtain ⟨e, he, rfl⟩ := List.mem_map.1 he'
    obtain ⟨proc, state, message, heq, hproc⟩ := pollEntry_frame s.1.children e
    rw [heq] at hunused ⊢
    have hnone := h.unused e he hunused
    rcases hproc with rfl | rfl
    · exact hnone
    · rfl
  once := by
    rw [vpnLogStep, List.append_assoc]
    exact ((heldBy_poll s.1.children s.1.entries).append_left s.2).trans h.once
  ended c hc hmem hlives := by
    rcases List.mem_append.1 hmem with hlog | hfreed
    · exact h.ended c hc hlog hlives
    · -- what is found ended is not alive
      obtain ⟨e, -, he⟩ := List.mem_flatMap.1 hfreed
      have hrunning := procRunning_of_lives h.table.nodup hc hlives
      rw [polledFreed] at he
      cases hproc : e.proc with
      | none =>
        rw [hproc] at he
        cases he
      | some handle =>
        rw [hproc] at he
        dsimp only at he
        split_ifs at he with hused hstopped
        · cases he
        · cases he
        · obtain rfl := List.mem_singleton.1 he
          exact hstopped hrunning

theorem exit (h : FreedOnce s) (handle : ℕ) (code : ℤ) : FreedOnce (vpnLogStep s (.exit handle code)) where
  table := vpnStep_tableInv (.exit handle code) h.table
  unused := h.unused
  once := by
    rw [vpnLogStep, freedBy, List.append_nil, vpnStep]
    dsimp only
    rw [map_handle_endChild]
    exact h.once
  ended c hc hmem hlives := by
    rw [vpnLogStep, freedBy, List.append_nil] at hmem
    exact h.ended c (mem_endChild hc hlives).1 hmem hlives

theorem step (h : FreedOnce s) (op : VpnOp) : FreedOnce (vpnLogStep s op) := by
  cases op with
  | up v found env => exact h.up v found env
  | down v found ran => exact h.down v found ran
  | poll => exact h.poll
  | exit handle code => exact h.exit handle code


end FreedOnce

/-- What lives when every entry's child has been freed is held by none of them. -/
theorem mem_foldl_procFree {es : List VpnEntry} {c : VpnChild} (hlives : c.exit = none) :
    ∀ {cs : List VpnChild}, c ∈ es.foldl (fun cs e => procFree cs e.proc) cs →
      c ∈ cs ∧ ∀ e ∈ es, e.proc ≠ some c.handle := by
  induction es with
  | nil => exact fun hc => ⟨hc, nofun⟩
  | cons e es ih =>
    intro cs hc
    obtain ⟨hmem, hrest⟩ := ih hc
    obtain ⟨hcs, hne⟩ := mem_procFree hmem hlives
    refine ⟨hcs, fun e' he' => ?_⟩
    rcases List.mem_cons.1 he' with rfl | he'
    · exact hne
    · exact hrest e' he'

/-- **No child is left behind, and none freed twice.**  Whatever is brought up and down, in whatever slots
and of whatever kind, and whenever children end by themselves: at every moment the handles freed so far and
those held are those of the children started, each once, and a child freed has ended.  Destroying the runner
frees what is held, and then every child has been freed once and none is alive. -/
theorem vpnRunner_freesOnce (ops : List VpnOp) :
    let s := Runs.runFrom vpnLogStep (vpnRunnerCreate, []) ops
    let w := pmxVpnRunnerDestroy s.1
    (s.2 ++ heldBy s.1.entries).Nodup ∧
      (∀ c ∈ s.1.children, c.handle ∈ s.2 → c.exit ≠ none) ∧
      (s.2 ++ heldBy s.1.entries).Perm (w.children.map (·.handle)) ∧
      heldBy w.entries = [] ∧ ∀ c ∈ w.children, c.exit ≠ none := by
  intro s w
  have h : FreedOnce s := Runs.runFrom_inv FreedOnce (fun _ op hs => hs.step op) ops _ FreedOnce.create
  have hhandles : w.children.map (·.handle) = s.1.children.map (·.handle) := by
    have hfold : ∀ (es : List VpnEntry) (cs : List VpnChild),
        (es.foldl (fun cs e => procFree cs e.proc) cs).map (·.handle) = cs.map (·.handle) := by
      intro es
      induction es with
      | nil => exact fun _ => rfl
      | cons e es ih => exact fun cs => (ih _).trans (map_handle_procFree cs e.proc)
    exact hfold s.1.entries s.1.children
  refine ⟨h.once.nodup_iff.2 h.table.nodup, h.ended, ?_, ?_, ?_⟩
  · rw [hhandles]
    exact h.once
  · simp [w, pmxVpnRunnerDestroy, heldBy]
  · intro c hc hlives
    obtain ⟨hmem, hnone⟩ := mem_foldl_procFree hlives hc
    obtain ⟨e, he, -, hproc⟩ := h.table.held c hmem hlives
    exact hnone e he hproc

end ProxiMight
