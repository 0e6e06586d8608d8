import ProxiMight.AllowlistPush
import ProxiMight.TunnelAllowlist

/-!
# When the allowlist is pushed again

`rebuild_allowlist` fills an array on its stack and compares it with the list it pushed last, record by
record and byte by byte.  Of a record only the string up to its terminator and the port are written: what
stands behind the terminator is whatever the stack held there.

* **`repush_iff`** — over runs: the list is pushed exactly when it has changed, exactly when every rebuild
  of an unchanged list finds on its stack the bytes that were pushed last.
-/

namespace ProxiMight

open CString Runs

variable {φ β ω : Type} {F : PmxFirewall φ} {B : PmxBackend β ω}

/-! ### Strings over old bytes -/

/-- Two arrays get equal by writing a string to their front if they are equal behind it. -/
theorem writeStr_eq_iff (a b s : List UInt8) :
    writeStr a s = writeStr b s ↔ a.drop (s.length + 1) = b.drop (s.length + 1) := by
  rw [writeStr, writeStr, List.append_cancel_left_eq, List.cons.injEq]
  exact and_iff_right rfl

/-- Writing the string again changes nothing. -/
theorem writeStr_writeStr (a s : List UInt8) : writeStr (writeStr a s) s = writeStr a s := by
  rw [writeStr_eq_iff, writeStr, List.drop_append, List.drop_of_length_le (Nat.le_succ _),
    Nat.add_sub_cancel_left, List.nil_append, List.drop_succ_cons, List.drop_zero]

/-- The array of the record holds a string. -/
def Terminated (a : PmxFwEndpoint) : Prop := writeStr a.hostBytes a.host = a.hostBytes

/-! ### One rebuild -/

/-- The names and ports of the list that is computed. -/
def listedNames (pf : PmxProfile) : List (List UInt8 × PmxPort) := (wantedNames pf).take pmxMaxAllowlist

/-- Each slot of the array holds, behind the string that is written to it, the bytes of the record that
was pushed from it last. -/
def SlotsHold (e : PmxEngine φ β) (stack : ℕ → List UInt8) : Prop :=
  ∀ (i : ℕ) (name : List UInt8 × PmxPort) (a : PmxFwEndpoint),
    (listedNames e.profile)[i]? = some name → e.allowApplied[i]? = some a →
      (stack i).drop (name.1.length + 1) = a.hostBytes.drop (name.1.length + 1)

theorem computedList_names (e : PmxEngine φ β) (stack : ℕ → List UInt8) :
    allowedNames (computedList e stack) = listedNames e.profile := by
  rw [computedList, writeEndpoints_names, allowEndpoints_eq, listedNames, wantedNames, List.map_take]

theorem computedList_terminated (e : PmxEngine φ β) (stack : ℕ → List UInt8) :
    ∀ a ∈ computedList e stack, Terminated a := by
  intro a ha
  obtain ⟨i, hi, rfl⟩ := List.mem_mapIdx.1 ha
  have hname := cstr_writeStr ((allowEndpoints e.profile)[i]).1.nul_notMem_str (stack i)
  show writeStr _ (cstr _) = _
  rw [hname, writeStr_writeStr]

theorem pushDue_iff (e : PmxEngine φ β) (eps : List PmxFwEndpoint) :
    PushDue e eps ↔ eps ≠ e.allowApplied := by
  rw [PushDue]
  constructor
  · rintro (hlen | h) rfl
    · exact hlen rfl
    · exact h.2 rfl
  · intro hne
    by_cases hlen : eps.length = e.allowApplied.length
    · refine Or.inr ⟨List.length_pos_iff.2 fun hnil => hne ?_, hne⟩
      rw [hnil] at hlen ⊢
      exact (List.eq_nil_of_length_eq_zero hlen.symm).symm
    · exact Or.inl hlen

/-- A record of the list, and one that was pushed, of the same name and port. -/
theorem record_eq_iff {name : CBuf pmxMaxHost} {port : PmxPort} {array : List UInt8} {a : PmxFwEndpoint}
    (ha : Terminated a) (hname : a.host = name.str) (hport : a.port = port) :
    (⟨writeStr array name.str, port⟩ : PmxFwEndpoint) = a ↔
      array.drop (name.str.length + 1) = a.hostBytes.drop (name.str.length + 1) := by
  cases a with
  | mk hostBytes aport =>
    obtain rfl := hport
    rw [Terminated, hname] at ha
    rw [PmxFwEndpoint.mk.injEq, ← writeStr_eq_iff]
    show writeStr array name.str = hostBytes ∧ _ ↔ _ = writeStr hostBytes name.str
    rw [show writeStr hostBytes name.str = hostBytes from ha]
    exact and_iff_left rfl

/-- A list of the same names and ports is the same list if the slots hold the same bytes. -/
theorem computedList_eq_iff {e : PmxEngine φ β} {stack : ℕ → List UInt8}
    (hterm : ∀ a ∈ e.allowApplied, Terminated a)
    (hsame : listedNames e.profile = allowedNames e.allowApplied) :
    computedList e stack = e.allowApplied ↔ SlotsHold e stack := by
  have hlist : listedNames e.profile = (allowEndpoints e.profile).map fun ep => (ep.1.str, ep.2) := by
    rw [← computedList_names e stack, computedList, writeEndpoints_names]
  have hget : ∀ i : ℕ, (computedList e stack)[i]? = (allowEndpoints e.profile)[i]?.map
      fun ep => (⟨writeStr (stack i) ep.1.str, ep.2⟩ : PmxFwEndpoint) :=
    fun i => List.getElem?_mapIdx
  have hnames : ∀ i : ℕ, (allowEndpoints e.profile)[i]?.map (fun ep => (ep.1.str, ep.2))
      = e.allowApplied[i]?.map fun a => (a.host, a.port) := by
    intro i
    rw [← List.getElem?_map, ← hlist, hsame, allowedNames, List.getElem?_map]
  have hrecord : ∀ (i : ℕ) (ep : CBuf pmxMaxHost × PmxPort) (a : PmxFwEndpoint),
      (allowEndpoints e.profile)[i]? = some ep → e.allowApplied[i]? = some a →
        ((⟨writeStr (stack i) ep.1.str, ep.2⟩ : PmxFwEndpoint) = a ↔
          (stack i).drop (ep.1.str.length + 1) = a.hostBytes.drop (ep.1.str.length + 1)) := by
    intro i ep a hep ha
    have hname := hnames i
    rw [hep, ha, Option.map_some, Option.map_some, Option.some_inj] at hname
    exact record_eq_iff (hterm a (List.mem_of_getElem? ha)) (congrArg Prod.fst hname).symm
      (congrArg Prod.snd hname).symm
  constructor
  · intro heq i name a hname ha
    rw [hlist, List.getElem?_map] at hname
    obtain ⟨ep, hep, rfl⟩ := Option.map_eq_some_iff.1 hname
    refine (hrecord i ep a hep ha).1 ?_
    have hslot := hget i
    rw [heq, ha, hep] at hslot
    exact (Option.some.inj hslot).symm
  · intro hhold
    refine List.ext_getElem? fun i => ?_
    rw [hget]
    cases hep : (allowEndpoints e.profile)[i]? with
    | none =>
      have hname := hnames i
      rw [hep] at hname
      exact (Option.map_eq_none_iff.1 hname.symm).symm
    | some ep =>
      have hname := hnames i
      rw [hep] at hname
      obtain ⟨a, ha, -⟩ := Option.map_eq_some_iff.1 hname.symm
      rw [ha, Option.map_some, Option.some_inj, hrecord i ep a hep ha]
      refine hhold i (ep.1.str, ep.2) a ?_ ha
      rw [hlist, List.getElem?_map, hep]
      rfl

/-! ### Runs -/

/-- An engine, and the names and ports it pushed last. -/
abbrev Pushing (φ β : Type) := PmxEngine φ β × List (List UInt8 × PmxPort)

/-- A step of the engine; the list is noted when the step pushes it. -/
def pushingStep (F : PmxFirewall φ) (B : PmxBackend β ω) (s : Pushing φ β) (op : EngineOp β ω) :
    Pushing φ β :=
  (engineStep F B s.1 op,
    (rebuildAt B s.1 op).elim s.2 fun r =>
      if PushDue r.1 (computedList r.1 r.2) then listedNames r.1.profile else s.2)

/-- The rebuild of the step, if there is one, pushes its list exactly when its names and ports are not
those that were pushed last. -/
def PushesChanged (B : PmxBackend β ω) (s : Pushing φ β) (op : EngineOp β ω) : Prop :=
  ∀ e₁ stack, rebuildAt B s.1 op = some (e₁, stack) →
    (PushDue e₁ (computedList e₁ stack) ↔ listedNames e₁.profile ≠ s.2)

/-- If the names and ports are those that were pushed last, the slots hold the bytes that were. -/
def FindsOldBytes (B : PmxBackend β ω) (s : Pushing φ β) (op : EngineOp β ω) : Prop :=
  ∀ e₁ stack, rebuildAt B s.1 op = some (e₁, stack) → listedNames e₁.profile = s.2 →
    SlotsHold e₁ stack

/-- What is compared with is what was pushed last. -/
structure PushNoted (s : Pushing φ β) : Prop where
  names : allowedNames s.1.allowApplied = s.2
  terminated : ∀ a ∈ s.1.allowApplied, Terminated a

theorem healthTick_allowApplied (e : PmxEngine φ β) (env : PumpEnv) :
    (healthTick F e env).allowApplied
      = if TickDue e env then computedList e env.stack else e.allowApplied := by
  split_ifs with hdue
  · have happlied := rebuildAllowlist_allowApplied (F := F) e env.stack
    rcases healthTick_of_due (F := F) hdue with ⟨-, hc, heq⟩ | ⟨-, heq⟩
    · rw [heq]
      exact happlied
    · rw [heq]
      exact happlied
  · rw [healthTick_of_not_due hdue]

/-- A pump that watches leaves what its tick leaves. -/
theorem pump_allowApplied (e : PmxEngine φ β) (env : PumpEnv) :
    (pmxEnginePump F B e env).allowApplied
      = (rebuildAt B e (.pump env)).elim e.allowApplied fun r => computedList r.1 r.2 := by
  have hprelude := (pumpPrelude_sameWatch (B := B) e env).allowApplied
  rw [rebuildAt, pmxEnginePump]
  by_cases hrun : (pumpPrelude B e env).running = true
  · rw [if_pos hrun, watchHealth]
    by_cases hwatch : Watching (pumpPrelude B e env)
    · rw [if_pos hwatch]
      show (pollHealth F (runWorker (healthTick F (pumpPrelude B e env) env) env.worker)).allowApplied = _
      rw [pollHealth_eq]
      show (healthTick F (pumpPrelude B e env) env).allowApplied = _
      rw [healthTick_allowApplied]
      by_cases hdue : TickDue (pumpPrelude B e env) env
      · rw [if_pos hdue, if_pos ⟨hrun, hwatch, hdue⟩]
        rfl
      · rw [if_neg hdue, if_neg fun h => hdue h.2.2]
        exact hprelude
    · rw [if_neg hwatch, if_neg fun h => hwatch h.2.1]
      exact hprelude
  · rw [if_neg hrun, if_neg fun h => hrun h.1]
    exact hprelude

theorem start_allowApplied (e : PmxEngine φ β) (os : ω) (stack : ℕ → List UInt8) :
    (pmxEngineStart F B e os stack).1.allowApplied
      = (rebuildAt B e (.start os stack)).elim e.allowApplied fun r => computedList r.1 r.2 := by
  rw [rebuildAt, pmxEngineStart]
  by_cases hrun : e.running = true
  · rw [if_pos hrun, hrun]
    rfl
  · rw [if_neg hrun, Bool.eq_false_iff.2 hrun, Bool.false_or]
    by_cases hst : (engineStartBackend B e os).2 ≠ .ok
    · rw [if_pos hst, if_pos (decide_eq_true hst)]
      rfl
    · rw [if_neg hst, if_neg (by rw [decide_eq_true_eq]; exact hst)]
      exact rebuildAllowlist_allowApplied _ _

/-- A step that rebuilds leaves the list it has computed as the one that counts as applied. -/
theorem engineStep_allowApplied (e : PmxEngine φ β) (op : EngineOp β ω) :
    (engineStep F B e op).allowApplied
      = (rebuildAt B e op).elim e.allowApplied fun r => computedList r.1 r.2 := by
  cases op with
  | start os stack => exact start_allowApplied e os stack
  | pump env => exact pump_allowApplied e env
  | load loaded allocOk =>
    cases loaded with
    | error st =>
      rw [engineStep, pmxEngineLoadProfile]
      split_ifs <;> rfl
    | ok pf =>
      rw [engineStep, pmxEngineLoadProfile]
      split_ifs <;> rfl
  | stop =>
    rw [engineStep, pmxEngineStop]
    split_ifs <;> rfl
  | flow f allocOk =>
    rw [engineStep, engineOnFlow]
    split_ifs <;> rfl
  | _ => rfl

theorem PushNoted.step {s : Pushing φ β} (h : PushNoted s) (op : EngineOp β ω) :
    PushNoted (pushingStep F B s op) := by
  cases hat : rebuildAt B s.1 op with
  | none =>
    have happlied : (pushingStep F B s op).1.allowApplied = s.1.allowApplied := by
      rw [pushingStep, engineStep_allowApplied, hat]
      rfl
    refine ⟨?_, by rw [happlied]; exact h.terminated⟩
    rw [happlied, pushingStep, hat]
    exact h.names
  | some r =>
    obtain ⟨e₁, stack⟩ := r
    have happlied : (pushingStep F B s op).1.allowApplied = computedList e₁ stack := by
      rw [pushingStep, engineStep_allowApplied, hat]
      rfl
    refine ⟨?_, by rw [happlied]; exact computedList_terminated e₁ stack⟩
    rw [happlied, computedList_names, pushingStep, hat, Option.elim_some]
    split_ifs with hdue
    · rfl
    · rw [pushDue_iff, not_not, (rebuildAt_untouched hat).2] at hdue
      rw [← h.names, ← hdue, computedList_names]

/-- One step. -/
theorem pushesChanged_iff {s : Pushing φ β} (h : PushNoted s) (op : EngineOp β ω) :
    PushesChanged B s op ↔ FindsOldBytes B s op := by
  refine forall₃_congr fun e₁ stack hat => ?_
  have happlied := (rebuildAt_untouched hat).2
  rw [pushDue_iff, not_iff_not]
  constructor
  · intro hiff hsame
    rw [← h.names, ← happlied] at hsame
    refine (computedList_eq_iff (by rw [happlied]; exact h.terminated) hsame).1 (hiff.2 ?_)
    rw [hsame, happlied, h.names]
  · intro hhold
    constructor
    · intro heq
      rw [← computedList_names e₁ stack, heq, happlied, h.names]
    · intro hsame
      refine (computedList_eq_iff (by rw [happlied]; exact h.terminated) ?_).2 (hhold hsame)
      rw [hsame, happlied, h.names]

/-- **When the allowlist is pushed exactly when it changed.**  In every run of the engine, whatever the
stack holds at each call: every rebuild pushes its list exactly when the names and ports differ from those
pushed last, exactly when every rebuild of an unchanged list finds, behind each of its names, the bytes
that were pushed last. -/
theorem repush_iff (F : PmxFirewall φ) (B : PmxBackend β ω) (pf : PmxProfile) (fw : Option φ)
    (backend : β) (allocOk : Fin 4 → Bool) (ops : List (EngineOp β ω)) :
    EachStep (pushingStep F B) (PushesChanged B) (pmxEngineCreate B pf fw backend allocOk, []) ops ↔
      EachStep (pushingStep F B) (FindsOldBytes B) (pmxEngineCreate B pf fw backend allocOk, []) ops :=
  eachStep_congr PushNoted (fun _ op h => h.step op) (fun _ op h => pushesChanged_iff h op) ops _
    ⟨rfl, fun _ ha => absurd ha List.not_mem_nil⟩

/-- A start, and a health tick five seconds later that finds another byte all over its stack. -/
def staleStackRun : List (EngineOp StubImpl Bool) :=
  [.start true (fun _ => List.replicate pmxMaxHost 0),
    .pump { quietPump 5000 with stack := fun _ => List.replicate pmxMaxHost 7 }]

/-- The engine and its note as the tick begins. -/
def staleStackEngine : Pushing StubFw StubImpl :=
  pushingStep pmxFirewallStub pmxBackendStub
    (pmxEngineCreate pmxBackendStub oneProxyProfile (some stubFwCreate) stubImplCreate fun _ => true, [])
    (.start true (fun _ => List.replicate pmxMaxHost 0))

/-- The profile is the same, the names and ports are those that were pushed, and the tick pushes them
again. -/
theorem pushDue_staleStack :
    let e := pumpPrelude pmxBackendStub staleStackEngine.1 (quietPump 5000)
    (e.running = true ∧ Watching e ∧ TickDue e (quietPump 5000)) ∧
      listedNames e.profile = staleStackEngine.2 ∧
      PushDue e (computedList e fun _ => List.replicate pmxMaxHost 7) := by
  decide +kernel

theorem not_pushesChanged_staleStack :
    ¬EachStep (pushingStep pmxFirewallStub pmxBackendStub) (PushesChanged pmxBackendStub)
      (pmxEngineCreate pmxBackendStub oneProxyProfile (some stubFwCreate) stubImplCreate fun _ => true, [])
      staleStackRun := by
  intro h
  obtain ⟨hat, hsame, hdue⟩ := pushDue_staleStack
  exact (h.2.1 _ _ (rebuildAt_pump hat)).1 hdue hsame

end ProxiMight
