import Mathlib.Data.List.Forall2
import ProxiMight.ProfileJson
import ProxiMight.Resolve

/-!
# Loaded chains

A chain's hops are read from a JSON array.  An element that is not a number is passed over, and so is
every number after the eighth, so a loaded chain may have fewer hops than its array has elements.  The
resolution of a rule that targets it knows nothing of this.

* **`chainFromJson_hops`** — the hops of a loaded chain: the first eight numbers of the array.
* **`loadedChain_iff`** — a loaded chain has a hop for each element, or no rule that targets it gets a
  path, exactly when its array holds at most eight numbers and nothing else, or it cannot be used.
-/

namespace ProxiMight

open CString

/-! ### What is stored -/

/-- The elements of an array that were stored, and no others, are read. -/
theorem storeItems_eq {α : Type} (read : Json → α) (alloc : ℕ → Bool) :
    ∀ (items : List Json) (cap : ℕ) (stored : List α),
      ∃ n, storeItems read alloc cap stored items = stored ++ (items.take n).map read := by
  intro items
  induction items with
  | nil => intro cap stored; exact ⟨0, by rw [storeItems, List.take_nil, List.map_nil, List.append_nil]⟩
  | cons o rest ih =>
    intro cap stored
    have hmove : ∀ n, stored ++ [read o] ++ (rest.take n).map read
        = stored ++ ((o :: rest).take (n + 1)).map read := by
      intro n
      rw [List.take_succ_cons, List.map_cons, List.append_assoc, List.singleton_append]
    rw [storeItems]
    by_cases hfull : stored.length ≥ cap
    · rw [if_pos hfull]
      by_cases hok : alloc stored.length = true
      · rw [if_pos hok]
        obtain ⟨n, hn⟩ := ih (if cap = 0 then 8 else cap * 2) (stored ++ [read o])
        exact ⟨n + 1, hn.trans (hmove n)⟩
      · rw [if_neg hok]
        exact ⟨0, by rw [List.take_zero, List.map_nil, List.append_nil]⟩
    · rw [if_neg hfull]
      obtain ⟨n, hn⟩ := ih cap (stored ++ [read o])
      exact ⟨n + 1, hn.trans (hmove n)⟩

/-! ### The hops -/

/-- The number a node holds. -/
def Json.number : Json → Option ℚ
  | .num v => some v
  | _ => none

/-- `(pmx_id)hv->valuedouble`. -/
def hopOf (v : ℚ) : PmxId := idOfInt (truncate v)

/-- The elements of the array `hops` of a chain. -/
def hopItems (o : Json) : List Json := arrayItems (o.getItem "hops")

/-- The numbers among them that are read. -/
def hopNumbers (o : Json) : List ℚ := ((hopItems o).filterMap Json.number).take pmxMaxChainHops

/-- What does not fit need not be cut off before more is appended. -/
theorem take_take_append {α : Type} (n : ℕ) (xs ys : List α) :
    (xs.take n ++ ys).take n = (xs ++ ys).take n := by
  have hroom : n - min n xs.length = n - xs.length := by omega
  rw [List.take_append, List.take_append, List.take_take, min_self, List.length_take, hroom]

theorem readHop_hops (c : PmxChain) (item : Json) :
    (readHop c item).hops = (c.hops ++ (item.number.map hopOf).toList).take pmxMaxChainHops := by
  have hfit : c.hops.take pmxMaxChainHops = c.hops := List.take_of_length_le c.hops_fit
  cases item with
  | num v =>
    rw [readHop]
    show _ = (c.hops ++ [hopOf v]).take pmxMaxChainHops
    split_ifs with hroom
    · exact (List.take_of_length_le (SlotTable.length_concat_le hroom _)).symm
    · rw [List.take_append_of_le_length (by omega), hfit]
  | _ => exact ((congrArg (List.take pmxMaxChainHops) (List.append_nil c.hops)).trans hfit).symm

/-- A round of the loop touches the hops only. -/
theorem readHop_frame (c : PmxChain) (item : Json) :
    (readHop c item).id = c.id ∧ (readHop c item).label = c.label ∧ (readHop c item).mode = c.mode ∧
      (readHop c item).enabled = c.enabled := by
  cases item with
  | num v =>
    rw [readHop]
    split_ifs <;> exact ⟨rfl, rfl, rfl, rfl⟩
  | _ => exact ⟨rfl, rfl, rfl, rfl⟩

theorem foldl_readHop_hops (items : List Json) : ∀ c : PmxChain,
    (items.foldl readHop c).hops
      = (c.hops ++ (items.filterMap Json.number).map hopOf).take pmxMaxChainHops := by
  induction items with
  | nil =>
    intro c
    rw [List.filterMap_nil, List.map_nil, List.append_nil]
    exact (List.take_of_length_le c.hops_fit).symm
  | cons item items ih =>
    intro c
    rw [List.foldl_cons, ih, readHop_hops, take_take_append, List.append_assoc, List.filterMap_cons]
    cases item.number with
    | none => rfl
    | some v => rfl

theorem foldl_readHop_frame (items : List Json) : ∀ c : PmxChain,
    (items.foldl readHop c).id = c.id ∧ (items.foldl readHop c).label = c.label ∧
      (items.foldl readHop c).mode = c.mode ∧ (items.foldl readHop c).enabled = c.enabled := by
  induction items with
  | nil => intro c; exact ⟨rfl, rfl, rfl, rfl⟩
  | cons item items ih =>
    intro c
    obtain ⟨hid, hlabel, hmode, hen⟩ := ih (readHop c item)
    obtain ⟨hid', hlabel', hmode', hen'⟩ := readHop_frame c item
    exact ⟨hid.trans hid', hlabel.trans hlabel', hmode.trans hmode', hen.trans hen'⟩

/-- **The hops of a loaded chain.** -/
theorem chainFromJson_hops (o : Json) : (chainFromJson o).hops = (hopNumbers o).map hopOf := by
  rw [chainFromJson, foldl_readHop_hops, List.nil_append, hopNumbers, List.map_take, hopItems]

/-- What is read besides the hops. -/
theorem chainFromJson_frame (o : Json) :
    (chainFromJson o).id = idOfInt (pmxJsonInt o "id" 0) ∧
      (chainFromJson o).label = pmxJsonStrInto o "label" _ "Chain" ∧
      (chainFromJson o).mode = .ofInt (pmxJsonInt o "mode" PmxChainMode.sequential.toInt) ∧
      (chainFromJson o).enabled = pmxJsonBool o "enabled" true := by
  rw [chainFromJson]
  exact foldl_readHop_frame _ _

theorem chainFromJson_id (o : Json) : (chainFromJson o).id = idOfInt (pmxJsonInt o "id" 0) :=
  (chainFromJson_frame o).1

theorem chainFromJson_enabled (o : Json) :
    (chainFromJson o).enabled = pmxJsonBool o "enabled" true :=
  (chainFromJson_frame o).2.2.2

/-- The hops are those of the elements, one for each, in order. -/
def OneHopEach (o : Json) : Prop :=
  List.Forall₂ (fun hop item => ∃ v, item = .num v ∧ hop = hopOf v) (chainFromJson o).hops (hopItems o)

/-- The array holds numbers only, and no more than there is room for. -/
def HopsFit (o : Json) : Prop :=
  (∀ item ∈ hopItems o, ∃ v, item = .num v) ∧ (hopItems o).length ≤ pmxMaxChainHops

theorem filterMap_number {items : List Json} (h : ∀ item ∈ items, ∃ v, item = .num v) :
    List.Forall₂ (fun v item => item = .num v) (items.filterMap Json.number) items := by
  induction items with
  | nil => exact .nil
  | cons item items ih =>
    obtain ⟨v, rfl⟩ := h item List.mem_cons_self
    exact .cons rfl (ih fun item' hmem => h item' (List.mem_cons_of_mem _ hmem))

theorem oneHopEach_iff (o : Json) : OneHopEach o ↔ HopsFit o := by
  constructor
  · intro h
    refine ⟨fun item hitem => ?_, ?_⟩
    · obtain ⟨i, hi, rfl⟩ := List.getElem_of_mem hitem
      obtain ⟨v, hv, -⟩ := h.get (h.length_eq.symm ▸ hi) hi
      exact ⟨v, hv⟩
    · rw [← h.length_eq]
      exact (chainFromJson o).hops_fit
  · rintro ⟨hnum, hlen⟩
    have hall := filterMap_number hnum
    have htake : hopNumbers o = (hopItems o).filterMap Json.number :=
      List.take_of_length_le (by rw [hall.length_eq]; exact hlen)
    rw [OneHopEach, chainFromJson_hops, htake, List.forall₂_map_left_iff]
    exact hall.imp fun v item hitem => ⟨v, hitem, rfl⟩

/-! ### What a rule makes of them -/

/-- The chain of the file an id stands for: the first one with that id. -/
def chainFor (root : Json) (id : PmxId) : Option Json :=
  (arrayItems (root.getItem "chains")).find? fun o => (chainFromJson o).id == id

/-- The query is decided by a rule that targets this chain of the file. -/
def TargetsChain (root : Json) (pf : PmxProfile) (q : PmxConnQuery) (o : Json) : Prop :=
  ∃ r, Decides pf q r ∧ r.action = .proxy ∧ r.targetKind = .chain ∧ chainFor root r.targetId = some o

/-- The hop names a proxy that is there and enabled. -/
def HopAlive (pf : PmxProfile) (hop : PmxId) : Prop :=
  ∃ p, pmxProfileFindProxy pf hop = some p ∧ p.enabled = true

/-- The chain found its place in the profile, it is enabled, it has a number among its elements, and
each of the first eight names a proxy that is there and enabled. -/
structure ChainUsable (pf : PmxProfile) (o : Json) : Prop where
  stored : pmxProfileFindChain pf (idOfInt (pmxJsonInt o "id" 0)) ≠ none
  enabled : pmxJsonBool o "enabled" true = true
  nonempty : hopNumbers o ≠ []
  alive : ∀ v ∈ hopNumbers o, HopAlive pf (hopOf v)

/-- An id that stands for a chain of the file is resolved to that chain, or to none if there was no
memory for it. -/
theorem findChain_of_chainFor (alloc : JsonAlloc) {root o : Json} {id : PmxId}
    (h : chainFor root id = some o) :
    pmxProfileFindChain (profileFromTree alloc root) id = some (chainFromJson o) ∨
      pmxProfileFindChain (profileFromTree alloc root) id = none := by
  obtain ⟨n, hn⟩ := storeItems_eq chainFromJson alloc.chains (arrayItems (root.getItem "chains")) 0 []
  have hfind : pmxProfileFindChain (profileFromTree alloc root) id =
      (((arrayItems (root.getItem "chains")).take n).find?
        fun o => (chainFromJson o).id == id).map chainFromJson := by
    show (storeItems chainFromJson alloc.chains 0 [] (arrayItems (root.getItem "chains"))).find? _ = _
    rw [hn, List.nil_append, List.find?_map]
    rfl
  rw [hfind]
  rw [chainFor, ← List.take_append_drop n (arrayItems (root.getItem "chains")), List.find?_append] at h
  cases hfirst : ((arrayItems (root.getItem "chains")).take n).find?
      fun o => (chainFromJson o).id == id with
  | none => exact Or.inr rfl
  | some o' =>
    rw [hfirst] at h
    exact Or.inl (congrArg _ h)

theorem chainFor_id {root o : Json} {id : PmxId} (h : chainFor root id = some o) :
    idOfInt (pmxJsonInt o "id" 0) = id := by
  rw [← chainFromJson_id]
  simpa using List.find?_some h

/-- The hop loop counts something exactly when there is something to count and every hop is alive. -/
theorem viaLoop_ne_zero (pf : PmxProfile) : ∀ (hops : List PmxId) (written : List PmxProxy),
    (viaLoop pf hops written).2 ≠ 0 ↔
      0 < written.length + hops.length ∧ ∀ hop ∈ hops, HopAlive pf hop := by
  intro hops
  induction hops with
  | nil =>
    intro written
    simp [viaLoop, Nat.pos_iff_ne_zero]
  | cons hop hops ih =>
    intro written
    have hdead : ¬HopAlive pf hop → ¬∀ hop' ∈ hop :: hops, HopAlive pf hop' :=
      fun h hall => h (hall hop List.mem_cons_self)
    rw [viaLoop]
    cases hf : pmxProfileFindProxy pf hop with
    | none =>
      refine iff_of_false (fun h => h rfl) (fun h => hdead ?_ h.2)
      rintro ⟨p, hp, -⟩
      rw [hf] at hp
      cases hp
    | some hp =>
      dsimp only
      split_ifs with hen
      · have halive : HopAlive pf hop := ⟨hp, hf, hen⟩
        rw [ih, List.length_append, List.length_singleton, List.length_cons, List.forall_mem_cons]
        constructor
        · rintro ⟨-, hrest⟩
          exact ⟨by omega, halive, hrest⟩
        · rintro ⟨-, -, hrest⟩
          exact ⟨by omega, hrest⟩
      · refine iff_of_false (fun h => h rfl) (fun h => hdead ?_ h.2)
        rintro ⟨p, hp', hen'⟩
        rw [hf] at hp'
        obtain rfl := Option.some.inj hp'
        exact hen hen'

/-- A chain that was found gets a path exactly when it is enabled, has hops, and all of them are
alive. -/
theorem resolveChainTarget_ne_zero {pf : PmxProfile} {id : PmxId} {c : PmxChain} {d : PmxDecision}
    (hfind : pmxProfileFindChain pf id = some c) (hd : d.viaCount = 0) :
    (resolveChainTarget pf id d).viaCount ≠ 0 ↔
      c.enabled = true ∧ c.hops ≠ [] ∧ ∀ hop ∈ c.hops, HopAlive pf hop := by
  have hfit : c.hops.take pmxMaxChainHops = c.hops := List.take_of_length_le c.hops_fit
  have hloop := viaLoop_ne_zero pf c.hops []
  have hlen : 0 < c.hops.length ↔ c.hops ≠ [] := List.length_pos_iff
  rw [List.length_nil, Nat.zero_add, hlen] at hloop
  rw [resolveChainTarget, hfind]
  dsimp only
  rw [hfit]
  split_ifs with hlive hred
  · -- redundancy: one hop is traversed, and only if more than one was written
    rw [Bool.and_eq_true, decide_eq_true_eq] at hlive
    exact iff_of_true Nat.one_ne_zero ⟨hlive.1, hloop.1 (by omega)⟩
  · rw [Bool.and_eq_true, decide_eq_true_eq] at hlive
    exact hloop.trans ⟨fun h => ⟨hlive.1, h⟩, fun h => h.2⟩
  · refine iff_of_false (fun h => h hd) ?_
    rintro ⟨hen, hne, -⟩
    rw [hen, Bool.true_and, decide_eq_true_eq] at hlive
    exact hlive (hlen.2 hne)

/-- A rule that proxies to a chain. -/
theorem pmxResolveWithProfile_chain {pf : PmxProfile} {q : PmxConnQuery}
    (haction : (chooseRule pf q).action = .proxy) (hkind : (chooseRule pf q).targetKind = .chain) :
    ∃ d, d.viaCount = 0 ∧
      pmxResolveWithProfile pf q = resolveChainTarget pf (chooseRule pf q).targetId d := by
  rw [pmxResolveWithProfile]
  simp only [haction, hkind]
  exact ⟨_, rfl, rfl⟩

/-- A query decided by a rule that targets a chain gets a path exactly when the chain can be used. -/
theorem viaCount_ne_zero_iff {alloc : JsonAlloc} {root o : Json} {q : PmxConnQuery}
    (htarget : TargetsChain root (profileFromTree alloc root) q o) :
    (pmxResolveWithProfile (profileFromTree alloc root) q).viaCount ≠ 0 ↔
      ChainUsable (profileFromTree alloc root) o := by
  obtain ⟨r, hr, haction, hkind, hfor⟩ := htarget
  obtain rfl := hr.eq_chooseRule
  obtain ⟨d, hd, heq⟩ := pmxResolveWithProfile_chain haction hkind
  have hid := chainFor_id hfor
  rw [heq]
  rcases findChain_of_chainFor alloc hfor with hfound | hlost
  · rw [resolveChainTarget_ne_zero hfound hd, chainFromJson_enabled, chainFromJson_hops,
      List.forall_mem_map, Ne, List.map_eq_nil_iff]
    constructor
    · rintro ⟨hen, hne, halive⟩
      exact ⟨by rw [hid, hfound]; exact Option.some_ne_none _, hen, hne, halive⟩
    · intro h
      exact ⟨h.enabled, h.nonempty, h.alive⟩
  · rw [resolveChainTarget, hlost]
    exact iff_of_false (fun h => h hd) (fun h => h.stored (by rw [hid, hlost]))

/-- **When a loaded chain is not shortened.**  For every text that is loaded and every chain in it that
is a path: it has a hop for each element of its array, in order, or every query decided by a rule that
targets it gets no path, exactly when the array holds at most eight numbers and nothing else, or the
chain cannot be used, or no rule that targets it decides a query. -/
theorem loadedChain_iff {C : CJson} {alloc : JsonAlloc} {pf₀ pf : PmxProfile} {text : CStr}
    {root : Json} (hparse : C.parse text = some root)
    (hload : pmxProfileFromJson C alloc pf₀ text = (pf, .ok)) {o : Json}
    (_ : o ∈ arrayItems (root.getItem "chains")) (_ : (chainFromJson o).mode ≠ .redundancy) :
    (OneHopEach o ∨
        ∀ q, TargetsChain root pf q o → (pmxResolveWithProfile pf q).viaCount = 0) ↔
      (HopsFit o ∨ ¬ChainUsable pf o ∨ ∀ q, ¬TargetsChain root pf q o) := by
  obtain rfl := eq_profileFromTree_of_loaded hparse hload
  rw [oneHopEach_iff]
  refine or_congr_right ⟨fun h => ?_, fun h q htarget => ?_⟩
  · by_cases husable : ChainUsable (profileFromTree alloc root) o
    · exact Or.inr fun q htarget => (viaCount_ne_zero_iff htarget).2 husable (h q htarget)
    · exact Or.inl husable
  · rcases h with hdead | hnone
    · exact not_not.1 fun hne => hdead ((viaCount_ne_zero_iff htarget).1 hne)
    · exact absurd htarget (hnone q)

/-- A chain over proxies 1 and 2, the second hop written as a string. -/
def quotedHopText : CStr :=
  ⟨cstr ([
    "\x7b\"format\":\"pmxprofile\",\"proxies\":[\x7b\"id\":1\x7d,\x7b\"id\":2\x7d],",
    "\"chains\":[\x7b\"id\":3,\"hops\":[1,\"2\"]\x7d],",
    "\"rules\":[\x7b\"action\":1,\"target_kind\":2,\"target_id\":3\x7d]\x7d"].flatMap bytes),
    nul_notMem_cstr _⟩

/-- Its chain. -/
def quotedHopChain : Json := .obj [("id", jsonInt 3), ("hops", .arr [jsonInt 1, jsonText "2"])]

/-- The tree of that text. -/
def quotedHopTree : Json :=
  .obj [("format", jsonText pmxProfileFormat),
    ("proxies", .arr [.obj [("id", jsonInt 1)], .obj [("id", jsonInt 2)]]),
    ("chains", .arr [quotedHopChain]),
    ("rules",
      .arr [.obj [("action", jsonInt 1), ("target_kind", jsonInt 2), ("target_id", jsonInt 3)]])]

theorem loadedChain_iff_quotedHop :
    (OneHopEach quotedHopChain ∨
        ∀ q, TargetsChain quotedHopTree (profileFromTree .unlimited quotedHopTree) q quotedHopChain →
          (pmxResolveWithProfile (profileFromTree .unlimited quotedHopTree) q).viaCount = 0) ↔
      (HopsFit quotedHopChain ∨
        ¬ChainUsable (profileFromTree .unlimited quotedHopTree) quotedHopChain ∨
        ∀ q, ¬TargetsChain quotedHopTree (profileFromTree .unlimited quotedHopTree) q quotedHopChain) :=
  loadedChain_iff (oneTextCJson_parse quotedHopText quotedHopTree)
    (pmxProfileFromJson_oneText rfl .unlimited pmxProfileInit quotedHopText)
    (List.mem_singleton.2 rfl) (by decide +kernel)

/-- The chain of two elements is loaded with one hop, and a query is sent through that one. -/
theorem not_loadedChain_quotedHop :
    ∃ pf, pmxProfileFromJson (oneTextCJson quotedHopText quotedHopTree) .unlimited pmxProfileInit
        quotedHopText = (pf, .ok) ∧
      quotedHopChain ∈ arrayItems (quotedHopTree.getItem "chains") ∧
      (chainFromJson quotedHopChain).mode = .sequential ∧
      (hopItems quotedHopChain).length = 2 ∧ (chainFromJson quotedHopChain).hops = [1] ∧
      TargetsChain quotedHopTree pf ⟨none, none, none, 443⟩ quotedHopChain ∧
      (pmxResolveWithProfile pf ⟨none, none, none, 443⟩).viaCount = 1 := by
  refine ⟨_, pmxProfileFromJson_oneText rfl _ _ _, List.mem_singleton.2 rfl, ?_, rfl, ?_, ?_, ?_⟩
  · decide +kernel
  · decide +kernel
  · refine ⟨_, decides_chooseRule _ _, ?_, ?_, ?_⟩
    · decide +kernel
    · decide +kernel
    · rfl
  · decide +kernel

end ProxiMight
