import ProxiMight.LoadedChains

/-!
# A profile that is loaded in part

An array of a profile grows by doubling.  Where a reservation fails, the loop that reads the array stops,
and the load still succeeds with what has been stored so far; nothing tells the engine that the rest is
missing.

* **`storeItems_length_iff`** — one array is stored whole exactly if each growth it needs is granted.
* **`loadedWhole_iff`** — so is the profile.
-/

namespace ProxiMight

open CString

/-- The capacity after `PMX_GROW`. -/
def nextCap (cap : ℕ) : ℕ := if cap = 0 then 8 else cap * 2

/-- An array of `size` elements, filled from empty, gets the memory each time it is full: at capacity 0,
then 8, 16, 32 and so on. -/
def GrowsTo (alloc : ℕ → Bool) (size : ℕ) : Prop :=
  ∀ k, nextCap^[k] 0 < size → alloc (nextCap^[k] 0) = true

/-- A capacity is never lowered. -/
theorem le_iterate_nextCap (cap k : ℕ) : cap ≤ nextCap^[k] cap := by
  induction k with
  | zero => exact Nat.le_refl cap
  | succ k ih =>
    rw [Function.iterate_succ_apply', nextCap]
    split_ifs <;> omega

/-- The growths still needed from a capacity on. -/
theorem storeItems_length_from {α : Type} (read : Json → α) (alloc : ℕ → Bool) :
    ∀ (items : List Json) (cap : ℕ) (stored : List α), stored.length ≤ cap →
      ((storeItems read alloc cap stored items).length = stored.length + items.length ↔
        ∀ k, nextCap^[k] cap < stored.length + items.length → alloc (nextCap^[k] cap) = true) := by
  intro items
  induction items with
  | nil =>
    intro cap stored hcap
    exact iff_of_true rfl fun k hk => absurd hk (Nat.not_lt.2 (hcap.trans (le_iterate_nextCap cap k)))
  | cons o rest ih =>
    intro cap stored hcap
    have hmove : stored.length + (o :: rest).length = (stored ++ [read o]).length + rest.length := by
      rw [List.length_append, List.length_singleton, List.length_cons]
      omega
    have hstored : (stored ++ [read o]).length = stored.length + 1 := by
      rw [List.length_append, List.length_singleton]
    rw [storeItems, hmove]
    by_cases hfull : stored.length ≥ cap
    · rw [if_pos hfull]
      obtain rfl : stored.length = cap := Nat.le_antisymm hcap hfull
      by_cases hok : alloc stored.length = true
      · have hgrow : (stored ++ [read o]).length ≤ nextCap stored.length := by
          rw [hstored, nextCap]
          split_ifs <;> omega
        rw [if_pos hok]
        refine (ih (nextCap stored.length) (stored ++ [read o]) hgrow).trans ?_
        constructor
        · intro h k hk
          cases k with
          | zero => exact hok
          | succ k =>
            rw [Function.iterate_succ_apply] at hk ⊢
            exact h k hk
        · intro h k hk
          rw [← Function.iterate_succ_apply] at hk ⊢
          exact h (k + 1) hk
      · rw [if_neg hok, hstored]
        refine iff_of_false (by omega) fun h => hok (h 0 ?_)
        rw [Function.iterate_zero_apply]
        omega
    · rw [if_neg hfull]
      exact ih cap (stored ++ [read o]) (by omega)

/-- An array is stored whole exactly if it gets the memory each time it is full. -/
theorem storeItems_length_iff {α : Type} (read : Json → α) (alloc : ℕ → Bool) (items : List Json) :
    (storeItems read alloc 0 [] items).length = items.length ↔ GrowsTo alloc items.length := by
  have hfrom := storeItems_length_from read alloc items 0 [] (Nat.le_refl 0)
  rwa [List.length_nil, Nat.zero_add] at hfrom

/-- Every element of the four arrays of the file is in the profile. -/
structure LoadedWhole (root : Json) (pf : PmxProfile) : Prop where
  proxies : pf.proxies.length = (arrayItems (root.getItem "proxies")).length
  chains : pf.chains.length = (arrayItems (root.getItem "chains")).length
  vpns : pf.vpns.length = (arrayItems (root.getItem "vpns")).length
  rules : pf.rules.length = (arrayItems (root.getItem "rules")).length

/-- Every growth that the four arrays of the file need is granted. -/
structure GrowthGranted (root : Json) (alloc : JsonAlloc) : Prop where
  proxies : GrowsTo alloc.proxies (arrayItems (root.getItem "proxies")).length
  chains : GrowsTo alloc.chains (arrayItems (root.getItem "chains")).length
  vpns : GrowsTo alloc.vpns (arrayItems (root.getItem "vpns")).length
  rules : GrowsTo alloc.rules (arrayItems (root.getItem "rules")).length

/-- **When a profile is loaded whole.**  A text that is loaded gives a profile with all its elements
exactly if every growth its arrays need is granted. -/
theorem loadedWhole_iff {C : CJson} {alloc : JsonAlloc} {pf₀ pf : PmxProfile} {text : CStr} {root : Json}
    (hparse : C.parse text = some root) (hload : pmxProfileFromJson C alloc pf₀ text = (pf, .ok)) :
    LoadedWhole root pf ↔ GrowthGranted root alloc := by
  obtain rfl := eq_profileFromTree_of_loaded hparse hload
  constructor
  · intro h
    exact ⟨(storeItems_length_iff _ _ _).1 h.proxies, (storeItems_length_iff _ _ _).1 h.chains,
      (storeItems_length_iff _ _ _).1 h.vpns, (storeItems_length_iff _ _ _).1 h.rules⟩
  · intro h
    exact ⟨(storeItems_length_iff _ _ _).2 h.proxies, (storeItems_length_iff _ _ _).2 h.chains,
      (storeItems_length_iff _ _ _).2 h.vpns, (storeItems_length_iff _ _ _).2 h.rules⟩

/-- With memory for everything the chain over two proxies is loaded whole. -/
theorem loadedWhole_iff_quotedHop :
    LoadedWhole quotedHopTree (profileFromTree .unlimited quotedHopTree) :=
  (loadedWhole_iff (oneTextCJson_parse quotedHopText quotedHopTree)
    (pmxProfileFromJson_oneText rfl .unlimited pmxProfileInit quotedHopText)).2
    ⟨fun _ _ => rfl, fun _ _ => rfl, fun _ _ => rfl, fun _ _ => rfl⟩

/-- A file with one rule, which blocks everything. -/
def blockAllText : CStr :=
  ⟨cstr (bytes "\x7b\"format\":\"pmxprofile\",\"rules\":[\x7b\"action\":2\x7d]\x7d"), nul_notMem_cstr _⟩

/-- The tree of that text. -/
def blockAllTree : Json :=
  .obj [("format", jsonText pmxProfileFormat), ("rules", .arr [.obj [("action", jsonInt 2)]])]

/-- With no memory for the rules the load succeeds, and the profile blocks nothing. -/
theorem not_loadedWhole_blockAll :
    ∃ pf, pmxProfileFromJson (oneTextCJson blockAllText blockAllTree)
        { JsonAlloc.unlimited with rules := fun _ => false } pmxProfileInit blockAllText = (pf, .ok) ∧
      (arrayItems (blockAllTree.getItem "rules")).length = 1 ∧ pf.rules = [] ∧
      (pmxResolveWithProfile pf ⟨none, none, none, 443⟩).verdict = .direct := by
  refine ⟨_, pmxProfileFromJson_oneText rfl _ _ _, rfl, rfl, ?_⟩
  decide +kernel

end ProxiMight
