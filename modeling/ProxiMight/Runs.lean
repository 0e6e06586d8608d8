import Mathlib.Data.List.Basic
import Mathlib.Tactic.Common

/-!
# Runs of a step function

A deterministic system is a step function `σ → ε → σ`; a run is a list of events.  Two predicates
speak about a run as a whole: `EachStep C` (every step, seen with the state it starts from, meets `C`)
and `EachState P` (every state visited, the first one included, meets `P`).

* **`runFrom_inv`** — what one step preserves, a run preserves.
* **`eachState_iff_eachStep`** — if, under an invariant, a step keeps `P` exactly when it meets `C`,
  then `P` holds in every state of a run exactly when every step of the run meets `C`.
-/

namespace Runs

variable {σ ε : Type*}

/-- The state a sequence of events leads to. -/
def runFrom (step : σ → ε → σ) (s : σ) (evs : List ε) : σ := evs.foldl step s

/-- Every step of the run, seen with the state it starts from, meets `C`. -/
def EachStep (step : σ → ε → σ) (C : σ → ε → Prop) : σ → List ε → Prop
  | _, [] => True
  | s, e :: es => C s e ∧ EachStep step C (step s e) es

/-- Every state visited by the run, the first one included, meets `P`. -/
def EachState (step : σ → ε → σ) (P : σ → Prop) : σ → List ε → Prop
  | s, [] => P s
  | s, e :: es => P s ∧ EachState step P (step s e) es

instance instDecidableEachStep {step : σ → ε → σ} {C : σ → ε → Prop}
    [∀ s e, Decidable (C s e)] : ∀ (s : σ) (es : List ε), Decidable (EachStep step C s es)
  | _, [] => isTrue trivial
  | s, e :: es =>
    have : Decidable (EachStep step C (step s e) es) := instDecidableEachStep (step s e) es
    inferInstanceAs (Decidable (C s e ∧ EachStep step C (step s e) es))

variable {step : σ → ε → σ} {P : σ → Prop} {C D : σ → ε → Prop}

@[simp] theorem runFrom_nil (s : σ) : runFrom step s [] = s := rfl

@[simp] theorem runFrom_cons (s : σ) (e : ε) (es : List ε) :
    runFrom step s (e :: es) = runFrom step (step s e) es := rfl

theorem eachStep_append (es fs : List ε) : ∀ s : σ,
    EachStep step C s (es ++ fs) ↔ EachStep step C s es ∧ EachStep step C (runFrom step s es) fs := by
  induction es with
  | nil => exact fun s => ⟨fun h => ⟨trivial, h⟩, fun h => h.2⟩
  | cons e es ih => exact fun s => (and_congr_right' (ih (step s e))).trans and_assoc.symm

theorem EachStep.and : ∀ {es : List ε} {s : σ}, EachStep step C s es → EachStep step D s es →
    EachStep step (fun s e => C s e ∧ D s e) s es := by
  intro es
  induction es with
  | nil => exact fun _ _ => trivial
  | cons e es ih => exact fun hC hD => ⟨⟨hC.1, hD.1⟩, ih hC.2 hD.2⟩

/-- **The run rule.**  What every step preserves holds after every run. -/
theorem runFrom_inv (Inv : σ → Prop) (hstep : ∀ s e, Inv s → Inv (step s e)) :
    ∀ (es : List ε) (s : σ), Inv s → Inv (runFrom step s es) := by
  intro es
  induction es with
  | nil => intro s hs; exact hs
  | cons e es ih => intro s hs; exact ih (step s e) (hstep s e hs)

/-- The run rule where only events of a kind keep the invariant, and the run has no others. -/
theorem runFrom_inv_of_mem (Inv : σ → Prop) {G : ε → Prop}
    (hstep : ∀ s e, G e → Inv s → Inv (step s e)) :
    ∀ (es : List ε) (s : σ), (∀ e ∈ es, G e) → Inv s → Inv (runFrom step s es) := by
  intro es
  induction es with
  | nil => intro s _ hs; exact hs
  | cons e es ih =>
    intro s hes hs
    exact ih (step s e) (fun e' he' => hes e' (List.mem_cons_of_mem e he'))
      (hstep s e (hes e List.mem_cons_self) hs)

theorem EachState.head {s : σ} {es : List ε} (h : EachState step P s es) : P s := by
  cases es with
  | nil => exact h
  | cons e es => exact h.1

/-- **Safety from steps**, in a run that has only events of a kind.  If such a step keeps `P` exactly when
it meets `C`, then the run visits only states in `P` exactly when all its steps meet `C`. -/
theorem eachState_iff_eachStep_of_mem (Inv : σ → Prop) {G : ε → Prop}
    (hinv : ∀ s e, G e → Inv s → Inv (step s e))
    (hiff : ∀ s e, G e → Inv s → P s → (P (step s e) ↔ C s e)) :
    ∀ (es : List ε) (s : σ), (∀ e ∈ es, G e) → Inv s → P s →
      (EachState step P s es ↔ EachStep step C s es) := by
  intro es
  induction es with
  | nil => intro s _ _ hP; exact ⟨fun _ => trivial, fun _ => hP⟩
  | cons e es ih =>
    intro s hes hI hP
    have he : G e := hes e List.mem_cons_self
    have hes' : ∀ e' ∈ es, G e' := fun e' he' => hes e' (List.mem_cons_of_mem e he')
    have hI' := hinv s e he hI
    constructor
    · intro h
      have hP' : P (step s e) := h.2.head
      exact ⟨(hiff s e he hI hP).1 hP', (ih _ hes' hI' hP').1 h.2⟩
    · intro h
      have hP' : P (step s e) := (hiff s e he hI hP).2 h.1
      exact ⟨hP, (ih _ hes' hI' hP').2 h.2⟩

/-- The same where every event will do. -/
theorem eachState_iff_eachStep (Inv : σ → Prop) (hinv : ∀ s e, Inv s → Inv (step s e))
    (hiff : ∀ s e, Inv s → P s → (P (step s e) ↔ C s e)) (es : List ε) (s : σ) (hI : Inv s) (hP : P s) :
    EachState step P s es ↔ EachStep step C s es :=
  eachState_iff_eachStep_of_mem Inv (G := fun _ => True) (fun s e _ => hinv s e) (fun s e _ => hiff s e) es s
    (fun _ _ => trivial) hI hP

/-- Two step conditions that agree under an invariant agree on runs. -/
theorem eachStep_congr (Inv : σ → Prop) (hinv : ∀ s e, Inv s → Inv (step s e))
    (hiff : ∀ s e, Inv s → (C s e ↔ D s e)) :
    ∀ (es : List ε) (s : σ), Inv s → (EachStep step C s es ↔ EachStep step D s es) := by
  intro es
  induction es with
  | nil => intro s _; exact Iff.rfl
  | cons e es ih => intro s hI; exact and_congr (hiff s e hI) (ih _ (hinv s e hI))

/-- What an invariant says about every step, over a run. -/
theorem eachStep_of_inv (Inv : σ → Prop) (hinv : ∀ s e, Inv s → Inv (step s e))
    (hC : ∀ s e, Inv s → C s e) :
    ∀ (es : List ε) (s : σ), Inv s → EachStep step C s es := by
  intro es
  induction es with
  | nil => intro s _; trivial
  | cons e es ih => intro s hI; exact ⟨hC s e hI, ih _ (hinv s e hI)⟩

/-- What an invariant says about every state, over a run. -/
theorem eachState_of_inv (Inv : σ → Prop) (hinv : ∀ s e, Inv s → Inv (step s e))
    (hP : ∀ s, Inv s → P s) :
    ∀ (es : List ε) (s : σ), Inv s → EachState step P s es := by
  intro es
  induction es with
  | nil => intro s hI; exact hP s hI
  | cons e es ih => intro s hI; exact ⟨hP s hI, ih _ (hinv s e hI)⟩

/-- **The guarded run rule.**  If a step that meets `C` meets `D` and keeps the invariant, then a run
whose steps all meet `C` has only steps that meet `D`. -/
theorem eachStep_of_guarded (Inv : σ → Prop) (hstep : ∀ s e, Inv s → C s e → D s e ∧ Inv (step s e)) :
    ∀ (es : List ε) (s : σ), Inv s → EachStep step C s es → EachStep step D s es := by
  intro es
  induction es with
  | nil => intro s _ _; trivial
  | cons e es ih =>
    intro s hI h
    obtain ⟨hD, hI'⟩ := hstep s e hI h.1
    exact ⟨hD, ih _ hI' h.2⟩

/-- The same for the state the run leads to. -/
theorem runFrom_of_guarded (Inv : σ → Prop) (hstep : ∀ s e, Inv s → C s e → Inv (step s e)) :
    ∀ (es : List ε) (s : σ), Inv s → EachStep step C s es → Inv (runFrom step s es) := by
  intro es
  induction es with
  | nil => intro s hI _; exact hI
  | cons e es ih => intro s hI h; exact ih (step s e) (hstep s e hI h.1) h.2

/-- The same for every state on the way. -/
theorem eachState_of_guarded (Inv : σ → Prop) (hstep : ∀ s e, Inv s → C s e → Inv (step s e))
    (hP : ∀ s, Inv s → P s) :
    ∀ (es : List ε) (s : σ), Inv s → EachStep step C s es → EachState step P s es := by
  intro es
  induction es with
  | nil => intro s hI _; exact hP s hI
  | cons e es ih => intro s hI h; exact ⟨hP s hI, ih (step s e) (hstep s e hI h.1) h.2⟩

/-- **The ranking rule.**  If no step raises the rank under an invariant, and a step of a kind lowers it, then
as many steps of that kind as the rank counts bring it to zero. -/
theorem runFrom_rank_eq_zero (Inv : σ → Prop) (rank : σ → ℕ) {A : ε → Prop} {G : ε → Bool}
    (hinv : ∀ s e, A e → Inv s → Inv (step s e))
    (hle : ∀ s e, A e → Inv s → rank (step s e) ≤ rank s)
    (hlt : ∀ s e, A e → Inv s → G e = true → 0 < rank s → rank (step s e) < rank s) :
    ∀ (es : List ε) (s : σ), (∀ e ∈ es, A e) → Inv s → rank s ≤ es.countP G →
      rank (runFrom step s es) = 0 := by
  intro es
  induction es with
  | nil =>
    intro s _ _ hrank
    exact Nat.le_zero.1 hrank
  | cons e es ih =>
    intro s hes hI hrank
    have he : A e := hes e List.mem_cons_self
    apply ih (step s e) (fun e' he' => hes e' (List.mem_cons_of_mem e he')) (hinv s e he hI)
    rw [List.countP_cons] at hrank
    have hstep := hle s e he hI
    split_ifs at hrank with hG
    · rcases Nat.eq_zero_or_pos (rank s) with hzero | hpos
      · omega
      · have := hlt s e he hI hG hpos
        omega
    · omega

/-- **The counting rule.**  If under an invariant no step raises the rank, and a step of a kind lowers it, then
the run has no more steps of that kind than the rank counted at its start. -/
theorem countP_add_rank_le (Inv : σ → Prop) (rank : σ → ℕ) {G : ε → Bool}
    (hinv : ∀ s e, Inv s → C s e → Inv (step s e))
    (hrank : ∀ s e, Inv s → C s e → if G e then rank (step s e) < rank s else rank (step s e) ≤ rank s) :
    ∀ (es : List ε) (s : σ), Inv s → EachStep step C s es →
      es.countP G + rank (runFrom step s es) ≤ rank s := by
  intro es
  induction es with
  | nil =>
    intro s _ _
    rw [List.countP_nil, Nat.zero_add]
    exact Nat.le_refl _
  | cons e es ih =>
    intro s hI h
    have hrest := ih (step s e) (hinv s e hI h.1) h.2
    have hstep := hrank s e hI h.1
    rw [List.countP_cons, runFrom_cons]
    split_ifs at hstep ⊢ <;> omega

/-- The state a sequence of steps that may fail leads to, if none fails. -/
def runPartial (step : σ → ε → Option σ) : σ → List ε → Option σ
  | s, [] => some s
  | s, e :: es => (step s e).bind fun s' => runPartial step s' es

/-- **The run rule for steps that may fail.**  If no step fails under an invariant, and each keeps it, then
no run fails, and each keeps it. -/
theorem runPartial_inv {step : σ → ε → Option σ} (Inv : σ → Prop)
    (hstep : ∀ s e, Inv s → ∃ s', step s e = some s' ∧ Inv s') :
    ∀ (es : List ε) (s : σ), Inv s → ∃ s', runPartial step s es = some s' ∧ Inv s' := by
  intro es
  induction es with
  | nil => intro s hs; exact ⟨s, rfl, hs⟩
  | cons e es ih =>
    intro s hs
    obtain ⟨s₁, hs₁, hinv⟩ := hstep s e hs
    obtain ⟨s', hs', hinv'⟩ := ih s₁ hinv
    refine ⟨s', ?_, hinv'⟩
    rw [runPartial, hs₁]
    exact hs'

theorem runPartial_append {step : σ → ε → Option σ} (es fs : List ε) (s : σ) :
    runPartial step s (es ++ fs) = (runPartial step s es).bind fun s' => runPartial step s' fs := by
  induction es generalizing s with
  | nil => rfl
  | cons e es ih =>
    rw [List.cons_append, runPartial, runPartial]
    cases step s e with
    | none => rfl
    | some s₁ => exact ih s₁

/-- `EachState` through the states at the end of every prefix of the run. -/
theorem eachState_iff_prefix :
    ∀ (es : List ε) (s : σ),
      EachState step P s es ↔ ∀ pre post, es = pre ++ post → P (runFrom step s pre) := by
  intro es
  induction es with
  | nil =>
    intro s
    constructor
    · intro h pre post hsplit
      obtain ⟨rfl, rfl⟩ := List.append_eq_nil_iff.1 hsplit.symm
      exact h
    · intro h
      exact h [] [] rfl
  | cons e es ih =>
    intro s
    constructor
    · intro h pre post hsplit
      cases pre with
      | nil => exact h.1
      | cons e' pre =>
        obtain ⟨rfl, hes⟩ := List.cons.inj hsplit
        exact (ih (step s e)).1 h.2 pre post hes
    · intro h
      refine ⟨h [] (e :: es) rfl, (ih (step s e)).2 ?_⟩
      intro pre post hes
      exact h (e :: pre) post (by rw [hes, List.cons_append])

end Runs
