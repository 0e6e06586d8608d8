import ProxiMight.Runs

/-!
# Infinite runs that are fair

An infinite run takes its events from a schedule.  A kind of event is fair in it if such events come again
and again; `LeadsTo P Q` says that a state in `P` is followed by a state in `Q`, at once or later.

* **`leadsTo_of_helpful`** — if `P` stays until `Q` holds, and an event of a fair kind brings about `Q`,
  then `P` leads to `Q`.
* **`leadsTo_of_rank`** — if a state in `P` leads to one of lower rank as long as `Q` does not hold, then
  `P` leads to `Q`.
-/

namespace Runs

variable {σ ε : Type*}

/-- The state before event `n` of the schedule. -/
def stateAt (step : σ → ε → σ) (s : σ) (sched : ℕ → ε) : ℕ → σ
  | 0 => s
  | n + 1 => step (stateAt step s sched n) (sched n)

/-- Events of the kind come again and again. -/
def Often (sched : ℕ → ε) (G : ε → Prop) : Prop := ∀ n, ∃ m, n ≤ m ∧ G (sched m)

/-- A state in `P` is followed by one in `Q`. -/
def LeadsTo (run : ℕ → σ) (P Q : σ → Prop) : Prop := ∀ n, P (run n) → ∃ m, n ≤ m ∧ Q (run m)

variable {step : σ → ε → σ} {s : σ} {sched : ℕ → ε} {run : ℕ → σ} {P Q R : σ → Prop}

/-- The run rule, for schedules with events of a kind only. -/
theorem stateAt_inv (Inv : σ → Prop) {A : ε → Prop} (hstep : ∀ s e, A e → Inv s → Inv (step s e))
    (hsched : ∀ n, A (sched n)) (hs : Inv s) : ∀ n, Inv (stateAt step s sched n) := by
  intro n
  induction n with
  | zero => exact hs
  | succ n ih => exact hstep _ _ (hsched n) ih

theorem LeadsTo.trans (h : LeadsTo run P Q) (h' : LeadsTo run Q R) : LeadsTo run P R := by
  intro n hP
  obtain ⟨m, hnm, hQ⟩ := h n hP
  obtain ⟨k, hmk, hR⟩ := h' m hQ
  exact ⟨k, Nat.le_trans hnm hmk, hR⟩

theorem LeadsTo.of_imp (h : ∀ n, P (run n) → Q (run n)) : LeadsTo run P Q :=
  fun n hP => ⟨n, Nat.le_refl n, h n hP⟩

/-- One of two ways to go on. -/
theorem LeadsTo.or (h : LeadsTo run P R) (h' : LeadsTo run Q R) :
    LeadsTo run (fun s => P s ∨ Q s) R := by
  intro n hPQ
  rcases hPQ with hP | hQ
  · exact h n hP
  · exact h' n hQ

/-- What stays until `Q` holds is there at every later moment before. -/
theorem stays_until (hstays : ∀ n, P (run n) → P (run (n + 1)) ∨ Q (run (n + 1))) {n : ℕ} (hP : P (run n)) :
    ∀ k, P (run (n + k)) ∨ ∃ m, n ≤ m ∧ Q (run m) := by
  intro k
  induction k with
  | zero => exact Or.inl hP
  | succ k ih =>
    rcases ih with hk | hQ
    · rcases hstays (n + k) hk with hP' | hQ'
      · exact Or.inl hP'
      · exact Or.inr ⟨n + k + 1, by omega, hQ'⟩
    · exact Or.inr hQ

/-- **A fair event helps.** -/
theorem leadsTo_of_helpful {G : ε → Prop} (hoften : Often sched G)
    (hstays : ∀ n, P (stateAt step s sched n) →
      P (stateAt step s sched (n + 1)) ∨ Q (stateAt step s sched (n + 1)))
    (hhelps : ∀ n, P (stateAt step s sched n) → G (sched n) → Q (stateAt step s sched (n + 1))) :
    LeadsTo (stateAt step s sched) P Q := by
  intro n hP
  obtain ⟨m, hnm, hG⟩ := hoften n
  obtain ⟨k, rfl⟩ := Nat.exists_eq_add_of_le hnm
  rcases stays_until hstays hP k with hk | hQ
  · exact ⟨n + k + 1, by omega, hhelps (n + k) hk hG⟩
  · exact hQ

/-- **Ever lower ranks.** -/
theorem leadsTo_of_rank (rank : σ → ℕ)
    (h : ∀ r, LeadsTo run (fun s => P s ∧ rank s = r) fun s => Q s ∨ P s ∧ rank s < r) :
    LeadsTo run P Q := by
  have hall : ∀ r n, P (run n) → rank (run n) = r → ∃ m, n ≤ m ∧ Q (run m) := by
    intro r
    induction r using Nat.strongRecOn with
    | ind r ih =>
      intro n hP hr
      obtain ⟨m, hnm, hQ | ⟨hP', hlt⟩⟩ := h r n ⟨hP, hr⟩
      · exact ⟨m, hnm, hQ⟩
      · obtain ⟨k, hmk, hQ⟩ := ih _ hlt m hP' rfl
        exact ⟨k, Nat.le_trans hnm hmk, hQ⟩
  exact fun n hP => hall _ n hP rfl

/-- Both rules at once: `P` stays, its rank is not raised, and an event of a fair kind lowers it. -/
theorem leadsTo_of_helpful_rank (rank : σ → ℕ) {G : ε → Prop} (hoften : Often sched G)
    (hstays : ∀ n, P (stateAt step s sched n) → Q (stateAt step s sched (n + 1)) ∨
      P (stateAt step s sched (n + 1)) ∧
        rank (stateAt step s sched (n + 1)) ≤ rank (stateAt step s sched n))
    (hhelps : ∀ n, P (stateAt step s sched n) → G (sched n) → Q (stateAt step s sched (n + 1)) ∨
      P (stateAt step s sched (n + 1)) ∧
        rank (stateAt step s sched (n + 1)) < rank (stateAt step s sched n)) :
    LeadsTo (stateAt step s sched) P Q := by
  apply leadsTo_of_rank rank
  intro r
  apply leadsTo_of_helpful hoften
  · rintro n ⟨hP, rfl⟩
    rcases hstays n hP with hQ | ⟨hP', hle⟩
    · exact Or.inr (Or.inl hQ)
    · rcases Nat.lt_or_eq_of_le hle with hlt | heq
      · exact Or.inr (Or.inr ⟨hP', hlt⟩)
      · exact Or.inl ⟨hP', heq⟩
  · rintro n ⟨hP, rfl⟩ hG
    exact hhelps n hP hG

end Runs
