import ProxiMight.ConnectionLog
import ProxiMight.RingBuffer

/-!
# What the Connections view shows (`pmx_engine_recent_events`, `pmx_engine_clear_events`)

Events stand in a ring of 512 slots.  A view asks for the latest of them, and a user may clear the list,
which resets the ring and leaves the slots as they are.

* **`recentEvents_eq`** — the view gets the latest events recorded since the last clear, oldest first.
-/

namespace ProxiMight

open CString RingBuffer

/-- A zeroed `pmx_conn_event`. -/
def zeroEvent : PmxConnEvent := ⟨0, 0, .empty, .empty, 0, .direct, .empty, .empty⟩

/-- `pmx_engine_recent_events`: what is written to `out`, and so how much. -/
def pmxEngineRecentEvents (ring : EventRing) (max : ℕ) : List PmxConnEvent :=
  if max = 0 then []
  else
    let n := if ring.len < max then ring.len else max
    let start := ring.len - n
    (List.range n).map fun i => ring.slots.getD ((ring.head + start + i) % pmxEventRing) zeroEvent

/-- `pmx_engine_clear_events`. -/
def pmxEngineClearEvents (ring : EventRing) : EventRing := { ring with head := 0, len := 0 }

/-- A call that writes to the ring. -/
inductive EventOp
  | record (f : PmxFlow) (d : PmxDecision)
  | clear

def eventStep (ring : EventRing) : EventOp → EventRing
  | .record f d => recordEvent ring (connEvent f d)
  | .clear => pmxEngineClearEvents ring

/-- The ring of a created engine. -/
def eventRingCreate : EventRing := ⟨[], 0, 0⟩

/-- The events recorded since the last clear, after one more call. -/
def loggedSince (log : List PmxConnEvent) : EventOp → List PmxConnEvent
  | .record f d => log ++ [connEvent f d]
  | .clear => []

/-- The events recorded since the last clear. -/
def sinceClear (ops : List EventOp) : List PmxConnEvent := ops.foldl loggedSince []

/-! ### The ring -/

/-- The slots that are in use have been written, and while there is room the oldest event is the first. -/
structure RingShows (ring : EventRing) (log : List PmxConnEvent) : Prop where
  shows_log : Shows pmxEventRing (fun j => ring.slots[j]?) ring.head ring.len log
  written : ring.len ≤ ring.slots.length
  front : ring.len < pmxEventRing → ring.head = 0

theorem ringShows_create : RingShows eventRingCreate [] :=
  ⟨Shows.empty (by decide) _, Nat.le_refl 0, fun _ => rfl⟩

/-- What a write does to the slots. -/
theorem getElem?_write (slots : List PmxConnEvent) {idx : ℕ} (hidx : idx ≤ slots.length) (ev : PmxConnEvent) :
    let slots' := if idx < slots.length then slots.set idx ev else slots ++ [ev]
    slots'[idx]? = some ev ∧ (∀ j, j ≠ idx → slots'[j]? = slots[j]?) ∧ idx < slots'.length ∧
      slots.length ≤ slots'.length := by
  dsimp only
  split_ifs with hlt
  · refine ⟨List.getElem?_set_self hlt, fun j hj => List.getElem?_set_ne (Ne.symm hj), ?_, ?_⟩ <;>
      rw [List.length_set]
    exact hlt
  · have heq : idx = slots.length := by omega
    refine ⟨by rw [heq, List.getElem?_concat_length], fun j hj => ?_, ?_, ?_⟩
    · by_cases hbelow : j < slots.length
      · rw [List.getElem?_append_left hbelow]
      · rw [List.getElem?_eq_none (by rw [List.length_append, List.length_singleton]; omega),
          List.getElem?_eq_none (by omega)]
    · rw [List.length_append, List.length_singleton]
      omega
    · rw [List.length_append]
      omega

theorem RingShows.record {ring : EventRing} {log : List PmxConnEvent} (h : RingShows ring log)
    (ev : PmxConnEvent) : RingShows (recordEvent ring ev) (log ++ [ev]) := by
  have hwritten := h.written
  rw [recordEvent]
  by_cases hroom : ring.len < pmxEventRing
  · rw [if_pos hroom]
    have hplace : (ring.head + ring.len) % pmxEventRing = ring.len := by
      rw [h.front hroom, Nat.zero_add, Nat.mod_eq_of_lt hroom]
    have hidx : (ring.head + ring.len) % pmxEventRing ≤ ring.slots.length := by
      rw [hplace]
      exact hwritten
    obtain ⟨hnew, hold, hlt, hle⟩ := getElem?_write ring.slots hidx ev
    refine ⟨h.shows_log.room hroom hnew hold, ?_, fun _ => h.front hroom⟩
    show ring.len + 1 ≤ _
    rw [hplace] at hlt
    rw [hplace]
    exact hlt
  · rw [if_neg hroom]
    have hfull : ring.len = pmxEventRing := Nat.le_antisymm h.shows_log.len_le (Nat.le_of_not_lt hroom)
    have hhead : ring.head < ring.slots.length := by
      have hlt := h.shows_log.head_lt
      omega
    refine ⟨h.shows_log.full hfull (List.getElem?_set_self hhead)
      fun j hj => List.getElem?_set_ne (Ne.symm hj), ?_, fun hless => absurd hless hroom⟩
    show ring.len ≤ (ring.slots.set ring.head ev).length
    rw [List.length_set]
    exact hwritten

theorem ringShows_clear (ring : EventRing) : RingShows (pmxEngineClearEvents ring) [] :=
  ⟨Shows.empty (by decide) _, Nat.zero_le _, fun _ => rfl⟩

/-- What a view reads off a ring. -/
theorem RingShows.recent {ring : EventRing} {log : List PmxConnEvent} (h : RingShows ring log) (max : ℕ) :
    pmxEngineRecentEvents ring max = log.rtake (min max (min pmxEventRing log.length)) := by
  have hlen := h.shows_log.len_eq
  by_cases hzero : max = 0
  · rw [pmxEngineRecentEvents, if_pos hzero, hzero, Nat.zero_min, List.rtake_zero]
  · have hn : (if ring.len < max then ring.len else max) = min max (min pmxEventRing log.length) := by
      split_ifs <;> omega
    rw [pmxEngineRecentEvents, if_neg hzero, hn]
    generalize hk : min max (min pmxEventRing log.length) = k
    have hle : k ≤ ring.len := by omega
    apply List.ext_getElem?
    intro i
    by_cases hi : i < k
    · have hslot := h.shows_log.recent hle i hi
      have hlt : i < (log.rtake k).length := by
        rw [length_rtake]
        omega
      rw [List.getElem?_eq_getElem hlt] at hslot ⊢
      rw [List.getElem?_map, List.getElem?_range hi]
      show some (ring.slots.getD ((ring.head + (ring.len - k) + i) % pmxEventRing) zeroEvent) = _
      rw [Nat.add_assoc, List.getD_eq_getElem?_getD]
      exact congrArg some (congrArg (Option.getD · zeroEvent) hslot)
    · rw [List.getElem?_eq_none (by rw [List.length_map, List.length_range]; omega),
        List.getElem?_eq_none (by rw [length_rtake]; omega)]

/-! ### Runs -/

theorem foldl_eventStep (ops : List EventOp) {ring : EventRing} {log : List PmxConnEvent}
    (h : RingShows ring log) :
    RingShows (ops.foldl eventStep ring) (ops.foldl loggedSince log) := by
  induction ops generalizing ring log with
  | nil => exact h
  | cons op ops ih =>
    cases op with
    | record f d => exact ih (h.record (connEvent f d))
    | clear => exact ih (ringShows_clear ring)

/-- **The view gets the latest events since the last clear**, oldest first. -/
theorem recentEvents_eq (ops : List EventOp) (max : ℕ) :
    pmxEngineRecentEvents (ops.foldl eventStep eventRingCreate) max =
      (sinceClear ops).rtake (min max (min 512 (sinceClear ops).length)) :=
  (foldl_eventStep ops ringShows_create).recent max

theorem foldl_recordEvent (evs : List PmxConnEvent) {ring : EventRing} {log : List PmxConnEvent}
    (h : RingShows ring log) : RingShows (evs.foldl recordEvent ring) (log ++ evs) := by
  induction evs generalizing ring log with
  | nil =>
    rw [List.append_nil]
    exact h
  | cons ev evs ih =>
    have hrest := ih (h.record ev)
    rwa [List.append_assoc] at hrest

/-- What an engine shows of its log while nobody clears it. -/
theorem LogKept.recentEvents {φ β : Type} {e : PmxEngine φ β} {log : List PmxConnEvent} (h : LogKept e log)
    (max : ℕ) : pmxEngineRecentEvents e.events max = log.rtake (min max (min 512 log.length)) := by
  rw [h.ring]
  exact (foldl_recordEvent log ringShows_create).recent max

end ProxiMight
