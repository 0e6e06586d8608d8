import Mathlib.Data.List.Induction
import Mathlib.Data.List.Nodup
import Mathlib.Logic.Function.Basic
import Mathlib.Tactic.Common

/-!
# Queues of linked nodes

A queue is a heap of nodes and two pointers: `head`, where nodes are taken off, and `tail`, behind which
they are appended.  Reading or writing a node that is not allocated is `none`.  `Holds q l` says that the
queue holds the nodes `l`, addresses and values, from the front.

* **`Holds.enqueue`**, **`Holds.pop`** — the operations append and take off, and reach no node outside.
* **`Holds.alloc`**, **`Holds.free`** — what happens to other nodes does not touch the queue.
* **`Owns.freeAll`** — a queue that owns all its nodes is given back node by node, and nothing is left.
-/

namespace LinkedQueue

variable {α : Type*}

/-- A node; `next` is `none` for NULL. -/
structure Node (α : Type*) where
  value : α
  next : Option ℕ

/-- The nodes that are allocated, by address. -/
abbrev Heap (α : Type*) := ℕ → Option (Node α)

/-- A heap and the pointers to the first and the last node. -/
structure Queue (α : Type*) where
  heap : Heap α
  head : Option ℕ
  tail : Option ℕ

namespace Queue

/-- No node, and both pointers NULL. -/
def empty : Queue α := ⟨fun _ => none, none, none⟩

/-- A node allocated at `a`. -/
def alloc (q : Queue α) (a : ℕ) (v : α) : Queue α :=
  { q with heap := Function.update q.heap a (some ⟨v, none⟩) }

/-- The node at `a` given back. -/
def free (q : Queue α) (a : ℕ) : Queue α := { q with heap := Function.update q.heap a none }

/-- The node at `a` appended. -/
def push (q : Queue α) (a : ℕ) : Option (Queue α) :=
  match q.tail with
  | some t =>
    (q.heap t).map fun n =>
      { q with
        heap := Function.update q.heap t (some { n with next := some a })
        tail := some a }
  | none => some { q with head := some a, tail := some a }

/-- The first node taken off; it stays allocated. -/
def pop (q : Queue α) : Option (Queue α × Option ℕ) :=
  match q.head with
  | none => some (q, none)
  | some a =>
    (q.heap a).map fun n =>
      ({ q with head := n.next, tail := if n.next = none then none else q.tail }, some a)

end Queue

/-- The nodes reached from a pointer. -/
def Chain (h : Heap α) : Option ℕ → List (ℕ × α) → Prop
  | p, [] => p = none
  | p, av :: l => p = some av.1 ∧ ∃ next, h av.1 = some ⟨av.2, next⟩ ∧ Chain h next l

/-- The addresses of some nodes. -/
def addrs (l : List (ℕ × α)) : List ℕ := l.map Prod.fst

/-- The queue holds these nodes. -/
structure Holds (q : Queue α) (l : List (ℕ × α)) : Prop where
  chain : Chain q.heap q.head l
  tail : q.tail = (l.getLast?).map Prod.fst
  nodup : (addrs l).Nodup

theorem holds_empty : Holds (Queue.empty : Queue α) [] := ⟨rfl, rfl, List.nodup_nil⟩

/-! ### Chains -/

theorem Chain.congr {h h' : Heap α} {p : Option ℕ} {l : List (ℕ × α)} (hc : Chain h p l)
    (hsame : ∀ a ∈ addrs l, h' a = h a) : Chain h' p l := by
  induction l generalizing p with
  | nil => exact hc
  | cons av l ih =>
    obtain ⟨hp, next, hnode, hrest⟩ := hc
    refine ⟨hp, next, ?_, ih hrest fun a ha => hsame a (List.mem_cons_of_mem _ ha)⟩
    rw [hsame av.1 List.mem_cons_self, hnode]

/-- The nodes of a chain are allocated. -/
theorem Chain.node {h : Heap α} {p : Option ℕ} {l : List (ℕ × α)} (hc : Chain h p l) :
    ∀ av ∈ l, ∃ next, h av.1 = some ⟨av.2, next⟩ := by
  induction l generalizing p with
  | nil =>
    intro av hav
    cases hav
  | cons bw l ih =>
    intro av hav
    obtain ⟨-, next, hnode, hrest⟩ := hc
    rcases List.mem_cons.1 hav with rfl | hav
    · exact ⟨next, hnode⟩
    · exact ih hrest av hav

theorem Chain.notMem {h : Heap α} {p : Option ℕ} {l : List (ℕ × α)} (hc : Chain h p l) {a : ℕ}
    (ha : h a = none) : a ∉ addrs l := by
  intro hmem
  obtain ⟨av, hav, rfl⟩ := List.mem_map.1 hmem
  obtain ⟨next, hnode⟩ := hc.node av hav
  rw [ha] at hnode
  cases hnode

/-- A chain goes on behind its last node once that points at another one. -/
theorem Chain.concat {h : Heap α} {p : Option ℕ} {l : List (ℕ × α)} {t a : ℕ} {w v : α}
    (hc : Chain h p (l ++ [(t, w)])) (hnodup : (addrs (l ++ [(t, w)])).Nodup)
    (ha : h a = some ⟨v, none⟩) (hne : a ∉ addrs (l ++ [(t, w)])) :
    Chain (Function.update h t (some ⟨w, some a⟩)) p (l ++ [(t, w)] ++ [(a, v)]) := by
  induction l generalizing p with
  | nil =>
    obtain ⟨hp, next, -, -⟩ := hc
    have hat : a ≠ t := fun heq => hne (by rw [heq]; exact List.mem_cons_self)
    refine ⟨hp, some a, Function.update_self .., rfl, none, ?_, rfl⟩
    rw [Function.update_of_ne hat, ha]
  | cons bx l ih =>
    obtain ⟨hp, next, hnode, hrest⟩ := hc
    obtain ⟨hb, hnodup⟩ := List.nodup_cons.1 hnodup
    have hbt : bx.1 ≠ t := by
      rintro heq
      exact hb (by rw [heq]; exact List.mem_map.2 ⟨(t, w), by simp, rfl⟩)
    refine ⟨hp, next, ?_, ih hrest hnodup fun hmem => hne (List.mem_cons_of_mem _ hmem)⟩
    rw [Function.update_of_ne hbt, hnode]

/-! ### The operations -/

namespace Holds

variable {q : Queue α} {l : List (ℕ × α)}

theorem notMem (h : Holds q l) {a : ℕ} (ha : q.heap a = none) : a ∉ addrs l := h.chain.notMem ha

/-- A node allocated elsewhere. -/
theorem alloc (h : Holds q l) {a : ℕ} (ha : q.heap a = none) (v : α) : Holds (q.alloc a v) l := by
  refine ⟨h.chain.congr fun b hb => Function.update_of_ne ?_ _ _, h.tail, h.nodup⟩
  rintro rfl
  exact h.notMem ha hb

/-- A node given back that is not in the queue. -/
theorem free (h : Holds q l) {a : ℕ} (ha : a ∉ addrs l) : Holds (q.free a) l := by
  refine ⟨h.chain.congr fun b hb => Function.update_of_ne ?_ _ _, h.tail, h.nodup⟩
  rintro rfl
  exact ha hb

/-- **A node is appended**, and no node outside the queue changes. -/
theorem push (h : Holds q l) {a : ℕ} {v : α} (hnode : q.heap a = some ⟨v, none⟩) (hne : a ∉ addrs l) :
    ∃ q', q.push a = some q' ∧ Holds q' (l ++ [(a, v)]) ∧ ∀ b ∉ addrs l, q'.heap b = q.heap b := by
  induction l using List.reverseRecOn with
  | nil =>
    have htail : q.tail = none := h.tail
    have hpush : q.push a = some { q with head := some a, tail := some a } := by
      rw [Queue.push, htail]
    exact ⟨_, hpush, ⟨⟨rfl, none, hnode, rfl⟩, rfl, List.nodup_singleton a⟩, fun b _ => rfl⟩
  | append_singleton l tw _ =>
    obtain ⟨t, w⟩ := tw
    have htail : q.tail = some t := by rw [h.tail, List.getLast?_concat]; rfl
    obtain ⟨next, hlast⟩ := h.chain.node (t, w) (by simp)
    have hpush : q.push a =
        some ⟨Function.update q.heap t (some ⟨w, some a⟩), q.head, some a⟩ := by
      rw [Queue.push, htail]
      show (q.heap t).map _ = _
      rw [hlast]
      rfl
    refine ⟨_, hpush, ⟨?_, ?_, ?_⟩, ?_⟩
    · exact h.chain.concat h.nodup hnode hne
    · rw [List.getLast?_concat]
      rfl
    · rw [addrs, List.map_append]
      exact List.nodup_append.2 ⟨h.nodup, List.nodup_singleton a, by
        intro b hb c hc
        rw [List.mem_singleton.1 hc]
        rintro rfl
        exact hne hb⟩
    · intro b hb
      refine Function.update_of_ne ?_ _ _
      rintro rfl
      exact hb (List.mem_map.2 ⟨(b, w), by simp, rfl⟩)

/-- A new node appended; the nodes outside stay as they are, and outside. -/
theorem enqueue (h : Holds q l) {a : ℕ} (ha : q.heap a = none) (v : α) :
    ∃ q', (q.alloc a v).push a = some q' ∧ Holds q' (l ++ [(a, v)]) ∧
      ∀ b, b ∉ addrs l → q.heap b ≠ none → q'.heap b = q.heap b ∧ b ∉ addrs (l ++ [(a, v)]) := by
  obtain ⟨q', hpush, hq', hframe⟩ := (h.alloc ha v).push (Function.update_self ..) (h.notMem ha)
  refine ⟨q', hpush, hq', fun b hout hne => ?_⟩
  have hba : b ≠ a := by
    rintro rfl
    exact hne ha
  refine ⟨(hframe b hout).trans (Function.update_of_ne hba _ _), ?_⟩
  simpa [addrs, hba] using hout

theorem pop_nil (h : Holds q []) : q.pop = some (q, none) := by
  have hhead : q.head = none := h.chain
  rw [Queue.pop, hhead]

/-- **The first node is taken off**; no node changes. -/
theorem pop {a : ℕ} {v : α} (h : Holds q ((a, v) :: l)) :
    ∃ q', q.pop = some (q', some a) ∧ Holds q' l ∧ q'.heap = q.heap ∧ ∃ next, q.heap a = some ⟨v, next⟩ := by
  obtain ⟨hhead, next, hnode, hrest⟩ := h.chain
  have hpop : q.pop =
      some ({ q with head := next, tail := if next = none then none else q.tail }, some a) := by
    rw [Queue.pop, hhead]
    show (q.heap a).map _ = _
    rw [hnode]
    rfl
  refine ⟨_, hpop, ⟨hrest, ?_, (List.nodup_cons.1 h.nodup).2⟩, rfl, next, hnode⟩
  show (if next = none then none else q.tail) = _
  cases l with
  | nil =>
    have hnext : next = none := hrest
    rw [if_pos hnext]
    rfl
  | cons bw l =>
    have hnext : next = some bw.1 := hrest.1
    rw [if_neg (by rw [hnext]; exact Option.some_ne_none _), h.tail, List.getLast?_cons_cons]

end Holds

/-! ### Memory -/

/-- `for (n = head; n != NULL; n = next) free(n)`, in so many rounds; `next` is read before the node is given
back. -/
def freeAll : ℕ → Heap α → Option ℕ → Option (Heap α)
  | _, h, none => some h
  | 0, _, some _ => none
  | fuel + 1, h, some a => (h a).bind fun n => freeAll fuel (Function.update h a none) n.next

/-- The queue holds these nodes, and what else is allocated are the nodes at `extra`. -/
structure Owns (q : Queue α) (l : List (ℕ × α)) (extra : List ℕ) : Prop where
  holds : Holds q l
  apart : ∀ a ∈ extra, a ∉ addrs l
  there : ∀ a ∈ extra, q.heap a ≠ none
  covered : ∀ a, q.heap a ≠ none → a ∈ addrs l ∨ a ∈ extra

namespace Owns

variable {q : Queue α} {l : List (ℕ × α)} {extra : List ℕ}

theorem empty : Owns (Queue.empty : Queue α) [] [] :=
  ⟨holds_empty, fun _ h => absurd h List.not_mem_nil, fun _ h => absurd h List.not_mem_nil,
    fun _ h => absurd rfl h⟩

/-- A new node appended. -/
theorem enqueue (h : Owns q l extra) {a : ℕ} (ha : q.heap a = none) (v : α) :
    ∃ q', (q.alloc a v).push a = some q' ∧ Owns q' (l ++ [(a, v)]) extra := by
  obtain ⟨q', hpush, hq', hframe⟩ :=
    (h.holds.alloc ha v).push (Function.update_self ..) (h.holds.notMem ha)
  have haddrs : addrs (l ++ [(a, v)]) = addrs l ++ [a] := List.map_append
  have hother : ∀ b, b ≠ a → (q.alloc a v).heap b = q.heap b := fun b hb => Function.update_of_ne hb _ _
  have hextra : ∀ b ∈ extra, b ≠ a := by
    rintro b hb rfl
    exact h.there b hb ha
  refine ⟨q', hpush, hq', ?_, ?_, ?_⟩
  · intro b hb
    rw [haddrs, List.mem_append, List.mem_singleton, not_or]
    exact ⟨h.apart b hb, hextra b hb⟩
  · intro b hb
    rw [hframe b (h.apart b hb), hother b (hextra b hb)]
    exact h.there b hb
  · intro b hb
    rw [haddrs, List.mem_append, List.mem_singleton]
    by_cases hin : b ∈ addrs l
    · exact Or.inl (Or.inl hin)
    · by_cases hba : b = a
      · exact Or.inl (Or.inr hba)
      · rw [hframe b hin, hother b hba] at hb
        exact (h.covered b hb).imp_left Or.inl

/-- The first node taken off is still allocated. -/
theorem pop {a : ℕ} {v : α} (h : Owns q ((a, v) :: l) extra) :
    ∃ q', q.pop = some (q', some a) ∧ Owns q' l (a :: extra) ∧ q'.heap = q.heap ∧
      ∃ next, q.heap a = some ⟨v, next⟩ := by
  obtain ⟨q', hpop, hq', hheap, hnode⟩ := h.holds.pop
  obtain ⟨hfirst, -⟩ := List.nodup_cons.1 h.holds.nodup
  refine ⟨q', hpop, ⟨hq', ?_, ?_, ?_⟩, hheap, hnode⟩
  · intro b hb
    rcases List.mem_cons.1 hb with rfl | hb
    · exact hfirst
    · exact fun hin => h.apart b hb (List.mem_cons_of_mem a hin)
  · intro b hb
    rw [hheap]
    rcases List.mem_cons.1 hb with rfl | hb
    · obtain ⟨next, hnode⟩ := hnode
      rw [hnode]
      exact Option.some_ne_none _
    · exact h.there b hb
  · intro b hb
    rw [hheap] at hb
    rcases h.covered b hb with hin | hin
    · rcases List.mem_cons.1 hin with rfl | hin
      · exact Or.inr List.mem_cons_self
      · exact Or.inl hin
    · exact Or.inr (List.mem_cons_of_mem a hin)

/-- A node outside the queue given back. -/
theorem free {a : ℕ} (h : Owns q l (a :: extra)) (ha : a ∉ extra) : Owns (q.free a) l extra := by
  have hother : ∀ b, b ≠ a → (q.free a).heap b = q.heap b := fun b hb => Function.update_of_ne hb _ _
  refine ⟨h.holds.free (h.apart a List.mem_cons_self), fun b hb => h.apart b (List.mem_cons_of_mem a hb), ?_,
    ?_⟩
  · intro b hb
    rw [hother b fun heq => ha (heq ▸ hb)]
    exact h.there b (List.mem_cons_of_mem a hb)
  · intro b hb
    by_cases hba : b = a
    · rw [hba] at hb
      exact absurd (Function.update_self ..) hb
    · rw [hother b hba] at hb
      rcases h.covered b hb with hin | hin
      · exact Or.inl hin
      · exact Or.inr ((List.mem_cons.1 hin).resolve_left hba)

end Owns

/-- **A queue is given back** node by node: no round reads a node that is gone, and nothing is left but what
was allocated outside it. -/
theorem Chain.freeAll {l : List (ℕ × α)} : ∀ {h : Heap α} {p : Option ℕ} {fuel : ℕ}, Chain h p l →
    (addrs l).Nodup → l.length ≤ fuel →
    ∃ h', LinkedQueue.freeAll fuel h p = some h' ∧ ∀ a, h' a ≠ none → h a ≠ none ∧ a ∉ addrs l := by
  induction l with
  | nil =>
    intro h p fuel hc _ _
    have hp : p = none := hc
    refine ⟨h, ?_, fun a ha => ⟨ha, List.not_mem_nil⟩⟩
    rw [hp]
    cases fuel <;> rfl
  | cons av l ih =>
    intro h p fuel hc hnodup hfuel
    obtain ⟨hp, next, hnode, hrest⟩ := hc
    obtain ⟨hfirst, hnodup⟩ := List.nodup_cons.1 hnodup
    obtain ⟨fuel, rfl⟩ : ∃ n, fuel = n + 1 := Nat.exists_eq_succ_of_ne_zero (by
      rw [List.length_cons] at hfuel
      omega)
    have hkept : Chain (Function.update h av.1 none) next l := by
      refine hrest.congr fun b hb => Function.update_of_ne ?_ _ _
      rintro rfl
      exact hfirst hb
    obtain ⟨h', hfree, hleft⟩ := ih hkept hnodup (Nat.le_of_succ_le_succ hfuel)
    refine ⟨h', ?_, fun a ha => ?_⟩
    · rw [hp, LinkedQueue.freeAll, hnode]
      exact hfree
    · obtain ⟨hne, hout⟩ := hleft a ha
      by_cases haa : a = av.1
      · rw [haa, Function.update_self] at hne
        exact absurd rfl hne
      · rw [Function.update_of_ne haa] at hne
        refine ⟨hne, fun hin => ?_⟩
        rcases List.mem_cons.1 hin with heq | hin
        · exact haa heq
        · exact hout hin

/-- With nothing allocated outside, the heap is empty afterwards. -/
theorem Owns.freeAll {q : Queue α} {l : List (ℕ × α)} (h : Owns q l []) {fuel : ℕ}
    (hfuel : l.length ≤ fuel) : LinkedQueue.freeAll fuel q.heap q.head = some fun _ => none := by
  obtain ⟨h', hfree, hleft⟩ := h.holds.chain.freeAll h.holds.nodup hfuel
  have hnone : h' = fun _ => none := by
    funext a
    by_contra hne
    obtain ⟨hold, hout⟩ := hleft a hne
    rcases h.covered a hold with hin | hin
    · exact hout hin
    · exact absurd hin List.not_mem_nil
  rw [hfree, hnone]

end LinkedQueue
