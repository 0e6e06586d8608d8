import ProxiMight.Numbers
import ProxiMight.Rule
import ProxiMight.Separated

/-!
# What a port spec means

A port spec is a list of items separated by `,`, each a number or two numbers with a dash between them;
blank items are passed over.  The validator and the matcher are two scanners of the same syntax, and each
of them is followed here item by item: over one item the validator moves to the next comma, and the matcher
tests the port against it.

* **`portSpecValidateLoop_item`**, **`portSpecLoop_item`** — one round of each scanner over one item.
* **`portSpec_meaning`** — what is accepted, and what an accepted spec matches.
-/

namespace ProxiMight

open CString Separated

/-- Nothing but spaces. -/
def Blank (s : List UInt8) : Prop := ∀ c ∈ s, c = 32

/-- A number between 0 and 65535. -/
def PortNumber (t : List UInt8) (v : ℤ) : Prop := ReadsNumber t v ∧ 0 ≤ v ∧ v ≤ 65535

/-- An item of a port spec: a number, or a number, a dash and a number, with spaces around each. -/
inductive PortItem : List UInt8 → ℤ → ℤ → Prop
  | number {l t r : List UInt8} {a : ℤ} : Blank l → PortNumber t a → Blank r →
      PortItem (l ++ (t ++ r)) a a
  | range {l t m m' u r : List UInt8} {a b : ℤ} : Blank l → PortNumber t a → Blank m → Blank m' →
      PortNumber u b → Blank r → PortItem (l ++ (t ++ (m ++ 45 :: (m' ++ (u ++ r))))) a b

/-- The empty spec, or a list of items separated by commas, blank ones allowed, with at least one item. -/
def ValidPortSpec (spec : List UInt8) : Prop :=
  spec = [] ∨ ((∀ piece ∈ spec.splitOn 44, Blank piece ∨ ∃ a b, PortItem piece a b) ∧
    ∃ piece ∈ spec.splitOn 44, ∃ a b, PortItem piece a b)

/-- The port lies between the two numbers, whichever of them is the smaller. -/
def InRange (port : PmxPort) (a b : ℤ) : Prop :=
  (a ≤ port.toNat ∧ port.toNat ≤ b) ∨ (b ≤ port.toNat ∧ port.toNat ≤ a)

/-- The empty spec means every port, any other one the ports of its items. -/
def PortSpecMeans (spec : List UInt8) (port : PmxPort) : Prop :=
  spec = [] ∨ ∃ piece ∈ spec.splitOn 44, ∃ a b, PortItem piece a b ∧ InRange port a b

/-- What an item ends at: the end of the spec or a comma. -/
def ItemEnd (s : List UInt8) : Prop := s = [] ∨ ∃ rest, s = 44 :: rest

theorem skip_blank {s rest : List UInt8} (h : Blank s) :
    (s ++ 44 :: rest).dropWhile (fun c => c == 32 || c == 44) =
      rest.dropWhile fun c => c == 32 || c == 44 := by
  rw [List.dropWhile_append_of_pos, List.dropWhile_cons_of_pos]
  · rfl
  · intro c hc
    rw [h c hc]
    rfl

theorem skip_blank_end {s : List UInt8} (h : Blank s) :
    s.dropWhile (fun c => c == 32 || c == 44) = [] := by
  rw [List.dropWhile_eq_nil_iff]
  intro c hc
  rw [h c hc]
  rfl

theorem ItemEnd.head_eq {s : List UInt8} (h : ItemEnd s) {c : UInt8} (hc : s.head? = some c) :
    c = 44 := by
  rcases h with rfl | ⟨rest, rfl⟩
  · cases hc
  · exact (Option.some.inj hc).symm

theorem head_blank_append {m x : List UInt8} {c : UInt8} (hm : Blank m)
    (hc : (m ++ x).head? = some c) : c = 32 ∨ x.head? = some c := by
  cases m with
  | nil => exact .inr hc
  | cons d m => exact .inl (Option.some.inj hc ▸ hm d List.mem_cons_self)

/-- After the number, the spaces and the end of an item. -/
theorem ItemEnd.stop {r s : List UInt8} (h : ItemEnd s) (hr : Blank r) :
    ∀ c, (r ++ s).head? = some c → isDigit c = false := by
  intro c hc
  rcases head_blank_append hr hc with rfl | hc
  · rfl
  · rw [h.head_eq hc]
    rfl

theorem dash_stop {m x : List UInt8} (hm : Blank m) :
    ∀ c, (m ++ 45 :: x).head? = some c → isDigit c = false := by
  intro c hc
  rcases head_blank_append hm hc with rfl | hc
  · rfl
  · rw [← Option.some.inj hc]
    rfl

theorem dropWhile_blank {m x : List UInt8} (hm : Blank m) (hx : ∀ c, x.head? = some c → c ≠ 32) :
    (m ++ x).dropWhile (· == 32) = x := by
  apply dropWhile_append_of_stop
  · intro c hc
    rw [hm c hc]
    rfl
  · intro c hc
    exact beq_eq_false_iff_ne.2 (hx c hc)

theorem ItemEnd.dropWhile_eq {r s : List UInt8} (h : ItemEnd s) (hr : Blank r) :
    (r ++ s).dropWhile (· == 32) = s :=
  dropWhile_blank hr fun c hc => by rw [h.head_eq hc]; decide

theorem ne_cons_append (c : UInt8) (t s : List UInt8) : s ≠ c :: (t ++ s) := by
  intro hcycle
  have hlen := congrArg List.length hcycle
  simp only [List.length_cons, List.length_append] at hlen
  omega

/-- Only spaces and commas are skipped between the items. -/
theorem skip_stop (c : UInt8) (h32 : c ≠ 32) (h44 : c ≠ 44) : (c == 32 || c == 44) = false := by
  rw [beq_eq_false_iff_ne.2 h32, beq_eq_false_iff_ne.2 h44, Bool.or_false]

/-! ## The matcher, item by item -/

section Matcher

variable {port : PmxPort} {s s' piece rest tail : List UInt8} {c : UInt8} {a b : ℤ}

theorem portSpecLoop_nil (h : s.dropWhile (fun c => c == 32 || c == 44) = []) :
    portSpecLoop port s = false := by
  rw [portSpecLoop.eq_def]
  split
  · rfl
  · next hc =>
    rw [h] at hc
    cases hc

/-- Spaces and commas in front are passed over. -/
theorem portSpecLoop_congr (h : (s.dropWhile fun c => c == 32 || c == 44) =
    s'.dropWhile fun c => c == 32 || c == 44) : portSpecLoop port s = portSpecLoop port s' := by
  rw [portSpecLoop.eq_def, portSpecLoop.eq_def port s']
  split
  · next hnil =>
    split
    · rfl
    · next hcons =>
      rw [← h, hnil] at hcons
      cases hcons
  · next hcons =>
    split
    · next hnil =>
      rw [h, hnil] at hcons
      cases hcons
    · next hcons' =>
      rw [h, hcons'] at hcons
      cases hcons
      rfl

/-- One round over a number. -/
theorem portSpecLoop_number (h : s.dropWhile (fun c => c == 32 || c == 44) = c :: rest)
    (hnum : strtol (c :: rest) = (a, s')) (hne : s' ≠ c :: rest) :
    portSpecLoop port s = true ↔
      InRange port a (portRangeEnd a s').1 ∨ portSpecLoop port (portRangeEnd a s').2 = true := by
  rw [portSpecLoop.eq_def]
  split
  · next hnil =>
    rw [h] at hnil
    cases hnil
  · next hcons =>
    rw [h] at hcons
    cases hcons
    simp only [hnum, hne, dite_false]
    generalize portRangeEnd a s' = e
    -- the two ends are put in order first
    have hrange : InRange port a e.1 ↔ (if a > e.1 then e.1 else a) ≤ (port.toNat : ℤ) ∧
        (port.toNat : ℤ) ≤ if a > e.1 then a else e.1 := by
      rw [InRange]
      split_ifs <;> omega
    rw [hrange]
    split_ifs with hswap hin hin
    · simp only [hin, and_self, true_or]
    · simp only [hin, false_or]
    · simp only [hin, and_self, true_or]
    · simp only [hin, false_or]

/-- Over one item the matcher tests the port against its range. -/
theorem portSpecLoop_item (h : PortItem piece a b) (hend : ItemEnd tail) :
    portSpecLoop port (piece ++ tail) = true ↔
      InRange port a b ∨ portSpecLoop port tail = true := by
  cases h with
  | @number l t r a hl ht hr =>
    obtain ⟨c, t', hread, hskip⟩ := ht.1.skip
    have hnum := hread.strtol_append (hend.stop hr)
    have hrange : portRangeEnd a (r ++ tail) = (a, tail) := by
      rw [portRangeEnd, hend.dropWhile_eq hr]
      rcases hend with rfl | ⟨rest, rfl⟩
      · rfl
      · rfl
    rw [List.append_assoc, List.append_assoc,
      portSpecLoop_number (hskip l (r ++ tail) _ hl rfl skip_stop) hnum (ne_cons_append c t' _), hrange]
  | @range l t m m' u r a b hl ht hm hm' hu hr =>
    obtain ⟨c, t', hread, hskip⟩ := ht.1.skip
    obtain ⟨d, u', hread', hskip'⟩ := hu.1.skip
    have hnum := hread.strtol_append (dash_stop (x := m' ++ (u ++ (r ++ tail))) hm)
    have hnum' := hread'.strtol_append (hend.stop hr)
    have hsecond : (m' ++ (u ++ (r ++ tail))).dropWhile (· == 32) = d :: (u' ++ (r ++ tail)) :=
      hskip' m' (r ++ tail) _ hm' rfl fun c h32 _ => beq_eq_false_iff_ne.2 h32
    have hrange : portRangeEnd a (m ++ 45 :: (m' ++ (u ++ (r ++ tail)))) = (b, r ++ tail) := by
      rw [portRangeEnd, dropWhile_blank hm fun c hc => by rw [← Option.some.inj hc]; decide]
      dsimp only
      rw [if_pos rfl, hsecond, ← List.cons_append, hnum']
      exact if_neg (ne_cons_append d u' _)
    have hrest : portSpecLoop port (r ++ tail) = portSpecLoop port tail := by
      apply portSpecLoop_congr
      rw [List.dropWhile_append_of_pos]
      intro c hc
      rw [hr c hc]
      rfl
    simp only [List.append_assoc, List.cons_append]
    rw [portSpecLoop_number (hskip l _ _ hl rfl skip_stop) hnum (ne_cons_append c t' _), hrange, hrest]

end Matcher

/-! ## The validator, item by item -/

section Validator

variable {saw : Bool} {s s' s'' piece rest tail : List UInt8} {c : UInt8} {a b : ℤ}

theorem portSpecValidateLoop_nil (h : s.dropWhile (fun c => c == 32 || c == 44) = []) :
    portSpecValidateLoop saw s = if saw then .ok else .errParse := by
  rw [portSpecValidateLoop.eq_def]
  split
  · rfl
  · next hc =>
    rw [h] at hc
    cases hc

/-- One round over a number is passed if it is a port number and so is the other end of its range, and
the spec then ends or goes on with a comma. -/
theorem portSpecValidateLoop_eq_ok_iff
    (h : s.dropWhile (fun c => c == 32 || c == 44) = c :: rest) :
    portSpecValidateLoop saw s = .ok ↔
      (strtol (c :: rest)).2 ≠ c :: rest ∧ noPort (strtol (c :: rest)).1 = false ∧
        ∃ s', portRangeCheck (strtol (c :: rest)).2 = some s' ∧ ItemEnd (s'.dropWhile (· == 32)) ∧
          portSpecValidateLoop true (s'.dropWhile (· == 32)) = .ok := by
  rw [portSpecValidateLoop.eq_def]
  split
  · next hnil =>
    rw [h] at hnil
    cases hnil
  · next hcons =>
    rw [h] at hcons
    cases hcons
    dsimp only
    by_cases hend : (strtol (c :: rest)).2 = c :: rest
    · simp only [hend, decide_true, Bool.true_or, dite_true, reduceCtorEq, ne_eq, not_true_eq_false,
        false_and]
    by_cases hport : noPort (strtol (c :: rest)).1 = true
    · simp only [hport, Bool.or_true, dite_true, reduceCtorEq, Bool.true_eq_false, false_and, and_false]
    rw [Bool.not_eq_true] at hport
    simp only [hend, hport, decide_false, Bool.or_self, Bool.false_eq_true, dite_false, ne_eq,
      not_false_eq_true, true_and]
    split
    · next hnone => simp only [hnone, reduceCtorEq, false_and, exists_false]
    · next s' hsome =>
      simp only [hsome, Option.some.injEq, exists_eq_left']
      split
      · next hnil =>
        simp only [hnil, ItemEnd, true_or, true_and, true_iff]
        exact portSpecValidateLoop_nil rfl
      · next d rest' hd =>
        rw [hd]
        split_ifs with hcomma
        · exact (and_iff_right (.inr ⟨rest', by rw [hcomma]⟩)).symm
        · simp only [false_iff]
          exact fun hno => hcomma (hno.1.head_eq rfl)

theorem portSpecValidateLoop_ok_congr (h : (s.dropWhile fun c => c == 32 || c == 44) =
    s'.dropWhile fun c => c == 32 || c == 44) :
    portSpecValidateLoop saw s = .ok ↔ portSpecValidateLoop saw s' = .ok := by
  cases hskip : s'.dropWhile fun c => c == 32 || c == 44 with
  | nil => rw [portSpecValidateLoop_nil (h.trans hskip), portSpecValidateLoop_nil hskip]
  | cons c rest =>
    rw [portSpecValidateLoop_eq_ok_iff (h.trans hskip), portSpecValidateLoop_eq_ok_iff hskip]

theorem noPort_eq_false_iff (v : ℤ) : noPort v = false ↔ 0 ≤ v ∧ v ≤ 65535 := by
  rw [noPort, Bool.or_eq_false_iff, decide_eq_false_iff_not, decide_eq_false_iff_not]
  omega

/-- Over an item the validator moves on to what ends it. -/
theorem portSpecValidateLoop_item (h : PortItem piece a b) (hend : ItemEnd tail) :
    portSpecValidateLoop saw (piece ++ tail) = .ok ↔ portSpecValidateLoop true tail = .ok := by
  cases h with
  | @number l t r a hl ht hr =>
    obtain ⟨c, t', hread, hskip⟩ := ht.1.skip
    have hnum : strtol (c :: (t' ++ (r ++ tail))) = (a, r ++ tail) :=
      hread.strtol_append (hend.stop hr)
    have hcheck : portRangeCheck (r ++ tail) = some tail := by
      rw [portRangeCheck, hend.dropWhile_eq hr]
      rcases hend with rfl | ⟨rest, rfl⟩
      · rfl
      · rfl
    have htail : tail.dropWhile (· == 32) = tail :=
      hend.dropWhile_eq (r := []) fun c hc => by cases hc
    rw [List.append_assoc, List.append_assoc,
      portSpecValidateLoop_eq_ok_iff (hskip l (r ++ tail) _ hl rfl skip_stop), hnum, hcheck]
    simp only [Option.some.injEq, exists_eq_left', htail, hend, true_and,
      (noPort_eq_false_iff a).2 ht.2, ne_eq, ne_cons_append, not_false_eq_true]
  | @range l t m m' u r a b hl ht hm hm' hu hr =>
    obtain ⟨c, t', hread, hskip⟩ := ht.1.skip
    obtain ⟨d, u', hread', hskip'⟩ := hu.1.skip
    have hnum : strtol (c :: (t' ++ (m ++ 45 :: (m' ++ (u ++ (r ++ tail)))))) =
        (a, m ++ 45 :: (m' ++ (u ++ (r ++ tail)))) := hread.strtol_append (dash_stop hm)
    have hnum' : strtol (d :: (u' ++ (r ++ tail))) = (b, r ++ tail) :=
      hread'.strtol_append (hend.stop hr)
    have hsecond : (m' ++ (u ++ (r ++ tail))).dropWhile (· == 32) = d :: (u' ++ (r ++ tail)) :=
      hskip' m' (r ++ tail) _ hm' rfl fun c h32 _ => beq_eq_false_iff_ne.2 h32
    have hcheck : portRangeCheck (m ++ 45 :: (m' ++ (u ++ (r ++ tail)))) = some (r ++ tail) := by
      rw [portRangeCheck, dropWhile_blank hm fun c hc => by rw [← Option.some.inj hc]; decide]
      dsimp only
      rw [if_pos rfl, hsecond, hnum', (noPort_eq_false_iff b).2 hu.2, Bool.or_false,
        decide_eq_false (ne_cons_append d u' _)]
      rfl
    simp only [List.append_assoc, List.cons_append]
    rw [portSpecValidateLoop_eq_ok_iff (hskip l _ _ hl rfl skip_stop), hnum, hcheck]
    simp only [Option.some.injEq, exists_eq_left', hend.dropWhile_eq hr, hend, true_and,
      (noPort_eq_false_iff a).2 ht.2, ne_eq, ne_cons_append, not_false_eq_true]

/-- What is read before the end of an item is a front of the item. -/
theorem split_before_end {x t : List UInt8} (h : x ++ tail = t ++ rest) (ht : (44 : UInt8) ∉ t)
    (hend : ItemEnd tail) : ∃ y, x = t ++ y ∧ rest = y ++ tail := by
  rcases List.append_eq_append_iff.1 h with ⟨y, rfl, htail⟩ | ⟨y, rfl, hrest⟩
  · -- the reading would have gone past the end
    cases y with
    | nil => exact ⟨[], by rw [List.append_nil, List.append_nil], htail.symm⟩
    | cons d y =>
      have hd : d = 44 := hend.head_eq (htail ▸ rfl)
      exact absurd (List.mem_append_right x (hd ▸ List.mem_cons_self)) ht
  · exact ⟨y, rfl, hrest⟩

/-- The spaces in front of an item and the character behind them. -/
theorem exists_head {x : List UInt8} (h : ¬ Blank x) :
    ∃ l c x', x = l ++ c :: x' ∧ Blank l ∧ c ≠ 32 := by
  cases hx : x.dropWhile (· == 32) with
  | nil =>
    refine absurd (fun c hc => ?_) h
    exact beq_iff_eq.1 (List.dropWhile_eq_nil_iff.1 hx c hc)
  | cons c x' =>
    have hhead := List.head?_dropWhile_not (· == 32) x
    rw [hx] at hhead
    refine ⟨x.takeWhile (· == 32), c, x', by rw [← hx, List.takeWhile_append_dropWhile], ?_, ?_⟩
    · intro d hd
      simpa using List.mem_takeWhile_imp hd
    · simpa using hhead

/-- What the validator passes over before the end of an item is an item. -/
theorem exists_portItem (h44 : (44 : UInt8) ∉ piece) (hblank : ¬ Blank piece) (hend : ItemEnd tail)
    (h : portSpecValidateLoop saw (piece ++ tail) = .ok) : ∃ a b, PortItem piece a b := by
  obtain ⟨l, c, x, rfl, hl, hc⟩ := exists_head hblank
  rw [List.mem_append, List.mem_cons, not_or, not_or] at h44
  have hskip : ((l ++ c :: x) ++ tail).dropWhile (fun c => c == 32 || c == 44) = c :: (x ++ tail) := by
    rw [List.append_assoc]
    apply dropWhile_append_of_stop
    · intro d hd
      rw [hl d hd]
      rfl
    · intro d hd
      rw [← Option.some.inj hd]
      exact skip_stop c hc (Ne.symm h44.2.1)
  rw [portSpecValidateLoop_eq_ok_iff hskip] at h
  obtain ⟨hmove, hport, s', hcheck, hs', -⟩ := h
  obtain ⟨t, ht, hread⟩ := strtol_split hmove
  obtain ⟨y, hxy, hrest⟩ := split_before_end (x := c :: x) ht hread.chars.1 hend
  rw [hrest] at hcheck
  rw [hxy]
  have hnum : PortNumber t _ := ⟨hread, (noPort_eq_false_iff _).1 hport⟩
  have hy44 : (44 : UInt8) ∉ y := by
    intro hmem
    have hx : (44 : UInt8) ∈ c :: x := hxy ▸ List.mem_append_right t hmem
    exact (List.mem_cons.1 hx).elim h44.2.1 h44.2.2
  by_cases hy : Blank y
  · exact ⟨_, _, .number hl hnum hy⟩
  obtain ⟨m, d, z, rfl, hm, hd⟩ := exists_head hy
  rw [List.mem_append, List.mem_cons, not_or, not_or] at hy44
  have hdrop : ((m ++ d :: z) ++ tail).dropWhile (· == 32) = d :: (z ++ tail) := by
    rw [List.append_assoc]
    exact dropWhile_blank hm fun e he => by rwa [← Option.some.inj he]
  rw [portRangeCheck, hdrop] at hcheck
  dsimp only at hcheck
  by_cases hdash : d = 45
  · rw [if_pos hdash] at hcheck
    split_ifs at hcheck with hbad
    rw [Bool.or_eq_true, not_or, decide_eq_true_eq, Bool.not_eq_true] at hbad
    obtain ⟨u, hu, hread'⟩ := strtol_split hbad.1
    obtain rfl := Option.some.inj hcheck
    -- the spaces after the dash and the second number
    have hm' : Blank ((z ++ tail).takeWhile (· == 32)) := fun e he => by
      simpa using List.mem_takeWhile_imp he
    have hsplit : z ++ tail = ((z ++ tail).takeWhile (· == 32) ++ u) ++
        (strtol ((z ++ tail).dropWhile (· == 32))).2 := by
      rw [List.append_assoc, ← hu, List.takeWhile_append_dropWhile]
    obtain ⟨r, hr, hrest'⟩ := split_before_end hsplit (by
      rw [List.mem_append, not_or]
      exact ⟨fun hmem => absurd (hm' 44 hmem) (by decide), hread'.chars.1⟩) hend
    have hblank' : Blank r := by
      by_contra hno
      obtain ⟨k, e, r', rfl, hk, he⟩ := exists_head hno
      rw [hrest', List.append_assoc, List.cons_append, dropWhile_blank hk fun f hf => by
        rwa [← Option.some.inj hf]] at hs'
      obtain rfl := hs'.head_eq rfl
      refine hy44.2.2 (hr ▸ ?_)
      exact List.mem_append_right _ (List.mem_append_right _ List.mem_cons_self)
    have hitem := PortItem.range hl hnum hm hm' ⟨hread', (noPort_eq_false_iff _).1 hbad.2⟩ hblank'
    rw [← List.append_assoc _ u r, ← hr, ← hdash] at hitem
    exact ⟨_, _, hitem⟩
  · rw [if_neg hdash] at hcheck
    obtain rfl := Option.some.inj hcheck
    rw [List.dropWhile_cons_of_neg (by simpa using hd)] at hs'
    exact absurd (hs'.head_eq rfl) (Ne.symm hy44.2.1)

end Validator

/-! ## The whole spec -/

theorem PortItem.not_blank {piece : List UInt8} {a b : ℤ} (h : PortItem piece a b) : ¬ Blank piece := by
  have hnum : ∃ l t r, piece = l ++ (t ++ r) ∧ PortNumber t a := by
    cases h with
    | number _ ht _ => exact ⟨_, _, _, rfl, ht⟩
    | range _ ht _ _ _ _ => exact ⟨_, _, _, rfl, ht⟩
  obtain ⟨l, t, r, rfl, ht⟩ := hnum
  obtain ⟨c, hc, hne⟩ := ht.1.chars.2
  exact fun hblank => hne (hblank c (List.mem_append_right _ (List.mem_append_left _ hc)))

/-- A piece of an accepted spec. -/
def PieceOk (piece : List UInt8) : Prop := Blank piece ∨ ∃ a b, PortItem piece a b

theorem portSpecValidateLoop_piece {piece tail : List UInt8} (saw : Bool)
    (h44 : (44 : UInt8) ∉ piece) (hblank : ¬ Blank piece) (hend : ItemEnd tail) :
    portSpecValidateLoop saw (piece ++ tail) = .ok ↔
      (∃ a b, PortItem piece a b) ∧ portSpecValidateLoop true tail = .ok := by
  constructor
  · intro h
    obtain ⟨a, b, hitem⟩ := exists_portItem h44 hblank hend h
    exact ⟨⟨a, b, hitem⟩, (portSpecValidateLoop_item hitem hend).1 h⟩
  · rintro ⟨⟨a, b, hitem⟩, h⟩
    exact (portSpecValidateLoop_item hitem hend).2 h

/-- The validator passes a spec whose pieces are blank or items, if it has seen an item. -/
theorem portSpecValidateLoop_iff (saw : Bool) (s : List UInt8) :
    portSpecValidateLoop saw s = .ok ↔ (∀ piece ∈ s.splitOn 44, PieceOk piece) ∧
      (saw = true ∨ ∃ piece ∈ s.splitOn 44, ∃ a b, PortItem piece a b) := by
  induction s using piece_induction (44 : UInt8) generalizing saw with
  | last piece h44 =>
    rw [List.splitOn_eq_singleton h44]
    simp only [List.mem_singleton, forall_eq, exists_eq_left]
    by_cases hblank : Blank piece
    · rw [portSpecValidateLoop_nil (skip_blank_end hblank)]
      have hno : ¬ ∃ a b, PortItem piece a b := fun ⟨_, _, hitem⟩ => hitem.not_blank hblank
      cases saw <;> simp [PieceOk, hblank, hno]
    · have hround := portSpecValidateLoop_piece saw h44 hblank (.inl rfl)
      rw [List.append_nil, portSpecValidateLoop_nil (List.dropWhile_nil ..)] at hround
      rw [hround, PieceOk, or_iff_right hblank]
      grind
  | cons piece rest h44 ih =>
    rw [List.splitOn_append_cons_self_of_not_mem h44]
    simp only [List.mem_cons, forall_eq_or_imp, exists_eq_or_imp]
    by_cases hblank : Blank piece
    · rw [portSpecValidateLoop_ok_congr (skip_blank hblank), ih saw]
      have hno : ¬ ∃ a b, PortItem piece a b := fun ⟨_, _, hitem⟩ => hitem.not_blank hblank
      rw [PieceOk, or_iff_left hno, or_iff_right hno, and_iff_right hblank]
    · have hcomma : (portSpecValidateLoop true (44 :: rest) = .ok) ↔ portSpecValidateLoop true rest = .ok :=
        portSpecValidateLoop_ok_congr (skip_blank (s := []) fun c hc => nomatch hc)
      rw [portSpecValidateLoop_piece saw h44 hblank (.inr ⟨rest, rfl⟩), hcomma, ih true, PieceOk,
        or_iff_right hblank]
      constructor
      · rintro ⟨hitem, hrest, -⟩
        exact ⟨⟨hitem, hrest⟩, .inr (.inl hitem)⟩
      · rintro ⟨⟨hitem, hrest⟩, -⟩
        exact ⟨hitem, hrest, .inl rfl⟩

theorem portSpecLoop_piece (port : PmxPort) {piece tail : List UInt8}
    (h : ∃ a b, PortItem piece a b) (hend : ItemEnd tail) :
    portSpecLoop port (piece ++ tail) = true ↔
      (∃ a b, PortItem piece a b ∧ InRange port a b) ∨ portSpecLoop port tail = true := by
  constructor
  · intro hmatch
    obtain ⟨a, b, hitem⟩ := h
    rcases (portSpecLoop_item hitem hend).1 hmatch with hin | hrest
    · exact .inl ⟨a, b, hitem, hin⟩
    · exact .inr hrest
  · rintro (⟨a, b, hitem, hin⟩ | hrest)
    · exact (portSpecLoop_item hitem hend).2 (.inl hin)
    · obtain ⟨a, b, hitem⟩ := h
      exact (portSpecLoop_item hitem hend).2 (.inr hrest)

/-- The matcher, on a spec whose pieces are blank or items. -/
theorem portSpecLoop_iff (port : PmxPort) (s : List UInt8)
    (h : ∀ piece ∈ s.splitOn 44, PieceOk piece) :
    portSpecLoop port s = true ↔
      ∃ piece ∈ s.splitOn 44, ∃ a b, PortItem piece a b ∧ InRange port a b := by
  induction s using piece_induction (44 : UInt8) with
  | last piece h44 =>
    rw [List.splitOn_eq_singleton h44] at h ⊢
    simp only [List.mem_singleton, forall_eq, exists_eq_left] at h ⊢
    rcases h with hblank | hitem
    · rw [portSpecLoop_nil (skip_blank_end hblank)]
      simp only [Bool.false_eq_true, false_iff]
      exact fun ⟨_, _, hitem, _⟩ => hitem.not_blank hblank
    · have hround := portSpecLoop_piece port hitem (.inl rfl)
      rwa [List.append_nil, portSpecLoop_nil (List.dropWhile_nil ..), Bool.false_eq_true, or_false]
        at hround
  | cons piece rest h44 ih =>
    rw [List.splitOn_append_cons_self_of_not_mem h44] at h ⊢
    simp only [List.mem_cons, forall_eq_or_imp, exists_eq_or_imp] at h ⊢
    rcases h.1 with hblank | hitem
    · rw [portSpecLoop_congr (skip_blank hblank), ih h.2]
      exact (or_iff_right fun ⟨_, _, hitem, _⟩ => hitem.not_blank hblank).symm
    · have hcomma : portSpecLoop port (44 :: rest) = portSpecLoop port rest :=
        portSpecLoop_congr (skip_blank (s := []) fun c hc => nomatch hc)
      rw [portSpecLoop_piece port hitem (.inr ⟨rest, rfl⟩), hcomma, ih h.2]

/-- What the validator accepts, and what an accepted spec matches. -/
theorem portSpec_meaning (spec : List UInt8) :
    (pmxPortSpecValidate spec = .ok ↔ ValidPortSpec spec) ∧
      (pmxPortSpecValidate spec = .ok →
        ∀ port, pmxPortSpecMatch spec port = true ↔ PortSpecMeans spec port) := by
  cases spec with
  | nil => exact ⟨⟨fun _ => .inl rfl, fun _ => rfl⟩, fun _ port => ⟨fun _ => .inl rfl, fun _ => rfl⟩⟩
  | cons c spec =>
    have hvalid := portSpecValidateLoop_iff false (c :: spec)
    simp only [Bool.false_eq_true, false_or] at hvalid
    have hok : pmxPortSpecValidate (c :: spec) = .ok ↔ ValidPortSpec (c :: spec) := by
      rw [ValidPortSpec, or_iff_right (List.cons_ne_nil c spec)]
      exact hvalid
    refine ⟨hok, fun h port => ?_⟩
    rw [PortSpecMeans, or_iff_right (List.cons_ne_nil c spec)]
    exact portSpecLoop_iff port (c :: spec) (hvalid.1 h).1

end ProxiMight
