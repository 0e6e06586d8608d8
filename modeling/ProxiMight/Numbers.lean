import ProxiMight.CString

/-!
# Numbers at the front of a string

What `strtol` reads, part by part: white space, a sign, digits, and what stops it.  Two scans of one
string are compared through these parts.

* **`NumberParts.strtol_eq`**, **`exists_numberParts`** — `strtol` moves on exactly over such parts.
* **`strtol_split`** — what it has read, it reads again whatever follows.
-/

namespace CString

/-- White space, a sign and digits up to the first character that is no digit. -/
structure NumberParts (w sign ds r : List UInt8) : Prop where
  space : ∀ c ∈ w, isSpace c = true
  sign : sign = [] ∨ sign = [43] ∨ sign = [45]
  digits : ∀ c ∈ ds, isDigit c = true
  ne_nil : ds ≠ []
  stop : ∀ c, r.head? = some c → isDigit c = false

/-- `strtol` reads the whole of `t`. -/
def ReadsNumber (t : List UInt8) (v : ℤ) : Prop := t ≠ [] ∧ strtol t = (v, [])

theorem dropWhile_append_of_stop {p : UInt8 → Bool} {a r : List UInt8} (ha : ∀ c ∈ a, p c = true)
    (hr : ∀ c, r.head? = some c → p c = false) : (a ++ r).dropWhile p = r := by
  rw [List.dropWhile_append_of_pos ha]
  cases r with
  | nil => rfl
  | cons c r =>
    rw [List.dropWhile_cons_of_neg]
    rw [hr c rfl]
    exact Bool.false_ne_true

theorem takeWhile_append_of_stop {p : UInt8 → Bool} {a r : List UInt8} (ha : ∀ c ∈ a, p c = true)
    (hr : ∀ c, r.head? = some c → p c = false) : (a ++ r).takeWhile p = a := by
  rw [List.takeWhile_append_of_pos ha]
  cases r with
  | nil => rw [List.takeWhile_nil, List.append_nil]
  | cons c r =>
    rw [List.takeWhile_cons_of_neg, List.append_nil]
    rw [hr c rfl]
    exact Bool.false_ne_true

theorem isDigit_iff (c : UInt8) : isDigit c = true ↔ 48 ≤ c.toNat ∧ c.toNat ≤ 57 := by
  rw [isDigit, Bool.and_eq_true, decide_eq_true_eq, decide_eq_true_eq, UInt8.le_iff_toNat_le,
    UInt8.le_iff_toNat_le]
  exact Iff.rfl

theorem isSpace_iff (c : UInt8) :
    isSpace c = true ↔ c.toNat = 32 ∨ (9 ≤ c.toNat ∧ c.toNat ≤ 13) := by
  rw [isSpace, Bool.or_eq_true, Bool.and_eq_true, decide_eq_true_eq, decide_eq_true_eq, beq_iff_eq,
    UInt8.le_iff_toNat_le, UInt8.le_iff_toNat_le, ← UInt8.toNat_inj]
  exact Iff.rfl

/-- The value of a number with this sign and these digits. -/
def signedVal (sign ds : List UInt8) : ℤ :=
  clampLong (if sign = [45] then -(digitsVal ds : ℤ) else digitsVal ds)

namespace NumberParts

variable {w sign ds r r' : List UInt8}

theorem changeRest (h : NumberParts w sign ds r) (hr : ∀ c, r'.head? = some c → isDigit c = false) :
    NumberParts w sign ds r' :=
  ⟨h.space, h.sign, h.digits, h.ne_nil, hr⟩

/-- The first character after the white space is a sign or a digit. -/
theorem head_eq (h : NumberParts w sign ds r) :
    ∃ c rest, sign ++ (ds ++ r) = c :: rest ∧ isSpace c = false ∧ c ≠ 44 ∧ c ≠ 32 := by
  obtain ⟨d, ds', rfl⟩ := List.exists_cons_of_ne_nil h.ne_nil
  rcases h.sign with rfl | rfl | rfl
  · have hd := (isDigit_iff d).1 (h.digits d List.mem_cons_self)
    refine ⟨d, ds' ++ r, rfl, ?_, ?_, ?_⟩
    · rw [Bool.eq_false_iff, ne_eq, isSpace_iff]
      omega
    · rintro rfl
      simp at hd
    · rintro rfl
      simp at hd
  · exact ⟨43, (d :: ds') ++ r, rfl, rfl, by decide, by decide⟩
  · exact ⟨45, (d :: ds') ++ r, rfl, rfl, by decide, by decide⟩

theorem takeSign_eq (h : NumberParts w sign ds r) :
    takeSign (sign ++ (ds ++ r)) = (decide (sign = [45]), ds ++ r) := by
  rcases h.sign with rfl | rfl | rfl
  · obtain ⟨d, ds', rfl⟩ := List.exists_cons_of_ne_nil h.ne_nil
    have hd := (isDigit_iff d).1 (h.digits d List.mem_cons_self)
    have h43 : d ≠ 43 := by rintro rfl; simp at hd
    have h45 : d ≠ 45 := by rintro rfl; simp at hd
    rw [List.nil_append, List.cons_append, takeSign, if_neg h43, if_neg h45]
    rfl
  · rfl
  · rfl

theorem dropWhile_isSpace (h : NumberParts w sign ds r) :
    (w ++ (sign ++ (ds ++ r))).dropWhile isSpace = sign ++ (ds ++ r) := by
  apply dropWhile_append_of_stop h.space
  obtain ⟨c, rest, hc, hsp, -, -⟩ := h.head_eq
  rw [hc]
  rintro d hd
  rwa [← Option.some.inj hd]

/-- `strtol` reads a number with these parts. -/
theorem strtol_eq (h : NumberParts w sign ds r) :
    strtol (w ++ (sign ++ (ds ++ r))) = (signedVal sign ds, r) := by
  have hne : ¬ ds.isEmpty = true := by
    rw [List.isEmpty_iff]
    exact h.ne_nil
  simp only [strtol, h.dropWhile_isSpace, h.takeSign_eq, takeWhile_append_of_stop h.digits h.stop,
    dropWhile_append_of_stop h.digits h.stop, if_neg hne, signedVal, decide_eq_true_eq]

end NumberParts

theorem takeSign_split (s : List UInt8) :
    ∃ sign, s = sign ++ (takeSign s).2 ∧ (sign = [] ∨ sign = [43] ∨ sign = [45]) := by
  cases s with
  | nil => exact ⟨[], rfl, .inl rfl⟩
  | cons c rest =>
    rw [takeSign]
    split_ifs with hplus hminus
    · exact ⟨[43], by rw [hplus]; rfl, .inr (.inl rfl)⟩
    · exact ⟨[45], by rw [hminus]; rfl, .inr (.inr rfl)⟩
    · exact ⟨[], rfl, .inl rfl⟩

/-- Where there are digits there is a number. -/
theorem exists_numberParts_of_digits {s : List UInt8}
    (h : (takeSign (s.dropWhile isSpace)).2.takeWhile isDigit ≠ []) :
    ∃ w sign ds r, s = w ++ (sign ++ (ds ++ r)) ∧ NumberParts w sign ds r := by
  obtain ⟨sign, hsign, hsigns⟩ := takeSign_split (s.dropWhile isSpace)
  refine ⟨s.takeWhile isSpace, sign, (takeSign (s.dropWhile isSpace)).2.takeWhile isDigit,
    (takeSign (s.dropWhile isSpace)).2.dropWhile isDigit, ?_, ?_⟩
  · rw [List.takeWhile_append_dropWhile, ← hsign, List.takeWhile_append_dropWhile]
  · refine ⟨fun c hc => List.mem_takeWhile_imp hc, hsigns, fun c hc => List.mem_takeWhile_imp hc,
      h, fun c hc => ?_⟩
    have hstop := List.head?_dropWhile_not isDigit (takeSign (s.dropWhile isSpace)).2
    rw [hc] at hstop
    exact hstop

/-- Where `strtol` moves on it has read a number. -/
theorem exists_numberParts {s : List UInt8} (h : (strtol s).2 ≠ s) :
    ∃ w sign ds r, s = w ++ (sign ++ (ds ++ r)) ∧ NumberParts w sign ds r := by
  apply exists_numberParts_of_digits
  intro hnil
  apply h
  simp only [strtol, hnil, List.isEmpty_nil, if_true]

/-- What `strtol` has read, and what it reads when something else follows. -/
theorem strtol_split {s : List UInt8} (h : (strtol s).2 ≠ s) :
    ∃ t, s = t ++ (strtol s).2 ∧ ReadsNumber t (strtol s).1 := by
  obtain ⟨w, sign, ds, r, rfl, hparts⟩ := exists_numberParts h
  rw [hparts.strtol_eq]
  have hall : NumberParts w sign ds [] := hparts.changeRest fun c hc => nomatch hc
  refine ⟨w ++ (sign ++ ds), by simp only [List.append_assoc], ?_, ?_⟩
  · simp only [ne_eq, List.append_eq_nil_iff, hparts.ne_nil, and_false, not_false_eq_true]
  · have hread := hall.strtol_eq
    rwa [List.append_nil] at hread

theorem ReadsNumber.exists_parts {t : List UInt8} {v : ℤ} (h : ReadsNumber t v) :
    ∃ w sign ds, t = w ++ (sign ++ ds) ∧ v = signedVal sign ds ∧ NumberParts w sign ds [] := by
  have hne : (strtol t).2 ≠ t := by
    rw [h.2]
    exact Ne.symm h.1
  obtain ⟨w, sign, ds, r, rfl, hparts⟩ := exists_numberParts hne
  have hread := hparts.strtol_eq
  rw [h.2, Prod.mk.injEq] at hread
  obtain ⟨rfl, rfl⟩ := hread
  exact ⟨w, sign, ds, by rw [List.append_nil], rfl, hparts⟩

/-- A number has no comma in it, and not only spaces. -/
theorem ReadsNumber.chars {t : List UInt8} {v : ℤ} (h : ReadsNumber t v) :
    (44 : UInt8) ∉ t ∧ ∃ c ∈ t, c ≠ 32 := by
  obtain ⟨w, sign, ds, rfl, -, hparts⟩ := h.exists_parts
  have hdigit : ∀ c ∈ ds, c ≠ 44 ∧ c ≠ 32 := by
    intro c hc
    have hd := hparts.digits c hc
    constructor
    · rintro rfl
      cases hd
    · rintro rfl
      cases hd
  constructor
  · intro hmem
    rcases List.mem_append.1 hmem with hmem | hmem
    · exact absurd (hparts.space 44 hmem) (by decide)
    · rcases List.mem_append.1 hmem with hmem | hmem
      · rcases hparts.sign with rfl | rfl | rfl
        · cases hmem
        · exact absurd (List.mem_singleton.1 hmem) (by decide)
        · exact absurd (List.mem_singleton.1 hmem) (by decide)
      · exact (hdigit 44 hmem).1 rfl
  · obtain ⟨d, hd⟩ := List.exists_mem_of_ne_nil ds hparts.ne_nil
    exact ⟨d, List.mem_append_right _ (List.mem_append_right _ hd), (hdigit d hd).2⟩

/-- A number is read up to what stands after it. -/
theorem ReadsNumber.strtol_append {t r : List UInt8} {v : ℤ} (h : ReadsNumber t v)
    (hr : ∀ c, r.head? = some c → isDigit c = false) : strtol (t ++ r) = (v, r) := by
  obtain ⟨w, sign, ds, rfl, rfl, hparts⟩ := h.exists_parts
  have hread := (hparts.changeRest hr).strtol_eq
  rwa [← List.append_assoc, ← List.append_assoc, List.append_assoc w] at hread

/-- A number is still read after the blanks in front of it are skipped. -/
theorem ReadsNumber.skip {t : List UInt8} {v : ℤ} (h : ReadsNumber t v) :
    ∃ c t', ReadsNumber (c :: t') v ∧ ∀ (l r : List UInt8) (p : UInt8 → Bool), (∀ c ∈ l, c = 32) →
      p 32 = true → (∀ c, c ≠ 32 → c ≠ 44 → p c = false) →
      (l ++ (t ++ r)).dropWhile p = c :: (t' ++ r) := by
  obtain ⟨w, sign, ds, rfl, rfl, hparts⟩ := h.exists_parts
  obtain ⟨c, t', hct, hc⟩ : ∃ c t', w.dropWhile (· == 32) ++ (sign ++ ds) = c :: t' ∧
      c ≠ 32 ∧ c ≠ 44 := by
    cases hw : w.dropWhile (· == 32) with
    | nil =>
      obtain ⟨c, t', hct, -, h44, h32⟩ := hparts.head_eq
      rw [List.append_nil] at hct
      exact ⟨c, t', hct, h32, h44⟩
    | cons c w' =>
      have hhead := List.head?_dropWhile_not (· == 32) w
      have hspace := hparts.space c ((List.dropWhile_sublist _).subset (hw ▸ List.mem_cons_self))
      rw [hw] at hhead
      refine ⟨c, w' ++ (sign ++ ds), rfl, by simpa using hhead, ?_⟩
      rintro rfl
      exact Bool.false_ne_true hspace
  refine ⟨c, t', ⟨List.cons_ne_nil c t', ?_⟩, ?_⟩
  · have hparts' : NumberParts (w.dropWhile (· == 32)) sign ds [] :=
      ⟨fun d hd => hparts.space d ((List.dropWhile_sublist _).subset hd), hparts.sign, hparts.digits,
        hparts.ne_nil, hparts.stop⟩
    have hread := hparts'.strtol_eq
    rwa [List.append_nil, hct] at hread
  · intro l r p hl hp hstop
    have hsplit : l ++ ((w ++ (sign ++ ds)) ++ r) =
        (l ++ w.takeWhile (· == 32)) ++ (c :: (t' ++ r)) := by
      rw [← List.cons_append, ← hct]
      conv_lhs => rw [← List.takeWhile_append_dropWhile (p := (· == 32)) (l := w)]
      simp only [List.append_assoc]
    rw [hsplit]
    apply dropWhile_append_of_stop
    · intro d hd
      have hd32 : d = 32 := by
        rcases List.mem_append.1 hd with hd | hd
        · exact hl d hd
        · simpa using List.mem_takeWhile_imp hd
      rw [hd32, hp]
    · intro d hd
      obtain rfl := Option.some.inj hd
      exact hstop c hc.1 hc.2

/-- The decimal number a text begins with, behind white space and with its sign. -/
def writtenNumber (t : List UInt8) : Option ℤ :=
  let signed := takeSign (t.dropWhile isSpace)
  let ds := signed.2.takeWhile isDigit
  if ds.isEmpty then none else some (if signed.1 then -(digitsVal ds : ℤ) else digitsVal ds)

/-- `strtol` returns that number, as far as a `long` goes. -/
theorem strtol_fst_eq (t : List UInt8) :
    (strtol t).1 = match writtenNumber t with
      | some n => clampLong n
      | none => 0 := by
  simp only [strtol, writtenNumber]
  split_ifs <;> rfl

theorem digitsVal_append_le (ds more : List UInt8) : digitsVal ds ≤ digitsVal (ds ++ more) := by
  induction more using List.reverseRecOn with
  | nil => rw [List.append_nil]
  | append_singleton more c ih =>
    have hlast : digitsVal (ds ++ more ++ [c]) = 10 * digitsVal (ds ++ more) + (c.toNat - 48) := by
      rw [digitsVal, List.foldl_append]
      rfl
    rw [← List.append_assoc, hlast]
    omega

theorem takeSign_append {s : List UInt8} (hne : s ≠ []) (more : List UInt8) :
    takeSign (s ++ more) = ((takeSign s).1, (takeSign s).2 ++ more) := by
  obtain ⟨c, rest, rfl⟩ := List.exists_cons_of_ne_nil hne
  rw [List.cons_append, takeSign, takeSign]
  split_ifs <;> rfl

/-- A text that begins with a number goes on with it: the number has the sign, and is no closer to zero. -/
theorem writtenNumber_append {t : List UInt8} {n : ℤ} (h : writtenNumber t = some n) (more : List UInt8) :
    ∃ m, writtenNumber (t ++ more) = some m ∧ (0 ≤ n ∧ n ≤ m ∨ n ≤ 0 ∧ m ≤ n) := by
  rw [writtenNumber] at h ⊢
  have hne : t.dropWhile isSpace ≠ [] := by
    intro hnil
    rw [hnil] at h
    cases h
  have hnempty : ¬(t.dropWhile isSpace).isEmpty = true := by rwa [List.isEmpty_iff]
  rw [List.dropWhile_append, if_neg hnempty, takeSign_append hne]
  dsimp only at h ⊢
  generalize takeSign (t.dropWhile isSpace) = signed at h ⊢
  obtain ⟨ds, hds⟩ : ∃ ds, (signed.2 ++ more).takeWhile isDigit = signed.2.takeWhile isDigit ++ ds := by
    rw [List.takeWhile_append]
    split_ifs with hall
    · exact ⟨_, congrArg (· ++ more.takeWhile isDigit) ((List.takeWhile_prefix _).eq_of_length hall).symm⟩
    · exact ⟨[], (List.append_nil _).symm⟩
  rw [hds]
  by_cases hempty : (signed.2.takeWhile isDigit).isEmpty = true
  · rw [if_pos hempty] at h
    cases h
  rw [if_neg hempty] at h
  have hlong : ¬(signed.2.takeWhile isDigit ++ ds).isEmpty = true := by
    rw [List.isEmpty_iff] at hempty ⊢
    exact List.append_ne_nil_of_left_ne_nil hempty ds
  have hle := digitsVal_append_le (signed.2.takeWhile isDigit) ds
  obtain rfl := Option.some.inj h
  refine ⟨_, if_neg hlong, ?_⟩
  split_ifs
  · omega
  · omega

theorem clampLong_of_le {n : ℤ} (hlow : -longMax - 1 ≤ n) (hhigh : n ≤ longMax) : clampLong n = n := by
  rw [clampLong, if_neg (by omega), if_neg (by omega)]

end CString
