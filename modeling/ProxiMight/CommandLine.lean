import Mathlib.Data.List.DropRight
import Mathlib.Tactic.Common

/-!
# How a program on Windows reads its command line

A command line is one string.  What is between double quotes is one argument, blanks and all; elsewhere
blanks end an argument.  A backslash stands for itself unless a double quote follows the run of backslashes
it is in: then two backslashes stand for one, and an odd one makes the double quote a character.

* **`arguments_render`** — arguments written with blanks in front are read back, a quoted one if it has no
  double quote and does not end in a backslash.
* **`arguments_render_ne`** — one that ends in a backslash is not read back.
-/

namespace CommandLine

def quote : UInt8 := 34
def backslash : UInt8 := 92

/-- A space or a tab. -/
def isBlank (c : UInt8) : Bool := c == 32 || c == 9

/-! ### The rules -/

/-- Outside quotes, inside, or right behind the double quote that ended them. -/
inductive Mode
  | bare
  | quoted
  | closed
  deriving DecidableEq

/-- The mode after a character other than a double quote. -/
def Mode.resume : Mode → Mode
  | .closed => .bare
  | m => m

/-- Where the scan of the arguments stands: those that are complete, the one that is being read, and the
backslashes that have just been read. -/
structure Scan where
  done : List (List UInt8)
  arg : Option (List UInt8)
  slashes : ℕ
  mode : Mode
  deriving DecidableEq

/-- Between two arguments. -/
def Scan.between (d : List (List UInt8)) : Scan := ⟨d, none, 0, .bare⟩

/-- The argument with `n` backslashes behind it. -/
def Scan.slashed (s : Scan) (n : ℕ) : List UInt8 := s.arg.getD [] ++ List.replicate n backslash

/-- The arguments, if the line or the argument ends here. -/
def Scan.finish (s : Scan) : List (List UInt8) :=
  match s.arg with
  | none => s.done
  | some _ => s.done ++ [s.slashed s.slashes]

/-- A double quote. -/
def Scan.stepQuote (s : Scan) : Scan :=
  if s.slashes % 2 = 1 then
    ⟨s.done, some (s.slashed (s.slashes / 2) ++ [quote]), 0, s.mode.resume⟩
  else
    match s.mode with
    | .bare => ⟨s.done, some (s.slashed (s.slashes / 2)), 0, .quoted⟩
    | .quoted => ⟨s.done, some (s.slashed (s.slashes / 2)), 0, .closed⟩
    -- two double quotes inside quotes are one, and the quotes go on
    | .closed => ⟨s.done, some (s.slashed (s.slashes / 2) ++ [quote]), 0, .quoted⟩

def Scan.step (s : Scan) (c : UInt8) : Scan :=
  if c = backslash then ⟨s.done, some (s.arg.getD []), s.slashes + 1, s.mode.resume⟩
  else if c = quote then s.stepQuote
  else if isBlank c = true ∧ s.mode ≠ .quoted then .between s.finish
  else ⟨s.done, some (s.slashed s.slashes ++ [c]), 0, s.mode.resume⟩

/-- The arguments of a line behind the name of the program. -/
def arguments (line : List UInt8) : List (List UInt8) := (line.foldl Scan.step (.between [])).finish

/-- The name of the program, in double quotes or up to a blank, and what follows it. -/
def programName : List UInt8 → List UInt8 × List UInt8
  | [] => ([], [])
  | c :: rest =>
    if c = quote then (rest.takeWhile (· != quote), (rest.dropWhile (· != quote)).drop 1)
    else ((c :: rest).takeWhile fun c => !isBlank c, (c :: rest).dropWhile fun c => !isBlank c)

/-- What a program gets as `argv`. -/
def argv (line : List UInt8) : List (List UInt8) := (programName line).1 :: arguments (programName line).2

/-! ### Writing a line -/

/-- `s` in double quotes. -/
def inQuotes (s : List UInt8) : List UInt8 := quote :: (s ++ [quote])

/-- An argument as it is written. -/
inductive Piece
  | bare (w : List UInt8)
  | quoted (s : List UInt8)

/-- What is written. -/
def Piece.text : Piece → List UInt8
  | .bare w => w
  | .quoted s => inQuotes s

/-- What is meant. -/
def Piece.value : Piece → List UInt8
  | .bare w => w
  | .quoted s => s

/-- Neither blank, nor double quote, nor backslash. -/
def IsWord (w : List UInt8) : Prop := w ≠ [] ∧ ∀ c ∈ w, c ≠ quote ∧ c ≠ backslash ∧ isBlank c = false

instance (w : List UInt8) : Decidable (IsWord w) := inferInstanceAs (Decidable (_ ∧ _))

/-- What can be written so. -/
def Piece.Plain : Piece → Prop
  | .bare w => IsWord w
  | .quoted s => quote ∉ s ∧ s.getLast? ≠ some backslash

/-- The arguments with a space in front of each. -/
def render (ps : List Piece) : List UInt8 := ps.flatMap fun p => 32 :: p.text

theorem render_cons (p : Piece) (ps : List Piece) : render (p :: ps) = 32 :: (p.text ++ render ps) := rfl

theorem programName_inQuotes {s : List UInt8} (hs : quote ∉ s) (rest : List UInt8) :
    programName (inQuotes s ++ rest) = (s, rest) := by
  have hkeep : ∀ c ∈ s, (c != quote) = true := by
    intro c hc
    rw [bne_iff_ne]
    rintro rfl
    exact hs hc
  show programName (quote :: ((s ++ [quote]) ++ rest)) = _
  rw [programName, if_pos rfl, List.append_assoc, List.takeWhile_append_of_pos hkeep,
    List.dropWhile_append_of_pos hkeep]
  simp

/-! ### Reading it -/

/-- A blank ends what there is, and `d` are the arguments then. -/
structure Ready (d : List (List UInt8)) (s : Scan) : Prop where
  mode : s.mode ≠ .quoted
  finish : s.finish = d

theorem ready_between (d : List (List UInt8)) : Ready d (.between d) := ⟨fun h => (by cases h), rfl⟩

theorem Ready.blank {d : List (List UInt8)} {s : Scan} (h : Ready d s) : s.step 32 = .between d := by
  rw [Scan.step, if_neg (by decide), if_neg (by decide), if_pos ⟨rfl, h.mode⟩, h.finish]

/-- A character of a word. -/
theorem step_word {d : List (List UInt8)} {a : Option (List UInt8)} {c : UInt8}
    (hc : c ≠ quote ∧ c ≠ backslash ∧ isBlank c = false) :
    (Scan.mk d a 0 .bare).step c = ⟨d, some (a.getD [] ++ [c]), 0, .bare⟩ := by
  rw [Scan.step, if_neg hc.2.1, if_neg hc.1, if_neg (by rw [hc.2.2]; exact fun h => by cases h.1)]
  simp [Scan.slashed, Mode.resume]

theorem foldl_word {w : List UInt8} (hw : ∀ c ∈ w, c ≠ quote ∧ c ≠ backslash ∧ isBlank c = false)
    (d : List (List UInt8)) :
    ∀ a : List UInt8, w.foldl Scan.step ⟨d, some a, 0, .bare⟩ = ⟨d, some (a ++ w), 0, .bare⟩ := by
  induction w with
  | nil => intro a; simp
  | cons c w ih =>
    intro a
    rw [List.foldl_cons, step_word (hw c List.mem_cons_self),
      ih (fun c' hc' => hw c' (List.mem_cons_of_mem c hc'))]
    simp

/-- Inside quotes, characters other than double quotes are taken as they are; backslashes wait for what
follows them. -/
theorem foldl_quoted {t : List UInt8} (ht : quote ∉ t) (d : List (List UInt8)) :
    ∀ (a : List UInt8) (n : ℕ), a.getLast? ≠ some backslash →
      ∃ a' n', t.foldl Scan.step ⟨d, some a, n, .quoted⟩ = ⟨d, some a', n', .quoted⟩ ∧
        a' ++ List.replicate n' backslash = a ++ List.replicate n backslash ++ t ∧
        a'.getLast? ≠ some backslash := by
  induction t with
  | nil => intro a n ha; exact ⟨a, n, rfl, by simp, ha⟩
  | cons c t ih =>
    intro a n ha
    rw [List.mem_cons, not_or] at ht
    by_cases hc : c = backslash
    · have hstep : (Scan.mk d (some a) n .quoted).step c = ⟨d, some a, n + 1, .quoted⟩ := by
        rw [Scan.step, if_pos hc]
        rfl
      obtain ⟨a', n', hrun, htext, hlast⟩ := ih ht.2 a (n + 1) ha
      refine ⟨a', n', ?_, ?_, hlast⟩
      · rw [List.foldl_cons, hstep, hrun]
      · rw [htext, hc, List.replicate_succ']
        simp
    · have hstep : (Scan.mk d (some a) n .quoted).step c
          = ⟨d, some (a ++ List.replicate n backslash ++ [c]), 0, .quoted⟩ := by
        rw [Scan.step, if_neg hc, if_neg (Ne.symm ht.1), if_neg fun h => h.2 rfl]
        rfl
      obtain ⟨a', n', hrun, htext, hlast⟩ :=
        ih ht.2 (a ++ List.replicate n backslash ++ [c]) 0 (by simpa using hc)
      refine ⟨a', n', ?_, ?_, hlast⟩
      · rw [List.foldl_cons, hstep, hrun]
      · rw [htext]
        simp

/-- A quoted text up to its closing double quote: what it says, and the backslashes at its end. -/
theorem foldl_open {s : List UInt8} (hs : quote ∉ s) (d : List (List UInt8)) :
    ∃ a n, (quote :: s).foldl Scan.step (.between d) = ⟨d, some a, n, .quoted⟩ ∧
      s = a ++ List.replicate n backslash ∧ a.getLast? ≠ some backslash := by
  have hstep : (Scan.between d).step quote = ⟨d, some [], 0, .quoted⟩ := by
    rw [Scan.step, if_neg (by decide), if_pos rfl]
    simp [Scan.stepQuote, Scan.between, Scan.slashed]
  obtain ⟨a, n, hrun, htext, hlast⟩ := foldl_quoted hs d [] 0 (by simp)
  refine ⟨a, n, ?_, by simpa using htext.symm, hlast⟩
  rw [List.foldl_cons, hstep, hrun]

/-- A double quote behind an odd run of backslashes is a character. -/
theorem step_quote_odd {n : ℕ} (hn : n % 2 = 1) (d : List (List UInt8)) (a : List UInt8) :
    (Scan.mk d (some a) n .quoted).step quote
      = ⟨d, some (a ++ List.replicate (n / 2) backslash ++ [quote]), 0, .quoted⟩ := by
  rw [Scan.step, if_neg (by decide), if_pos rfl, Scan.stepQuote, if_pos hn]
  rfl

/-- Behind an even one it ends the quotes. -/
theorem step_quote_even {n : ℕ} (hn : n % 2 ≠ 1) (d : List (List UInt8)) (a : List UInt8) :
    (Scan.mk d (some a) n .quoted).step quote
      = ⟨d, some (a ++ List.replicate (n / 2) backslash), 0, .closed⟩ := by
  rw [Scan.step, if_neg (by decide), if_pos rfl, Scan.stepQuote, if_neg hn]
  rfl

theorem ready_closed (d : List (List UInt8)) (a : List UInt8) :
    Ready (d ++ [a]) ⟨d, some a, 0, .closed⟩ :=
  ⟨fun h => (by cases h), by simp [Scan.finish, Scan.slashed]⟩

/-- The backslashes at the end of a text. -/
theorem slashes_eq_zero_iff {a : List UInt8} {n : ℕ} (ha : a.getLast? ≠ some backslash) :
    (a ++ List.replicate n backslash).getLast? ≠ some backslash ↔ n = 0 := by
  cases n with
  | zero => simpa using ha
  | succ n =>
    rw [List.replicate_succ', ← List.append_assoc]
    simp

/-- One argument is read back. -/
theorem Piece.Plain.ready {p : Piece} (hp : p.Plain) (d : List (List UInt8)) :
    Ready (d ++ [p.value]) (p.text.foldl Scan.step (.between d)) := by
  cases p with
  | bare w =>
    obtain ⟨hne, hw⟩ := hp
    obtain ⟨c, w, rfl⟩ := List.exists_cons_of_ne_nil hne
    have hfirst : (Scan.between d).step c = ⟨d, some [c], 0, .bare⟩ :=
      step_word (hw c List.mem_cons_self)
    show Ready _ ((c :: w).foldl Scan.step (.between d))
    rw [List.foldl_cons, hfirst, foldl_word fun c' hc' => hw c' (List.mem_cons_of_mem c hc')]
    exact ⟨fun h => (by cases h), by simp [Scan.finish, Scan.slashed, Piece.value]⟩
  | quoted s =>
    obtain ⟨a, n, hrun, hs, hlast⟩ := foldl_open hp.1 d
    obtain rfl : n = 0 := by
      have hend := hp.2
      rw [hs] at hend
      exact (slashes_eq_zero_iff hlast).1 hend
    obtain rfl : s = a := by simpa using hs
    show Ready _ (((quote :: s) ++ [quote]).foldl Scan.step (.between d))
    rw [List.foldl_append, hrun, List.foldl_cons, step_quote_even (by decide), List.foldl_nil]
    simpa [Piece.value] using ready_closed d s

theorem Ready.render {ps : List Piece} (hps : ∀ p ∈ ps, p.Plain) :
    ∀ {d : List (List UInt8)} {s : Scan}, Ready d s →
      Ready (d ++ ps.map Piece.value) ((render ps).foldl Scan.step s) := by
  induction ps with
  | nil => intro d s h; simpa [CommandLine.render] using h
  | cons p ps ih =>
    intro d s h
    have hp := (hps p List.mem_cons_self).ready d
    have hrest := ih (fun p' hp' => hps p' (List.mem_cons_of_mem p hp')) hp
    rw [render_cons, List.foldl_cons, h.blank, List.foldl_append]
    simpa using hrest

/-- **Arguments are read back.** -/
theorem arguments_render {ps : List Piece} (hps : ∀ p ∈ ps, p.Plain) :
    arguments (render ps) = ps.map Piece.value :=
  (Ready.render hps (ready_between [])).finish

/-! ### What is not read back -/

/-- What has been read of the arguments stays. -/
theorem step_done (s : Scan) (c : UInt8) : s.done <+: (s.step c).done := by
  rw [Scan.step]
  split_ifs
  · exact List.prefix_rfl
  · rw [Scan.stepQuote]
    split_ifs
    · exact List.prefix_rfl
    · cases s.mode <;> exact List.prefix_rfl
  · show s.done <+: s.finish
    rw [Scan.finish]
    cases s.arg with
    | none => exact List.prefix_rfl
    | some a => exact List.prefix_append _ _
  · exact List.prefix_rfl

theorem foldl_done (line : List UInt8) : ∀ s : Scan, s.done <+: (line.foldl Scan.step s).finish := by
  induction line with
  | nil =>
    intro s
    rw [List.foldl_nil, Scan.finish]
    cases s.arg with
    | none => exact List.prefix_rfl
    | some a => exact List.prefix_append _ _
  | cons c line ih =>
    intro s
    exact (step_done s c).trans (ih (s.step c))

/-- The argument being read begins with `a`, or one that begins so is complete. -/
def Begun (d : List (List UInt8)) (a : List UInt8) (s : Scan) : Prop :=
  (s.done = d ∧ ∃ b, s.arg = some b ∧ a <+: b) ∨ ∃ b, a <+: b ∧ d ++ [b] <+: s.done

theorem Begun.finish {d : List (List UInt8)} {a : List UInt8} {s : Scan} (h : Begun d a s) :
    ∃ b, a <+: b ∧ d ++ [b] <+: s.finish := by
  rcases h with ⟨rfl, b, harg, hb⟩ | ⟨b, hb, hdone⟩
  · refine ⟨s.slashed s.slashes, ?_, ?_⟩
    · rw [Scan.slashed, harg]
      exact hb.trans (List.prefix_append _ _)
    · simp only [Scan.finish, harg, List.prefix_rfl]
  · exact ⟨b, hb, hdone.trans (foldl_done [] s)⟩

theorem Begun.step {d : List (List UInt8)} {a : List UInt8} {s : Scan} (h : Begun d a s) (c : UInt8) :
    Begun d a (s.step c) := by
  by_cases hblank : isBlank c = true ∧ s.mode ≠ .quoted ∧ c ≠ backslash ∧ c ≠ quote
  · have hstep : s.step c = .between s.finish := by
      rw [Scan.step, if_neg hblank.2.2.1, if_neg hblank.2.2.2, if_pos ⟨hblank.1, hblank.2.1⟩]
    rw [hstep]
    exact Or.inr h.finish
  · rcases h with ⟨hdone, b, harg, hb⟩ | ⟨b, hb, hdone⟩
    · left
      have hslashed : ∀ n, a <+: s.slashed n := by
        intro n
        rw [Scan.slashed, harg]
        exact hb.trans (List.prefix_append _ _)
      rw [Scan.step]
      split_ifs with hslash hquote hends
      · exact ⟨hdone, b, by rw [harg]; rfl, hb⟩
      · rw [Scan.stepQuote]
        split_ifs
        · exact ⟨hdone, _, rfl, (hslashed _).trans (List.prefix_append _ _)⟩
        · cases s.mode with
          | bare => exact ⟨hdone, _, rfl, hslashed _⟩
          | quoted => exact ⟨hdone, _, rfl, hslashed _⟩
          | closed => exact ⟨hdone, _, rfl, (hslashed _).trans (List.prefix_append _ _)⟩
      · exact absurd ⟨hends.1, hends.2, hslash, hquote⟩ hblank
      · exact ⟨hdone, _, rfl, (hslashed _).trans (List.prefix_append _ _)⟩
    · exact Or.inr ⟨b, hb, hdone.trans (step_done s c)⟩

theorem Begun.foldl {d : List (List UInt8)} {a : List UInt8} (line : List UInt8) :
    ∀ {s : Scan}, Begun d a s → Begun d a (line.foldl Scan.step s) := by
  induction line with
  | nil => intro s h; exact h
  | cons c line ih => intro s h; exact ih (h.step c)

/-- A quoted text that ends in a backslash is read as another: the double quote behind it is taken as part
of it, or the backslashes for half as many. -/
theorem arguments_of_trailing {ps : List Piece} (hps : ∀ p ∈ ps, p.Plain) {s : List UInt8}
    (hs : quote ∉ s) (hlast : s.getLast? = some backslash) {rest : List UInt8}
    (hrest : rest = [] ∨ ∃ r, rest = 32 :: r) :
    (arguments (render ps ++ 32 :: (inQuotes s ++ rest)))[ps.length]? ≠ some s := by
  obtain ⟨a, n, hrun, heq, ha⟩ := foldl_open hs (ps.map Piece.value)
  have hn : n ≠ 0 := fun h0 => (slashes_eq_zero_iff ha).2 h0 (heq ▸ hlast)
  have hscan : arguments (render ps ++ 32 :: (inQuotes s ++ rest))
      = (rest.foldl Scan.step ((Scan.mk (ps.map Piece.value) (some a) n .quoted).step quote)).finish := by
    have hready := Ready.render hps (ready_between [])
    rw [List.nil_append] at hready
    rw [arguments, List.foldl_append, List.foldl_cons, hready.blank]
    show (((quote :: (s ++ [quote])) ++ rest).foldl Scan.step _).finish = _
    rw [← List.cons_append, List.append_assoc, List.foldl_append, hrun]
    rfl
  have hget : ∀ {b : List UInt8} {l : List (List UInt8)}, ps.map Piece.value ++ [b] <+: l →
      l[ps.length]? = some b := by
    rintro b l ⟨t, rfl⟩
    simp
  rw [hscan]
  by_cases hodd : n % 2 = 1
  · rw [step_quote_odd hodd]
    have hbegun : Begun (ps.map Piece.value) (a ++ List.replicate (n / 2) backslash ++ [quote])
        ⟨ps.map Piece.value, some (a ++ List.replicate (n / 2) backslash ++ [quote]), 0, .quoted⟩ :=
      Or.inl ⟨rfl, _, rfl, List.prefix_rfl⟩
    obtain ⟨b, hb, hfinish⟩ := (hbegun.foldl rest).finish
    rw [hget hfinish]
    rintro ⟨⟩
    exact hs (hb.subset (by simp))
  · rw [step_quote_even hodd]
    have hready := ready_closed (ps.map Piece.value) (a ++ List.replicate (n / 2) backslash)
    have hfinish : ps.map Piece.value ++ [a ++ List.replicate (n / 2) backslash] <+:
        (rest.foldl Scan.step
          ⟨ps.map Piece.value, some (a ++ List.replicate (n / 2) backslash), 0, .closed⟩).finish := by
      rcases hrest with rfl | ⟨r, rfl⟩
      · rw [List.foldl_nil]
        exact hready.finish ▸ List.prefix_rfl
      · rw [List.foldl_cons, hready.blank]
        exact foldl_done r (.between _)
    rw [hget hfinish, heq, ne_eq, Option.some_inj, List.append_cancel_left_eq]
    intro hsame
    have hlen := congrArg List.length hsame
    simp only [List.length_replicate] at hlen
    omega

theorem render_append (ps qs : List Piece) : render (ps ++ qs) = render ps ++ render qs :=
  List.flatMap_append

/-- **An argument that ends in a backslash is not read back** if it stands in double quotes. -/
theorem arguments_render_ne {ps qs : List Piece} (hps : ∀ p ∈ ps, p.Plain) {s : List UInt8} (hs : quote ∉ s)
    (hlast : s.getLast? = some backslash) :
    arguments (render (ps ++ .quoted s :: qs)) ≠ (ps ++ .quoted s :: qs).map Piece.value := by
  have hrest : render qs = [] ∨ ∃ r, render qs = 32 :: r := by
    cases qs with
    | nil => exact Or.inl rfl
    | cons q qs => exact Or.inr ⟨_, render_cons q qs⟩
  intro h
  have hne := arguments_of_trailing hps hs hlast hrest
  rw [render_append, render_cons] at h
  rw [show (Piece.quoted s).text = inQuotes s from rfl] at h
  rw [h] at hne
  simp [Piece.value] at hne

end CommandLine
