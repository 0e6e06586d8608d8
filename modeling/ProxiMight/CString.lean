import Mathlib.Data.Int.Notation
import Mathlib.Data.List.DropRight
import Mathlib.Data.List.TakeWhile
import Mathlib.Tactic.Common

/-!
# C strings in fixed buffers

A C string is the list of its bytes up to the terminator.  `CBuf n` is the string a `char [n]` holds: it
leaves room for the terminator and has no NUL inside, so `strlcpy` is the only way to fill one.
`CArray` functions speak about the raw array, whose bytes after the terminator are whatever was there.

* **`strlcpy_of_fits`** — copying a string that fits loses nothing.
* **`cstr_writeStr`** — reading back a string written into an array, whatever the array held.
-/

namespace CString

/-- The NUL character. -/
def nul : UInt8 := 0

/-- `isspace` in the C locale. -/
def isSpace (c : UInt8) : Bool := c == 32 || (decide (9 ≤ c) && decide (c ≤ 13))

/-- `isdigit`. -/
def isDigit (c : UInt8) : Bool := decide (48 ≤ c) && decide (c ≤ 57)

/-- `tolower` in the C locale. -/
def toLower (c : UInt8) : UInt8 := if 65 ≤ c ∧ c ≤ 90 then c + 32 else c

/-- The bytes of a text literal. -/
def bytes (s : String) : List UInt8 := s.toList.map fun c => UInt8.ofNat c.toNat

/-- The string an array of bytes holds: what stands before the first NUL. -/
def cstr (a : List UInt8) : List UInt8 := a.takeWhile (· != nul)

theorem nul_notMem_cstr (a : List UInt8) : nul ∉ cstr a := by
  intro h
  have hne := List.mem_takeWhile_imp h
  simp at hne

theorem cstr_of_notMem {a : List UInt8} (h : nul ∉ a) : cstr a = a := by
  rw [cstr, List.takeWhile_eq_self_iff]
  intro c hc
  rw [bne_iff_ne]
  intro hc0
  exact h (hc0 ▸ hc)

theorem cstr_append_nul {s : List UInt8} (h : nul ∉ s) (rest : List UInt8) :
    cstr (s ++ nul :: rest) = s := by
  induction s with
  | nil => rfl
  | cons c s ih =>
    rw [List.mem_cons, not_or] at h
    rw [List.cons_append, cstr, List.takeWhile_cons, if_pos (by simpa using Ne.symm h.1)]
    rw [show List.takeWhile (· != nul) (s ++ nul :: rest) = s from ih h.2]

/-- A string held in a `char [n]`. -/
def CBuf (n : ℕ) : Type := { s : List UInt8 // s.length ≤ n - 1 ∧ nul ∉ s }

namespace CBuf

variable {n : ℕ}

/-- The characters before the terminator. -/
def str (b : CBuf n) : List UInt8 := b.1

/-- The empty string, as `memset` leaves it. -/
def empty : CBuf n := ⟨[], Nat.zero_le _, List.not_mem_nil⟩

instance : DecidableEq (CBuf n) :=
  inferInstanceAs (DecidableEq { s : List UInt8 // s.length ≤ n - 1 ∧ nul ∉ s })

instance : Inhabited (CBuf n) := ⟨empty⟩

/-- `buf[0] == '\0'`. -/
def isEmpty (b : CBuf n) : Bool := b.str.isEmpty

@[simp] theorem str_empty : (empty : CBuf n).str = [] := rfl

theorem length_str_le (b : CBuf n) : b.str.length ≤ n - 1 := b.2.1

theorem nul_notMem_str (b : CBuf n) : nul ∉ b.str := b.2.2

theorem ext_str {a b : CBuf n} (h : a.str = b.str) : a = b := Subtype.ext h

end CBuf

/-- The string copied by `strlcpy(dst, src, n)`: as much of `src` as leaves room for the terminator. -/
def strlcpy (n : ℕ) (src : List UInt8) : CBuf n :=
  ⟨(cstr src).take (n - 1), List.length_take_le _ _,
    fun h => nul_notMem_cstr src (List.mem_of_mem_take h)⟩

theorem strlcpy_of_fits {n : ℕ} {src : List UInt8} (h0 : nul ∉ src) (h : src.length ≤ n - 1) :
    (strlcpy n src).str = src := by
  show (cstr src).take (n - 1) = src
  rw [cstr_of_notMem h0, List.take_of_length_le h]

/-- A buffer copied into one that is no smaller. -/
theorem strlcpy_str {n m : ℕ} (b : CBuf m) (h : m ≤ n) : (strlcpy n b.str).str = b.str := by
  apply strlcpy_of_fits b.nul_notMem_str
  have hb := b.length_str_le
  omega

theorem strlcpy_self {n : ℕ} (b : CBuf n) : strlcpy n b.str = b :=
  CBuf.ext_str (strlcpy_str b (Nat.le_refl n))

/-- What does not fit may be left out before. -/
theorem strlcpy_take (n : ℕ) (src : List UInt8) : strlcpy n (src.take (n - 1)) = strlcpy n src := by
  apply CBuf.ext_str
  show (cstr (src.take (n - 1))).take (n - 1) = (cstr src).take (n - 1)
  rw [cstr, cstr, ← List.take_takeWhile, List.take_take, Nat.min_self]

/-- The array after a string is copied to its front: the bytes after the terminator stay. -/
def writeStr (array s : List UInt8) : List UInt8 := s ++ nul :: array.drop (s.length + 1)

theorem cstr_writeStr {s : List UInt8} (h : nul ∉ s) (array : List UInt8) :
    cstr (writeStr array s) = s :=
  cstr_append_nul h _

/-- A string of any length: no byte of it is NUL. -/
def CStr : Type := { s : List UInt8 // nul ∉ s }

namespace CStr

/-- The characters before the terminator. -/
def str (s : CStr) : List UInt8 := s.1

instance : DecidableEq CStr := inferInstanceAs (DecidableEq { s : List UInt8 // nul ∉ s })

instance : Inhabited CStr := ⟨⟨[], List.not_mem_nil⟩⟩

end CStr

/-- The string held in a buffer, passed as a pointer. -/
def CBuf.toCStr {n : ℕ} (b : CBuf n) : CStr := ⟨b.str, b.nul_notMem_str⟩

/-- White space cut off at both ends. -/
def trim (s : List UInt8) : List UInt8 := (s.dropWhile isSpace).rdropWhile isSpace

theorem trim_isPrefix (s : List UInt8) : trim s <+: s.dropWhile isSpace :=
  List.rdropWhile_prefix isSpace _

/-- A trimmed string does not end in white space. -/
theorem isSpace_getLast_trim {s : List UInt8} {c : UInt8} (h : (trim s).getLast? = some c) :
    isSpace c = false := by
  have hne : trim s ≠ [] := by
    rintro hnil
    rw [hnil] at h
    cases h
  rw [List.getLast?_eq_some_getLast hne] at h
  have hnot := List.rdropWhile_last_not isSpace _ hne
  obtain rfl := Option.some.inj h
  exact Bool.not_eq_true _ ▸ hnot

/-- A string with no white space at either end is its own trim. -/
theorem trim_of_ends {s : List UInt8} (hhead : ∀ c, s.head? = some c → isSpace c = false)
    (hlast : ∀ c, s.getLast? = some c → isSpace c = false) : trim s = s := by
  have hdrop : s.dropWhile isSpace = s := by
    cases s with
    | nil => rfl
    | cons c s => rw [List.dropWhile_cons, if_neg (by rw [hhead c rfl]; exact Bool.false_ne_true)]
  rw [trim, hdrop, List.rdropWhile_eq_self_iff]
  intro hne
  rw [hlast _ (List.getLast?_eq_some_getLast hne)]
  exact Bool.false_ne_true

/-- What ends in a character other than white space is not cut into. -/
theorem prefix_trim {p s : List UInt8} {c : UInt8} (hc : isSpace c = false)
    (h : p ++ [c] <+: s.dropWhile isSpace) : p ++ [c] <+: trim s := by
  obtain ⟨rest, hrest⟩ := h
  rw [trim, ← hrest]
  clear hrest
  induction rest using List.reverseRecOn with
  | nil =>
    have hkeep : List.rdropWhile isSpace (p ++ [c]) = p ++ [c] :=
      List.rdropWhile_concat_neg _ _ _ (by rw [hc]; exact Bool.false_ne_true)
    simp only [List.append_nil, hkeep, List.prefix_rfl]
  | append_singleton rest d ih =>
    rw [← List.append_assoc]
    by_cases hd : isSpace d = true
    · rw [List.rdropWhile_concat_pos _ _ _ hd]
      exact ih
    · rw [List.rdropWhile_concat_neg _ _ _ hd, List.append_assoc]
      exact List.prefix_append _ _

/-- Cutting a string short keeps where its first character stands. -/
theorem dropWhile_take_isPrefix (p : UInt8 → Bool) (s : List UInt8) (n : ℕ) :
    (s.take n).dropWhile p <+: s.dropWhile p := by
  induction s generalizing n with
  | nil => simp only [List.take_nil, List.prefix_rfl]
  | cons c s ih =>
    cases n with
    | zero => exact List.nil_prefix
    | succ n =>
      rw [List.take_succ_cons, List.dropWhile_cons, List.dropWhile_cons]
      split_ifs
      · exact ih n
      · rw [← List.take_succ_cons]
        exact List.take_prefix _ _

/-! ### Numbers -/

/-- `LONG_MAX` where `long` has 32 bits, the least that C allows. -/
def longMax : ℤ := 2147483647

/-- The value of a run of decimal digits. -/
def digitsVal (ds : List UInt8) : ℕ := ds.foldl (fun v c => 10 * v + (c.toNat - 48)) 0

/-- Out of range, `strtol` returns the nearest `long`. -/
def clampLong (v : ℤ) : ℤ := if v > longMax then longMax else if v < -longMax - 1 then -longMax - 1 else v

/-- The optional sign of a number: whether it is a minus, and what follows it. -/
def takeSign : List UInt8 → Bool × List UInt8
  | [] => (false, [])
  | c :: rest => if c = 43 then (false, rest) else if c = 45 then (true, rest) else (false, c :: rest)

/-- `strtol(s, &end, 10)`: the number and what `end` points at, which is `s` itself where no number
stands. -/
def strtol (s : List UInt8) : ℤ × List UInt8 :=
  let signed := takeSign (s.dropWhile isSpace)
  let v : ℤ := digitsVal (signed.2.takeWhile isDigit)
  if (signed.2.takeWhile isDigit).isEmpty then (0, s)
  else (clampLong (if signed.1 then -v else v), signed.2.dropWhile isDigit)

theorem takeSign_suffix (s : List UInt8) : (takeSign s).2 <:+ s := by
  cases s with
  | nil => exact List.suffix_refl _
  | cons c rest =>
    rw [takeSign]
    split_ifs
    · exact List.suffix_cons c rest
    · exact List.suffix_cons c rest
    · exact List.suffix_refl _

/-- `end` points into `s`. -/
theorem strtol_suffix (s : List UInt8) : (strtol s).2 <:+ s := by
  by_cases hds : ((takeSign (s.dropWhile isSpace)).2.takeWhile isDigit).isEmpty
  · have hs : (strtol s).2 = s := by simp only [strtol, if_pos hds]
    simp only [hs, List.suffix_refl]
  · rw [show (strtol s).2 = (takeSign (s.dropWhile isSpace)).2.dropWhile isDigit from by
      simp only [strtol, if_neg hds]]
    exact ((List.dropWhile_suffix isDigit).trans (takeSign_suffix _)).trans
      (List.dropWhile_suffix isSpace)

theorem strtol_length_le (s : List UInt8) : (strtol s).2.length ≤ s.length :=
  (strtol_suffix s).length_le

/-- Where it reads a number, `strtol` moves on. -/
theorem strtol_length_lt {s : List UInt8} (h : (strtol s).2 ≠ s) : (strtol s).2.length < s.length := by
  have hle := strtol_length_le s
  have hne : (strtol s).2.length ≠ s.length := fun heq => h ((strtol_suffix s).eq_of_length heq)
  omega

end CString
