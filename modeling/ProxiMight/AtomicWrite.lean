import ProxiMight.CString
import ProxiMight.Files
import ProxiMight.Types

/-!
# Replacing a file in one step (`pmx_profile.c`, `write_file_atomic`)

The bytes go to `<path>.tmp`, which is then renamed over the target.  What the C library does in one
call is a `WriteOutcome`: `fwrite` buffers, so bytes it has taken can still be lost when the stream is
flushed or closed, and only if both succeed does the temporary file hold all that was taken.

* **`writeFileAtomic_whole_iff`** — when the target is left with its old contents or all of the new.
-/

namespace ProxiMight

open CString Files

/-- A file system under C paths. -/
abbrev Disk := Store CStr (List UInt8)

/-- What the C library does in one call that writes `len` bytes. -/
structure WriteOutcome (len : ℕ) where
  /-- `fopen` succeeds. -/
  opened : Bool
  /-- What `fwrite` returns. -/
  written : ℕ
  flushed : Bool
  closed : Bool
  /-- How many of the bytes the temporary file holds once it is closed. -/
  kept : ℕ
  removed : Bool
  renamed : Bool
  written_le : written ≤ len
  kept_le : kept ≤ len
  kept_all : written = len → flushed = true → closed = true → kept = len

/-- `tmp`, the target's name with `.tmp` appended, cut to the size of the array. -/
def tmpPath (path : CStr) : CStr := (strlcpy (pmxMaxPath + 8) (path.str ++ bytes ".tmp")).toCStr

def writeFileAtomic (fs : Disk) (path : CStr) (data : List UInt8) (o : WriteOutcome data.length) :
    Disk × PmxStatus :=
  let tmp := tmpPath path
  if o.opened then
    -- what `fflush` and `fclose` return is not looked at
    let fs := write fs tmp (data.take o.kept)
    let wr := if data.length > 0 then o.written else 0
    if wr ≠ data.length then (if o.removed then remove fs tmp else fs, .errIo)
    else if o.renamed then (rename fs tmp path, .ok)
    else (fs, .errIo)
  else (fs, .errIo)

/-! ### The temporary file -/

theorem nul_notMem_tmpName (path : CStr) : nul ∉ path.str ++ bytes ".tmp" := by
  rw [List.mem_append, not_or]
  exact ⟨path.2, by decide⟩

theorem tmpPath_str (path : CStr) : (tmpPath path).str = (path.str ++ bytes ".tmp").take 1031 := by
  show (cstr (path.str ++ bytes ".tmp")).take 1031 = _
  rw [cstr_of_notMem (nul_notMem_tmpName path)]

/-- The temporary is the target itself where the name fills the array to the last character. -/
theorem tmpPath_eq_iff (path : CStr) : tmpPath path = path ↔ path.str.length = 1031 := by
  have hlen : (tmpPath path).str.length = min 1031 (path.str.length + 4) := by
    rw [tmpPath_str, List.length_take, List.length_append]
    rfl
  constructor
  · intro h
    rw [h] at hlen
    omega
  · intro h
    apply Subtype.ext
    show (tmpPath path).str = path.str
    rw [tmpPath_str, ← h, List.take_left]

/-! ### The target -/

/-- The target holds its old contents or all of the new, and success means the new. -/
def WholeAfter (path : CStr) (data : List UInt8) (fs fs' : Disk) (st : PmxStatus) : Prop :=
  (fs' path = fs path ∨ fs' path = some data) ∧ (st = .ok → fs' path = some data)

/-- What a file written in place is left with. -/
def leftInPlace (data : List UInt8) (o : WriteOutcome data.length) : Option (List UInt8) :=
  if o.written ≠ data.length ∧ o.removed = true then none else some (data.take o.kept)

/-- The conditions under which a write leaves the target whole.  The first fails when the stream loses
bytes that `fwrite` took; the second is about a name of 1031 bytes, where the temporary is the target. -/
def WritesWhole (fs : Disk) (path : CStr) (data : List UInt8) (o : WriteOutcome data.length) : Prop :=
  o.opened = true →
    (o.written = data.length → o.renamed = true → o.kept = data.length) ∧
    (path.str.length = 1031 →
      leftInPlace data o = fs path ∨ leftInPlace data o = some data)

theorem take_kept_iff {data : List UInt8} (o : WriteOutcome data.length) :
    some (data.take o.kept) = some data ↔ o.kept = data.length := by
  have hle := o.kept_le
  rw [Option.some.injEq]
  constructor
  · intro h
    have hlen := congrArg List.length h
    rw [List.length_take] at hlen
    omega
  · intro h
    rw [h, List.take_length]

/-- `fwrite` is not called for no bytes at all. -/
theorem written_eq {data : List UInt8} (o : WriteOutcome data.length) :
    (if data.length > 0 then o.written else 0) = o.written := by
  have hle := o.written_le
  split_ifs with h
  · rfl
  · omega

/-- The three ways a call that opened its temporary ends. -/
theorem writeFileAtomic_opened (fs : Disk) (path : CStr) {data : List UInt8}
    {o : WriteOutcome data.length} (hopen : o.opened = true) :
    writeFileAtomic fs path data o =
      let fs' := write fs (tmpPath path) (data.take o.kept)
      if o.written ≠ data.length then (if o.removed then remove fs' (tmpPath path) else fs', .errIo)
      else if o.renamed then (rename fs' (tmpPath path) path, .ok)
      else (fs', .errIo) := by
  simp only [writeFileAtomic, if_pos hopen, written_eq]

/-- Through a temporary of its own, only a rename that succeeds reaches the target. -/
theorem writeFileAtomic_apart {fs : Disk} {path : CStr} {data : List UInt8}
    {o : WriteOutcome data.length} (hopen : o.opened = true) (hne : tmpPath path ≠ path) :
    (writeFileAtomic fs path data o).1 path =
      if o.written = data.length ∧ o.renamed = true then some (data.take o.kept) else fs path := by
  rw [writeFileAtomic_opened fs path hopen]
  by_cases hwr : o.written = data.length
  · by_cases hren : o.renamed = true
    · simp only [hwr, hren, ne_eq, not_true_eq_false, if_false, if_true, and_self, rename_write]
    · simp [hwr, hren, write_of_ne hne]
  · by_cases hrem : o.removed = true
    · simp [hwr, hrem, remove_of_ne hne, write_of_ne hne]
    · simp [hwr, hrem, write_of_ne hne]

/-- A file written in place holds what the call left of the bytes. -/
theorem writeFileAtomic_inPlace {fs : Disk} {path : CStr} {data : List UInt8}
    {o : WriteOutcome data.length} (hopen : o.opened = true) (heq : tmpPath path = path) :
    (writeFileAtomic fs path data o).1 path = leftInPlace data o := by
  rw [writeFileAtomic_opened fs path hopen, heq]
  by_cases hwr : o.written = data.length
  · by_cases hren : o.renamed = true
    · simp [hwr, hren, leftInPlace]
    · simp [hwr, hren, leftInPlace]
  · by_cases hrem : o.removed = true
    · simp [hwr, hrem, leftInPlace]
    · simp [hwr, hrem, leftInPlace]

/-- Success is a write that `fwrite` took in full and a rename that replaced the target. -/
theorem writeFileAtomic_ok_iff {fs : Disk} {path : CStr} {data : List UInt8}
    {o : WriteOutcome data.length} (hopen : o.opened = true) :
    (writeFileAtomic fs path data o).2 = .ok ↔ o.written = data.length ∧ o.renamed = true := by
  rw [writeFileAtomic_opened fs path hopen]
  by_cases hwr : o.written = data.length
  · by_cases hren : o.renamed = true
    · simp [hwr, hren]
    · simp [hwr, hren]
  · simp [hwr]

/-- Through a temporary of its own: the rename must not bring in a file that lost bytes. -/
theorem wholeAfter_apart_iff {fs : Disk} {path : CStr} {data : List UInt8}
    {o : WriteOutcome data.length} (hopen : o.opened = true) (hne : tmpPath path ≠ path) :
    WholeAfter path data fs (writeFileAtomic fs path data o).1 (writeFileAtomic fs path data o).2 ↔
      (o.written = data.length → o.renamed = true → o.kept = data.length) := by
  rw [WholeAfter, writeFileAtomic_apart hopen hne, writeFileAtomic_ok_iff hopen]
  by_cases hdone : o.written = data.length ∧ o.renamed = true
  · rw [if_pos hdone, take_kept_iff]
    constructor
    · rintro ⟨-, hok⟩ - -
      exact hok hdone
    · intro hkept
      exact ⟨Or.inr (hkept hdone.1 hdone.2), fun _ => hkept hdone.1 hdone.2⟩
  · rw [if_neg hdone]
    constructor
    · intro _ hwr hren
      exact absurd ⟨hwr, hren⟩ hdone
    · intro _
      exact ⟨Or.inl rfl, fun h => absurd h hdone⟩

/-- In place: what the call leaves must be the one or the other. -/
theorem wholeAfter_inPlace_iff {fs : Disk} {path : CStr} {data : List UInt8}
    {o : WriteOutcome data.length} (hopen : o.opened = true) (heq : tmpPath path = path) :
    WholeAfter path data fs (writeFileAtomic fs path data o).1 (writeFileAtomic fs path data o).2 ↔
      (o.written = data.length → o.renamed = true → o.kept = data.length) ∧
        (leftInPlace data o = fs path ∨ leftInPlace data o = some data) := by
  rw [WholeAfter, writeFileAtomic_inPlace hopen heq, writeFileAtomic_ok_iff hopen]
  have hleft : o.written = data.length → (leftInPlace data o = some data ↔ o.kept = data.length) := by
    intro hwr
    rw [leftInPlace, if_neg (fun h => h.1 hwr), take_kept_iff]
  constructor
  · rintro ⟨hor, hok⟩
    exact ⟨fun hwr hren => (hleft hwr).1 (hok ⟨hwr, hren⟩), hor⟩
  · rintro ⟨hkept, hor⟩
    exact ⟨hor, fun h => (hleft h.1).2 (hkept h.1 h.2)⟩

/-- **A save leaves the target whole exactly when nothing `fwrite` took is lost before the rename.** -/
theorem writeFileAtomic_whole_iff (fs : Disk) (path : CStr) (data : List UInt8)
    (o : WriteOutcome data.length) :
    WholeAfter path data fs (writeFileAtomic fs path data o).1 (writeFileAtomic fs path data o).2 ↔
      WritesWhole fs path data o := by
  by_cases hopen : o.opened = true
  · rw [WritesWhole, forall_prop_of_true hopen]
    by_cases heq : tmpPath path = path
    · rw [wholeAfter_inPlace_iff hopen heq, forall_prop_of_true ((tmpPath_eq_iff path).1 heq)]
    · have hlen : ¬ path.str.length = 1031 := fun h => heq ((tmpPath_eq_iff path).2 h)
      rw [wholeAfter_apart_iff hopen heq]
      exact ⟨fun h => ⟨h, fun hfull => absurd hfull hlen⟩, fun h => h.1⟩
  · have hresult : writeFileAtomic fs path data o = (fs, .errIo) := by
      simp only [writeFileAtomic, if_neg hopen]
    rw [hresult]
    exact ⟨fun _ h => absurd h hopen, fun _ => ⟨Or.inl rfl, fun h => PmxStatus.noConfusion h⟩⟩

/-- The disk is full: the stream takes both bytes and loses them when it is flushed and closed. -/
def fullDisk : WriteOutcome 2 where
  opened := true
  written := 2
  flushed := false
  closed := false
  kept := 0
  removed := true
  renamed := true
  written_le := Nat.le_refl 2
  kept_le := Nat.zero_le 2
  kept_all := fun _ h => absurd h Bool.false_ne_true

/-- The old profile is replaced by an empty file, and the save reports success. -/
theorem fullDisk_truncates :
    let path : CStr := (strlcpy pmxMaxPath (bytes "profile.pmx")).toCStr
    let fs : Disk := write (fun _ => none) path (bytes "old")
    let r := writeFileAtomic fs path [1, 2] fullDisk
    r.1 path = some [] ∧ r.2 = .ok ∧ ¬ WholeAfter path [1, 2] fs r.1 r.2 := by
  refine ⟨by decide, rfl, ?_⟩
  rintro ⟨-, hok⟩
  exact absurd (hok rfl) (by decide)

end ProxiMight
