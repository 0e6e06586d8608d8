import Mathlib.Logic.Function.Basic
import Mathlib.Tactic.Common

/-!
# Files by path

A file system is the partial map from paths to contents.  Replacing a file through a temporary one is to
write the temporary and to rename it over the target: the target is touched by the rename alone.

* **`rename_write`** — after the rename the target holds what was written, whatever it held before.
-/

namespace Files

variable {π γ : Type*}

/-- The files there are, with their contents. -/
abbrev Store (π γ : Type*) := π → Option γ

variable [DecidableEq π]

/-- A file created or truncated, and written. -/
def write (fs : Store π γ) (p : π) (c : γ) : Store π γ := Function.update fs p (some c)

def remove (fs : Store π γ) (p : π) : Store π γ := Function.update fs p none

/-- The file at `p` takes the name `q`, whose file is gone; a file renamed to itself stays. -/
def rename (fs : Store π γ) (p q : π) : Store π γ := Function.update (remove fs p) q (fs p)

variable {fs : Store π γ} {p q : π} {c : γ}

@[simp] theorem write_self : write fs p c p = some c := Function.update_self p _ fs

theorem write_of_ne (h : p ≠ q) : write fs p c q = fs q := Function.update_of_ne (Ne.symm h) _ fs

@[simp] theorem remove_self : remove fs p p = none := Function.update_self p _ fs

theorem remove_of_ne (h : p ≠ q) : remove fs p q = fs q := Function.update_of_ne (Ne.symm h) _ fs

@[simp] theorem rename_target : rename fs p q q = fs p := Function.update_self q _ _

/-- **Replacing a file.**  The renamed temporary is all there is at the target. -/
theorem rename_write : rename (write fs p c) p q q = some c := by
  rw [rename_target, write_self]

end Files
