import Mathlib.Logic.Function.Basic
import Mathlib.Data.List.Range
/-!
# File descriptors

The descriptors of a process and the files they are open on. `open` takes the
lowest one that is free, as POSIX has it. Nothing here knows what the files are.
-/

/-- The file that each descriptor is open on. -/
abbrev Descriptors (φ : Type) := Nat → Option φ

namespace Descriptors

variable {φ : Type}

def close (d : Descriptors φ) (t : Nat) : Descriptors φ := Function.update d t none

/-- `for (t = last; t >= 0; t--) close(t)`; a negative `last` closes none. -/
def closeFrom (d : Descriptors φ) (last : Int) : Descriptors φ :=
  (List.range (last + 1).toNat).reverse.foldl close d

/-- The lowest free descriptor below `limit` is opened on the file. -/
def openLowest (d : Descriptors φ) (limit : Nat) (file : φ) : Option (Nat × Descriptors φ) :=
  ((List.range limit).find? fun t => (d t).isNone).map fun t => (t, Function.update d t (some file))

/-- `dup2(t, t')`. -/
def dup2 (d : Descriptors φ) (limit t t' : Nat) : Option (Nat × Descriptors φ) :=
  if t' < limit then (d t).map fun file => (t', Function.update d t' (some file)) else none

theorem foldl_close (ts : List Nat) (d : Descriptors φ) (t : Nat) :
    ts.foldl close d t = if t ∈ ts then none else d t := by
  induction ts generalizing d with
  | nil => rfl
  | cons u ts ih =>
    rw [List.foldl_cons, ih]
    by_cases he : t = u
    · subst he
      rw [close, Function.update_self, ite_self, if_pos List.mem_cons_self]
    · rw [close, Function.update_of_ne he]
      simp only [List.mem_cons, he, false_or]

theorem closeFrom_apply (d : Descriptors φ) (last : Int) (t : Nat) :
    d.closeFrom last t = if (t : Int) ≤ last then none else d t := by
  unfold closeFrom
  rw [foldl_close]
  have hmem : t ∈ (List.range (last + 1).toNat).reverse ↔ (t : Int) ≤ last := by
    rw [List.mem_reverse, List.mem_range]
    omega
  simp only [hmem]

/-- With the lowest descriptor free, `open` takes it. -/
theorem openLowest_zero {d : Descriptors φ} {limit : Nat} (hl : 0 < limit) (h : d 0 = none) (file : φ) :
    d.openLowest limit file = some (0, Function.update d 0 (some file)) := by
  obtain ⟨n, rfl⟩ := Nat.exists_eq_succ_of_ne_zero (Nat.ne_of_gt hl)
  unfold openLowest
  rw [List.range_succ_eq_map, List.find?_cons_of_pos (by rw [h]; rfl)]
  rfl

end Descriptors
