import Mathlib.Logic.Function.Basic
/-!
# Names for objects

Objects have names and live on without them: who holds one goes on using it
after the name is gone or leads to another. They are numbered as they are made.
Nothing here knows what the objects are.
-/

/-- Which object each name leads to, and how many have been made. -/
structure Names (ν : Type) where
  link : ν → Option Nat
  made : Nat

namespace Names

variable {ν : Type}

def empty : Names ν := ⟨fun _ => none, 0⟩

variable [DecidableEq ν]

/-- A new object under a name that is not in use. -/
def create (d : Names ν) (n : ν) : Option (Names ν) :=
  match d.link n with
  | some _ => none
  | none => some ⟨Function.update d.link n (some d.made), d.made + 1⟩

def unlink (d : Names ν) (n : ν) : Names ν := ⟨Function.update d.link n none, d.made⟩

variable {d d' : Names ν} {n m : ν} {i : Nat}

theorem create_some (h : d.create n = some d') :
    d.link n = none ∧ d' = ⟨Function.update d.link n (some d.made), d.made + 1⟩ := by
  unfold create at h
  split at h <;> cases h
  exact ⟨‹_›, rfl⟩

theorem create_none : d.create n = none ↔ (d.link n).isSome = true := by
  unfold create
  split <;> simp_all

@[simp] theorem unlink_self (d : Names ν) (n : ν) : (d.unlink n).link n = none := Function.update_self ..

theorem unlink_of_ne (d : Names ν) (h : m ≠ n) : (d.unlink n).link m = d.link m := Function.update_of_ne h ..

theorem create_self (h : d.create n = some d') : d'.link n = some d.made := by
  rw [(create_some h).2]
  exact Function.update_self ..

theorem create_of_ne (h : d.create n = some d') (hne : m ≠ n) : d'.link m = d.link m := by
  rw [(create_some h).2]
  exact Function.update_of_ne hne ..

theorem create_made (h : d.create n = some d') : d'.made = d.made + 1 := by
  rw [(create_some h).2]

/-- The object was made, and the name does not lead to it. -/
def Lost (d : Names ν) (n : ν) (i : Nat) : Prop := i < d.made ∧ d.link n ≠ some i

/-- A name that does not lead to an object any more never does so again. -/
theorem Lost.create (hi : Lost d n i) (h : d.create m = some d') : Lost d' n i := by
  refine ⟨create_made h ▸ Nat.lt_succ_of_lt hi.1, ?_⟩
  by_cases he : n = m
  · rw [he, create_self h]
    exact fun h => Nat.ne_of_gt hi.1 (Option.some.inj h)
  · rw [create_of_ne h he]
    exact hi.2

theorem Lost.unlink (hi : Lost d n i) (m : ν) : Lost (d.unlink m) n i := by
  refine ⟨hi.1, ?_⟩
  by_cases he : n = m
  · rw [he, unlink_self]
    exact fun h => by cases h
  · rw [unlink_of_ne d he]
    exact hi.2

end Names
