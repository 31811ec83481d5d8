import Mathlib.Logic.Function.Basic
/-!
# Environments

A store of variables that is only known by what `get` says after `set`, filled
from a list of assignments. Nothing here knows how the store works inside, or
what names and values are.
-/
namespace Environ

/-- A store of variables. -/
structure Store (ε ν α : Type) [DecidableEq ν] where
  empty : ε
  set : ε → ν → α → ε
  get : ε → ν → Option α
  get_empty : ∀ n, get empty n = none
  get_set : ∀ e n v m, get (set e n v) m = if m = n then some v else get e m

variable {ε ν α : Type} [DecidableEq ν]

namespace Store

variable (E : Store ε ν α)

/-- The assignments are made one after the other. -/
def load (ps : List (ν × α)) (e : ε) : ε := ps.foldl (fun e p => E.set e p.1 p.2) e

theorem get_load (ps : List (ν × α)) (e : ε) (n : ν) :
    E.get (E.load ps e) n = (ps.reverse.lookup n).or (E.get e n) := by
  induction ps generalizing e with
  | nil => rfl
  | cons p ps ih =>
    obtain ⟨m, v⟩ := p
    rw [load, List.foldl_cons, ← load, ih, E.get_set, List.reverse_cons, List.lookup_append, Option.or_assoc]
    by_cases hn : n = m
    · simp [hn]
    · simp [hn, List.lookup_cons, beq_eq_false_iff_ne.2 hn]

/-- The last assignment to a name is the one that counts. -/
theorem get_load_empty (ps : List (ν × α)) (n : ν) : E.get (E.load ps E.empty) n = ps.reverse.lookup n := by
  rw [get_load, E.get_empty, Option.or_none]

/-- A function is a store. -/
def ofFun (ν α : Type) [DecidableEq ν] : Store (ν → Option α) ν α where
  empty _ := none
  set e n v := Function.update e n (some v)
  get e n := e n
  get_empty _ := rfl
  get_set e n v m := Function.update_apply e n (some v) m

end Store

end Environ
