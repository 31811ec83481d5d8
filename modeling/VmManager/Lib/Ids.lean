import Mathlib.Data.UInt
/-!
# The ids of a Linux process

A process has a real, an effective and a saved id, of its user and again of its
group. `setresuid` and `setresgid` set all three: to anything at all with the
privilege to do so, and otherwise each to one of the three that are there. The
value `-1` leaves an id as it is.
-/

/-- `(uid_t) -1`. -/
def Ids.keep : UInt32 := 0xFFFFFFFF

/-- The ids of a process. None of them is `-1`. -/
structure Ids where
  real : UInt32
  eff : UInt32
  saved : UInt32
  real_ne : real ≠ Ids.keep := by decide
  eff_ne : eff ≠ Ids.keep := by decide
  saved_ne : saved ≠ Ids.keep := by decide
  deriving DecidableEq

namespace Ids

/-- What becomes of an id that is to be set to `new`. -/
def pick (new old : UInt32) : UInt32 := if new = keep then old else new

theorem pick_ne {old : UInt32} (h : old ≠ keep) (new : UInt32) : pick new old ≠ keep := by
  unfold pick
  split
  · exact h
  · assumption

@[simp] theorem pick_keep (old : UInt32) : pick keep old = old := if_pos rfl

theorem pick_of_ne {new : UInt32} (h : new ≠ keep) (old : UInt32) : pick new old = new := if_neg h

variable (i : Ids)

/-- A value that an id may be set to without privilege. -/
def offers (n : UInt32) : Prop := n = keep ∨ n = i.real ∨ n = i.eff ∨ n = i.saved

instance (n : UInt32) : Decidable (i.offers n) := inferInstanceAs (Decidable (_ ∨ _))

/-- `setresuid(r, e, s)`, or `setresgid`. A call that is refused changes
nothing. -/
def setres (privileged : Bool) (r e s : UInt32) : Ids :=
  if privileged = true ∨ (i.offers r ∧ i.offers e ∧ i.offers s) then
    ⟨pick r i.real, pick e i.eff, pick s i.saved, pick_ne i.real_ne r, pick_ne i.eff_ne e, pick_ne i.saved_ne s⟩
  else i

variable {i}

/-! ## To another effective id and back -/

/-- The effective id is set to `n`, and the one of before is saved. -/
def lend (i : Ids) (privileged : Bool) (n : UInt32) : Ids := i.setres privileged i.real n i.eff

/-- It takes effect when `n` is an id that may be set. -/
theorem lend_eff (i : Ids) (privileged : Bool) (n : UInt32) :
    (i.lend privileged n).eff = if privileged = true ∨ i.offers n then pick n i.eff else i.eff := by
  unfold lend setres
  have hreal : i.offers i.real := .inr (.inl rfl)
  have heff : i.offers i.eff := .inr (.inr (.inl rfl))
  by_cases h : privileged = true ∨ i.offers n
  · rw [if_pos h, if_pos (h.imp_right fun hn => ⟨hreal, hn, heff⟩)]
  · rw [if_neg h, if_neg fun hs => h (hs.imp_right fun hn => hn.2.1)]

/-- The effective id is the one of before, which must have been refused or
nothing new. -/
theorem lend_eff_iff (i : Ids) (privileged : Bool) (n : UInt32) :
    (i.lend privileged n).eff = i.eff ↔
      n = i.eff ∨ n = keep ∨ (privileged = false ∧ n ≠ i.real ∧ n ≠ i.saved) := by
  rw [lend_eff]
  by_cases hk : n = keep
  · simp [hk]
  · by_cases h : privileged = true ∨ i.offers n
    · rw [if_pos h, pick_of_ne hk]
      simp only [offers, hk, false_or] at h ⊢
      grind
    · rw [if_neg h]
      simp only [offers, hk, false_or, not_or] at h ⊢
      simp [h]

/-- Setting the effective id back succeeds whether or not it was set, and with
or without privilege. -/
theorem lend_back (i : Ids) (p q : Bool) (n : UInt32) : ((i.lend p n).setres q i.real i.eff n).eff = i.eff := by
  by_cases h : p = true ∨ i.offers n
  · have hlent : i.lend p n = ⟨i.real, pick n i.eff, i.eff, i.real_ne, pick_ne i.eff_ne n, i.eff_ne⟩ := by
      unfold lend setres
      rw [if_pos (h.imp_right fun hn => ⟨.inr (.inl rfl), hn, .inr (.inr (.inl rfl))⟩)]
      simp only [pick_of_ne i.real_ne, pick_of_ne i.eff_ne]
    rw [hlent, setres, if_pos]
    · exact pick_of_ne i.eff_ne _
    · refine .inr ⟨.inr (.inl rfl), .inr (.inr (.inr rfl)), ?_⟩
      by_cases hk : n = keep
      · exact .inl hk
      · exact .inr (.inr (.inl (pick_of_ne hk _).symm))
  · have hlent : i.lend p n = i := if_neg fun hs => h (hs.imp_right fun hn => hn.2.1)
    rw [hlent]
    unfold setres
    split
    · exact pick_of_ne i.eff_ne _
    · rfl

end Ids
