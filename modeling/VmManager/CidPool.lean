import Mathlib.Data.List.Basic
import Mathlib.Logic.Function.Basic
/-!
# The vsock cid pool (`guest/vsock_cid_pool.cc`)
-/
namespace VmManager

def kCivMaxCidNum : Nat := 10000
def kCiVCidStart : Nat := 1000

/-- `bs` is the bitset: a set bit is a free cid. -/
structure VsockCidPool where
  bs : Nat → Bool := fun _ => true

namespace VsockCidPool

variable (p : VsockCidPool)

def reset (cid : Nat) : VsockCidPool := { bs := Function.update p.bs cid false }

def set (cid : Nat) : VsockCidPool := { bs := Function.update p.bs cid true }

@[simp] theorem reset_bs (cid c : Nat) : (p.reset cid).bs c = if c = cid then false else p.bs c := by
  simp [reset, Function.update_apply]

@[simp] theorem set_bs (cid c : Nat) : (p.set cid).bs c = if c = cid then true else p.bs c := by
  simp [set, Function.update_apply]

/-- `GetCid()`: the first free cid from `kCiVCidStart` on, or 0. -/
def getCid : Nat × VsockCidPool :=
  match (List.range' kCiVCidStart (kCivMaxCidNum - kCiVCidStart)).find? p.bs with
  | none => (0, p)
  | some pos => (pos, p.reset pos)

/-- `GetCid(cid)`. -/
def getCidOf (cid : Nat) : Nat × VsockCidPool :=
  if cid < 3 ∨ kCivMaxCidNum ≤ cid then (0, p)
  else if p.bs cid then (cid, p.reset cid)
  else (0, p)

/-- `ReleaseCid(cid)`. -/
def releaseCid (cid : Nat) : Bool × VsockCidPool :=
  if cid < 3 ∨ kCivMaxCidNum ≤ cid then (false, p) else (true, p.set cid)

/-! ## What the operations do -/

/-- The cid is one the pool hands out and takes back. -/
def Valid (cid : Nat) : Prop := 3 ≤ cid ∧ cid < kCivMaxCidNum

/-- `r` is an acquisition from `p`: a free cid, now taken, or 0 and nothing
changed. -/
def Acquired (r : Nat × VsockCidPool) : Prop :=
  (r.1 = 0 ∧ r.2 = p) ∨ (Valid r.1 ∧ p.bs r.1 = true ∧ r.2 = p.reset r.1)

theorem getCid_acquired : p.Acquired p.getCid := by
  unfold getCid
  split
  · exact .inl ⟨rfl, rfl⟩
  · rename_i pos hf
    have hm := List.mem_of_find?_eq_some hf
    rw [List.mem_range'] at hm
    obtain ⟨i, hi, hpos⟩ := hm
    refine .inr ⟨⟨?_, ?_⟩, List.find?_some hf, rfl⟩
    · simp only [kCiVCidStart] at hpos; dsimp only; omega
    · simp only [kCiVCidStart, kCivMaxCidNum] at hi hpos ⊢; omega

theorem getCidOf_acquired (cid : Nat) : p.Acquired (p.getCidOf cid) := by
  unfold getCidOf
  split
  · exact .inl ⟨rfl, rfl⟩
  · rename_i hr
    split
    · refine .inr ⟨⟨?_, ?_⟩, ‹_›, rfl⟩ <;> dsimp only <;> omega
    · exact .inl ⟨rfl, rfl⟩

/-- Releasing frees the cid itself and nothing else. -/
theorem releaseCid_bs (cid c : Nat) : (p.releaseCid cid).2.bs c = true ↔ p.bs c = true ∨ (c = cid ∧ Valid cid) := by
  unfold releaseCid Valid
  split
  · constructor
    · exact .inl
    · rintro (h | ⟨-, h⟩)
      · exact h
      · omega
  · rw [set_bs]
    by_cases hc : c = cid
    · simp [hc]; omega
    · simp [hc]

end VsockCidPool

end VmManager
