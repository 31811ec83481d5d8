import Mathlib.Order.Bounds.Basic
import Mathlib.Order.Interval.Set.Defs
import VmManager.CidPool
/-!
# Theorems about the cid pool

The pool is a set of free cids. `Serves` says what a call does to such a set;
`pool_serves` is that every call does so, after any calls before it.
-/
namespace VmManager

namespace VsockCidPool

/-- A call on the pool. A cid is a `uint32_t`. -/
inductive CidOp
  | getCid
  | getCidOf (cid : UInt32)
  | releaseCid (cid : UInt32)
  deriving DecidableEq, Repr

/-- What a call returns. -/
inductive CidRet
  | cid (n : Nat)
  | released (b : Bool)
  deriving DecidableEq, Repr

def call (p : VsockCidPool) : CidOp → CidRet × VsockCidPool
  | .getCid => (.cid p.getCid.1, p.getCid.2)
  | .getCidOf cid => (.cid (p.getCidOf cid.toNat).1, (p.getCidOf cid.toNat).2)
  | .releaseCid cid => (.released (p.releaseCid cid.toNat).1, (p.releaseCid cid.toNat).2)

/-- The pool after some calls, and each call with what it returned. -/
def calls (p : VsockCidPool) : List CidOp → VsockCidPool × List (CidOp × CidRet)
  | [] => (p, [])
  | op :: ops =>
    let r := p.call op
    let (p, log) := r.2.calls ops
    (p, (op, r.1) :: log)

/-! ## A set of free cids -/

/-- The cids that `GetCid()` chooses from. -/
def chosen : Set Nat := Set.Ico kCiVCidStart kCivMaxCidNum

/-- With the free cids `F` the call returns `ret` and leaves `F'` free. -/
def Serves (F : Set Nat) : CidOp → CidRet → Set Nat → Prop
  | .getCid, .cid r, F' =>
    (∀ c, IsLeast (F ∩ chosen) c → r = c ∧ F' = F \ {c}) ∧ (F ∩ chosen = ∅ → r = 0 ∧ F' = F)
  | .getCidOf cid, .cid r, F' =>
    (Valid cid.toNat ∧ cid.toNat ∈ F → r = cid.toNat ∧ F' = F \ {cid.toNat}) ∧
      (¬ (Valid cid.toNat ∧ cid.toNat ∈ F) → r = 0 ∧ F' = F)
  | .releaseCid cid, .released b, F' =>
    (Valid cid.toNat → b = true ∧ F' = insert cid.toNat F) ∧ (¬ Valid cid.toNat → b = false ∧ F' = F)
  | _, _, _ => False

/-- Some call of the log returned the cid, and none after it released it. -/
def HandedOut (log : List (CidOp × CidRet)) (c : Nat) : Prop :=
  ∃ before op after, log = before ++ (op, .cid c) :: after ∧
    ∀ cid b, (CidOp.releaseCid cid, CidRet.released b) ∈ after → cid.toNat ≠ c

def free (p : VsockCidPool) : Set Nat := { c | p.bs c = true }

variable (p : VsockCidPool)

theorem free_reset (c : Nat) : (p.reset c).free = p.free \ {c} := by
  ext d
  by_cases hd : d = c <;> simp [free, hd]

theorem free_set (c : Nat) : (p.set c).free = insert c p.free := by
  ext d
  by_cases hd : d = c <;> simp [free, hd]

theorem mem_choices {c : Nat} : c ∈ List.range' kCiVCidStart (kCivMaxCidNum - kCiVCidStart) ↔ c ∈ chosen := by
  simp only [List.mem_range'_1, chosen, Set.mem_Ico, kCiVCidStart, kCivMaxCidNum]

/-- The search of `GetCid()` stops at the least free cid. -/
theorem find_least {c : Nat} (hf : (List.range' kCiVCidStart (kCivMaxCidNum - kCiVCidStart)).find? p.bs = some c) :
    IsLeast (p.free ∩ chosen) c := by
  obtain ⟨hfree, hm, hmin⟩ := List.find?_range'_eq_some.1 hf
  refine ⟨⟨hfree, mem_choices.1 hm⟩, fun d hd => ?_⟩
  by_contra hlt
  have hbusy := hmin d hd.2.1 (Nat.lt_of_not_le hlt)
  have hd : p.bs d = true := hd.1
  simp [hd] at hbusy

theorem find_none (hf : (List.range' kCiVCidStart (kCivMaxCidNum - kCiVCidStart)).find? p.bs = none) :
    p.free ∩ chosen = ∅ := by
  refine Set.eq_empty_of_forall_notMem fun d hd => ?_
  exact List.find?_eq_none.1 hf d (mem_choices.2 hd.2) hd.1

/-! ## The calls -/

theorem getCid_serves : Serves p.free .getCid (.cid p.getCid.1) p.getCid.2.free := by
  unfold getCid
  split
  · rename_i hf
    have hnone := p.find_none hf
    refine ⟨fun c hc => ?_, fun _ => ⟨rfl, rfl⟩⟩
    exact absurd hc.1 (hnone ▸ Set.notMem_empty c)
  · rename_i pos hf
    have hleast := p.find_least hf
    refine ⟨fun c hc => ?_, fun hnone => ?_⟩
    · rw [hc.unique hleast]
      exact ⟨rfl, p.free_reset pos⟩
    · exact absurd hleast.1 (hnone ▸ Set.notMem_empty pos)

theorem getCidOf_serves (cid : UInt32) :
    Serves p.free (.getCidOf cid) (.cid (p.getCidOf cid.toNat).1) (p.getCidOf cid.toNat).2.free := by
  unfold getCidOf
  split
  · rename_i hr
    refine ⟨fun hv => ?_, fun _ => ⟨rfl, rfl⟩⟩
    obtain ⟨⟨h3, hmax⟩, -⟩ := hv
    omega
  · split
    · rename_i hr hfree
      refine ⟨fun _ => ⟨rfl, p.free_reset _⟩, fun hv => absurd ⟨⟨?_, ?_⟩, hfree⟩ hv⟩
      · omega
      · omega
    · rename_i hbusy
      exact ⟨fun hv => absurd hv.2 hbusy, fun _ => ⟨rfl, rfl⟩⟩

theorem releaseCid_serves (cid : UInt32) :
    Serves p.free (.releaseCid cid) (.released (p.releaseCid cid.toNat).1) (p.releaseCid cid.toNat).2.free := by
  unfold releaseCid
  split
  · rename_i hr
    refine ⟨fun hv => ?_, fun _ => ⟨rfl, rfl⟩⟩
    obtain ⟨h3, hmax⟩ := hv
    omega
  · rename_i hr
    refine ⟨fun _ => ⟨rfl, p.free_set _⟩, fun hv => absurd ⟨?_, ?_⟩ hv⟩
    · omega
    · omega

theorem call_serves (op : CidOp) : Serves p.free op (p.call op).1 (p.call op).2.free := by
  cases op with
  | getCid => exact p.getCid_serves
  | getCidOf cid => exact p.getCidOf_serves cid
  | releaseCid cid => exact p.releaseCid_serves cid

/-- A call that returns a cid was given a free one, which it takes. -/
theorem call_cid {op : CidOp} {c : Nat} (h : (p.call op).1 = .cid c) (h0 : c ≠ 0) :
    Valid c ∧ p.bs c = true ∧ (p.call op).2 = p.reset c := by
  have key : ∀ r : Nat × VsockCidPool, p.Acquired r → CidRet.cid r.1 = .cid c →
      Valid c ∧ p.bs c = true ∧ r.2 = p.reset c := by
    intro r hr he
    cases he
    rcases hr with ⟨hz, -⟩ | hr
    · exact absurd hz h0
    · exact hr
  cases op with
  | getCid => exact key _ p.getCid_acquired h
  | getCidOf cid => exact key _ (p.getCidOf_acquired cid.toNat) h
  | releaseCid cid => cases h

/-- A taken cid stays taken until it is released. -/
theorem call_keeps_taken {op : CidOp} {c : Nat} (hc : p.bs c = false)
    (hop : ∀ cid, op = .releaseCid cid → cid.toNat ≠ c) : (p.call op).2.bs c = false := by
  have key : ∀ r : Nat × VsockCidPool, p.Acquired r → r.2.bs c = false := by
    intro r hr
    rcases hr with ⟨-, he⟩ | ⟨-, -, he⟩
    · rw [he]; exact hc
    · rw [he, reset_bs, hc, ite_self]
  cases op with
  | getCid => exact key _ p.getCid_acquired
  | getCidOf cid => exact key _ (p.getCidOf_acquired cid.toNat)
  | releaseCid cid =>
    refine Bool.eq_false_iff.2 fun hfree => ?_
    rcases (p.releaseCid_bs cid.toNat c).1 hfree with hfree | ⟨he, -⟩
    · rw [hc] at hfree; cases hfree
    · exact hop cid rfl he.symm

/-! ## Calls after calls -/

theorem calls_keep_taken {ops : List CidOp} {c : Nat} (hc : p.bs c = false)
    (hlog : ∀ cid b, (CidOp.releaseCid cid, CidRet.released b) ∈ (p.calls ops).2 → cid.toNat ≠ c) :
    (p.calls ops).1.bs c = false := by
  induction ops generalizing p with
  | nil => exact hc
  | cons op ops ih =>
    refine ih _ (p.call_keeps_taken hc fun cid he => ?_) fun cid b hm => hlog cid b (List.mem_cons_of_mem _ hm)
    subst he
    exact hlog cid _ List.mem_cons_self

/-- What was handed out and not released since is taken. -/
theorem taken_of_handedOut {ops : List CidOp} {c : Nat} (h0 : c ≠ 0) (h : HandedOut (p.calls ops).2 c) :
    (p.calls ops).1.bs c = false := by
  induction ops generalizing p with
  | nil =>
    obtain ⟨before, op, after, hl, -⟩ := h
    simp [calls] at hl
  | cons op ops ih =>
    obtain ⟨before, op', after, hl, hlog⟩ := h
    cases before with
    | nil =>
      -- It is this call that handed the cid out.
      obtain ⟨hhead, htail⟩ := List.cons.inj hl
      obtain ⟨-, -, htake⟩ := p.call_cid (congrArg Prod.snd hhead) h0
      have htaken : (p.call op).2.bs c = false := by rw [htake, reset_bs, if_pos rfl]
      exact calls_keep_taken (p.call op).2 htaken fun cid b hm => hlog cid b (htail ▸ hm)
    | cons e before => exact ih _ ⟨before, op', after, (List.cons.inj hl).2, hlog⟩

/-- After any calls from the initial pool, a call behaves as one on the set of
free cids. A cid it returns is not a reserved one, and not one that was handed
out before and not released since. -/
theorem pool_serves (ops : List CidOp) (op : CidOp) :
    let (p, log) := calls {} ops
    let (ret, p') := p.call op
    Serves p.free op ret p'.free ∧ ∀ c, ret = .cid c → c ≠ 0 → Valid c ∧ ¬ HandedOut log c := by
  refine ⟨call_serves _ op, fun c hret h0 => ?_⟩
  obtain ⟨hv, hfree, -⟩ := call_cid _ hret h0
  refine ⟨hv, fun hout => ?_⟩
  rw [taken_of_handedOut _ h0 hout] at hfree
  cases hfree

example : (calls {} [.getCid, .getCidOf 1001, .getCid, .releaseCid 1000, .getCid]).2.map (·.2) =
    [.cid 1000, .cid 1001, .cid 1002, .released true, .cid 1000] := rfl

end VsockCidPool

end VmManager
