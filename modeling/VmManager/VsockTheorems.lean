import VmManager.BuilderSteps
/-!
# The cid a config asks for

`global.vsock_cid` is a text. `std::stoul` reads the number in front of it into
64 bits, and `GetCid` takes the low 32 of them.
-/
open Text

namespace VmManager

namespace VmBuilderQemu

variable {κ : Type}

/-- The pool hands the cid out. -/
def canTake (pool : VsockCidPool) (cid : Nat) : Prop := VsockCidPool.Valid cid ∧ pool.bs cid = true

/-- A returned cid is the number that the text is, on the command line, in
`vsock_cid_` and taken from the pool; any other text is refused, and no cid is
taken. -/
def CidAsWritten (vb : VmBuilderQemu) (w : World κ) : Prop :=
  (∀ vb' w', buildVsockCmd vb w = .ok vb' w' →
    ∃ n, decimal (vb.value kGroupGlob kGlobCid) = some n ∧ vb'.vsockCid = n ∧
      vb'.emulCmd = vb.emulCmd ++ " -device vhost-vsock-pci,id=vhost-vsock-pci0,bus=pcie.0,addr=0x10,guest-cid=" ++
        toString n ∧
      canTake w.pool n ∧ w'.pool = w.pool.reset n) ∧
  ((∀ n, decimal (vb.value kGroupGlob kGlobCid) = some n → 2 ^ 32 ≤ n) →
    ∃ vb' w', buildVsockCmd vb w = .failed vb' w' ∧ w'.pool = w.pool)

section Cid
variable (vb : VmBuilderQemu) (w : World κ) (hne : vb.value kGroupGlob kGlobCid ≠ "")
include hne

/-- The low 32 bits of the number are a cid that can be taken. -/
theorem buildVsockCmd_takes {m : Nat} (hm : stoul (vb.value kGroupGlob kGlobCid) = .ok m)
    (ht : canTake w.pool (m % 2 ^ 32)) :
    buildVsockCmd vb w = .ok
      (({ vb with vsockCid := m % 2 ^ 32 } : VmBuilderQemu).append
        (" -device vhost-vsock-pci,id=vhost-vsock-pci0,bus=pcie.0,addr=0x10,guest-cid=" ++ toString (m % 2 ^ 32)))
      { w with pool := w.pool.reset (m % 2 ^ 32) } := by
  obtain ⟨⟨h3, hmax⟩, hfree⟩ := ht
  have hcid : w.pool.getCidOf (m % 2 ^ 32) = (m % 2 ^ 32, w.pool.reset (m % 2 ^ 32)) := by
    rw [VsockCidPool.getCidOf, if_neg (by omega), if_pos hfree]
  unfold buildVsockCmd acquireCid
  rw [if_neg (by simpa using hne), hm]
  dsimp only
  rw [hcid]
  exact if_neg (by omega)

theorem buildVsockCmd_refuses
    (hn : ∀ m, stoul (vb.value kGroupGlob kGlobCid) = .ok m → ¬ canTake w.pool (m % 2 ^ 32)) :
    ∃ vb' w', buildVsockCmd vb w = .failed vb' w' ∧ w'.pool = w.pool := by
  unfold buildVsockCmd acquireCid
  rw [if_neg (by simpa using hne)]
  cases hm : stoul (vb.value kGroupGlob kGlobCid) with
  | error e => exact ⟨_, w, rfl, rfl⟩
  | ok m =>
    have hcid : w.pool.getCidOf (m % 2 ^ 32) = (0, w.pool) := by
      unfold VsockCidPool.getCidOf
      split
      · rfl
      · rename_i hr
        refine if_neg fun hfree => hn m hm ⟨⟨?_, ?_⟩, hfree⟩ <;> omega
    dsimp only
    rw [hcid]
    exact ⟨_, _, rfl, rfl⟩

/-- The cid is as written exactly for a decimal number below 2^32, and for a text
that is refused: one that `std::stoul` throws at, or whose number has low 32
bits that are no free cid. -/
theorem cidAsWritten_iff :
    CidAsWritten vb w ↔
      (∃ n, decimal (vb.value kGroupGlob kGlobCid) = some n ∧ n < 2 ^ 32) ∨
        ∀ m, stoul (vb.value kGroupGlob kGlobCid) = .ok m → ¬ canTake w.pool (m % 2 ^ 32) := by
  constructor
  · rintro ⟨hok, hother⟩
    by_cases hn : ∀ m, stoul (vb.value kGroupGlob kGlobCid) = .ok m → ¬ canTake w.pool (m % 2 ^ 32)
    · exact .inr hn
    · push Not at hn
      obtain ⟨m, hm, ht⟩ := hn
      have htakes := buildVsockCmd_takes vb w hne hm ht
      obtain ⟨n, hdec, -⟩ := hok _ _ htakes
      refine .inl ⟨n, hdec, ?_⟩
      by_contra hbig
      obtain ⟨vb', w', hfailed, -⟩ := hother fun n' hn' => by
        rw [hdec] at hn'
        cases hn'
        omega
      rw [htakes] at hfailed
      cases hfailed
  · intro hcond
    by_cases hn : ∀ m, stoul (vb.value kGroupGlob kGlobCid) = .ok m → ¬ canTake w.pool (m % 2 ^ 32)
    · obtain ⟨vb', w', hfailed, hp⟩ := buildVsockCmd_refuses vb w hne hn
      refine ⟨fun vb1 w1 hok => ?_, fun _ => ⟨vb', w', hfailed, hp⟩⟩
      rw [hfailed] at hok
      cases hok
    · obtain ⟨n, hdec, hlt⟩ := hcond.resolve_right hn
      have hm : stoul (vb.value kGroupGlob kGlobCid) = .ok n := stoul_decimal hdec (by omega)
      have ht : canTake w.pool n := by
        push Not at hn
        obtain ⟨m, hm', ht⟩ := hn
        rw [hm] at hm'
        cases hm'
        rwa [Nat.mod_eq_of_lt hlt] at ht
      have htakes := buildVsockCmd_takes vb w hne hm (by rwa [Nat.mod_eq_of_lt hlt])
      rw [Nat.mod_eq_of_lt hlt] at htakes
      refine ⟨fun vb' w' hok => ?_, fun hbig => absurd (hbig n hdec) (by omega)⟩
      rw [htakes] at hok
      cases hok
      exact ⟨n, hdec, rfl, (String.append_assoc ..).symm, ht, rfl⟩

end Cid

/-- A config that asks for a cid. -/
def cidConfig (cid : String) : CivConfig := ⟨[{ name := kGroupGlob, entries := [(kGlobCid, cid)] }]⟩

theorem cidAsWritten_1000 :
    CidAsWritten { uid := 0, name := "vm", cfg := cidConfig "1000" } ({ kernel := () } : World Unit) :=
  (cidAsWritten_iff _ _ (by decide)).2 (.inl ⟨1000, rfl, by decide⟩)

/-- 2^32 + 1000 gets the cid 1000. -/
theorem cid_wraps :
    (∃ vb' w', buildVsockCmd { uid := 0, name := "vm", cfg := cidConfig "4294968296" } ({ kernel := () } : World Unit) =
      .ok vb' w' ∧ vb'.vsockCid = 1000 ∧ w'.pool.bs 1000 = false) ∧
    ¬ CidAsWritten { uid := 0, name := "vm", cfg := cidConfig "4294968296" } ({ kernel := () } : World Unit) := by
  have htakes := buildVsockCmd_takes { uid := 0, name := "vm", cfg := cidConfig "4294968296" }
    ({ kernel := () } : World Unit) (by decide) (m := 4294968296) rfl
    ⟨⟨by decide, by decide⟩, rfl⟩
  refine ⟨⟨_, _, htakes, rfl, by simp⟩, fun h => ?_⟩
  obtain ⟨vb', w', hfailed, -⟩ := h.2 fun n hn => by
    have hdec : decimal "4294968296" = some 4294968296 := rfl
    have hval : ({ uid := 0, name := "vm", cfg := cidConfig "4294968296" } : VmBuilderQemu).value kGroupGlob kGlobCid =
        "4294968296" := rfl
    rw [hval, hdec] at hn
    cases hn
    decide
  rw [htakes] at hfailed
  cases hfailed

end VmBuilderQemu

end VmManager
