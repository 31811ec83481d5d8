import VmManager.StartTheorems
/-!
# Theorems about the ownership of cids

A cid belongs to the instance it was handed to until `StopVm` gives it back.
`StopVm` keeps `vsock_cid_`, and the destructor runs it again, so an instance
that was stopped must be gone before the pool hands its cid to another.
-/
open Text Runs

namespace VmManager

open VmBuilderQemu

variable {κ : Type}

theorem runEndCalls_pool (h : Host κ) (vb : VmBuilderQemu) (cs : List EndCall) (w : World κ) :
    (cs.foldl (vb.runEndCall h) w).pool = w.pool := by
  induction cs generalizing w with
  | nil => rfl
  | cons c cs ih =>
    rw [List.foldl_cons, ih]
    cases c with
    | probeSound => rfl
    | removeSocket => rfl
    | restorePci =>
      rw [runEndCall]
      generalize vb.pciPtDevSet = devs
      induction devs generalizing w with
      | nil => rfl
      | cons dev devs ihd => rw [List.foldl_cons, ihd]; rfl

/-- `StopVm` gives the cid back, whether or not it has done so before. -/
theorem stopVm_pool (h : Host κ) (vb : VmBuilderQemu) (w : World κ) :
    (vb.stopVm h w).2.pool = (w.pool.releaseCid vb.vsockCid).2 := by
  unfold stopVm
  exact runEndCalls_pool h vb vb.endCall _

/-- The instances that are registered, and the one that is being built. -/
def live (s : Sys κ) : List VmBuilderQemu := s.vmis ++ s.server.builder.toList

theorem mem_live {s : Sys κ} {vb : VmBuilderQemu} : vb ∈ live s ↔ vb ∈ s.vmis ∨ s.server.builder = some vb := by
  simp [live, Option.mem_toList]

/-- An instance that has not been stopped has its cid taken, and no two
instances have one cid. -/
structure CidsOwned (s : Sys κ) : Prop where
  taken : ∀ vb ∈ live s, vb.vsockCid ≠ 0 → vb.stopped = false → s.world.pool.bs vb.vsockCid = false
  distinct : ∀ vb ∈ live s, ∀ vb' ∈ live s, vb.vsockCid ≠ 0 → vb.vsockCid = vb'.vsockCid → vb.uid = vb'.uid
  building : ∀ vb, s.server.builder = some vb → vb.stopped = false

/-- An instance goes on living. -/
structure LivesOn (vb vb' : VmBuilderQemu) : Prop where
  uid : vb'.uid = vb.uid
  cid : vb'.vsockCid = vb.vsockCid
  stopped : vb'.stopped = false → vb.stopped = false

theorem LivesOn.refl (vb : VmBuilderQemu) : LivesOn vb vb := ⟨rfl, rfl, id⟩

/-- No instance is new, and the pool is as it was. -/
theorem CidsOwned.keep {s s' : Sys κ} (hi : CidsOwned s) (hl : ∀ vb' ∈ live s', vb'.vsockCid ≠ 0 → ∃ vb ∈ live s, LivesOn vb vb')
    (hb : ∀ vb, s'.server.builder = some vb → vb.stopped = false) (hp : s'.world.pool = s.world.pool) :
    CidsOwned s' := by
  refine ⟨fun vb' hm hne hst => ?_, fun vb₁ h₁ vb₂ h₂ hne he => ?_, hb⟩
  · obtain ⟨vb, hv, hs⟩ := hl vb' hm hne
    rw [hp, hs.cid]
    exact hi.taken vb hv (hs.cid ▸ hne) (hs.stopped hst)
  · obtain ⟨v₁, hv₁, hs₁⟩ := hl vb₁ h₁ hne
    obtain ⟨v₂, hv₂, hs₂⟩ := hl vb₂ h₂ (he ▸ hne)
    rw [hs₁.uid, hs₂.uid]
    rw [hs₁.cid] at hne he
    exact hi.distinct v₁ hv₁ v₂ hv₂ hne (he.trans hs₂.cid)

/-- One instance gives its cid back, and it is gone or stopped afterwards. -/
theorem CidsOwned.release {s s' : Sys κ} {x : VmBuilderQemu} (hi : CidsOwned s) (hx : x ∈ live s)
    (hl : ∀ vb' ∈ live s', vb'.vsockCid ≠ 0 → ∃ vb ∈ live s, LivesOn vb vb' ∧ (vb'.stopped = false → vb.uid ≠ x.uid))
    (hb : ∀ vb, s'.server.builder = some vb → vb.stopped = false)
    (hp : s'.world.pool = (s.world.pool.releaseCid x.vsockCid).2) : CidsOwned s' := by
  refine ⟨fun vb' hm hne hst => ?_, fun vb₁ h₁ vb₂ h₂ hne he => ?_, hb⟩
  · obtain ⟨vb, hv, hs, hu⟩ := hl vb' hm hne
    rw [hs.cid] at hne ⊢
    refine Bool.eq_false_iff.2 fun hfree => ?_
    rw [hp, VsockCidPool.releaseCid_bs] at hfree
    rcases hfree with hfree | ⟨hc, -⟩
    · rw [hi.taken vb hv hne (hs.stopped hst)] at hfree
      cases hfree
    · exact hu hst (hi.distinct vb hv x hx hne hc)
  · obtain ⟨v₁, hv₁, hs₁, -⟩ := hl vb₁ h₁ hne
    obtain ⟨v₂, hv₂, hs₂, -⟩ := hl vb₂ h₂ (he ▸ hne)
    rw [hs₁.uid, hs₂.uid]
    rw [hs₁.cid] at hne he
    exact hi.distinct v₁ hv₁ v₂ hv₂ hne (he.trans hs₂.cid)

/-- The builder gets a free cid that no other instance has. -/
theorem CidsOwned.acquire {s s' : Sys κ} {vb vb' : VmBuilderQemu} {c : Nat} (hi : CidsOwned s)
    (hv : s'.vmis = s.vmis) (hb : s.server.builder = some vb) (hb' : s'.server.builder = some vb')
    (hc : vb'.vsockCid = c) (hst : vb'.stopped = vb.stopped) (hfree : s.world.pool.bs c = true)
    (hg : ∀ v ∈ s.vmis, v.stopped = true → v.vsockCid ≠ 0 → v.vsockCid ≠ c)
    (hp : s'.world.pool = s.world.pool.reset c) : CidsOwned s' := by
  have hnew : ∀ v ∈ s.vmis, v.vsockCid ≠ 0 → v.vsockCid ≠ c := by
    intro v hm hne he
    by_cases hs : v.stopped = true
    · exact hg v hm hs hne he
    · rw [← he, hi.taken v (mem_live.2 (.inl hm)) hne (by simpa using hs)] at hfree
      cases hfree
  have hlive : ∀ v ∈ live s', v ∈ s.vmis ∨ v = vb' := by
    intro v hm
    rcases mem_live.1 hm with hm | hm
    · exact .inl (hv ▸ hm)
    · rw [hb', Option.some.injEq] at hm
      exact .inr hm.symm
  refine ⟨fun v hm hne hs => ?_, fun v₁ h₁ v₂ h₂ hne he => ?_, fun v he => ?_⟩
  · rw [hp, VsockCidPool.reset_bs]
    rcases hlive v hm with hm | rfl
    · rw [if_neg (hnew v hm hne)]
      exact hi.taken v (mem_live.2 (.inl hm)) hne hs
    · rw [if_pos hc]
  · rcases hlive v₁ h₁ with h₁ | rfl <;> rcases hlive v₂ h₂ with h₂ | rfl
    · exact hi.distinct v₁ (mem_live.2 (.inl h₁)) v₂ (mem_live.2 (.inl h₂)) hne he
    · exact absurd (he.trans hc) (hnew v₁ h₁ hne)
    · exact absurd (he.symm.trans hc) (hnew v₂ h₂ (he ▸ hne))
    · rfl
  · rw [hb', Option.some.injEq] at he
    rw [← he, hst]
    exact hi.building vb hb

/-- `BuildVsockCmd` is not about to take the cid of an instance that was
stopped and is still registered. -/
def cidUnshared (s : Sys κ) : Act κ → Bool
  | .server =>
    match s.server with
    | .building _ vb i => i ≠ vsockIdx || s.vmis.all fun vb' =>
        !vb'.stopped || vb'.vsockCid = 0 || vb'.vsockCid ≠ cidFor vb s.world.pool
    | _ => true
  | _ => true

/-- After an instance has been replaced, the others are others. -/
theorem Registry.mem_set {s : Sys κ} (hr : Registry s) {id : Nat} {vb x y : VmBuilderQemu}
    (hv : s.vmis[id]? = some vb) (hm : y ∈ s.vmis.set id x) : y = x ∨ (y ∈ s.vmis ∧ y.uid ≠ vb.uid) := by
  obtain ⟨j, hj⟩ := List.mem_iff_getElem?.1 hm
  rw [List.getElem?_set] at hj
  split at hj
  · split at hj <;> cases hj
    exact .inl rfl
  · rename_i hne
    have hy := List.mem_of_getElem? hj
    refine .inr ⟨hy, fun he => hne ?_⟩
    have hyv := hr.eq_of_uid hy (List.mem_of_getElem? hv) he
    have hnd : s.vmis.Nodup := .of_map _ hr.uids
    obtain ⟨hlt, -⟩ := List.getElem?_eq_some_iff.1 hv
    exact (List.getElem?_inj hlt hnd).1 (by rw [hv, hj, hyv])

/-- A builder that has just been made has no cid yet. -/
theorem CidsOwned.startBuild {s : Sys κ} (hi : CidsOwned s) (p : Purpose) (name : String) (cfg : CivConfig) :
    CidsOwned (VmManager.startBuild s p name cfg) := by
  refine hi.keep (fun y hm hne => ?_) (fun vb he => ?_) rfl
  · rcases mem_live.1 hm with hm | hm
    · exact ⟨y, mem_live.2 (.inl hm), .refl y⟩
    · cases hm; exact absurd rfl hne
  · cases he; rfl

/-- The destructor gives the cid back; nobody else has it. -/
theorem cids_delete (h : Host κ) {s : Sys κ} (hr : Registry s) (hi : CidsOwned s) (name : String) :
    CidsOwned (deleteVmInstance h s name) := by
  rcases deleteVmInstance_cases h s name with ⟨-, he⟩ | ⟨id, vb, -, hv, hn, he⟩
  · rw [he]
    exact ⟨hi.taken, hi.distinct, hi.building⟩
  · have hm := List.mem_of_getElem? hv
    have hd := deleteVmInstance_deleted h hr hm
    rw [hn] at hd
    have hserver := (deleteVmInstance_frame h s name).1
    refine hi.release (x := vb) (mem_live.2 (.inl hm)) (fun y hy _ => ?_) (hserver ▸ hi.building) ?_
    · rcases mem_live.1 hy with hy | hy
      · obtain ⟨hy, hu⟩ := (hd.mem y).1 hy
        exact ⟨y, mem_live.2 (.inl hy), .refl y, fun _ => hu⟩
      · have hb : s.server.builder = some y := hserver ▸ hy
        obtain ⟨-, -, -, hother⟩ := hr.builder y hb
        exact ⟨y, mem_live.2 (.inr hb), .refl y, fun _ he => (hother vb hm).1 he.symm⟩
    · rw [he]
      exact stopVm_pool h vb s.world

/-- A step of `BuildVmArgs` leaves the cids alone, but for `BuildVsockCmd`, which
may take a free one. -/
theorem cids_build {h : Host κ} {s : Sys κ} {p : Purpose} {vb vb' : VmBuilderQemu} {w : World κ} {i : Nat} {st : Step κ}
    {q : ServerPc} (hi : CidsOwned s) (hpc : s.server = .building p vb i) (hst : (buildSteps h)[i]? = some st)
    (hg : i = vsockIdx → ∀ v ∈ s.vmis, v.stopped = true → v.vsockCid ≠ 0 → v.vsockCid ≠ cidFor vb s.world.pool)
    (hq : (st vb s.world = .ok vb' w ∧ q = .building p vb' (i + 1)) ∨ (st vb s.world = .failed vb' w ∧ q = .discard vb') ∨
      (∃ e, st vb s.world = .threw e vb' w ∧ q = .unwind e vb')) :
    CidsOwned { s with server := q, world := w } := by
  have hb : s.server.builder = some vb := by rw [hpc]; rfl
  have hb' : q.builder = some vb' := build_builder hq
  have hcid := build_all (buildSteps_cidStep hst vb s.world) hq
  have hst' : vb'.stopped = false := hcid.same.stopped.trans (hi.building vb hb)
  have hkeep : vb'.vsockCid = vb.vsockCid ∨ vb'.vsockCid = 0 → w.pool = s.world.pool →
      CidsOwned { s with server := q, world := w } := by
    intro hc hp
    refine hi.keep (fun y hm hne => ?_) (fun y he => ?_) hp
    · rcases mem_live.1 hm with hm | hm
      · exact ⟨y, mem_live.2 (.inl hm), .refl y⟩
      · rw [show q.builder = some y from hm, Option.some.injEq] at hb'
        rcases hc with hc | hc
        · exact ⟨vb, mem_live.2 (.inr hb), hb' ▸ ⟨hcid.same.uid, hc, hcid.same.stopped ▸ id⟩⟩
        · exact absurd (hb' ▸ hc) hne
    · rw [show q.builder = some y from he, Option.some.injEq] at hb'
      rw [hb', hst']
  by_cases hi9 : i = vsockIdx
  · rcases hcid.cid with ⟨hc, hp⟩ | ⟨hne, hc, hp⟩
    · exact hkeep hc hp
    · exact hi.acquire rfl hb hb' hc hcid.same.stopped (cidFor_free hne).2 (hg hi9) hp
  · have hk := build_all (buildSteps_kept_of_ne hst hi9 vb s.world) hq
    exact hkeep (.inl hk.cid) hk.pool

theorem cids_server {h : Host κ} {s s' : Sys κ} (hr : Registry s) (hi : CidsOwned s)
    (hg : ∀ p vb, s.server = .building p vb vsockIdx → ∀ v ∈ s.vmis, v.stopped = true → v.vsockCid ≠ 0 →
      v.vsockCid ≠ cidFor vb s.world.pool) (hs : ServerMove h s s') : CidsOwned s' := by
  -- Nobody is new who is in the registry, and the server builds nothing.
  have hsub : ∀ {t : Sys κ}, t.server.builder = none → (∀ vb ∈ t.vmis, vb ∈ s.vmis) →
      ∀ vb' ∈ live t, vb'.vsockCid ≠ 0 → ∃ vb ∈ live s, LivesOn vb vb' := by
    intro t hn hv vb' hm _
    rcases mem_live.1 hm with hm | hm
    · exact ⟨vb', mem_live.2 (.inl (hv vb' hm)), .refl vb'⟩
    · rw [hn] at hm; cases hm
  have hnone : ∀ {t : Sys κ}, t.server.builder = none → ∀ vb, t.server.builder = some vb → vb.stopped = false := by
    intro t hn vb he
    rw [hn] at he
    cases he
  have hinsert : ∀ {t : Sys κ} {vb : VmBuilderQemu}, t.vmis = s.vmis ++ [vb] → s.server.builder = some vb →
      t.server.builder = none → ∀ vb' ∈ live t, vb'.vsockCid ≠ 0 → ∃ vb ∈ live s, LivesOn vb vb' := by
    intro t vb hv hb hn vb' hm _
    refine ⟨vb', mem_live.2 ?_, .refl vb'⟩
    rcases mem_live.1 hm with hm | hm
    · rcases List.mem_append.1 (hv ▸ hm) with hm | hm
      · exact .inl hm
      · rw [List.mem_singleton.1 hm]; exact .inr hb
    · rw [hn] at hm
      cases hm
  cases hs with
  | undefined => exact ⟨hi.taken, hi.distinct, hi.building⟩
  | quiet s' hc _ hq _ => exact hi.keep (hsub hq.1 (hc.vmis ▸ fun _ hm => hm)) (hnone hq.1) hc.pool
  | stop name id vb hpc hv =>
    have hv := vmAt_get hv
    refine hi.release (x := vb) (mem_live.2 (.inl (List.mem_of_getElem? hv))) (fun y hm _ => ?_) (fun _ he => nomatch he)
      (stopVm_pool h vb s.world)
    rcases mem_live.1 hm with hm | hm
    · rcases hr.mem_set hv hm with rfl | ⟨hy, hne⟩
      · exact ⟨vb, mem_live.2 (.inl (List.mem_of_getElem? hv)), ⟨rfl, rfl, nofun⟩, nofun⟩
      · exact ⟨y, mem_live.2 (.inl hy), .refl y, fun _ => hne⟩
    · cases hm
  | create p name cfg => exact hi.startBuild p name cfg
  | lock => exact hi.keep (hsub rfl fun _ hm => hm) (hnone rfl) rfl
  | overwrite name cfg => exact (cids_delete h hr hi name).startBuild .import name cfg
  | build p vb vb' w i st q hpc hst hq =>
    refine cids_build hi hpc hst (fun he => ?_) hq
    subst he
    exact hg p vb hpc
  | hang p vb w i st hpc hst he => exact hi.keep (hsub rfl fun _ hm => hm) (hnone rfl) (buildSteps_hung hst he)
  | built p vb i hpc =>
    refine hi.keep (fun y hm _ => ⟨y, ?_, .refl y⟩) (fun y he => ?_) rfl
    · rw [mem_live, hpc]
      exact mem_live.1 hm
    · cases he
      exact hi.building vb (by rw [hpc]; rfl)
  | insertImport vb hpc => exact hi.keep (hinsert rfl (by rw [hpc]; rfl) rfl) (hnone rfl) rfl
  | insertStart vb env waitReady hpc => exact hi.keep (hinsert rfl (by rw [hpc]; rfl) rfl) (hnone rfl) rfl
  | drop vb q hq =>
    have hb : s.server.builder = some vb := by rcases hq with ⟨hpc, -⟩ | ⟨e, hpc, -⟩ <;> rw [hpc] <;> rfl
    have hq' : q.builder = none := by rcases hq with ⟨-, rfl⟩ | ⟨e, -, rfl⟩ <;> rfl
    obtain ⟨-, -, -, hother⟩ := hr.builder vb hb
    refine hi.release (x := vb) (mem_live.2 (.inr hb)) (fun y hm _ => ?_) (hnone hq') (stopVm_pool h vb s.world)
    rcases mem_live.1 hm with hm | hm
    · exact ⟨y, mem_live.2 (.inl hm), .refl y, fun _ => (hother y hm).1⟩
    · rw [show q.builder = some y from hm] at hq'
      cases hq'
  | get pos uid env waitReady vb hpc hv =>
    refine hi.keep (fun y hm _ => ?_) (hnone rfl) rfl
    rcases mem_live.1 hm with hm | hm
    · obtain ⟨v, hv, rfl⟩ := mem_updateVm.1 hm
      refine ⟨v, mem_live.2 (.inl hv), ?_⟩
      split
      · exact ⟨rfl, rfl, id⟩
      · exact .refl v
    · cases hm
  | pass uid waitReady hpc => exact hi.keep (hsub rfl fun _ hm => hm) (hnone rfl) rfl
  | answer uid waitReady vb hpc => exact hi.keep (hsub rfl fun _ hm => hm) (hnone rfl) rfl

/-- A change of one instance that leaves its identity, its cid and `stopped`
alone. -/
theorem CidsOwned.update {s s' : Sys κ} (hi : CidsOwned s) {uid : Nat} {f : VmBuilderQemu → VmBuilderQemu}
    (hv : s'.vmis = (s.updateVm uid f).vmis) (hserver : s'.server = s.server) (hp : s'.world.pool = s.world.pool)
    (hf : ∀ vb, LivesOn vb (f vb)) : CidsOwned s' := by
  refine hi.keep (fun y hm _ => ?_) (hserver ▸ hi.building) hp
  rcases mem_live.1 hm with hm | hm
  · obtain ⟨v, hmv, rfl⟩ := mem_updateVm.1 (hv ▸ hm)
    refine ⟨v, mem_live.2 (.inl hmv), ?_⟩
    split
    · exact hf v
    · exact .refl v
  · exact ⟨y, mem_live.2 (.inr (hserver ▸ hm)), .refl y⟩

theorem cids_thread {h : Host κ} {s s' : Sys κ} {uid : Nat} (hr : Registry s) (hi : CidsOwned s)
    (hs : ThreadMove h s uid s') : CidsOwned s' := by
  have hdel : ∀ name p, CidsOwned ((deleteVmInstance h s name).setThread uid p) := by
    intro name p
    have hd := cids_delete h hr hi name
    exact ⟨hd.taken, hd.distinct, hd.building⟩
  cases hs with
  | launch => exact hi.update rfl rfl rfl fun _ => ⟨rfl, rfl, id⟩
  | booting => exact hi.update rfl rfl rfl fun _ => ⟨rfl, rfl, id⟩
  | setReady => exact hi.update rfl rfl rfl fun _ => ⟨rfl, rfl, id⟩
  | delete vb => exact hdel vb.name _
  | giveUp vb => exact hdel vb.name _
  | _ => exact ⟨hi.taken, hi.distinct, hi.building⟩

theorem cids_other {s s' : Sys κ} (hi : CidsOwned s) (hs : OtherMove s s') : CidsOwned s' := by
  cases hs with
  | proc uid f hf => exact hi.update rfl rfl rfl fun vb => ⟨hf.uid vb, hf.cid vb, hf.stopped vb ▸ id⟩
  | vmReady => exact hi.update rfl rfl rfl fun _ => ⟨rfl, rfl, id⟩
  | _ => exact ⟨hi.taken, hi.distinct, hi.building⟩

theorem cids_step {h : Host κ} {s s' : Sys κ} {a : Act κ} (hr : Registry s) (hi : CidsOwned s)
    (hg : cidUnshared s a = true) (hs : step h s a = some s') : CidsOwned s' := by
  rcases step_move hs with ⟨ha, hm⟩ | ⟨uid, -, hm⟩ | hm
  · refine cids_server hr hi (fun p vb hpc v hv hst hne => ?_) hm
    rcases ha with rfl | hl
    · simp only [cidUnshared, hpc, ne_eq, not_true_eq_false, decide_false, Bool.false_or, List.all_eq_true] at hg
      simpa [hst, hne] using hg v hv
    · rw [hpc] at hl
      cases hl
  · exact cids_thread hr hi hm
  · exact cids_other hi hm

/-- In every interleaving in which the pool never hands out the cid of an
instance that was stopped and is still registered: the cid of every registered
instance that has not been stopped is taken, and no other such instance has
it. -/
theorem cids_taken_and_distinct (h : Host κ) (k : κ) (s : Sys κ) (as : List (Act κ))
    (hr : run (step h) (Sys.init k) as = some s)
    (hg : Guarded (step h) (fun s a => cidUnshared s a = true) (Sys.init k) as) :
    (∀ vb ∈ s.vmis, vb.vsockCid ≠ 0 → vb.stopped = false → s.world.pool.bs vb.vsockCid = false) ∧
    ∀ vb ∈ s.vmis, ∀ vb' ∈ s.vmis, vb.vsockCid ≠ 0 → vb.stopped = false → vb'.stopped = false →
      vb.vsockCid = vb'.vsockCid → vb = vb' := by
  have hi : Registry s ∧ CidsOwned s := by
    refine run_keeps_guarded (I := fun s => Registry s ∧ CidsOwned s) (fun s a s' hi hg hs => ?_) hr hg
      ⟨registry_init k, ⟨fun _ hm => (nomatch hm), fun _ hm => (nomatch hm), fun _ he => nomatch he⟩⟩
    exact ⟨registry_step hi.1 hs, cids_step hi.1 hi.2 hg hs⟩
  refine ⟨fun vb hm => hi.2.taken vb (mem_live.2 (.inl hm)), fun vb hm vb' hm' hne _ _ he => ?_⟩
  exact hi.1.eq_of_uid hm hm' (hi.2.distinct vb (mem_live.2 (.inl hm)) vb' (mem_live.2 (.inl hm')) hne he)

/-- Two configs that differ in the name. -/
def twoVmHost : Host Unit :=
  stillHost [("/a.ini", "[global]\nname=a\n[firmware]\ntype=unified\n"),
    ("/b.ini", "[global]\nname=b\n[firmware]\ntype=unified\n")] []

/-- A VM is started, becomes ready, and the server answers. -/
def startUp (path : String) (uid : Nat) : List (Act Unit) :=
  .recv (.startVm path []) :: List.replicate 32 .server ++ [.thread uid, .attach uid 0, .thread uid, .thread uid,
    .thread uid, .thread uid] ++ List.replicate 4 .server

theorem cids_taken_and_distinct_two : ∃ s, run (step twoVmHost) (Sys.init ()) (startUp "/a.ini" 0 ++ startUp "/b.ini" 1) =
      some s ∧ s.vmis.map (fun vb => (vb.vsockCid, vb.stopped)) = [(1000, false), (1001, false)] ∧
    ∀ vb ∈ s.vmis, vb.vsockCid ≠ 0 → vb.stopped = false → s.world.pool.bs vb.vsockCid = false := by
  have he : (run (step twoVmHost) (Sys.init ()) (startUp "/a.ini" 0 ++ startUp "/b.ini" 1)).map
      (fun s => s.vmis.map fun vb => (vb.vsockCid, vb.stopped)) = some [(1000, false), (1001, false)] := by decide +kernel
  have hg : Guarded (step twoVmHost) (fun s a => cidUnshared s a = true) (Sys.init ())
      (startUp "/a.ini" 0 ++ startUp "/b.ini" 1) := by decide +kernel
  obtain ⟨s, hs, he⟩ := Option.map_eq_some_iff.1 he
  exact ⟨s, hs, he, (cids_taken_and_distinct twoVmHost () s _ hs hg).1⟩

/-- `a` is stopped, `b` gets its cid, and then the thread of `a` deletes it:
the cid of `b` is free while `b` is running. -/
theorem cid_freed_under_another : ∃ s vb, run (step twoVmHost) (Sys.init ())
      (startUp "/a.ini" 0 ++ .recv (.stopVm "a") :: List.replicate 8 .server ++ startUp "/b.ini" 1 ++
        List.replicate 3 (.thread 0)) = some s ∧
    vb ∈ s.vmis ∧ vb.name = "b" ∧ vb.vsockCid = 1000 ∧ vb.stopped = false ∧ vb.state = .running ∧
    s.world.pool.bs 1000 = true := by
  have he : (run (step twoVmHost) (Sys.init ())
      (startUp "/a.ini" 0 ++ .recv (.stopVm "a") :: List.replicate 8 .server ++ startUp "/b.ini" 1 ++
        List.replicate 3 (.thread 0))).map (fun s => (s.world.pool.bs 1000,
          s.vmis.map fun vb => (vb.name, vb.vsockCid, vb.stopped, vb.state))) =
      some (true, [("b", 1000, false, .running)]) := by decide
  obtain ⟨s, hs, he⟩ := Option.map_eq_some_iff.1 he
  obtain ⟨hfree, hv⟩ := Prod.mk.inj he
  obtain ⟨vb, rest, hvmis, hvb, -⟩ := List.map_eq_cons_iff.1 hv
  obtain ⟨hn, hvb⟩ := Prod.mk.inj hvb
  obtain ⟨hc, hvb⟩ := Prod.mk.inj hvb
  obtain ⟨hst, hrun⟩ := Prod.mk.inj hvb
  exact ⟨s, vb, hs, hvmis ▸ List.mem_cons_self, hn, hc, hst, hrun, hfree⟩

end VmManager
