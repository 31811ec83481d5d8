import VmManager.BuilderSteps
/-!
# Theorems about the devices a build takes

A device is taken when `PassthroughOnePciDev(dev, kPciPassthrough)` returns
true. It is then in `pci_pt_dev_set_`, but nothing gives it back before
`SetPciDevicesCallback` has queued the cleanup.
-/
open Text

namespace VmManager

open VmBuilderQemu

variable {κ : Type}

/-! ## Taken and restored -/

def taken (calls : List PciCall) (dev : String) : Prop := ⟨dev, .passthrough, true⟩ ∈ calls

/-- How often the device was handed to `PassthroughOnePciDev(dev, kPciRestore)`. -/
def restores (calls : List PciCall) (dev : String) : Nat :=
  calls.countP fun c => c.dev = dev ∧ c.action = .restore

/-- Every device taken is restored exactly once. -/
def RestoredOnce (calls : List PciCall) : Prop := ∀ dev, taken calls dev → restores calls dev = 1

theorem restores_append (calls calls' : List PciCall) (dev : String) :
    restores (calls ++ calls') dev = restores calls dev + restores calls' dev := List.countP_append

theorem taken_append {calls : List PciCall} {dev : String} {c : PciCall} :
    taken (calls ++ [c]) dev ↔ taken calls dev ∨ c = ⟨dev, .passthrough, true⟩ := by
  simp [taken, eq_comm]

section

variable (h : Host κ) (w : World κ) (dev : String) (action : PciPassthroughAction)

theorem pci_calls : (w.pci h dev action).2.pciCalls = w.pciCalls ++ [⟨dev, action, (w.pci h dev action).1⟩] := rfl

end

/-- The set is the devices taken, and none of them has been restored yet. -/
structure Tracked (vb : VmBuilderQemu) (w : World κ) : Prop where
  nodup : vb.pciPtDevSet.Nodup
  mem : ∀ dev, dev ∈ vb.pciPtDevSet ↔ taken w.pciCalls dev
  none : ∀ dev, restores w.pciCalls dev = 0

theorem Tracked.of_same {vb vb' : VmBuilderQemu} {w w' : World κ} (ht : Tracked vb w) (hd : SameDevs vb vb')
    (hc : w'.pciCalls = w.pciCalls) : Tracked vb' w' := by
  obtain ⟨hn, hm, h0⟩ := ht
  constructor
  · rw [hd.devs]; exact hn
  · intro dev; rw [hd.devs, hc]; exact hm dev
  · intro dev; rw [hc]; exact h0 dev

theorem mem_insertDev {vb : VmBuilderQemu} {dev d : String} :
    d ∈ (vb.insertDev dev).pciPtDevSet ↔ d = dev ∨ d ∈ vb.pciPtDevSet := by
  unfold insertDev
  dsimp only
  split
  · constructor
    · exact .inr
    · rintro (rfl | hd)
      · assumption
      · exact hd
  · exact List.mem_orderedInsert _

theorem nodup_insertDev {vb : VmBuilderQemu} (dev : String) (hn : vb.pciPtDevSet.Nodup) :
    (vb.insertDev dev).pciPtDevSet.Nodup := by
  unfold insertDev
  dsimp only
  split
  · exact hn
  · rename_i hd
    rw [(List.perm_orderedInsert _ dev vb.pciPtDevSet).nodup_iff]
    exact List.nodup_cons.2 ⟨hd, hn⟩

/-- Asking for one more device keeps the set in step with the calls. -/
theorem Tracked.pci {vb : VmBuilderQemu} {w : World κ} (ht : Tracked vb w) (h : Host κ) (dev : String) :
    Tracked (if (w.pci h dev .passthrough).1 = true then vb.insertDev dev else vb) (w.pci h dev .passthrough).2 := by
  obtain ⟨hn, hm, h0⟩ := ht
  have hr : ∀ d, restores (w.pci h dev .passthrough).2.pciCalls d = 0 := by
    intro d
    rw [pci_calls, restores_append, h0]
    simp [restores]
  by_cases hret : (w.pci h dev .passthrough).1 = true
  · rw [if_pos hret]
    refine ⟨nodup_insertDev dev hn, fun d => ?_, hr⟩
    rw [mem_insertDev, hm, pci_calls, taken_append, hret, PciCall.mk.injEq]
    simp [eq_comm, or_comm]
  · rw [if_neg hret]
    refine ⟨hn, fun d => ?_, hr⟩
    rw [hm, pci_calls, taken_append]
    simp [hret]

/-! ## What `StopVm` restores -/

section

variable (h : Host κ) (vb : VmBuilderQemu)

/-- Over the devices of the set, each is handed over once more. -/
theorem restoreDevs_calls (devs : List String) (w : World κ) (dev : String) :
    restores (devs.foldl (fun w d => (w.pci h d .restore).2) w).pciCalls dev
        = restores w.pciCalls dev + devs.count dev ∧
      (taken (devs.foldl (fun w d => (w.pci h d .restore).2) w).pciCalls dev ↔ taken w.pciCalls dev) := by
  induction devs generalizing w with
  | nil => simp
  | cons d devs ih =>
    obtain ⟨h1, h2⟩ := ih (w.pci h d .restore).2
    rw [List.foldl_cons, h1, h2, pci_calls, restores_append, taken_append, List.count_cons]
    constructor
    · by_cases hd : d = dev
      · simp [restores, hd]; omega
      · simp [restores, hd]
    · simp

theorem endCalls_calls (ends : List EndCall) (w : World κ) (dev : String) :
    restores (ends.foldl (vb.runEndCall h) w).pciCalls dev
        = restores w.pciCalls dev + ends.count .restorePci * vb.pciPtDevSet.count dev ∧
      (taken (ends.foldl (vb.runEndCall h) w).pciCalls dev ↔ taken w.pciCalls dev) := by
  induction ends generalizing w with
  | nil => simp
  | cons c ends ih =>
    obtain ⟨h1, h2⟩ := ih (vb.runEndCall h w c)
    rw [List.foldl_cons, h1, h2]
    cases c with
    | probeSound => exact ⟨by simp [runEndCall], .rfl⟩
    | removeSocket => exact ⟨by simp [runEndCall, World.remove], .rfl⟩
    | restorePci =>
      obtain ⟨h3, h4⟩ := restoreDevs_calls h vb.pciPtDevSet w dev
      refine ⟨?_, h4⟩
      rw [runEndCall, h3, List.count_cons_self, Nat.succ_mul]
      omega

/-- So many calls of `StopVm` in a row; the last one may be the destructor's. -/
def stops : Nat → VmBuilderQemu → World κ → VmBuilderQemu × World κ
  | 0, vb, w => (vb, w)
  | n + 1, vb, w => stops n (vb.stopVm h w).1 (vb.stopVm h w).2

/-- The cleanups run in the first `StopVm` and in no later one. -/
theorem stops_calls_of_nil (n : Nat) (vb : VmBuilderQemu) (w : World κ) (he : vb.endCall = []) :
    (stops h n vb w).2.pciCalls = w.pciCalls := by
  induction n generalizing vb w with
  | zero => rfl
  | succ n ih =>
    rw [stops, ih _ _ rfl, stopVm]
    simp [he]

theorem stops_calls (n : Nat) (w : World κ) (dev : String) :
    restores (stops h (n + 1) vb w).2.pciCalls dev
        = restores w.pciCalls dev + vb.endCall.count .restorePci * vb.pciPtDevSet.count dev ∧
      (taken (stops h (n + 1) vb w).2.pciCalls dev ↔ taken w.pciCalls dev) := by
  rw [stops, stops_calls_of_nil h n _ _ rfl, stopVm]
  exact endCalls_calls h vb vb.endCall _ dev

/-- Once stopped, the VM has given its devices back exactly when it had none
or had the cleanup queued. -/
theorem restoredOnce_stops {vb : VmBuilderQemu} {w : World κ} (ht : Tracked vb w) (n : Nat) :
    RestoredOnce (stops h (n + 1) vb w).2.pciCalls ↔
      vb.pciPtDevSet = [] ∨ vb.endCall.count .restorePci = 1 := by
  constructor
  · intro hr
    by_cases hnil : vb.pciPtDevSet = []
    · exact .inl hnil
    · obtain ⟨dev, hdev⟩ := List.exists_mem_of_ne_nil _ hnil
      obtain ⟨h1, h2⟩ := stops_calls h vb n w dev
      have hone := hr dev (h2.2 ((ht.mem dev).1 hdev))
      rw [h1, ht.none, Nat.zero_add] at hone
      exact .inr (Nat.eq_one_of_mul_eq_one_right hone)
  · intro hcase dev htk
    obtain ⟨h1, h2⟩ := stops_calls h vb n w dev
    have hdev := (ht.mem dev).2 (h2.1 htk)
    rw [h1, ht.none, Nat.zero_add]
    rcases hcase with hnil | hone
    · rw [hnil] at hdev; cases hdev
    · rw [hone, List.count_eq_one_of_mem ht.nodup hdev]

end

/-! ## Where a build ends -/

/-- The builder and the world after a build that returned or threw. -/
inductive Outcome.Ends : Outcome κ → VmBuilderQemu → World κ → Prop
  | ok (vb : VmBuilderQemu) (w : World κ) : Outcome.Ends (.ok vb w) vb w
  | failed (vb : VmBuilderQemu) (w : World κ) : Outcome.Ends (.failed vb w) vb w
  | threw (e : Exn) (vb : VmBuilderQemu) (w : World κ) : Outcome.Ends (.threw e vb w) vb w

def Outcome.ended : Outcome κ → Option (VmBuilderQemu × World κ)
  | .ok vb w | .failed vb w | .threw _ vb w => some (vb, w)
  | .hung _ => none

theorem Outcome.ends_of_ended {o : Outcome κ} {vb : VmBuilderQemu} {w : World κ} (h : o.ended = some (vb, w)) :
    o.Ends vb w := by
  cases o <;> cases h <;> constructor

theorem Outcome.All.of_ends {R : VmBuilderQemu → World κ → Prop} {o : Outcome κ} {vb : VmBuilderQemu} {w : World κ}
    (h : o.All R) (he : o.Ends vb w) : R vb w := by
  cases he <;> cases h <;> assumption

section

variable (h : Host κ) (vb : VmBuilderQemu) (w : World κ)

/-- The emulator is found and the config has a name: `BuildVgpuCmd` is reached. -/
def ReachesVgpu : Prop := (vb.buildEmulPath h w.kernel).1 = true ∧ (vb.buildNameQmp h).1 = true

/-- The steps between `BuildVgpuCmd` and `SetPciDevicesCallback` that can fail
do not: AAF, vsock and firmware. -/
def LaterStepsPass (pool : VsockCidPool) : Prop :=
  vb.buildAafCfg.1 = true ∧ cidFor vb pool ≠ 0 ∧ vb.buildFirmwareCmd.1 = true

/-- The host lets go of its GPU when `GVT-d` asks for it. -/
def gpuGranted : Bool := ((vb.soundCardHook h w).2.pci h kIntelGpuBdf .passthrough).1

theorem buildNameQmp_fst : (vb.buildNameQmp h).1 = !(trim (vb.value kGroupGlob kGlobName)).isEmpty := by
  unfold buildNameQmp
  dsimp only
  split <;> simp_all

theorem buildAafCfg_fst : vb.buildAafCfg.1 =
    ((vb.value kGroupAaf kAafPath).isEmpty || (aafSuspend (vb.value kGroupAaf kAafSuspend)).isSome) := by
  unfold buildAafCfg
  dsimp only
  split
  · simp_all
  · split <;> simp_all

theorem buildFirmwareCmd_fst : vb.buildFirmwareCmd.1 =
    decide (vb.value kGroupFirm kFirmType = kFirmUnified ∨ vb.value kGroupFirm kFirmType = kFirmSplited) := by
  unfold buildFirmwareCmd
  dsimp only
  split
  · rename_i he
    have : vb.value kGroupFirm kFirmType = "" := by simpa using he
    rw [this]
    rfl
  · split
    · simp_all
    · split <;> simp_all

variable {vb}

theorem SameVm.laterStepsPass {vb' : VmBuilderQemu} (hs : SameVm vb vb') (pool : VsockCidPool) :
    LaterStepsPass vb' pool ↔ LaterStepsPass vb pool := by
  unfold LaterStepsPass cidFor
  rw [buildAafCfg_fst, buildAafCfg_fst, buildFirmwareCmd_fst, buildFirmwareCmd_fst]
  simp only [hs.value]

theorem SameVm.gpuGranted {vb' : VmBuilderQemu} : gpuGranted h vb' w = gpuGranted h vb w := by
  unfold VmManager.gpuGranted soundCardHook
  dsimp only
  split <;> rfl

variable (vb)

/-- Up to `BuildVgpuCmd` the world is as it was. -/
theorem stepsBeforeVgpu_cases :
    (ReachesVgpu h vb w ∧ ∃ vb', Plain vb vb' ∧ runSteps (stepsBeforeVgpu h) vb w = .ok vb' w) ∨
    (¬ ReachesVgpu h vb w ∧ ∃ vb', Plain vb vb' ∧ runSteps (stepsBeforeVgpu h) vb w = .failed vb' w) := by
  have h1 := buildEmulPath_plain h w.kernel vb
  have h2 := h1.trans (buildNameQmp_plain h _)
  have hname : ((vb.buildEmulPath h w.kernel).2.buildNameQmp h).1 = (vb.buildNameQmp h).1 := by
    rw [buildNameQmp_fst, buildNameQmp_fst, h1.same.value]
  rw [stepsBeforeVgpu, runSteps_checked]
  by_cases he : (vb.buildEmulPath h w.kernel).1 = true
  · rw [if_pos he, runSteps_checked, hname]
    by_cases hn : (vb.buildNameQmp h).1 = true
    · rw [if_pos hn]
      refine .inl ⟨⟨he, hn⟩, _, ?_, rfl⟩
      exact ((h2.trans (buildRpmbCmd_plain h _ _)).trans (buildDispCmd_plain _)).trans (initAafCfg_plain _)
    · rw [if_neg hn]
      exact .inr ⟨fun hr => hn hr.2, _, h2, rfl⟩
  · rw [if_neg he]
    exact .inr ⟨fun hr => he hr.1, _, h1, rfl⟩

/-- The steps from `BuildVtpmCmd` to `BuildVdiskCmd`. -/
theorem stepsAfterVsock_cases : ∃ vb', Plain vb vb' ∧
    runSteps [always fun _ => buildVtpmCmd, always fun _ => buildMemCmd, always fun _ => buildVcpuCmd,
        checked fun _ => buildFirmwareCmd, always fun _ => buildVdiskCmd] vb w =
      if vb.buildFirmwareCmd.1 = true then .ok vb' w else .failed vb' w := by
  have h1 := ((buildVtpmCmd_plain vb).trans (buildMemCmd_plain _)).trans (buildVcpuCmd_plain _)
  have h2 := h1.trans (buildFirmwareCmd_plain _)
  have hf : vb.buildVtpmCmd.buildMemCmd.buildVcpuCmd.buildFirmwareCmd.1 = vb.buildFirmwareCmd.1 := by
    rw [buildFirmwareCmd_fst, buildFirmwareCmd_fst, h1.same.value]
  rw [runSteps_always, runSteps_always, runSteps_always, runSteps_checked, hf]
  by_cases hok : vb.buildFirmwareCmd.1 = true
  · rw [if_pos hok]
    exact ⟨_, h2.trans (buildVdiskCmd_plain _), by rw [if_pos hok]; rfl⟩
  · rw [if_neg hok]
    exact ⟨_, h2, by rw [if_neg hok]⟩

/-- From `BuildVgpuCmd` to `BuildPtPciDevicesCmd` no device changes hands. -/
theorem stepsBeforePtPci_cases : ∃ vb' w', SameVm vb vb' ∧ SameDevs vb vb' ∧ w'.pciCalls = w.pciCalls ∧
    ((LaterStepsPass vb w.pool ∧ runSteps stepsBeforePtPci vb w = .ok vb' w') ∨
     (¬ LaterStepsPass vb w.pool ∧ runSteps stepsBeforePtPci vb w = .failed vb' w')) := by
  have h1 := buildVinputCmd_plain vb
  have h2 := h1.trans (buildAafCfg_plain _)
  have h3 := h2.trans (buildNetCmd_plain _)
  have haaf : vb.buildVinputCmd.buildAafCfg.1 = vb.buildAafCfg.1 := by
    rw [buildAafCfg_fst, buildAafCfg_fst, h1.same.value, h1.same.value]
  rw [stepsBeforePtPci, runSteps_always, runSteps_checked, haaf]
  by_cases ha : vb.buildAafCfg.1 = true
  · rw [if_pos ha, runSteps_always, runSteps, ← h3.same.laterStepsPass]
    have ha' : (vb.buildVinputCmd.buildAafCfg.2.buildNetCmd).buildAafCfg.1 = true := by
      rw [buildAafCfg_fst, h3.same.value, h3.same.value, ← buildAafCfg_fst]; exact ha
    generalize vb.buildVinputCmd.buildAafCfg.2.buildNetCmd = vb3 at h3 ha' ⊢
    obtain ⟨vb4, h4, h4d, ⟨hc, -, he⟩ | ⟨hc, -, he⟩⟩ := buildVsockCmd_cases vb3 w
    · obtain ⟨vb5, h5, hrun⟩ := stepsAfterVsock_cases vb4 { w with pool := w.pool.reset (cidFor vb3 w.pool) }
      have hfirm : vb4.buildFirmwareCmd.1 = vb3.buildFirmwareCmd.1 := by
        rw [buildFirmwareCmd_fst, buildFirmwareCmd_fst, h4.value]
      rw [hfirm] at hrun
      rw [he]
      refine ⟨vb5, { w with pool := w.pool.reset (cidFor vb3 w.pool) }, h3.same.trans (h4.trans h5.same),
        h3.devs.trans (h4d.trans h5.devs), rfl, ?_⟩
      by_cases hf : vb3.buildFirmwareCmd.1 = true
      · rw [if_pos hf] at hrun
        exact .inl ⟨⟨ha', hc, hf⟩, hrun⟩
      · rw [if_neg hf] at hrun
        exact .inr ⟨fun hp => hf hp.2.2, hrun⟩
    · rw [he]
      exact ⟨vb4, w, h3.same.trans h4, h3.devs.trans h4d, rfl, .inr ⟨fun hp => hp.2.1 hc, rfl⟩⟩
  · rw [if_neg ha]
    exact ⟨_, w, h2.same, h2.devs, rfl, .inr ⟨fun hp => ha hp.1, rfl⟩⟩

/-- `BuildVgpuCmd` with `GVT-d`: the GPU joins the set if the host grants it. -/
theorem buildGvtd_cases {vb : VmBuilderQemu} {w : World κ} (ht : Tracked vb w) :
    ∃ vb' w', SameVm vb vb' ∧ Tracked vb' w' ∧ vb'.endCall.count .restorePci = vb.endCall.count .restorePci ∧
      w'.pool = w.pool ∧
      ((gpuGranted h vb w = true ∧ kIntelGpuBdf ∈ vb'.pciPtDevSet ∧ buildGvtd h vb w = .ok vb' w') ∨
       (gpuGranted h vb w = false ∧ vb'.pciPtDevSet = vb.pciPtDevSet ∧ buildGvtd h vb w = .failed vb' w')) := by
  have hq := soundCardHook_quiet h vb w
  have ht1 := (ht.of_same hq.plain.devs hq.calls).pci h kIntelGpuBdf
  unfold buildGvtd gpuGranted passthroughGpu at *
  dsimp only
  generalize vb.soundCardHook h w = r at hq ht1 ⊢
  by_cases hg : (r.2.pci h kIntelGpuBdf .passthrough).1 = true
  · rw [if_pos hg] at ht1
    rw [hg]
    refine ⟨_, _, ?_, ?_, ?_, ?_, .inl ⟨rfl, ?_, rfl⟩⟩
    · exact hq.plain.same.trans ⟨rfl, rfl, rfl, rfl, .inl rfl, id⟩
    · exact ht1.of_same ⟨rfl, rfl⟩ rfl
    · exact hq.plain.devs.ends
    · exact hq.pool
    · exact mem_insertDev.2 (.inl rfl)
  · rw [if_neg hg] at ht1
    have hgf : (r.2.pci h kIntelGpuBdf .passthrough).1 = false := by simpa using hg
    rw [hgf]
    exact ⟨_, _, hq.plain.same, ht1, hq.plain.devs.ends, hq.pool, .inr ⟨rfl, hq.plain.devs.devs, rfl⟩⟩

/-- The loop over the configured devices keeps the set in step. -/
theorem passthroughDevs_tracked {vb : VmBuilderQemu} {w : World κ} (ht : Tracked vb w) (devs : List String) :
    Tracked (passthroughDevs h devs vb w).1 (passthroughDevs h devs vb w).2 ∧
      (passthroughDevs h devs vb w).1.endCall = vb.endCall := by
  induction devs generalizing vb w with
  | nil => exact ⟨ht, rfl⟩
  | cons dev devs ih =>
    have ht1 := ht.pci h dev
    rw [passthroughDevs]
    split <;> rename_i w' he <;> rw [he] at ht1
    · have ht2 : Tracked ((vb.insertDev dev).append (" -device vfio-pci,host=" ++ dev ++ ",x-no-kvm-intx=on")) w' :=
        ht1.of_same ⟨rfl, rfl⟩ rfl
      exact ih ht2
    · exact ih ht1

/-- The set, once the cleanup is queued. -/
structure Armed (vb : VmBuilderQemu) (w : World κ) : Prop where
  tracked : Tracked vb w
  queued : vb.pciPtDevSet = [] ∨ vb.endCall.count .restorePci = 1

/-- From `BuildPtPciDevicesCmd` on the cleanup for what is taken gets queued. -/
theorem stepsFromPtPci_armed {vb : VmBuilderQemu} {w : World κ} (ht : Tracked vb w)
    (h0 : vb.endCall.count .restorePci = 0) :
    (runSteps (buildPtPciDevicesCmd h :: (always fun _ => setPciDevicesCallback) :: stepsAfterCallback h) vb w).All
      Armed := by
  have hpt : ∃ vb' w', buildPtPciDevicesCmd h vb w = .ok vb' w' ∧ Tracked vb' w' ∧
      vb'.endCall.count .restorePci = 0 := by
    unfold buildPtPciDevicesCmd
    dsimp only
    split
    · exact ⟨vb, w, rfl, ht, h0⟩
    · have hb : Tracked vb (vb.bringDownBtHciIntf h w) := ht.of_same (.refl vb) (by unfold bringDownBtHciIntf; split <;> rfl)
      obtain ⟨h1, h2⟩ := passthroughDevs_tracked h hb
        ((splitCompress ',' (trim (vb.value kGroupPciPt kPciPtDev))).map trim)
      exact ⟨_, _, rfl, h1, by rw [h2]; exact h0⟩
  obtain ⟨vb', w', he, ht', h0'⟩ := hpt
  have harmed : Armed vb'.setPciDevicesCallback w' := by
    unfold setPciDevicesCallback
    split
    · rename_i hnil
      exact ⟨ht', .inl (by simpa using hnil)⟩
    · refine ⟨⟨ht'.nodup, ht'.mem, ht'.none⟩, .inr ?_⟩
      simp [queue, h0']
  rw [runSteps, he]
  dsimp only
  rw [runSteps_always]
  have hq := runSteps_all Quiet.refl Quiet.trans (stepsAfterCallback_quiet h) vb'.setPciDevicesCallback w'
  refine hq.imp fun vb'' w'' hq => ⟨harmed.tracked.of_same hq.plain.devs hq.calls, ?_⟩
  rw [hq.plain.devs.devs, hq.plain.devs.ends]
  exact harmed.queued

/-- The GPU is taken, and a later step fails before its cleanup is queued. -/
def DeviceLost (vb : VmBuilderQemu) (w : World κ) : Prop :=
  ReachesVgpu h vb w ∧ vb.value kGroupVgpu kVgpuType = kVgpuGvtD ∧ gpuGranted h vb w = true ∧
    ¬ LaterStepsPass vb w.pool

/-- A build that stopped before the cleanup could be queued. -/
structure Unarmed (lost : Prop) (vb : VmBuilderQemu) (w : World κ) : Prop where
  tracked : Tracked vb w
  unqueued : vb.endCall.count .restorePci = 0
  empty : vb.pciPtDevSet = [] ↔ ¬ lost

/-- The steps from `BuildVgpuCmd` to `BuildPtPciDevicesCmd`, with `lost` for
what happens if they fail after the GPU is taken. -/
theorem stepsFromVgpu_cases {vb : VmBuilderQemu} {w : World κ} (ht : Tracked vb w) (hn : vb.pciPtDevSet = [])
    (h0 : vb.endCall.count .restorePci = 0) {lost : Prop}
    (hl : lost ↔ vb.value kGroupVgpu kVgpuType = kVgpuGvtD ∧ gpuGranted h vb w = true ∧ ¬ LaterStepsPass vb w.pool) :
    (∃ vb' w', runSteps (buildVgpuCmd h :: stepsBeforePtPci) vb w = .ok vb' w' ∧ Tracked vb' w' ∧
      vb'.endCall.count .restorePci = 0 ∧ ¬ lost) ∨
    ((∀ vb' w', runSteps (buildVgpuCmd h :: stepsBeforePtPci) vb w ≠ .ok vb' w') ∧
      (runSteps (buildVgpuCmd h :: stepsBeforePtPci) vb w).All (Unarmed lost)) := by
  rw [runSteps]
  by_cases htype : vb.value kGroupVgpu kVgpuType = kVgpuGvtD
  · rw [buildVgpuCmd_gvtd h vb w htype]
    obtain ⟨vb1, w1, hs, ht1, hc, hpool, ⟨hg, hmem, he⟩ | ⟨hg, hdevs, he⟩⟩ := buildGvtd_cases h ht
    · -- The GPU is taken: all hangs on the steps up to the callback.
      rw [he]
      dsimp only
      obtain ⟨vb2, w2, -, hd2, hcalls, ⟨hp, he2⟩ | ⟨hp, he2⟩⟩ := stepsBeforePtPci_cases vb1 w1 <;>
        rw [hs.laterStepsPass, hpool] at hp
      · refine .inl ⟨vb2, w2, he2, ht1.of_same hd2 hcalls, ?_, fun hlost => (hl.1 hlost).2.2 hp⟩
        rw [hd2.ends, hc, h0]
      · refine .inr ⟨fun vb' w' hok => ?_, ?_⟩
        · rw [he2] at hok; cases hok
        · rw [he2]
          refine .failed ⟨ht1.of_same hd2 hcalls, by rw [hd2.ends, hc, h0], ?_⟩
          rw [hd2.devs]
          refine ⟨fun hnil => ?_, fun hnot => absurd (hl.2 ⟨htype, hg, hp⟩) hnot⟩
          rw [hnil] at hmem
          cases hmem
    · rw [he]
      refine .inr ⟨fun _ _ hok => (by cases hok), .failed ⟨ht1, hc.trans h0, ?_⟩⟩
      rw [hdevs]
      refine ⟨fun _ hlost => ?_, fun _ => hn⟩
      rw [(hl.1 hlost).2.1] at hg
      cases hg
  · -- Nothing is taken.
    have hnot : ¬ lost := fun hlost => htype (hl.1 hlost).1
    have hq := buildVgpuCmd_quiet h vb w htype
    have hun : ∀ vb' w', Quiet vb w vb' w' → Unarmed lost vb' w' := fun vb' w' hq =>
      ⟨ht.of_same hq.plain.devs hq.calls, hq.plain.devs.ends.trans h0,
       fun _ => hnot, fun _ => hq.plain.devs.devs.trans hn⟩
    cases hv : buildVgpuCmd h vb w with
    | ok vb1 w1 =>
      rw [hv] at hq
      cases hq with
      | ok hq =>
        dsimp only
        obtain ⟨vb2, w2, -, hd2, hcalls, ⟨-, he2⟩ | ⟨-, he2⟩⟩ := stepsBeforePtPci_cases vb1 w1
        · refine .inl ⟨vb2, w2, he2, (hun _ _ hq).tracked.of_same hd2 hcalls, ?_, hnot⟩
          rw [hd2.ends]
          exact (hun _ _ hq).unqueued
        · refine .inr ⟨fun vb' w' hok => ?_, ?_⟩
          · rw [he2] at hok; cases hok
          · rw [he2]
            refine .failed ⟨(hun _ _ hq).tracked.of_same hd2 hcalls, ?_, fun _ => hnot, fun _ => ?_⟩
            · rw [hd2.ends]; exact (hun _ _ hq).unqueued
            · rw [hd2.devs]; exact hq.plain.devs.devs.trans hn
    | failed vb1 w1 => rw [hv] at hq; exact .inr ⟨fun _ _ hok => (by cases hok), hq.imp hun⟩
    | threw e vb1 w1 => rw [hv] at hq; exact .inr ⟨fun _ _ hok => (by cases hok), hq.imp hun⟩
    | hung w1 => exact .inr ⟨fun _ _ hok => (by cases hok), .hung⟩

/-- Where a build that returned or threw stands. -/
theorem buildVmArgs_ends {vb vb' : VmBuilderQemu} {w w' : World κ} (ht : Tracked vb w) (hn : vb.pciPtDevSet = [])
    (h0 : vb.endCall.count .restorePci = 0) (he : (buildVmArgs h vb w).Ends vb' w') :
    Tracked vb' w' ∧ ((vb'.pciPtDevSet = [] ∨ vb'.endCall.count .restorePci = 1) ↔ ¬ DeviceLost h vb w) := by
  have hun : Unarmed (DeviceLost h vb w) vb' w' → Tracked vb' w' ∧
      ((vb'.pciPtDevSet = [] ∨ vb'.endCall.count .restorePci = 1) ↔ ¬ DeviceLost h vb w) := by
    intro hu
    refine ⟨hu.tracked, ?_⟩
    rw [hu.unqueued, ← hu.empty]
    simp
  unfold buildVmArgs buildSteps at he
  rw [runSteps_append, runSteps_append] at he
  rcases stepsBeforeVgpu_cases h vb w with ⟨hr, vb1, hp, hpre⟩ | ⟨hr, vb1, hp, hpre⟩ <;> rw [hpre] at he
  · have hl : DeviceLost h vb w ↔ vb1.value kGroupVgpu kVgpuType = kVgpuGvtD ∧ gpuGranted h vb1 w = true ∧
        ¬ LaterStepsPass vb1 w.pool := by
      rw [hp.same.value, SameVm.gpuGranted h w, hp.same.laterStepsPass]
      exact ⟨fun hlost => hlost.2, fun hlost => ⟨hr, hlost⟩⟩
    have ht1 := ht.of_same hp.devs (rfl : w.pciCalls = w.pciCalls)
    dsimp only at he
    rcases stepsFromVgpu_cases h ht1 (hp.devs.devs.trans hn) (hp.devs.ends.trans h0) hl with
      ⟨vb2, w2, hv, ht2, h2, hnot⟩ | ⟨hne, hall⟩
    · rw [hv] at he
      have harmed := (stepsFromPtPci_armed h ht2 h2).of_ends he
      exact ⟨harmed.tracked, fun _ => hnot, fun _ => harmed.queued⟩
    · cases ho : runSteps (buildVgpuCmd h :: stepsBeforePtPci) vb1 w with
      | ok vb2 w2 => exact absurd ho (hne vb2 w2)
      | failed vb2 w2 => rw [ho] at he hall; exact hun (hall.of_ends he)
      | threw e vb2 w2 => rw [ho] at he hall; exact hun (hall.of_ends he)
      | hung w2 => rw [ho] at he; cases he
  · cases he with
    | failed _ _ =>
      refine hun ⟨ht.of_same hp.devs rfl, hp.devs.ends.trans h0, ?_⟩
      exact ⟨fun _ hlost => hr hlost.1, fun _ => hp.devs.devs.trans hn⟩

/-- A build that ends, followed by any number of `StopVm` calls and the
destructor, has restored every device it took exactly once, unless the GPU
was taken and a later step failed before the cleanup was queued. -/
theorem devices_restored_iff (uid : Nat) (name : String) (cfg : CivConfig) (pool : VsockCidPool) (socketPath : String)
    (kernel : κ) (vb' : VmBuilderQemu) (w' : World κ) (n : Nat)
    (he : (buildVmArgs h { uid, name, cfg } { pool, socketPath, kernel }).Ends vb' w') :
    RestoredOnce (stops h (n + 1) vb' w').2.pciCalls ↔
      ¬ DeviceLost h { uid, name, cfg } { pool, socketPath, kernel } := by
  have ht : Tracked ({ uid, name, cfg } : VmBuilderQemu) ({ pool, socketPath, kernel } : World κ) :=
    ⟨List.nodup_nil, by simp [taken], by simp [restores]⟩
  obtain ⟨ht', hiff⟩ := buildVmArgs_ends h ht rfl rfl he
  rw [restoredOnce_stops h ht' n, hiff]

end

/-- A host with the two vfio modules and a GPU that no driver holds. -/
def gpuHost : Host Unit :=
  stillHost [] [(kVfioModulePath, []), (kVfioPciModulePath, []),
    (kPciDevicePath ++ kIntelGpuBdf ++ "/iommu_group/devices", [kIntelGpuBdf])]

def gvtdConfig (firmware : String) : CivConfig :=
  ⟨[{ name := kGroupGlob, entries := [(kGlobName, "vm")] }, { name := kGroupVgpu, entries := [(kVgpuType, kVgpuGvtD)] },
    { name := kGroupFirm, entries := [(kFirmType, firmware)] }]⟩

theorem devices_restored_unified : ∃ vb' w',
    (buildVmArgs gpuHost { uid := 0, name := "vm", cfg := gvtdConfig "unified" } { kernel := () }).Ends vb' w' ∧
      RestoredOnce (stops gpuHost 1 vb' w').2.pciCalls := by
  have hsome : (buildVmArgs gpuHost { uid := 0, name := "vm", cfg := gvtdConfig "unified" } { kernel := () }).ended.isSome =
      true := rfl
  obtain ⟨⟨vb', w'⟩, hb⟩ := Option.isSome_iff_exists.1 hsome
  have he := Outcome.ends_of_ended hb
  refine ⟨vb', w', he, (devices_restored_iff gpuHost 0 "vm" _ {} "" () vb' w' 0 he).2 fun hlost => ?_⟩
  exact hlost.2.2.2 ⟨rfl, by decide, rfl⟩

/-- With a firmware type that `BuildFirmwareCmd` does not know, the host's GPU
stays with `vfio-pci`. -/
theorem gpu_not_restored : ∃ vb' w',
    (buildVmArgs gpuHost { uid := 0, name := "vm", cfg := gvtdConfig "uefi" } { kernel := () }).Ends vb' w' ∧
      taken (stops gpuHost 1 vb' w').2.pciCalls kIntelGpuBdf ∧
      ¬ RestoredOnce (stops gpuHost 1 vb' w').2.pciCalls := by
  have hcalls : (buildVmArgs gpuHost { uid := 0, name := "vm", cfg := gvtdConfig "uefi" } { kernel := () }).ended.map
      (fun p => (stops gpuHost 1 p.1 p.2).2.pciCalls) = some [⟨kIntelGpuBdf, .passthrough, true⟩] := rfl
  obtain ⟨⟨vb', w'⟩, hb, hcalls⟩ := Option.map_eq_some_iff.1 hcalls
  dsimp only at hcalls
  refine ⟨vb', w', Outcome.ends_of_ended hb, by rw [hcalls]; exact List.mem_singleton.2 rfl, fun hr => ?_⟩
  rw [hcalls] at hr
  have hone := hr kIntelGpuBdf (List.mem_singleton.2 rfl)
  cases hone

end VmManager
