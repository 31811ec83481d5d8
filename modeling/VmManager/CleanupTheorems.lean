import Mathlib.Data.List.Sublists
import VmManager.DeviceTheorems
/-!
# Theorems about the cleanups of a VM

`BuildVmArgs` queues in `end_call_` what `StopVm` has to undo. A queue gives
first what was put in first, so the cleanups run in the order in which things
were acquired, and not backwards.
-/
open Text

namespace VmManager

open VmBuilderQemu

variable {κ : Type}

/-! ## What is queued -/

/-- The order in which `BuildVmArgs` acquires what the cleanups undo. The sound
module is removed before `BuildVgpuCmd` takes the GPU, further devices follow,
and the power socket is chosen last. -/
def acquisitionOrder : List EndCall := [.probeSound, .restorePci, .removeSocket]

/-- The step queues no cleanups but these, in this order. -/
def Queues (allowed : List EndCall) (st : Step κ) : Prop :=
  ∀ vb w, (st vb w).All fun vb' _ => ∃ added, vb'.endCall = vb.endCall ++ added ∧ added.Sublist allowed

theorem queues_nil {st : Step κ} (h : ∀ vb w, (st vb w).All fun vb' _ => vb'.endCall = vb.endCall) : Queues [] st := by
  intro vb w
  exact (h vb w).imp fun vb' _ he => ⟨[], by simpa using he, .slnil⟩

theorem always_queues {f : κ → VmBuilderQemu → VmBuilderQemu} (hf : ∀ k vb, (f k vb).endCall = vb.endCall) :
    Queues [] (always f) :=
  queues_nil fun vb w => .ok (hf w.kernel vb)

theorem checked_queues {f : κ → VmBuilderQemu → Bool × VmBuilderQemu} (hf : ∀ k vb, (f k vb).2.endCall = vb.endCall) :
    Queues [] (checked f) := by
  refine queues_nil fun vb w => ?_
  have hk := hf w.kernel vb
  unfold checked
  split <;> rename_i he <;> rw [he] at hk
  · exact .ok hk
  · exact .failed hk

/-- The steps with what they queue, one after the other. -/
theorem runSteps_queues {sts : List (Step κ × List EndCall)} (h : ∀ p ∈ sts, Queues p.2 p.1) :
    Queues (sts.flatMap (·.2)) (runSteps (sts.map (·.1))) := by
  induction sts with
  | nil => exact fun vb w => .ok ⟨[], by simp, .slnil⟩
  | cons p sts ih =>
    intro vb w
    have hp := h p List.mem_cons_self vb w
    have ih := ih fun q hq => h q (List.mem_cons_of_mem p hq)
    simp only [List.map_cons, List.flatMap_cons]
    rw [runSteps]
    cases hst : p.1 vb w with
    | ok vb' w' =>
      rw [hst] at hp
      obtain ⟨added, he, hs⟩ : ∃ added, vb'.endCall = vb.endCall ++ added ∧ added.Sublist p.2 := by
        cases hp with
        | ok h => exact h
      refine (ih vb' w').imp fun vb'' _ hmore => ?_
      obtain ⟨more, he', hs'⟩ := hmore
      refine ⟨added ++ more, ?_, hs.append hs'⟩
      rw [he', he, List.append_assoc]
    | failed vb' w' =>
      rw [hst] at hp
      refine hp.imp fun _ _ hadded => ?_
      obtain ⟨added, he, hs⟩ := hadded
      exact ⟨added, he, hs.trans (List.sublist_append_left _ _)⟩
    | threw e vb' w' =>
      rw [hst] at hp
      refine hp.imp fun _ _ hadded => ?_
      obtain ⟨added, he, hs⟩ := hadded
      exact ⟨added, he, hs.trans (List.sublist_append_left _ _)⟩
    | hung w' => exact .hung

/-! ## The steps -/

section
variable (vb : VmBuilderQemu)

theorem append_endCall (s : String) : (vb.append s).endCall = vb.endCall := rfl

theorem addProc_endCall (kind : ProcKind) : (vb.addProc kind).endCall = vb.endCall := rfl

theorem setAaf_endCall (key val : String) : (vb.setAaf key val).endCall = vb.endCall := rfl

theorem insertDev_endCall (dev : String) : (vb.insertDev dev).endCall = vb.endCall := rfl

theorem ite_endCall (c : Prop) [Decidable c] (vb' : VmBuilderQemu) :
    (if c then vb else vb').endCall = if c then vb.endCall else vb'.endCall := apply_ite _ c vb vb'

theorem ite_snd_endCall {α : Type} (c : Prop) [Decidable c] (p p' : α × VmBuilderQemu) :
    (if c then p else p').2.endCall = if c then p.2.endCall else p'.2.endCall := by split <;> rfl

end

theorem stepsBeforeVgpu_queue (h : Host κ) : ∀ st ∈ stepsBeforeVgpu h, Queues [] st := by
  simp only [stepsBeforeVgpu, List.forall_mem_cons, List.not_mem_nil, false_implies, implies_true, and_true]
  refine ⟨checked_queues fun k vb => ?_, checked_queues fun k vb => ?_, always_queues fun k vb => ?_,
    always_queues fun k vb => ?_, always_queues fun k vb => ?_⟩
  · simp only [buildEmulPath, ite_snd_endCall, ite_self]
  · simp only [buildNameQmp, ite_snd_endCall, append_endCall, ite_self]
  · simp only [buildRpmbCmd, ite_endCall, addProc_endCall, append_endCall, ite_self]
  · simp only [buildDispCmd, ite_endCall, append_endCall, ite_self]
  · simp only [initAafCfg, ite_endCall, ite_self]

theorem buildAafCfg_endCall (vb : VmBuilderQemu) : vb.buildAafCfg.2.endCall = vb.endCall := by
  unfold buildAafCfg
  dsimp only
  split
  · rfl
  · split
    · rfl
    · rename_i s _
      rw [append_endCall, ite_endCall, setAaf_endCall, ite_self]
      cases s <;> rfl

theorem buildVsockCmd_queues : Queues [] (buildVsockCmd : Step κ) := by
  refine queues_nil fun vb w => ?_
  unfold buildVsockCmd
  split
  · exact .failed rfl
  · dsimp only
    split
    · exact .failed rfl
    · exact .ok rfl

theorem stepsBeforePtPci_queue : ∀ st ∈ (stepsBeforePtPci : List (Step κ)), Queues [] st := by
  simp only [stepsBeforePtPci, List.forall_mem_cons, List.not_mem_nil, false_implies, implies_true, and_true]
  refine ⟨always_queues fun k vb => ?_, checked_queues fun k vb => buildAafCfg_endCall vb, always_queues fun k vb => ?_,
    buildVsockCmd_queues, always_queues fun k vb => ?_, always_queues fun k vb => ?_, always_queues fun k vb => ?_,
    checked_queues fun k vb => ?_, always_queues fun k vb => ?_⟩
  · simp only [buildVinputCmd, ite_endCall, addProc_endCall, append_endCall, ite_self]
  · simp only [buildNetCmd, ite_endCall, append_endCall, ite_self]
  · simp only [buildVtpmCmd, ite_endCall, addProc_endCall, append_endCall, ite_self]
  · rfl
  · rfl
  · simp only [buildFirmwareCmd, ite_snd_endCall, append_endCall, ite_self]
  · rfl

theorem buildExtraGuestPmCtrlCmd_queues (h : Host κ) : Queues [.removeSocket] (buildExtraGuestPmCtrlCmd h) := by
  intro vb w
  unfold buildExtraGuestPmCtrlCmd
  split
  · dsimp only
    split
    · exact .ok ⟨[.removeSocket], rfl, List.Sublist.refl _⟩
    · exact .ok ⟨[.removeSocket], rfl, List.Sublist.refl _⟩
  · exact .ok ⟨[], by simp, List.nil_sublist _⟩

theorem setExtraServices_endCall (vb : VmBuilderQemu) : vb.setExtraServices.endCall = vb.endCall := by
  have hfold : ∀ (srvs : List String) (vb : VmBuilderQemu), (srvs.foldl (fun vb srv =>
      if (trim srv).isEmpty then vb else vb.addProc (.simple (trim srv))) vb).endCall = vb.endCall := by
    intro srvs
    induction srvs with
    | nil => exact fun _ => rfl
    | cons srv srvs ih =>
      intro vb
      rw [List.foldl_cons, ih, ite_endCall, addProc_endCall, ite_self]
  simp only [setExtraServices, ite_endCall, hfold, ite_self]

theorem flushAaf_queues (h : Host κ) : Queues [] (flushAaf h) := by
  refine queues_nil fun vb w => ?_
  unfold flushAaf
  split
  · exact .ok rfl
  · split
    · exact .hung
    · exact .ok rfl

theorem Queues.mono {st : Step κ} {allowed allowed' : List EndCall} (h : Queues allowed st)
    (hs : allowed.Sublist allowed') : Queues allowed' st := by
  intro vb w
  refine (h vb w).imp fun _ _ hadded => ?_
  obtain ⟨added, he, ha⟩ := hadded
  exact ⟨added, he, ha.trans hs⟩

theorem Queues.ite {st st' : Step κ} {allowed : List EndCall} {c : VmBuilderQemu → Prop} [∀ vb, Decidable (c vb)]
    (h : Queues allowed st) (h' : Queues allowed st') :
    Queues allowed fun vb w => if c vb then st vb w else st' vb w := by
  intro vb w
  exact .ite (h vb w) (h' vb w)

theorem soundCardHook_endCall (h : Host κ) (vb : VmBuilderQemu) (w : World κ) :
    ∃ added, (vb.soundCardHook h w).1.endCall = vb.endCall ++ added ∧ added.Sublist [.probeSound] := by
  unfold soundCardHook
  dsimp only
  split
  · split
    · exact ⟨[.probeSound], rfl, List.Sublist.refl _⟩
    · exact ⟨[], by simp, List.nil_sublist _⟩
  · exact ⟨[], by simp, List.nil_sublist _⟩

theorem buildGvtd_queues (h : Host κ) : Queues [.probeSound] (buildGvtd h) := by
  intro vb w
  have hs := soundCardHook_endCall h vb w
  unfold buildGvtd
  rcases hr : vb.soundCardHook h w with ⟨vb₁, w₁⟩
  rw [hr] at hs
  dsimp only
  have hgpu : (vb₁.passthroughGpu h w₁).2.1.endCall = vb₁.endCall := by
    unfold passthroughGpu
    dsimp only
    rw [ite_endCall, insertDev_endCall, ite_self]
  rcases hg : vb₁.passthroughGpu h w₁ with ⟨ret, vb₂, w₂⟩
  rw [hg] at hgpu
  dsimp only at hgpu hs
  rw [← hgpu] at hs
  cases ret with
  | false => exact .failed hs
  | true => exact .ok hs

theorem buildGvtg_queues (h : Host κ) : Queues [] (buildGvtg h) := by
  refine queues_nil fun vb w => ?_
  unfold buildGvtg
  dsimp only
  exact .ite (.failed rfl) (.ite (.failed rfl) (.ite (.failed rfl) (.ok rfl)))

theorem buildVirtio_queues : Queues [] (buildVirtio : Step κ) := by
  refine queues_nil fun vb w => ?_
  unfold buildVirtio
  dsimp only
  split
  · exact .ok rfl
  · split
    · exact .threw rfl
    · refine .ok ?_
      rw [setAaf_endCall, ite_endCall, append_endCall, append_endCall, ite_self]

theorem setupSriov_endCall (h : Host κ) (vb : VmBuilderQemu) (w : World κ) :
    (vb.setupSriov h w).2.1.endCall = vb.endCall := by
  unfold setupSriov
  dsimp only
  split
  · split
    · rfl
    · split <;> rfl
  · split
    · rfl
    · split <;> rfl

theorem buildSriov_queues (h : Host κ) : Queues [] (buildSriov h) := by
  refine queues_nil fun vb w => ?_
  have hs := setupSriov_endCall h vb w
  unfold buildSriov
  rcases hr : vb.setupSriov h w with ⟨ret, vb₁, w₁⟩
  rw [hr] at hs
  cases ret with
  | false => exact .failed hs
  | true => exact .ok hs

theorem buildVgpuCmd_queues (h : Host κ) : Queues [.probeSound] (buildVgpuCmd h) := by
  have hnil : ∀ {st : Step κ}, Queues [] st → Queues [.probeSound] st := fun hq => hq.mono (List.nil_sublist _)
  unfold buildVgpuCmd
  dsimp only
  refine .ite (hnil ?_) (.ite (hnil (buildGvtg_queues h)) (.ite (buildGvtd_queues h) (.ite (hnil buildVirtio_queues)
    (.ite (hnil ?_) (.ite (hnil ?_) (.ite (hnil (buildSriov_queues h)) (hnil ?_)))))))
  · exact queues_nil fun vb w => .ok rfl
  · exact queues_nil fun vb w => .ok rfl
  · exact queues_nil fun vb w => .ok rfl
  · exact queues_nil fun vb w => .failed rfl

theorem passthroughDevs_endCall (h : Host κ) (devs : List String) (vb : VmBuilderQemu) (w : World κ) :
    (passthroughDevs h devs vb w).1.endCall = vb.endCall := by
  induction devs generalizing vb w with
  | nil => rfl
  | cons dev devs ih =>
    rw [passthroughDevs]
    split
    · rw [ih, append_endCall, insertDev_endCall]
    · exact ih vb _

theorem buildPtPciDevicesCmd_queues (h : Host κ) : Queues [] (buildPtPciDevicesCmd h) := by
  refine queues_nil fun vb w => ?_
  unfold buildPtPciDevicesCmd
  dsimp only
  exact .ite (.ok rfl) (.ok (passthroughDevs_endCall h _ vb _))

theorem setPciDevicesCallback_queues : Queues [.restorePci] (always fun (_ : κ) => setPciDevicesCallback) := by
  intro vb w
  refine .ok ?_
  unfold setPciDevicesCallback
  dsimp only
  split
  · exact ⟨[], by simp, List.nil_sublist _⟩
  · exact ⟨[.restorePci], rfl, List.Sublist.refl _⟩

/-- Steps that queue nothing. -/
def silent (sts : List (Step κ)) : List (Step κ × List EndCall) := sts.map fun st => (st, [])

theorem silent_allowed (sts : List (Step κ)) : (silent sts).flatMap (·.2) = [] := by
  induction sts with
  | nil => rfl
  | cons st sts ih => exact ih

theorem silent_steps (sts : List (Step κ)) : (silent sts).map (·.1) = sts := by
  simp [silent, Function.comp_def]

theorem silent_queues {sts : List (Step κ)} (h : ∀ st ∈ sts, Queues [] st) : ∀ p ∈ silent sts, Queues p.2 p.1 := by
  intro p hp
  obtain ⟨st, hst, rfl⟩ := List.mem_map.1 hp
  exact h st hst

/-- The steps after the callback, before and after `BuildExtraGuestPmCtrlCmd`. -/
theorem stepsAfterCallback_queue (h : Host κ) :
    (∀ st ∈ (stepsAfterCallback h).take 3, Queues [] st) ∧ ∀ st ∈ (stepsAfterCallback h).drop 4, Queues [] st := by
  simp only [stepsAfterCallback, List.take_succ_cons, List.take_zero, List.drop_succ_cons, List.drop_zero,
    List.forall_mem_cons, List.not_mem_nil, false_implies, implies_true, and_true]
  refine ⟨⟨always_queues fun k vb => ?_, always_queues fun k vb => ?_, always_queues fun k vb => ?_⟩,
    always_queues fun k vb => ?_, always_queues fun k vb => ?_, always_queues fun k vb => rfl,
    always_queues fun k vb => setExtraServices_endCall vb, flushAaf_queues h, always_queues fun k vb => rfl⟩
  · simp only [runMediationSrv, ite_endCall, addProc_endCall, ite_self]
  · simp only [buildGuestTimeKeepCmd, ite_endCall, addProc_endCall, append_endCall, ite_self]
  · simp only [buildGuestPmCtrlCmd, ite_endCall, addProc_endCall, append_endCall, ite_self]
  · simp only [buildAudioCmd, ite_endCall, append_endCall, ite_self]
  · simp only [buildExtraCmd, ite_endCall, append_endCall, ite_self]

/-- The steps of `BuildVmArgs` with what they may queue. -/
def annotated (h : Host κ) : List (Step κ × List EndCall) :=
  silent (stepsBeforeVgpu h) ++ (buildVgpuCmd h, [.probeSound]) :: silent (stepsBeforePtPci ++ [buildPtPciDevicesCmd h]) ++
    (always fun _ => setPciDevicesCallback, [.restorePci]) :: silent ((stepsAfterCallback h).take 3) ++
    (buildExtraGuestPmCtrlCmd h, [.removeSocket]) :: silent ((stepsAfterCallback h).drop 4)

theorem annotated_steps (h : Host κ) : (annotated h).map (·.1) = buildSteps h := by
  simp only [annotated, List.map_append, List.map_cons, silent_steps]
  rfl

theorem annotated_allowed (h : Host κ) : (annotated h).flatMap (·.2) = acquisitionOrder := by
  simp only [annotated, List.flatMap_append, List.flatMap_cons, silent_allowed]
  rfl

/-- What a VM has queued stands in the order of acquisition. -/
theorem buildVmArgs_queues (h : Host κ) : Queues acquisitionOrder (buildVmArgs h) := by
  have hq : ∀ p ∈ annotated h, Queues p.2 p.1 := by
    obtain ⟨hbefore, hafter⟩ := stepsAfterCallback_queue h
    have hptpci : ∀ st ∈ stepsBeforePtPci ++ [buildPtPciDevicesCmd h], Queues [] st := by
      intro st hst
      rcases List.mem_append.1 hst with hst | hst
      · exact stepsBeforePtPci_queue st hst
      · exact List.mem_singleton.1 hst ▸ buildPtPciDevicesCmd_queues h
    intro p hp
    simp only [annotated, List.mem_append, List.mem_cons] at hp
    rcases hp with ((hp | rfl | hp) | rfl | hp) | rfl | hp
    · exact silent_queues (stepsBeforeVgpu_queue h) p hp
    · exact buildVgpuCmd_queues h
    · exact silent_queues hptpci p hp
    · exact setPciDevicesCallback_queues
    · exact silent_queues hbefore p hp
    · exact buildExtraGuestPmCtrlCmd_queues h
    · exact silent_queues hafter p hp
  have hrun := runSteps_queues hq
  rw [annotated_steps, annotated_allowed] at hrun
  exact hrun

/-! ## What `StopVm` runs -/

/-- The `while` loop of `StopVm`: the cleanups it calls, and the world after
them. -/
def drain (h : Host κ) (vb : VmBuilderQemu) : List EndCall → World κ → List EndCall × World κ
  | [], w => ([], w)
  | c :: cs, w =>
    let (log, w) := drain h vb cs (vb.runEndCall h w c)
    (c :: log, w)

/-- The world in which the loop of `StopVm` starts. -/
def beforeDrain (h : Host κ) (vb : VmBuilderQemu) (w : World κ) : World κ :=
  { w with kernel := (vb.stopProcs h w.kernel).2, pool := (w.pool.releaseCid vb.vsockCid).2 }

/-- What is called in a sequence of `StopVm` calls, each in the world it finds. -/
def cleanupsRun (h : Host κ) : VmBuilderQemu → List (World κ) → List EndCall
  | _, [] => []
  | vb, w :: ws => (drain h vb vb.endCall (beforeDrain h vb w)).1 ++ cleanupsRun h (vb.stopVm h w).1 ws

theorem drain_eq (h : Host κ) (vb : VmBuilderQemu) (cs : List EndCall) (w : World κ) :
    drain h vb cs w = (cs, cs.foldl (vb.runEndCall h) w) := by
  induction cs generalizing w with
  | nil => rfl
  | cons c cs ih => rw [drain, ih]; rfl

theorem stopVm_drain (h : Host κ) (vb : VmBuilderQemu) (w : World κ) :
    (vb.stopVm h w).2 = (drain h vb vb.endCall (beforeDrain h vb w)).2 := by
  rw [drain_eq]
  rfl

/-- The first call runs all cleanups, and the others none. -/
theorem cleanupsRun_eq (h : Host κ) (vb : VmBuilderQemu) (w : World κ) (ws : List (World κ)) :
    cleanupsRun h vb (w :: ws) = vb.endCall := by
  have hnil : ∀ (ws : List (World κ)) (vb : VmBuilderQemu), vb.endCall = [] → cleanupsRun h vb ws = [] := by
    intro ws
    induction ws with
    | nil => exact fun _ _ => rfl
    | cons w ws ih =>
      intro vb he
      rw [cleanupsRun, he, drain_eq, ih _ rfl, List.append_nil]
  rw [cleanupsRun, drain_eq, hnil ws _ rfl, List.append_nil]

/-- Every queued cleanup ran once, and they ran backwards. -/
def SetupUndone (vb : VmBuilderQemu) (run : List EndCall) : Prop :=
  (∀ c ∈ vb.endCall, run.count c = 1) ∧ run.length = vb.endCall.length ∧ run.Sublist acquisitionOrder.reverse

/-- Each cleanup runs once, but they run backwards only when there is at most
one of them. -/
theorem undone_iff (h : Host κ) (uid : Nat) (name : String) (cfg : CivConfig) (w₀ : World κ) (vb : VmBuilderQemu)
    (w₁ : World κ) (hb : (buildVmArgs h { uid, name, cfg } w₀).Ends vb w₁) (w : World κ) (ws : List (World κ)) :
    SetupUndone vb (cleanupsRun h vb (w :: ws)) ↔ vb.endCall.length ≤ 1 := by
  obtain ⟨added, he, hs⟩ := (buildVmArgs_queues h { uid, name, cfg } w₀).of_ends hb
  have hs : vb.endCall.Sublist acquisitionOrder := by
    rw [he]
    exact hs
  have hall : ∀ l ∈ acquisitionOrder.sublists, ((∀ c ∈ l, l.count c = 1) ∧ l.length = l.length ∧
      l.Sublist acquisitionOrder.reverse ↔ l.length ≤ 1) := by decide
  rw [cleanupsRun_eq]
  exact hall vb.endCall (List.mem_sublists.2 hs)

theorem undone_without_sound : ∃ vb w₁,
    (buildVmArgs gpuHost { uid := 0, name := "vm", cfg := gvtdConfig "unified" } { kernel := () }).Ends vb w₁ ∧
      SetupUndone vb (cleanupsRun gpuHost vb [w₁, w₁]) := by
  have hends : (buildVmArgs gpuHost { uid := 0, name := "vm", cfg := gvtdConfig "unified" } { kernel := () }).ended.map
      (fun p => p.1.endCall) = some [.restorePci] := rfl
  obtain ⟨⟨vb, w₁⟩, hb, he⟩ := Option.map_eq_some_iff.1 hends
  have hb := Outcome.ends_of_ended hb
  refine ⟨vb, w₁, hb, (undone_iff gpuHost 0 "vm" _ _ vb w₁ hb w₁ [w₁]).2 ?_⟩
  dsimp only at he
  rw [he]
  exact Nat.le_refl 1

/-- A machine with a `sofhdadsp` card, whose module can be removed. -/
def soundHost : Host Unit :=
  liveHost (fun _ _ => none) (fun _ _ => none) [(kVfioModulePath, []), (kVfioPciModulePath, []),
    (kPciDevicePath ++ kIntelGpuBdf ++ "/iommu_group/devices", [kIntelGpuBdf])] (fun k _ _ => k) id

/-- The sound module is probed while the GPU is still with `vfio-pci`. -/
theorem sound_probed_first : ∃ vb w₁,
    (buildVmArgs soundHost { uid := 0, name := "vm", cfg := gvtdConfig "unified" } { kernel := () }).Ends vb w₁ ∧
      cleanupsRun soundHost vb [w₁] = [.probeSound, .restorePci] ∧ ¬ SetupUndone vb (cleanupsRun soundHost vb [w₁]) := by
  have hrun : (buildVmArgs soundHost { uid := 0, name := "vm", cfg := gvtdConfig "unified" } { kernel := () }).ended.map
      (fun p => cleanupsRun soundHost p.1 [p.2]) = some [.probeSound, .restorePci] := rfl
  obtain ⟨⟨vb, w₁⟩, hb, hr⟩ := Option.map_eq_some_iff.1 hrun
  dsimp only at hr
  refine ⟨vb, w₁, Outcome.ends_of_ended hb, hr, ?_⟩
  rw [hr]
  rintro ⟨-, -, hs⟩
  revert hs
  decide

end VmManager
