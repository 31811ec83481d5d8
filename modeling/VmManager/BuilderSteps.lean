import VmManager.Builder
/-!
# What each step of `BuildVmArgs` leaves alone

All but four steps only add to the emulator command and to the co-processes.
The four are `BuildVgpuCmd` and `BuildPtPciDevicesCmd`, which take devices,
`BuildVsockCmd`, which takes a cid, and `SetPciDevicesCallback`.
-/
open Text

namespace VmManager

open VmBuilderQemu

variable {κ : Type}

/-- If the step returned or threw, `R` holds of what it left behind. -/
inductive Outcome.All (R : VmBuilderQemu → World κ → Prop) : Outcome κ → Prop
  | ok {vb : VmBuilderQemu} {w : World κ} : R vb w → Outcome.All R (.ok vb w)
  | failed {vb : VmBuilderQemu} {w : World κ} : R vb w → Outcome.All R (.failed vb w)
  | threw {e : Exn} {vb : VmBuilderQemu} {w : World κ} : R vb w → Outcome.All R (.threw e vb w)
  | hung {w : World κ} : Outcome.All R (.hung w)

theorem Outcome.All.imp {R S : VmBuilderQemu → World κ → Prop} {o : Outcome κ} (h : o.All R)
    (hrs : ∀ vb w, R vb w → S vb w) : o.All S := by
  cases h with
  | ok h => exact .ok (hrs _ _ h)
  | failed h => exact .failed (hrs _ _ h)
  | threw h => exact .threw (hrs _ _ h)
  | hung => exact .hung

theorem Outcome.All.ite {R : VmBuilderQemu → World κ → Prop} {o o' : Outcome κ} {c : Prop} [Decidable c] (h : o.All R)
    (h' : o'.All R) : (if c then o else o').All R := by
  split <;> assumption

/-- Still the same VM, and its new co-processes can be run. -/
structure SameVm (vb vb' : VmBuilderQemu) : Prop where
  uid : vb'.uid = vb.uid
  name : vb'.name = vb.name
  cfg : vb'.cfg = vb.cfg
  stopped : vb'.stopped = vb.stopped
  state : vb'.state = vb.state ∨ vb'.state = .created
  procs : (∀ p ∈ vb.coProcs, p.Runnable) → ∀ p ∈ vb'.coProcs, p.Runnable

/-- It holds the same devices and has the same restoring cleanups queued. -/
structure SameDevs (vb vb' : VmBuilderQemu) : Prop where
  devs : vb'.pciPtDevSet = vb.pciPtDevSet
  ends : vb'.endCall.count .restorePci = vb.endCall.count .restorePci

/-- The builder changed in its emulator command, its AAF settings, its main
process or its state only. -/
structure Plain (vb vb' : VmBuilderQemu) : Prop where
  same : SameVm vb vb'
  devs : SameDevs vb vb'
  cid : vb'.vsockCid = vb.vsockCid

theorem SameVm.refl (vb : VmBuilderQemu) : SameVm vb vb := ⟨rfl, rfl, rfl, rfl, .inl rfl, id⟩

theorem SameVm.trans {vb vb' vb'' : VmBuilderQemu} (h : SameVm vb vb') (h' : SameVm vb' vb'') : SameVm vb vb'' := by
  refine ⟨h'.uid.trans h.uid, h'.name.trans h.name, h'.cfg.trans h.cfg, h'.stopped.trans h.stopped, ?_,
    h'.procs ∘ h.procs⟩
  rcases h'.state with hs | hs
  · rw [hs]; exact h.state
  · exact .inr hs

theorem SameVm.value {vb vb' : VmBuilderQemu} (h : SameVm vb vb') (group key : String) :
    vb'.value group key = vb.value group key := by
  rw [VmBuilderQemu.value, h.cfg, VmBuilderQemu.value]

theorem SameDevs.refl (vb : VmBuilderQemu) : SameDevs vb vb := ⟨rfl, rfl⟩

theorem SameDevs.trans {vb vb' vb'' : VmBuilderQemu} (h : SameDevs vb vb') (h' : SameDevs vb' vb'') :
    SameDevs vb vb'' :=
  ⟨h'.devs.trans h.devs, h'.ends.trans h.ends⟩

namespace Plain

variable {vb vb' vb'' : VmBuilderQemu}

theorem refl (vb : VmBuilderQemu) : Plain vb vb := ⟨.refl vb, .refl vb, rfl⟩

theorem trans (h : Plain vb vb') (h' : Plain vb' vb'') : Plain vb vb'' :=
  ⟨h.same.trans h'.same, h.devs.trans h'.devs, h'.cid.trans h.cid⟩

theorem ite {c : Prop} [Decidable c] (h : Plain vb vb') (h' : Plain vb vb'') : Plain vb (if c then vb' else vb'') := by
  split <;> assumption

theorem append (h : Plain vb vb') (s : String) : Plain vb (vb'.append s) :=
  h.trans ⟨⟨rfl, rfl, rfl, rfl, .inl rfl, id⟩, ⟨rfl, rfl⟩, rfl⟩

theorem setAaf (h : Plain vb vb') (key val : String) : Plain vb (vb'.setAaf key val) :=
  h.trans ⟨⟨rfl, rfl, rfl, rfl, .inl rfl, id⟩, ⟨rfl, rfl⟩, rfl⟩

theorem setCmd (h : Plain vb vb') (cmd : String) : Plain vb { vb' with emulCmd := cmd } :=
  h.trans ⟨⟨rfl, rfl, rfl, rfl, .inl rfl, id⟩, ⟨rfl, rfl⟩, rfl⟩

theorem addProc (h : Plain vb vb') {kind : ProcKind} (hk : ∀ cmd, kind = .simple cmd → NonBlank cmd) :
    Plain vb (vb'.addProc kind) := by
  refine h.trans ⟨⟨rfl, rfl, rfl, rfl, .inl rfl, fun hp p hm => ?_⟩, ⟨rfl, rfl⟩, rfl⟩
  rcases List.mem_append.1 hm with hm | hm
  · exact hp p hm
  · rw [List.mem_singleton.1 hm]
    exact hk

theorem addSimple (h : Plain vb vb') {cmd : String} (hc : NonBlank cmd) : Plain vb (vb'.addProc (.simple cmd)) :=
  h.addProc fun _ e => ProcKind.simple.inj e ▸ hc

theorem queue (h : Plain vb vb') {c : EndCall} (hc : c ≠ .restorePci) : Plain vb (vb'.queue c) :=
  h.trans ⟨⟨rfl, rfl, rfl, rfl, .inl rfl, id⟩, ⟨rfl, by simp [VmBuilderQemu.queue, hc]⟩, rfl⟩

end Plain

theorem nonBlank_value {vb : VmBuilderQemu} {group key : String} (h : ¬ (vb.value group key).isEmpty = true) :
    NonBlank (vb.value group key) :=
  CivConfig.nonBlank_getValue fun he => h (by rw [VmBuilderQemu.value, he]; rfl)

/-! ## The steps that cannot fail -/

section

variable (h : Host κ) (k : κ) (vb : VmBuilderQemu)

theorem buildRpmbCmd_plain : Plain vb (vb.buildRpmbCmd h k) := by
  unfold buildRpmbCmd
  dsimp only
  split
  · exact ((Plain.refl vb).append _).addProc fun _ e => nomatch e
  · exact .refl vb

theorem buildDispCmd_plain : Plain vb vb.buildDispCmd := by
  unfold buildDispCmd
  dsimp only
  split <;> exact (Plain.refl vb).append _

theorem initAafCfg_plain : Plain vb vb.initAafCfg := by
  unfold initAafCfg
  dsimp only
  split
  · exact .refl vb
  · exact ⟨⟨rfl, rfl, rfl, rfl, .inl rfl, id⟩, ⟨rfl, rfl⟩, rfl⟩

theorem buildVinputCmd_plain : Plain vb vb.buildVinputCmd := by
  unfold buildVinputCmd
  dsimp only
  split
  · exact .refl vb
  · rename_i hv
    have hb := nonBlank_value hv
    split
    · exact ((Plain.refl vb).append _).addSimple (hb.append_left _)
    · exact ((Plain.refl vb).append _).addSimple hb

theorem buildNetCmd_plain : Plain vb vb.buildNetCmd := by
  unfold buildNetCmd
  exact .ite (.refl vb) (((Plain.refl vb).append _).append _)

theorem buildVtpmCmd_plain : Plain vb vb.buildVtpmCmd := by
  unfold buildVtpmCmd
  dsimp only
  split
  · exact ((Plain.refl vb).append _).addProc fun _ e => nomatch e
  · exact .refl vb

theorem buildMemCmd_plain : Plain vb vb.buildMemCmd := (Plain.refl vb).append _

theorem buildVcpuCmd_plain : Plain vb vb.buildVcpuCmd := (Plain.refl vb).append _

theorem buildVdiskCmd_plain : Plain vb vb.buildVdiskCmd := (Plain.refl vb).append _

/-- A mediation command runs when the config gives one. -/
theorem addProc_ite_plain {vb vb' : VmBuilderQemu} (hp : Plain vb vb') (group key : String) :
    Plain vb (if (vb'.value group key).isEmpty = true then vb' else vb'.addProc (.simple (vb'.value group key))) := by
  split
  · exact hp
  · exact hp.addSimple (nonBlank_value ‹_›)

theorem runMediationSrv_plain : Plain vb vb.runMediationSrv := by
  have hp := addProc_ite_plain (addProc_ite_plain (.refl vb) kGroupMed kMedBattery) kGroupMed kMedThermal
  exact .ite (hp.addSimple (show NonBlank "/usr/local/bin/stream" by decide)) hp

theorem buildGuestTimeKeepCmd_plain : Plain vb vb.buildGuestTimeKeepCmd := by
  unfold buildGuestTimeKeepCmd
  dsimp only
  split
  · exact .refl vb
  · exact ((Plain.refl vb).addSimple (((nonBlank_value ‹_›).append_left _).append_left _)).append _

theorem buildGuestPmCtrlCmd_plain : Plain vb vb.buildGuestPmCtrlCmd := by
  unfold buildGuestPmCtrlCmd
  dsimp only
  have hs : NonBlank "/tmp/qmp-pm-sock" := by decide
  split
  · exact .refl vb
  · refine ((Plain.refl vb).addSimple ?_).append _
    split
    · exact ((hs.append_right _).append_left _).append_left _
    · exact hs.append_right _

theorem buildAudioCmd_plain : Plain vb (vb.buildAudioCmd h k) := by
  unfold buildAudioCmd
  split
  · exact .refl vb
  · exact (Plain.refl vb).append _

theorem buildExtraCmd_plain : Plain vb vb.buildExtraCmd := by
  unfold buildExtraCmd
  dsimp only
  split
  · exact .refl vb
  · exact (Plain.refl vb).append _

theorem buildFixedCmd_plain : Plain vb vb.buildFixedCmd := ((Plain.refl vb).append _).append _

theorem setExtraServices_plain : Plain vb vb.setExtraServices := by
  unfold setExtraServices
  dsimp only
  split
  · exact .refl vb
  · -- Over the services, from any builder reached so far.
    generalize splitCompress ';' (trim (vb.value kGroupExtra kExtraService)) = srvs
    suffices ∀ vb', Plain vb vb' → Plain vb (srvs.foldl (fun vb srv =>
        if (trim srv).isEmpty then vb else vb.addProc (.simple (trim srv))) vb') from this vb (.refl vb)
    induction srvs with
    | nil => exact fun _ hp => hp
    | cons srv srvs ih =>
      intro vb' hp
      rw [List.foldl_cons]
      apply ih
      split
      · exact hp
      · rename_i hne
        exact hp.addSimple (nonBlank_trim fun he => hne (by rw [he]; rfl))

theorem created_plain : Plain vb vb.created := ⟨⟨rfl, rfl, rfl, rfl, .inr rfl, id⟩, ⟨rfl, rfl⟩, rfl⟩

/-! ## The steps that can fail -/

theorem buildEmulPath_plain : Plain vb (vb.buildEmulPath h k).2 := by
  unfold buildEmulPath
  dsimp only
  rw [apply_ite Prod.snd]
  exact .ite (.refl vb) ((Plain.refl vb).setCmd _)

theorem buildNameQmp_plain : Plain vb (vb.buildNameQmp h).2 := by
  unfold buildNameQmp
  dsimp only
  split
  · exact (Plain.refl vb).setCmd _
  · exact ((Plain.refl vb).append _).append _

theorem buildAafCfg_plain : Plain vb vb.buildAafCfg.2 := by
  unfold buildAafCfg
  dsimp only
  split
  · exact .refl vb
  · split
    · exact .refl vb
    · rename_i s _
      have hs : Plain vb (s.elim vb (vb.setAaf kAafKeySuspend ·)) := by
        cases s with
        | none => exact .refl vb
        | some v => exact (Plain.refl vb).setAaf _ v
      refine Plain.append ?_ _
      split
      · exact hs
      · exact hs.setAaf _ _

theorem buildFirmwareCmd_plain : Plain vb vb.buildFirmwareCmd.2 := by
  unfold buildFirmwareCmd
  dsimp only
  split
  · exact .refl vb
  · split
    · exact (Plain.refl vb).append _
    · split
      · exact ((Plain.refl vb).append _).append _
      · exact .refl vb

end

/-! ## Runs of steps -/

@[simp] theorem runSteps_nil (vb : VmBuilderQemu) (w : World κ) : runSteps [] vb w = .ok vb w := rfl

@[simp] theorem runSteps_always (f : κ → VmBuilderQemu → VmBuilderQemu) (sts : List (Step κ)) (vb : VmBuilderQemu)
    (w : World κ) : runSteps (always f :: sts) vb w = runSteps sts (f w.kernel vb) w := rfl

theorem runSteps_checked (f : κ → VmBuilderQemu → Bool × VmBuilderQemu) (sts : List (Step κ)) (vb : VmBuilderQemu)
    (w : World κ) : runSteps (checked f :: sts) vb w =
      if (f w.kernel vb).1 = true then runSteps sts (f w.kernel vb).2 w else .failed (f w.kernel vb).2 w := by
  rw [runSteps, checked]
  rcases f w.kernel vb with ⟨ok, vb'⟩
  cases ok <;> rfl

theorem runSteps_append (sts sts' : List (Step κ)) (vb : VmBuilderQemu) (w : World κ) :
    runSteps (sts ++ sts') vb w =
      match runSteps sts vb w with
      | .ok vb w => runSteps sts' vb w
      | o => o := by
  induction sts generalizing vb w with
  | nil => rfl
  | cons st sts ih =>
    rw [List.cons_append, runSteps, runSteps]
    cases st vb w with
    | ok vb w => exact ih vb w
    | _ => rfl

theorem runSteps_cons_ok {st : Step κ} {sts : List (Step κ)} {vb vb' : VmBuilderQemu} {w w' : World κ}
    (hok : runSteps (st :: sts) vb w = .ok vb' w') :
    ∃ vb1 w1, st vb w = .ok vb1 w1 ∧ runSteps sts vb1 w1 = .ok vb' w' := by
  rw [runSteps] at hok
  cases hst : st vb w with
  | ok vb1 w1 =>
    rw [hst] at hok
    exact ⟨vb1, w1, rfl, hok⟩
  | failed vb1 w1 | threw e vb1 w1 | hung w1 =>
    rw [hst] at hok
    cases hok

theorem runSteps_append_ok {sts sts' : List (Step κ)} {vb vb' : VmBuilderQemu} {w w' : World κ}
    (hok : runSteps (sts ++ sts') vb w = .ok vb' w') :
    ∃ vb1 w1, runSteps sts vb w = .ok vb1 w1 ∧ runSteps sts' vb1 w1 = .ok vb' w' := by
  rw [runSteps_append] at hok
  cases hst : runSteps sts vb w with
  | ok vb1 w1 =>
    rw [hst] at hok
    exact ⟨vb1, w1, rfl, hok⟩
  | failed vb1 w1 | threw e vb1 w1 | hung w1 =>
    rw [hst] at hok
    cases hok

/-- What every step of a list keeps, transitively, the run keeps. -/
theorem runSteps_all {R : VmBuilderQemu → World κ → VmBuilderQemu → World κ → Prop} (hr : ∀ vb w, R vb w vb w)
    (ht : ∀ {vb w vb' w' vb'' w''}, R vb w vb' w' → R vb' w' vb'' w'' → R vb w vb'' w'') {sts : List (Step κ)}
    (hs : ∀ st ∈ sts, ∀ vb w, (st vb w).All (R vb w)) (vb : VmBuilderQemu) (w : World κ) :
    (runSteps sts vb w).All (R vb w) := by
  induction sts generalizing vb w with
  | nil => exact .ok (hr vb w)
  | cons st sts ih =>
    have h1 := hs st List.mem_cons_self vb w
    rw [runSteps]
    cases he : st vb w with
    | ok vb' w' =>
      rw [he] at h1
      cases h1 with
      | ok h1 => exact (ih (fun st hm => hs st (List.mem_cons_of_mem _ hm)) vb' w').imp fun _ _ => ht h1
    | failed vb' w' => rw [he] at h1; exact h1
    | threw e vb' w' => rw [he] at h1; exact h1
    | hung w' => exact .hung

/-- A plain change of the builder that leaves the pool and the devices
alone. -/
structure Quiet (vb : VmBuilderQemu) (w : World κ) (vb' : VmBuilderQemu) (w' : World κ) : Prop where
  plain : Plain vb vb'
  pool : w'.pool = w.pool
  calls : w'.pciCalls = w.pciCalls

theorem Quiet.refl (vb : VmBuilderQemu) (w : World κ) : Quiet vb w vb w := ⟨.refl vb, rfl, rfl⟩

theorem Quiet.trans {vb vb' vb'' : VmBuilderQemu} {w w' w'' : World κ} (h : Quiet vb w vb' w')
    (h' : Quiet vb' w' vb'' w'') : Quiet vb w vb'' w'' :=
  ⟨h.plain.trans h'.plain, h'.pool.trans h.pool, h'.calls.trans h.calls⟩

theorem always_quiet {f : κ → VmBuilderQemu → VmBuilderQemu} (hf : ∀ k vb, Plain vb (f k vb)) (vb : VmBuilderQemu)
    (w : World κ) : (always f vb w).All (Quiet vb w) := .ok ⟨hf w.kernel vb, rfl, rfl⟩

theorem checked_quiet {f : κ → VmBuilderQemu → Bool × VmBuilderQemu} (hf : ∀ k vb, Plain vb (f k vb).2)
    (vb : VmBuilderQemu) (w : World κ) : (checked f vb w).All (Quiet vb w) := by
  have hp := hf w.kernel vb
  unfold checked
  split <;> rename_i he <;> rw [he] at hp
  · exact .ok ⟨hp, rfl, rfl⟩
  · exact .failed ⟨hp, rfl, rfl⟩

section

variable (h : Host κ) (vb : VmBuilderQemu) (w : World κ)

theorem buildExtraGuestPmCtrlCmd_quiet : (buildExtraGuestPmCtrlCmd h vb w).All (Quiet vb w) := by
  unfold buildExtraGuestPmCtrlCmd
  split
  · dsimp only
    split
    · exact .ok ⟨((Plain.refl vb).append _).queue (by decide), rfl, rfl⟩
    · exact .ok ⟨(Plain.refl vb).queue (by decide), rfl, rfl⟩
  · exact .ok (.refl vb w)

theorem flushAaf_quiet : (flushAaf h vb w).All (Quiet vb w) := by
  unfold flushAaf
  split
  · exact .ok (.refl vb w)
  · split
    · exact .hung
    · exact .ok ⟨⟨⟨rfl, rfl, rfl, rfl, .inl rfl, id⟩, ⟨rfl, rfl⟩, rfl⟩, rfl, rfl⟩

/-! ## `BuildVgpuCmd` -/

theorem Quiet.onKernel {vb vb' : VmBuilderQemu} {w w' : World κ} (hq : Quiet vb w vb' w') {α : Type}
    (m : StateM κ α) : Quiet vb w vb' (w'.onKernel m).2 := ⟨hq.plain, hq.pool, hq.calls⟩

theorem Quiet.append {vb vb' : VmBuilderQemu} {w w' : World κ} (hq : Quiet vb w vb' w') (s : String) :
    Quiet vb w (vb'.append s) w' := ⟨hq.plain.append s, hq.pool, hq.calls⟩

theorem Quiet.setAaf {vb vb' : VmBuilderQemu} {w w' : World κ} (hq : Quiet vb w vb' w') (key val : String) :
    Quiet vb w (vb'.setAaf key val) w' := ⟨hq.plain.setAaf key val, hq.pool, hq.calls⟩

theorem soundCardHook_quiet : Quiet vb w (vb.soundCardHook h w).1 (vb.soundCardHook h w).2 := by
  unfold soundCardHook
  dsimp only
  split
  · refine ⟨.ite ((Plain.refl vb).queue (by decide)) (.refl vb), rfl, rfl⟩
  · exact ⟨.refl vb, rfl, rfl⟩

theorem buildGvtg_quiet : (buildGvtg h vb w).All (Quiet vb w) := by
  unfold buildGvtg
  dsimp only
  split
  · exact .failed (.refl vb w)
  · split
    · exact .failed (.refl vb w)
    · split
      · exact .failed ((Quiet.refl vb w).onKernel _)
      · exact .ok ((((Quiet.refl vb w).onKernel _).append _).setAaf _ _)

theorem buildVirtio_quiet : (buildVirtio vb w).All (Quiet vb w) := by
  unfold buildVirtio
  dsimp only
  have hp := (Plain.refl vb).append " -device virtio-vga-gl"
  split
  · exact .ok ⟨hp.setAaf _ _, rfl, rfl⟩
  · split
    · exact .threw ⟨hp, rfl, rfl⟩
    · exact .ok ⟨(Plain.ite (hp.append _) hp).setAaf _ _, rfl, rfl⟩

theorem setupSriov_quiet : Quiet vb w (vb.setupSriov h w).2.1 (vb.setupSriov h w).2.2 := by
  unfold setupSriov
  dsimp only
  have hp : Quiet vb w (if (vb.value kGroupVgpu kVgpuMonId).isEmpty = true then vb.append " -display gtk,gl=on"
      else vb.append (" -display gtk,gl=on,monitor=" ++ vb.value kGroupVgpu kVgpuMonId)) w :=
    ⟨.ite ((Plain.refl vb).append _) ((Plain.refl vb).append _), rfl, rfl⟩
  generalize (if (vb.value kGroupVgpu kVgpuMonId).isEmpty = true then vb.append " -display gtk,gl=on"
      else vb.append (" -display gtk,gl=on,monitor=" ++ vb.value kGroupVgpu kVgpuMonId)) = vb' at hp ⊢
  split
  · exact hp.onKernel _
  · split
    · exact (hp.onKernel _).onKernel _
    · exact ((hp.onKernel _).onKernel _).append _

theorem buildSriov_quiet : (buildSriov h vb w).All (Quiet vb w) := by
  have hq := setupSriov_quiet h vb w
  unfold buildSriov
  split <;> rename_i he <;> rw [he] at hq
  · exact .failed hq
  · exact .ok (hq.setAaf _ _)

/-- All branches but `GVT-d`. -/
theorem buildVgpuCmd_quiet (ht : vb.value kGroupVgpu kVgpuType ≠ kVgpuGvtD) :
    (buildVgpuCmd h vb w).All (Quiet vb w) := by
  unfold buildVgpuCmd
  dsimp only
  rw [if_neg ht]
  refine .ite (.ok (.refl vb w)) (.ite (buildGvtg_quiet h vb w) (.ite (buildVirtio_quiet vb w) (.ite (.ok ?_)
    (.ite (.ok ?_) (.ite (buildSriov_quiet h vb w) (.failed (.refl vb w)))))))
  · exact (Quiet.refl vb w).append _
  · exact ((Quiet.refl vb w).append _).setAaf _ _

theorem buildVgpuCmd_gvtd (ht : vb.value kGroupVgpu kVgpuType = kVgpuGvtD) :
    buildVgpuCmd h vb w = buildGvtd h vb w := by
  unfold buildVgpuCmd
  dsimp only
  rw [ht]
  rfl

/-! ## `BuildVsockCmd` -/

theorem acquireCid_acquired {strCid : String} {pool : VsockCidPool} {r : Nat × VsockCidPool}
    (hr : acquireCid strCid pool = some r) : pool.Acquired r := by
  unfold acquireCid at hr
  split at hr
  · cases hr; exact pool.getCid_acquired
  · split at hr
    · cases hr
    · cases hr; exact pool.getCidOf_acquired _

/-- The cid that `BuildVsockCmd` gets from the pool, 0 for none. -/
def cidFor (vb : VmBuilderQemu) (pool : VsockCidPool) : Nat :=
  (acquireCid (vb.value kGroupGlob kGlobCid) pool).elim 0 (·.1)

theorem cidFor_free {vb : VmBuilderQemu} {pool : VsockCidPool} (hne : cidFor vb pool ≠ 0) :
    VsockCidPool.Valid (cidFor vb pool) ∧ pool.bs (cidFor vb pool) = true := by
  unfold cidFor at hne ⊢
  cases ha : acquireCid (vb.value kGroupGlob kGlobCid) pool with
  | none => rw [ha] at hne; exact absurd rfl hne
  | some r =>
    rw [ha] at hne
    rcases acquireCid_acquired ha with ⟨h0, -⟩ | ⟨hv, hf, -⟩
    · exact absurd h0 hne
    · exact ⟨hv, hf⟩

/-- With a cid from the pool the step takes it; without one it fails and the
pool is as it was. -/
theorem buildVsockCmd_cases : ∃ vb', SameVm vb vb' ∧ SameDevs vb vb' ∧
    ((cidFor vb w.pool ≠ 0 ∧ vb'.vsockCid = cidFor vb w.pool ∧
      buildVsockCmd vb w = .ok vb' { w with pool := w.pool.reset (cidFor vb w.pool) }) ∨
     (cidFor vb w.pool = 0 ∧ (vb'.vsockCid = vb.vsockCid ∨ vb'.vsockCid = 0) ∧
      buildVsockCmd vb w = .failed vb' w)) := by
  unfold buildVsockCmd cidFor
  cases ha : acquireCid (vb.value kGroupGlob kGlobCid) w.pool with
  | none =>
    refine ⟨_, ?_, ?_, .inr ⟨rfl, ?_, rfl⟩⟩
    · exact ⟨rfl, rfl, rfl, rfl, .inl rfl, id⟩
    · exact ⟨rfl, rfl⟩
    · exact .inl rfl
  | some r =>
    obtain ⟨cid, pool⟩ := r
    rcases acquireCid_acquired ha with ⟨h0, hp⟩ | ⟨hv, -, hp⟩ <;> dsimp only at *
    · rw [if_pos h0, hp]
      refine ⟨_, ?_, ?_, .inr ⟨h0, ?_, rfl⟩⟩
      · exact ⟨rfl, rfl, rfl, rfl, .inl rfl, id⟩
      · exact ⟨rfl, rfl⟩
      · exact .inr h0
    · have hne : cid ≠ 0 := by have := hv.1; omega
      rw [if_neg hne, hp]
      refine ⟨_, ?_, ?_, .inl ⟨hne, ?_, rfl⟩⟩
      · exact ⟨rfl, rfl, rfl, rfl, .inl rfl, id⟩
      · exact ⟨rfl, rfl⟩
      · rfl

/-! ## Every step -/

/-- The VM stays the same, and its cid with the pool. -/
structure CidKept (vb : VmBuilderQemu) (w : World κ) (vb' : VmBuilderQemu) (w' : World κ) : Prop where
  same : SameVm vb vb'
  cid : vb'.vsockCid = vb.vsockCid
  pool : w'.pool = w.pool

/-- The VM stays the same, and its cid with the pool, unless the step takes a
cid from the pool or finds none there. -/
structure CidStep (vb : VmBuilderQemu) (w : World κ) (vb' : VmBuilderQemu) (w' : World κ) : Prop where
  same : SameVm vb vb'
  cid : ((vb'.vsockCid = vb.vsockCid ∨ vb'.vsockCid = 0) ∧ w'.pool = w.pool) ∨
    (cidFor vb w.pool ≠ 0 ∧ vb'.vsockCid = cidFor vb w.pool ∧ w'.pool = w.pool.reset (cidFor vb w.pool))

theorem Quiet.cidKept {vb vb' : VmBuilderQemu} {w w' : World κ} (hq : Quiet vb w vb' w') : CidKept vb w vb' w' :=
  ⟨hq.plain.same, hq.plain.cid, hq.pool⟩

theorem CidKept.cidStep {vb vb' : VmBuilderQemu} {w w' : World κ} (hk : CidKept vb w vb' w') : CidStep vb w vb' w' :=
  ⟨hk.same, .inl ⟨.inl hk.cid, hk.pool⟩⟩

theorem buildVsockCmd_cidStep : (buildVsockCmd vb w).All (CidStep vb w) := by
  obtain ⟨vb', hs, -, ⟨hne, hc, he⟩ | ⟨-, hc, he⟩⟩ := buildVsockCmd_cases vb w <;> rw [he]
  · exact .ok ⟨hs, .inr ⟨hne, hc, rfl⟩⟩
  · exact .failed ⟨hs, .inl ⟨hc, rfl⟩⟩

/-- A taken device changes neither the VM nor its cid. -/
theorem buildGvtd_cidKept : (buildGvtd h vb w).All (CidKept vb w) := by
  have hq := soundCardHook_quiet h vb w
  unfold buildGvtd passthroughGpu
  dsimp only
  generalize vb.soundCardHook h w = r at hq ⊢
  have hp := hq.plain
  by_cases hg : (r.2.pci h kIntelGpuBdf .passthrough).1 = true
  · rw [hg]
    refine .ok ⟨hp.same.trans ⟨rfl, rfl, rfl, rfl, .inl rfl, id⟩, ?_, ?_⟩
    · exact hp.cid
    · exact hq.pool
  · have hgf : (r.2.pci h kIntelGpuBdf .passthrough).1 = false := by simpa using hg
    rw [hgf]
    exact .failed ⟨hp.same, hp.cid, hq.pool⟩

theorem buildVgpuCmd_cidKept : (buildVgpuCmd h vb w).All (CidKept vb w) := by
  by_cases ht : vb.value kGroupVgpu kVgpuType = kVgpuGvtD
  · rw [buildVgpuCmd_gvtd h vb w ht]
    exact buildGvtd_cidKept h vb w
  · exact (buildVgpuCmd_quiet h vb w ht).imp fun _ _ => Quiet.cidKept

theorem passthroughDevs_same (devs : List String) (vb : VmBuilderQemu) (w : World κ) :
    SameVm vb (passthroughDevs h devs vb w).1 ∧ (passthroughDevs h devs vb w).1.vsockCid = vb.vsockCid ∧
      (passthroughDevs h devs vb w).2.pool = w.pool := by
  induction devs generalizing vb w with
  | nil => exact ⟨.refl vb, rfl, rfl⟩
  | cons dev devs ih =>
    rw [passthroughDevs]
    have hpool : (w.pci h dev .passthrough).2.pool = w.pool := rfl
    split <;> rename_i w' he <;> rw [he] at hpool
    · have h0 : SameVm vb ((vb.insertDev dev).append (" -device vfio-pci,host=" ++ dev ++ ",x-no-kvm-intx=on")) :=
        ⟨rfl, rfl, rfl, rfl, .inl rfl, id⟩
      obtain ⟨h1, h2, h3⟩ :=
        ih ((vb.insertDev dev).append (" -device vfio-pci,host=" ++ dev ++ ",x-no-kvm-intx=on")) w'
      exact ⟨h0.trans h1, h2, h3.trans hpool⟩
    · obtain ⟨h1, h2, h3⟩ := ih vb w'
      exact ⟨h1, h2, h3.trans hpool⟩

theorem buildPtPciDevicesCmd_cidKept : (buildPtPciDevicesCmd h vb w).All (CidKept vb w) := by
  unfold buildPtPciDevicesCmd
  dsimp only
  split
  · exact .ok (Quiet.refl vb w).cidKept
  · obtain ⟨h1, h2, h3⟩ := passthroughDevs_same h
      ((splitCompress ',' (trim (vb.value kGroupPciPt kPciPtDev))).map trim) vb (vb.bringDownBtHciIntf h w)
    have hb : (vb.bringDownBtHciIntf h w).pool = w.pool := by unfold bringDownBtHciIntf; split <;> rfl
    exact .ok ⟨h1, h2, h3.trans hb⟩

theorem setPciDevicesCallback_cidKept : (always (fun _ => setPciDevicesCallback) vb w).All (CidKept vb w) := by
  unfold always setPciDevicesCallback
  dsimp only
  split
  · exact .ok (Quiet.refl vb w).cidKept
  · exact .ok ⟨⟨rfl, rfl, rfl, rfl, .inl rfl, id⟩, rfl, rfl⟩

end

/-! ## The steps by name -/

/-- A step of `BuildVmArgs`. -/
inductive ArgStep
  | emulPath | nameQmp | rpmb | disp | initAafCfg | vgpu | vinput | aafCfg | net | vsock | vtpm | mem | vcpu | firmware
  | vdisk | ptPciDevices | pciDevicesCallback | mediationSrv | guestTimeKeep | guestPmCtrl | extraGuestPmCtrl | audio
  | extra | fixed | extraServices | flush | created
  deriving DecidableEq

/-- What it does. -/
def ArgStep.run (h : Host κ) : ArgStep → Step κ
  | .emulPath => checked (buildEmulPath h)
  | .nameQmp => checked fun _ => buildNameQmp h
  | .rpmb => always (buildRpmbCmd h)
  | .disp => always fun _ => buildDispCmd
  | .initAafCfg => always fun _ => VmBuilderQemu.initAafCfg
  | .vgpu => buildVgpuCmd h
  | .vinput => always fun _ => buildVinputCmd
  | .aafCfg => checked fun _ => buildAafCfg
  | .net => always fun _ => buildNetCmd
  | .vsock => buildVsockCmd
  | .vtpm => always fun _ => buildVtpmCmd
  | .mem => always fun _ => buildMemCmd
  | .vcpu => always fun _ => buildVcpuCmd
  | .firmware => checked fun _ => buildFirmwareCmd
  | .vdisk => always fun _ => buildVdiskCmd
  | .ptPciDevices => buildPtPciDevicesCmd h
  | .pciDevicesCallback => always fun _ => setPciDevicesCallback
  | .mediationSrv => always fun _ => runMediationSrv
  | .guestTimeKeep => always fun _ => buildGuestTimeKeepCmd
  | .guestPmCtrl => always fun _ => buildGuestPmCtrlCmd
  | .extraGuestPmCtrl => buildExtraGuestPmCtrlCmd h
  | .audio => always (buildAudioCmd h)
  | .extra => always fun _ => buildExtraCmd
  | .fixed => always fun _ => buildFixedCmd
  | .extraServices => always fun _ => setExtraServices
  | .flush => flushAaf h
  | .created => always fun _ => VmBuilderQemu.created

/-- The order that they are taken in. -/
def argSteps : List ArgStep :=
  [.emulPath, .nameQmp, .rpmb, .disp, .initAafCfg, .vgpu, .vinput, .aafCfg, .net, .vsock, .vtpm, .mem, .vcpu, .firmware,
   .vdisk, .ptPciDevices, .pciDevicesCallback, .mediationSrv, .guestTimeKeep, .guestPmCtrl, .extraGuestPmCtrl, .audio,
   .extra, .fixed, .extraServices, .flush, .created]

theorem buildSteps_eq (h : Host κ) : buildSteps h = argSteps.map (·.run h) := rfl

/-- The place of a step. -/
def ArgStep.idx (b : ArgStep) : Nat := argSteps.idxOf b

theorem argSteps_spec : argSteps.Nodup ∧ ∀ b, b ∈ argSteps := ⟨by decide, fun b => by cases b <;> decide⟩

theorem ArgStep.at_idx (b : ArgStep) : argSteps[b.idx]? = some b := List.getElem?_idxOf (argSteps_spec.2 b)

theorem buildSteps_idx (h : Host κ) (b : ArgStep) : (buildSteps h)[b.idx]? = some (b.run h) := by
  rw [buildSteps_eq, List.getElem?_map, b.at_idx, Option.map_some]

/-- Each place is that of a step. -/
theorem buildSteps_at {h : Host κ} {i : Nat} {st : Step κ} (hst : (buildSteps h)[i]? = some st) :
    ∃ b : ArgStep, b.idx = i ∧ st = b.run h := by
  rw [buildSteps_eq, List.getElem?_map] at hst
  obtain ⟨b, hb, rfl⟩ := Option.map_eq_some_iff.1 hst
  obtain ⟨hlt, rfl⟩ := List.getElem?_eq_some_iff.1 hb
  exact ⟨_, argSteps_spec.1.idxOf_getElem i hlt, rfl⟩

/-- Past the end all steps have been taken. -/
theorem ArgStep.idx_lt_of_end {h : Host κ} {i : Nat} (hend : (buildSteps h)[i]? = none) (b : ArgStep) : b.idx < i := by
  rw [buildSteps_eq, List.getElem?_eq_none_iff, List.length_map] at hend
  exact Nat.lt_of_lt_of_le (List.idxOf_lt_length_of_mem (argSteps_spec.2 b)) hend

theorem buildSteps_run {h : Host κ} {b : ArgStep} {st : Step κ} (hst : (buildSteps h)[b.idx]? = some st) :
    st = b.run h := Option.some.inj (hst.symm.trans (buildSteps_idx h b))

/-- The place of `BuildVsockCmd`. -/
def vsockIdx : Nat := ArgStep.vsock.idx

/-- These take no device and no cid. -/
theorem ArgStep.quiet (h : Host κ) (b : ArgStep) (hb : b ∉ [.vgpu, .vsock, .ptPciDevices, .pciDevicesCallback])
    (vb : VmBuilderQemu) (w : World κ) : (b.run h vb w).All (Quiet vb w) := by
  cases b with
  | vgpu | vsock | ptPciDevices | pciDevicesCallback => exact absurd (by decide) hb
  | emulPath => exact checked_quiet (buildEmulPath_plain h) vb w
  | nameQmp => exact checked_quiet (fun _ => buildNameQmp_plain h) vb w
  | rpmb => exact always_quiet (buildRpmbCmd_plain h) vb w
  | disp => exact always_quiet (fun _ => buildDispCmd_plain) vb w
  | initAafCfg => exact always_quiet (fun _ => initAafCfg_plain) vb w
  | vinput => exact always_quiet (fun _ => buildVinputCmd_plain) vb w
  | aafCfg => exact checked_quiet (fun _ => buildAafCfg_plain) vb w
  | net => exact always_quiet (fun _ => buildNetCmd_plain) vb w
  | vtpm => exact always_quiet (fun _ => buildVtpmCmd_plain) vb w
  | mem => exact always_quiet (fun _ => buildMemCmd_plain) vb w
  | vcpu => exact always_quiet (fun _ => buildVcpuCmd_plain) vb w
  | firmware => exact checked_quiet (fun _ => buildFirmwareCmd_plain) vb w
  | vdisk => exact always_quiet (fun _ => buildVdiskCmd_plain) vb w
  | mediationSrv => exact always_quiet (fun _ => runMediationSrv_plain) vb w
  | guestTimeKeep => exact always_quiet (fun _ => buildGuestTimeKeepCmd_plain) vb w
  | guestPmCtrl => exact always_quiet (fun _ => buildGuestPmCtrlCmd_plain) vb w
  | extraGuestPmCtrl => exact buildExtraGuestPmCtrlCmd_quiet h vb w
  | audio => exact always_quiet (buildAudioCmd_plain h) vb w
  | extra => exact always_quiet (fun _ => buildExtraCmd_plain) vb w
  | fixed => exact always_quiet (fun _ => buildFixedCmd_plain) vb w
  | extraServices => exact always_quiet (fun _ => setExtraServices_plain) vb w
  | flush => exact flushAaf_quiet h vb w
  | created => exact always_quiet (fun _ => created_plain) vb w

theorem stepsAfterCallback_quiet (h : Host κ) :
    ∀ st ∈ stepsAfterCallback h, ∀ vb w, (st vb w).All (Quiet vb w) := by
  have hsteps : stepsAfterCallback h = (argSteps.drop ArgStep.mediationSrv.idx).map (·.run h) := rfl
  have hquiet : ∀ b ∈ argSteps.drop ArgStep.mediationSrv.idx,
      b ∉ [.vgpu, .vsock, .ptPciDevices, .pciDevicesCallback] := by decide
  intro st hst
  rw [hsteps] at hst
  obtain ⟨b, hb, rfl⟩ := List.mem_map.1 hst
  exact b.quiet h (hquiet b hb)

/-- All steps but `BuildVsockCmd` leave the cid and the pool alone. -/
theorem ArgStep.cidKept (h : Host κ) (b : ArgStep) (hb : b ≠ .vsock) (vb : VmBuilderQemu) (w : World κ) :
    (b.run h vb w).All (CidKept vb w) := by
  by_cases hq : b ∈ [.vgpu, .vsock, .ptPciDevices, .pciDevicesCallback]
  · simp only [List.mem_cons, List.not_mem_nil, or_false] at hq
    rcases hq with rfl | rfl | rfl | rfl
    · exact buildVgpuCmd_cidKept h vb w
    · exact absurd rfl hb
    · exact buildPtPciDevicesCmd_cidKept h vb w
    · exact setPciDevicesCallback_cidKept vb w
  · exact (b.quiet h hq vb w).imp fun _ _ => Quiet.cidKept

theorem buildSteps_kept_of_ne {h : Host κ} {i : Nat} {st : Step κ} (hst : (buildSteps h)[i]? = some st)
    (hne : i ≠ vsockIdx) (vb : VmBuilderQemu) (w : World κ) : (st vb w).All (CidKept vb w) := by
  obtain ⟨b, rfl, rfl⟩ := buildSteps_at hst
  exact b.cidKept h (fun he => hne (he ▸ rfl)) vb w

theorem buildSteps_cidStep {h : Host κ} {i : Nat} {st : Step κ} (hst : (buildSteps h)[i]? = some st)
    (vb : VmBuilderQemu) (w : World κ) : (st vb w).All (CidStep vb w) := by
  by_cases hi : i = vsockIdx
  · subst hi
    obtain rfl := buildSteps_run hst
    exact buildVsockCmd_cidStep vb w
  · exact (buildSteps_kept_of_ne hst hi vb w).imp fun _ _ => CidKept.cidStep

/-! ## Which steps throw or do not return -/

/-- The step returned, true or false. -/
inductive Outcome.Returned : Outcome κ → Prop
  | ok (vb : VmBuilderQemu) (w : World κ) : Outcome.Returned (.ok vb w)
  | failed (vb : VmBuilderQemu) (w : World κ) : Outcome.Returned (.failed vb w)

theorem Outcome.Returned.ite {o o' : Outcome κ} {c : Prop} [Decidable c] (h : o.Returned) (h' : o'.Returned) :
    (if c then o else o').Returned := by
  split <;> assumption

theorem always_returned (f : κ → VmBuilderQemu → VmBuilderQemu) (vb : VmBuilderQemu) (w : World κ) :
    (always f vb w).Returned := .ok _ _

theorem checked_returned (f : κ → VmBuilderQemu → Bool × VmBuilderQemu) (vb : VmBuilderQemu) (w : World κ) :
    (checked f vb w).Returned := by
  unfold checked
  split
  · exact .ok _ _
  · exact .failed _ _

section

variable (h : Host κ) (vb : VmBuilderQemu) (w : World κ)

theorem buildVsockCmd_returned : (buildVsockCmd vb w).Returned := by
  obtain ⟨vb', -, -, ⟨-, -, he⟩ | ⟨-, -, he⟩⟩ := buildVsockCmd_cases vb w <;> rw [he]
  · exact .ok _ _
  · exact .failed _ _

theorem buildPtPciDevicesCmd_returned : (buildPtPciDevicesCmd h vb w).Returned := by
  unfold buildPtPciDevicesCmd
  exact .ite (.ok _ _) (.ok _ _)

theorem buildExtraGuestPmCtrlCmd_returned : (buildExtraGuestPmCtrlCmd h vb w).Returned := by
  unfold buildExtraGuestPmCtrlCmd
  dsimp only
  split
  · split <;> exact .ok _ _
  · exact .ok _ _

theorem buildGvtg_returned : (buildGvtg h vb w).Returned := by
  unfold buildGvtg
  exact .ite (.failed _ _) (.ite (.failed _ _) (.ite (.failed _ _) (.ok _ _)))

theorem buildGvtd_returned : (buildGvtd h vb w).Returned := by
  unfold buildGvtd
  dsimp only
  split
  · exact .failed _ _
  · exact .ok _ _

theorem buildSriov_returned : (buildSriov h vb w).Returned := by
  unfold buildSriov
  split
  · exact .failed _ _
  · exact .ok _ _

/-- `graphics.type` is `virtio` and `graphics.outputs` is a text that
`std::stoi` throws on. -/
def badOutputs : Bool :=
  vb.value kGroupVgpu kVgpuType = kVgpuVirtio && !(vb.value kGroupVgpu kVgpuOutputs).isEmpty &&
    (stoi 10 (vb.value kGroupVgpu kVgpuOutputs)).toOption.isNone

theorem buildVirtio_returned (hb : badOutputs vb = false) (ht : vb.value kGroupVgpu kVgpuType = kVgpuVirtio) :
    (buildVirtio vb w).Returned := by
  unfold buildVirtio
  have hval : ∀ s, (vb.append s).value kGroupVgpu kVgpuOutputs = vb.value kGroupVgpu kVgpuOutputs := fun _ => rfl
  simp only [hval]
  split
  · exact .ok _ _
  · rename_i hne
    split
    · rename_i e he
      simp [badOutputs, ht, he, hne, Except.toOption] at hb
    · exact .ok _ _

theorem buildVgpuCmd_returned (hb : badOutputs vb = false) : (buildVgpuCmd h vb w).Returned := by
  unfold buildVgpuCmd
  dsimp only
  refine .ite (.ok _ _) (.ite (buildGvtg_returned h vb w) (.ite (buildGvtd_returned h vb w) ?_))
  split
  · exact buildVirtio_returned vb w hb ‹_›
  · exact .ite (.ok _ _) (.ite (.ok _ _) (.ite (buildSriov_returned h vb w) (.failed _ _)))

theorem buildVirtio_no_hang (w' : World κ) : buildVirtio vb w ≠ .hung w' := by
  unfold buildVirtio
  dsimp only
  split
  · exact nofun
  · split <;> exact nofun

theorem buildVgpuCmd_no_hang (w' : World κ) : buildVgpuCmd h vb w ≠ .hung w' := by
  by_cases hb : badOutputs vb = true
  · have ht : vb.value kGroupVgpu kVgpuType = kVgpuVirtio := by
      simp only [badOutputs, Bool.and_eq_true, decide_eq_true_eq] at hb
      exact hb.1.1
    have hv : buildVgpuCmd h vb w = buildVirtio vb w := by
      unfold buildVgpuCmd
      dsimp only
      rw [ht]
      rfl
    rw [hv]
    exact buildVirtio_no_hang vb w w'
  · have hr := buildVgpuCmd_returned h vb w (by simpa using hb)
    rintro he
    rw [he] at hr
    cases hr

theorem flushAaf_hung {w' : World κ} (he : flushAaf h vb w = .hung w') : w'.pool = w.pool := by
  unfold flushAaf at he
  split at he
  · cases he
  · split at he
    · cases he; rfl
    · cases he

end

/-- The places of `BuildVgpuCmd` and of `aaf_cfg_->Flush()`. -/
def vgpuIdx : Nat := ArgStep.vgpu.idx
def flushIdx : Nat := ArgStep.flush.idx

/-- All other steps return. -/
theorem ArgStep.returned (h : Host κ) (b : ArgStep) (hv : b ≠ .vgpu) (hf : b ≠ .flush) (vb : VmBuilderQemu)
    (w : World κ) : (b.run h vb w).Returned := by
  cases b with
  | vgpu => exact absurd rfl hv
  | flush => exact absurd rfl hf
  | vsock => exact buildVsockCmd_returned vb w
  | ptPciDevices => exact buildPtPciDevicesCmd_returned h vb w
  | extraGuestPmCtrl => exact buildExtraGuestPmCtrlCmd_returned h vb w
  | emulPath | nameQmp | aafCfg | firmware =>
    rw [ArgStep.run]
    exact checked_returned _ vb w
  | rpmb | disp | initAafCfg | vinput | net | vtpm | mem | vcpu | vdisk | pciDevicesCallback | mediationSrv
  | guestTimeKeep | guestPmCtrl | audio | extra | fixed | extraServices | created =>
    rw [ArgStep.run]
    exact always_returned _ vb w

theorem buildSteps_returned {h : Host κ} {i : Nat} {st : Step κ} (hst : (buildSteps h)[i]? = some st)
    (hv : i ≠ vgpuIdx) (hf : i ≠ flushIdx) (vb : VmBuilderQemu) (w : World κ) : (st vb w).Returned := by
  obtain ⟨b, rfl, rfl⟩ := buildSteps_at hst
  exact b.returned h (fun he => hv (he ▸ rfl)) (fun he => hf (he ▸ rfl)) vb w

/-- A step that never returns has left the pool as it was. -/
theorem buildSteps_hung {h : Host κ} {i : Nat} {st : Step κ} (hst : (buildSteps h)[i]? = some st) {vb : VmBuilderQemu}
    {w w' : World κ} (he : st vb w = .hung w') : w'.pool = w.pool := by
  by_cases hv : i = vgpuIdx
  · subst hv
    obtain rfl := buildSteps_run hst
    exact absurd he (buildVgpuCmd_no_hang h vb w w')
  · by_cases hf : i = flushIdx
    · subst hf
      obtain rfl := buildSteps_run hst
      exact flushAaf_hung h vb w he
    · have hr := buildSteps_returned hst hv hf vb w
      rw [he] at hr
      cases hr

end VmManager
