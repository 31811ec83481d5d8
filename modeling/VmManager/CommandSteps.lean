import VmManager.BuilderSteps
/-!
# What the steps of `BuildVmArgs` write

A step that returns true has only written on at the end of the emulator
command, but for the first, which starts it. The main process comes with the
last step, and the cleanup of the power socket with `BuildExtraGuestPmCtrlCmd`.
-/
open Text

namespace VmManager

open VmBuilderQemu

variable {κ : Type}

/-- The main process and the queued cleanups of the power socket are as they
were. -/
structure Keeps (vb vb' : VmBuilderQemu) : Prop where
  main : vb'.mainProc = vb.mainProc
  sockets : vb'.endCall.count .removeSocket = vb.endCall.count .removeSocket

/-- Something may have been written at the end of the emulator command. -/
structure Appends (vb vb' : VmBuilderQemu) : Prop where
  keeps : Keeps vb vb'
  cmd : ∃ rest, vb'.emulCmd = vb.emulCmd ++ rest

theorem Keeps.refl (vb : VmBuilderQemu) : Keeps vb vb := ⟨rfl, rfl⟩

/-- The static of `BuildExtraGuestPmCtrlCmd`, and what its cleanups have removed. -/
def World.sockets (w : World κ) : String × List String := (w.socketPath, w.removals)

@[simp] theorem onKernel_sockets {α : Type} (w : World κ) (m : StateM κ α) :
    (w.onKernel m).2.sockets = w.sockets := rfl

namespace Appends

variable {vb vb' vb'' : VmBuilderQemu}

theorem refl (vb : VmBuilderQemu) : Appends vb vb := ⟨.refl vb, "", by simp⟩

theorem trans (h : Appends vb vb') (h' : Appends vb' vb'') : Appends vb vb'' := by
  obtain ⟨hk, r, hr⟩ := h
  obtain ⟨hk', r', hr'⟩ := h'
  exact ⟨⟨hk'.main.trans hk.main, hk'.sockets.trans hk.sockets⟩, r ++ r', by rw [hr', hr, String.append_assoc]⟩

theorem ite {c : Prop} [Decidable c] (h : Appends vb vb') (h' : Appends vb vb'') :
    Appends vb (if c then vb' else vb'') := by
  split <;> assumption

/-- The command is as it was. -/
theorem of_same (h : Appends vb vb') (hm : vb''.mainProc = vb'.mainProc) (he : vb''.endCall = vb'.endCall)
    (hc : vb''.emulCmd = vb'.emulCmd) : Appends vb vb'' :=
  h.trans ⟨⟨hm, by rw [he]⟩, "", by rw [hc]; simp⟩

theorem append (h : Appends vb vb') (s : String) : Appends vb (vb'.append s) := h.trans ⟨⟨rfl, rfl⟩, s, rfl⟩

theorem setAaf (h : Appends vb vb') (key val : String) : Appends vb (vb'.setAaf key val) := h.of_same rfl rfl rfl

theorem addProc (h : Appends vb vb') (kind : ProcKind) : Appends vb (vb'.addProc kind) := h.of_same rfl rfl rfl

theorem insertDev (h : Appends vb vb') (dev : String) : Appends vb (vb'.insertDev dev) := h.of_same rfl rfl rfl

theorem queue (h : Appends vb vb') {c : EndCall} (hc : c ≠ .removeSocket) : Appends vb (vb'.queue c) :=
  h.trans ⟨⟨rfl, by simp [VmBuilderQemu.queue, hc]⟩, "", by simp [VmBuilderQemu.queue]⟩

end Appends

/-- What a step leaves behind: a longer command if it returned true, and the
static of `BuildExtraGuestPmCtrlCmd` as it was, with nothing removed. -/
inductive Outcome.Writes (vb : VmBuilderQemu) (w : World κ) : Outcome κ → Prop
  | ok {vb' : VmBuilderQemu} {w' : World κ} : Appends vb vb' → w'.sockets = w.sockets →
      Outcome.Writes vb w (.ok vb' w')
  | failed {vb' : VmBuilderQemu} {w' : World κ} : Keeps vb vb' → w'.sockets = w.sockets →
      Outcome.Writes vb w (.failed vb' w')
  | threw {e : Exn} {vb' : VmBuilderQemu} {w' : World κ} : Keeps vb vb' → w'.sockets = w.sockets →
      Outcome.Writes vb w (.threw e vb' w')
  | hung {w' : World κ} : w'.sockets = w.sockets → Outcome.Writes vb w (.hung w')

theorem Outcome.Writes.ite {vb : VmBuilderQemu} {w : World κ} {o o' : Outcome κ} {c : Prop} [Decidable c]
    (h : o.Writes vb w) (h' : o'.Writes vb w) : (if c then o else o').Writes vb w := by
  split <;> assumption

theorem always_writes {f : κ → VmBuilderQemu → VmBuilderQemu} (hf : ∀ k vb, Appends vb (f k vb)) (vb : VmBuilderQemu)
    (w : World κ) : (always f vb w).Writes vb w := .ok (hf w.kernel vb) rfl

theorem checked_writes {f : κ → VmBuilderQemu → Bool × VmBuilderQemu}
    (hf : ∀ k vb, Keeps vb (f k vb).2 ∧ ((f k vb).1 = true → Appends vb (f k vb).2)) (vb : VmBuilderQemu)
    (w : World κ) : (checked f vb w).Writes vb w := by
  obtain ⟨hk, ha⟩ := hf w.kernel vb
  unfold checked
  split <;> rename_i he <;> rw [he] at hk ha
  · exact .ok (ha rfl) rfl
  · exact .failed hk rfl

/-! ## The steps that cannot fail -/

section

variable (h : Host κ) (k : κ) (vb : VmBuilderQemu)

theorem buildRpmbCmd_appends : Appends vb (vb.buildRpmbCmd h k) :=
  .ite (((Appends.refl vb).append _).addProc _) (.refl vb)

theorem buildDispCmd_appends : Appends vb vb.buildDispCmd :=
  .ite ((Appends.refl vb).append _) ((Appends.refl vb).append _)

theorem initAafCfg_appends : Appends vb vb.initAafCfg := .ite (.refl vb) ((Appends.refl vb).of_same rfl rfl rfl)

theorem buildVinputCmd_appends : Appends vb vb.buildVinputCmd :=
  .ite (.refl vb) (.ite (((Appends.refl vb).append _).addProc _) (((Appends.refl vb).append _).addProc _))

theorem buildNetCmd_appends : Appends vb vb.buildNetCmd := .ite (.refl vb) (((Appends.refl vb).append _).append _)

theorem buildVtpmCmd_appends : Appends vb vb.buildVtpmCmd :=
  .ite (((Appends.refl vb).append _).addProc _) (.refl vb)

theorem buildMemCmd_appends : Appends vb vb.buildMemCmd := (Appends.refl vb).append _

theorem buildVcpuCmd_appends : Appends vb vb.buildVcpuCmd := (Appends.refl vb).append _

theorem buildVdiskCmd_appends : Appends vb vb.buildVdiskCmd := (Appends.refl vb).append _

theorem setPciDevicesCallback_appends : Appends vb vb.setPciDevicesCallback :=
  .ite (.refl vb) ((Appends.refl vb).queue (by decide))

theorem runMediationSrv_appends : Appends vb vb.runMediationSrv := by
  have hadd : ∀ {vb'} (group key), Appends vb vb' → Appends vb (if (vb'.value group key).isEmpty = true then vb'
      else vb'.addProc (.simple (vb'.value group key))) := fun _ _ ha => .ite ha (ha.addProc _)
  have hmed := hadd kGroupMed kMedThermal (hadd kGroupMed kMedBattery (.refl vb))
  exact .ite (hmed.addProc _) hmed

theorem buildGuestTimeKeepCmd_appends : Appends vb vb.buildGuestTimeKeepCmd :=
  .ite (.refl vb) (((Appends.refl vb).addProc _).append _)

theorem buildGuestPmCtrlCmd_appends : Appends vb vb.buildGuestPmCtrlCmd :=
  .ite (.refl vb) (((Appends.refl vb).addProc _).append _)

theorem buildAudioCmd_appends : Appends vb (vb.buildAudioCmd h k) := .ite (.refl vb) ((Appends.refl vb).append _)

theorem buildExtraCmd_appends : Appends vb vb.buildExtraCmd := .ite (.refl vb) ((Appends.refl vb).append _)

theorem buildFixedCmd_appends : Appends vb vb.buildFixedCmd := ((Appends.refl vb).append _).append _

theorem setExtraServices_appends : Appends vb vb.setExtraServices := by
  refine .ite (.refl vb) ?_
  -- Over the services, from any builder reached so far.
  generalize splitCompress ';' (trim (vb.value kGroupExtra kExtraService)) = srvs
  suffices ∀ vb', Appends vb vb' → Appends vb (srvs.foldl (fun vb srv =>
      if (trim srv).isEmpty then vb else vb.addProc (.simple (trim srv))) vb') from this vb (.refl vb)
  induction srvs with
  | nil => exact fun _ ha => ha
  | cons srv srvs ih =>
    intro vb' ha
    rw [List.foldl_cons]
    exact ih _ (.ite ha (ha.addProc _))

/-! ## The steps that can fail -/

theorem buildEmulPath_keeps : Keeps vb (vb.buildEmulPath h k).2 := by
  unfold buildEmulPath
  dsimp only
  rw [apply_ite Prod.snd]
  generalize String.isEmpty _ = e
  cases e <;> exact ⟨rfl, rfl⟩

theorem buildNameQmp_writes : Keeps vb (vb.buildNameQmp h).2 ∧
    ((vb.buildNameQmp h).1 = true → Appends vb (vb.buildNameQmp h).2) := by
  unfold buildNameQmp
  dsimp only
  split
  · exact ⟨⟨rfl, rfl⟩, nofun⟩
  · have ha := ((Appends.refl vb).append (" -name " ++ trim (vb.value kGroupGlob kGlobName))).append
      (" -qmp unix:" ++ h.configPath ++ "/." ++ (split ',' (trim (vb.value kGroupGlob kGlobName))).headD "" ++
        ".qmp.unix.socket,server,nowait")
    exact ⟨ha.keeps, fun _ => ha⟩

theorem buildAafCfg_writes : Keeps vb vb.buildAafCfg.2 ∧ (vb.buildAafCfg.1 = true → Appends vb vb.buildAafCfg.2) := by
  have ha : Appends vb vb.buildAafCfg.2 := by
    unfold buildAafCfg
    dsimp only
    split
    · exact .refl vb
    · split
      · exact .refl vb
      · rename_i s _
        have hs : Appends vb (s.elim vb (vb.setAaf kAafKeySuspend ·)) := by
          cases s with
          | none => exact .refl vb
          | some v => exact (Appends.refl vb).setAaf _ v
        exact Appends.append (.ite hs (hs.setAaf _ _)) _
  exact ⟨ha.keeps, fun _ => ha⟩

theorem buildFirmwareCmd_writes : Keeps vb vb.buildFirmwareCmd.2 ∧
    (vb.buildFirmwareCmd.1 = true → Appends vb vb.buildFirmwareCmd.2) := by
  have ha : Appends vb vb.buildFirmwareCmd.2 := by
    unfold buildFirmwareCmd
    dsimp only
    rw [apply_ite Prod.snd, apply_ite Prod.snd, apply_ite Prod.snd]
    exact .ite (.refl vb) (.ite ((Appends.refl vb).append _) (.ite (((Appends.refl vb).append _).append _) (.refl vb)))
  exact ⟨ha.keeps, fun _ => ha⟩

end

/-! ## The steps that act on the host -/

section

variable (h : Host κ) (vb : VmBuilderQemu) (w : World κ)

theorem buildGvtg_writes : (buildGvtg h vb w).Writes vb w := by
  unfold buildGvtg
  exact .ite (.failed (.refl vb) rfl) (.ite (.failed (.refl vb) rfl) (.ite (.failed (.refl vb) rfl)
    (.ok (((Appends.refl vb).append _).setAaf _ _) rfl)))

theorem soundCardHook_writes : Appends vb (vb.soundCardHook h w).1 ∧
    (vb.soundCardHook h w).2.sockets = w.sockets := by
  unfold soundCardHook
  dsimp only
  split
  · exact ⟨.ite ((Appends.refl vb).queue (by decide)) (.refl vb), rfl⟩
  · exact ⟨.refl vb, rfl⟩

theorem buildGvtd_writes : (buildGvtd h vb w).Writes vb w := by
  obtain ⟨ha, hp⟩ := soundCardHook_writes h vb w
  unfold buildGvtd passthroughGpu
  dsimp only
  generalize vb.soundCardHook h w = r at ha hp ⊢
  by_cases hg : (r.2.pci h kIntelGpuBdf .passthrough).1 = true
  · rw [hg]
    exact .ok (((ha.insertDev _).append _).setAaf _ _) hp
  · have hgf : (r.2.pci h kIntelGpuBdf .passthrough).1 = false := by simpa using hg
    rw [hgf]
    exact .failed ha.keeps hp

theorem buildVirtio_writes : (buildVirtio vb w).Writes vb w := by
  have ha := (Appends.refl vb).append " -device virtio-vga-gl"
  unfold buildVirtio
  dsimp only
  split
  · exact .ok (ha.setAaf _ _) rfl
  · split
    · exact .threw ha.keeps rfl
    · exact .ok (Appends.setAaf (.ite (ha.append _) ha) _ _) rfl

theorem setupSriov_writes : Appends vb (vb.setupSriov h w).2.1 ∧ (vb.setupSriov h w).2.2.sockets = w.sockets := by
  have ha : Appends vb (if (vb.value kGroupVgpu kVgpuMonId).isEmpty = true then vb.append " -display gtk,gl=on"
      else vb.append (" -display gtk,gl=on,monitor=" ++ vb.value kGroupVgpu kVgpuMonId)) :=
    .ite ((Appends.refl vb).append _) ((Appends.refl vb).append _)
  unfold setupSriov
  dsimp only
  generalize (if (vb.value kGroupVgpu kVgpuMonId).isEmpty = true then vb.append " -display gtk,gl=on"
      else vb.append (" -display gtk,gl=on,monitor=" ++ vb.value kGroupVgpu kVgpuMonId)) = vb' at ha ⊢
  split
  · exact ⟨ha, onKernel_sockets _ _⟩
  · split <;> simp only [onKernel_sockets, and_true]
    · exact ha
    · exact ha.append _

theorem buildSriov_writes : (buildSriov h vb w).Writes vb w := by
  obtain ⟨ha, hp⟩ := setupSriov_writes h vb w
  unfold buildSriov
  split <;> rename_i he <;> rw [he] at ha hp
  · exact .failed ha.keeps hp
  · exact .ok (ha.setAaf _ _) hp

theorem buildVgpuCmd_writes : (buildVgpuCmd h vb w).Writes vb w := by
  unfold buildVgpuCmd
  refine .ite (.ok (.refl vb) rfl) (.ite (buildGvtg_writes h vb w) (.ite (buildGvtd_writes h vb w)
    (.ite (buildVirtio_writes vb w) (.ite (.ok ?_ rfl) (.ite (.ok ?_ rfl) (.ite (buildSriov_writes h vb w)
      (.failed (.refl vb) rfl)))))))
  · exact (Appends.refl vb).append _
  · exact ((Appends.refl vb).append _).setAaf _ _

theorem buildVsockCmd_writes : (buildVsockCmd vb w).Writes vb w := by
  unfold buildVsockCmd
  split
  · exact .failed ⟨rfl, rfl⟩ rfl
  · rename_i cid pool _
    have hcid : Appends vb { vb with vsockCid := cid } := (Appends.refl vb).of_same rfl rfl rfl
    exact .ite (.failed ⟨rfl, rfl⟩ rfl) (.ok (hcid.append _) rfl)

theorem passthroughDevs_writes (devs : List String) (vb vb' : VmBuilderQemu) (w w' : World κ) (ha : Appends vb vb')
    (hp : w'.sockets = w.sockets) : Appends vb (passthroughDevs h devs vb' w').1 ∧
      (passthroughDevs h devs vb' w').2.sockets = w.sockets := by
  induction devs generalizing vb' w' with
  | nil => exact ⟨ha, hp⟩
  | cons dev devs ih =>
    rw [passthroughDevs]
    have hp' : (w'.pci h dev .passthrough).2.sockets = w.sockets := hp
    split <;> rename_i he <;> rw [he] at hp'
    · exact ih _ _ ((ha.insertDev _).append _) hp'
    · exact ih _ _ ha hp'

theorem buildPtPciDevicesCmd_writes : (buildPtPciDevicesCmd h vb w).Writes vb w := by
  unfold buildPtPciDevicesCmd
  have hp : (vb.bringDownBtHciIntf h w).sockets = w.sockets := by
    unfold bringDownBtHciIntf
    split <;> rfl
  obtain ⟨ha, hp⟩ := passthroughDevs_writes h ((splitCompress ',' (trim (vb.value kGroupPciPt kPciPtDev))).map trim) vb vb
    w _ (.refl vb) hp
  exact .ite (.ok (.refl vb) rfl) (.ok ha hp)

theorem flushAaf_writes : (flushAaf h vb w).Writes vb w := by
  unfold flushAaf
  split
  · exact .ok (.refl vb) rfl
  · split
    · exact .hung rfl
    · exact .ok ((Appends.refl vb).of_same rfl rfl rfl) rfl

end

/-! ## Every step -/

/-- The world that a step leaves behind. -/
def Outcome.world : Outcome κ → World κ
  | .ok _ w | .failed _ w | .threw _ _ w | .hung w => w

/-- The places of `BuildExtraGuestPmCtrlCmd` and of the end of `BuildVmArgs`. -/
def powerIdx : Nat := ArgStep.extraGuestPmCtrl.idx
def createdIdx : Nat := ArgStep.created.idx

/-- All steps but three write to the command line and to nothing that is asked
about here. -/
theorem ArgStep.writes (h : Host κ) (b : ArgStep) (hb : b ∉ [.emulPath, .extraGuestPmCtrl, .created])
    (vb : VmBuilderQemu) (w : World κ) : (b.run h vb w).Writes vb w := by
  cases b with
  | emulPath | extraGuestPmCtrl | created => exact absurd (by decide) hb
  | nameQmp => exact checked_writes (fun _ => buildNameQmp_writes h) vb w
  | rpmb => exact always_writes (buildRpmbCmd_appends h) vb w
  | disp => exact always_writes (fun _ => buildDispCmd_appends) vb w
  | initAafCfg => exact always_writes (fun _ => initAafCfg_appends) vb w
  | vgpu => exact buildVgpuCmd_writes h vb w
  | vinput => exact always_writes (fun _ => buildVinputCmd_appends) vb w
  | aafCfg => exact checked_writes (fun _ => buildAafCfg_writes) vb w
  | net => exact always_writes (fun _ => buildNetCmd_appends) vb w
  | vsock => exact buildVsockCmd_writes vb w
  | vtpm => exact always_writes (fun _ => buildVtpmCmd_appends) vb w
  | mem => exact always_writes (fun _ => buildMemCmd_appends) vb w
  | vcpu => exact always_writes (fun _ => buildVcpuCmd_appends) vb w
  | firmware => exact checked_writes (fun _ => buildFirmwareCmd_writes) vb w
  | vdisk => exact always_writes (fun _ => buildVdiskCmd_appends) vb w
  | ptPciDevices => exact buildPtPciDevicesCmd_writes h vb w
  | pciDevicesCallback => exact always_writes (fun _ => setPciDevicesCallback_appends) vb w
  | mediationSrv => exact always_writes (fun _ => runMediationSrv_appends) vb w
  | guestTimeKeep => exact always_writes (fun _ => buildGuestTimeKeepCmd_appends) vb w
  | guestPmCtrl => exact always_writes (fun _ => buildGuestPmCtrlCmd_appends) vb w
  | audio => exact always_writes (buildAudioCmd_appends h) vb w
  | extra => exact always_writes (fun _ => buildExtraCmd_appends) vb w
  | fixed => exact always_writes (fun _ => buildFixedCmd_appends) vb w
  | extraServices => exact always_writes (fun _ => setExtraServices_appends) vb w
  | flush => exact flushAaf_writes h vb w

theorem buildSteps_writes {h : Host κ} {i : Nat} {st : Step κ} (hst : (buildSteps h)[i]? = some st) (h0 : i ≠ 0)
    (hp : i ≠ powerIdx) (hc : i ≠ createdIdx) (vb : VmBuilderQemu) (w : World κ) : (st vb w).Writes vb w := by
  obtain ⟨b, rfl, rfl⟩ := buildSteps_at hst
  refine b.writes h (fun hb => ?_) vb w
  simp only [List.mem_cons, List.not_mem_nil, or_false] at hb
  rcases hb with rfl | rfl | rfl
  · exact h0 rfl
  · exact hp rfl
  · exact hc rfl

/-- `BuildExtraGuestPmCtrlCmd` writes as well, and the last step leaves the
command as it is. -/
theorem buildSteps_cmd {h : Host κ} {i : Nat} {st : Step κ} {vb vb' : VmBuilderQemu} {w w' : World κ}
    (hst : (buildSteps h)[i]? = some st) (h0 : i ≠ 0) (he : st vb w = .ok vb' w') :
    ∃ rest, vb'.emulCmd = vb.emulCmd ++ rest := by
  by_cases hp : i = powerIdx
  · subst hp
    obtain rfl := buildSteps_run hst
    rw [ArgStep.run, buildExtraGuestPmCtrlCmd] at he
    dsimp only at he
    split at he
    · split at he <;> cases he
      · exact ⟨_, rfl⟩
      · exact ⟨"", by simp [queue]⟩
    · cases he
      exact ⟨"", by simp⟩
  · by_cases hc : i = createdIdx
    · subst hc
      obtain rfl := buildSteps_run hst
      cases he
      exact ⟨"", by simp [created]⟩
    · have hw := buildSteps_writes hst h0 hp hc vb w
      rw [he] at hw
      cases hw with
      | ok ha => exact ha.cmd

/-- The main process is there after the last step, and it has not been run. -/
theorem buildSteps_main {h : Host κ} {i : Nat} {st : Step κ} (hst : (buildSteps h)[i]? = some st) (vb : VmBuilderQemu)
    (w : World κ) : (st vb w).All fun vb' _ => vb'.mainProc = vb.mainProc ∨ ∃ kind, vb'.mainProc = some { kind } := by
  by_cases h0 : i = 0
  · subst h0
    obtain rfl := buildSteps_run (b := .emulPath) hst
    have hk := buildEmulPath_keeps h w.kernel vb
    rw [ArgStep.run, checked]
    split <;> rename_i he <;> rw [he] at hk
    · exact .ok (.inl hk.main)
    · exact .failed (.inl hk.main)
  · by_cases hp : i = powerIdx
    · subst hp
      obtain rfl := buildSteps_run hst
      rw [ArgStep.run, buildExtraGuestPmCtrlCmd]
      dsimp only
      split
      · split <;> exact .ok (.inl rfl)
      · exact .ok (.inl rfl)
    · by_cases hc : i = createdIdx
      · subst hc
        obtain rfl := buildSteps_run hst
        exact .ok (.inr ⟨_, rfl⟩)
      · cases hw : st vb w <;> have hwrites := buildSteps_writes hst h0 hp hc vb w <;> rw [hw] at hwrites <;> cases hwrites
        · exact .ok (.inl (Appends.keeps ‹_›).main)
        · exact .failed (.inl (Keeps.main ‹_›))
        · exact .threw (.inl (Keeps.main ‹_›))
        · exact .hung

/-- Only `BuildExtraGuestPmCtrlCmd` queues the cleanup of a power socket and
writes to the static, and it removes nothing either. -/
theorem buildSteps_sockets {h : Host κ} {i : Nat} {st : Step κ} (hst : (buildSteps h)[i]? = some st)
    (hp : i ≠ powerIdx) (vb : VmBuilderQemu) (w : World κ) :
    ((st vb w).All fun vb' _ => vb'.endCall.count .removeSocket = vb.endCall.count .removeSocket) ∧
      (st vb w).world.sockets = w.sockets := by
  by_cases h0 : i = 0
  · subst h0
    obtain rfl := buildSteps_run (b := .emulPath) hst
    have hk := buildEmulPath_keeps h w.kernel vb
    rw [ArgStep.run, checked]
    split <;> rename_i he <;> rw [he] at hk
    · exact ⟨.ok hk.sockets, rfl⟩
    · exact ⟨.failed hk.sockets, rfl⟩
  · by_cases hc : i = createdIdx
    · subst hc
      obtain rfl := buildSteps_run hst
      exact ⟨.ok rfl, rfl⟩
    · cases hw : st vb w <;> have hwrites := buildSteps_writes hst h0 hp hc vb w <;> rw [hw] at hwrites <;> cases hwrites
      · exact ⟨.ok (Appends.keeps ‹_›).sockets, ‹_›⟩
      · exact ⟨.failed (Keeps.sockets ‹_›), ‹_›⟩
      · exact ⟨.threw (Keeps.sockets ‹_›), ‹_›⟩
      · exact ⟨.hung, ‹_›⟩

theorem buildSteps_removals {h : Host κ} {i : Nat} {st : Step κ} (hst : (buildSteps h)[i]? = some st)
    (vb : VmBuilderQemu) (w : World κ) : (st vb w).world.removals = w.removals := by
  by_cases hp : i = powerIdx
  · subst hp
    obtain rfl := buildSteps_run hst
    rw [ArgStep.run, buildExtraGuestPmCtrlCmd]
    dsimp only
    split
    · split <;> rfl
    · rfl
  · exact congrArg Prod.snd (buildSteps_sockets hst hp vb w).2

end VmManager
