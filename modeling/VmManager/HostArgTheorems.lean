import VmManager.CommandSteps
import VmManager.DeviceTheorems
/-!
# The PCI functions on the command line

`GVT-d` and the list of `BuildPtPciDevicesCmd` write an argument for each device
they get, and put the device in `pci_pt_dev_set_`. The set takes a device once,
the command line as often as it is written.
-/
open Text

namespace VmManager

open VmBuilderQemu

variable {κ : Type}

/-! ## Arguments -/

/-- The devices that `BuildPtPciDevicesCmd` asks for, in order. -/
def ptTokens (cfg : CivConfig) : List String :=
  let ptPci := trim (cfg.getValue kGroupPciPt kPciPtDev)
  if ptPci.isEmpty then [] else (splitCompress ',' ptPci).map trim

/-- What follows `vfio-pci,host=`, in a text that was split at its commas. -/
def hostArgs : List (List Char) → List String
  | p :: q :: rest =>
    if "vfio-pci".toList.isSuffixOf p && "host=".toList.isPrefixOf q then .ofList (q.drop 5) :: hostArgs (q :: rest)
    else hostArgs (q :: rest)
  | _ => []

/-- The values of the `vfio-pci,host=` arguments in a text. -/
def hostFunctions (text : String) : List String := hostArgs (text.toList.splitOn ',')

/-- The argument that `BuildPtPciDevicesCmd` writes for a device. -/
def deviceArg (dev : String) : String := " -device vfio-pci,host=" ++ dev ++ ",x-no-kvm-intx=on"

def deviceArgs : List String → String
  | [] => ""
  | dev :: devs => deviceArg dev ++ deviceArgs devs

theorem toList_append₃ (a b c : String) : (a ++ b ++ c).toList = a.toList ++ b.toList ++ c.toList := by
  rw [String.toList_append, String.toList_append]

/-- An argument, cut at its commas. -/
theorem toList_deviceArg (dev : String) : (deviceArg dev).toList =
    " -device vfio-pci".toList ++ ',' :: (("host=".toList ++ dev.toList) ++ ',' :: "x-no-kvm-intx=on".toList) := by
  have hopen : " -device vfio-pci,host=".toList = " -device vfio-pci".toList ++ ',' :: "host=".toList := by simp
  have hclose : ",x-no-kvm-intx=on".toList = ',' :: "x-no-kvm-intx=on".toList := by simp
  refine (toList_append₃ _ dev _).trans ?_
  rw [hopen, hclose]
  -- The literals stay closed from here on.
  generalize " -device vfio-pci".toList = a
  generalize "host=".toList = b
  generalize "x-no-kvm-intx=on".toList = c
  simp only [List.append_assoc, List.cons_append]

/-- A piece that does not start with `host=` ends the search for this argument. -/
theorem hostArgs_skip (p : List Char) {c : Char} (hc : c ≠ 'h') (hsep : c ≠ ',') (cs : List Char) :
    hostArgs (p :: (c :: cs).splitOn ',') = hostArgs ((c :: cs).splitOn ',') := by
  have hhost : "host=".toList = 'h' :: "ost=".toList := by simp
  rw [List.splitOn_cons_eq_if_modifyHead, if_neg (by simpa using hsep)]
  obtain ⟨q, rest, hq⟩ := List.exists_cons_of_ne_nil (List.splitOn_ne_nil ',' cs)
  rw [hq, List.modifyHead_cons, hostArgs, if_neg]
  rw [hhost, List.isPrefixOf_cons_cons]
  simp [Ne.symm hc]

/-- The devices are read back from the arguments written for them. -/
theorem hostArgs_devices {pre : List Char} {devs : List String} (hpre : ',' ∉ pre) (hdevs : ∀ d ∈ devs, ',' ∉ d.toList) :
    hostArgs ((pre ++ (deviceArgs devs).toList).splitOn ',') = devs := by
  induction devs generalizing pre with
  | nil =>
    have hnil : (deviceArgs []).toList = [] := rfl
    rw [hnil, List.append_nil, List.splitOn_eq_singleton hpre]
    rfl
  | cons dev devs ih =>
    obtain ⟨hdev, hdevs⟩ := List.forall_mem_cons.1 hdevs
    have hon : ',' ∉ "x-no-kvm-intx=on".toList := by simp
    have hrest := ih hon hdevs
    have hclose : "x-no-kvm-intx=on".toList = 'x' :: "-no-kvm-intx=on".toList := by simp
    have hhost : ',' ∉ "host=".toList := by simp
    have hopen : ',' ∉ " -device vfio-pci".toList := by simp
    have hdevice : "vfio-pci".toList <:+ " -device vfio-pci".toList := ⟨" -device ".toList, by simp⟩
    have hfirst : ',' ∉ pre ++ " -device vfio-pci".toList := by
      simp only [List.mem_append, hpre, hopen, or_self, not_false_iff]
    have hsecond : ',' ∉ "host=".toList ++ dev.toList := by
      simp only [List.mem_append, hhost, hdev, or_self, not_false_iff]
    rw [deviceArgs, String.toList_append, toList_deviceArg]
    simp only [List.append_assoc, List.cons_append]
    rw [← List.append_assoc pre, List.splitOn_append_cons_self_of_not_mem hfirst,
      ← List.append_assoc "host=".toList, List.splitOn_append_cons_self_of_not_mem hsecond, hostArgs, if_pos]
    · rw [hclose, List.cons_append, hostArgs_skip _ (by decide) (by decide), ← List.cons_append, ← hclose, hrest]
      have hlen : "host=".toList.length = 5 := by simp
      rw [← hlen, List.drop_left, String.ofList_toList]
    · rw [Bool.and_eq_true, List.isSuffixOf_iff_suffix, List.isPrefixOf_iff_prefix]
      exact ⟨hdevice.trans (List.suffix_append _ _), List.prefix_append _ _⟩

theorem mem_ptTokens {cfg : CivConfig} {dev : String} (h : dev ∈ ptTokens cfg) : ',' ∉ dev.toList := by
  unfold ptTokens at h
  dsimp only at h
  split at h
  · cases h
  · obtain ⟨token, htoken, rfl⟩ := List.mem_map.1 h
    obtain ⟨ds, hds, rfl⟩ := List.mem_map.1 htoken
    have hsub : trimList ds ⊆ ds := by
      rw [trimList_eq]
      exact List.Subset.trans (List.rdropWhile_prefix _ _).subset (List.dropWhile_suffix _).subset
    intro hc
    rw [trim, String.toList_ofList, String.toList_ofList] at hc
    exact splitOn_not_mem ds hds (hsub hc)

/-! ## What the two steps write -/

section
variable (h : Host κ)

theorem passthroughDevs_calls (devs : List String) (vb : VmBuilderQemu) (w : World κ) :
    w.pciCalls <+: (passthroughDevs h devs vb w).2.pciCalls := by
  induction devs generalizing vb w with
  | nil => exact List.prefix_rfl
  | cons dev devs ih =>
    have hpre : w.pciCalls <+: (w.pci h dev .passthrough).2.pciCalls := by
      rw [pci_calls]
      exact List.prefix_append _ _
    rw [passthroughDevs]
    split <;> rename_i w' he <;> rw [he] at hpre
    · exact hpre.trans (ih _ _)
    · exact hpre.trans (ih _ _)

/-- A loop in which every device is granted: each is in the set and has its
argument. -/
theorem passthroughDevs_granted (devs : List String) (vb : VmBuilderQemu) (w : World κ)
    (hall : ∀ c ∈ (passthroughDevs h devs vb w).2.pciCalls, c.ret = true) :
    (passthroughDevs h devs vb w).1.emulCmd = vb.emulCmd ++ deviceArgs devs ∧
      ∀ f, f ∈ (passthroughDevs h devs vb w).1.pciPtDevSet ↔ f ∈ vb.pciPtDevSet ∨ f ∈ devs := by
  induction devs generalizing vb w with
  | nil => exact ⟨(String.append_empty).symm, fun f => by simp [passthroughDevs]⟩
  | cons dev devs ih =>
    have hcall : ⟨dev, .passthrough, (w.pci h dev .passthrough).1⟩ ∈ (w.pci h dev .passthrough).2.pciCalls := by
      rw [pci_calls]
      exact List.mem_append_right _ (List.mem_singleton.2 rfl)
    rw [passthroughDevs] at hall ⊢
    split <;> rename_i w' he <;> rw [he] at hcall hall <;> dsimp only at hcall hall
    · obtain ⟨hcmd, hset⟩ := ih _ _ hall
      refine ⟨?_, fun f => ?_⟩
      · rw [hcmd, deviceArgs, ← String.append_assoc]
        rfl
      · rw [hset, List.mem_cons, ← or_assoc]
        refine or_congr_left ?_
        exact mem_insertDev.trans or_comm
    · cases hall _ ((passthroughDevs_calls h devs vb w').subset hcall)

/-- `BuildPtPciDevicesCmd` when every device is granted. -/
theorem buildPtPciDevicesCmd_granted (vb : VmBuilderQemu) (w : World κ) : ∃ vb' w',
    buildPtPciDevicesCmd h vb w = .ok vb' w' ∧
      ((∀ c ∈ w'.pciCalls, c.ret = true) → vb'.emulCmd = vb.emulCmd ++ deviceArgs (ptTokens vb.cfg) ∧
        ∀ f, f ∈ vb'.pciPtDevSet ↔ f ∈ vb.pciPtDevSet ∨ f ∈ ptTokens vb.cfg) := by
  unfold buildPtPciDevicesCmd ptTokens value
  dsimp only
  split
  · exact ⟨vb, w, rfl, fun _ => ⟨(String.append_empty).symm, fun f => by simp⟩⟩
  · exact ⟨_, _, rfl, passthroughDevs_granted h _ vb _⟩

/-- The text that the `GVT-d` branch writes. -/
def gvtdText : String := " -vga none -nographic" ++
  " -device vfio-pci,host=00:02.0,x-igd-gms=2,id=hostdev0,bus=pcie.0,addr=0x2,x-igd-opregion=on" ++ " -display none"

theorem soundCardHook_same (vb : VmBuilderQemu) (w : World κ) :
    (vb.soundCardHook h w).1.emulCmd = vb.emulCmd ∧ (vb.soundCardHook h w).1.pciPtDevSet = vb.pciPtDevSet := by
  unfold soundCardHook
  dsimp only
  split
  · split
    · exact ⟨rfl, rfl⟩
    · exact ⟨rfl, rfl⟩
  · exact ⟨rfl, rfl⟩

theorem buildGvtd_granted {vb vb' : VmBuilderQemu} {w w' : World κ} (hok : buildGvtd h vb w = .ok vb' w') :
    vb'.emulCmd = vb.emulCmd ++ gvtdText ∧ ∀ f, f ∈ vb'.pciPtDevSet ↔ f = kIntelGpuBdf ∨ f ∈ vb.pciPtDevSet := by
  obtain ⟨hcmd, hset⟩ := soundCardHook_same h vb w
  unfold buildGvtd passthroughGpu at hok
  dsimp only at hok
  generalize vb.soundCardHook h w = r at hok hcmd hset
  cases hg : (r.2.pci h kIntelGpuBdf .passthrough).1 with
  | false =>
    rw [hg] at hok
    cases hok
  | true =>
    rw [hg] at hok
    cases hok
    refine ⟨?_, fun f => ?_⟩
    · rw [← hcmd]
      rfl
    · rw [← hset]
      exact mem_insertDev

/-! ## A whole build -/

/-- The argument of `GVT-d` leaves out the PCI domain of the GPU. -/
def gpuFunction (s : String) : String := if s = "00:02.0" then kIntelGpuBdf else s

/-- These are the functions in the `vfio-pci,host=` arguments that `GVT-d` and
`BuildPtPciDevicesCmd` write in the build. -/
def WritesFunctions (vb : VmBuilderQemu) (w : World κ) (fns : List String) : Prop :=
  ∃ vb1 w1 vb2 w2 vb3 w3 vb4 w4 vgpuText ptText,
    runSteps (stepsBeforeVgpu h) vb w = .ok vb1 w1 ∧
    buildVgpuCmd h vb1 w1 = .ok vb2 w2 ∧ vb2.emulCmd = vb1.emulCmd ++ vgpuText ∧
    runSteps stepsBeforePtPci vb2 w2 = .ok vb3 w3 ∧
    buildPtPciDevicesCmd h vb3 w3 = .ok vb4 w4 ∧ vb4.emulCmd = vb3.emulCmd ++ ptText ∧
    fns = (if vb.value kGroupVgpu kVgpuType = kVgpuGvtD then (hostFunctions vgpuText).map gpuFunction else []) ++
      hostFunctions ptText

/-- The GPU with `GVT-d`, and the devices of the list. -/
def requested (cfg : CivConfig) : List String :=
  (if cfg.getValue kGroupVgpu kVgpuType = kVgpuGvtD then [kIntelGpuBdf] else []) ++ ptTokens cfg

/-- Up to `BuildPtPciDevicesCmd`, only the GPU of `GVT-d` can be in the set. -/
theorem buildVgpuCmd_granted {vb vb' : VmBuilderQemu} {w w' : World κ} (hok : buildVgpuCmd h vb w = .ok vb' w')
    (hn : vb.pciPtDevSet = []) : SameVm vb vb' ∧ ∃ text, vb'.emulCmd = vb.emulCmd ++ text ∧
      (if vb.value kGroupVgpu kVgpuType = kVgpuGvtD then (hostFunctions text).map gpuFunction else []) =
        (if vb.value kGroupVgpu kVgpuType = kVgpuGvtD then [kIntelGpuBdf] else []) ∧
      ∀ f, f ∈ vb'.pciPtDevSet ↔ f ∈ if vb.value kGroupVgpu kVgpuType = kVgpuGvtD then [kIntelGpuBdf] else [] := by
  have hends : (buildVgpuCmd h vb w).Ends vb' w' := hok ▸ .ok vb' w'
  refine ⟨((buildVgpuCmd_cidKept h vb w).of_ends hends).same, ?_⟩
  by_cases htype : vb.value kGroupVgpu kVgpuType = kVgpuGvtD
  · have hfn : (hostFunctions gvtdText).map gpuFunction = [kIntelGpuBdf] := by decide +kernel
    rw [buildVgpuCmd_gvtd h vb w htype] at hok
    obtain ⟨hcmd, hset⟩ := buildGvtd_granted h hok
    refine ⟨gvtdText, hcmd, ?_, fun f => ?_⟩
    · rw [if_pos htype, if_pos htype, hfn]
    · rw [hset, hn, if_pos htype]
      simp
  · have hquiet := (buildVgpuCmd_quiet h vb w htype).of_ends hends
    have hwrites := buildVgpuCmd_writes h vb w
    rw [hok] at hwrites
    obtain ⟨⟨-, text, hcmd⟩, -⟩ := hwrites
    refine ⟨text, hcmd, ?_, fun f => ?_⟩
    · rw [if_neg htype, if_neg htype]
    · rw [hquiet.plain.devs.devs, hn, if_neg htype]

/-- The functions that a build writes are those asked for, and so is its set. -/
theorem writesFunctions_requested {vb vb' : VmBuilderQemu} {w w' : World κ} (hn : vb.pciPtDevSet = [])
    (hok : buildVmArgs h vb w = .ok vb' w') (hall : ∀ c ∈ w'.pciCalls, c.ret = true) :
    WritesFunctions h vb w (requested vb.cfg) ∧ ∀ f, f ∈ vb'.pciPtDevSet ↔ f ∈ requested vb.cfg := by
  obtain ⟨vb3, w3, hfront, htail⟩ := runSteps_append_ok hok
  obtain ⟨vb1, w1, hpre, hmid⟩ := runSteps_append_ok hfront
  obtain ⟨vb2, w2, hvgpu, hbetween⟩ := runSteps_cons_ok hmid
  obtain ⟨vb4, w4, hpt, hlast⟩ := runSteps_cons_ok htail
  -- Before `BuildVgpuCmd` nothing is taken.
  have hplain : Plain vb vb1 := by
    rcases stepsBeforeVgpu_cases h vb w with ⟨-, vb1', hp, he⟩ | ⟨-, vb1', hp, he⟩
    · rw [he] at hpre
      cases hpre
      exact hp
    · rw [he] at hpre
      cases hpre
  obtain ⟨hsame2, vgpuText, hcmd2, hfns, hset2⟩ := buildVgpuCmd_granted h hvgpu (hplain.devs.devs.trans hn)
  rw [hplain.same.value] at hfns hset2
  have hmid3 : SameVm vb2 vb3 ∧ SameDevs vb2 vb3 := by
    obtain ⟨vb3', w3', hs, hd, -, ⟨-, he⟩ | ⟨-, he⟩⟩ := stepsBeforePtPci_cases vb2 w2
    · rw [he] at hbetween
      cases hbetween
      exact ⟨hs, hd⟩
    · rw [he] at hbetween
      cases hbetween
  have hcfg : vb3.cfg = vb.cfg := (hplain.same.trans (hsame2.trans hmid3.1)).cfg
  -- After `BuildPtPciDevicesCmd` the set and the calls stay.
  rw [runSteps_always] at hlast
  have hquiet : Quiet vb4.setPciDevicesCallback w4 vb' w' :=
    (runSteps_all Quiet.refl Quiet.trans (stepsAfterCallback_quiet h) vb4.setPciDevicesCallback w4).of_ends
      (hlast ▸ .ok vb' w')
  have hset' : vb'.pciPtDevSet = vb4.pciPtDevSet := by
    rw [hquiet.plain.devs.devs, setPciDevicesCallback]
    split <;> rfl
  obtain ⟨vb4', w4', he, hgranted⟩ := buildPtPciDevicesCmd_granted h vb3 w3
  rw [he] at hpt
  cases hpt
  obtain ⟨hcmd4, hset4⟩ := hgranted (hquiet.calls ▸ hall)
  rw [hcfg] at hcmd4 hset4
  refine ⟨⟨vb1, w1, vb2, w2, vb3, w3, vb4, w4, vgpuText, deviceArgs (ptTokens vb.cfg), hpre, hvgpu, hcmd2, hbetween, he,
    hcmd4, ?_⟩, fun f => ?_⟩
  · rw [hfns, hostFunctions, ← List.nil_append (deviceArgs (ptTokens vb.cfg)).toList,
      hostArgs_devices List.not_mem_nil fun d hd => mem_ptTokens hd]
    rfl
  · rw [hset', hset4, hmid3.2.devs, hset2, requested, List.mem_append]
    rfl

/-- Each function is written once, and the set is what is written, exactly when
the config asks for no function twice. -/
theorem functions_once_iff (uid : Nat) (name : String) (cfg : CivConfig) (pool : VsockCidPool) (socketPath : String)
    (kernel : κ) (vb' : VmBuilderQemu) (w' : World κ)
    (hok : buildVmArgs h { uid, name, cfg } { pool, socketPath, kernel } = .ok vb' w')
    (hall : ∀ c ∈ w'.pciCalls, c.ret = true) :
    ∃ fns, WritesFunctions h { uid, name, cfg } { pool, socketPath, kernel } fns ∧
      ((fns.Nodup ∧ ∀ f, f ∈ fns ↔ f ∈ vb'.pciPtDevSet) ↔ (requested cfg).Nodup) := by
  obtain ⟨hw, hset⟩ := writesFunctions_requested h rfl hok hall
  exact ⟨requested cfg, hw, fun hp => hp.1, fun hn => ⟨hn, fun f => (hset f).symm⟩⟩

end

/-- The builder and the world after a build that returned true. -/
def Outcome.success : Outcome κ → Option (VmBuilderQemu × World κ)
  | .ok vb w => some (vb, w)
  | _ => none

theorem Outcome.eq_ok_of_success {o : Outcome κ} {vb : VmBuilderQemu} {w : World κ} (h : o.success = some (vb, w)) :
    o = .ok vb w := by
  cases o <;> cases h
  rfl

/-- A host with the two vfio modules and a device that no driver holds. -/
def nicHost : Host Unit :=
  stillHost [] [(kVfioModulePath, []), (kVfioPciModulePath, []),
    (kPciDevicePath ++ "0000:03:00.0" ++ "/iommu_group/devices", ["0000:03:00.0"])]

/-- A config with a list of devices. -/
def nicConfig (devs : String) : CivConfig :=
  ⟨[{ name := kGroupGlob, entries := [(kGlobName, "vm")] }, { name := kGroupPciPt, entries := [(kPciPtDev, devs)] },
    { name := kGroupFirm, entries := [(kFirmType, "unified")] }]⟩

/-- The GPU is free as well. -/
def gpuNicHost : Host Unit :=
  stillHost [] [(kVfioModulePath, []), (kVfioPciModulePath, []),
    (kPciDevicePath ++ kIntelGpuBdf ++ "/iommu_group/devices", [kIntelGpuBdf]),
    (kPciDevicePath ++ "0000:03:00.0" ++ "/iommu_group/devices", ["0000:03:00.0"])]

/-- The GPU with `GVT-d`, and a device of the list. -/
def gpuNicConfig : CivConfig :=
  ⟨{ name := kGroupVgpu, entries := [(kVgpuType, kVgpuGvtD)] } :: (nicConfig "0000:03:00.0").cfgData⟩

theorem functions_once_gpu : ∃ vb' w',
    buildVmArgs gpuNicHost { uid := 0, name := "vm", cfg := gpuNicConfig } { kernel := () } = .ok vb' w' ∧
      requested gpuNicConfig = ["0000:00:02.0", "0000:03:00.0"] ∧
      ∃ fns, WritesFunctions gpuNicHost { uid := 0, name := "vm", cfg := gpuNicConfig } { kernel := () } fns ∧
        fns.Nodup ∧ ∀ f, f ∈ fns ↔ f ∈ vb'.pciPtDevSet := by
  have hcalls : (buildVmArgs gpuNicHost { uid := 0, name := "vm", cfg := gpuNicConfig }
      { kernel := () }).success.map (·.2.pciCalls) =
      some [⟨"0000:00:02.0", .passthrough, true⟩, ⟨"0000:03:00.0", .passthrough, true⟩] := by decide +kernel
  obtain ⟨⟨vb', w'⟩, hb, hcalls⟩ := Option.map_eq_some_iff.1 hcalls
  have hok := Outcome.eq_ok_of_success hb
  have hreq : requested gpuNicConfig = ["0000:00:02.0", "0000:03:00.0"] := by decide +kernel
  obtain ⟨fns, hw, hiff⟩ := functions_once_iff gpuNicHost 0 "vm" _ {} "" () vb' w' hok (by
    dsimp only at hcalls
    rw [hcalls]
    simp)
  exact ⟨vb', w', hok, hreq, fns, hw, hiff.2 (by rw [hreq]; decide)⟩

/-- A device that the list names twice has two arguments, and both times it was
granted. -/
theorem function_twice : ∃ vb' w',
    buildVmArgs nicHost { uid := 0, name := "vm", cfg := nicConfig "0000:03:00.0, 0000:03:00.0" } { kernel := () } =
      .ok vb' w' ∧ (∀ c ∈ w'.pciCalls, c.ret = true) ∧
      WritesFunctions nicHost { uid := 0, name := "vm", cfg := nicConfig "0000:03:00.0, 0000:03:00.0" } { kernel := () }
        ["0000:03:00.0", "0000:03:00.0"] ∧
      ¬ ["0000:03:00.0", "0000:03:00.0"].Nodup := by
  have hcalls : (buildVmArgs nicHost { uid := 0, name := "vm", cfg := nicConfig "0000:03:00.0, 0000:03:00.0" }
      { kernel := () }).success.map (·.2.pciCalls) =
      some [⟨"0000:03:00.0", .passthrough, true⟩, ⟨"0000:03:00.0", .passthrough, true⟩] := by decide +kernel
  obtain ⟨⟨vb', w'⟩, hb, hcalls⟩ := Option.map_eq_some_iff.1 hcalls
  have hok := Outcome.eq_ok_of_success hb
  have hall : ∀ c ∈ w'.pciCalls, c.ret = true := by
    dsimp only at hcalls
    rw [hcalls]
    simp
  have hreq : requested (nicConfig "0000:03:00.0, 0000:03:00.0") = ["0000:03:00.0", "0000:03:00.0"] := rfl
  refine ⟨vb', w', hok, hall, ?_, by simp⟩
  rw [← hreq]
  exact (writesFunctions_requested nicHost rfl hok hall).1

end VmManager
