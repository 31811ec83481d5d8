import Mathlib.Data.List.Sort
import Mathlib.Data.String.Basic
import VmManager.Aaf
import VmManager.CidPool
import VmManager.Config
import VmManager.Message
import VmManager.Passthrough
import VmManager.Process
/-!
# Building and stopping a VM (`guest/vm_builder_qemu.cc`)

`BuildVmArgs` is a list of steps, one for each `Build…` function it calls, run
until one of them says no. A step works on the builder and on the world the
builders share: the cid pool, a static variable and the host.
-/
open Text

namespace VmManager

/-- A cleanup queued in `end_call_`. -/
inductive EndCall
  /-- Probes `snd-sof-pci-intel-tgl` again. -/
  | probeSound
  /-- Removes the file that `socketPath` names when the cleanup runs. -/
  | removeSocket
  /-- Restores the devices of `pci_pt_dev_set_`. -/
  | restorePci
  deriving DecidableEq, Repr

/-- `VmBuilderQemu`. `uid` stands for the address of the object; `stopped`
records that `StopVm` has run. -/
structure VmBuilderQemu where
  uid : Nat
  name : String
  cfg : CivConfig
  vsockCid : Nat := 0
  state : VmState := .empty
  aafCfg : Option Aaf := none
  mainProc : Option VmProcess := none
  coProcs : List VmProcess := []
  emulCmd : String := ""
  /-- `pci_pt_dev_set_`, in the order of the set. -/
  pciPtDevSet : List String := []
  /-- `end_call_`, the front first. -/
  endCall : List EndCall := []
  stopped : Bool := false
  deriving DecidableEq, Repr

/-- One call of `PassthroughOnePciDev` and what it returned. -/
structure PciCall where
  dev : String
  action : PciPassthroughAction
  ret : Bool
  deriving DecidableEq, Repr

/-- What all builders share. `pciCalls` records the calls of
`PassthroughOnePciDev` and `removals` the paths that the cleanups of
`BuildExtraGuestPmCtrlCmd` have removed, the first one first. -/
structure World (κ : Type) where
  pool : VsockCidPool := {}
  /-- The `static` of `BuildExtraGuestPmCtrlCmd`. -/
  socketPath : String := ""
  pciCalls : List PciCall := []
  removals : List String := []
  kernel : κ

/-- How a step of `BuildVmArgs` ends: it returns true or false, throws, or
never returns. -/
inductive Outcome (κ : Type)
  | ok (vb : VmBuilderQemu) (w : World κ)
  | failed (vb : VmBuilderQemu) (w : World κ)
  | threw (e : Exn) (vb : VmBuilderQemu) (w : World κ)
  | hung (w : World κ)

variable {κ : Type}

abbrev Step (κ : Type) := VmBuilderQemu → World κ → Outcome κ

/-- A `Build…` function that only looks at the host and cannot fail. -/
def always (f : κ → VmBuilderQemu → VmBuilderQemu) : Step κ := fun vb w => .ok (f w.kernel vb) w

/-- A `Build…` function that only looks at the host and returns a `bool`. -/
def checked (f : κ → VmBuilderQemu → Bool × VmBuilderQemu) : Step κ := fun vb w =>
  match f w.kernel vb with
  | (true, vb) => .ok vb w
  | (false, vb) => .failed vb w

/-- The actions on the host, in the world. -/
def World.onKernel {α : Type} (w : World κ) (m : StateM κ α) : α × World κ :=
  let r := m.run w.kernel
  (r.1, { w with kernel := r.2 })

/-- `PassthroughOnePciDev`, recorded. -/
def World.pci (h : Host κ) (w : World κ) (dev : String) (action : PciPassthroughAction) : Bool × World κ :=
  let r := w.onKernel (passthroughOnePciDev h dev action)
  (r.1, { r.2 with pciCalls := w.pciCalls ++ [⟨dev, action, r.1⟩] })

/-- `boost::filesystem::remove` in a cleanup, recorded. -/
def World.remove (h : Host κ) (w : World κ) (path : String) : World κ :=
  { w with kernel := h.remove w.kernel path, removals := w.removals ++ [path] }

namespace VmBuilderQemu

variable (h : Host κ) (k : κ) (vb : VmBuilderQemu)

def value (group key : String) : String := vb.cfg.getValue group key

def append (s : String) : VmBuilderQemu := { vb with emulCmd := vb.emulCmd ++ s }

def addProc (kind : ProcKind) : VmBuilderQemu := { vb with coProcs := vb.coProcs ++ [{ kind }] }

/-- `aaf_cfg_->Set`, where there is an `aaf_cfg_`. -/
def setAaf (key val : String) : VmBuilderQemu := { vb with aafCfg := vb.aafCfg.map (·.set key val) }

/-- `pci_pt_dev_set_.insert`. -/
def insertDev (dev : String) : VmBuilderQemu :=
  { vb with pciPtDevSet := if dev ∈ vb.pciPtDevSet then vb.pciPtDevSet
                           else vb.pciPtDevSet.orderedInsert (· ≤ ·) dev }

def queue (c : EndCall) : VmBuilderQemu := { vb with endCall := vb.endCall ++ [c] }

/-! ## The steps, in the order of `BuildVmArgs` -/

def buildEmulPath : Bool × VmBuilderQemu :=
  let strEmulPath := vb.value kGroupEmul kEmulPath
  let emulPath :=
    if h.pathExists k strEmulPath then h.absolute k strEmulPath
    else h.searchPath k (if strEmulPath.isEmpty then "qemu-system-x86_64" else strEmulPath)
  if emulPath.isEmpty then (false, vb) else (true, { vb with emulCmd := emulPath })

def buildNameQmp : Bool × VmBuilderQemu :=
  let vmName := trim (vb.value kGroupGlob kGlobName)
  if vmName.isEmpty then (false, { vb with emulCmd := "" })
  else
    let vb := vb.append (" -name " ++ vmName)
    (true, vb.append (" -qmp unix:" ++ h.configPath ++ "/." ++ (split ',' vmName).headD "" ++
      ".qmp.unix.socket,server,nowait"))

def buildRpmbCmd : VmBuilderQemu :=
  let rpmbBin := vb.value kGroupRpmb kRpmbBinPath
  let rpmbData := vb.value kGroupRpmb kRpmbDataDir
  let rpmbSock := kRpmbSockPrefix ++ h.strftime k "%Y-%m-%d_%T"
  if !rpmbBin.isEmpty && !rpmbData.isEmpty then
    (vb.append (" -device virtio-serial,addr=1" ++
      " -device virtserialport,chardev=rpmb0,name=rpmb0,nr=1" ++
      " -chardev socket,id=rpmb0,path=" ++ rpmbSock)).addProc (.rpmb rpmbBin rpmbData rpmbSock)
  else vb

def buildDispCmd : VmBuilderQemu :=
  let dispOp := vb.value kGroupDisplay kDispOptions
  if dispOp.isEmpty then vb.append " -display gtk,gl=on" else vb.append (" -display " ++ dispOp)

def initAafCfg : VmBuilderQemu :=
  let aafPath := vb.value kGroupAaf kAafPath
  if aafPath.isEmpty then vb else { vb with aafCfg := some { path := aafPath } }

/-- `SoundCardHook`. -/
def soundCardHook (w : World κ) : VmBuilderQemu × World κ :=
  let (code, k) := h.system w.kernel "ls /proc/asound/sofhdadsp"
  if code = 0 then
    let (code, k) := h.system k "modprobe -r snd-sof-pci-intel-tgl"
    (if code = 0 then vb.queue .probeSound else vb, { w with kernel := k })
  else (vb, { w with kernel := k })

/-- `PassthroughGpu`. -/
def passthroughGpu (w : World κ) : Bool × VmBuilderQemu × World κ :=
  let (ret, w) := w.pci h kIntelGpuBdf .passthrough
  (ret, if ret then vb.insertDev kIntelGpuBdf else vb, w)

/-- `CreateGvtgVgpu`. -/
def createGvtgVgpu : StateM κ Bool := do
  let gvtgCreate := kGvtgMdevTypePath ++ vb.value kGroupVgpu kVgpuGvtgVer ++ "/create"
  return (← writeSysFile h gvtgCreate (vb.value kGroupVgpu kVgpuUuid)) = 0

def setupSriov (w : World κ) : Bool × VmBuilderQemu × World κ :=
  let vgpuMonId := vb.value kGroupVgpu kVgpuMonId
  let vb :=
    if vgpuMonId.isEmpty then vb.append " -display gtk,gl=on"
    else vb.append (" -display gtk,gl=on,monitor=" ++ vgpuMonId)
  let memSize := trim (vb.value kGroupMem kMemSize)
  let (ok, w) := w.onKernel (setupHugePages h memSize)
  if !ok then (false, vb, w)
  else
    let (vf, w) := w.onKernel (setAvailableVf h)
    if vf < 0 then (false, vb, w)
    else
      (true, vb.append (" -device virtio-vga,max_outputs=1,blob=true" ++
        " -device vfio-pci,host=0000:00:02." ++ toString vf ++
        " -object memory-backend-memfd,hugetlb=on,id=mem_sriov,size=" ++ memSize ++
        " -machine memory-backend=mem_sriov"), w)

/-- The `GVT-g` branch of `BuildVgpuCmd`. -/
def buildGvtg : Step κ := fun vb w =>
  let vgpuUuid := vb.value kGroupVgpu kVgpuUuid
  if vgpuUuid.isEmpty then .failed vb w
  else if !h.isUuid vgpuUuid then .failed vb w
  else
    let (ok, w) := w.onKernel (vb.createGvtgVgpu h)
    if !ok then .failed vb w
    else
      .ok ((vb.append (" -device vfio-pci-nohotplug,ramfb=on,display=on,addr=2.0,x-igd-opregion=on,sysfsdev=" ++
        kIntelGpuDevPath ++ vgpuUuid)).setAaf kAafKeyGpuType "gvtg") w

/-- The `GVT-d` branch. -/
def buildGvtd : Step κ := fun vb w =>
  let (vb, w) := vb.soundCardHook h w
  match vb.passthroughGpu h w with
  | (false, vb, w) => .failed vb w
  | (true, vb, w) =>
    .ok ((vb.append (" -vga none -nographic" ++
      " -device vfio-pci,host=00:02.0,x-igd-gms=2,id=hostdev0,bus=pcie.0,addr=0x2,x-igd-opregion=on" ++
      " -display none")).setAaf kAafKeyGpuType "gvtd") w

/-- The `virtio` branch. Nothing catches what `std::stoi` throws. -/
def buildVirtio : Step κ := fun vb w =>
  let vb := vb.append " -device virtio-vga-gl"
  let outputs := vb.value kGroupVgpu kVgpuOutputs
  if outputs.isEmpty then .ok (vb.setAaf kAafKeyGpuType "virtio") w
  else
    match stoi 10 outputs with
    | .error e => .threw (.stoi e) vb w
    | .ok (_, pos) =>
      let vb := if pos = outputs.length then vb.append (",max_outputs=" ++ outputs) else vb
      .ok (vb.setAaf kAafKeyGpuType "virtio") w

/-- The `SRIOV` branch. -/
def buildSriov : Step κ := fun vb w =>
  match vb.setupSriov h w with
  | (false, vb, w) => .failed vb w
  | (true, vb, w) => .ok (vb.setAaf kAafKeyGpuType "sriov") w

def buildVgpuCmd : Step κ := fun vb w =>
  let vgpuType := vb.value kGroupVgpu kVgpuType
  if vgpuType.isEmpty then .ok vb w
  else if vgpuType = kVgpuGvtG then buildGvtg h vb w
  else if vgpuType = kVgpuGvtD then buildGvtd h vb w
  else if vgpuType = kVgpuVirtio then buildVirtio vb w
  else if vgpuType = kVgpuRamfb then .ok (vb.append " -device ramfb") w
  else if vgpuType = kVgpuVirtio2D then .ok ((vb.append " -device virtio-vga").setAaf kAafKeyGpuType "virtio") w
  else if vgpuType = kVgpuSriov then buildSriov h vb w
  else .failed vb w

def buildVinputCmd : VmBuilderQemu :=
  let vgpuType := vb.value kGroupVgpu kVgpuType
  let vinput := vb.value kGroupService kServVinput
  let buttons := " -device virtio-input-host-pci,evdev=/dev/input/by-id/Power-Button-vm0" ++
    " -device virtio-input-host-pci,evdev=/dev/input/by-id/Volume-Button-vm0" ++
    " -device virtio-input-host-pci,evdev=/dev/input/by-id/Other-Button-vm0"
  if vinput.isEmpty then vb
  else if vgpuType = kVgpuGvtD then
    (vb.append (" -qmp unix:./qmp-vinput-sock,server,nowait" ++ buttons)).addProc (.simple (vinput ++ " --gvtd"))
  else (vb.append buttons).addProc (.simple vinput)

/-- What `BuildAafCfg` makes of `support_suspend`: a setting, no setting, or an
error. -/
def aafSuspend (s : String) : Option (Option String) :=
  if s.isEmpty then some none
  else if s = "true" ∨ s = "enable" then some (some "true")
  else if s = "false" ∨ s = "disable" then some (some "false")
  else none

def buildAafCfg : Bool × VmBuilderQemu :=
  let aafPath := vb.value kGroupAaf kAafPath
  if aafPath.isEmpty then (true, vb)
  else
    match aafSuspend (vb.value kGroupAaf kAafSuspend) with
    | none => (false, vb)
    | some s =>
      let vb := s.elim vb (vb.setAaf kAafKeySuspend ·)
      let audioType := vb.value kGroupAaf kAafAudioType
      let vb := if audioType.isEmpty then vb else vb.setAaf kAafKeyAudioType audioType
      (true, vb.append (" -virtfs local,mount_tag=aaf,security_model=none,path=" ++ aafPath))

def buildNetCmd : VmBuilderQemu :=
  let model := vb.value kGroupNet kNetModel
  let model := if model.isEmpty then "e1000" else model
  if model = "none" then vb
  else
    let adbPort := vb.value kGroupNet kNetAdbPort
    let fbPort := vb.value kGroupNet kNetFastbootPort
    let netArg := " -netdev user,id=net0" ++
      (if adbPort.isEmpty then "" else ",hostfwd=tcp::" ++ adbPort ++ "-:5555") ++
      (if fbPort.isEmpty then "" else ",hostfwd=tcp::" ++ fbPort ++ "-:5554")
    (vb.append netArg).append (" -device " ++ model ++ ",netdev=net0,bus=pcie.0,addr=0xA")

/-- The acquisition in `BuildVsockCmd`; `none` for a text that `std::stoul`
does not take. The parameter of `GetCid` has 32 bits. -/
def acquireCid (strCid : String) (pool : VsockCidPool) : Option (Nat × VsockCidPool) :=
  if strCid.isEmpty then some pool.getCid
  else
    match stoul strCid with
    | .error _ => none
    | .ok n => some (pool.getCidOf (n % 2 ^ 32))

def buildVsockCmd : Step κ := fun vb w =>
  match acquireCid (vb.value kGroupGlob kGlobCid) w.pool with
  | none => .failed { vb with emulCmd := "" } w
  | some (cid, pool) =>
    let vb := { vb with vsockCid := cid }
    let w := { w with pool }
    if cid = 0 then .failed { vb with emulCmd := "" } w
    else
      .ok (vb.append (" -device vhost-vsock-pci,id=vhost-vsock-pci0,bus=pcie.0,addr=0x10,guest-cid=" ++
        toString cid)) w

def buildVtpmCmd : VmBuilderQemu :=
  let vtpmBin := vb.value kGroupVtpm kVtpmBinPath
  let vtpmData := vb.value kGroupVtpm kVtpmDataDir
  if !vtpmBin.isEmpty && !vtpmData.isEmpty then
    (vb.append (" -chardev socket,id=chrtpm,path=" ++ vtpmData ++ "/" ++ kVtpmSock ++
      " -tpmdev emulator,id=tpm0,chardev=chrtpm -device tpm-crb,tpmdev=tpm0")).addProc (.vtpm vtpmBin vtpmData)
  else vb

def buildMemCmd : VmBuilderQemu := vb.append (" -m " ++ vb.value kGroupMem kMemSize)

def buildVcpuCmd : VmBuilderQemu := vb.append (" -smp " ++ vb.value kGroupVcpu kVcpuNum)

def buildFirmwareCmd : Bool × VmBuilderQemu :=
  let firmType := vb.value kGroupFirm kFirmType
  if firmType.isEmpty then (false, vb)
  else if firmType = kFirmUnified then
    (true, vb.append (" -drive if=pflash,format=raw,file=" ++ vb.value kGroupFirm kFirmPath))
  else if firmType = kFirmSplited then
    (true, (vb.append (" -drive if=pflash,format=raw,readonly,file=" ++ vb.value kGroupFirm kFirmCode)).append
      (" -drive if=pflash,format=raw,file=" ++ vb.value kGroupFirm kFirmVars))
  else (false, vb)

def buildVdiskCmd : VmBuilderQemu :=
  vb.append (" -drive file=" ++ vb.value kGroupDisk kDiskPath ++
    ",if=none,id=disk1,discard=unmap,detect-zeroes=unmap" ++ " -device virtio-blk-pci,drive=disk1,bootindex=1")

/-- `BringDownBtHciIntf`. -/
def bringDownBtHciIntf (w : World κ) : World κ :=
  if trim (vb.value kGroupbluetooth kHciDown) = "true" then
    { w with kernel := (h.system w.kernel "sudo hciconfig hci0 down").2 }
  else w

/-- The loop of `BuildPtPciDevicesCmd`. -/
def passthroughDevs : List String → VmBuilderQemu → World κ → VmBuilderQemu × World κ
  | [], vb, w => (vb, w)
  | dev :: devs, vb, w =>
    match w.pci h dev .passthrough with
    | (true, w) =>
      passthroughDevs devs ((vb.insertDev dev).append (" -device vfio-pci,host=" ++ dev ++ ",x-no-kvm-intx=on")) w
    | (false, w) => passthroughDevs devs vb w

def buildPtPciDevicesCmd : Step κ := fun vb w =>
  let ptPci := trim (vb.value kGroupPciPt kPciPtDev)
  if ptPci.isEmpty then .ok vb w
  else
    let (vb, w) := passthroughDevs h ((splitCompress ',' ptPci).map trim) vb (vb.bringDownBtHciIntf h w)
    .ok vb w

def setPciDevicesCallback : VmBuilderQemu := if vb.pciPtDevSet.isEmpty then vb else vb.queue .restorePci

def runMediationSrv : VmBuilderQemu :=
  let battMed := vb.value kGroupMed kMedBattery
  let vb := if battMed.isEmpty then vb else vb.addProc (.simple battMed)
  let therMed := vb.value kGroupMed kMedThermal
  let vb := if therMed.isEmpty then vb else vb.addProc (.simple therMed)
  let camMed := vb.value kGroupMed kMedCamera
  if camMed = "y" ∨ camMed = "Y" then vb.addProc (.simple "/usr/local/bin/stream") else vb

def buildGuestTimeKeepCmd : VmBuilderQemu :=
  let tk := vb.value kGroupService kServTimeKeep
  if tk.isEmpty then vb
  else
    let pipe := "/tmp/qmp-time-keep-pipe"
    (vb.addProc (.simple (tk ++ " " ++ pipe))).append (" -qmp pipe:" ++ pipe)

def buildGuestPmCtrlCmd : VmBuilderQemu :=
  let pm := vb.value kGroupService kServPmCtrl
  if pm.isEmpty then vb
  else
    let sock := "/tmp/qmp-pm-sock"
    -- The socket goes in after the first space, or at the end.
    let cmd : String := match cut ' ' pm.toList with
      | some (exe, args) => .ofList exe ++ " " ++ sock ++ " " ++ .ofList args
      | none => pm ++ " " ++ sock
    (vb.addProc (.simple cmd)).append (" -qmp unix:" ++ sock ++ ",server=on,wait=off -no-reboot")

def kQmpPowerSocket : String := "/tmp/qmp-pwr-socket-"
def maxNumGuest : Nat := 7

/-- The first power socket path that is not there yet. The static keeps the
last one tried when all are. -/
def buildExtraGuestPmCtrlCmd : Step κ := fun vb w =>
  if vb.value kGroupExtra kExtraPwrCtrlMultiOS = "true" then
    let paths := (List.range maxNumGuest).map fun n => kQmpPowerSocket ++ toString n
    match paths.find? fun p => !h.access w.kernel p with
    | some path =>
      .ok ((vb.append (" -qmp unix:" ++ path ++ ",server,nowait")).queue .removeSocket) { w with socketPath := path }
    | none => .ok (vb.queue .removeSocket) { w with socketPath := paths.getLastD w.socketPath }
  else .ok vb w

/-- `GetUid`. -/
def getUid : Int :=
  match h.getenv k "SUDO_UID" with
  | some suid => atoi suid
  | none => h.getuid k

def buildAudioCmd : VmBuilderQemu :=
  if vb.value kGroupAudio kDisableEmul = "true" then vb
  else
    vb.append (" -device intel-hda" ++ " -device hda-duplex,audiodev=android_spk" ++
      " -audiodev id=android_spk,timer-period=5000,driver=pa," ++
      "in.fixed-settings=off,out.fixed-settings=off,server=/run/user/" ++ toString (getUid h k) ++ "/pulse/native")

def buildExtraCmd : VmBuilderQemu :=
  let exCmd := vb.value kGroupExtra kExtraCmd
  if exCmd.isEmpty then vb else vb.append (" " ++ exCmd)

def buildFixedCmd : VmBuilderQemu :=
  (vb.append (" -M q35" ++ " -machine kernel_irqchip=on" ++ " -k en-us" ++ " -cpu host,-waitpkg,pmu=off" ++
    " -enable-kvm" ++ " -device qemu-xhci,id=xhci,p2=8,p3=8" ++ " -device usb-mouse" ++ " -device usb-kbd")).append
    (" -device intel-iommu,device-iotlb=on,caching-mode=on" ++ " -nodefaults ")

def setExtraServices : VmBuilderQemu :=
  let exSrvs := trim (vb.value kGroupExtra kExtraService)
  if exSrvs.isEmpty then vb
  else
    (splitCompress ';' exSrvs).foldl (fun vb srv =>
      if (trim srv).isEmpty then vb else vb.addProc (.simple (trim srv))) vb

/-- `aaf_cfg_->Flush()`. -/
def flushAaf : Step κ := fun vb w =>
  match vb.aafCfg with
  | none => .ok vb w
  | some aaf =>
    match aaf.flush h w.kernel with
    | .error k => .hung { w with kernel := k }
    | .ok (aaf, k) => .ok { vb with aafCfg := some aaf } { w with kernel := k }

/-- The end of `BuildVmArgs`. -/
def created : VmBuilderQemu := { vb with mainProc := some { kind := .simple vb.emulCmd }, state := .created }

/-! ## `BuildVmArgs` and `StopVm` -/

/-- The steps of `BuildVmArgs` up to the first that takes a device. -/
def stepsBeforeVgpu : List (Step κ) :=
  [checked (buildEmulPath h), checked fun _ => buildNameQmp h, always (buildRpmbCmd h), always fun _ => buildDispCmd,
   always fun _ => initAafCfg]

/-- Those between `BuildVgpuCmd` and `BuildPtPciDevicesCmd`. -/
def stepsBeforePtPci : List (Step κ) :=
  [always fun _ => buildVinputCmd, checked fun _ => buildAafCfg, always fun _ => buildNetCmd, buildVsockCmd,
   always fun _ => buildVtpmCmd, always fun _ => buildMemCmd, always fun _ => buildVcpuCmd,
   checked fun _ => buildFirmwareCmd, always fun _ => buildVdiskCmd]

/-- Those after `SetPciDevicesCallback`. -/
def stepsAfterCallback : List (Step κ) :=
  [always fun _ => runMediationSrv, always fun _ => buildGuestTimeKeepCmd, always fun _ => buildGuestPmCtrlCmd,
   buildExtraGuestPmCtrlCmd h, always (buildAudioCmd h), always fun _ => buildExtraCmd, always fun _ => buildFixedCmd,
   always fun _ => setExtraServices, flushAaf h, always fun _ => created]

def buildSteps : List (Step κ) :=
  stepsBeforeVgpu h ++ buildVgpuCmd h :: stepsBeforePtPci ++
    buildPtPciDevicesCmd h :: (always fun _ => setPciDevicesCallback) :: stepsAfterCallback h

/-- Runs the steps until one does not return true. -/
def runSteps : List (Step κ) → Step κ
  | [], vb, w => .ok vb w
  | st :: sts, vb, w =>
    match st vb w with
    | .ok vb w => runSteps sts vb w
    | o => o

/-- `BuildVmArgs`. -/
def buildVmArgs : Step κ := runSteps (buildSteps h)

/-- One cleanup of `end_call_`. -/
def runEndCall (w : World κ) : EndCall → World κ
  | .probeSound => { w with kernel := (h.system w.kernel "modprobe snd-sof-pci-intel-tgl").2 }
  | .removeSocket => w.remove h w.socketPath
  | .restorePci => vb.pciPtDevSet.foldl (fun w dev => (w.pci h dev .restore).2) w

/-- The main process is stopped, then each co-process, and then
`co_procs_.clear()` destroys these, which stops them once more. -/
def stopProcs : Option VmProcess × κ :=
  let (main, k) := match vb.mainProc with
    | none => (none, k)
    | some p => let (p, k) := p.stop h k; (some p, k)
  let (procs, k) := VmProcess.stopAll h vb.coProcs k
  (main, (VmProcess.stopAll h procs k).2)

/-- `StopVm`, which is also all of the destructor. -/
def stopVm (w : World κ) : VmBuilderQemu × World κ :=
  let (main, k) := vb.stopProcs h w.kernel
  let w := { w with kernel := k, pool := (w.pool.releaseCid vb.vsockCid).2 }
  let w := vb.endCall.foldl (vb.runEndCall h) w
  ({ vb with mainProc := main, coProcs := [], endCall := [], stopped := true }, w)

end VmBuilderQemu

end VmManager
