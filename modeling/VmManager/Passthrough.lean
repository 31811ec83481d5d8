import VmManager.Host
/-!
# Host devices (the static functions of `guest/vm_builder_qemu.cc`)

Kernel modules, sysfs files, PCI passthrough, virtual functions and huge
pages. All of this acts on the host only.
-/
open Text

namespace VmManager

def kPciDevicePath : String := "/sys/bus/pci/devices/"
def kPciDriverProbe : String := "/sys/bus/pci/drivers_probe"
def kIntelGpuBdf : String := "0000:00:02.0"
def kIntelGpuDevPath : String := "/sys/bus/pci/devices/0000:00:02.0/"
def kIntelGpuDevice : String := "/sys/bus/pci/devices/0000:00:02.0/device"
def kIntelGpuSriovTotalVfs : String := "/sys/bus/pci/devices/0000:00:02.0/sriov_totalvfs"
def kIntelGpuSriovAutoProbe : String := "/sys/bus/pci/devices/0000:00:02.0/sriov_drivers_autoprobe"
def kIntelGpuSriovNumVfs : String := "/sys/bus/pci/devices/0000:00:02.0/sriov_numvfs"
def kVfioPciNewId : String := "/sys/bus/pci/drivers/vfio-pci/new_id"
def kVfioPciRemoveId : String := "/sys/bus/pci/drivers/vfio-pci/remove_id"
def kVfioPciUnbind : String := "/sys/bus/pci/drivers/vfio-pci/unbind"
def kVfioModulePath : String := "/sys/module/vfio/"
def kVfioPciModulePath : String := "/sys/module/vfio_pci/"
def kGvtgMdevTypePath : String := "/sys/bus/pci/devices/0000:00:02.0/mdev_supported_types/"
def kSys2MFreeHugePages : String := "/sys/kernel/mm/hugepages/hugepages-2048kB/free_hugepages"
def kSys2MNrHugePages : String := "/sys/kernel/mm/hugepages/hugepages-2048kB/nr_hugepages"
def kDrmCard0Vf : String := "/sys/class/drm/card0/iov/vf"
def kGtPreemptTimeoutUs : String := "/gt/preempt_timeout_us"
def kGtExecQuantumMs : String := "/gt/exec_quantum_ms"
def kPreemptTimeout : Nat := 50000
def kExecQuantum : Nat := 25

/-- `EEXIST`. -/
def eexist : Int := 17

variable {κ : Type}

def isVfioDriver (h : Host κ) (path : String) : StateM κ Bool := do
  let k ← get
  return h.isSymlink k path && h.symlinkName k path == "vfio-pci"

/-- `ReadSysFile`. The stream does not throw: a file that cannot be opened, or
that has nothing but spaces in it, leaves `ret` as it was, uninitialised. -/
def readSysFile (h : Host κ) (sysFile : String) (base : Nat) : StateM κ Int := do
  let k ← get
  return match h.readFile k sysFile with
    | none => h.uninit k
    | some s => if s.toList.all isSpace then h.uninit k else extractInt base s

/-- `WriteSysFile`. The stream does not throw, so the result is always 0. -/
def writeSysFile (h : Host κ) (sysFile str : String) : StateM κ Int := do
  modify (h.writeFile · sysFile str)
  return 0

def loadKernelModule (h : Host κ) (path module : String) : StateM κ Bool := do
  if !h.pathExists (← get) path then
    let (code, k) := h.system (← get) ("modprobe " ++ module)
    set k
    return code == 0
  return true

/-- Writes `new_id`, and on `EEXIST` removes the id first; false on any other
error. -/
def writeNewId (h : Host κ) (id : String) : StateM κ Bool := do
  let errnoSaved ← writeSysFile h kVfioPciNewId id
  if errnoSaved = eexist then
    let _ ← writeSysFile h kVfioPciRemoveId id
    let _ ← writeSysFile h kVfioPciNewId id
    return true
  return errnoSaved = 0

/-! ## Huge pages -/

/-- The parsing of `SetupHugePages`: the size in MiB. -/
def hugePagesMb (memSize : String) : Option Int :=
  match memSize.toList.getLast? with
  | none => none
  | some last =>
    match stoi 0 memSize with
    | .error _ => none
    | .ok (mb, _) =>
      if mb ≤ 0 then none
      else
        let c := last.toUpper
        if ('0' ≤ c ∧ c ≤ '9') ∨ ('A' ≤ c ∧ c ≤ 'F') ∨ c = 'M' then some mb
        else if c = 'G' then if mb > (2 ^ 31 - 1) / 1024 then none else some (mb * 1024)
        else none

/-- The `while` loop of `SetupHugePages`, with the turns that are left. -/
def waitHugePages (h : Host κ) (required : Int) : Nat → Int → StateM κ Bool
  | n, nr => do
    if nr = required then return true
    let nr ← readSysFile h kSys2MNrHugePages 10
    match n with
    | 0 => return false
    | n + 1 =>
      modify h.sleep
      waitHugePages h required n nr

def setupHugePages (h : Host κ) (memSize : String) : StateM κ Bool := do
  match hugePagesMb memSize with
  | none => return false
  | some memMb =>
    let freeHp ← readSysFile h kSys2MFreeHugePages 10
    if freeHp ≥ memMb.tdiv 2 then return true
    let nrHp ← readSysFile h kSys2MNrHugePages 10
    let requiredHp := nrHp - freeHp + memMb.tdiv 2
    let _ ← writeSysFile h kSys2MNrHugePages (toString requiredHp)
    waitHugePages h requiredHp 200 nrHp

/-! ## Virtual functions -/

/-- The `for` loop of `SetAvailableVf` from `i` on, with the turns that are
left. -/
def findVf (h : Host κ) : Nat → Nat → StateM κ Int
  | 0, _ => return -1
  | n + 1, i => do
    let sd : String := .ofList (kIntelGpuDevPath.toList.take (kIntelGpuDevPath.length - 2))
    let status ← readSysFile h (sd ++ toString i ++ "/enable") 10
    if status = 0 then
      let _ ← writeSysFile h (kDrmCard0Vf ++ toString i ++ kGtPreemptTimeoutUs) (toString kPreemptTimeout)
      let _ ← writeSysFile h (kDrmCard0Vf ++ toString i ++ kGtExecQuantumMs) (toString kExecQuantum)
      return i
    findVf h n (i + 1)

def setAvailableVf (h : Host κ) : StateM κ Int := do
  if !(← loadKernelModule h kVfioModulePath "vfio") then return -1
  if !(← loadKernelModule h kVfioPciModulePath "vfio-pci") then return -1
  let totalvfs ← readSysFile h kIntelGpuSriovTotalVfs 10
  if totalvfs ≤ 0 then return -1
  let currentVfs ← readSysFile h kIntelGpuSriovNumVfs 10
  if currentVfs < 0 then return -1
  if currentVfs = 0 then
    let _ ← writeSysFile h kIntelGpuSriovAutoProbe "0"
    let _ ← writeSysFile h kIntelGpuSriovNumVfs "0"
    let _ ← writeSysFile h kIntelGpuSriovNumVfs (toString totalvfs)
    let _ ← writeSysFile h kIntelGpuSriovAutoProbe "1"
  let devId ← readSysFile h kIntelGpuDevice 16
  if devId < 0 then return -1
  -- The source returns `false` here, that is 0.
  if !(← writeNewId h ("8086 " ++ hex devId)) then return 0
  findVf h (totalvfs.toNat - 1) 1

/-! ## PCI passthrough -/

inductive PciPassthroughAction
  | passthrough
  | restore
  deriving DecidableEq, Repr

/-- Waits until the driver link is gone, for so many turns. -/
def waitUnbound (h : Host κ) (driver : String) : Nat → StateM κ Bool
  | 0 => return false
  | n + 1 => do
    if !h.pathExists (← get) driver then return true
    modify h.sleep
    waitUnbound h driver n

/-- The body of the loop over the IOMMU group; false when the function returns
false there. -/
def passthroughGroupDev (h : Host κ) (dir : String) (action : PciPassthroughAction) (x : String) :
    StateM κ Bool := do
  let path := dir ++ "/" ++ x
  let device ← readSysFile h (path ++ "/device") 16
  let vendor ← readSysFile h (path ++ "/vendor") 16
  let venDev := hex vendor ++ " " ++ hex device
  let driver := path ++ "/driver"
  match action with
  | .restore =>
    if ← isVfioDriver h driver then
      let _ ← writeSysFile h kVfioPciRemoveId venDev
      let _ ← writeSysFile h kVfioPciUnbind x
    modify h.sleep
    return (← writeSysFile h kPciDriverProbe x) = 0
  | .passthrough =>
    if h.pathExists (← get) driver then
      if ← isVfioDriver h driver then
        let _ ← writeSysFile h kVfioPciRemoveId venDev
      let _ ← writeSysFile h (driver ++ "/unbind") x
      if !(← waitUnbound h driver 2000) then return false
    writeNewId h venDev

/-- The loop over the IOMMU group. -/
def passthroughGroup (h : Host κ) (dir : String) (action : PciPassthroughAction) : List String → StateM κ Bool
  | [] => return true
  | x :: xs => do
    if ← passthroughGroupDev h dir action x then passthroughGroup h dir action xs else return false

def passthroughOnePciDev (h : Host κ) (pciId : String) (action : PciPassthroughAction) : StateM κ Bool := do
  if !(← loadKernelModule h kVfioModulePath "vfio") then return false
  if !(← loadKernelModule h kVfioPciModulePath "vfio-pci") then return false
  let p := kPciDevicePath ++ pciId ++ "/iommu_group/devices"
  if !h.pathExists (← get) p || !h.isDirectory (← get) p then return false
  passthroughGroup h p action (h.listDir (← get) p)

end VmManager
