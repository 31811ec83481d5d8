import VmManager.Config
/-!
# The creation form (`guest/tui.cc`)

What the user has typed and selected, and the calls of `SetValue` that
`SetConfToPtree` makes of it.
-/
open Text

namespace VmManager

/-- The contents of the form. The selected entries of the menus are inside
them, and `ptPciDisp` holds the lines of `lspci -D` that are checked. -/
structure CivTui where
  filename : String
  flashfiles : String := ""
  emulator : String := ""
  memory : String := ""
  vcpu : String := ""
  diskSize : String := ""
  diskPath : String := ""
  firmwareTypeSelected : Fin 2 := 0
  firmUnified : String := ""
  firmSplitedCode : String := ""
  firmSplitedData : String := ""
  vgpuSelected : Fin 5 := 1
  gvtgVerSelected : Fin 4 := 1
  gvtgUuid : String := ""
  swtpmBin : String := ""
  swtpmData : String := ""
  rpmbBin : String := ""
  rpmbData : String := ""
  ptPciDisp : List String := []
  adbPort : String := ""
  fastbootPort : String := ""
  battMed : String := ""
  thermMed : String := ""
  aaf : String := ""
  tkeep : String := ""
  pmctl : String := ""
  extra : String := ""
  deriving DecidableEq, Repr

namespace CivTui

/-- The form as `InitializeUi` opens it. -/
def initializeUi (name : String) : CivTui := { filename := name }

def firmwareType : Vector String 2 := #v[kFirmUnified, kFirmSplited]

def vgpuType : Vector String 5 := #v[kVgpuNone, kVgpuVirtio, kVgpuRamfb, kVgpuGvtG, kVgpuGvtD]

def gvtgVer : Vector String 4 := #v[kGvtgV51, kGvtgV52, kGvtgV54, kGvtgV58]

/-- The loop over `pt_pci_disp_`: the address in front of each line, and a
comma unless the line is the last one. A line without a space is passed over. -/
def passthrough : List String → String
  | [] => ""
  | item :: rest =>
    match cut ' ' item.toList with
    | none => passthrough rest
    | some (bdf, _) => .ofList bdf ++ (if rest.isEmpty then "" else ",") ++ passthrough rest

variable (form : CivTui)

/-- The calls of `SetValue` in `SetConfToPtree`: group, key and value. -/
def setValues : List (String × String × String) :=
  [(kGroupGlob, kGlobName, form.filename),
   (kGroupGlob, kGlobFlashfiles, form.flashfiles),
   (kGroupEmul, kEmulPath, form.emulator),
   (kGroupMem, kMemSize, form.memory),
   (kGroupVcpu, kVcpuNum, form.vcpu),
   (kGroupDisk, kDiskSize, form.diskSize),
   (kGroupDisk, kDiskPath, form.diskPath),
   (kGroupFirm, kFirmType, firmwareType.get form.firmwareTypeSelected)] ++
  (if form.firmwareTypeSelected = 0 then [(kGroupFirm, kFirmPath, form.firmUnified)]
   else if form.firmwareTypeSelected = 1 then
     [(kGroupFirm, kFirmCode, form.firmSplitedCode), (kGroupFirm, kFirmVars, form.firmSplitedData)]
   else []) ++
  [(kGroupVgpu, kVgpuType, vgpuType.get form.vgpuSelected)] ++
  (if form.vgpuSelected = 3 then
     (kGroupVgpu, kVgpuGvtgVer, gvtgVer.get form.gvtgVerSelected) ::
       (if form.gvtgUuid = "" then [] else [(kGroupVgpu, kVgpuUuid, form.gvtgUuid)])
   else []) ++
  [(kGroupVtpm, kVtpmBinPath, form.swtpmBin),
   (kGroupVtpm, kVtpmDataDir, form.swtpmData),
   (kGroupRpmb, kVtpmBinPath, form.rpmbBin),
   (kGroupRpmb, kVtpmDataDir, form.rpmbData),
   (kGroupPciPt, kPciPtDev, passthrough form.ptPciDisp),
   (kGroupNet, kNetAdbPort, form.adbPort),
   (kGroupNet, kNetFastbootPort, form.fastbootPort),
   (kGroupMed, kMedBattery, form.battMed),
   (kGroupMed, kMedThermal, form.thermMed),
   (kGroupAaf, kAafPath, form.aaf),
   (kGroupService, kServTimeKeep, form.tkeep),
   (kGroupService, kServPmCtrl, form.pmctl),
   (kGroupExtra, kExtraCmd, form.extra)]

/-- `SetConfToPtree`, on what `civ_config_` holds. -/
def setConfToPtree (civConfig : CivConfig) : CivConfig :=
  form.setValues.foldl (fun cfg v => cfg.setValue v.1 v.2.1 v.2.2) civConfig

/-- The file that `SaveOn` writes. -/
def filePath {κ : Type} (h : Host κ) : String := h.configPath ++ "/" ++ form.filename ++ ".ini"

/-- `SaveOn`: whether the config was saved, and what `civ_config_` holds then.
The file is made before there is anything to write to it. -/
def saveOn {κ : Type} (h : Host κ) (k : κ) (civConfig : CivConfig) : Except Exn (Bool × CivConfig × κ) :=
  if h.pathExists k (form.filePath h) then .ok (false, civConfig, k)
  else
    let k := h.writeFile k (form.filePath h) ""
    let civConfig := form.setConfToPtree civConfig
    (civConfig.writeConfigFile h k (form.filePath h)).map fun (saved, k) => (saved, civConfig, k)

end CivTui

end VmManager
