import VmManager.Host
/-!
# Configs (`guest/config_parser.cc`)

A config is the property tree that `read_ini` makes of a file: sections with
entries, and entries outside any section.
-/
open Text

namespace VmManager

/-! ## Groups, keys and options -/

def kGroupGlob : String := "global"
def kGroupEmul : String := "emulator"
def kGroupMem : String := "memory"
def kGroupVcpu : String := "vcpu"
def kGroupFirm : String := "firmware"
def kGroupDisk : String := "disk"
def kGroupVgpu : String := "graphics"
def kGroupDisplay : String := "display"
def kGroupNet : String := "net"
def kGroupVtpm : String := "vtpm"
def kGroupRpmb : String := "rpmb"
def kGroupAaf : String := "aaf"
def kGroupPciPt : String := "passthrough"
def kGroupbluetooth : String := "bluetooth"
def kGroupAudio : String := "audio"
def kGroupMed : String := "mediation"
def kGroupService : String := "guest_control"
def kGroupExtra : String := "extra"

def kGlobName : String := "name"
def kGlobFlashfiles : String := "flashfiles"
def kGlobCid : String := "vsock_cid"
def kGlobWaitReady : String := "wait_ready"
def kEmulType : String := "type"
def kEmulPath : String := "path"
def kMemSize : String := "size"
def kVcpuNum : String := "num"
def kFirmType : String := "type"
def kFirmPath : String := "path"
def kFirmCode : String := "code"
def kFirmVars : String := "vars"
def kDiskSize : String := "size"
def kDiskPath : String := "path"
def kVgpuType : String := "type"
def kVgpuGvtgVer : String := "gvtg_version"
def kVgpuUuid : String := "vgpu_uuid"
def kVgpuMonId : String := "monitor"
def kVgpuOutputs : String := "outputs"
def kDispOptions : String := "options"
def kNetModel : String := "model"
def kNetAdbPort : String := "adb_port"
def kNetFastbootPort : String := "fastboot_port"
def kVtpmBinPath : String := "bin_path"
def kVtpmDataDir : String := "data_dir"
def kRpmbBinPath : String := "bin_path"
def kRpmbDataDir : String := "data_dir"
def kAafPath : String := "path"
def kAafSuspend : String := "support_suspend"
def kAafAudioType : String := "audio_type"
def kPciPtDev : String := "passthrough_pci"
def kHciDown : String := "hci_down"
def kDisableEmul : String := "disable_emulation"
def kMedBattery : String := "battery_med"
def kMedThermal : String := "thermal_med"
def kMedCamera : String := "camera_med"
def kServTimeKeep : String := "time_keep"
def kServPmCtrl : String := "pm_control"
def kServVinput : String := "vinput"
def kExtraCmd : String := "cmd"
def kExtraService : String := "service"
def kExtraPwrCtrlMultiOS : String := "pwr_ctrl_multios"

def kEmulTypeQemu : String := "QEMU"
def kFirmUnified : String := "unified"
def kFirmSplited : String := "splited"
def kVgpuNone : String := "headless"
def kVgpuVirtio : String := "virtio"
def kVgpuVirtio2D : String := "virtio2d"
def kVgpuRamfb : String := "ramfb"
def kVgpuGvtG : String := "GVT-g"
def kVgpuGvtD : String := "GVT-d"
def kVgpuSriov : String := "SRIOV"
def kGvtgV51 : String := "i915-GVTg_V5_1"
def kGvtgV52 : String := "i915-GVTg_V5_2"
def kGvtgV54 : String := "i915-GVTg_V5_4"
def kGvtgV58 : String := "i915-GVTg_V5_8"

def kConfigMap : List (String × List String) :=
  [(kGroupGlob, [kGlobName, kGlobFlashfiles, kGlobCid, kGlobWaitReady]),
   (kGroupEmul, [kEmulType, kEmulPath]),
   (kGroupMem, [kMemSize]),
   (kGroupVcpu, [kVcpuNum]),
   (kGroupFirm, [kFirmType, kFirmPath, kFirmCode, kFirmVars]),
   (kGroupDisk, [kDiskSize, kDiskPath]),
   (kGroupVgpu, [kVgpuType, kVgpuGvtgVer, kVgpuUuid, kVgpuMonId, kVgpuOutputs]),
   (kGroupDisplay, [kDispOptions]),
   (kGroupNet, [kNetModel, kNetAdbPort, kNetFastbootPort]),
   (kGroupVtpm, [kVtpmBinPath, kVtpmDataDir]),
   (kGroupRpmb, [kRpmbBinPath, kRpmbDataDir]),
   (kGroupAaf, [kAafPath, kAafSuspend, kAafAudioType]),
   (kGroupPciPt, [kPciPtDev]),
   (kGroupbluetooth, [kHciDown]),
   (kGroupAudio, [kDisableEmul]),
   (kGroupMed, [kMedBattery, kMedThermal, kMedCamera]),
   (kGroupService, [kServTimeKeep, kServPmCtrl, kServVinput]),
   (kGroupExtra, [kExtraCmd, kExtraService, kExtraPwrCtrlMultiOS])]

/-! ## The property tree and `read_ini` -/

/-- A child of the root: a section with its entries, or an entry outside any
section, which has a text and no entries of its own. -/
structure Section where
  name : String
  data : String := ""
  entries : List (String × String) := []
  deriving DecidableEq, Repr

/-- The tree read so far, last child first, and whether a section is open
(which is then the last child). -/
abbrev IniState := List Section × Bool

/-- An open section without entries is dropped again. -/
def dropEmpty : IniState → List Section
  | (sec :: rest, true) => if sec.entries.isEmpty then rest else sec :: rest
  | (secs, _) => secs

/-- A line of the form `[name]`. -/
def iniSection (st : IniState) (line : List Char) : Option IniState :=
  match cut ']' line with
  | none => none
  | some (name, _) =>
    let secs := dropEmpty st
    let key := trim (.ofList name)
    if secs.any (·.name == key) then none else some ({ name := key } :: secs, true)

/-- A line of the form `key = value`. -/
def iniEntry (st : IniState) (line : List Char) : Option IniState :=
  match cut '=' line with
  | none => none
  | some ([], _) => none
  | some (k, v) =>
    let key := trim (.ofList k)
    let val := trim (.ofList v)
    match st with
    | (sec :: rest, true) =>
      if sec.entries.any (·.1 == key) then none
      else some ({ sec with entries := sec.entries ++ [(key, val)] } :: rest, true)
    | (secs, inSection) =>
      if secs.any (·.name == key) then none else some ({ name := key, data := val } :: secs, inSection)

def iniLine (st : IniState) (line : List Char) : Option IniState :=
  match trimList line with
  | [] => some st
  | ';' :: _ => some st
  | '#' :: _ => some st
  | '[' :: rest => iniSection st rest
  | c :: cs => iniEntry st (c :: cs)

/-- `boost::property_tree::read_ini`; `none` is its exception on malformed
text. -/
def readIni (content : String) : Option (List Section) :=
  ((content.toList.splitOn '\n').foldlM iniLine ([], false)).map fun st => (dropEmpty st).reverse

/-! ## `put` and `write_ini` -/

def putEntry (key value : String) : List (String × String) → List (String × String)
  | [] => [(key, value)]
  | e :: es => if e.1 = key then (key, value) :: es else e :: putEntry key value es

/-- `ptree::put` at the path `group.key`: what the path names is replaced, and
otherwise made, after what is there already. -/
def put (group key value : String) : List Section → List Section
  | [] => [{ name := group, entries := [(key, value)] }]
  | sec :: secs =>
    if sec.name = group then { sec with entries := putEntry key value sec.entries } :: secs
    else sec :: put group key value secs

def writeKeys (entries : List (String × String)) : String :=
  .join (entries.map fun e => e.1 ++ "=" ++ e.2 ++ "\n")

/-- `boost::property_tree::write_ini`: the entries outside any section, then
the sections; `none` is its exception on a name it would write twice, and on a
section with a text of its own. -/
def writeIni (pt : List Section) : Option String :=
  let top := pt.filter (·.entries.isEmpty)
  let secs := pt.filter (!·.entries.isEmpty)
  if (pt.map (·.name)).Nodup ∧ ∀ sec ∈ secs, (sec.entries.map (·.1)).Nodup ∧ sec.data = "" then
    some (writeKeys (top.map fun sec => (sec.name, sec.data)) ++
      .join (secs.map fun sec => "[" ++ sec.name ++ "]\n" ++ writeKeys sec.entries))
  else none

/-! ## `CivConfig` -/

structure CivConfig where
  cfgData : List Section := []
  deriving DecidableEq, Repr

/-- What the code under the handlers can throw. -/
inductive Exn
  | iniParserError
  | stoi (e : NumError)
  | badAlloc
  deriving DecidableEq, Repr

namespace CivConfig

def sanitizeOpts (cfg : CivConfig) : Bool :=
  cfg.cfgData.all fun sec =>
    match kConfigMap.find? (·.1 == sec.name) with
    | some group => sec.entries.all fun e => group.2.contains e.1
    | none => false

/-- `ReadConfigFile`: the config, `none` for false, or the exception of
`read_ini`, which also throws on a file it cannot open. -/
def readConfigFile {κ : Type} (h : Host κ) (k : κ) (path : String) : Except Exn (Option CivConfig) :=
  if !h.pathExists k path then .ok none
  else if !h.isRegularFile k path then .ok none
  else
    match (h.readFile k path).bind readIni with
    | none => .error .iniParserError
    | some data => if sanitizeOpts ⟨data⟩ then .ok (some ⟨data⟩) else .ok none

/-- `ReadConfigFile` on an object: what it gives back, and the object after it.
`read_ini` fills a tree of its own, which becomes `cfg_data_` at its end. -/
def readConfigFileOn {κ : Type} (h : Host κ) (k : κ) (cfg : CivConfig) (path : String) : Except Exn Bool × CivConfig :=
  if !h.pathExists k path then (.ok false, cfg)
  else if !h.isRegularFile k path then (.ok false, cfg)
  else
    match (h.readFile k path).bind readIni with
    | none => (.error .iniParserError, {})
    | some data => if sanitizeOpts ⟨data⟩ then (.ok true, ⟨data⟩) else (.ok false, {})

/-- `WriteConfigFile`, with the exception of `write_ini`. A config without
data is not written. -/
def writeConfigFile {κ : Type} (h : Host κ) (k : κ) (cfg : CivConfig) (path : String) : Except Exn (Bool × κ) :=
  if !h.pathExists k path then .ok (false, k)
  else if !h.isRegularFile k path then .ok (false, k)
  else if cfg.cfgData.isEmpty then .ok (true, k)
  else if !cfg.sanitizeOpts then .ok (false, k)
  else
    match writeIni cfg.cfgData with
    | none => .error .iniParserError
    | some content => .ok (true, h.writeFile k path content)

/-- `SetValue`; an empty text is not set. -/
def setValue (cfg : CivConfig) (group key value : String) : CivConfig :=
  if value = "" then cfg else ⟨put group key value cfg.cfgData⟩

/-- `GetValue`; a missing group or key gives the empty text. -/
def getValue (cfg : CivConfig) (group key : String) : String :=
  match cfg.cfgData.find? (·.name == group) with
  | none => ""
  | some sec => trim ((sec.entries.find? (·.1 == key)).elim "" (·.2))

theorem nonBlank_getValue {cfg : CivConfig} {group key : String} (h : cfg.getValue group key ≠ "") :
    NonBlank (cfg.getValue group key) := by
  unfold getValue at h ⊢
  split at h
  · exact absurd rfl h
  · exact nonBlank_trim h

end CivConfig

end VmManager
