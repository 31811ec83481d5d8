import VmManager.Process
import VmManager.Config
/-!
# Flashing a guest (`guest/vm_flash.cc`)

`FlashWithQemu` boots an emulator from a USB disk that flashes the guest's
virtual disk. The flash files are that USB disk, or a zip archive that it is
made from: of the images in it, when there is a `boot.img`, and otherwise the
archive should hold nothing but the disk.
-/
open Text

namespace VmManager

/-! ## Boost.Filesystem paths -/

namespace Path

/-- `//name`, which is all root name. -/
def isRootName : List Char → Bool
  | '/' :: '/' :: cs => !cs.contains '/'
  | _ => false

def filenameList (cs : List Char) : List Char :=
  let body := cs.rdropWhile (· = '/')
  if isRootName cs || cs.isEmpty then cs
  else if cs.getLast? = some '/' then if body.isEmpty || isRootName body then ['/'] else ['.']
  else cs.rtakeWhile (· ≠ '/')

/-- `path::filename`. -/
def filename (p : String) : String := .ofList (filenameList p.toList)

/-- A filename at its last dot: what stands before it, and the rest. -/
def atLastDot (name : List Char) : List Char × List Char :=
  if name = ['.'] ∨ name = ['.', '.'] then (name, [])
  else
    match cut '.' name.reverse with
    | none => (name, [])
    | some (ext, stem) => (stem.reverse, '.' :: ext.reverse)

/-- `path::stem`. -/
def stem (p : String) : String := .ofList (atLastDot (filenameList p.toList)).1

/-- `path::extension`. -/
def extension (p : String) : String := .ofList (atLastDot (filenameList p.toList)).2

/-- `path::operator/`, of a directory and a name in it. -/
def append (dir name : String) : String :=
  if dir.isEmpty || dir.toList.getLast? = some '/' then dir ++ name else dir ++ "/" ++ name

example : (stem "/img/.zip", extension "/img/.zip") = ("", ".zip") := by decide

example : (stem "//civ.zip", extension "/img/..") = ("//civ", "") := by decide

end Path

/-! ## `VmFlasher` -/

def mb (v : UInt64) : UInt64 := 1024 * 1024 * v

def gb (v : UInt64) : UInt64 := 1024 * 1024 * 1024 * v

def kVirtualUsbDiskPath : String := "/tmp/flash.vfat"
def kDdBs : UInt64 := mb 63
def k4GB : UInt64 := gb 4

/-- What flashing asks for besides. -/
structure FlashHost (κ : Type) extends Host κ where
  /-- `file_size`; all ones when it fails. -/
  fileSize : κ → String → UInt64
  /-- `boost::process::system` of a program and its arguments. -/
  systemArgs : κ → String → List String → Int × κ

structure VmFlasher where
  totalImageSize : UInt64 := 0
  virtualDisk : String := ""
  cfg : CivConfig := {}
  deriving DecidableEq, Repr

namespace VmFlasher

variable {κ : Type} (h : FlashHost κ)

def value (f : VmFlasher) (group key : String) : String := f.cfg.getValue group key

/-! ### `CheckImages` -/

def splitArgs (path : String) : List String :=
  ["--bytes=" ++ toString (k4GB - 1), "--numeric-suffixes", path, path ++ ".part"]

/-- The body of the loop, for one path that the iterator gives. -/
def visitImage (e : String) (f : VmFlasher) (path : String) (k : κ) : Bool × VmFlasher × κ :=
  if h.isRegularFile k path then
    let f := { f with totalImageSize := f.totalImageSize + h.fileSize k path }
    if k4GB ≤ h.fileSize k path then
      let r := h.systemArgs k e (splitArgs path)
      if r.1 ≠ 0 then (false, f, r.2) else (true, f, h.remove r.2 path)
    else (true, f, k)
  else (true, f, k)

def visitImages (e : String) : List String → VmFlasher → κ → Bool × VmFlasher × κ
  | [], f, k => (true, f, k)
  | path :: paths, f, k =>
    match visitImage h e f path k with
    | (false, f, k) => (false, f, k)
    | (true, f, k) => visitImages e paths f k

/-- `CheckImages`. `visits` are the paths that the iterator gives, in order: the
directory changes under it, so that they are the host's choice. -/
def checkImages (visits : List String) (f : VmFlasher) (k : κ) : Bool × VmFlasher × κ :=
  let e := h.searchPath k "split"
  if e.isEmpty then (false, f, k) else visitImages h e visits f k

/-! ### `QemuCreateVirtUsbDisk` -/

def ddCount (total : UInt64) : UInt64 := (total + gb 1 + kDdBs - 1) / kDdBs

def ddCmd (total : UInt64) : String :=
  "dd if=/dev/zero of=" ++ kVirtualUsbDiskPath ++ " bs=" ++ toString kDdBs ++ " count=" ++ toString (ddCount total)

def mkfsCmd : String := "mkfs.vfat " ++ kVirtualUsbDiskPath

def mcopyCmd (path : String) : String := "mcopy -o -n -i " ++ kVirtualUsbDiskPath ++ " " ++ path ++ " ::"

def rmCmd (oDir : String) : String := "rm -r " ++ oDir

/-- What was there is removed, and the archive unpacked. -/
def unpack (file oDir : String) (k : κ) : Bool × κ :=
  let rm := if h.pathExists k oDir then h.system k ("rm -rf " ++ oDir) else (0, k)
  if rm.1 ≠ 0 then (false, rm.2)
  else
    let unzip := h.system rm.2 ("unzip -o " ++ file ++ " -d " ++ oDir)
    (unzip.1 = 0, unzip.2)

/-- An empty disk, with room for `total` bytes. -/
def makeDisk (total : UInt64) (k : κ) : Bool × κ :=
  let dd := h.system k (ddCmd total)
  if dd.1 ≠ 0 then (false, dd.2)
  else
    let mkfs := h.system dd.2 mkfsCmd
    (mkfs.1 = 0, mkfs.2)

def copyFiles : List String → κ → Bool × κ
  | [], k => (true, k)
  | path :: paths, k =>
    if h.isRegularFile k path then
      let mcopy := h.system k (mcopyCmd path)
      if mcopy.1 ≠ 0 then (false, mcopy.2) else copyFiles paths mcopy.2
    else copyFiles paths k

def copyImages (oDir : String) (k : κ) : Bool × κ := copyFiles h ((h.listDir k oDir).map (Path.append oDir)) k

/-- The branch with a `boot.img`. -/
def createFromImages (visits : List String) (oDir : String) (f : VmFlasher) (k : κ) : Bool × VmFlasher × κ :=
  match checkImages h visits f k with
  | (false, f, k) => (false, f, k)
  | (true, f, k) =>
    match makeDisk h f.totalImageSize k with
    | (false, k) => (false, f, k)
    | (true, k) =>
      match copyImages h oDir k with
      | (false, k) => (false, f, k)
      -- It does not matter whether the images can be removed.
      | (true, k) => (true, { f with virtualDisk := kVirtualUsbDiskPath }, (h.system k (rmCmd oDir)).2)

/-- The branch without one. -/
def takeOnlyEntry (file oDir : String) (f : VmFlasher) (k : κ) : Bool × VmFlasher × κ :=
  if (h.listDir k oDir).length = 1 then (true, { f with virtualDisk := oDir ++ "/" ++ Path.stem file }, k)
  else (false, f, k)

/-- Where an archive is unpacked. -/
def unpackDir (file : String) : String := "/tmp/" ++ Path.stem file

def bootFile (oDir : String) : String := oDir ++ "/boot.img"

/-- `QemuCreateVirtUsbDisk`. -/
def qemuCreateVirtUsbDisk (visits : List String) (f : VmFlasher) (k : κ) : Bool × VmFlasher × κ :=
  let file := f.value kGroupGlob kGlobFlashfiles
  if !h.pathExists k file then (false, f, k)
  else if !h.isRegularFile k file then (false, f, k)
  else if Path.extension file ≠ ".zip" then (true, { f with virtualDisk := file }, k)
  else
    let oDir := unpackDir file
    match unpack h file oDir k with
    | (false, k) => (false, f, k)
    | (true, k) =>
      if h.pathExists k (bootFile oDir) then createFromImages h visits oDir f k
      else takeOnlyEntry h file oDir f k

/-! ### `FlashWithQemu` -/

/-- `QemuCreateVirtualDisk`. -/
def qemuCreateVirtualDisk (f : VmFlasher) (k : κ) : Bool × κ :=
  let r := h.system k ("qemu-img create -f qcow2 " ++ f.value kGroupDisk kDiskPath ++ " " ++ f.value kGroupDisk kDiskSize)
  (r.1 = 0, r.2)

/-- How far `FlashWithQemu` gets. -/
inductive Flashing (κ : Type)
  /-- It returns false. -/
  | failed (f : VmFlasher) (k : κ)
  /-- A process that it starts never lets it go on. -/
  | hangs
  /-- It starts the emulator with this command. -/
  | emulator (cmd : String) (f : VmFlasher) (k : κ)

def rpmbArgs (sock : String) : String :=
  " -device virtio-serial,addr=1" ++ " -device virtserialport,chardev=rpmb0,name=rpmb0,nr=1" ++
    " -chardev socket,id=rpmb0,path=" ++ sock

def vtpmArgs (dataDir : String) : String :=
  " -chardev socket,id=chrtpm,path=" ++ dataDir ++ "/" ++ kVtpmSock ++
    " -tpmdev emulator,id=tpm0,chardev=chrtpm -device tpm-crb,tpmdev=tpm0"

/-- The RPMB process, after the data of an earlier one has been removed; `none`
when that fails. -/
def rpmbProc (f : VmFlasher) (sock : String) (k : κ) : Option (String × List VmProcess) × κ :=
  let bin := f.value kGroupRpmb kRpmbBinPath
  let dataDir := f.value kGroupRpmb kRpmbDataDir
  let dataFile := dataDir ++ "/" ++ kRpmbData
  if !bin.isEmpty && !dataDir.isEmpty then
    let k' := if h.pathExists k dataFile then h.remove k dataFile else k
    if h.pathExists k' dataFile then (none, k') else (some (rpmbArgs sock, [{ kind := .rpmb bin dataDir sock }]), k')
  else (some ("", []), k)

def vtpmProc (f : VmFlasher) : String × List VmProcess :=
  let bin := f.value kGroupVtpm kVtpmBinPath
  let dataDir := f.value kGroupVtpm kVtpmDataDir
  if !bin.isEmpty && !dataDir.isEmpty then (vtpmArgs dataDir, [{ kind := .vtpm bin dataDir }]) else ("", [])

def firmwareArgs (f : VmFlasher) : Option String :=
  let firmType := f.value kGroupFirm kFirmType
  if firmType.isEmpty then none
  else if firmType = kFirmUnified then some (" -drive if=pflash,format=raw,file=" ++ f.value kGroupFirm kFirmPath)
  else if firmType = kFirmSplited then
    some (" -drive if=pflash,format=raw,readonly,file=" ++ f.value kGroupFirm kFirmCode ++
      " -drive if=pflash,format=raw,file=" ++ f.value kGroupFirm kFirmVars)
  else none

def diskArgs (f : VmFlasher) : String :=
  " -device virtio-scsi-pci,id=scsi0,addr=0x8" ++
    " -drive if=none,format=qcow2,id=scsidisk1,file=" ++ f.value kGroupDisk kDiskPath ++
    " -device scsi-hd,drive=scsidisk1,bus=scsi0.0"

def usbArgs (f : VmFlasher) : String :=
  " -name civ_flashing" ++ " -M q35" ++ " -m 2048M" ++ " -smp 1" ++ " -enable-kvm" ++ " -k en-us" ++
    " -device qemu-xhci,id=xhci,addr=0x5" ++ " -no-reboot" ++ " -nographic -display none -serial mon:stdio" ++
    " -boot menu=on,splash-time=5000,strict=on " ++
    " -drive id=udisk1,format=raw,if=none,file=" ++ f.virtualDisk ++
    " -device usb-storage,drive=udisk1,bus=xhci.0" ++ " -nodefaults"

def runProcs : List VmProcess → κ → Option (List VmProcess × κ)
  | [], k => some ([], k)
  | p :: ps, k =>
    match p.run h.toHost k with
    | none => none
    | some (p, k) => (runProcs ps k).map fun r => (p :: r.1, r.2)

/-- `FlashWithQemu`, up to the start of the emulator. What comes of that is
only logged. -/
def flashWithQemu (visits : List String) (f : VmFlasher) (k : κ) : Flashing κ :=
  let emulPath := f.value kGroupEmul kEmulPath
  if emulPath.isEmpty then .failed f k
  else
    match qemuCreateVirtUsbDisk h visits f k with
    | (false, f, k) => .failed f k
    | (true, f, k) =>
      match qemuCreateVirtualDisk h f k with
      | (false, k) => .failed f k
      | (true, k) =>
        match rpmbProc h f (kRpmbSockPrefix ++ h.strftime k "%Y-%m-%d_%T") k with
        | (none, k) => .failed f k
        | (some rpmb, k) =>
          let vtpm := vtpmProc f
          match firmwareArgs f with
          -- The processes have not been run, but their destructors are.
          | none => .failed f (VmProcess.stopAll h.toHost (vtpm.2 ++ rpmb.2) k).2
          | some firmware =>
            match runProcs h (rpmb.2 ++ vtpm.2) k with
            | none => .hangs
            | some (_, k) => .emulator (emulPath ++ rpmb.1 ++ vtpm.1 ++ firmware ++ diskArgs f ++ usbArgs f) f k

/-- `FlashGuest`, with the exception of `read_ini`. -/
def flashGuest (visits : List String) (f : VmFlasher) (path : String) (k : κ) : Except Exn (Flashing κ) :=
  let given := h.pathExists k path && h.isRegularFile k path
  let p := if given then path else h.configPath ++ "/" ++ path ++ ".ini"
  if !given && !h.pathExists k p then .ok (.failed f k)
  else
    match f.cfg.readConfigFileOn h.toHost k p with
    | (.error e, _) => .error e
    | (.ok false, cfg) => .ok (.failed { f with cfg } k)
    | (.ok true, cfg) =>
      let f := { f with cfg }
      let emulType := f.value kGroupEmul kEmulType
      if emulType = kEmulTypeQemu ∨ emulType = "" then .ok (flashWithQemu h visits f k) else .ok (.failed f k)

end VmFlasher

end VmManager
