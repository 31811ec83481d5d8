import VmManager.Flash
/-!
# The USB disk that is flashed from (`VmFlasher::QemuCreateVirtUsbDisk`)

`FlashWithQemu` boots from `virtual_disk_` as soon as `QemuCreateVirtUsbDisk`
returns true. An archive without a `boot.img` should hold the disk and nothing
else, and its name is taken from the archive: nothing looks at what has been
unpacked. With one, the disk is made where it may not be a file, and removing
the images may remove it too.
-/
open Text

namespace VmManager

namespace VmFlasher

variable {κ : Type} {h : FlashHost κ} {visits : List String} {f : VmFlasher} {k : κ} {file : String}

/-! ## The tools -/

/-- The entry of a directory that a name with slashes in front of it stands for. -/
def memberName (name : String) : String := .ofList (name.toList.dropWhile (· = '/'))

/-- Removing the directory of the images removes the disk: it is the one that the
disk lies in, as for an archive named `.zip`, or the disk's own path. -/
def takesDisk (file : String) : Bool := unpackDir file = "/tmp/" || unpackDir file = kVirtualUsbDiskPath

/-- What the tools do when they succeed. -/
structure FlashTools (h : FlashHost κ) (file : String) : Prop where
  /-- A directory that can be read has the entry of each file in it. -/
  listed : ∀ k, h.isRegularFile k (unpackDir file ++ "/" ++ Path.stem file) = true → h.listDir k (unpackDir file) ≠ [] →
    memberName (Path.stem file) ∈ h.listDir k (unpackDir file)
  slashes : ∀ k, h.isRegularFile k (unpackDir file ++ "/" ++ Path.stem file) =
    h.isRegularFile k (unpackDir file ++ "/" ++ memberName (Path.stem file))
  /-- `dd` writes to what is there, or makes a file. -/
  dd : ∀ k total, (h.system k (ddCmd total)).1 = 0 → h.isRegularFile (h.system k (ddCmd total)).2 kVirtualUsbDiskPath =
    (!h.pathExists k kVirtualUsbDiskPath || h.isRegularFile k kVirtualUsbDiskPath)
  mkfs : ∀ k, (h.system k mkfsCmd).1 = 0 →
    h.isRegularFile (h.system k mkfsCmd).2 kVirtualUsbDiskPath = h.isRegularFile k kVirtualUsbDiskPath
  mcopy : ∀ k p, (h.system k (mcopyCmd p)).1 = 0 →
    h.isRegularFile (h.system k (mcopyCmd p)).2 kVirtualUsbDiskPath = h.isRegularFile k kVirtualUsbDiskPath
  rm : ∀ k, (h.system k (rmCmd (unpackDir file))).1 = 0 →
    h.isRegularFile (h.system k (rmCmd (unpackDir file))).2 kVirtualUsbDiskPath =
      (h.isRegularFile k kVirtualUsbDiskPath && !takesDisk file)

/-- The flash files are an archive. -/
structure IsArchive (h : FlashHost κ) (file : String) (k : κ) : Prop where
  present : h.pathExists k file = true
  regular : h.isRegularFile k file = true
  zip : Path.extension file = ".zip"

/-- The host when the archive has been unpacked. -/
def unpacked (h : FlashHost κ) (file : String) (k : κ) : κ := (unpack h file (unpackDir file) k).2

/-- The tools that make the disk from images succeed. -/
structure DiskMade (h : FlashHost κ) (visits : List String) (oDir : String) (f : VmFlasher) (k : κ) : Prop where
  checked : (checkImages h visits f k).1 = true
  made : (makeDisk h (checkImages h visits f k).2.1.totalImageSize (checkImages h visits f k).2.2).1 = true
  copied : (copyImages h oDir
    (makeDisk h (checkImages h visits f k).2.1.totalImageSize (checkImages h visits f k).2.2).2).1 = true
  removed : (h.system (copyImages h oDir
    (makeDisk h (checkImages h visits f k).2.1.totalImageSize (checkImages h visits f k).2.2).2).2 (rmCmd oDir)).1 = 0

/-- All the tools that are run succeed. -/
structure ToolsSucceed (h : FlashHost κ) (visits : List String) (file : String) (f : VmFlasher) (k : κ) : Prop where
  unpacked : (unpack h file (unpackDir file) k).1 = true
  images : h.pathExists (VmFlasher.unpacked h file k) (bootFile (unpackDir file)) = true →
    DiskMade h visits (unpackDir file) f (VmFlasher.unpacked h file k)

/-! ## The two branches -/

theorem isRegularFile_copyFiles (T : FlashTools h file) {paths : List String}
    (hret : (copyFiles h paths k).1 = true) :
    h.isRegularFile (copyFiles h paths k).2 kVirtualUsbDiskPath = h.isRegularFile k kVirtualUsbDiskPath := by
  induction paths generalizing k with
  | nil => rfl
  | cons path paths ih =>
    rw [copyFiles] at hret ⊢
    by_cases hreg : h.isRegularFile k path = true
    · rw [if_pos hreg] at hret ⊢
      dsimp only at hret ⊢
      by_cases hcopy : (h.system k (mcopyCmd path)).1 = 0
      · rw [if_neg (not_not.2 hcopy)] at hret ⊢
        rw [ih hret, T.mcopy k path hcopy]
      · rw [if_pos hcopy] at hret
        cases hret
    · rw [if_neg hreg] at hret ⊢
      exact ih hret

theorem isRegularFile_makeDisk (T : FlashTools h file) {total : UInt64} (hret : (makeDisk h total k).1 = true) :
    h.isRegularFile (makeDisk h total k).2 kVirtualUsbDiskPath =
      (!h.pathExists k kVirtualUsbDiskPath || h.isRegularFile k kVirtualUsbDiskPath) := by
  unfold makeDisk at hret ⊢
  dsimp only at hret ⊢
  by_cases hdd : (h.system k (ddCmd total)).1 = 0
  · rw [if_neg (not_not.2 hdd)] at hret ⊢
    rw [T.mkfs _ (of_decide_eq_true hret), T.dd k total hdd]
  · rw [if_pos hdd] at hret
    cases hret

/-- The disk that is made from images is what it was written to, unless it has
been removed with them. -/
theorem createFromImages_disk (T : FlashTools h file) (hmade : DiskMade h visits (unpackDir file) f k) :
    let r := createFromImages h visits (unpackDir file) f k
    let k' := (checkImages h visits f k).2.2
    r.1 = true ∧ h.isRegularFile r.2.2 r.2.1.virtualDisk =
      ((!h.pathExists k' kVirtualUsbDiskPath || h.isRegularFile k' kVirtualUsbDiskPath) && !takesDisk file) := by
  obtain ⟨hchecked, hdisk, hcopied, hremoved⟩ := hmade
  unfold createFromImages
  generalize checkImages h visits f k = r at hchecked hdisk hcopied hremoved ⊢
  obtain ⟨ok, f', k'⟩ := r
  subst hchecked
  dsimp only at hdisk hcopied hremoved ⊢
  have hvfat := isRegularFile_makeDisk T hdisk
  generalize makeDisk h f'.totalImageSize k' = r at hdisk hcopied hremoved hvfat ⊢
  obtain ⟨ok, k''⟩ := r
  subst hdisk
  dsimp only at hcopied hremoved hvfat ⊢
  have hkept := isRegularFile_copyFiles T hcopied
  rw [show copyFiles h ((h.listDir k'' (unpackDir file)).map (Path.append (unpackDir file))) k'' =
    copyImages h (unpackDir file) k'' from rfl] at hkept
  generalize copyImages h (unpackDir file) k'' = r at hcopied hremoved hkept ⊢
  obtain ⟨ok, k₃⟩ := r
  subst hcopied
  exact ⟨rfl, by rw [T.rm _ hremoved, hkept, hvfat]⟩

theorem takeOnlyEntry_disk (T : FlashTools h file) :
    let r := takeOnlyEntry h file (unpackDir file) f k
    (r.1 = true → h.isRegularFile r.2.2 r.2.1.virtualDisk = true) ↔ ∀ n, h.listDir k (unpackDir file) = [n] →
      n = memberName (Path.stem file) ∧ h.isRegularFile k (unpackDir file ++ "/" ++ n) = true := by
  unfold takeOnlyEntry
  split
  · rename_i hone
    obtain ⟨n, hn⟩ := List.length_eq_one_iff.1 hone
    constructor
    · intro hthere m hm
      have hreg := hthere rfl
      have hlisted := T.listed k hreg (by simp [hm])
      rw [hm, List.mem_singleton] at hlisted
      rw [← hlisted, ← T.slashes]
      exact ⟨rfl, hreg⟩
    · intro hentry _
      obtain ⟨he, hreg⟩ := hentry n hn
      rw [he] at hreg
      exact (T.slashes k).trans hreg
  · rename_i hother
    refine ⟨fun _ n hn => absurd ?_ hother, fun _ hret => nomatch hret⟩
    rw [hn, List.length_singleton]

/-! ## When the disk is there -/

/-- With a `boot.img`, nothing but a file is at the disk's path when `dd` is
run, and it is not removed with the images. Without one, an only entry is a
file, and has the archive's name. -/
def DiskFound (h : FlashHost κ) (visits : List String) (file : String) (f : VmFlasher) (k : κ) : Prop :=
  let k := unpacked h file k
  if h.pathExists k (bootFile (unpackDir file)) then
    let k' := (checkImages h visits f k).2.2
    (h.pathExists k' kVirtualUsbDiskPath = true → h.isRegularFile k' kVirtualUsbDiskPath = true) ∧
      takesDisk file = false
  else ∀ n, h.listDir k (unpackDir file) = [n] →
    n = memberName (Path.stem file) ∧ h.isRegularFile k (unpackDir file ++ "/" ++ n) = true

theorem diskFound_images (hboot : h.pathExists (unpacked h file k) (bootFile (unpackDir file)) = true) :
    DiskFound h visits file f k ↔
      (h.pathExists (checkImages h visits f (unpacked h file k)).2.2 kVirtualUsbDiskPath = true →
        h.isRegularFile (checkImages h visits f (unpacked h file k)).2.2 kVirtualUsbDiskPath = true) ∧
      takesDisk file = false := by rw [DiskFound, if_pos hboot]

theorem not_or_eq_true (a b : Bool) : (!a || b) = true ↔ (a = true → b = true) := by cases a <;> simp

theorem qemuCreateVirtUsbDisk_archive (ha : IsArchive h (f.value kGroupGlob kGlobFlashfiles) k)
    (hunpacked : (unpack h (f.value kGroupGlob kGlobFlashfiles) (unpackDir (f.value kGroupGlob kGlobFlashfiles)) k).1 =
      true) :
    qemuCreateVirtUsbDisk h visits f k =
      let file := f.value kGroupGlob kGlobFlashfiles
      if h.pathExists (unpacked h file k) (bootFile (unpackDir file)) then
        createFromImages h visits (unpackDir file) f (unpacked h file k)
      else takeOnlyEntry h file (unpackDir file) f (unpacked h file k) := by
  unfold qemuCreateVirtUsbDisk unpacked
  generalize f.value kGroupGlob kGlobFlashfiles = file at ha hunpacked ⊢
  dsimp only
  rw [ha.present, ha.regular, if_neg (by decide), if_neg (by decide), if_neg (not_not.2 ha.zip)]
  generalize unpack h file (unpackDir file) k = r at hunpacked ⊢
  obtain ⟨ok, k'⟩ := r
  subst hunpacked
  rfl

theorem qemuCreateVirtUsbDisk_other (ha : ¬ IsArchive h (f.value kGroupGlob kGlobFlashfiles) k) :
    let r := qemuCreateVirtUsbDisk h visits f k
    r.1 = true → h.isRegularFile r.2.2 r.2.1.virtualDisk = true := by
  unfold qemuCreateVirtUsbDisk
  generalize f.value kGroupGlob kGlobFlashfiles = file at ha ⊢
  dsimp only
  by_cases hpresent : h.pathExists k file = true
  · by_cases hreg : h.isRegularFile k file = true
    · rw [hpresent, hreg, if_neg (by decide), if_neg (by decide), if_pos fun hzip => ha ⟨hpresent, hreg, hzip⟩]
      exact fun _ => hreg
    · rw [hpresent, if_neg (by decide), if_pos (by simp [hreg])]
      exact fun hret => nomatch hret
  · rw [if_pos (by simp [hpresent])]
    exact fun hret => nomatch hret

/-! ## A host that unpacks -/

/-- Whether a path is a directory, or in it. -/
def within (dir path : String) : Bool := path = dir || (textAfter (dir ++ "/") path).isSome

def zipSystem (content k : List (String × Bool)) (cmd : String) : List (String × Bool) :=
  if firstWord cmd = "unzip" then ("/tmp/civ", false) :: content.map (fun e => ("/tmp/civ/" ++ e.1, e.2)) ++ k
  else if firstWord cmd = "dd" then if k.any (·.1 = kVirtualUsbDiskPath) then k else (kVirtualUsbDiskPath, true) :: k
  else if firstWord cmd = "rm" then k.filter fun e => !within "/tmp/civ" e.1
  else k

/-- A machine with these paths, of which some are files. The archive
`/img/civ.zip` has this content. -/
def zipHost (content : List (String × Bool)) : FlashHost (List (String × Bool)) where
  toHost :=
    { liveHost (fun _ _ => none) (fun _ _ => none) [] (fun k _ _ => k) id with
      pathExists := fun k p => k.any (·.1 = p)
      isRegularFile := fun k p => (p, true) ∈ k
      listDir := fun k dir => k.filterMap fun e => textAfter (dir ++ "/") e.1
      remove := fun k p => k.filter (·.1 ≠ p)
      system := fun k cmd => (0, zipSystem content k cmd) }
  fileSize _ _ := 4096
  systemArgs k _ _ := (0, k)

theorem zipHost_system (content k : List (String × Bool)) (cmd : String) :
    (zipHost content).system k cmd = (0, zipSystem content k cmd) := rfl

theorem firstWord_ddCmd (total : UInt64) : firstWord (ddCmd total) = "dd" := by
  have hdd : ' ' ∈ "dd if=/dev/zero of=".toList := by simp
  have hword : firstWord (ddCmd total) = firstWord "dd if=/dev/zero of=" := by
    unfold ddCmd
    rw [firstWord_append (by simp), firstWord_append (by simp), firstWord_append (by simp), firstWord_append (by simp),
      firstWord_append hdd]
  exact hword.trans (by decide)

theorem firstWord_mcopyCmd (path : String) : firstWord (mcopyCmd path) = "mcopy" := by
  have hmcopy : ' ' ∈ "mcopy -o -n -i ".toList := by simp
  have hword : firstWord (mcopyCmd path) = firstWord "mcopy -o -n -i " := by
    unfold mcopyCmd
    rw [firstWord_append (by simp), firstWord_append (by simp), firstWord_append (by simp), firstWord_append hmcopy]
  exact hword.trans (by decide)

theorem zipSystem_dd (content k : List (String × Bool)) (total : UInt64) : zipSystem content k (ddCmd total) =
    if (zipHost content).pathExists k kVirtualUsbDiskPath then k else (kVirtualUsbDiskPath, true) :: k := by
  rw [zipSystem, firstWord_ddCmd, if_neg (by decide), if_pos rfl]
  rfl

theorem zipSystem_mcopy (content k : List (String × Bool)) (path : String) : zipSystem content k (mcopyCmd path) = k := by
  rw [zipSystem, firstWord_mcopyCmd, if_neg (by decide), if_neg (by decide), if_neg (by decide)]

theorem zipSystem_mkfs (content k : List (String × Bool)) : zipSystem content k mkfsCmd = k := by
  rw [zipSystem, show firstWord mkfsCmd = "mkfs.vfat" by decide, if_neg (by decide), if_neg (by decide),
    if_neg (by decide)]

theorem zipSystem_rm (content k : List (String × Bool)) : zipSystem content k (rmCmd "/tmp/civ") =
    k.filter fun e => !within "/tmp/civ" e.1 := by
  rw [zipSystem, show firstWord (rmCmd "/tmp/civ") = "rm" by decide, if_neg (by decide), if_neg (by decide), if_pos rfl]

theorem stem_civ : Path.stem "/img/civ.zip" = "civ" := by decide

theorem unpackDir_civ : unpackDir "/img/civ.zip" = "/tmp/civ" := by decide

theorem takesDisk_civ : takesDisk "/img/civ.zip" = false := by decide

theorem memberName_civ : memberName "civ" = "civ" := by decide

theorem zipHost_tools (content : List (String × Bool)) : FlashTools (zipHost content) "/img/civ.zip" where
  listed k hreg _ := by
    rw [unpackDir_civ, stem_civ] at hreg
    rw [unpackDir_civ, stem_civ, memberName_civ]
    exact List.mem_filterMap.2 ⟨_, of_decide_eq_true hreg, textAfter_eq_some.2 rfl⟩
  slashes _ := by rw [stem_civ, memberName_civ]
  dd k total _ := by
    rw [zipHost_system, zipSystem_dd]
    by_cases hany : (zipHost content).pathExists k kVirtualUsbDiskPath = true
    · rw [if_pos hany, hany, Bool.not_true, Bool.false_or]
    · rw [if_neg hany, Bool.eq_false_iff.2 hany, Bool.not_false, Bool.true_or]
      exact decide_eq_true (List.mem_cons_self (a := (kVirtualUsbDiskPath, true)) (l := k))
  mkfs k _ := by rw [zipHost_system, zipSystem_mkfs]
  mcopy k p _ := by rw [zipHost_system, zipSystem_mcopy]
  rm k _ := by
    rw [takesDisk_civ, unpackDir_civ, zipHost_system, zipSystem_rm, Bool.not_false, Bool.and_true]
    refine decide_eq_decide.2 (List.mem_filter.trans (and_iff_left ?_))
    decide

/-! ## The disk and the emulator -/

/-- When the tools succeed, the disk that `QemuCreateVirtUsbDisk` returns true
with is there exactly in these cases. -/
theorem disk_there_iff (visits : List String) (f : VmFlasher) (k : κ)
    (T : FlashTools h (f.value kGroupGlob kGlobFlashfiles))
    (hs : IsArchive h (f.value kGroupGlob kGlobFlashfiles) k →
      ToolsSucceed h visits (f.value kGroupGlob kGlobFlashfiles) f k) :
    let r := qemuCreateVirtUsbDisk h visits f k
    (r.1 = true → h.isRegularFile r.2.2 r.2.1.virtualDisk = true) ↔
      (IsArchive h (f.value kGroupGlob kGlobFlashfiles) k →
        DiskFound h visits (f.value kGroupGlob kGlobFlashfiles) f k) := by
  by_cases ha : IsArchive h (f.value kGroupGlob kGlobFlashfiles) k
  · rw [forall_prop_of_true ha, qemuCreateVirtUsbDisk_archive ha (hs ha).unpacked]
    dsimp only
    by_cases hboot : h.pathExists (unpacked h (f.value kGroupGlob kGlobFlashfiles) k)
        (bootFile (unpackDir (f.value kGroupGlob kGlobFlashfiles))) = true
    · rw [if_pos hboot, diskFound_images hboot]
      obtain ⟨hret, hdisk⟩ := createFromImages_disk T ((hs ha).images hboot)
      rw [hret, forall_prop_of_true rfl, hdisk]
      rw [Bool.and_eq_true, Bool.not_eq_true', not_or_eq_true]
    · rw [if_neg hboot, DiskFound, if_neg hboot]
      exact takeOnlyEntry_disk T
  · exact iff_of_true (qemuCreateVirtUsbDisk_other ha) fun ha' => absurd ha' ha

/-- A config that flashes from the archive. -/
def zipConfig : CivConfig :=
  ⟨[⟨kGroupGlob, "", [(kGlobFlashfiles, "/img/civ.zip")]⟩,
    ⟨kGroupEmul, "", [(kEmulPath, "/usr/bin/qemu-system-x86_64")]⟩,
    ⟨kGroupFirm, "", [(kFirmType, kFirmUnified), (kFirmPath, "/civ/OVMF.fd")]⟩,
    ⟨kGroupDisk, "", [(kDiskSize, "16G"), (kDiskPath, "/civ/userdata.qcow2")]⟩]⟩

def zipFlasher : VmFlasher := { cfg := zipConfig }

theorem flashfiles_zipFlasher : zipFlasher.value kGroupGlob kGlobFlashfiles = "/img/civ.zip" := by
  decide

/-- An archive with images. -/
theorem disk_there_images :
    (zipHost [("boot.img", true), ("vbmeta.img", true)]).isRegularFile
      (qemuCreateVirtUsbDisk (zipHost [("boot.img", true), ("vbmeta.img", true)])
        ["/tmp/civ/boot.img", "/tmp/civ/vbmeta.img"] zipFlasher [("/img/civ.zip", true)]).2.2
      (qemuCreateVirtUsbDisk (zipHost [("boot.img", true), ("vbmeta.img", true)])
        ["/tmp/civ/boot.img", "/tmp/civ/vbmeta.img"] zipFlasher [("/img/civ.zip", true)]).2.1.virtualDisk = true := by
  have hfile := flashfiles_zipFlasher
  have T : FlashTools (zipHost [("boot.img", true), ("vbmeta.img", true)])
      (zipFlasher.value kGroupGlob kGlobFlashfiles) := by
    rw [hfile]
    exact zipHost_tools _
  refine (disk_there_iff ["/tmp/civ/boot.img", "/tmp/civ/vbmeta.img"] zipFlasher [("/img/civ.zip", true)] T ?_).2 ?_ ?_
  · rw [hfile]
    exact fun _ => ⟨by decide +kernel, fun _ => ⟨by decide +kernel, by decide +kernel, by decide +kernel,
      by decide +kernel⟩⟩
  · rw [hfile]
    intro _
    rw [diskFound_images (by decide +kernel)]
    refine ⟨?_, rfl⟩
    decide +kernel
  · decide +kernel

/-- The emulator is started, and its USB disk is not there. -/
def Flashing.startsWithoutDisk (h : FlashHost κ) : Flashing κ → Bool
  | .emulator _ f k => !h.isRegularFile k f.virtualDisk
  | _ => false

/-- An archive with nothing but the disk, under another name. -/
theorem disk_other_name :
    let h := zipHost [("civ.img", true)]
    let k := [("/img/civ.zip", true)]
    let r := qemuCreateVirtUsbDisk h [] zipFlasher k
    FlashTools h (zipFlasher.value kGroupGlob kGlobFlashfiles) ∧
      ToolsSucceed h [] (zipFlasher.value kGroupGlob kGlobFlashfiles) zipFlasher k ∧
      r.1 = true ∧ r.2.1.virtualDisk = "/tmp/civ/civ" ∧ h.isRegularFile r.2.2 "/tmp/civ/civ" = false ∧
      (flashWithQemu h [] zipFlasher k).startsWithoutDisk h = true := by
  intro h k r
  have hfile := flashfiles_zipFlasher
  have hboot : h.pathExists (unpacked h (zipFlasher.value kGroupGlob kGlobFlashfiles) k)
      (bootFile (unpackDir (zipFlasher.value kGroupGlob kGlobFlashfiles))) = false := by
    rw [hfile]
    decide +kernel
  refine ⟨hfile ▸ zipHost_tools _, ⟨?_, fun himages => ?_⟩, ?_, ?_, ?_, ?_⟩
  · rw [hfile]
    decide +kernel
  · rw [hboot] at himages
    cases himages
  · decide +kernel
  · decide +kernel
  · decide +kernel
  · decide +kernel

/-- The emulator is only started after `QemuCreateVirtUsbDisk` has returned
true, with the disk that it has left. -/
theorem flashWithQemu_emulator {cmd : String} {f' : VmFlasher} {k' : κ}
    (hrun : flashWithQemu h visits f k = .emulator cmd f' k') :
    (∃ k₁, qemuCreateVirtUsbDisk h visits f k = (true, f', k₁)) ∧ ∃ args, cmd = args ++ usbArgs f' := by
  unfold flashWithQemu at hrun
  dsimp only at hrun
  split at hrun
  · cases hrun
  · split at hrun
    · cases hrun
    · rename_i f₁ k₁ hcreate
      split at hrun
      · cases hrun
      · split at hrun
        · cases hrun
        · split at hrun
          · cases hrun
          · split at hrun
            · cases hrun
            · cases hrun
              exact ⟨⟨k₁, hcreate⟩, _, rfl⟩

/-- The same of `FlashGuest`, with the config that it has read. -/
theorem flashGuest_emulator {path cmd : String} {f' : VmFlasher} {k' : κ}
    (hrun : flashGuest h visits f path k = .ok (.emulator cmd f' k')) :
    ∃ cfg, (∃ k₁, qemuCreateVirtUsbDisk h visits { f with cfg } k = (true, f', k₁)) ∧ ∃ args, cmd = args ++ usbArgs f' := by
  unfold flashGuest at hrun
  dsimp only at hrun
  generalize (if h.pathExists k path && h.isRegularFile k path then path else h.configPath ++ "/" ++ path ++ ".ini") = p
    at hrun
  split at hrun
  · cases hrun
  · split at hrun
    · cases hrun
    · cases hrun
    · rename_i cfg hread
      split at hrun
      · exact ⟨cfg, flashWithQemu_emulator (Except.ok.inj hrun)⟩
      · cases hrun

end VmFlasher

end VmManager
