import Mathlib.Data.List.Nodup
import VmManager.ConfigTheorems
import VmManager.HostArgTheorems
import VmManager.Tui
/-!
# The form, saved and read back

A `Field` of the form has one place in the config, and no two have the same.
What `SetConfToPtree` sets is then read off field by field, through
`WriteConfigFile` and `ReadConfigFile`.
-/
open Text

namespace VmManager

/-! ## Fields and places -/

/-- A part of the form: a text, a menu or the list of PCI devices. -/
inductive Field
  | name | flashfiles | emulator | memory | vcpu | diskSize | diskPath
  | firmwareType | firmUnified | firmSplitedCode | firmSplitedData
  | vgpuType | gvtgVer | gvtgUuid
  | swtpmBin | swtpmData | rpmbBin | rpmbData
  | ptPci | adbPort | fastbootPort | battMed | thermMed | aaf | tkeep | pmctl | extra
  deriving DecidableEq, Repr

namespace Field

/-- In the order of `SetConfToPtree`. -/
def all : List Field :=
  [name, flashfiles, emulator, memory, vcpu, diskSize, diskPath, firmwareType, firmUnified, firmSplitedCode,
   firmSplitedData, vgpuType, gvtgVer, gvtgUuid, swtpmBin, swtpmData, rpmbBin, rpmbData, ptPci, adbPort, fastbootPort,
   battMed, thermMed, aaf, tkeep, pmctl, extra]

/-- The group and the key. -/
def place : Field → String × String
  | name => (kGroupGlob, kGlobName)
  | flashfiles => (kGroupGlob, kGlobFlashfiles)
  | emulator => (kGroupEmul, kEmulPath)
  | memory => (kGroupMem, kMemSize)
  | vcpu => (kGroupVcpu, kVcpuNum)
  | diskSize => (kGroupDisk, kDiskSize)
  | diskPath => (kGroupDisk, kDiskPath)
  | firmwareType => (kGroupFirm, kFirmType)
  | firmUnified => (kGroupFirm, kFirmPath)
  | firmSplitedCode => (kGroupFirm, kFirmCode)
  | firmSplitedData => (kGroupFirm, kFirmVars)
  | vgpuType => (kGroupVgpu, kVgpuType)
  | gvtgVer => (kGroupVgpu, kVgpuGvtgVer)
  | gvtgUuid => (kGroupVgpu, kVgpuUuid)
  | swtpmBin => (kGroupVtpm, kVtpmBinPath)
  | swtpmData => (kGroupVtpm, kVtpmDataDir)
  | rpmbBin => (kGroupRpmb, kRpmbBinPath)
  | rpmbData => (kGroupRpmb, kRpmbDataDir)
  | ptPci => (kGroupPciPt, kPciPtDev)
  | adbPort => (kGroupNet, kNetAdbPort)
  | fastbootPort => (kGroupNet, kNetFastbootPort)
  | battMed => (kGroupMed, kMedBattery)
  | thermMed => (kGroupMed, kMedThermal)
  | aaf => (kGroupAaf, kAafPath)
  | tkeep => (kGroupService, kServTimeKeep)
  | pmctl => (kGroupService, kServPmCtrl)
  | extra => (kGroupExtra, kExtraCmd)

/-- What the field says. -/
def text (form : CivTui) : Field → String
  | name => form.filename
  | flashfiles => form.flashfiles
  | emulator => form.emulator
  | memory => form.memory
  | vcpu => form.vcpu
  | diskSize => form.diskSize
  | diskPath => form.diskPath
  | firmwareType => CivTui.firmwareType.get form.firmwareTypeSelected
  | firmUnified => form.firmUnified
  | firmSplitedCode => form.firmSplitedCode
  | firmSplitedData => form.firmSplitedData
  | vgpuType => CivTui.vgpuType.get form.vgpuSelected
  | gvtgVer => CivTui.gvtgVer.get form.gvtgVerSelected
  | gvtgUuid => form.gvtgUuid
  | swtpmBin => form.swtpmBin
  | swtpmData => form.swtpmData
  | rpmbBin => form.rpmbBin
  | rpmbData => form.rpmbData
  | ptPci => CivTui.passthrough form.ptPciDisp
  | adbPort => form.adbPort
  | fastbootPort => form.fastbootPort
  | battMed => form.battMed
  | thermMed => form.thermMed
  | aaf => form.aaf
  | tkeep => form.tkeep
  | pmctl => form.pmctl
  | extra => form.extra

/-- The field belongs to the selected firmware and graphics type. -/
def belongs (form : CivTui) : Field → Bool
  | firmUnified => CivTui.firmwareType.get form.firmwareTypeSelected = kFirmUnified
  | firmSplitedCode | firmSplitedData => CivTui.firmwareType.get form.firmwareTypeSelected = kFirmSplited
  | gvtgVer | gvtgUuid => CivTui.vgpuType.get form.vgpuSelected = kVgpuGvtG
  | _ => true

/-- `SetValue` for each of the fields. -/
def setAll (form : CivTui) (fs : List Field) (cfg : CivConfig) : CivConfig :=
  fs.foldl (fun cfg f => cfg.setValue f.place.1 f.place.2 (f.text form)) cfg

theorem mem_all (f : Field) : f ∈ all := by
  cases f <;> decide

theorem place_injective : Function.Injective place := by
  have hn : (all.map place).Nodup := by decide
  intro f f' he
  exact List.inj_on_of_nodup_map hn (mem_all f) (mem_all f') he

theorem known_place (f : Field) : known f.place.1 f.place.2 = true := by
  have hall : ∀ f ∈ all, known f.place.1 f.place.2 = true := by decide
  exact hall f (mem_all f)

theorem filter_belongs (form : CivTui) :
    all.filter (·.belongs form) =
      [name, flashfiles, emulator, memory, vcpu, diskSize, diskPath, firmwareType] ++
      (if form.firmwareTypeSelected = 0 then [firmUnified]
       else if form.firmwareTypeSelected = 1 then [firmSplitedCode, firmSplitedData] else []) ++
      [vgpuType] ++ (if form.vgpuSelected = 3 then [gvtgVer, gvtgUuid] else []) ++
      [swtpmBin, swtpmData, rpmbBin, rpmbData, ptPci, adbPort, fastbootPort, battMed, thermMed, aaf, tkeep, pmctl,
       extra] := by
  -- Only the two selections count, and there are ten pairs of them.
  have hform : (fun f : Field => f.belongs form) = fun f => f.belongs
      { filename := "", firmwareTypeSelected := form.firmwareTypeSelected, vgpuSelected := form.vgpuSelected } := by
    funext f
    cases f <;> rfl
  rw [hform]
  generalize form.firmwareTypeSelected = i
  generalize form.vgpuSelected = j
  revert i j
  decide

end Field

/-- `SetConfToPtree` goes through the fields that belong to the selection. -/
theorem setConfToPtree_eq (form : CivTui) (cfg : CivConfig) :
    form.setConfToPtree cfg = Field.setAll form (Field.all.filter (·.belongs form)) cfg := by
  -- An empty UUID is left out by the form, and would be by `SetValue`.
  have huuid : ∀ cfg : CivConfig,
      (if form.gvtgUuid = "" then [] else [(kGroupVgpu, kVgpuUuid, form.gvtgUuid)]).foldl
        (fun cfg v => cfg.setValue v.1 v.2.1 v.2.2) cfg =
      cfg.setValue kGroupVgpu kVgpuUuid form.gvtgUuid := by
    intro cfg
    split
    · rename_i hu
      rw [hu]
      rfl
    · rfl
  rw [Field.setAll, Field.filter_belongs, CivTui.setConfToPtree, CivTui.setValues]
  by_cases hv : form.vgpuSelected = 3
  · simp only [if_pos hv, List.foldl_append, List.foldl_cons, huuid]
    split
    · rfl
    · split <;> rfl
  · simp only [if_neg hv, List.foldl_append]
    split
    · rfl
    · split <;> rfl

/-! ## The fields one after the other -/

/-- All that was typed, and the lines of the selected PCI devices. -/
def CivTui.texts (form : CivTui) : List String :=
  [form.filename, form.flashfiles, form.emulator, form.memory, form.vcpu, form.diskSize, form.diskPath, form.firmUnified,
   form.firmSplitedCode, form.firmSplitedData, form.gvtgUuid, form.swtpmBin, form.swtpmData, form.rpmbBin, form.rpmbData,
   form.adbPort, form.fastbootPort, form.battMed, form.thermMed, form.aaf, form.tkeep, form.pmctl, form.extra] ++
  form.ptPciDisp

/-- No text has a line break. -/
def CivTui.OneLine (form : CivTui) : Prop := ∀ t ∈ form.texts, '\n' ∉ t.toList

instance (form : CivTui) : Decidable form.OneLine :=
  decidable_of_iff ((form.texts.all fun t => !t.toList.contains '\n') = true) (by simp [CivTui.OneLine])

theorem passthrough_oneLine {items : List String} (h : ∀ t ∈ items, '\n' ∉ t.toList) :
    '\n' ∉ (CivTui.passthrough items).toList := by
  induction items with
  | nil => simp [CivTui.passthrough]
  | cons item rest ih =>
    obtain ⟨hitem, hrest⟩ := List.forall_mem_cons.1 h
    unfold CivTui.passthrough
    split
    · exact ih hrest
    · rename_i bdf _ hcut
      have hbdf : '\n' ∉ bdf := fun hm => hitem (cut_subset hcut hm)
      simp only [String.toList_append, String.toList_ofList, List.mem_append, not_or]
      refine ⟨⟨hbdf, ?_⟩, ih hrest⟩
      split <;> decide

namespace Field

variable {form : CivTui}

theorem text_oneLine (h : form.OneLine) (f : Field) : '\n' ∉ (f.text form).toList := by
  have hfirm : ∀ i, '\n' ∉ (CivTui.firmwareType.get i).toList := by decide
  have hvgpu : ∀ i, '\n' ∉ (CivTui.vgpuType.get i).toList := by decide
  have hver : ∀ i, '\n' ∉ (CivTui.gvtgVer.get i).toList := by decide
  cases f with
  | firmwareType => exact hfirm _
  | vgpuType => exact hvgpu _
  | gvtgVer => exact hver _
  | ptPci => exact passthrough_oneLine fun t ht => h t (List.mem_append_right _ ht)
  | _ => exact h _ (by simp [CivTui.texts, text])

theorem wellFormed_setAll (h : form.OneLine) (fs : List Field) {cfg : CivConfig} (hw : WellFormed cfg.cfgData) :
    WellFormed (setAll form fs cfg).cfgData := by
  induction fs generalizing cfg with
  | nil => exact hw
  | cons f fs ih => exact ih (CivConfig.wellFormed_setValue hw (known_place f) (text_oneLine h f))

/-- A field is where it was put, whatever came after it. -/
theorem lookup_setAll (fs : List Field) (cfg : CivConfig) (f : Field) :
    lookup (setAll form fs cfg).cfgData f.place.1 f.place.2 =
      if f ∈ fs ∧ f.text form ≠ "" then some (f.text form) else lookup cfg.cfgData f.place.1 f.place.2 := by
  induction fs generalizing cfg with
  | nil => simp [setAll]
  | cons f' fs ih =>
    rw [setAll, List.foldl_cons, ← setAll, ih, CivConfig.lookup_setValue]
    by_cases he : f = f'
    · by_cases ht : f'.text form = "" <;> simp [he, ht]
    · have hplace : ¬ (f.place.1 = f'.place.1 ∧ f.place.2 = f'.place.2) := by
        rintro ⟨hg, hk⟩
        exact he (place_injective (Prod.ext hg hk))
      simp only [← and_assoc, hplace, false_and, if_false, List.mem_cons, he, false_or]

/-- The places of the fields are the only ones. -/
theorem lookup_setAll_other (fs : List Field) (cfg : CivConfig) {group key : String} (h : ∀ f : Field, f.place ≠ (group, key)) :
    lookup (setAll form fs cfg).cfgData group key = lookup cfg.cfgData group key := by
  induction fs generalizing cfg with
  | nil => rfl
  | cons f fs ih =>
    rw [setAll, List.foldl_cons, ← setAll, ih, CivConfig.lookup_setValue, if_neg]
    rintro ⟨hg, hk, -⟩
    exact h f (Prod.ext hg.symm hk.symm)

end Field

/-! ## The list of PCI devices -/

/-- The address in front of each line that has a space. -/
def addresses (items : List String) : List String :=
  items.filterMap fun item => (cut ' ' item.toList).map fun p => .ofList p.1

/-- The address in front of a line has no comma and no white space. -/
def PlainAddresses (items : List String) : Prop := ∀ a ∈ addresses items, ∀ c ∈ a.toList, c ≠ ',' ∧ isSpace c = false

instance (items : List String) : Decidable (PlainAddresses items) :=
  decidable_of_iff ((addresses items).all (fun a => a.toList.all fun c => c != ',' && !isSpace c) = true)
    (by simp [PlainAddresses])

theorem addresses_cons (item : String) (items : List String) :
    addresses (item :: items) = ((cut ' ' item.toList).map fun p => .ofList p.1).toList ++ addresses items := by
  rw [addresses, List.filterMap_cons]
  cases (cut ' ' item.toList).map fun p => String.ofList p.1 <;> rfl

/-- The text of the loop, one line further. -/
theorem toList_passthrough (item : String) (items : List String) :
    (CivTui.passthrough (item :: items)).toList =
      (cut ' ' item.toList).elim [] (fun p => p.1 ++ if items.isEmpty then [] else [',']) ++
        (CivTui.passthrough items).toList := by
  rw [CivTui.passthrough]
  cases cut ' ' item.toList with
  | none => rfl
  | some p => cases items <;> simp

/-- Skipped lines and the missing comma at the end only add empty tokens. -/
theorem tokens_passthrough {items : List String} (h : PlainAddresses items) :
    ((CivTui.passthrough items).toList.splitOn ',').filter (· ≠ []) = ((addresses items).map (·.toList)).filter (· ≠ []) := by
  induction items with
  | nil => rfl
  | cons item items ih =>
    have ih := ih fun a ha => h a (by simp [addresses_cons, ha])
    rw [toList_passthrough, addresses_cons]
    cases hcut : cut ' ' item.toList with
    | none => simpa using ih
    | some p =>
      have hcomma : ',' ∉ p.1 := by
        intro hc
        have hplain := h (.ofList p.1) (by simp [addresses_cons, hcut]) ',' (by simpa using hc)
        exact hplain.1 rfl
      cases items with
      | nil => simp [CivTui.passthrough, addresses, List.splitOn_eq_singleton hcomma]
      | cons item' items =>
        have hsplit := List.splitOn_append_cons_self_of_not_mem hcomma (CivTui.passthrough (item' :: items)).toList
        simp only [Option.elim_some, List.isEmpty_cons, Bool.false_eq_true, if_false, List.append_assoc,
          List.cons_append, List.nil_append, hsplit, List.filter_cons, ih, Option.map_some, Option.toList_some,
          List.map_cons, String.toList_ofList]

theorem passthrough_noSpace {items : List String} (h : PlainAddresses items) :
    ∀ c ∈ (CivTui.passthrough items).toList, isSpace c = false := by
  induction items with
  | nil => simp [CivTui.passthrough]
  | cons item items ih =>
    have ih := ih fun a ha => h a (by simp [addresses_cons, ha])
    rw [toList_passthrough]
    cases hcut : cut ' ' item.toList with
    | none => exact ih
    | some p =>
      intro c hc
      simp only [Option.elim_some, List.mem_append] at hc
      rcases hc with (hc | hc) | hc
      · exact (h (.ofList p.1) (by simp [addresses_cons, hcut]) c (by simpa using hc)).2
      · have : c = ',' := by
          split at hc <;> simp_all
        rw [this]
        decide
      · exact ih c hc

/-- The devices that `BuildPtPciDevicesCmd` reads from the config of the form are
those that were selected, in order. -/
theorem selected_devices_read (form : CivTui) (h : PlainAddresses form.ptPciDisp) :
    (ptTokens (form.setConfToPtree {})).filter (· ≠ "") = (addresses form.ptPciDisp).filter (· ≠ "") := by
  have htrim : trim (CivTui.passthrough form.ptPciDisp) = CivTui.passthrough form.ptPciDisp := by
    rw [trim, trimList_eq_self (passthrough_noSpace h), String.ofList_toList]
  have hvalue : (form.setConfToPtree {}).getValue kGroupPciPt kPciPtDev = CivTui.passthrough form.ptPciDisp := by
    have hlook : lookup (Field.setAll form (Field.all.filter (·.belongs form)) {}).cfgData kGroupPciPt kPciPtDev =
        _ := Field.lookup_setAll _ {} .ptPci
    have hmem : Field.ptPci ∈ Field.all.filter (·.belongs form) := List.mem_filter.2 ⟨Field.mem_all _, rfl⟩
    rw [getValue_eq, setConfToPtree_eq, hlook]
    by_cases hempty : CivTui.passthrough form.ptPciDisp = ""
    · rw [if_neg fun hc => hc.2 hempty, hempty]
      rfl
    · rw [if_pos ⟨hmem, hempty⟩]
      exact htrim
  have htokens : (splitCompress ',' (CivTui.passthrough form.ptPciDisp)).filter (· ≠ "") =
      (addresses form.ptPciDisp).filter (· ≠ "") := by
    have hid : ((addresses form.ptPciDisp).map (·.toList)).map String.ofList = addresses form.ptPciDisp := by
      simp
    rw [filter_splitCompress, tokens_passthrough h, ← filter_ofList, hid]
  rw [ptTokens, hvalue, htrim]
  split
  · rename_i hempty
    rw [← htokens, String.isEmpty_iff.1 hempty]
    rfl
  · -- No token has white space to trim: it is empty, or a selected address.
    have hself : ∀ t ∈ splitCompress ',' (CivTui.passthrough form.ptPciDisp), trim t = t := by
      intro t ht
      by_cases hempty : t = ""
      · rw [hempty]
        rfl
      · have hmem : t ∈ (addresses form.ptPciDisp).filter (· ≠ "") := by
          rw [← htokens]
          exact List.mem_filter.2 ⟨ht, by simpa using hempty⟩
        rw [trim, trimList_eq_self fun c hc => (h t (List.mem_filter.1 hmem).1 c hc).2, String.ofList_toList]
    rw [List.map_congr_left hself, List.map_id', htokens]

theorem selected_devices_two :
    (ptTokens (({ CivTui.initializeUi "vm" with
        ptPciDisp := ["", "0000:03:00.0 Ethernet", "0000:05:00.0", " bridge", "0000:04:00.0 USB", "VGA"] } :
        CivTui).setConfToPtree {})).filter (· ≠ "") = ["0000:03:00.0", "0000:04:00.0"] :=
  (selected_devices_read _ (by decide)).trans rfl

/-! ## Saved and read back -/

section Saved
variable {κ : Type} {h : Host κ} {k : κ} {path : String} {form : CivTui}

/-- The config has the fields that belong to the selection, each in its place,
and nothing else. -/
structure ReadsBack (form : CivTui) (cfg : CivConfig) : Prop where
  field : ∀ f : Field, cfg.getValue f.place.1 f.place.2 = if f.belongs form then trim (f.text form) else ""
  other : ∀ group key, (∀ f : Field, f.place ≠ (group, key)) → cfg.getValue group key = ""

theorem readsBack_of_written (hb : form.OneLine) (he : h.pathExists k path = true) (hr : h.isRegularFile k path = true)
    (hk : CivConfig.Keeps h k path) :
    ∃ k' cfg, (form.setConfToPtree {}).writeConfigFile h k path = .ok (true, k') ∧
      CivConfig.readConfigFile h k' path = .ok (some cfg) ∧ ReadsBack form cfg := by
  rw [setConfToPtree_eq]
  generalize hfs : Field.all.filter (·.belongs form) = fs
  have hmem : ∀ f : Field, f ∈ fs ↔ f.belongs form = true := by
    intro f
    simp [← hfs, f.mem_all]
  have hw : WellFormed (Field.setAll form fs {}).cfgData :=
    Field.wellFormed_setAll hb fs ⟨List.nodup_nil, fun _ hm => (by cases hm)⟩
  have hlook : ∀ f : Field, lookup (Field.setAll form fs {}).cfgData f.place.1 f.place.2 =
      if f ∈ fs ∧ f.text form ≠ "" then some (f.text form) else none := Field.lookup_setAll fs {}
  -- The firmware type is always set, so there is something to write.
  have hne : (Field.setAll form fs {}).cfgData ≠ [] := by
    intro hnil
    have htype := hlook .firmwareType
    rw [hnil, if_pos] at htype
    · cases htype
    · refine ⟨(hmem .firmwareType).2 rfl, ?_⟩
      have hall : ∀ i, CivTui.firmwareType.get i ≠ "" := by decide
      exact hall _
  obtain ⟨k', hwrite, hread⟩ := CivConfig.read_of_written hw hne he hr hk
  refine ⟨k', _, hwrite, hread, fun f => ?_, fun group key hnone => ?_⟩
  · rw [CivConfig.getValue_trimmed, hlook]
    by_cases hin : f.belongs form = true
    · by_cases ht : f.text form = "" <;> simp [hmem, hin, ht]
    · rw [if_neg fun hf => hin ((hmem f).1 hf.1), if_neg hin]
      rfl
  · rw [CivConfig.getValue_trimmed, Field.lookup_setAll_other fs {} hnone]
    rfl

/-- A form that was saved reads back field by field, and no field is in
another's place. -/
theorem form_reads_back (h : Host κ) (k : κ) (path : String) (form : CivTui) (hb : form.OneLine)
    (he : h.pathExists k path = true) (hr : h.isRegularFile k path = true) (hk : CivConfig.Keeps h k path) :
    Function.Injective Field.place ∧
    ∃ k' cfg, (form.setConfToPtree {}).writeConfigFile h k path = .ok (true, k') ∧
      CivConfig.readConfigFile h k' path = .ok (some cfg) ∧
      ∀ f : Field, (f.belongs form = true → cfg.getValue f.place.1 f.place.2 = trim (f.text form)) ∧
        (f.text form = "" ∨ f.belongs form = false → cfg.getValue f.place.1 f.place.2 = "") := by
  obtain ⟨k', cfg, hwrite, hread, hback⟩ := readsBack_of_written hb he hr hk
  refine ⟨Field.place_injective, k', cfg, hwrite, hread, fun f => ⟨fun hin => ?_, fun hout => ?_⟩⟩
  · rw [hback.field, if_pos hin]
  · rw [hback.field]
    rcases hout with ht | hout
    · rw [ht]
      split <;> rfl
    · rw [if_neg (by simp [hout])]

end Saved

/-- A machine with one file, which may be there or not. -/
def fileHost (path : String) : Host (Option String) :=
  liveHost (fun k p => if p = path then k else none) (fun _ _ => none) []
    (fun k p content => if p = path then some content else k) id

theorem fileHost_keeps (path : String) (k : Option String) : CivConfig.Keeps (fileHost path) k path where
  pathExists content := by simp [fileHost, liveHost]
  isRegularFile content := by simp [fileHost, liveHost]
  readFile content := by simp [fileHost, liveHost]

def vmForm (vgpuSelected : Fin 5) (gvtgUuid : String) : CivTui :=
  { CivTui.initializeUi "vm" with
    memory := " 2G "
    firmSplitedCode := "code.fd"
    vgpuSelected
    gvtgUuid
    ptPciDisp := ["0000:00:14.0 USB controller", "0000:00:1f.3 Audio device"] }

/-- The texts are trimmed, the code of a splited firmware is not written, and
the two addresses stand side by side. -/
theorem form_reads_back_vm : ∃ k' cfg,
    ((vmForm 3 "").setConfToPtree {}).writeConfigFile (fileHost "vm.ini") (some "") "vm.ini" = .ok (true, k') ∧
      CivConfig.readConfigFile (fileHost "vm.ini") k' "vm.ini" = .ok (some cfg) ∧
      cfg.getValue kGroupMem kMemSize = "2G" ∧ cfg.getValue kGroupFirm kFirmCode = "" ∧
      cfg.getValue kGroupPciPt kPciPtDev = "0000:00:14.0,0000:00:1f.3" := by
  obtain ⟨-, k', cfg, hwrite, hread, hfield⟩ := form_reads_back (fileHost "vm.ini") (some "") "vm.ini" (vmForm 3 "")
    (by decide) rfl rfl (fileHost_keeps _ _)
  refine ⟨k', cfg, hwrite, hread, ?_, ?_, ?_⟩
  · refine ((hfield .memory).1 rfl).trans ?_
    rfl
  · exact (hfield .firmSplitedCode).2 (.inr rfl)
  · refine ((hfield .ptPci).1 rfl).trans ?_
    rfl

/-! ## What the builder says to it -/

section Accepted
open VmBuilderQemu
variable {κ : Type} (h : Host κ) {vb : VmBuilderQemu} {w : World κ} {form : CivTui}

/-- The checks that `BuildVmArgs` makes of the config. -/
structure Accepted (vb : VmBuilderQemu) (w : World κ) : Prop where
  nameQmp : (vb.buildNameQmp h).1 = true
  vgpu : ∃ vb' w', buildVgpuCmd h vb w = .ok vb' w'
  aafCfg : vb.buildAafCfg.1 = true
  firmware : vb.buildFirmwareCmd.1 = true

theorem buildGvtg_ok_iff :
    (∃ vb' w', buildGvtg h vb w = .ok vb' w') ↔
      vb.value kGroupVgpu kVgpuUuid ≠ "" ∧ h.isUuid (vb.value kGroupVgpu kVgpuUuid) = true := by
  have hcreate : (w.onKernel (vb.createGvtgVgpu h)).1 = true := rfl
  unfold buildGvtg
  by_cases he : vb.value kGroupVgpu kVgpuUuid = ""
  · simp [he]
  · cases hu : h.isUuid (vb.value kGroupVgpu kVgpuUuid) <;> simp [he, hu, hcreate]

theorem buildGvtd_ok (hg : gpuGranted h vb w = true) : ∃ vb' w', buildGvtd h vb w = .ok vb' w' := by
  unfold buildGvtd passthroughGpu
  unfold gpuGranted at hg
  simp only [hg]
  exact ⟨_, _, rfl⟩

theorem buildVirtio_ok (ho : vb.value kGroupVgpu kVgpuOutputs = "") : ∃ vb' w', buildVirtio vb w = .ok vb' w' := by
  have ho' : (vb.append " -device virtio-vga-gl").value kGroupVgpu kVgpuOutputs = "" := ho
  unfold buildVirtio
  simp only [ho']
  exact ⟨_, _, rfl⟩

/-- The dispatch on the types that both the form and the builder know. -/
theorem buildVgpuCmd_ok_iff {t : String} (ht : vb.value kGroupVgpu kVgpuType = t)
    (hmem : t = kVgpuVirtio ∨ t = kVgpuRamfb ∨ t = kVgpuGvtG ∨ t = kVgpuGvtD)
    (ho : vb.value kGroupVgpu kVgpuOutputs = "") (hgpu : t = kVgpuGvtD → gpuGranted h vb w = true) :
    (∃ vb' w', buildVgpuCmd h vb w = .ok vb' w') ↔ (t = kVgpuGvtG →
      vb.value kGroupVgpu kVgpuUuid ≠ "" ∧ h.isUuid (vb.value kGroupVgpu kVgpuUuid) = true) := by
  unfold buildVgpuCmd
  simp only [ht]
  rcases hmem with rfl | rfl | rfl | rfl
  · rw [if_neg (by decide), if_neg (by decide), if_neg (by decide), if_pos rfl]
    exact iff_of_true (buildVirtio_ok ho) fun he => absurd he (by decide)
  · rw [if_neg (by decide), if_neg (by decide), if_neg (by decide), if_neg (by decide), if_pos rfl]
    exact iff_of_true ⟨_, _, rfl⟩ fun he => absurd he (by decide)
  · rw [if_neg (by decide), if_pos rfl, buildGvtg_ok_iff]
    exact ⟨fun hu _ => hu, fun hu => hu rfl⟩
  · rw [if_neg (by decide), if_neg (by decide), if_pos rfl]
    exact iff_of_true (buildGvtd_ok h (hgpu rfl)) fun he => absurd he (by decide)

theorem ReadsBack.value (hback : ReadsBack form vb.cfg) {f : Field} (hin : f.belongs form = true) :
    vb.value f.place.1 f.place.2 = trim (f.text form) := by
  rw [VmBuilderQemu.value, hback.field, if_pos hin]

theorem ReadsBack.nameQmp (hback : ReadsBack form vb.cfg) (hname : trim form.filename ≠ "") :
    (vb.buildNameQmp h).1 = true := by
  have hv : vb.value kGroupGlob kGlobName = trim form.filename := hback.value (f := .name) rfl
  simp [buildNameQmp_fst, hv, hname]

theorem ReadsBack.aafCfg (hback : ReadsBack form vb.cfg) : vb.buildAafCfg.1 = true := by
  have hplace : ∀ f : Field, f.place ≠ (kGroupAaf, kAafSuspend) := fun f => by cases f <;> decide
  have hv : vb.value kGroupAaf kAafSuspend = "" := hback.other _ _ hplace
  simp [buildAafCfg_fst, hv, aafSuspend]

theorem ReadsBack.firmware (hback : ReadsBack form vb.cfg) : vb.buildFirmwareCmd.1 = true := by
  have hv : vb.value kGroupFirm kFirmType = trim (CivTui.firmwareType.get form.firmwareTypeSelected) :=
    hback.value (f := .firmwareType) rfl
  have hall : ∀ i, trim (CivTui.firmwareType.get i) = kFirmUnified ∨ trim (CivTui.firmwareType.get i) = kFirmSplited := by
    decide
  rw [buildFirmwareCmd_fst, hv]
  exact decide_eq_true (hall _)

theorem ReadsBack.vgpu_iff (hback : ReadsBack form vb.cfg) (htype : CivTui.vgpuType.get form.vgpuSelected ≠ kVgpuNone)
    (hgpu : CivTui.vgpuType.get form.vgpuSelected = kVgpuGvtD → gpuGranted h vb w = true) :
    (∃ vb' w', buildVgpuCmd h vb w = .ok vb' w') ↔ (CivTui.vgpuType.get form.vgpuSelected = kVgpuGvtG →
      trim form.gvtgUuid ≠ "" ∧ h.isUuid (trim form.gvtgUuid) = true) := by
  have hv : vb.value kGroupVgpu kVgpuType = CivTui.vgpuType.get form.vgpuSelected := by
    have hall : ∀ i, trim (CivTui.vgpuType.get i) = CivTui.vgpuType.get i := by decide
    exact (hback.value (f := .vgpuType) rfl).trans (hall _)
  have hplace : ∀ f : Field, f.place ≠ (kGroupVgpu, kVgpuOutputs) := fun f => by cases f <;> decide
  have hmem : ∀ i, CivTui.vgpuType.get i ≠ kVgpuNone → CivTui.vgpuType.get i = kVgpuVirtio ∨
      CivTui.vgpuType.get i = kVgpuRamfb ∨ CivTui.vgpuType.get i = kVgpuGvtG ∨ CivTui.vgpuType.get i = kVgpuGvtD := by
    decide
  rw [buildVgpuCmd_ok_iff h hv (hmem _ htype) (hback.other _ _ hplace) hgpu]
  apply forall_congr'
  intro hg
  have hu : vb.value kGroupVgpu kVgpuUuid = trim form.gvtgUuid := hback.value (f := .gvtgUuid) (decide_eq_true hg)
  rw [hu]

variable {k : κ}

theorem readsBack_of_saved (hb : form.OneLine) (hnew : h.pathExists k (form.filePath h) = false)
    (hk : CivConfig.Keeps h k (form.filePath h))
    (hk' : CivConfig.Keeps h (h.writeFile k (form.filePath h) "") (form.filePath h)) :
    ∃ civConfig k' cfg, form.saveOn h k {} = .ok (true, civConfig, k') ∧
      CivConfig.readConfigFile h k' (form.filePath h) = .ok (some cfg) ∧ ReadsBack form cfg := by
  obtain ⟨k', cfg, hwrite, hread, hback⟩ := readsBack_of_written hb (hk.pathExists "") (hk.isRegularFile "") hk'
  refine ⟨form.setConfToPtree {}, k', cfg, ?_, hread, hback⟩
  simp only [CivTui.saveOn, hnew, Bool.false_eq_true, if_false, hwrite]
  rfl

/-- The builder takes a saved form with a name and another graphics type than
`headless`, unless it asks for `GVT-g` without a UUID. -/
theorem saved_form_accepted_iff (h : Host κ) (k : κ) (form : CivTui) (hb : form.OneLine)
    (hname : trim form.filename ≠ "") (htype : CivTui.vgpuType.get form.vgpuSelected ≠ kVgpuNone)
    (hnew : h.pathExists k (form.filePath h) = false) (hk : CivConfig.Keeps h k (form.filePath h))
    (hk' : CivConfig.Keeps h (h.writeFile k (form.filePath h) "") (form.filePath h)) :
    ∃ civConfig k' cfg, form.saveOn h k {} = .ok (true, civConfig, k') ∧
      CivConfig.readConfigFile h k' (form.filePath h) = .ok (some cfg) ∧
      ∀ (vb : VmBuilderQemu) (w : World κ), vb.cfg = cfg →
        (CivTui.vgpuType.get form.vgpuSelected = kVgpuGvtD → gpuGranted h vb w = true) →
        (Accepted h vb w ↔ (CivTui.vgpuType.get form.vgpuSelected = kVgpuGvtG →
          trim form.gvtgUuid ≠ "" ∧ h.isUuid (trim form.gvtgUuid) = true)) := by
  obtain ⟨civConfig, k', cfg, hsave, hread, hback⟩ := readsBack_of_saved h hb hnew hk hk'
  refine ⟨civConfig, k', cfg, hsave, hread, ?_⟩
  rintro vb w rfl hgpu
  have hvgpu := hback.vgpu_iff h htype hgpu
  exact ⟨fun ha => hvgpu.1 ha.vgpu, fun hu => ⟨hback.nameQmp h hname, hvgpu.2 hu, hback.aafCfg, hback.firmware⟩⟩

end Accepted

def vmFile : String := "/root/.intel/.civ/vm.ini"

theorem saved_form_accepted_uuid : ∃ civConfig k' cfg,
    (vmForm 3 "c2b8f7c4-1f5e-4a3f-9a57-4f7bb0d2a6d1").saveOn (fileHost vmFile) none {} = .ok (true, civConfig, k') ∧
      CivConfig.readConfigFile (fileHost vmFile) k' vmFile = .ok (some cfg) ∧
      ∀ w, Accepted (fileHost vmFile) { uid := 0, name := "vm", cfg } w := by
  obtain ⟨civConfig, k', cfg, hsave, hread, haccept⟩ := saved_form_accepted_iff (fileHost vmFile) none
    (vmForm 3 "c2b8f7c4-1f5e-4a3f-9a57-4f7bb0d2a6d1") (by decide) (by decide) (by decide)
    rfl (fileHost_keeps _ _) (fileHost_keeps _ _)
  refine ⟨civConfig, k', cfg, hsave, hread, fun w => (haccept _ w rfl ?_).2 ?_⟩
  · intro hd
    exact absurd hd (by decide)
  · intro _
    exact ⟨by decide, rfl⟩

def brokenFile : String := "/root/.intel/.civ/vm\nx.ini"

/-- The form can be saved without the UUID that `GVT-g` needs, and a name with
a line break makes a file that cannot be read. -/
theorem saved_form_rejected :
    (∃ civConfig k' cfg, (vmForm 3 "").saveOn (fileHost vmFile) none {} = .ok (true, civConfig, k') ∧
      CivConfig.readConfigFile (fileHost vmFile) k' vmFile = .ok (some cfg) ∧
      ∀ w, ¬ Accepted (fileHost vmFile) { uid := 0, name := "vm", cfg } w) ∧
    ∃ civConfig k', (CivTui.initializeUi "vm\nx").saveOn (fileHost brokenFile) none {} = .ok (true, civConfig, k') ∧
      CivConfig.readConfigFile (fileHost brokenFile) k' brokenFile = .error .iniParserError := by
  constructor
  · have hnew : (fileHost vmFile).pathExists none ((vmForm 3 "").filePath (fileHost vmFile)) = false := rfl
    obtain ⟨civConfig, k', cfg, hsave, hread, hback⟩ :=
      readsBack_of_saved (fileHost vmFile) (by decide) hnew (fileHost_keeps _ _) (fileHost_keeps _ _)
    refine ⟨civConfig, k', cfg, hsave, hread, fun w ha => ?_⟩
    have hvgpu := (ReadsBack.vgpu_iff (fileHost vmFile) hback (by decide) fun hd => absurd hd (by decide)).1
      ha.vgpu
    exact (hvgpu rfl).1 rfl
  · refine ⟨_, _, rfl, ?_⟩
    rfl

end VmManager
