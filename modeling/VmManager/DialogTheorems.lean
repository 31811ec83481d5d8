import VmManager.Dialog
import VmManager.FormTheorems
import VmManager.Lib.Runs
/-!
# Theorems about a session with the form

What is saved after any number of clicks: the devices that were checked when
the button was last pressed, and of every other field what it said when it last
had something to say.
-/
open Text Runs

namespace VmManager.Dialog

variable {κ : Type} {h : Host κ} {d d' : Dialog κ} {e : Event κ}

/-- What was checked when the button was last pressed, and the forms that
`SetConfToPtree` has gone through: those of each `SAVE` that found no file of
the name. -/
structure Past where
  chosen : List String := []
  attempts : List CivTui := []

def look (h : Host κ) (d : Dialog κ) : Event κ → Past → Past
  | .click, p => { p with chosen := checkedNames d.pciDev }
  | .save, p => if d.fileThere h then p else { p with attempts := p.attempts ++ [d.form] }
  | _, p => p

theorem look_save (p : Past) :
    look h d .save p = if d.fileThere h then p else { p with attempts := p.attempts ++ [d.form] } := rfl

/-! ## What every session keeps -/

/-- What `civ_config_` holds after these forms. -/
def configOf (attempts : List CivTui) : CivConfig :=
  attempts.foldl (fun cfg (form : CivTui) => form.setConfToPtree cfg) {}

theorem configOf_append (attempts : List CivTui) (form : CivTui) :
    configOf (attempts ++ [form]) = form.setConfToPtree (configOf attempts) := List.foldl_append

structure Kept (name : String) (lspci : List String) (d : Dialog κ) (p : Past) : Prop where
  disp : d.form.ptPciDisp = p.chosen
  menu : d.editing = false → p.chosen = checkedNames d.pciDev
  lable : d.ptBtnLable = if d.editing then "Done" else "Edit"
  lines : d.pciDev.map (·.name) = lspci.filter (· ≠ "")
  chosen : p.chosen.Sublist (lspci.filter (· ≠ ""))
  filename : d.form.filename = name
  config : d.civConfig = configOf p.attempts

theorem checkedNames_sublist (pciDev : List CheckBoxState) : (checkedNames pciDev).Sublist (pciDev.map (·.name)) :=
  List.filter_sublist.map _

/-- What `SAVE` leaves alone, and what it does to the config. -/
theorem clickSave_frame (h : Host κ) (d : Dialog κ) : (d.clickSave h).form = d.form ∧
    (d.clickSave h).pciDev = d.pciDev ∧ (d.clickSave h).editing = d.editing ∧
    (d.clickSave h).ptBtnLable = d.ptBtnLable ∧
    (d.clickSave h).civConfig = if d.fileThere h then d.civConfig else d.form.setConfToPtree d.civConfig := by
  unfold clickSave fileThere CivTui.saveOn
  by_cases he : h.pathExists d.kernel (d.form.filePath h) = true
  · simp only [he, if_true, and_self]
  · simp only [he, Bool.false_eq_true, if_false]
    cases (d.form.setConfToPtree d.civConfig).writeConfigFile h
      (h.writeFile d.kernel (d.form.filePath h) "") (d.form.filePath h) with
    | error e => exact ⟨rfl, rfl, rfl, rfl, rfl⟩
    | ok r => exact ⟨rfl, rfl, rfl, rfl, rfl⟩

theorem kept_step {name : String} {lspci : List String} {p p' : Past} (hi : Kept name lspci d p)
    (hs : withHistory (step h) (look h) (d, p) e = some (d', p')) : Kept name lspci d' p' := by
  obtain ⟨hstep, rfl⟩ := withHistory_eq.1 hs
  unfold step at hstep
  split at hstep
  · cases hstep
  cases e with
  | edit form =>
    dsimp only at hstep
    split at hstep <;> cases hstep
    rename_i hsame
    exact { hi with disp := hsame.2.trans hi.disp, filename := hsame.1.trans hi.filename }
  | check i =>
    dsimp only at hstep
    split at hstep <;> cases hstep
    rename_i hed
    refine { hi with menu := fun hm => absurd (hed.1.symm.trans hm) (by decide), lines := ?_ }
    rw [← hi.lines]
    refine List.ext_getElem? fun j => ?_
    rw [List.getElem?_map, List.getElem?_map, List.getElem?_modify]
    cases d.pciDev[j]? with
    | none => rfl
    | some c =>
      change some (if i = j then (⟨c.name, !c.checked⟩ : CheckBoxState) else c).name = some c.name
      split <;> rfl
  | click =>
    cases hstep
    refine { hi with disp := rfl, menu := fun _ => rfl, lable := rfl, chosen := ?_ }
    exact hi.lines ▸ checkedNames_sublist d.pciDev
  | save =>
    cases hstep
    obtain ⟨hform, hpci, hed, hlable, hcfg⟩ := clickSave_frame h d
    have hpast : (look h d .save p).chosen = p.chosen := by
      rw [look_save]
      split <;> rfl
    constructor
    · rw [hform, hpast]
      exact hi.disp
    · rw [hed, hpci, hpast]
      exact hi.menu
    · rw [hlable, hed]
      exact hi.lable
    · rw [hpci]
      exact hi.lines
    · rw [hpast]
      exact hi.chosen
    · rw [hform]
      exact hi.filename
    · rw [hcfg, look_save]
      split
      · exact hi.config
      · rw [configOf_append, ← hi.config]
  | exit =>
    cases hstep
    exact { hi with }
  | host k =>
    cases hstep
    exact { hi with }

theorem kept_init (name : String) (lspci : List String) (k : κ) : Kept name lspci (initializeUi name lspci k) {} where
  disp := rfl
  menu _ := by
    simp only [checkedNames, initializeUi, List.filter_map]
    simp
  lable := rfl
  lines := by
    simp only [initializeUi, List.map_map]
    exact List.map_id _
  chosen := List.nil_sublist _
  filename := rfl
  config := rfl

/-! ## What has been said -/

/-- What the field said when it last belonged to the selection and was not
empty. -/
def lastSaid (f : Field) (attempts : List CivTui) : Option String :=
  (attempts.reverse.find? fun form => f.belongs form && decide (f.text form ≠ "")).map fun form => f.text form

theorem lastSaid_append (f : Field) (attempts : List CivTui) (form : CivTui) : lastSaid f (attempts ++ [form]) =
    if f.belongs form = true ∧ f.text form ≠ "" then some (f.text form) else lastSaid f attempts := by
  unfold lastSaid
  rw [List.reverse_append, List.reverse_singleton, List.singleton_append, List.find?_cons]
  by_cases hin : f.belongs form = true ∧ f.text form ≠ ""
  · rw [if_pos hin, hin.1, decide_eq_true hin.2]
    rfl
  · rw [if_neg hin]
    split
    · rename_i ht
      rw [Bool.and_eq_true, decide_eq_true_eq] at ht
      exact absurd ht hin
    · rfl

/-- Texts that are cleared, and fields that are no longer selected, leave in
the config what was there. -/
theorem lookup_configOf (attempts : List CivTui) (f : Field) :
    lookup (configOf attempts).cfgData f.place.1 f.place.2 = lastSaid f attempts := by
  induction attempts using List.reverseRecOn with
  | nil => rfl
  | append_singleton attempts form ih =>
    rw [configOf_append, setConfToPtree_eq, Field.lookup_setAll, lastSaid_append, ih]
    simp only [List.mem_filter, Field.mem_all, true_and]

/-- No form sets anything else. -/
theorem lookup_configOf_other (attempts : List CivTui) {group key : String} (hnone : ∀ f : Field, f.place ≠ (group, key)) :
    lookup (configOf attempts).cfgData group key = none := by
  induction attempts using List.reverseRecOn with
  | nil => rfl
  | append_singleton attempts form ih =>
    rw [configOf_append, setConfToPtree_eq, Field.lookup_setAll_other _ _ hnone, ih]

theorem wellFormed_configOf {attempts : List CivTui} (hb : ∀ form ∈ attempts, form.OneLine) :
    WellFormed (configOf attempts).cfgData := by
  induction attempts using List.reverseRecOn with
  | nil => exact ⟨List.nodup_nil, fun _ hm => by cases hm⟩
  | append_singleton attempts form ih =>
    obtain ⟨hold, hform⟩ := List.forall_mem_append.1 hb
    rw [configOf_append, setConfToPtree_eq]
    exact Field.wellFormed_setAll (hform form (List.mem_singleton_self form)) _ (ih hold)

/-- The firmware type is always said. -/
theorem configOf_ne_nil (attempts : List CivTui) (form : CivTui) : (configOf (attempts ++ [form])).cfgData ≠ [] := by
  intro hnil
  have htype := lookup_configOf (attempts ++ [form]) .firmwareType
  have hall : ∀ i, CivTui.firmwareType.get i ≠ "" := by decide
  rw [hnil, lastSaid_append, if_pos ⟨rfl, hall _⟩] at htype
  cases htype

/-! ## What is saved -/

/-- In every session the devices in the form are those that were checked when
the button was last pressed, in the order of `lspci` and without its empty
lines, and while the menu is shown these are the checked ones. The config holds
for each field what it last said at an attempt to save that found no file. -/
theorem chosen_devices_kept (h : Host κ) (k : κ) (name : String) (lspci : List String) (es : List (Event κ))
    (d : Dialog κ) (p : Past)
    (hr : run (withHistory (step h) (look h)) (initializeUi name lspci k, {}) es = some (d, p)) :
    d.form.ptPciDisp = p.chosen ∧ p.chosen.Sublist (lspci.filter (· ≠ "")) ∧
      (d.editing = false → p.chosen = checkedNames d.pciDev) ∧
      (d.ptBtnLable = if d.editing then "Done" else "Edit") ∧
      ∀ f : Field, lookup d.civConfig.cfgData f.place.1 f.place.2 = lastSaid f p.attempts := by
  have hi := run_keeps (I := fun x : Dialog κ × Past => Kept name lspci x.1 x.2)
    (fun _ _ _ hi hs => kept_step hi hs) hr (kept_init name lspci k)
  exact ⟨hi.disp, hi.chosen, hi.menu, hi.lable, fun f => by rw [hi.config, lookup_configOf]⟩

/-- A machine with one file, in a directory that may be missing. -/
def dirHost (path : String) : Host (Bool × Option String) :=
  liveHost (fun k p => if p = path then k.2 else none) (fun _ _ => none) []
    (fun k p content => if k.1 ∧ p = path then (true, some content) else k) id

theorem dirHost_keeps (path : String) (content : Option String) :
    CivConfig.Keeps (dirHost path) (true, content) path where
  pathExists content := by simp [dirHost, liveHost]
  isRegularFile content := by simp [dirHost, liveHost]
  readFile content := by simp [dirHost, liveHost]

def vmLspci : List String := ["0000:00:14.0 USB controller", "", "0000:00:1f.3 Audio device"]

/-- `memory` is typed, the file cannot be made, `memory` is cleared. Two lines
are checked, and one of them no longer when the button is pressed again. -/
def vmSession : List (Event (Bool × Option String)) :=
  [.edit { CivTui.initializeUi "vm" with memory := "2G" }, .save, .edit (CivTui.initializeUi "vm"), .click, .check 1,
   .check 0, .check 1, .click, .host (true, none)]

theorem chosen_devices_kept_vm : ∃ d p,
    run (withHistory (step (dirHost vmFile)) (look (dirHost vmFile))) (initializeUi "vm" vmLspci (false, none), {})
      vmSession = some (d, p) ∧
    d.form.ptPciDisp = ["0000:00:14.0 USB controller"] ∧ lookup d.civConfig.cfgData kGroupMem kMemSize = some "2G" := by
  refine ⟨_, _, rfl, ?_⟩
  have hkept := chosen_devices_kept (dirHost vmFile) (false, none) "vm" vmLspci vmSession _ _ rfl
  exact ⟨hkept.1, hkept.2.2.2.2 .memory⟩

/-- What is saved in the end reads back as what every field last had to say,
be it at an attempt that failed, if no text has a line break and the host keeps
the file. -/
theorem session_reads_back (h : Host κ) (k : κ) (name : String) (lspci : List String) (es : List (Event κ))
    (d : Dialog κ) (p : Past)
    (hr : run (withHistory (step h) (look h)) (initializeUi name lspci k, {}) es = some (d, p))
    (hopen : d.closed = false) (hnew : d.fileThere h = false) (hb : ∀ form ∈ p.attempts ++ [d.form], form.OneLine)
    (hk : CivConfig.Keeps h d.kernel (d.form.filePath h))
    (hk' : CivConfig.Keeps h (h.writeFile d.kernel (d.form.filePath h) "") (d.form.filePath h)) :
    ∃ d' cfg, step h d .save = some d' ∧ d'.closed = true ∧
      CivConfig.readConfigFile h d'.kernel (d.form.filePath h) = .ok (some cfg) ∧
      (∀ f : Field, cfg.getValue f.place.1 f.place.2 = trim ((lastSaid f (p.attempts ++ [d.form])).getD "")) ∧
      ∀ group key, (∀ f : Field, f.place ≠ (group, key)) → cfg.getValue group key = "" := by
  have hi := run_keeps (I := fun x : Dialog κ × Past => Kept name lspci x.1 x.2)
    (fun _ _ _ hi hs => kept_step hi hs) hr (kept_init name lspci k)
  obtain ⟨k', hwrite, hread⟩ := CivConfig.read_of_written (wellFormed_configOf hb)
    (configOf_ne_nil p.attempts d.form) (hk.pathExists "") (hk.isRegularFile "") hk'
  have hconfig : d.civConfig = configOf p.attempts := hi.config
  rw [configOf_append, ← hconfig] at hwrite hread
  have hsave : d.form.saveOn h d.kernel d.civConfig = .ok (true, d.form.setConfToPtree d.civConfig, k') := by
    rw [fileThere] at hnew
    unfold CivTui.saveOn
    simp only [hnew, Bool.false_eq_true, if_false, hwrite]
    rfl
  refine ⟨d.clickSave h, ⟨(d.form.setConfToPtree d.civConfig).cfgData.map Section.trimmed⟩, ?_, ?_, ?_, fun f => ?_,
    fun group key hnone => ?_⟩
  · unfold step
    rw [if_neg (by rw [hopen]; decide)]
  · rw [clickSave, hsave]
  · rw [clickSave, hsave]
    exact hread
  · rw [CivConfig.getValue_trimmed, hconfig, ← configOf_append, lookup_configOf]
  · rw [CivConfig.getValue_trimmed, hconfig, ← configOf_append, lookup_configOf_other _ hnone]
    rfl

theorem session_reads_back_vm : ∃ d d' cfg,
    run (step (dirHost vmFile)) (initializeUi "vm" vmLspci (false, none)) vmSession = some d ∧
    step (dirHost vmFile) d .save = some d' ∧ d'.closed = true ∧
    CivConfig.readConfigFile (dirHost vmFile) d'.kernel vmFile = .ok (some cfg) ∧
    cfg.getValue kGroupMem kMemSize = "2G" ∧ cfg.getValue kGroupPciPt kPciPtDev = "0000:00:14.0" := by
  obtain ⟨d', cfg, hs, hclosed, hread, hfield, -⟩ := session_reads_back (dirHost vmFile) (false, none) "vm" vmLspci
    vmSession _ _ rfl rfl rfl (by decide) (dirHost_keeps _ _) (dirHost_keeps _ _)
  exact ⟨_, d', cfg, rfl, hs, hclosed, hread, (hfield .memory).trans rfl, (hfield .ptPci).trans rfl⟩

end VmManager.Dialog
