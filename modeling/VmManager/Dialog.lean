import VmManager.Tui
/-!
# A session with the form (`guest/tui.cc`)

What the user does between `InitializeUi` and the end of `screen_.Loop`: he
fills in the form, chooses PCI devices behind a button of their own, and saves,
maybe more than once.
-/
namespace VmManager

structure CheckBoxState where
  name : String
  checked : Bool
  deriving DecidableEq, Repr

structure Dialog (κ : Type) where
  form : CivTui
  /-- The lines of `lspci -D`. -/
  pciDev : List CheckBoxState
  /-- `pt_pci_tab_id_` is 1: the checkboxes are shown, and not the menu. -/
  editing : Bool := false
  ptBtnLable : String := "Edit"
  civConfig : CivConfig := {}
  statusBar : String := ""
  /-- The loop has ended. -/
  closed : Bool := false
  kernel : κ

namespace Dialog

variable {κ : Type}

/-- `InitializeUi`; empty lines are passed over. -/
def initializeUi (name : String) (lspci : List String) (k : κ) : Dialog κ where
  form := .initializeUi name
  pciDev := (lspci.filter (· ≠ "")).map fun line => ⟨line, false⟩
  kernel := k

inductive Event (κ : Type)
  /-- Inputs, toggles and dropdowns write to what they are bound to. -/
  | edit (form : CivTui)
  /-- A checkbox is clicked. -/
  | check (i : Nat)
  /-- The button `Edit` or `Done`. -/
  | click
  | save
  | exit
  /-- The host changes on its own. -/
  | host (k : κ)

/-- The names of the checked lines. -/
def checkedNames (pciDev : List CheckBoxState) : List String := (pciDev.filter (·.checked)).map (·.name)

variable (h : Host κ) (d : Dialog κ)

/-- `PtPciClickButton`. -/
def ptPciClickButton : Dialog κ :=
  { d with
    form := { d.form with ptPciDisp := checkedNames d.pciDev }
    editing := !d.editing
    ptBtnLable := if !d.editing then "Done" else "Edit" }

/-- There is a file of the name. -/
def fileThere : Bool := h.pathExists d.kernel (d.form.filePath h)

/-- The button `SAVE`. An exception ends the program; the file is there by then. -/
def clickSave : Dialog κ :=
  match d.form.saveOn h d.kernel d.civConfig with
  | .error _ =>
    { d with civConfig := d.form.setConfToPtree d.civConfig, kernel := h.writeFile d.kernel (d.form.filePath h) ""
             closed := true }
  | .ok (saved, civConfig, k) =>
    { d with civConfig, kernel := k, closed := saved
             statusBar := if d.fileThere h then "File alreay exist!" else d.statusBar }

/-- The name has no input, and the list of devices is the button's. -/
def step (d : Dialog κ) (e : Event κ) : Option (Dialog κ) :=
  if d.closed then none
  else
    match e with
    | .edit form =>
      if form.filename = d.form.filename ∧ form.ptPciDisp = d.form.ptPciDisp then some { d with form } else none
    | .check i =>
      if d.editing ∧ i < d.pciDev.length then
        some { d with pciDev := d.pciDev.modify i fun c => { c with checked := !c.checked } }
      else none
    | .click => some d.ptPciClickButton
    | .save => some (d.clickSave h)
    | .exit => some { d with closed := true }
    | .host k => some { d with kernel := k }

end Dialog

end VmManager
