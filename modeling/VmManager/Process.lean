import VmManager.Host
/-!
# Processes (`guest/vm_process.cc`)

`Run` starts a monitor thread and waits until that thread has spawned the
child. The thread stores the child in `c_` a moment after `Run` may have
returned, so a child that is alive can still be missing from `c_`.
-/
open Text

namespace VmManager

def kRpmbData : String := "RPMB_DATA"
def kRpmbSockPrefix : String := "/tmp/rpmb_sock_"
def kVtpmSock : String := "swtpm-sock"

/-- The child of a process, alive or not. -/
inductive Child
  | none
  /-- Spawned (or failed to), but `c_` is not set yet. -/
  | starting (alive : Bool)
  | attached (alive : Bool)
  deriving DecidableEq, Repr

/-- `VmProcSimple`, `VmCoProcRpmb` and `VmCoProcVtpm`. -/
inductive ProcKind
  | simple (cmd : String)
  | rpmb (bin dataDir sockFile : String)
  | vtpm (bin dataDir : String)
  deriving DecidableEq, Repr

structure VmProcess where
  kind : ProcKind
  envData : List String := []
  /-- `mon_` is set. -/
  mon : Bool := false
  child : Child := .none
  deriving DecidableEq, Repr

namespace VmProcess

variable {κ : Type}

/-- The child exits on its own. -/
def exits (p : VmProcess) : VmProcess :=
  match p.child with
  | .none => p
  | .starting _ => { p with child := .starting false }
  | .attached _ => { p with child := .attached false }

/-- The monitor thread gets to store the child in `c_`. -/
def attaches (p : VmProcess) : VmProcess :=
  match p.child with
  | .starting alive => { p with child := .attached alive }
  | _ => p

/-- `Running`. -/
def running (p : VmProcess) : Bool := p.child = .attached true

/-- `VmProcSimple::Run` of a command. With nothing but spaces in it
`ThreadMon` returns before the latch is counted down and `Run` waits for ever:
`none`. -/
def runCmd (h : Host κ) (p : VmProcess) (cmd : String) (k : κ) : Option (VmProcess × κ) :=
  if blank cmd then none
  else
    let (ok, k) := h.spawn k cmd p.envData
    some ({ p with mon := true, child := .starting ok }, k)

/-- `Run`. -/
def run (h : Host κ) (p : VmProcess) (k : κ) : Option (VmProcess × κ) :=
  match p.kind with
  | .simple cmd => runCmd h p cmd k
  | .rpmb bin dataDir sockFile =>
    let dev := dataDir ++ "/" ++ kRpmbData
    let k :=
      if h.pathExists k dev then k
      else (h.system k (bin ++ " --dev " ++ dev ++ " --init --size 2048")).2
    runCmd h p (bin ++ " --dev " ++ dev ++ " --sock " ++ sockFile) k
  | .vtpm bin dataDir =>
    if !h.pathExists k dataDir then some (p, k)
    else
      runCmd h p (bin ++ " socket --tpmstate dir=" ++ dataDir ++ " --tpm2 --ctrl type=unixio,path=" ++ dataDir ++
        "/" ++ kVtpmSock) k

/-- The command that names the child for the host. -/
def name (p : VmProcess) : String :=
  match p.kind with
  | .simple cmd => cmd
  | .rpmb bin .. => bin
  | .vtpm bin _ => bin

/-- `VmProcSimple::Stop`. The monitor is given up after ten seconds, whether
the child is gone or not. -/
def stopSimple (h : Host κ) (p : VmProcess) (k : κ) : VmProcess × κ :=
  if p.mon ∧ p.child = .attached true then
    let (gone, k) := h.terminate k p.name
    ({ p with mon := false, child := .attached (!gone) }, k)
  else (p, k)

/-- `Stop`. -/
def stop (h : Host κ) (p : VmProcess) (k : κ) : VmProcess × κ :=
  match p.kind with
  | .rpmb _ _ sockFile =>
    let (p, k) := stopSimple h p k
    (p, if h.pathExists k sockFile then h.remove k sockFile else k)
  | _ => stopSimple h p k

def stopAll (h : Host κ) : List VmProcess → κ → List VmProcess × κ
  | [], k => ([], k)
  | p :: ps, k =>
    let (p, k) := p.stop h k
    let (ps, k) := stopAll h ps k
    (p :: ps, k)

/-- `Run` returns. -/
def Runnable (p : VmProcess) : Prop := ∀ cmd, p.kind = .simple cmd → NonBlank cmd

theorem runCmd_of_nonBlank {cmd : String} (hc : NonBlank cmd) (h : Host κ) (p : VmProcess) (k : κ) :
    ∃ k', runCmd h p cmd k = some ({ p with mon := true, child := .starting (h.spawn k cmd p.envData).1 }, k') := by
  exact ⟨(h.spawn k cmd p.envData).2, by rw [runCmd, hc.blank_eq_false]; rfl⟩

theorem nonBlank_dev (s t : String) : NonBlank (s ++ " --dev " ++ t) :=
  ((show NonBlank " --dev " by decide).append_right s).append_left t

theorem run_of_runnable {p : VmProcess} (hp : p.Runnable) (h : Host κ) (k : κ) : ∃ r, run h p k = some r := by
  unfold run
  split
  · rename_i cmd hk
    obtain ⟨k', hr⟩ := runCmd_of_nonBlank (hp cmd hk) h p k
    exact ⟨_, hr⟩
  · rename_i bin dataDir sockFile hk
    obtain ⟨k', hr⟩ := runCmd_of_nonBlank
      (((nonBlank_dev bin (dataDir ++ "/" ++ kRpmbData)).append_left " --sock ").append_left sockFile) h p
      (if h.pathExists k (dataDir ++ "/" ++ kRpmbData) then k
       else (h.system k (bin ++ " --dev " ++ (dataDir ++ "/" ++ kRpmbData) ++ " --init --size 2048")).2)
    exact ⟨_, hr⟩
  · rename_i bin dataDir hk
    split
    · exact ⟨_, rfl⟩
    · have hb : NonBlank (bin ++ " socket --tpmstate dir=") :=
        (show NonBlank " socket --tpmstate dir=" by decide).append_right bin
      obtain ⟨k', hr⟩ := runCmd_of_nonBlank
        (((((hb.append_left dataDir).append_left " --tpm2 --ctrl type=unixio,path=").append_left dataDir).append_left
          "/").append_left kVtpmSock) h p k
      exact ⟨_, hr⟩

end VmProcess

end VmManager
