import VmManager.Client
/-!
# The client's segment (`services/client.cc`, `services/server.cc`)

Everything a request says and everything it gets back are objects in the
segment `CivClientShm<pid>`. The client constructs the request before it calls
`Notify`, the handler finds it by its name and constructs the result beside it.
-/
namespace VmManager

/-- The objects in a client's segment, by their names. -/
structure Segment where
  startVmCfgPath : Option String := none
  startVmEnv : Option (List String) := none
  stopVmName : Option String := none
  vmName : Option String := none
  /-- Only the server knows this one: no client constructs it. -/
  importVmCfgPath : Option String := none
  vmInfo : Option CivVmInfo := none
  listVms : Option (List String) := none
  deriving DecidableEq, Repr

namespace Segment

variable (g : Segment)

/-- `PrepareStartGuestClientShm`; `room` is how many of its allocations the
segment has room for: the path, the array, and then each of its texts. -/
def prepareStartGuestClientShm (path : String) (env : List String) (room : Nat) : Except ShmError Unit × Segment :=
  let g := { g with startVmCfgPath := none, startVmEnv := none }
  match room with
  | 0 => (.error .badAlloc, g)
  | 1 => (.error .badAlloc, { g with startVmCfgPath := some path })
  | n + 2 =>
    (if n < env.length then .error .badAlloc else .ok (),
      { g with startVmCfgPath := some path, startVmEnv := some (env.take n ++ List.replicate (env.length - n) "") })

/-- `PrepareStopGuestClientShm`. -/
def prepareStopGuestClientShm (vmName : String) (fits : Bool) : Except ShmError Unit × Segment :=
  if fits then (.ok (), { g with stopVmName := some vmName }) else (.error .badAlloc, { g with stopVmName := none })

/-- `PrepareGetGuestInfoClientShm`, on the whole segment. -/
def prepareGetGuestInfo (vmName : String) (fits : Bool) : Except ShmError Unit × Segment :=
  let r := prepareGetGuestInfoClientShm ⟨g.vmName, g.vmInfo⟩ vmName fits
  (r.1, { g with vmName := r.2.vmName, vmInfo := r.2.vmInfo })

/-- What the handler of a request finds; `none` where it goes through a null
pointer, since the object is not there. -/
def readRequest : CivMsgType → Option Request
  | .listVm => some .listVm
  | .importVm => g.importVmCfgPath.map .importVm
  | .startVm => g.startVmCfgPath.map fun path => .startVm path (g.startVmEnv.getD [])
  | .stopVm => g.stopVmName.map .stopVm
  | .getVmInfo => g.vmName.map .getVmInfo
  | .stopServer | .test | .respondSuccess | .respondFail => none

end Segment

/-- What a step of the server thread leaves in the segment it works on. -/
def storeResult {κ : Type} (h : Host κ) (s : Sys κ) (a : Act κ) (g : Segment) : Segment :=
  match a, step h s a with
  | .server, some s' =>
    match s.server with
    | .infoConstruct .. | .infoCid .. | .infoState .. => { g with vmInfo := s'.vmInfo }
    | .listConstruct =>
      { g with listVms := if s'.server = .listItem 0 then some (List.replicate s.vmis.length "") else none }
    | .listState i _ =>
      if s'.server = .listItem (i + 1) then { g with listVms := g.listVms.map (·.set i (s'.vmLists.getLastD "")) }
      else g
    | _ => g
  | _, _ => g

/-- The request stays what it was. -/
theorem readRequest_storeResult {κ : Type} (h : Host κ) (s : Sys κ) (a : Act κ) (g : Segment) (t : CivMsgType) :
    (storeResult h s a g).readRequest t = g.readRequest t := by
  unfold storeResult
  split
  · split
    · cases t <;> rfl
    · cases t <;> rfl
    · cases t <;> rfl
    · cases t <;> rfl
    · split <;> cases t <;> rfl
    · rfl
  · rfl

end VmManager
