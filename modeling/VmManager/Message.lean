import Mathlib.Data.List.Basic
/-!
# Messages and VM states (`services/message.h`, `guest/vm_builder.h`)
-/
namespace VmManager

/-- `CivMsgType`. The field is the request on the way in and the reply on the
way out. -/
inductive CivMsgType
  | stopServer
  | listVm
  | importVm
  | startVm
  | stopVm
  | getVmInfo
  | test
  | respondSuccess
  | respondFail
  deriving DecidableEq, Repr

/-- The types for which the loop of `Server::Start` calls a handler. -/
def CivMsgType.hasHandler : CivMsgType → Bool
  | .listVm | .importVm | .startVm | .stopVm | .getVmInfo => true
  | _ => false

/-- The requests a client makes, other than `kCivMsgTest`. -/
def CivMsgType.isOperation (t : CivMsgType) : Bool := t == .stopServer || t.hasHandler

theorem CivMsgType.isOperation_of_hasHandler {t : CivMsgType} (h : t.hasHandler = true) : t.isOperation = true := by
  simp [isOperation, h]

/-- `VmBuilder::VmState`. -/
inductive VmState
  | empty
  | created
  | booting
  | running
  | paused
  | unknown
  deriving DecidableEq, Repr

/-- `VmStateToStr`. -/
def vmStateToStr : VmState → String
  | .empty => "Empty"
  | .created => "Created"
  | .booting => "Booting"
  | .running => "Running"
  | .paused => "Paused"
  | .unknown => "Unknown"

/-- `CivVmInfo`. -/
structure CivVmInfo where
  cid : Nat
  state : VmState
  deriving DecidableEq, Repr

end VmManager
