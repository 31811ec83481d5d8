import VmManager.Lib.Text
import Mathlib.Logic.Function.Basic
/-!
# The start-up listener (`services/startup_listener_impl.cc`)

`pending_vms_` maps a cid to a callback. The only callback the server
registers sets one VM ready, so it is kept as the `uid` of that VM. Each
function holds `vm_lock_` from end to end.
-/
open Text

namespace VmManager

/-- The answer to an RPC. -/
inductive Status
  | ok
  | failedPrecondition (msg : String)
  deriving DecidableEq, Repr

/-- `sscanf(peer, "vsock:%u", &cid)`: `%u` reads as `strtoul` does, where a
minus sign wraps and a number that is too large gives `ULONG_MAX` whatever its
sign, and `cid` keeps the low 32 bits. -/
def parsePeer (peer : String) : Option Nat :=
  match peer.toList with
  | 'v' :: 's' :: 'o' :: 'c' :: 'k' :: ':' :: rest =>
    (scan 10 rest).map fun (neg, n, _) =>
      (if 2 ^ 64 ≤ n then 2 ^ 64 - 1 else if neg then 2 ^ 64 - n else n) % 2 ^ 32
  | _ => none

abbrev PendingVms := Nat → Option Nat

namespace PendingVms

def add (pending : PendingVms) (cid uid : Nat) : PendingVms := Function.update pending cid (some uid)

def remove (pending : PendingVms) (cid : Nat) : PendingVms := Function.update pending cid none

@[simp] theorem add_apply (pending : PendingVms) (cid uid c : Nat) :
    pending.add cid uid c = if c = cid then some uid else pending c := by
  simp [add, Function.update_apply]

@[simp] theorem remove_apply (pending : PendingVms) (cid c : Nat) :
    pending.remove cid c = if c = cid then none else pending c := by
  simp [remove, Function.update_apply]

/-- `VmReady`: the answer, the VM whose callback runs, and what is left. -/
def vmReady (pending : PendingVms) (peer : String) : Status × Option Nat × PendingVms :=
  match parsePeer peer with
  | none => (.failedPrecondition "Invalid peer for StartupListener", none, pending)
  | some cid =>
    match pending cid with
    | none => (.failedPrecondition "VM is unknown", none, pending)
    | some uid => (.ok, some uid, pending.remove cid)

end PendingVms

end VmManager
