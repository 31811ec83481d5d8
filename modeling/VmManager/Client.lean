import VmManager.Server
/-!
# The client (`services/client.cc`, `vm_manager.cc`)

A `Client` opens the server's shared memory segment and creates one of its own,
with a name that has the process id in it. Requests and their results are
objects in the client's segment: the client constructs the request, the server
opens the segment by its name, and the client looks up what the server has left
there.
-/
open Runs

namespace VmManager

/-! ## Segments -/

/-- The shared memory objects that exist, by name. -/
abbrev ShmObjects := String → Bool

/-- `boost::interprocess::interprocess_exception`, and `bad_alloc`. -/
inductive ShmError
  | notFound
  | alreadyExists
  | badAlloc
  deriving DecidableEq, Repr

def kCivServerMemName : String := "CivServerShm"

def clientShmName (pid : Nat) : String := "CivClientShm" ++ toString pid

/-- `managed_shared_memory(open_only, name)`. -/
def openOnly (o : ShmObjects) (name : String) : Except ShmError Unit := if o name then .ok () else .error .notFound

/-- `managed_shared_memory(create_only, name, ...)`. -/
def createOnly (o : ShmObjects) (name : String) : Except ShmError ShmObjects :=
  if o name then .error .alreadyExists else .ok (Function.update o name true)

/-- `shared_memory_object::remove(name)`. -/
def removeShm (o : ShmObjects) (name : String) : ShmObjects := Function.update o name false

namespace Client

/-- `Client::Client`. -/
def construct (pid : Nat) (o : ShmObjects) : Except ShmError ShmObjects := do
  openOnly o kCivServerMemName
  createOnly o (clientShmName pid)

/-- `Client::~Client`. -/
def destruct (pid : Nat) (o : ShmObjects) : ShmObjects := removeShm o (clientShmName pid)

end Client

/-- How a `Notify` ends, and the objects that the other processes have left by
then. -/
structure NotifyEnd where
  result : Except ShmError Bool
  objects : ShmObjects

/-- Only the process itself uses the name of its segment. -/
def NotifyEnd.after (n : NotifyEnd) (pid : Nat) : ShmObjects := Function.update n.objects (clientShmName pid) true

/-! ## `IsServerRunning` and `StopServer` -/

/-- Any exception of the constructor or of `Notify` is taken for an absent
server. -/
def isServerRunning (pid : Nat) (o : ShmObjects) (n : NotifyEnd) : Bool × ShmObjects :=
  match Client.construct pid o with
  | .error _ => (false, o)
  | .ok _ =>
    match n.result with
    | .error _ => (false, Client.destruct pid (n.after pid))
    | .ok _ => (true, Client.destruct pid (n.after pid))

/-- `probe` and `again` are how `kCivMsgTest` ends in the two calls of
`IsServerRunning`, `stop` is how `kCiVMsgStopServer` does. -/
def stopServer (pid : Nat) (o : ShmObjects) (probe stop again : NotifyEnd) : Except ShmError Bool × ShmObjects :=
  let r := isServerRunning pid o probe
  if !r.1 then (.ok false, r.2)
  else
    match Client.construct pid r.2 with
    | .error e => (.error e, r.2)
    | .ok _ =>
      match stop.result with
      | .error e => (.error e, Client.destruct pid (stop.after pid))
      | .ok false => (.ok false, Client.destruct pid (stop.after pid))
      | .ok true =>
        -- The client of the stop request is still alive here.
        let r := isServerRunning pid (stop.after pid) again
        (.ok !r.1, Client.destruct pid r.2)

/-! ## `GetCivVmInfo` -/

/-- The objects in the client's segment that `GetCivVmInfo` is about. -/
structure ClientShm where
  vmName : Option String := none
  vmInfo : Option CivVmInfo := none
  deriving DecidableEq, Repr

/-- `fits` says whether the segment has room for the name. -/
def prepareGetGuestInfoClientShm (shm : ClientShm) (vmName : String) (fits : Bool) : Except ShmError Unit × ClientShm :=
  if fits then (.ok (), { shm with vmName := some vmName }) else (.error .badAlloc, { shm with vmName := none })

/-- `find_or_construct<CivVmInfo>("VmInfo")(0, kVmUnknown)`. -/
def findOrConstructVmInfo (shm : ClientShm) (fits : Bool) : Except ShmError CivVmInfo × ClientShm :=
  match shm.vmInfo with
  | some vi => (.ok vi, shm)
  | none => if fits then (.ok ⟨0, .unknown⟩, { shm with vmInfo := some ⟨0, .unknown⟩ }) else (.error .badAlloc, shm)

variable {κ : Type}

/-- What `GetVmInfo` finds on its way: whether a VM of the name is listed, and
its cid and state. -/
structure Found where
  listed : Bool := false
  info : Option CivVmInfo := none
  deriving DecidableEq, Repr

def look (s : Sys κ) (a : Act κ) (f : Found) : Found :=
  match a, s.server with
  | .server, .infoFind name => if s.moving then f else { f with listed := (findVmInstance s.vmis name).isSome }
  | .server, .infoState _ id cid => { f with info := (s.vmAt id).map fun vb => ⟨cid, vb.state⟩ }
  | _, _ => f

def Act.isRecv : Act κ → Bool
  | .recv _ => true
  | _ => false

/-- The handler has returned and been answered for, or has thrown. -/
def ServerPc.handled : ServerPc → Bool
  | .loop | .exited _ => true
  | _ => false

/-- The server in state `s` takes the request up, on the client's segment, and
`acts` is what all threads do until it is done with it. -/
def serveGetVmInfo (h : Host κ) (s : Sys κ) (shm : ClientShm) (acts : List (Act κ)) : Option (Found × ClientShm) := do
  let name ← shm.vmName
  let s ← recv { s with vmInfo := shm.vmInfo } (.getVmInfo name)
  let (s, f) ← run (withHistory (step h) look) (s, {}) acts
  if s.server.handled && !acts.any Act.isRecv then some (f, { shm with vmInfo := s.vmInfo }) else none

/-- What becomes of the request of one call. -/
inductive Delivery (κ : Type)
  /-- `Notify` throws. -/
  | threw (e : ShmError)
  /-- `Notify` returns and the server has not taken the request up. -/
  | unserved
  | served (s : Sys κ) (acts : List (Act κ))

/-- A call of `GetCivVmInfo`, and whether the segment has room for what it
constructs. -/
structure InfoCall (κ : Type) where
  name : String
  nameFits : Bool := true
  request : Delivery κ
  infoFits : Bool := true

/-- What `Notify` returns is not looked at. There is no outcome for a delivery
that is not a run of the server. -/
def getCivVmInfo (h : Host κ) (c : InfoCall κ) (shm : ClientShm) : Option (Except ShmError CivVmInfo × ClientShm) :=
  match prepareGetGuestInfoClientShm shm c.name c.nameFits with
  | (.error e, shm) => some (.error e, shm)
  | (.ok (), shm) =>
    match c.request with
    | .threw e => some (.error e, shm)
    | .unserved => some (findOrConstructVmInfo shm c.infoFits)
    | .served s acts => (serveGetVmInfo h s shm acts).map fun r => findOrConstructVmInfo r.2 c.infoFits

/-- The calls on one `Client`, one after the other. -/
def infoStep (h : Host κ) (shm : ClientShm) (c : InfoCall κ) : Option ClientShm := (getCivVmInfo h c shm).map (·.2)

end VmManager
