import VmManager.Builder
import VmManager.Lib.Runs
import VmManager.Listener
/-!
# The server (`services/server.cc`)

The server thread with its request handlers, one thread for each VM, and the
listener. A handler looks an instance up, and uses the index it found in later
steps; the VM threads remove their instances in between. Only
`DeleteVmInstance` locks `vmis_mutex_`, and it takes time: from the lock to the
unlock `erase` moves the instances from its position on. Memory is modelled as
far as it can go wrong: `ub` records that a thread has used an index out of
range, an instance that is gone, or a part of `vmis_` that is being moved.
-/
open Text

namespace VmManager

/-- A request, with the texts found in the client's segment. -/
inductive Request
  | listVm
  | importVm (cfgPath : String)
  | startVm (cfgPath : String) (env : List String)
  | stopVm (name : String)
  | getVmInfo (name : String)
  deriving DecidableEq, Repr

def Request.type : Request → CivMsgType
  | .listVm => .listVm
  | .importVm _ => .importVm
  | .startVm .. => .startVm
  | .stopVm _ => .stopVm
  | .getVmInfo _ => .getVmInfo

/-- What a builder is made for: to be kept, or to be started with an
environment, waiting for the guest or not. -/
inductive Purpose
  | import
  | start (env : List String) (waitReady : Bool)
  deriving DecidableEq, Repr

/-- Where the server thread is. -/
inductive ServerPc
  | loop
  | stopFind (name : String)
  | stopName (name : String) (id : Nat)
  | stopCid (name : String) (id : Nat)
  /-- Before the guest-shutdown RPC. -/
  | stopRpc (name : String) (id cid : Nat)
  /-- Before `vmis_[id]->StopVm()`. -/
  | stopStop (name : String) (id : Nat)
  /-- In `StopVm` of VM `uid`, which holds its `stopvm_mutex_`. -/
  | stopping (uid : Nat)
  | infoFind (name : String)
  | infoConstruct (name : String) (id : Nat)
  | infoCid (name : String) (id : Nat)
  | infoState (name : String) (id cid : Nat)
  | listConstruct
  /-- Before the test of the loop of `ListVm`. -/
  | listItem (i : Nat)
  /-- Before `vmis_[i]->GetName()`. -/
  | listName (i : Nat)
  /-- Before `vmis_[i]->GetState()`. -/
  | listState (i : Nat) (name : String)
  | importRead (path : String)
  | importFind (cfg : CivConfig) (name : String)
  | importState (cfg : CivConfig) (name : String) (id : Nat)
  /-- Before `DeleteVmInstance`. -/
  | importLock (cfg : CivConfig) (name : String)
  /-- In `DeleteVmInstance`, which holds `vmis_mutex_`. -/
  | importDelete (cfg : CivConfig) (name : String)
  | startRead (path : String) (env : List String)
  | startFind (cfg : CivConfig) (name : String) (env : List String)
  /-- Before step `i` of `BuildVmArgs`. -/
  | building (p : Purpose) (vb : VmBuilderQemu) (i : Nat)
  /-- Before `vmis_.insert`. -/
  | insert (p : Purpose) (vb : VmBuilderQemu)
  /-- `BuildVmArgs` returned false: the builder is destroyed. -/
  | discard (vb : VmBuilderQemu)
  /-- `BuildVmArgs` threw: the builder is destroyed and the exception goes on. -/
  | unwind (e : Exn) (vb : VmBuilderQemu)
  /-- Before `vmi->get()`; `vmi` is at `pos`, where VM `uid` was inserted. -/
  | startGet (pos uid : Nat) (env : List String) (waitReady : Bool)
  /-- In `notify_cont.wait()`. -/
  | startWait (uid : Nat) (waitReady : Bool)
  /-- Before `vb->GetState()`. -/
  | startState (uid : Nat) (waitReady : Bool)
  /-- The handler has returned. -/
  | reply (ret : Int)
  /-- Before `msg_in = false; cond_c.notify_one()`. -/
  | clear
  /-- An exception has ended the loop. -/
  | exited (e : Exn)
  /-- In a loop that does not end. -/
  | hung
  deriving DecidableEq, Repr

/-- Where a VM's thread is in `VmThread`. -/
inductive ThreadPc
  | none
  /-- Before `SetProcLogDir` and the `Run` calls of `StartVm`. -/
  | launch
  /-- Before `state_ = kVmBooting`. -/
  | booting
  /-- Before the first `try_count_down`. -/
  | countDown
  | setReady
  | waitExit
  /-- In `mon_->join()`. -/
  | joining
  /-- Before `DeleteVmInstance`. -/
  | deleteLock
  /-- In `DeleteVmInstance`, which holds `vmis_mutex_`. -/
  | delete
  | addPending
  /-- At the condition of the loop of `WaitVmReady`, for the n-th time. -/
  | waitReady (n : Nat)
  /-- In `vm_ready_latch_.wait_for`. -/
  | sleepReady (n : Nat)
  /-- `WaitVmReady` returned true: before the second `try_count_down`. -/
  | notifyReady
  /-- `WaitVmReady` returned false: before `DeleteVmInstance`. -/
  | giveUpLock
  /-- In that `DeleteVmInstance`, which holds `vmis_mutex_`. -/
  | giveUp
  /-- Before the `try_count_down` after that. -/
  | giveUpNotify
  | done
  /-- In a `Run` that never returns. -/
  | stuck
  deriving DecidableEq, Repr

/-- A member function that a handler calls on `vmis_[id]`. -/
inductive Member
  | getName
  | getCid
  | getState
  | stopVm
  deriving DecidableEq, Repr

/-- A call through an index that was looked up: the name that the request asked
for, and the `uid` and name of the instance that stands there, if there is one. -/
structure Access where
  asked : String
  member : Member
  on : Option (Nat × String)
  deriving DecidableEq, Repr

/-- A state that a client is shown under a name, and the VM that has the name. -/
structure Shown where
  name : String
  vm : Option Nat
  state : VmState
  deriving DecidableEq, Repr

/-- A line of `ListVm`. -/
def Shown.text (e : Shown) : String := e.name ++ ":" ++ vmStateToStr e.state

/-- A `DeleteVmInstance`: the VM thread that has called it, or the server. -/
structure Deletion where
  thread : Option Nat
  name : String
  deriving DecidableEq, Repr

structure Sys (κ : Type) where
  vmis : List VmBuilderQemu := []
  /-- The `DeleteVmInstance` that holds `vmis_mutex_`. -/
  deleting : Option Deletion := none
  world : World κ
  pending : PendingVms := fun _ => none
  thread : Nat → ThreadPc := fun _ => .none
  /-- The count of the `notify_cont` that the VM's thread was given. -/
  latch : Nat → Nat := fun _ => 0
  server : ServerPc := .loop
  /-- The type field of the `CivMsg`. -/
  msgType : Option CivMsgType := none
  msgIn : Bool := false
  /-- What the handlers leave in the client's segment. -/
  vmInfo : Option CivVmInfo := none
  vmLists : List String := []
  nextUid : Nat := 0
  ub : Bool := false
  /-- What the handlers have called on the instances they have looked up, and
  what they have shown to clients, the first one first. -/
  accesses : List Access := []
  shown : List Shown := []

variable {κ : Type}

namespace Sys

def init (k : κ) : Sys κ := { world := { kernel := k } }

variable (h : Host κ) (s : Sys κ)

def goto (p : ServerPc) : Sys κ := { s with server := p }

def undefined : Sys κ := { s with ub := true }

def setKernel (k : κ) : Sys κ := { s with world := { s.world with kernel := k } }

def setThread (uid : Nat) (p : ThreadPc) : Sys κ := { s with thread := Function.update s.thread uid p }

/-- `try_count_down`. -/
def tryCountDown (uid : Nat) : Sys κ := { s with latch := Function.update s.latch uid (s.latch uid - 1) }

/-- The instance a `VmBuilder *` points to, while it is registered. -/
def find (uid : Nat) : Option VmBuilderQemu := s.vmis.find? (·.uid = uid)

def updateVm (uid : Nat) (f : VmBuilderQemu → VmBuilderQemu) : Sys κ :=
  { s with vmis := s.vmis.map fun vb => if vb.uid = uid then f vb else vb }

end Sys

/-- `FindVmInstance`. -/
def findVmInstance (vmis : List VmBuilderQemu) (name : String) : Option Nat := vmis.findIdx? (·.name = name)

namespace Sys

variable (s : Sys κ)

/-- Where the `DeleteVmInstance` that holds `vmis_mutex_` erases. -/
def erasePos : Option Nat := s.deleting.bind fun d => findVmInstance s.vmis d.name

def moving : Bool := s.deleting.isSome

/-- The instance at an index. From the place of an `erase` on there is none to
be found, until it is done. -/
def vmAt (id : Nat) : Option VmBuilderQemu := if s.erasePos.all (id < ·) then s.vmis[id]? else none

/-- A member is called on what stands at an index, for a request that has asked
for `asked`. -/
def access (asked : String) (member : Member) (vm : Option VmBuilderQemu) : Sys κ :=
  { s with accesses := s.accesses ++ [⟨asked, member, vm.map fun vb => (vb.uid, vb.name)⟩] }

/-- What is shown, with the VM that has the name now. -/
def shows (name : String) (state : VmState) : Shown :=
  ⟨name, (s.vmis.find? (·.name = name)).map (·.uid), state⟩

/-- `GetVmInfo` stores the state. -/
def showInfo (name : String) (cid : Nat) (state : VmState) : Sys κ :=
  { s with vmInfo := some ⟨cid, state⟩, shown := s.shown ++ [s.shows name state] }

/-- `ListVm` stores a line. -/
def showLine (name : String) (state : VmState) : Sys κ :=
  { s with vmLists := s.vmLists ++ [(s.shows name state).text], shown := s.shown ++ [s.shows name state] }

/-- `DeleteVmInstance` locks `vmis_mutex_`, or waits for it. -/
def lockVmis (thread : Option Nat) (name : String) : Option (Sys κ) :=
  if s.deleting.isSome then none else some { s with deleting := some ⟨thread, name⟩ }

end Sys

/-- `DeleteVmInstance` from the lock of `vmis_mutex_` to its unlock, with the
destructor it runs. -/
def deleteVmInstance (h : Host κ) (s : Sys κ) (name : String) : Sys κ :=
  match findVmInstance s.vmis name with
  | none => { s with deleting := none }
  | some id =>
    match s.vmis[id]? with
    | none => { s with deleting := none }
    | some vb => { s with vmis := s.vmis.eraseIdx id, world := (vb.stopVm h s.world).2, deleting := none }

/-- The VM name in a config: the text before the first comma. -/
def configName (cfg : CivConfig) : String := (split ',' (cfg.getValue kGroupGlob kGlobName)).headD ""

/-- A handler starts to build a VM. Both branches on `emulator.type` do the
same. -/
def startBuild (s : Sys κ) (p : Purpose) (name : String) (cfg : CivConfig) : Sys κ :=
  { s with server := .building p { uid := s.nextUid, name, cfg } 0, nextUid := s.nextUid + 1 }

/-- The first steps of `ImportVm` and `StartVm`. -/
def readConfig (h : Host κ) (s : Sys κ) (path : String) (next : CivConfig → String → ServerPc) : Sys κ :=
  if path.isEmpty then s.goto (.reply (-1))
  else
    match CivConfig.readConfigFile h s.world.kernel path with
    | .error e => s.goto (.exited e)
    | .ok none => s.goto (.reply (-1))
    | .ok (some cfg) =>
      if (configName cfg).isEmpty then s.goto (.reply (-1)) else s.goto (next cfg (configName cfg))

/-- One step of `BuildVmArgs`. -/
def buildStep (h : Host κ) (s : Sys κ) (p : Purpose) (vb : VmBuilderQemu) (i : Nat) : Sys κ :=
  match (VmBuilderQemu.buildSteps h)[i]? with
  | none => s.goto (.insert p vb)
  | some st =>
    match st vb s.world with
    | .ok vb w => { s with server := .building p vb (i + 1), world := w }
    | .failed vb w => { s with server := .discard vb, world := w }
    | .threw e vb w => { s with server := .unwind e vb, world := w }
    | .hung w => { s with server := .hung, world := w }

/-- The next step of the server thread. A lookup, a look at the size of `vmis_`
and an insertion go wrong while instances are being moved. -/
def serverStep (h : Host κ) (s : Sys κ) : Option (Sys κ) :=
  match s.server with
  | .loop | .exited _ | .hung => none
  | .stopFind name =>
    if s.moving then some s.undefined
    else
      match findVmInstance s.vmis name with
      | none => some (s.goto (.reply (-1)))
      | some id => some (s.goto (.stopName name id))
  | .stopName name id =>
    match s.vmAt id with
    | none => some (s.access name .getName none).undefined
    | some vb => some ((s.access name .getName (some vb)).goto (.stopCid name id))
  | .stopCid name id =>
    match s.vmAt id with
    | none => some (s.access name .getCid none).undefined
    | some vb => some ((s.access name .getCid (some vb)).goto (.stopRpc name id vb.vsockCid))
  | .stopRpc name id cid =>
    let r := h.shutdown s.world.kernel cid
    some ((s.setKernel r.2).goto (if r.1 then .reply 0 else .stopStop name id))
  | .stopStop name id =>
    match s.vmAt id with
    | none => some (s.access name .stopVm none).undefined
    | some vb =>
      let r := vb.stopVm h s.world
      some { s.access name .stopVm (some vb) with
        vmis := s.vmis.set id r.1, world := r.2, server := .stopping vb.uid }
  | .stopping _ => some (s.goto (.reply 0))
  | .infoFind name =>
    if s.moving then some s.undefined
    else
      match findVmInstance s.vmis name with
      | none => some (s.goto (.reply (-1)))
      | some id => some (s.goto (.infoConstruct name id))
  | .infoConstruct name id =>
    let r := h.shmAlloc s.world.kernel .vmInfo
    if r.1 then some { (s.setKernel r.2).goto (.infoCid name id) with vmInfo := some ⟨0, .unknown⟩ }
    -- The object of an earlier request is destroyed by then.
    else some { (s.setKernel r.2).goto (.exited .badAlloc) with vmInfo := none }
  | .infoCid name id =>
    match s.vmAt id with
    | none => some (s.access name .getCid none).undefined
    | some vb =>
      some { (s.access name .getCid (some vb)).goto (.infoState name id vb.vsockCid) with
        vmInfo := some ⟨vb.vsockCid, .unknown⟩ }
  | .infoState name id cid =>
    match s.vmAt id with
    | none => some (s.access name .getState none).undefined
    | some vb => some (((s.access name .getState (some vb)).showInfo name cid vb.state).goto (.reply 0))
  | .listConstruct =>
    if s.moving then some s.undefined
    else
      let r := h.shmAlloc s.world.kernel (.listVms s.vmis.length)
      if r.1 then some { (s.setKernel r.2).goto (.listItem 0) with vmLists := [] }
      else some ((s.setKernel r.2).goto (.exited .badAlloc))
  | .listItem i =>
    if s.moving then some s.undefined
    else if i < s.vmis.length then some (s.goto (.listName i))
    else some (s.goto (.reply 0))
  | .listName i =>
    match s.vmAt i with
    | none => some s.undefined
    | some vb => some (s.goto (.listState i vb.name))
  | .listState i name =>
    match s.vmAt i with
    | none => some s.undefined
    | some vb =>
      let r := h.shmAlloc s.world.kernel (.text (s.shows name vb.state).text)
      if r.1 then some (((s.setKernel r.2).showLine name vb.state).goto (.listItem (i + 1)))
      else some ((s.setKernel r.2).goto (.exited .badAlloc))
  | .importRead path => some (readConfig h s path .importFind)
  | .importFind cfg name =>
    if s.moving then some s.undefined
    else
      match findVmInstance s.vmis name with
      | none => some (startBuild s .import name cfg)
      | some id => some (s.goto (.importState cfg name id))
  | .importState cfg name id =>
    match s.vmAt id with
    | none => some (s.access name .getState none).undefined
    | some vb =>
      let s := s.access name .getState (some vb)
      if vb.state ≠ .created ∧ vb.state ≠ .empty then some (s.goto (.reply (-1)))
      else some (s.goto (.importLock cfg name))
  | .importLock cfg name => (s.lockVmis none name).map (·.goto (.importDelete cfg name))
  | .importDelete cfg name => some (startBuild (deleteVmInstance h s name) .import name cfg)
  | .startRead path env => some (readConfig h s path fun cfg name => .startFind cfg name env)
  | .startFind cfg name env =>
    if s.moving then some s.undefined
    else
      match findVmInstance s.vmis name with
      | some _ => some (s.goto (.reply (-1)))
      | none =>
        some (startBuild s (.start env (decide (cfg.getValue kGroupGlob kGlobWaitReady = "true"))) name cfg)
  | .building p vb i => some (buildStep h s p vb i)
  | .insert p vb =>
    if s.moving then some s.undefined
    else
      let s' := { s with vmis := s.vmis ++ [vb] }
      match p with
      | .import => some (s'.goto (.reply 0))
      | .start env waitReady => some (s'.goto (.startGet s.vmis.length vb.uid env waitReady))
  | .discard vb => some { s with world := (vb.stopVm h s.world).2, server := .reply (-1) }
  | .unwind e vb => some { s with world := (vb.stopVm h s.world).2, server := .exited e }
  | .startGet pos _ env waitReady =>
    match s.vmAt pos with
    | none => some s.undefined
    | some vb =>
      let s := s.updateVm vb.uid fun vb => { vb with mainProc := vb.mainProc.map ({ · with envData := env }) }
      some { s.setThread vb.uid .launch with
        latch := Function.update s.latch vb.uid (if waitReady then 2 else 1), server := .startWait vb.uid waitReady }
  | .startWait uid waitReady => if s.latch uid = 0 then some (s.goto (.startState uid waitReady)) else none
  | .startState uid _ =>
    match s.find uid with
    | none => some s.undefined
    | some vb => some (s.goto (.reply (if vb.state = .running then 0 else -1)))
  | .reply ret =>
    some { s.goto .clear with msgType := some (if ret = 0 then .respondSuccess else .respondFail) }
  | .clear => some { s.goto .loop with msgIn := false }

/-- `VmBuilderQemu::StartVm` up to `main_proc_->Run()`: the co-processes and
then the main process are run. -/
def launchProcs (h : Host κ) : List VmProcess → κ → Option (List VmProcess × κ)
  | [], k => some ([], k)
  | p :: ps, k =>
    (if p.running then some (p, k) else p.run h k).bind fun (p, k) =>
      (launchProcs h ps k).map fun (ps, k) => (p :: ps, k)

/-- The next step of the thread of VM `uid`, whose instance is `vb`. -/
def threadStepOn (h : Host κ) (s : Sys κ) (uid : Nat) (vb : VmBuilderQemu) : Option (Sys κ) :=
  match s.thread uid with
  | .none | .countDown | .notifyReady | .giveUpNotify | .done | .stuck => none
  | .launch =>
    match vb.mainProc with
    | none => some (s.setThread uid .countDown)
    | some main =>
      match (launchProcs h vb.coProcs s.world.kernel).bind fun (procs, k) =>
          (main.run h k).map fun (main, k) => (procs, main, k) with
      | none => some (s.setThread uid .stuck)
      | some (procs, main, k) =>
        some (((s.updateVm uid fun vb => { vb with coProcs := procs, mainProc := some main }).setKernel k).setThread uid
          .booting)
  | .booting => some ((s.updateVm uid ({ · with state := .booting })).setThread uid .countDown)
  | .setReady => some ((s.updateVm uid ({ · with state := .running })).setThread uid .waitExit)
  | .waitExit => some (s.setThread uid (if vb.mainProc.any (·.mon) then .joining else .deleteLock))
  | .joining =>
    if vb.mainProc.all (·.child = .attached false) then some (s.setThread uid .deleteLock) else none
  | .deleteLock => (s.lockVmis (some uid) vb.name).map (·.setThread uid .delete)
  -- The destructor waits for `stopvm_mutex_`.
  | .delete => if s.server = .stopping uid then none else some ((deleteVmInstance h s vb.name).setThread uid .done)
  | .addPending => some ({ s with pending := s.pending.add vb.vsockCid uid }.setThread uid (.waitReady 0))
  | .waitReady n =>
    some (s.setThread uid (if n < 200 ∧ vb.mainProc.any (·.running) then .sleepReady n else .giveUpLock))
  | .sleepReady n => some (s.setThread uid (if vb.state = .running then .notifyReady else .waitReady (n + 1)))
  | .giveUpLock => (s.lockVmis (some uid) vb.name).map (·.setThread uid .giveUp)
  | .giveUp =>
    if s.server = .stopping uid then none else some ((deleteVmInstance h s vb.name).setThread uid .giveUpNotify)

/-- The next step of the thread of VM `uid`. The latch is the server's; all
else is done through `vb`. -/
def threadStep (h : Host κ) (s : Sys κ) (uid : Nat) : Option (Sys κ) :=
  match s.thread uid with
  | .none | .done | .stuck => none
  | .countDown =>
    let s := s.tryCountDown uid
    some (s.setThread uid (if s.latch uid = 0 then .setReady else .addPending))
  | .notifyReady => some ((s.tryCountDown uid).setThread uid .waitExit)
  | .giveUpNotify => some ((s.tryCountDown uid).setThread uid .done)
  | _ =>
    match s.find uid with
    | none => some s.undefined
    | some vb => threadStepOn h s uid vb

/-- A `VmReady` RPC. The callback goes through the `VmBuilder *` it captured. -/
def rpcVmReady (s : Sys κ) (peer : String) : Status × Sys κ :=
  match s.pending.vmReady peer with
  | (st, none, pending) => (st, { s with pending })
  | (st, some uid, pending) =>
    match s.find uid with
    | none => (st, s.undefined)
    | some _ => (st, { s.updateVm uid ({ · with state := .running }) with pending })

/-- The process `i` of a VM, 0 for the main one. -/
def onProc (i : Nat) (f : VmProcess → VmProcess) (vb : VmBuilderQemu) : VmBuilderQemu :=
  match i with
  | 0 => { vb with mainProc := vb.mainProc.map f }
  | i + 1 => { vb with coProcs := vb.coProcs.modify i f }

inductive Act (κ : Type)
  /-- A request arrives. -/
  | recv (r : Request)
  | server
  | thread (uid : Nat)
  /-- A process of a VM exits on its own. -/
  | exit (uid i : Nat)
  /-- The monitor thread of a process stores the child in `c_`. -/
  | attach (uid i : Nat)
  | vmReady (peer : String)
  /-- The host changes on its own. -/
  | host (k : κ)

def Request.entry : Request → ServerPc
  | .listVm => .listConstruct
  | .importVm path => .importRead path
  | .startVm path env => .startRead path env
  | .stopVm name => .stopFind name
  | .getVmInfo name => .infoFind name

def recv (s : Sys κ) (r : Request) : Option (Sys κ) :=
  match s.server with
  | .loop => some { s.goto r.entry with msgType := some r.type, msgIn := true }
  | _ => none

/-- After undefined behaviour nothing more is said. -/
def step (h : Host κ) (s : Sys κ) (a : Act κ) : Option (Sys κ) :=
  if s.ub then none
  else
    match a with
    | .recv r => recv s r
    | .server => serverStep h s
    | .thread uid => threadStep h s uid
    | .exit uid i => some (s.updateVm uid (onProc i VmProcess.exits))
    | .attach uid i => some (s.updateVm uid (onProc i VmProcess.attaches))
    | .vmReady peer => some (rpcVmReady s peer).2
    | .host k => some (s.setKernel k)

end VmManager
