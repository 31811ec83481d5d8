import VmManager.Client
import VmManager.Lib.Descriptors
import VmManager.Lib.Names
/-!
# Bringing the service up (`vm_manager.cc`, `utils/utils.cc`, `Server::Start`)

All the processes of vm-manager on one machine: commands, which start a server
in the background when they find none, and the processes that become the server.
They share nothing but the names of the shared memory objects. A process that
has opened an object goes on using it when the name is gone.
-/
namespace VmManager.Service

/-- What `IsServerRunning` is called for. -/
inductive Asker
  /-- `ParseOptions`, before a command that needs the server. -/
  | command
  /-- The loop in `ParseOptions` that waits for the server, with `wait_cnt`. -/
  | wait (waitCnt : Nat)
  /-- `StartServer`. -/
  | start (daemon : Bool)
  deriving DecidableEq, Repr

/-- Where a process is. -/
inductive Pc
  | none
  /-- In `main`, before `ParseOptions`. -/
  | main (q : Asker)
  /-- Before the constructor of the `Client` in `IsServerRunning`. -/
  | probe (q : Asker)
  /-- In its `Notify(kCivMsgTest)`, with the server's segment that it has opened. -/
  | notify (q : Asker) (seg : Nat)
  /-- Before `boost::process::system(cmd, "--start-server", "--daemon")`. -/
  | system
  /-- In it. -/
  | waiting (child : Nat)
  | sleep (waitCnt : Nat)
  /-- On to what the command is for. -/
  | ready
  /-- Before the first `fork` of `Daemonize`. -/
  | fork1
  | fork2
  /-- In the second child, before the descriptors are closed. -/
  | redirect
  /-- In `Server::Start`, before `shm_remove()`. -/
  | remove
  | create
  /-- Before the `CivMsgSync` is constructed in the segment `seg`. -/
  | construct (seg : Nat)
  /-- In the loop of `Server::Start`. -/
  | serving (seg : Nat)
  /-- Before `~shm_remove()`, with the segment that has been made. -/
  | cleanup (seg : Option Nat)
  | exited (status : Int)
  | killed
  deriving DecidableEq, Repr

inductive File
  | devNull
  | other (n : Nat)
  deriving DecidableEq, Repr

/-- What `sysconf(_SC_OPEN_MAX)` says, and how many descriptors a process may
have. -/
structure Machine where
  openMax : Int
  limit : Nat

structure State where
  /-- The shared memory objects. -/
  shm : Names String := .empty
  proc : Nat → Pc := fun _ => .none
  fds : Nat → Descriptors File := fun _ _ => none
  /-- The parent has not yet waited for it. -/
  waited : Nat → Bool := fun _ => false

inductive Act
  /-- A process is started from outside, with the descriptors `fds`. -/
  | exec (pid : Nat) (q : Asker) (fds : Descriptors File)
  /-- The next step of a process. `ok` says how what it does ends, `child` is
  the id of the process it makes. -/
  | step (pid : Nat) (ok : Bool) (child : Nat)
  | kill (pid : Nat)

/-- Where the process goes on with the answer of `IsServerRunning`. -/
def Asker.answer : Asker → Bool → Pc
  | .command, true | .wait _, true => .ready
  | .command, false => .system
  | .wait waitCnt, false => if waitCnt > 100 then .exited (-1) else .sleep (waitCnt + 1)
  | .start _, true => .exited (-1)
  | .start daemon, false => if daemon then .fork1 else .remove

/-- The end of `Daemonize`, in the second child. -/
def redirect (m : Machine) (opens : Bool) (d : Descriptors File) : Bool × Descriptors File :=
  let d := (((d.closeFrom m.openMax).close 0).close 1).close 2
  match (if opens then d.openLowest m.limit .devNull else none) with
  | none => (false, d)
  | some (fd, d) =>
    if fd ≠ 0 then (false, d.close fd)
    else
      match d.dup2 m.limit 0 1 with
      | none => (false, d)
      | some (_, d) =>
        match d.dup2 m.limit 0 2 with
        | none => (false, d)
        | some (_, d) => (true, d)

namespace State

variable (s : State)

def goto (pid : Nat) (p : Pc) : State := { s with proc := Function.update s.proc pid p }

/-- Ids are given out again once nobody waits for the process. -/
def free (pid : Nat) : Bool :=
  match s.proc pid with
  | .none => true
  | .exited _ | .killed => !s.waited pid
  | _ => false

/-- `pid` makes the process `child` and goes on at `p`, the child at `p'`. The
child has its descriptors. -/
def fork (pid child : Nat) (p p' : Pc) : Option State :=
  if s.free child then
    some { s with proc := Function.update (Function.update s.proc pid p) child p',
                  fds := Function.update s.fds child (s.fds pid), waited := Function.update s.waited child false }
  else none

/-- Whom the death of `pid` leaves without a parent. -/
def orphan (pid : Nat) : Nat → Bool :=
  match s.proc pid with
  | .waiting child => Function.update s.waited child false
  | _ => s.waited

end State

/-- The next step of process `pid`. An exception in `main` ends it with -1, one
in `Server::Start` is caught there. -/
def procStep (m : Machine) (s : State) (pid : Nat) (ok : Bool) (child : Nat) : Option State :=
  match s.proc pid with
  | .none | .exited _ | .killed => none
  | .main q => some (s.goto pid (if ok then .probe q else .exited (-1)))
  | .probe q =>
    match s.shm.link kCivServerMemName, s.shm.create (clientShmName pid) with
    | some seg, some shm =>
      if ok then some ({ s with shm }.goto pid (.notify q seg)) else some (s.goto pid (q.answer false))
    | _, _ => some (s.goto pid (q.answer false))
  | .notify q _ => some ({ s with shm := s.shm.unlink (clientShmName pid) }.goto pid (q.answer ok))
  | .system =>
    if ok then
      (s.fork pid child (.waiting child) (.main (.start true))).map fun s =>
        { s with waited := Function.update s.waited child true }
    else some (s.goto pid (.exited (-1)))
  | .waiting child =>
    let s' := { s with waited := Function.update s.waited child false }
    match s.proc child with
    | .exited status => some (s'.goto pid (if status = 0 then .probe (.wait 0) else .exited (-1)))
    | .killed => some (s'.goto pid (.exited (-1)))
    | _ => none
  | .sleep waitCnt => some (s.goto pid (.probe (.wait waitCnt)))
  | .ready => some (s.goto pid (.exited (if ok then 0 else -1)))
  | .fork1 => if ok then s.fork pid child (.exited 0) .fork2 else some (s.goto pid (.exited (-1)))
  | .fork2 => if ok then s.fork pid child (.exited 0) .redirect else some (s.goto pid (.exited (-1)))
  | .redirect =>
    let r := redirect m ok (s.fds pid)
    some ({ s with fds := Function.update s.fds pid r.2 }.goto pid (if r.1 then .remove else .exited (-1)))
  | .remove =>
    -- The startup listener is set up before.
    if ok then some ({ s with shm := s.shm.unlink kCivServerMemName }.goto pid .create)
    else some (s.goto pid (.exited 0))
  | .create =>
    match s.shm.create kCivServerMemName with
    | none => some (s.goto pid (.cleanup none))
    | some shm =>
      if ok then some ({ s with shm }.goto pid (.construct s.shm.made)) else some (s.goto pid (.cleanup none))
  | .construct seg => some (s.goto pid (if ok then .serving seg else .cleanup (some seg)))
  | .serving seg => some (s.goto pid (.cleanup (some seg)))
  | .cleanup _ => some ({ s with shm := s.shm.unlink kCivServerMemName }.goto pid (.exited 0))

def step (m : Machine) (s : State) : Act → Option State
  | .exec pid q fds =>
    match q with
    | .wait _ => none
    | q =>
      if s.free pid then some { s.goto pid (.main q) with fds := Function.update s.fds pid fds } else none
  | .step pid ok child => procStep m s pid ok child
  | .kill pid =>
    match s.proc pid with
    | .none | .exited _ | .killed => none
    | _ => some { s.goto pid .killed with waited := s.orphan pid }

end VmManager.Service
