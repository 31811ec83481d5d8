import Mathlib.Logic.Function.Basic
import VmManager.Lib.Runs
import VmManager.Message
/-!
# The mailbox between the clients and the server

`Client::Notify` and the loop of `Server::Start` share one `CivMsg`, two
mutexes, two condition variables and the flag `msg_in`. Each is cut here at
every point where another thread can get in between. A condition variable
wakes its waiter at any moment, so a notification, a timeout and a spurious
wake-up are the same kind of action.
-/
open Runs

namespace VmManager.Mailbox

/-- One `Notify(type)` call; `id` numbers the calls of all clients. -/
structure Call where
  id : Nat
  type : CivMsgType
  deriving DecidableEq

/-- `CivMsg`. A freshly constructed one is zeroed, so its `type` is none of the
enumerators and its `payload` names no segment. The payload
`CivClientShm<pid>` is kept as the pid. `call` says who constructed it. -/
structure CivMsg where
  call : Nat
  type : Option CivMsgType
  payload : Option Nat
  deriving DecidableEq

/-- Where a client is in `Client::Notify`. -/
inductive ClientPc
  | idle
  /-- Before `lock_clients(sync->mutex)`. -/
  | enter (c : Call)
  /-- Before `construct<CivMsg>`. -/
  | locked (c : Call)
  /-- Before `data->type = t`. -/
  | made (c : Call)
  /-- Before the `strncpy` of the payload. -/
  | typed (c : Call)
  /-- Before `lock_cond(sync->mutex_cond)`. -/
  | filled (c : Call)
  /-- Before `cond_s.notify_one(); msg_in = true`. -/
  | holding (c : Call)
  /-- At the condition of the `while` loop. -/
  | loop (c : Call) (retry : Nat)
  /-- In `cond_c.wait_for`. -/
  | asleep (c : Call) (retry : Nat)
  /-- `wait_for` is over and re-acquires `mutex_cond`. -/
  | woken (c : Call) (retry : Nat) (timeout : Bool)
  /-- After the loop, before `data->type` is read. -/
  | after (c : Call) (retry : Nat)
  /-- Before `destroy<CivMsg>`. -/
  | result (c : Call) (ret : Bool)
  /-- Before `lock_cond` is released. -/
  | gone (c : Call) (ret : Bool)
  /-- Before `lock_clients` is released. -/
  | unlock (c : Call) (ret : Bool)
  deriving DecidableEq

/-- Where the server is in the loop of `Server::Start`. -/
inductive ServerPc
  /-- At `while (!stop_server_)`. -/
  | head
  /-- Before `if (!msg_in)`. -/
  | locked
  /-- In `cond_s.wait`. -/
  | asleep
  /-- The wait is over and re-acquires `mutex_cond`. -/
  | woken
  /-- Before `shm.find<CivMsg>`. -/
  | find
  /-- At `switch (data.first->type)`. -/
  | found
  /-- In the handler of `t`, called on the `CivMsg` of `call`. -/
  | handling (call : Nat) (t : CivMsgType)
  /-- Before `msg_in = false; cond_c.notify_one()`. -/
  | clear
  | exited
  deriving DecidableEq

inductive Holder
  | server
  | client (i : Nat)
  deriving DecidableEq

/-- What the run has done so far, for the statements. -/
inductive Event
  /-- The server calls the handler of `t` on the `CivMsg` of `call`. -/
  | handler (call : Nat) (t : CivMsgType)
  /-- That handler returned, with 0 or not. -/
  | handled (call : Nat) (ok : Bool)
  /-- The server took `kCiVMsgStopServer` from the `CivMsg` of `call`. -/
  | stopped (call : Nat)
  /-- `Notify` number `call` read the reply in the `CivMsg` of `owner`. -/
  | reply (call owner : Nat)
  /-- `Notify` number `call` of type `t` returned `ret`. -/
  | ret (call : Nat) (t : CivMsgType) (ret : Bool)
  deriving DecidableEq

/-- How a handler ends. -/
inductive HandlerEnd
  | returns (ok : Bool)
  | throws

structure State where
  mutex : Option Nat := none
  mutexCond : Option Holder := none
  msgIn : Bool := false
  msg : Option CivMsg := none
  stopServer : Bool := false
  /-- `shm.destroy_ptr(sync_)` has run. -/
  syncGone : Bool := false
  server : ServerPc := .head
  client : Nat → ClientPc := fun _ => .idle
  /-- The number of `Notify` calls made. -/
  calls : Nat := 0
  log : List Event := []

def init : State := {}

def kMaxRetryCount : Nat := 100

def State.goto (s : State) (i : Nat) (p : ClientPc) : State :=
  { s with client := Function.update s.client i p }

/-- Client `i` enters `Notify(t)`. -/
def notify (s : State) (i : Nat) (t : CivMsgType) : Option State :=
  match s.client i with
  | .idle =>
    let c : Call := ⟨s.calls, t⟩
    if s.syncGone then some { s with calls := s.calls + 1, log := .ret c.id t false :: s.log }
    else some { s.goto i (.enter c) with calls := s.calls + 1 }
  | _ => none

/-- The next step of client `i` inside `Notify`. `data` is the `CivMsg` in the
slot. -/
def clientStep (s : State) (i : Nat) : Option State :=
  match s.client i with
  | .idle | .asleep .. => none
  | .enter c => if s.mutex = none then some { s.goto i (.locked c) with mutex := some i } else none
  | .locked c =>
    match s.msg with
    | none => some { s.goto i (.made c) with msg := some ⟨c.id, none, none⟩ }
    -- `construct` refuses a name that exists.
    | some _ => some (s.goto i (.unlock c false))
  | .made c => s.msg.map fun m => { s.goto i (.typed c) with msg := some { m with type := some c.type } }
  | .typed c => s.msg.map fun m => { s.goto i (.filled c) with msg := some { m with payload := some i } }
  | .filled c =>
    if s.mutexCond = none then some { s.goto i (.holding c) with mutexCond := some (.client i) } else none
  | .holding c => some { s.goto i (.loop c 0) with msgIn := true }
  | .loop c r =>
    if s.msgIn = true ∧ r < kMaxRetryCount then some { s.goto i (.asleep c r) with mutexCond := none }
    else some (s.goto i (.after c r))
  | .woken c r timeout =>
    if s.mutexCond = none then
      let s := { s with mutexCond := some (.client i) }
      some (s.goto i (if timeout then .loop c (r + 1) else .after c r))
    else none
  | .after c r =>
    s.msg.map fun m =>
      if r < kMaxRetryCount then
        { s.goto i (.result c (m.type == some .respondSuccess)) with log := .reply c.id m.call :: s.log }
      else s.goto i (.result c false)
  | .result c ret => some { s.goto i (.gone c ret) with msg := none }
  | .gone c ret => some { s.goto i (.unlock c ret) with mutexCond := none }
  | .unlock c ret => some { s.goto i .idle with mutex := none, log := .ret c.id c.type ret :: s.log }

/-- `wait_for` of client `i` ends: by timeout, or notified or spuriously. -/
def wakeClient (s : State) (i : Nat) (timeout : Bool) : Option State :=
  match s.client i with
  | .asleep c r => some (s.goto i (.woken c r timeout))
  | _ => none

/-- The next step of the server loop. -/
def serverStep (s : State) : Option State :=
  match s.server with
  | .asleep | .handling .. | .exited => none
  | .head =>
    if s.stopServer then some { s with server := .exited, syncGone := true }
    else if s.mutexCond = none then some { s with server := .locked, mutexCond := some .server }
    else none
  | .locked =>
    if s.msgIn then some { s with server := .find }
    else some { s with server := .asleep, mutexCond := none }
  | .woken => if s.mutexCond = none then some { s with server := .find, mutexCond := some .server } else none
  | .find =>
    match s.msg with
    | none => some { s with server := .head, mutexCond := none }
    | some _ => some { s with server := .found }
  | .found =>
    match s.msg with
    | none => none
    | some m =>
      match m.type with
      | some .stopServer =>
        some { s with server := .clear, stopServer := true, msg := some { m with type := some .respondSuccess },
                      log := .stopped m.call :: s.log }
      | some t =>
        if t.hasHandler then some { s with server := .handling m.call t, log := .handler m.call t :: s.log }
        else some { s with server := .clear }
      | none => some { s with server := .clear }
  | .clear => some { s with server := .head, msgIn := false, mutexCond := none }

/-- `cond_s.wait` ends, notified or spuriously. -/
def wakeServer (s : State) : Option State :=
  match s.server with
  | .asleep => some { s with server := .woken }
  | _ => none

/-- The handler ends. An exception unwinds the loop and releases the lock. -/
def handlerEnds (s : State) (e : HandlerEnd) : Option State :=
  match s.server, e with
  | .handling call _, .returns ok =>
    s.msg.map fun m => { s with
      server := .clear
      msg := some { m with type := some (if ok then .respondSuccess else .respondFail) }
      log := .handled call ok :: s.log }
  | .handling .., .throws => some { s with server := .exited, mutexCond := none }
  | _, _ => none

inductive Act
  | notify (i : Nat) (t : CivMsgType)
  | client (i : Nat)
  | wakeClient (i : Nat) (timeout : Bool)
  | server
  | wakeServer
  | handlerEnds (e : HandlerEnd)
  /-- `Server::Stop`, from the signal handler. -/
  | stop

def step (s : State) : Act → Option State
  | .notify i t => notify s i t
  | .client i => clientStep s i
  | .wakeClient i timeout => wakeClient s i timeout
  | .server => serverStep s
  | .wakeServer => wakeServer s
  | .handlerEnds e => handlerEnds s e
  | .stop => some { s with stopServer := true }

/-! ## What a step can do -/

/-- The steps of `Client::Notify`, by client `i`. -/
inductive ClientMove (s : State) (i : Nat) : State → Prop
  | refused (t : CivMsgType) : s.client i = .idle → s.syncGone = true →
      ClientMove s i { s with calls := s.calls + 1, log := .ret s.calls t false :: s.log }
  | enter (t : CivMsgType) : s.client i = .idle → s.syncGone = false →
      ClientMove s i { s.goto i (.enter ⟨s.calls, t⟩) with calls := s.calls + 1 }
  | lock (c : Call) : s.client i = .enter c → s.mutex = none →
      ClientMove s i { s.goto i (.locked c) with mutex := some i }
  | construct (c : Call) : s.client i = .locked c → s.msg = none →
      ClientMove s i { s.goto i (.made c) with msg := some ⟨c.id, none, none⟩ }
  | exists_ (c : Call) (m : CivMsg) : s.client i = .locked c → s.msg = some m →
      ClientMove s i (s.goto i (.unlock c false))
  | type (c : Call) (m : CivMsg) : s.client i = .made c → s.msg = some m →
      ClientMove s i { s.goto i (.typed c) with msg := some { m with type := some c.type } }
  | payload (c : Call) (m : CivMsg) : s.client i = .typed c → s.msg = some m →
      ClientMove s i { s.goto i (.filled c) with msg := some { m with payload := some i } }
  | lockCond (c : Call) : s.client i = .filled c → s.mutexCond = none →
      ClientMove s i { s.goto i (.holding c) with mutexCond := some (.client i) }
  | submit (c : Call) : s.client i = .holding c → ClientMove s i { s.goto i (.loop c 0) with msgIn := true }
  | wait (c : Call) (r : Nat) : s.client i = .loop c r → s.msgIn = true → r < kMaxRetryCount →
      ClientMove s i { s.goto i (.asleep c r) with mutexCond := none }
  | leave (c : Call) (r : Nat) : s.client i = .loop c r → ¬ (s.msgIn = true ∧ r < kMaxRetryCount) →
      ClientMove s i (s.goto i (.after c r))
  | wake (c : Call) (r : Nat) (timeout : Bool) : s.client i = .asleep c r →
      ClientMove s i (s.goto i (.woken c r timeout))
  | retry (c : Call) (r : Nat) : s.client i = .woken c r true → s.mutexCond = none →
      ClientMove s i { s.goto i (.loop c (r + 1)) with mutexCond := some (.client i) }
  | woken (c : Call) (r : Nat) : s.client i = .woken c r false → s.mutexCond = none →
      ClientMove s i { s.goto i (.after c r) with mutexCond := some (.client i) }
  | read (c : Call) (r : Nat) (m : CivMsg) : s.client i = .after c r → s.msg = some m → r < kMaxRetryCount →
      ClientMove s i { s.goto i (.result c (m.type == some .respondSuccess)) with
        log := .reply c.id m.call :: s.log }
  | giveUp (c : Call) (r : Nat) (m : CivMsg) : s.client i = .after c r → s.msg = some m → kMaxRetryCount ≤ r →
      ClientMove s i (s.goto i (.result c false))
  | destroy (c : Call) (ret : Bool) : s.client i = .result c ret →
      ClientMove s i { s.goto i (.gone c ret) with msg := none }
  | unlockCond (c : Call) (ret : Bool) : s.client i = .gone c ret →
      ClientMove s i { s.goto i (.unlock c ret) with mutexCond := none }
  | unlock (c : Call) (ret : Bool) : s.client i = .unlock c ret →
      ClientMove s i { s.goto i .idle with mutex := none, log := .ret c.id c.type ret :: s.log }

/-- The steps of the server loop. -/
inductive ServerMove (s : State) : State → Prop
  | stop : ServerMove s { s with stopServer := true }
  | exit : s.server = .head → s.stopServer = true → ServerMove s { s with server := .exited, syncGone := true }
  | lock : s.server = .head → s.mutexCond = none →
      ServerMove s { s with server := .locked, mutexCond := some .server }
  | flagged : s.server = .locked → s.msgIn = true → ServerMove s { s with server := .find }
  | wait : s.server = .locked → s.msgIn = false → ServerMove s { s with server := .asleep, mutexCond := none }
  | wake : s.server = .asleep → ServerMove s { s with server := .woken }
  | relock : s.server = .woken → s.mutexCond = none →
      ServerMove s { s with server := .find, mutexCond := some .server }
  | missing : s.server = .find → s.msg = none → ServerMove s { s with server := .head, mutexCond := none }
  | take (m : CivMsg) : s.server = .find → s.msg = some m → ServerMove s { s with server := .found }
  | stopServer (m : CivMsg) : s.server = .found → s.msg = some m → m.type = some .stopServer →
      ServerMove s { s with server := .clear, stopServer := true,
                            msg := some { m with type := some .respondSuccess }, log := .stopped m.call :: s.log }
  | handle (m : CivMsg) (t : CivMsgType) : s.server = .found → s.msg = some m → m.type = some t →
      t.hasHandler = true → ServerMove s { s with server := .handling m.call t, log := .handler m.call t :: s.log }
  | skip (m : CivMsg) : s.server = .found → s.msg = some m → (∀ t, m.type = some t → t.isOperation = false) →
      ServerMove s { s with server := .clear }
  | returns (call : Nat) (t : CivMsgType) (m : CivMsg) (ok : Bool) : s.server = .handling call t →
      s.msg = some m →
      ServerMove s { s with
        server := .clear
        msg := some { m with type := some (if ok then .respondSuccess else .respondFail) }
        log := .handled call ok :: s.log }
  | throws (call : Nat) (t : CivMsgType) : s.server = .handling call t →
      ServerMove s { s with server := .exited, mutexCond := none }
  | clear : s.server = .clear → ServerMove s { s with server := .head, msgIn := false, mutexCond := none }

theorem notify_move {s s' : State} {i : Nat} {t : CivMsgType} (h : notify s i t = some s') : ClientMove s i s' := by
  unfold notify at h
  split at h
  · split at h <;> cases h
    · exact .refused t ‹_› ‹_›
    · exact .enter t ‹_› (by simpa using ‹¬ s.syncGone = true›)
  · cases h

theorem clientStep_move {s s' : State} {i : Nat} (h : clientStep s i = some s') : ClientMove s i s' := by
  unfold clientStep at h
  split at h
  · cases h
  · cases h
  · split at h <;> cases h; exact .lock _ ‹_› ‹_›
  · split at h <;> cases h
    · exact .construct _ ‹_› ‹_›
    · exact .exists_ _ _ ‹_› ‹_›
  · obtain ⟨m, hm, rfl⟩ := Option.map_eq_some_iff.1 h; exact .type _ m ‹_› hm
  · obtain ⟨m, hm, rfl⟩ := Option.map_eq_some_iff.1 h; exact .payload _ m ‹_› hm
  · split at h <;> cases h; exact .lockCond _ ‹_› ‹_›
  · cases h; exact .submit _ ‹_›
  · split at h <;> cases h
    · rename_i hw; exact .wait _ _ ‹_› hw.1 hw.2
    · exact .leave _ _ ‹_› ‹_›
  · rename_i c r timeout hpc
    split at h <;> cases h
    cases timeout
    · exact .woken c r hpc ‹_›
    · exact .retry c r hpc ‹_›
  · obtain ⟨m, hm, rfl⟩ := Option.map_eq_some_iff.1 h
    split
    · exact .read _ _ m ‹_› hm ‹_›
    · exact .giveUp _ _ m ‹_› hm (by omega)
  · cases h; exact .destroy _ _ ‹_›
  · cases h; exact .unlockCond _ _ ‹_›
  · cases h; exact .unlock _ _ ‹_›

theorem serverStep_move {s s' : State} (h : serverStep s = some s') : ServerMove s s' := by
  unfold serverStep at h
  split at h
  · cases h
  · cases h
  · cases h
  · split at h
    · cases h; exact .exit ‹_› ‹_›
    · split at h <;> cases h; exact .lock ‹_› ‹_›
  · split at h <;> cases h
    · exact .flagged ‹_› ‹_›
    · exact .wait ‹_› (by simpa using ‹¬ s.msgIn = true›)
  · split at h <;> cases h; exact .relock ‹_› ‹_›
  · split at h <;> cases h
    · exact .missing ‹_› ‹_›
    · exact .take _ ‹_› ‹_›
  · split at h
    · cases h
    · rename_i m hm
      split at h
      · cases h; exact .stopServer m ‹_› hm ‹_›
      · rename_i t hne ht
        split at h <;> cases h
        · exact .handle m t ‹_› hm ht ‹_›
        · refine .skip m ‹_› hm fun t' ht' => ?_
          cases ht.symm.trans ht'
          simp_all [CivMsgType.isOperation]
      · rename_i ht
        cases h; exact .skip m ‹_› hm fun t' ht' => by rw [ht] at ht'; cases ht'
  · cases h; exact .clear ‹_›

/-- Every action is a step of one client or of the server, and only `.client`
steps a client that is awake in a call. -/
theorem step_actor {s s' : State} {a : Act} (h : step s a = some s') :
    (∃ i, ClientMove s i s' ∧ (a = .client i ∨ s.client i = .idle ∨ ∃ c r, s.client i = .asleep c r)) ∨
    ServerMove s s' := by
  cases a with
  | notify i t =>
    have hm := notify_move h
    simp only [step, notify] at h
    split at h
    · exact .inl ⟨i, hm, .inr (.inl ‹_›)⟩
    · cases h
  | client i => exact .inl ⟨i, clientStep_move h, .inl rfl⟩
  | wakeClient i timeout =>
    simp only [step, wakeClient] at h
    split at h <;> cases h
    exact .inl ⟨i, .wake _ _ _ ‹_›, .inr (.inr ⟨_, _, ‹_›⟩)⟩
  | server => exact .inr (serverStep_move h)
  | wakeServer =>
    simp only [step, wakeServer] at h
    split at h <;> cases h
    exact .inr (.wake ‹_›)
  | handlerEnds e =>
    simp only [step, handlerEnds] at h
    split at h
    · obtain ⟨m, hm, rfl⟩ := Option.map_eq_some_iff.1 h
      exact .inr (.returns _ _ m _ ‹_› hm)
    · cases h; exact .inr (.throws _ _ ‹_›)
    · cases h
  | stop => cases h; exact .inr .stop

theorem step_move {s s' : State} {a : Act} (h : step s a = some s') :
    (∃ i, ClientMove s i s') ∨ ServerMove s s' := by
  rcases step_actor h with ⟨i, hm, -⟩ | hm
  · exact .inl ⟨i, hm⟩
  · exact .inr hm

end VmManager.Mailbox
