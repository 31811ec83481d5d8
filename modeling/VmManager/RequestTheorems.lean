import VmManager.ListenerTheorems
import VmManager.LockInvariants
import VmManager.NameTheorems
/-!
# Theorems about requests and their answers

The loop of `Server::Start` catches nothing, so whatever a handler throws ends
the server. Four things do: a config that `read_ini` does not take, a number of
outputs that `std::stoi` does not take, a full segment of the client, and, in
its own way, an AAF file that cannot be read back. What the VM threads remove
under the server is the other danger. Nothing else keeps a handler from its
answer.
-/
open Text Runs

namespace VmManager

open VmBuilderQemu

variable {κ : Type}

/-! ## What keeps a request from its answer -/

/-- The server looks at `vmis_` as a whole, through `FindVmInstance` or at its
end. -/
def ServerPc.looks : ServerPc → Bool
  | .stopFind _ | .infoFind _ | .listConstruct | .listItem _ | .importFind .. | .startFind .. | .insert .. => true
  | _ => false

/-- The server is neither gone nor in a loop without end. -/
def ServerPc.serving : ServerPc → Bool
  | .exited _ | .hung | .unwind .. => false
  | _ => true

/-- In a handler, before its answer is written. -/
def ServerPc.handling : ServerPc → Bool
  | .exited _ | .hung | .unwind .. | .loop | .clear => false
  | _ => true

/-- The types that the loop writes into a message it has handled. -/
def answers (t : Option CivMsgType) : Prop := t = some .respondSuccess ∨ t = some .respondFail

/-- Back in the loop the last request, if there was one, has been answered and
`msg_in` is clear. -/
structure Replies (s : Sys κ) : Prop where
  clear : s.server = .clear → answers s.msgType
  loop : s.server = .loop → s.msgIn = false ∧ (s.msgType = none ∨ answers s.msgType)

def ThreadPc.work : ThreadPc → Nat
  | launch => 409
  | booting => 408
  | countDown => 407
  | addPending => 406
  | waitReady n => if n < 200 then 405 - 2 * n else 4
  | sleepReady n => if n < 200 then 404 - 2 * n else 5
  | giveUpLock => 3
  | giveUp => 2
  | giveUpNotify | notifyReady => 1
  | _ => 0

/-- A bound on the steps to the answer, of the server and of the thread it has
started. -/
def todo (s : Sys κ) : Nat :=
  match s.server with
  | .loop | .exited _ | .hung | .unwind .. => 0
  | .clear => 1
  | .reply _ => 2
  | .stopping _ | .discard _ | .infoState .. | .startState .. => 3
  | .stopStop .. | .infoCid .. => 4
  | .stopRpc .. | .infoConstruct .. => 5
  | .stopCid .. | .infoFind _ => 6
  | .stopName .. => 7
  | .stopFind _ => 8
  | .listState i _ => 1 + 3 * (s.vmis.length - i)
  | .listName i => 2 + 3 * (s.vmis.length - i)
  | .listItem i => 3 + 3 * (s.vmis.length - i)
  | .listConstruct => 4 + 3 * s.vmis.length
  | .startWait uid _ => 4 + (s.thread uid).work
  | .startGet .. => 414
  | .insert .. => 416
  | .building _ _ i => 417 + (argSteps.length - i)
  | .importDelete .. | .startFind .. => 418 + argSteps.length
  | .importLock .. | .startRead .. => 419 + argSteps.length
  | .importState .. => 420 + argSteps.length
  | .importFind .. => 421 + argSteps.length
  | .importRead _ => 422 + argSteps.length

/-- The bound with what the other threads can hold up: each of them removes its
VM once. -/
def work (s : Sys κ) : Nat := todo s + s.vmis.length

theorem deleteVmInstance_length (h : Host κ) (s : Sys κ) (name : String) :
    (deleteVmInstance h s name).vmis.length ≤ s.vmis.length := by
  rcases deleteVmInstance_cases h s name with ⟨-, he⟩ | ⟨_, _, -, -, -, he⟩ <;> rw [he]
  exact (List.eraseIdx_sublist _ _).length_le

/-- The thread that the request in hand waits for: it has the latch to count
down, or it is in `DeleteVmInstance` when the server wants to lock `vmis_mutex_`
or to look at `vmis_`. -/
def awaitedThread (s : Sys κ) : Option Nat :=
  match s.server with
  | .startWait uid _ => if s.latch uid = 0 then none else some uid
  | .importLock .. => s.deleting.bind (·.thread)
  | p => if p.looks then s.deleting.bind (·.thread) else none

/-- The request in hand waits for this step. -/
def awaits (s : Sys κ) : Act κ → Bool
  | .server => awaitedThread s = none
  | .thread uid => awaitedThread s = some uid
  | _ => false

/-- Everything that keeps the server going. -/
structure Serves (s : Sys κ) : Prop where
  instances : Instances s
  locked : Locked s
  manned : Manned s
  held : Held (fun _ => true) s
  kept : StartedKept s
  pending : PendingWaits s
  unstuck : ∀ uid, s.thread uid ≠ .stuck
  defined : s.ub = false
  serving : s.server.serving = true
  replies : Replies s

theorem ThreadMove.length_le {h : Host κ} {s s' : Sys κ} {uid : Nat} (hs : ThreadMove h s uid s') :
    s'.vmis.length ≤ s.vmis.length := by
  cases hs with
  | delete vb => exact deleteVmInstance_length h s vb.name
  | giveUp vb => exact deleteVmInstance_length h s vb.name
  | launch | booting | setReady => exact (List.length_map _).le
  | _ => exact Nat.le_refl _

/-- The server is back in its loop. -/
def ServerPc.idle : ServerPc → Bool
  | .loop => true
  | _ => false

theorem ThreadMove.msg {h : Host κ} {s s' : Sys κ} {uid : Nat} (hs : ThreadMove h s uid s') :
    s'.msgIn = s.msgIn ∧ s'.msgType = s.msgType := by
  have hdel : ∀ name, (deleteVmInstance h s name).msgIn = s.msgIn ∧ (deleteVmInstance h s name).msgType = s.msgType := by
    intro name
    rcases deleteVmInstance_cases h s name with ⟨-, he⟩ | ⟨_, _, -, -, -, he⟩ <;> rw [he] <;> exact ⟨rfl, rfl⟩
  cases hs with
  | delete vb => exact hdel vb.name
  | giveUp vb => exact hdel vb.name
  | _ => exact ⟨rfl, rfl⟩

theorem OtherMove.msg {s s' : Sys κ} (hs : OtherMove s s') : s'.msgIn = s.msgIn ∧ s'.msgType = s.msgType := by
  cases hs <;> exact ⟨rfl, rfl⟩

/-- Where the server is and what the message says decides what it owes. -/
theorem Replies.frame {s s' : Sys κ} (hr : Replies s) (hserver : s'.server = s.server) (hin : s'.msgIn = s.msgIn)
    (ht : s'.msgType = s.msgType) : Replies s' := by
  refine ⟨?_, ?_⟩
  · rw [hserver, ht]; exact hr.clear
  · rw [hserver, hin, ht]; exact hr.loop

end VmManager
