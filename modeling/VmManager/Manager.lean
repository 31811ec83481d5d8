import VmManager.Mailbox
import VmManager.Segment
/-!
# The whole manager

The clients with their segments, the mailbox and the server put together. The
mailbox decides when a handler is called and when its answer is seen; the
server decides what the handler does and how it ends; what they say to each
other lies in the segment of the client that made the call.
-/
open Runs

namespace VmManager.Manager

/-- What a client constructs in its segment before it calls `Notify`. -/
inductive Preparation
  | start (path : String) (env : List String) (room : Nat)
  | stop (vmName : String) (fits : Bool)
  | info (vmName : String) (fits : Bool)

def Preparation.apply (p : Preparation) (g : Segment) : Except ShmError Unit × Segment :=
  match p with
  | .start path env room => g.prepareStartGuestClientShm path env room
  | .stop vmName fits => g.prepareStopGuestClientShm vmName fits
  | .info vmName fits => g.prepareGetGuestInfo vmName fits

/-- `serving` is the call whose handler runs, with the request it has read.
`asked` and `done` are for the statements: what the segment of the client said
when call `k` was made, and the handlers that have returned. -/
structure State (κ : Type) where
  mail : Mailbox.State := {}
  sys : Sys κ
  /-- The segments that exist, by the pid in their names. -/
  seg : Nat → Option Segment := fun _ => none
  serving : Option (Nat × Request) := none
  asked : Nat → Option Request := fun _ => none
  done : List (Nat × Request × Int) := []

variable {κ : Type}

def init (k : κ) : State κ := { sys := Sys.init k }

inductive Act (κ : Type)
  /-- `Client::Client` of process `pid`. -/
  | construct (pid : Nat)
  | prepare (pid : Nat) (p : Preparation)
  /-- `Client::~Client`. -/
  | destruct (pid : Nat)
  /-- `Notify` and the loop of `Server::Start`, outside the handlers. -/
  | mail (a : Mailbox.Act)
  /-- A handler, the VM threads, the listener and the host. -/
  | sys (a : VmManager.Act κ)

/-- The server opens the segment that the message names and looks for the
request. Opening one that does not exist throws. -/
def openRequest (s : State κ) (t : CivMsgType) : Except ShmError (Option Request) :=
  match (s.mail.msg.bind (·.payload)).bind s.seg with
  | none => .error .notFound
  | some g => .ok (g.readRequest t)

/-- The mailbox is in `m`: the handler of `t` has just been called for call
`k`. After a null pointer nothing more is said. -/
def enterHandler (h : Host κ) (s : State κ) (m : Mailbox.State) (k : Nat) (t : CivMsgType) : Option (State κ) :=
  match openRequest s t with
  | .error _ => (Mailbox.handlerEnds m .throws).map fun m => { s with mail := m }
  | .ok none => none
  | .ok (some r) =>
    (VmManager.step h s.sys (.recv r)).map fun sys => { s with mail := m, sys, serving := some (k, r) }

/-- The next step of the loop of `Server::Start`. -/
def loopStep (h : Host κ) (s : State κ) : Option (State κ) :=
  (Mailbox.serverStep s.mail).bind fun m =>
    match s.mail.server, m.server, s.sys.server with
    | .found, .handling k t, _ => enterHandler h s m k t
    -- The end of a turn in which a handler was called is one of `sys` as well.
    | .clear, _, .clear => (VmManager.step h s.sys .server).map fun sys => { s with mail := m, sys }
    | _, _, _ => some { s with mail := m }

/-- The segment that the message names after the handler's next step. -/
def storeIn (h : Host κ) (s : State κ) : Nat → Option Segment :=
  match s.mail.msg.bind (·.payload) with
  | none => s.seg
  | some pid => Function.update s.seg pid ((s.seg pid).map (storeResult h s.sys .server))

/-- The next step of the handler. -/
def handlerStep (h : Host κ) (s : State κ) : Option (State κ) :=
  match s.serving, s.sys.server with
  | none, _ | some _, .loop | some _, .clear => none
  | some (k, r), .reply ret =>
    (VmManager.step h s.sys .server).bind fun sys =>
      (Mailbox.handlerEnds s.mail (.returns (decide (ret = 0)))).map fun m =>
        { s with mail := m, sys, serving := none, done := s.done ++ [(k, r, ret)] }
  | some _, _ =>
    (VmManager.step h s.sys .server).bind fun sys =>
      match sys.server with
      | .exited _ =>
        (Mailbox.handlerEnds s.mail .throws).map fun m =>
          { s with mail := m, sys, seg := storeIn h s, serving := none }
      | _ => some { s with sys, seg := storeIn h s }

/-- A call of `Notify` needs a `Client`, and whoever makes it has prepared the
request: `StartGuest`, `StopGuest` and `GetCivVmInfo` all do. -/
def call (s : State κ) (pid : Nat) (t : CivMsgType) : Option (State κ) :=
  match s.seg pid with
  | none => none
  | some g =>
    if t.hasHandler && (g.readRequest t).isNone then none
    else (Mailbox.notify s.mail pid t).map fun m =>
      { s with mail := m, asked := Function.update s.asked s.mail.calls (g.readRequest t) }

/-- The client of process `pid` is not in `Notify`. -/
def idle (s : State κ) (pid : Nat) : Bool := s.mail.client pid = .idle

def step (h : Host κ) (s : State κ) : Act κ → Option (State κ)
  | .construct pid =>
    -- `open_only` wants the server's segment, `create_only` none of its own.
    if s.mail.syncGone || !idle s pid || (s.seg pid).isSome then none
    else some { s with seg := Function.update s.seg pid (some {}) }
  | .prepare pid p =>
    match s.seg pid with
    | none => none
    | some g =>
      if !idle s pid then none
      else match p.apply g with
        | (.ok (), g) => some { s with seg := Function.update s.seg pid (some g) }
        -- The exception goes through `~Client`.
        | (.error _, _) => some { s with seg := Function.update s.seg pid none }
  | .destruct pid => if idle s pid then some { s with seg := Function.update s.seg pid none } else none
  | .mail (.notify pid t) => call s pid t
  | .mail .server => loopStep h s
  | .mail (.handlerEnds _) => none
  | .mail a => (Mailbox.step s.mail a).map fun m => { s with mail := m }
  | .sys .server => handlerStep h s
  | .sys (.recv _) => none
  | .sys a => (VmManager.step h s.sys a).map fun sys => { s with sys }

/-! ## What a step can do -/

inductive Move (h : Host κ) (s : State κ) : State κ → Prop
  /-- A client appears, prepares its request or goes away. -/
  | segment (pid : Nat) (g : Option Segment) : s.mail.client pid = .idle →
      Move h s { s with seg := Function.update s.seg pid g }
  | call (pid : Nat) (t : CivMsgType) (g : Segment) (m : Mailbox.State) : s.seg pid = some g →
      (t.hasHandler = true → (g.readRequest t).isSome = true) → Mailbox.notify s.mail pid t = some m →
      Move h s { s with mail := m, asked := Function.update s.asked s.mail.calls (g.readRequest t) }
  /-- The mailbox moves on its own. -/
  | mail (a : Mailbox.Act) (m : Mailbox.State) : Mailbox.step s.mail a = some m → (∀ i t, a ≠ .notify i t) →
      (∀ e, a ≠ .handlerEnds e) → (∀ k t, m.server = .handling k t → s.mail.server = .handling k t) →
      (s.mail.server = .clear → m.server ≠ .clear → s.sys.server ≠ .clear) → Move h s { s with mail := m }
  /-- A handler is called, on a segment that is there. -/
  | enter (m : Mailbox.State) (k : Nat) (t : CivMsgType) (r : Request) (sys : Sys κ) : s.mail.server = .found →
      Mailbox.serverStep s.mail = some m → m.server = .handling k t → openRequest s t = .ok (some r) →
      VmManager.step h s.sys (.recv r) = some sys → Move h s { s with mail := m, sys, serving := some (k, r) }
  | unopened (m m' : Mailbox.State) (k : Nat) (t : CivMsgType) (e : ShmError) : s.mail.server = .found →
      Mailbox.serverStep s.mail = some m → m.server = .handling k t → openRequest s t = .error e →
      Mailbox.handlerEnds m .throws = some m' → Move h s { s with mail := m' }
  | handle (k : Nat) (r : Request) (sys : Sys κ) : s.serving = some (k, r) → s.sys.server ≠ .clear →
      (∀ ret, s.sys.server ≠ .reply ret) → VmManager.step h s.sys .server = some sys →
      (∀ e, sys.server ≠ .exited e) → Move h s { s with sys, seg := storeIn h s }
  | threw (k : Nat) (r : Request) (sys : Sys κ) (e : Exn) (m : Mailbox.State) : s.serving = some (k, r) →
      VmManager.step h s.sys .server = some sys → sys.server = .exited e →
      Mailbox.handlerEnds s.mail .throws = some m → Move h s { s with mail := m, sys, seg := storeIn h s, serving := none }
  | returned (k : Nat) (r : Request) (ret : Int) (sys : Sys κ) (m : Mailbox.State) : s.serving = some (k, r) →
      s.sys.server = .reply ret → VmManager.step h s.sys .server = some sys →
      Mailbox.handlerEnds s.mail (.returns (decide (ret = 0))) = some m →
      Move h s { s with mail := m, sys, serving := none, done := s.done ++ [(k, r, ret)] }
  /-- The turn in which a handler was called ends. -/
  | finish (m : Mailbox.State) (sys : Sys κ) : s.mail.server = .clear → Mailbox.serverStep s.mail = some m →
      s.sys.server = .clear → VmManager.step h s.sys .server = some sys → Move h s { s with mail := m, sys }
  /-- The VM threads, the listener and the host. -/
  | other (a : VmManager.Act κ) (sys : Sys κ) : VmManager.step h s.sys a = some sys → a ≠ .server →
      (∀ r, a ≠ .recv r) → Move h s { s with sys }

/-- The loop calls a handler after it has found a message, and nowhere else. -/
theorem found_of_handling {s s' : Mailbox.State} {k : Nat} {t : CivMsgType} (h : Mailbox.serverStep s = some s')
    (hk : s'.server = .handling k t) : s.server = .found := by
  cases Mailbox.serverStep_move h with
  | stop =>
    have hpc : s.server = .handling k t := hk
    simp [Mailbox.serverStep, hpc] at h
  | handle m t' hpc => exact hpc
  | returns j t' m ok hpc | throws j t' hpc => simp [Mailbox.serverStep, hpc] at h
  | exit | lock | flagged | wait | wake | relock | missing | take | stopServer | skip | clear => cases hk

/-- What is neither a call nor a step of the loop does not concern it. -/
theorem aside_of_step {s s' : Mailbox.State} {a : Mailbox.Act} (h : Mailbox.step s a = some s')
    (hn : ∀ i t, a ≠ .notify i t) (hs : a ≠ .server) (he : ∀ e, a ≠ .handlerEnds e) :
    s'.server = s.server ∨ s.server = .asleep ∧ s'.server = .woken := by
  cases a with
  | notify i t => exact absurd rfl (hn i t)
  | server => exact absurd rfl hs
  | handlerEnds e => exact absurd rfl (he e)
  | client i => cases Mailbox.clientStep_move h <;> exact .inl rfl
  | wakeClient i timeout =>
    simp only [Mailbox.step, Mailbox.wakeClient] at h
    split at h <;> cases h
    exact .inl rfl
  | wakeServer =>
    simp only [Mailbox.step, Mailbox.wakeServer] at h
    split at h <;> cases h
    exact .inr ⟨‹_›, rfl⟩
  | stop =>
    cases h
    exact .inl rfl

theorem loopStep_move {h : Host κ} {s s' : State κ} (hs : loopStep h s = some s') : Move h s s' := by
  obtain ⟨m, hm, hs⟩ := Option.bind_eq_some_iff.1 hs
  split at hs
  · rename_i k t hpc hk
    unfold enterHandler at hs
    split at hs
    · obtain ⟨m', hm', rfl⟩ := Option.map_eq_some_iff.1 hs
      exact .unopened m m' k t _ hpc hm hk ‹_› hm'
    · cases hs
    · obtain ⟨sys, hsys, rfl⟩ := Option.map_eq_some_iff.1 hs
      exact .enter m k t _ sys hpc hm hk ‹_› hsys
  · obtain ⟨sys, hsys, rfl⟩ := Option.map_eq_some_iff.1 hs
    exact .finish m sys ‹_› hm ‹_› hsys
  · cases hs
    rename_i hfound hclear
    refine .mail .server m hm nofun nofun (fun k t hk => ?_) fun hpc _ hsys => hclear hpc hsys
    exact absurd hk (hfound k t (found_of_handling hm hk))

theorem handlerStep_move {h : Host κ} {s s' : State κ} (hs : handlerStep h s = some s') : Move h s s' := by
  unfold handlerStep at hs
  split at hs
  · cases hs
  · cases hs
  · cases hs
  · rename_i k r ret hserving hpc
    obtain ⟨sys, hsys, hs⟩ := Option.bind_eq_some_iff.1 hs
    obtain ⟨m, hm, rfl⟩ := Option.map_eq_some_iff.1 hs
    exact .returned k r ret sys m hserving hpc hsys hm
  · rename_i p hserving hloop hclear hreply
    obtain ⟨sys, hsys, hs⟩ := Option.bind_eq_some_iff.1 hs
    split at hs
    · obtain ⟨m, hm, rfl⟩ := Option.map_eq_some_iff.1 hs
      exact .threw p.1 p.2 sys _ m hserving hsys ‹_› hm
    · rename_i hexit
      cases hs
      exact .handle p.1 p.2 sys hserving hclear (fun ret hr => hreply p.1 p.2 ret hr rfl) hsys hexit

theorem step_move {h : Host κ} {s s' : State κ} {a : Act κ} (hs : step h s a = some s') : Move h s s' := by
  have hidle : ∀ {pid}, ¬ (!idle s pid) = true → s.mail.client pid = .idle := fun hi => by simpa [idle] using hi
  unfold step at hs
  split at hs
  · split at hs
    · cases hs
    · cases hs
      rename_i pid hno
      exact .segment pid _ (by simp [idle] at hno; exact hno.1.2)
  · split at hs
    · cases hs
    · split at hs
      · cases hs
      · split at hs <;> cases hs <;> exact .segment _ _ (hidle ‹_›)
  · split at hs
    · cases hs
      exact .segment _ none (by simpa [idle] using ‹idle s _ = true›)
    · cases hs
  · rename_i pid t
    unfold call at hs
    split at hs
    · cases hs
    · split at hs
      · cases hs
      · rename_i g hg hready
        obtain ⟨m, hm, rfl⟩ := Option.map_eq_some_iff.1 hs
        exact .call pid t g m hg (fun ht => by simpa [ht, Option.isSome_iff_ne_none] using hready) hm
  · exact loopStep_move hs
  · cases hs
  · rename_i a hn hserver he
    obtain ⟨m, hm, rfl⟩ := Option.map_eq_some_iff.1 hs
    have haside := aside_of_step hm (fun i t => hn i t) hserver he
    refine .mail a m hm hn he (fun k t hk => ?_) fun hpc hleft => ?_
    · rcases haside with heq | ⟨-, heq⟩
      · exact heq.symm.trans hk
      · rw [hk] at heq
        cases heq
    · rcases haside with heq | ⟨heq, -⟩
      · exact absurd (heq.trans hpc) hleft
      · rw [hpc] at heq
        cases heq
  · exact handlerStep_move hs
  · cases hs
  · rename_i a hserver hrecv
    obtain ⟨sys, hsys, rfl⟩ := Option.map_eq_some_iff.1 hs
    exact .other a sys hsys hserver hrecv

end VmManager.Manager
