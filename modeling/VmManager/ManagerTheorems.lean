import VmManager.InstanceMoves
import VmManager.MailboxProgress
import VmManager.Manager
/-!
# Theorems about the whole manager

`step_move` sums up `Manager.lean`. The whole shows as the mailbox and as the
server, so the invariants of both hold of it; what is new is how the two keep
step, and that a request arrives at the server as the client has written it.
-/
open Runs

namespace VmManager.Manager

variable {κ : Type} {h : Host κ} {k₀ : κ} {s s' : State κ}

/-! ## Each part sees a run of its own -/

theorem run_one {σ α : Type} {step : σ → α → Option σ} {s s' : σ} {a : α} (h : step s a = some s') :
    run step s [a] = some s' := run_cons.2 ⟨s', h, rfl⟩

theorem run_two {σ α : Type} {step : σ → α → Option σ} {s s₁ s' : σ} {a b : α} (h : step s a = some s₁)
    (h' : step s₁ b = some s') : run step s [a, b] = some s' := run_cons.2 ⟨s₁, h, run_one h'⟩

/-- The mailbox does what it does, or stands still. -/
theorem simulates_mail (h : Host κ) : Simulates (step h) Mailbox.step State.mail := by
  intro s a s' hs
  cases step_move hs with
  | segment pid g _ => exact ⟨[], rfl⟩
  | call pid t g m _ _ hm => exact ⟨[.notify pid t], run_one hm⟩
  | mail b m hm => exact ⟨[b], run_one hm⟩
  | enter m k t r sys _ hm => exact ⟨[.server], run_one hm⟩
  | unopened m m' k t e _ hm _ _ hm' => exact ⟨[.server, .handlerEnds .throws], run_two hm hm'⟩
  | handle k r sys _ => exact ⟨[], rfl⟩
  | threw k r sys e m _ _ _ hm => exact ⟨[.handlerEnds .throws], run_one hm⟩
  | returned k r ret sys m _ _ _ hm => exact ⟨[.handlerEnds (.returns (decide (ret = 0)))], run_one hm⟩
  | finish m sys _ hm => exact ⟨[.server], run_one hm⟩
  | other b sys _ => exact ⟨[], rfl⟩

/-- And so does the server. -/
theorem simulates_sys (h : Host κ) : Simulates (step h) (VmManager.step h) State.sys := by
  intro s a s' hs
  cases step_move hs with
  | segment pid g _ => exact ⟨[], rfl⟩
  | call pid t g m _ => exact ⟨[], rfl⟩
  | mail b m _ => exact ⟨[], rfl⟩
  | enter m k t r sys _ _ _ _ hsys => exact ⟨[.recv r], run_one hsys⟩
  | unopened m m' k t e _ => exact ⟨[], rfl⟩
  | handle k r sys _ _ _ hsys => exact ⟨[.server], run_one hsys⟩
  | threw k r sys e m _ hsys => exact ⟨[.server], run_one hsys⟩
  | returned k r ret sys m _ _ hsys => exact ⟨[.server], run_one hsys⟩
  | finish m sys _ _ _ hsys => exact ⟨[.server], run_one hsys⟩
  | other b sys hsys => exact ⟨[b], run_one hsys⟩

theorem reachable_mail (hr : Reachable (step h) (init k₀) s) : Reachable Mailbox.step Mailbox.init s.mail :=
  (simulates_mail h).reachable hr

theorem reachable_sys (hr : Reachable (step h) (init k₀) s) : Reachable (VmManager.step h) (Sys.init k₀) s.sys :=
  (simulates_sys h).reachable hr

/-! ## The two keep step -/

/-- The server thread is neither between two requests nor out of its loop. -/
def busy : ServerPc → Bool
  | .loop | .clear | .exited _ => false
  | _ => true

theorem readConfig_busy (s : Sys κ) (path : String) {next : CivConfig → String → ServerPc}
    (hn : ∀ cfg name, busy (next cfg name) = true) :
    busy (readConfig h s path next).server = true ∨ ∃ e, (readConfig h s path next).server = .exited e := by
  unfold readConfig
  split
  · exact .inl rfl
  · split
    · exact .inr ⟨_, rfl⟩
    · exact .inl rfl
    · split
      · exact .inl rfl
      · exact .inl (hn _ _)

theorem buildStep_busy (s : Sys κ) (p : Purpose) (vb : VmBuilderQemu) (i : Nat) :
    busy (buildStep h s p vb i).server = true := by
  unfold buildStep
  split
  · rfl
  · split <;> rfl

/-- A handler is busy until it has replied or thrown. -/
theorem serverStep_busy {s s' : Sys κ} (hs : serverStep h s = some s') (hb : busy s.server = true) :
    (∃ ret, s.server = .reply ret ∧ s'.server = .clear) ∨ busy s'.server = true ∨ ∃ e, s'.server = .exited e := by
  cases hpc : s.server <;> simp only [serverStep, hpc] at hs
  case loop | exited | hung => cases hs
  case reply ret =>
    cases hs
    exact .inl ⟨ret, rfl, rfl⟩
  case clear =>
    rw [hpc] at hb
    cases hb
  all_goals right
  case importRead path | startRead path env =>
    cases hs
    exact readConfig_busy s path fun _ _ => rfl
  case importLock cfg name =>
    obtain ⟨s₁, -, rfl⟩ := Option.map_eq_some_iff.1 hs
    exact .inl rfl
  case building p vb i =>
    cases hs
    exact .inl (buildStep_busy s p vb i)
  case stopRpc name id cid =>
    cases hs
    by_cases hok : (h.shutdown s.world.kernel cid).1 = true
    · rw [if_pos hok]
      exact .inl rfl
    · rw [if_neg hok]
      exact .inl rfl
  case insert p vb =>
    split at hs
    · cases hs
      exact .inl hb
    · cases p <;> cases hs <;> exact .inl rfl
  all_goals
    repeat' split at hs
    all_goals first | (cases hs; done) | (cases hs; exact .inl rfl) | (cases hs; exact .inl hb) | (cases hs; exact .inr ⟨_, rfl⟩)

theorem entry_busy (r : Request) : busy r.entry = true := by
  cases r <;> rfl

/-- The mailbox after the end of a handler. -/
theorem handlerEnds_server {m m' : Mailbox.State} {e : Mailbox.HandlerEnd} (hm : Mailbox.handlerEnds m e = some m') :
    (∃ k t, m.server = .handling k t) ∧ (m'.server = .clear ∧ (∃ ok, e = .returns ok) ∨ m'.server = .exited ∧ e = .throws) := by
  unfold Mailbox.handlerEnds at hm
  split at hm
  · obtain ⟨_, -, rfl⟩ := Option.map_eq_some_iff.1 hm
    exact ⟨⟨_, _, ‹_›⟩, .inl ⟨rfl, _, rfl⟩⟩
  · cases hm
    exact ⟨⟨_, _, ‹_›⟩, .inr ⟨rfl, rfl⟩⟩
  · cases hm

theorem serverStep_clear {m m' : Mailbox.State} (hpc : m.server = .clear) (hm : Mailbox.serverStep m = some m') :
    m' = { m with server := .head, msgIn := false, mutexCond := none } := by
  simpa [Mailbox.serverStep, hpc] using hm.symm

structure Coupled (s : State κ) : Prop where
  handling : ∀ k t, s.mail.server = .handling k t → busy s.sys.server = true ∧ ∃ r, s.serving = some (k, r)
  serving : ∀ k r, s.serving = some (k, r) → ∃ t, s.mail.server = .handling k t
  free : (∀ k t, s.mail.server ≠ .handling k t) → s.sys.server = .loop ∨
    (s.sys.server = .clear ∧ s.mail.server = .clear) ∨ ((∃ e, s.sys.server = .exited e) ∧ s.mail.server = .exited)

/-- The steps of the mailbox that no handler has a part in. -/
theorem mail_cases {m m' : Mailbox.State} {a : Mailbox.Act} (hm : Mailbox.step m a = some m')
    (hn : ∀ i t, a ≠ .notify i t) (he : ∀ e, a ≠ .handlerEnds e) :
    Mailbox.serverStep m = some m' ∨ (m.server = .asleep ∧ m'.server = .woken) ∨ m'.server = m.server := by
  by_cases ha : a = .server
  · subst ha
    exact .inl hm
  · rcases aside_of_step hm hn ha he with heq | hwoken
    · exact .inr (.inr heq)
    · exact .inr (.inl hwoken)

theorem coupled_step {a : Act κ} (hi : Coupled s) (hs : step h s a = some s') : Coupled s' := by
  cases step_move hs with
  | segment pid g _ => exact ⟨hi.handling, hi.serving, hi.free⟩
  | call pid t g m _ _ hm =>
    have hserver : m.server = s.mail.server := (Mailbox.notify_move hm).server
    refine ⟨?_, ?_, ?_⟩ <;> dsimp only <;> rw [hserver]
    · exact hi.handling
    · exact hi.serving
    · exact hi.free
  | mail b m hm hn he hstay hclear =>
    have hkeep : ∀ k t, s.mail.server = .handling k t → m.server = .handling k t := by
      intro k t hpc
      rcases mail_cases hm hn he with hb | ⟨heq, -⟩ | heq
      · simp [Mailbox.serverStep, hpc] at hb
      · rw [hpc] at heq
        cases heq
      · exact heq.trans hpc
    refine ⟨fun k t hk => hi.handling k t (hstay k t hk), fun k r hr => ?_, fun hfree => ?_⟩
    · obtain ⟨t, hpc⟩ := hi.serving k r hr
      exact ⟨t, hkeep k t hpc⟩
    · rcases hi.free fun k t hpc => hfree k t (hkeep k t hpc) with hloop | ⟨hsys, hpc⟩ | ⟨hsys, hpc⟩
      · exact .inl hloop
      · by_cases hstill : m.server = .clear
        · exact .inr (.inl ⟨hsys, hstill⟩)
        · exact absurd hsys (hclear hpc hstill)
      · rcases mail_cases hm hn he with hb | ⟨heq, -⟩ | heq
        · simp [Mailbox.serverStep, hpc] at hb
        · rw [hpc] at heq
          cases heq
        · exact .inr (.inr ⟨hsys, heq.trans hpc⟩)
  | enter m k t r sys hpc hm hk ho hsys =>
    obtain ⟨-, hentry⟩ := recv_of_step hsys
    refine ⟨fun k' t' hk' => ?_, fun k' r' hr => ?_, fun hfree => absurd hk (hfree k t)⟩
    · cases hk.symm.trans hk'
      exact ⟨by rw [hentry]; exact entry_busy r, r, rfl⟩
    · cases hr
      exact ⟨t, hk⟩
  | unopened m m' k t e hpc hm hk ho hm' =>
    have hexit : m'.server = .exited := by
      rcases (handlerEnds_server hm').2 with ⟨-, ok, hok⟩ | ⟨hexit, -⟩
      · cases hok
      · exact hexit
    have hloop : s.sys.server = .loop := by
      rcases hi.free fun k' t' hk' => (by cases hpc.symm.trans hk') with hloop | ⟨-, hk'⟩ | ⟨-, hk'⟩
      · exact hloop
      · cases hpc.symm.trans hk'
      · cases hpc.symm.trans hk'
    refine ⟨fun k' t' hk' => (by cases hexit.symm.trans hk'), fun k' r' hr => ?_, fun _ => .inl hloop⟩
    obtain ⟨t', ht'⟩ := hi.serving k' r' hr
    cases hpc.symm.trans ht'
  | handle k r sys hserving hclear hreply hsys hexit =>
    obtain ⟨t, ht⟩ := hi.serving k r hserving
    have hbusy : busy sys.server = true := by
      rcases serverStep_busy (serverStep_of_step hsys) (hi.handling k t ht).1 with ⟨ret, hr, -⟩ | hb | ⟨e, he⟩
      · exact absurd hr (hreply ret)
      · exact hb
      · exact absurd he (hexit e)
    exact ⟨fun k' t' hk' => ⟨hbusy, (hi.handling k' t' hk').2⟩, hi.serving, fun hfree => absurd ht (hfree k t)⟩
  | threw k r sys e m hserving hsys he hm =>
    have hexit : m.server = .exited := by
      rcases (handlerEnds_server hm).2 with ⟨-, ok, hok⟩ | ⟨hexit, -⟩
      · cases hok
      · exact hexit
    exact ⟨fun k' t' hk' => (by cases hexit.symm.trans hk'), fun _ _ hr => (by cases hr),
      fun _ => .inr (.inr ⟨⟨e, he⟩, hexit⟩)⟩
  | returned k r ret sys m hserving hpc hsys hm =>
    have hclear : m.server = .clear := by
      rcases (handlerEnds_server hm).2 with ⟨hclear, -⟩ | ⟨-, hok⟩
      · exact hclear
      · cases hok
    refine ⟨fun k' t' hk' => (by cases hclear.symm.trans hk'), fun _ _ hr => (by cases hr), fun _ => .inr (.inl ⟨?_, hclear⟩)⟩
    have hs := serverStep_of_step hsys
    simp only [serverStep, hpc, Option.some.injEq] at hs
    exact hs ▸ rfl
  | finish m sys hpc hm hclear hsys =>
    rw [serverStep_clear hpc hm]
    have hloop : sys.server = .loop := by
      have hs := serverStep_of_step hsys
      simp only [serverStep, hclear, Option.some.injEq] at hs
      exact hs ▸ rfl
    refine ⟨fun k' t' hk' => (by cases hk'), fun k' r' hr => ?_, fun _ => .inl hloop⟩
    obtain ⟨t', ht'⟩ := hi.serving k' r' hr
    cases hpc.symm.trans ht'
  | other b sys hsys hb hr =>
    have hsame : sys.server = s.sys.server := server_of_other hsys hb hr
    refine ⟨fun k t hk => ?_, hi.serving, fun hfree => ?_⟩ <;> dsimp only <;> rw [hsame]
    · exact hi.handling k t hk
    · exact hi.free hfree

theorem coupled_init (k₀ : κ) : Coupled (init k₀) := ⟨fun _ _ hk => (nomatch hk), fun _ _ hr => (nomatch hr), fun _ => .inl rfl⟩

/-! ## Whose segment the message names -/

/-- The payload of a message is its own client. -/
def Addressed (m : Mailbox.State) : Prop :=
  ∀ msg pid, m.msg = some msg → msg.payload = some pid → (m.client pid).hasMsg = true

theorem addressed_step {m m' : Mailbox.State} {a : Mailbox.Act} (hi : Addressed m) (hs : Mailbox.step m a = some m') :
    Addressed m' := by
  rcases Mailbox.step_by hs with ⟨i, -, hm⟩ | ⟨-, hm⟩
  · have hkeep : ∀ {p p' : Mailbox.ClientPc}, m.client i = p → m'.client = Function.update m.client i p' →
        (p.hasMsg = true → p'.hasMsg = true) → ∀ j, (m.client j).hasMsg = true → (m'.client j).hasMsg = true :=
      fun hpc hcl hp => Mailbox.client_all (R := fun p p' => p.hasMsg = true → p'.hasMsg = true) hpc hcl hp fun _ => id
    cases hm with
    | refused t => exact hi
    | construct c hpc hmsg =>
      intro msg pid he hp
      cases he
      cases hp
    | type c old hpc hmsg =>
      intro msg pid he hp
      cases he
      exact hkeep hpc rfl (fun _ => rfl) pid (hi old pid hmsg hp)
    | payload c old hpc hmsg =>
      intro msg pid he hp
      cases he
      cases hp
      simp [Mailbox.State.goto]
    | destroy c ret hpc =>
      intro msg pid he
      cases he
    | enter t hpc | lock c hpc | exists_ c old hpc | lockCond c hpc | submit c hpc | wait c r hpc | leave c r hpc
    | wake c r timeout hpc | retry c r hpc | woken c r hpc | read c r old hpc | giveUp c r old hpc
    | unlockCond c ret hpc | unlock c ret hpc =>
      exact fun msg pid he hp => hkeep hpc rfl (by simp) pid (hi msg pid he hp)
  · cases hm with
    | stopServer old hpc hmsg | returns k t old ok hpc hmsg =>
      intro msg pid he hp
      cases he
      exact hi old pid hmsg hp
    | stop | exit | lock | flagged | wait | wake | relock | missing | take | handle | skip | throws | clear => exact hi

/-- A client is in the call it was in, unless it has just made one. -/
theorem call_of_step {m m' : Mailbox.State} {a : Mailbox.Act} (hs : Mailbox.step m a = some m')
    (hn : ∀ i t, a ≠ .notify i t) {j : Nat} {c : Mailbox.Call} (hc : (m'.client j).call = some c) :
    (m.client j).call = some c := by
  rcases Mailbox.step_by hs with ⟨i, ha, hm⟩ | ⟨-, hm⟩
  · by_cases hj : j = i
    · subst hj
      have hbusy : m.client j ≠ .idle := by
        intro hpc
        cases a with
        | notify i t => exact hn i t rfl
        | client i =>
          cases ha
          simp [Mailbox.step, Mailbox.clientStep, hpc] at hs
        | wakeClient i timeout =>
          cases ha
          simp [Mailbox.step, Mailbox.wakeClient, hpc] at hs
        | server | wakeServer | handlerEnds e | stop => cases ha
      obtain ⟨d, hd⟩ := Mailbox.call_of_ne_idle hbusy
      rcases hm.returns hd with h | h
      · rw [hd, ← h, hc]
      · rw [h.1] at hc
        cases hc
    · rwa [hm.other hj] at hc
  · rwa [hm.client] at hc

/-- What the mailbox logs about handlers it logs when one is called or ends. -/
theorem log_of_step {m m' : Mailbox.State} {a : Mailbox.Act} (hs : Mailbox.step m a = some m')
    (he : ∀ e, a ≠ .handlerEnds e) (hstay : ∀ k t, m'.server = .handling k t → m.server = .handling k t) {k : Nat} :
    (∀ t, .handler k t ∈ m'.log → .handler k t ∈ m.log) ∧ ∀ ok, .handled k ok ∈ m'.log → .handled k ok ∈ m.log := by
  rcases Mailbox.step_by hs with ⟨i, -, hm⟩ | ⟨ha, hm⟩
  · cases hm <;> simp [Mailbox.State.goto]
  · cases hm with
    | handle msg t hpc =>
      rw [hstay _ t rfl] at hpc
      cases hpc
    | returns j t msg ok hpc =>
      exfalso
      cases a with
      | server => simp [Mailbox.step, Mailbox.serverStep, hpc] at hs
      | wakeServer => simp [Mailbox.step, Mailbox.wakeServer, hpc] at hs
      | handlerEnds e => exact he e rfl
      | stop =>
        simp only [Mailbox.step, Option.some.injEq] at hs
        have hlog := congrArg Mailbox.State.log hs
        simp at hlog
      | notify i t | client i | wakeClient i timeout => cases ha
    | stopServer => simp
    | stop | exit | lock | flagged | wait | wake | relock | missing | take | skip | throws | clear => simp

/-! ## What is asked is what is done -/

/-- `asked` is what the segments say while the calls go on, and what the
handlers work on. -/
structure Asked (s : State κ) : Prop where
  seg : ∀ i c, (s.mail.client i).call = some c → ∃ g, s.seg i = some g ∧ s.asked c.id = g.readRequest c.type
  ready : ∀ i c, (s.mail.client i).call = some c → c.type.hasHandler = true → (s.asked c.id).isSome = true
  serving : ∀ k r, s.serving = some (k, r) → s.asked k = some r ∧ .handler k r.type ∈ s.mail.log ∧
    k ∉ s.done.map (·.1)
  done : ∀ k r ret, (k, r, ret) ∈ s.done → s.asked k = some r ∧ .handler k r.type ∈ s.mail.log
  handled : ∀ k, .handled k true ∈ s.mail.log → ∃ r, (k, r, 0) ∈ s.done
  once : (s.done.map (·.1)).Nodup

theorem type_of_readRequest {g : Segment} {t : CivMsgType} {r : Request} (hr : g.readRequest t = some r) : r.type = t := by
  cases t with
  | listVm =>
    cases hr
    rfl
  | importVm | startVm | stopVm | getVmInfo =>
    obtain ⟨_, -, rfl⟩ := Option.map_eq_some_iff.1 hr
    rfl
  | stopServer | test | respondSuccess | respondFail => cases hr

theorem runs_of_handler {log : List Mailbox.Event} {k : Nat} {t : CivMsgType} (hm : .handler k t ∈ log) :
    Mailbox.runs log k ≠ 0 := fun hz => Mailbox.not_handler_of_runs hz t hm

/-- The mailbox does not log a handler, and the rest stands still. -/
theorem Asked.keep (hi : Asked s) (hasked : s'.asked = s.asked) (hserving : s'.serving = s.serving ∨ s'.serving = none)
    (hdone : s'.done = s.done)
    (hseg : ∀ i c, (s'.mail.client i).call = some c → (s.mail.client i).call = some c ∧
      ∀ g, s.seg i = some g → ∃ g', s'.seg i = some g' ∧ g'.readRequest c.type = g.readRequest c.type)
    (hlog : ∀ k t, .handler k t ∈ s.mail.log → .handler k t ∈ s'.mail.log)
    (hhandled : ∀ k, .handled k true ∈ s'.mail.log → .handled k true ∈ s.mail.log) : Asked s' := by
  refine ⟨fun i c hc => ?_, fun i c hc => ?_, fun k r hr => ?_, fun k r ret hm => ?_, fun k hk => ?_, ?_⟩
  · obtain ⟨hc, hg⟩ := hseg i c hc
    obtain ⟨g, hs, ha⟩ := hi.seg i c hc
    obtain ⟨g', hs', hr⟩ := hg g hs
    exact ⟨g', hs', by rw [hasked, ha, hr]⟩
  · rw [hasked]
    exact hi.ready i c (hseg i c hc).1
  · have hr : s.serving = some (k, r) := by
      rcases hserving with he | he
      · rw [← he, hr]
      · rw [he] at hr
        cases hr
    obtain ⟨ha, hh, hn⟩ := hi.serving k r hr
    rw [hasked, hdone]
    exact ⟨ha, hlog k _ hh, hn⟩
  · rw [hdone] at hm
    obtain ⟨ha, hh⟩ := hi.done k r ret hm
    rw [hasked]
    exact ⟨ha, hlog k _ hh⟩
  · rw [hdone]
    exact hi.handled k (hhandled k hk)
  · rw [hdone]
    exact hi.once

theorem log_of_enter {m m' : Mailbox.State} {k : Nat} {t : CivMsgType} (hs : Mailbox.serverStep m = some m')
    (hk : m'.server = .handling k t) : m'.log = .handler k t :: m.log := by
  have hpc := found_of_handling hs hk
  cases Mailbox.serverStep_move hs with
  | stop =>
    rw [show m.server = .handling k t from hk] at hpc
    cases hpc
  | handle msg t' _ _ _ _ =>
    cases hk
    rfl
  | exit | lock | flagged | wait | wake | relock | missing | take | stopServer | skip | returns | throws | clear => cases hk

theorem thrown {m m' : Mailbox.State} (hm : Mailbox.handlerEnds m .throws = some m') :
    m'.log = m.log ∧ m'.client = m.client := by
  unfold Mailbox.handlerEnds at hm
  split at hm
  · rename_i he
    cases he
  · cases hm
    exact ⟨rfl, rfl⟩
  · cases hm

theorem storeIn_seg (s : State κ) (i : Nat) : ∀ g, s.seg i = some g → ∃ g', storeIn h s i = some g' ∧
    ∀ t, g'.readRequest t = g.readRequest t := by
  intro g hg
  unfold storeIn
  cases s.mail.msg.bind (·.payload) with
  | none => exact ⟨g, hg, fun _ => rfl⟩
  | some pid =>
    dsimp only
    by_cases hi : i = pid
    · subst hi
      exact ⟨_, by rw [Function.update_self, hg]; rfl, readRequest_storeResult h s.sys .server g⟩
    · exact ⟨g, by rw [Function.update_of_ne hi, hg], fun _ => rfl⟩

theorem lt_calls {m : Mailbox.State} (hm : Mailbox.Inv m) {k : Nat} {t : CivMsgType} (hk : .handler k t ∈ m.log) :
    k < m.calls := by
  by_contra hle
  exact runs_of_handler hk (hm.calls.unused k (Nat.not_lt.1 hle))

/-- A handler is called on the request that its own call asked for, for the
first time. -/
theorem enter_asked (hm : Mailbox.Inv s.mail) (ha : Addressed s.mail) (hi : Asked s) {m : Mailbox.State} {k : Nat}
    {t : CivMsgType} {r : Request} (hpc : s.mail.server = .found) (hs : Mailbox.serverStep s.mail = some m)
    (hk : m.server = .handling k t) (ho : openRequest s t = .ok (some r)) :
    s.asked k = some r ∧ r.type = t ∧ Mailbox.runs s.mail.log k = 0 := by
  cases Mailbox.serverStep_move hs with
  | stop =>
    rw [show s.mail.server = .handling k t from hk] at hpc
    cases hpc
  | handle msg t' _ hmsg hty hh =>
    cases hk
    obtain ⟨i, c, hc, hw, -, hid, rfl, hruns⟩ :=
      Mailbox.fresh_request hm.slot hm.history hpc hmsg hty (CivMsgType.isOperation_of_hasHandler hh)
    unfold openRequest at ho
    rw [hmsg] at ho
    cases hp : msg.payload with
    | none => simp [hp] at ho
    | some pid =>
      -- There is one client with a message, so the payload is its pid.
      obtain rfl := hm.locks.only_msg (Mailbox.ClientPc.holdsMutex_of_hasMsg hw) (ha msg pid hmsg hp)
      obtain ⟨g, hg, hasked⟩ := hi.seg pid c hc
      simp only [hp, hg, Option.bind_some, Except.ok.injEq] at ho
      exact ⟨by rw [hid, hasked, ho], type_of_readRequest ho, by rw [hid, hruns]⟩
  | returns j t' msg ok hpc' => simp [hpc] at hpc'
  | exit | lock | flagged | wait | wake | relock | missing | take | stopServer | skip | throws | clear => cases hk

theorem call_of_notify {m m' : Mailbox.State} {pid : Nat} {t : CivMsgType} (hn : Mailbox.notify m pid t = some m')
    {i : Nat} {c : Mailbox.Call} (hc : (m'.client i).call = some c) :
    i = pid ∧ c = ⟨m.calls, t⟩ ∨ (m.client i).call = some c := by
  unfold Mailbox.notify at hn
  split at hn
  · split at hn <;> cases hn
    · exact .inr hc
    · by_cases hip : i = pid
      · subst hip
        simp only [Mailbox.State.goto, Function.update_self, Mailbox.ClientPc.call, Option.some.injEq] at hc
        exact .inl ⟨rfl, hc.symm⟩
      · simp only [Mailbox.State.goto, Function.update_of_ne hip] at hc
        exact .inr hc
  · cases hn

theorem asked_call (hm : Mailbox.Inv s.mail) (hi : Asked s) {pid : Nat} {t : CivMsgType} {g : Segment}
    {m : Mailbox.State} (hg : s.seg pid = some g)
    (hready : t.hasHandler = true → (g.readRequest t).isSome = true) (hn : Mailbox.notify s.mail pid t = some m) :
    Asked { s with mail := m, asked := Function.update s.asked s.mail.calls (g.readRequest t) } := by
  have hold : ∀ {k t'}, .handler k t' ∈ s.mail.log →
      Function.update s.asked s.mail.calls (g.readRequest t) k = s.asked k := fun hk =>
    Function.update_of_ne (Nat.ne_of_lt (lt_calls hm hk)) ..
  have hlog : (∀ k t', .handler k t' ∈ s.mail.log → .handler k t' ∈ m.log) ∧
      ∀ k, .handled k true ∈ m.log → .handled k true ∈ s.mail.log := by
    unfold Mailbox.notify at hn
    split at hn
    · split at hn <;> cases hn <;> simp [Mailbox.State.goto]
    · cases hn
  have hearlier : ∀ {i c}, (s.mail.client i).call = some c →
      Function.update s.asked s.mail.calls (g.readRequest t) c.id = s.asked c.id := fun hc =>
    Function.update_of_ne (Nat.ne_of_lt (hm.calls.lt _ _ hc)) ..
  refine ⟨fun i c hc => ?_, fun i c hc hh => ?_, fun k r hr => ?_, fun k r ret hd => ?_,
    fun k hk => hi.handled k (hlog.2 k hk), hi.once⟩
  · rcases call_of_notify hn hc with ⟨rfl, rfl⟩ | hc
    · exact ⟨g, hg, Function.update_self ..⟩
    · obtain ⟨g', hg', ha⟩ := hi.seg i c hc
      exact ⟨g', hg', (hearlier hc).trans ha⟩
  · rcases call_of_notify hn hc with ⟨rfl, rfl⟩ | hc
    · have hnew : Function.update s.asked s.mail.calls (g.readRequest t) s.mail.calls = g.readRequest t :=
        Function.update_self ..
      dsimp only
      rw [hnew]
      exact hready hh
    · dsimp only
      rw [hearlier hc]
      exact hi.ready i c hc hh
  · obtain ⟨ha, hh, hnd⟩ := hi.serving k r hr
    exact ⟨(hold hh).trans ha, hlog.1 k _ hh, hnd⟩
  · obtain ⟨ha, hh⟩ := hi.done k r ret hd
    exact ⟨(hold hh).trans ha, hlog.1 k _ hh⟩

theorem asked_step {a : Act κ} (hm : Mailbox.Inv s.mail) (ha : Addressed s.mail) (hc : Coupled s) (hi : Asked s)
    (hs : step h s a = some s') : Asked s' := by
  have hstay : ∀ i c, (s.mail.client i).call = some c → ∀ g, s.seg i = some g →
      ∃ g', s.seg i = some g' ∧ g'.readRequest c.type = g.readRequest c.type := fun i c _ g hg => ⟨g, hg, rfl⟩
  have hstore : ∀ i (c : Mailbox.Call) g, s.seg i = some g →
      ∃ g', storeIn h s i = some g' ∧ g'.readRequest c.type = g.readRequest c.type := by
    intro i c g hg
    obtain ⟨g', hg', hr⟩ := storeIn_seg (h := h) s i g hg
    exact ⟨g', hg', hr c.type⟩
  cases step_move hs with
  | segment pid g hidle =>
    refine hi.keep rfl (.inl rfl) rfl (fun i c hcall => ⟨hcall, fun g' hg' => ⟨g', ?_, rfl⟩⟩) (fun _ _ => id) fun _ => id
    have hne : i ≠ pid := by
      rintro rfl
      rw [hidle] at hcall
      cases hcall
    rw [← hg']
    exact Function.update_of_ne hne ..
  | call pid t g m hg hready hn => exact asked_call hm hi hg hready hn
  | mail b m hmail hn he hto hclear =>
    exact hi.keep rfl (.inl rfl) rfl (fun i c hcall => ⟨call_of_step hmail hn hcall, hstay i c (call_of_step hmail hn hcall)⟩)
      (fun k t hk => (Mailbox.step_log hmail).subset hk) fun k => (log_of_step hmail he hto).2 true
  | enter m k t r sys hpc hmail hk ho hsys =>
    obtain ⟨hasked, hty, hruns⟩ := enter_asked hm ha hi hpc hmail hk ho
    have hclient : m.client = s.mail.client := (Mailbox.serverStep_move hmail).client
    have hlog : m.log = .handler k t :: s.mail.log := log_of_enter hmail hk
    refine ⟨fun i c hcall => hi.seg i c (hclient ▸ hcall), fun i c hcall => hi.ready i c (hclient ▸ hcall),
      fun k' r' hr => ?_, fun k' r' ret hd => ?_, fun k' hk' => ?_,
      hi.once⟩
    · cases hr
      refine ⟨hasked, ?_, fun hmem => ?_⟩
      · rw [hlog, hty]
        exact List.mem_cons_self
      · obtain ⟨⟨k', r', ret⟩, hd, rfl⟩ := List.mem_map.1 hmem
        exact runs_of_handler (hi.done k' r' ret hd).2 hruns
    · obtain ⟨ha', hh⟩ := hi.done k' r' ret hd
      exact ⟨ha', by rw [hlog]; exact List.mem_cons_of_mem _ hh⟩
    · rw [hlog] at hk'
      exact hi.handled k' (by simpa using hk')
  | unopened m m' k t e hpc hmail hk ho hm' =>
    obtain ⟨hlog', hclient'⟩ := thrown hm'
    have hclient : m.client = s.mail.client := (Mailbox.serverStep_move hmail).client
    have hlog : m.log = .handler k t :: s.mail.log := log_of_enter hmail hk
    refine hi.keep rfl (.inl rfl) rfl (fun i c hcall => ?_) (fun j t' hj => ?_) fun j hj => ?_
    · rw [hclient', hclient] at hcall
      exact ⟨hcall, hstay i c hcall⟩
    · rw [hlog', hlog]
      exact List.mem_cons_of_mem _ hj
    · rw [hlog', hlog] at hj
      simpa using hj
  | handle k r sys hserving hclear hreply hsys hexit =>
    exact hi.keep rfl (.inl rfl) rfl (fun i c hcall => ⟨hcall, hstore i c⟩) (fun _ _ => id) fun _ => id
  | threw k r sys e m hserving hsys he hm' =>
    obtain ⟨hlog, hclient⟩ := thrown hm'
    refine hi.keep rfl (.inr rfl) rfl (fun i c hcall => ?_) (fun j t' hj => ?_) fun j hj => ?_
    · rw [hclient] at hcall
      exact ⟨hcall, hstore i c⟩
    · rw [hlog]
      exact hj
    · rwa [hlog] at hj
  | returned k r ret sys m hserving hpc hsys hm' =>
    obtain ⟨t, ht⟩ := hc.serving k r hserving
    obtain ⟨hasked, hh, hnd⟩ := hi.serving k r hserving
    simp only [Mailbox.handlerEnds, ht] at hm'
    obtain ⟨msg, -, rfl⟩ := Option.map_eq_some_iff.1 hm'
    refine ⟨hi.seg, hi.ready, fun _ _ hr => (by cases hr), fun k' r' ret' hd => ?_, fun k' hk' => ?_, ?_⟩
    · rcases List.mem_append.1 hd with hd | hd
      · obtain ⟨ha', hh'⟩ := hi.done k' r' ret' hd
        exact ⟨ha', List.mem_cons_of_mem _ hh'⟩
      · cases List.mem_singleton.1 hd
        exact ⟨hasked, List.mem_cons_of_mem _ hh⟩
    · rcases List.mem_cons.1 hk' with he | hk'
      · simp only [Mailbox.Event.handled.injEq, Eq.comm (a := true), decide_eq_true_eq] at he
        obtain ⟨rfl, rfl⟩ := he
        exact ⟨r, List.mem_append_right _ (List.mem_singleton_self _)⟩
      · obtain ⟨r', hd⟩ := hi.handled k' hk'
        exact ⟨r', List.mem_append_left _ hd⟩
    · simp only [List.map_append, List.map_cons, List.map_nil]
      refine List.nodup_append.2 ⟨hi.once, List.nodup_singleton _, ?_⟩
      rintro j hj j' hj' rfl
      exact hnd (List.mem_singleton.1 hj' ▸ hj)
  | finish m sys hpc hmail hclear hsys =>
    rw [serverStep_clear hpc hmail]
    exact hi.keep rfl (.inl rfl) rfl (fun i c hcall => ⟨hcall, hstay i c hcall⟩) (fun _ _ => id) fun _ => id
  | other b sys hsys hb hr =>
    exact hi.keep rfl (.inl rfl) rfl (fun i c hcall => ⟨hcall, hstay i c hcall⟩) (fun _ _ => id) fun _ => id

theorem asked_init (k₀ : κ) : Asked (init k₀) where
  seg _ _ hc := nomatch hc
  ready _ _ hc := nomatch hc
  serving _ _ hr := nomatch hr
  done _ _ _ hd := nomatch hd
  handled _ hk := nomatch hk
  once := List.nodup_nil

/-! ## The whole system -/

structure Whole (s : State κ) : Prop where
  mail : Mailbox.Inv s.mail
  addressed : Addressed s.mail
  coupled : Coupled s
  asked : Asked s

theorem reachable_whole (hr : Reachable (step h) (init k₀) s) : Whole s := by
  refine hr.keeps (I := Whole) (fun s a s' hi hs => ?_)
    ⟨Mailbox.inv_init, fun _ _ hm => (nomatch hm), coupled_init k₀, asked_init k₀⟩
  exact ⟨(simulates_mail h).keeps (fun _ _ _ => Mailbox.inv_step) hi.mail hs,
    (simulates_mail h).keeps (fun _ _ _ => addressed_step) hi.addressed hs, coupled_step hi.coupled hs,
    asked_step hi.mail hi.addressed hi.coupled hi.asked hs⟩

/-- `a` is the one VM that can be started. -/
def oneVmHost : Host Unit :=
  stillHost [("/a.ini", "[global]\nname=a\n[firmware]\ntype=unified\n")] []

/-- Process `pid` calls `Notify`, and the server finds its message. -/
def asks (pid : Nat) (t : CivMsgType) : List (Act Unit) :=
  .mail (.notify pid t) :: List.replicate 7 (.mail (.client pid)) ++ List.replicate 3 (.mail .server)

/-- The handler has returned, and `Notify` is about to return as well. -/
def hears (pid : Nat) : List (Act Unit) :=
  [.mail .server, .mail (.wakeClient pid false)] ++ List.replicate 4 (.mail (.client pid))

/-- Process 5 has `a` started, and process 7 asks for the list of VMs. -/
def listAsked : List (Act Unit) :=
  [.construct 5, .prepare 5 (.start "/a.ini" [] 2)] ++ asks 5 .startVm ++ .mail .server ::
    List.replicate 32 (.sys .server) ++ [.sys (.thread 0), .sys (.attach 0 0)] ++ List.replicate 4 (.sys (.thread 0)) ++
    List.replicate 3 (.sys .server) ++ hears 5 ++ [.mail (.client 5), .construct 7] ++ asks 7 .listVm

/-- The list is made, and process 7 is about to return from `Notify`. -/
def listMade : List (Act Unit) :=
  listAsked ++ .mail .server :: List.replicate 6 (.sys .server) ++ hears 7

/-- Putting the parts together adds nothing to what each can do: in every run
of the whole, the mailbox and the server each go through a run of their own,
and the server is in a handler exactly while the mailbox says so. -/
theorem manager_refines (hr : Reachable (step h) (init k₀) s) :
    Reachable Mailbox.step Mailbox.init s.mail ∧ Reachable (VmManager.step h) (Sys.init k₀) s.sys ∧
      (busy s.sys.server = true ↔ ∃ k t, s.mail.server = .handling k t) := by
  have hc := (reachable_whole hr).coupled
  refine ⟨reachable_mail hr, reachable_sys hr, fun hb => ?_, fun ⟨k, t, hpc⟩ => (hc.handling k t hpc).1⟩
  by_contra hk
  rcases hc.free fun k t hpc => hk ⟨k, t, hpc⟩ with hpc | ⟨hpc, -⟩ | ⟨⟨e, hpc⟩, -⟩ <;> rw [hpc] at hb <;> cases hb

theorem manager_refines_list : ∃ s, run (step oneVmHost) (init ()) (listAsked ++ [.mail .server]) = some s ∧
    Reachable Mailbox.step Mailbox.init s.mail ∧ Reachable (VmManager.step oneVmHost) (Sys.init ()) s.sys ∧
      ∃ k t, s.mail.server = .handling k t := by
  have hbusy : (run (step oneVmHost) (init ()) (listAsked ++ [.mail .server])).map (fun s => busy s.sys.server) =
      some true := by decide +kernel
  obtain ⟨s, hs, hbusy⟩ := Option.map_eq_some_iff.1 hbusy
  obtain ⟨hmail, hsys, hiff⟩ := manager_refines ⟨_, hs⟩
  exact ⟨s, hs, hmail, hsys, hiff.1 hbusy⟩

/-- A handler that is about to run finds, in the segment of the client that
made the call, the request that the client has asked for. Opening the segment
fails on a message that is not fully written and on no other. -/
theorem opens_own_segment (hr : Reachable (step h) (init k₀) s) {msg : Mailbox.CivMsg} {t : CivMsgType}
    (hpc : s.mail.server = .found) (hmsg : s.mail.msg = some msg) (hty : msg.type = some t) (ht : t.hasHandler = true) :
    (openRequest s t = .error .notFound ∧ msg.payload = none) ∨
      ∃ r, openRequest s t = .ok (some r) ∧ s.asked msg.call = some r ∧ r.type = t := by
  have hw := reachable_whole hr
  obtain ⟨i, c, hc, hhas, -, hid, rfl, -⟩ :=
    Mailbox.fresh_request hw.mail.slot hw.mail.history hpc hmsg hty (CivMsgType.isOperation_of_hasHandler ht)
  cases hp : msg.payload with
  | none => exact .inl ⟨by simp [openRequest, hmsg, hp], rfl⟩
  | some pid =>
    obtain rfl := hw.mail.locks.only_msg (Mailbox.ClientPc.holdsMutex_of_hasMsg hhas) (hw.addressed msg pid hmsg hp)
    obtain ⟨g, hg, hasked⟩ := hw.asked.seg pid c hc
    obtain ⟨r, hr⟩ := Option.isSome_iff_exists.1 (hw.asked.ready pid c hc ht)
    have hread : g.readRequest c.type = some r := hasked.symm.trans hr
    exact .inr ⟨r, by simp [openRequest, hmsg, hp, hg, hread], by rw [hid, hr], type_of_readRequest hread⟩

theorem opens_own_segment_list : ∃ s, run (step oneVmHost) (init ()) listAsked = some s ∧
    ∃ r, openRequest s .listVm = .ok (some r) ∧ s.asked 1 = some r ∧ r.type = .listVm := by
  have hpc : (run (step oneVmHost) (init ()) listAsked).map (fun s => (s.mail.server, s.mail.msg)) =
      some (.found, some ⟨1, some .listVm, some 7⟩) := by decide +kernel
  obtain ⟨s, hs, hpc⟩ := Option.map_eq_some_iff.1 hpc
  obtain ⟨hpc, hmsg⟩ := Prod.mk.inj hpc
  exact ⟨s, hs, (opens_own_segment ⟨_, hs⟩ hpc hmsg rfl rfl).resolve_left fun he => nomatch he.2⟩

/-- What a client is told succeeded has been done: when `Notify` returns true
for a request that has a handler, that handler has run exactly once for this
call, on exactly the request that the client's segment held when it made the
call, and has returned 0. -/
theorem success_is_served (hr : Reachable (step h) (init k₀) s) {k : Nat} {t : CivMsgType}
    (hret : .ret k t true ∈ s.mail.log) (ht : t.hasHandler = true) :
    ∃ r, r.type = t ∧ s.asked k = some r ∧ (k, r, 0) ∈ s.done ∧ (s.done.map (·.1)).count k = 1 := by
  have hw := reachable_whole hr
  rcases hw.mail.history.served k t hret (CivMsgType.isOperation_of_hasHandler ht) with ⟨-, hk⟩ | ⟨hstop, -⟩
  · obtain ⟨r, hd⟩ := hw.asked.handled k hk
    obtain ⟨hasked, hh⟩ := hw.asked.done k r 0 hd
    refine ⟨r, hw.mail.history.ret k t r.type true hret hh, hasked, hd, ?_⟩
    exact List.count_eq_one_of_mem hw.asked.once (List.mem_map.2 ⟨_, hd, rfl⟩)
  · rw [show t = .stopServer from hstop] at ht
    cases ht

theorem success_is_served_list : ∃ s, run (step oneVmHost) (init ()) (listMade ++ [.mail (.client 7)]) = some s ∧
    ∃ r, r.type = .listVm ∧ s.asked 1 = some r ∧ (1, r, 0) ∈ s.done ∧ (s.done.map (·.1)).count 1 = 1 := by
  have hlog : (run (step oneVmHost) (init ()) (listMade ++ [.mail (.client 7)])).map (fun s => s.mail.log.head?) =
      some (some (.ret 1 .listVm true)) := by decide +kernel
  obtain ⟨s, hs, hlog⟩ := Option.map_eq_some_iff.1 hlog
  exact ⟨s, hs, success_is_served ⟨_, hs⟩ (List.mem_of_mem_head? hlog) rfl⟩

end VmManager.Manager
