import VmManager.ListTheorems
import VmManager.ManagerTheorems
/-!
# What a client gets back

The answer of a handler is not in the message: it lies in the client's own
segment, which the server writes while the client sleeps. So the client reads
what the handler of its own request has left there, and all of it, as long as
no one else gets at the segment in between.
-/
open Runs

namespace VmManager.Manager

variable {κ : Type} {h : Host κ} {k₀ : κ} {s s' : State κ}

/-! ## The message stays as it is -/

/-- Whoever the payload names has written it. -/
def Sent (m : Mailbox.State) : Prop :=
  ∀ msg pid, m.msg = some msg → msg.payload = some pid → (m.client pid).written = true

theorem Sent.owner {m : Mailbox.State} (hm : Mailbox.Inv m) (hi : Sent m) {i : Nat} {msg : Mailbox.CivMsg} {pid : Nat}
    (hmsg : m.msg = some msg) (hp : msg.payload = some pid) (hw : (m.client i).holdsMutex = true) : pid = i :=
  hm.locks.only_msg hw (Mailbox.ClientPc.hasMsg_of_written (hi msg pid hmsg hp))

theorem sent_step {m m' : Mailbox.State} {a : Mailbox.Act} (hm : Mailbox.Inv m) (hi : Sent m)
    (hs : Mailbox.step m a = some m') : Sent m' := by
  rcases Mailbox.step_by hs with ⟨i, -, hmove⟩ | ⟨-, hmove⟩
  · have hkeep : ∀ {p p' : Mailbox.ClientPc}, m.client i = p → m'.client = Function.update m.client i p' →
        (p.written = true → p'.written = true) → ∀ j, (m.client j).written = true → (m'.client j).written = true :=
      fun hpc hcl hp => Mailbox.client_all (R := fun p p' => p.written = true → p'.written = true) hpc hcl hp fun _ => id
    cases hmove with
    | refused t => exact hi
    | construct c hpc hmsg =>
      intro msg pid he hp
      cases he
      cases hp
    | type c old hpc hmsg =>
      intro msg pid he hp
      cases he
      -- Nobody has written a payload while its owner is at the type.
      obtain rfl := hi.owner hm hmsg hp (i := i) (by rw [hpc]; rfl)
      have hw := hi old pid hmsg hp
      rw [hpc] at hw
      cases hw
    | payload c old hpc hmsg =>
      intro msg pid he hp
      cases he
      cases hp
      simp [Mailbox.State.goto]
    | destroy c ret hpc =>
      intro msg pid he
      cases he
    | enter t hpc | lock c hpc | exists_ c old hpc | lockCond c hpc | submit c hpc | wait c r hpc | leave c r hpc
    | wake c r timeout hpc | retry c r hpc | woken c r hpc | read c r old hpc | giveUp c r old hpc
    | unlockCond c ret hpc | unlock c ret hpc =>
      exact fun msg pid he hp => hkeep hpc rfl (by simp) pid (hi msg pid he hp)
  · cases hmove with
    | stopServer old hpc hmsg | returns k t old ok hpc hmsg =>
      intro msg pid he hp
      cases he
      exact hi old pid hmsg hp
    | stop | exit | lock | flagged | wait | wake | relock | missing | take | handle | skip | throws | clear => exact hi

/-- A client that has written its message cannot go on while the server is in a
handler, and nobody else can get at the slot. -/
theorem client_waits {m m' : Mailbox.State} {i pid : Nat} {msg : Mailbox.CivMsg} {c : Mailbox.Call}
    (hm : Mailbox.Inv m) (hi : Sent m) (hserver : m.server.holdsCond = true) (hmsg : m.msg = some msg)
    (hp : msg.payload = some pid) (hc : (m.client pid).call = some c) (h : Mailbox.ClientMove m i m') :
    m'.msg = some msg ∧ (m'.client pid).call = some c := by
  have hw := hi msg pid hmsg hp
  have hout : ∀ j, (m.client j).holdsCond = false := fun j =>
    Bool.eq_false_iff.2 fun hj => by rw [hm.locks.server_out hj] at hserver; cases hserver
  have hnot : ∀ {p}, m.client i = p → p.holdsMutex = true → p.written = false → False := by
    intro p hpc hmutex hwritten
    obtain rfl := hi.owner hm hmsg hp (i := i) (by rw [hpc, hmutex])
    rw [hpc, hwritten] at hw
    cases hw
  have hcond : ∀ {p}, m.client i = p → p.holdsCond = true → False := by
    intro p hpc hholds
    have hfree := hout i
    rw [hpc, hholds] at hfree
    cases hfree
  have hcall : ∀ {p p'}, m.client i = p → m'.client = Function.update m.client i p' →
      (p.call = some c → p'.call = some c) → (m'.client pid).call = some c := fun hpc hcl hpp =>
    Mailbox.client_all (R := fun p p' => p.call = some c → p'.call = some c) hpc hcl hpp (fun _ => id) pid hc
  cases h with
  | refused t hpc => exact ⟨hmsg, hc⟩
  | enter t hpc => exact ⟨hmsg, hcall hpc rfl nofun⟩
  | lock d hpc hfree =>
    have hheld := (hm.locks.mutex pid).1 (Mailbox.ClientPc.holdsMutex_of_hasMsg (Mailbox.ClientPc.hasMsg_of_written hw))
    rw [hfree] at hheld
    cases hheld
  | construct d hpc | exists_ d old hpc | type d old hpc | payload d old hpc | unlock d ret hpc =>
    exact (hnot hpc rfl rfl).elim
  | lockCond d hpc hfree | retry d r hpc hfree | woken d r hpc hfree =>
    have hheld : m.mutexCond = some .server := (hm.locks.cond .server).1 hserver
    rw [hfree] at hheld
    cases hheld
  | wake d r timeout hpc => exact ⟨hmsg, hcall hpc rfl id⟩
  | submit d hpc | wait d r hpc | leave d r hpc | read d r old hpc | giveUp d r old hpc | destroy d ret hpc
  | unlockCond d ret hpc => exact (hcond hpc rfl).elim

/-! ## The run of a handler -/

/-- One run of the server, from where request `r` arrived with a segment that
says so, has led to this state of the server and of the segment. The other
threads took part in it; no other request did. -/
def Handles (h : Host κ) (k₀ : κ) (r : Request) (p : Sys κ × Segment) : Prop :=
  ∃ s₀ g₀ acts, Reachable (VmManager.step h) (Sys.init k₀) s₀ ∧ s₀.server = r.entry ∧ g₀.readRequest r.type = some r ∧
    (∀ a ∈ acts, a.isRecv = false) ∧ run (withHistory (VmManager.step h) (storeResult h)) (s₀, g₀) acts = some p

theorem Handles.next {r : Request} {s s' : Sys κ} {g : Segment} {a : VmManager.Act κ} (hi : Handles h k₀ r (s, g))
    (ha : a.isRecv = false) (hs : VmManager.step h s a = some s') : Handles h k₀ r (s', storeResult h s a g) := by
  obtain ⟨s₀, g₀, acts, hr, hpc, hg, hno, hrun⟩ := hi
  refine ⟨s₀, g₀, acts ++ [a], hr, hpc, hg, fun b hb => ?_, run_append.2 ⟨_, hrun, run_one (withHistory_eq.2 ⟨hs, rfl⟩)⟩⟩
  rcases List.mem_append.1 hb with hb | hb
  · exact hno b hb
  · exact List.mem_singleton.1 hb ▸ ha

/-- The segments are as the handlers have left them, for as long as the calls go
on that they were called for. -/
structure Delivered (h : Host κ) (k₀ : κ) (s : State κ) : Prop where
  serving : ∀ k r, s.serving = some (k, r) → ∃ msg pid c g, s.mail.msg = some msg ∧ msg.payload = some pid ∧
    (s.mail.client pid).call = some c ∧ c.id = k ∧ s.seg pid = some g ∧ Handles h k₀ r (s.sys, g)
  done : ∀ k r ret, (k, r, ret) ∈ s.done → ∀ i c, (s.mail.client i).call = some c → c.id = k →
    ∃ g sys, s.seg i = some g ∧ Handles h k₀ r (sys, g) ∧ sys.server = .reply ret

theorem storeIn_eq {msg : Mailbox.CivMsg} {pid : Nat} (hmsg : s.mail.msg = some msg) (hp : msg.payload = some pid) :
    storeIn h s = Function.update s.seg pid ((s.seg pid).map (storeResult h s.sys .server)) := by
  simp [storeIn, hmsg, hp]

/-- The segments of the calls whose handlers have returned are not touched by
the handler that runs. -/
theorem stored_aside (hw : Whole s) (hi : Delivered h k₀ s) {k : Nat} {r : Request} (hserving : s.serving = some (k, r)) :
    ∀ k' r' ret, (k', r', ret) ∈ s.done → ∀ i c, (s.mail.client i).call = some c → c.id = k' →
      ∃ g sys, storeIn h s i = some g ∧ Handles h k₀ r' (sys, g) ∧ sys.server = .reply ret := by
  intro k' r' ret hd i c hc hid
  obtain ⟨msg, pid, c', g', hmsg, hp, hc', hid', -, -⟩ := hi.serving k r hserving
  have hne : i ≠ pid := by
    rintro rfl
    cases hc.symm.trans hc'
    exact (hw.asked.serving k r hserving).2.2 (List.mem_map.2 ⟨_, hd, hid.symm.trans hid'⟩)
  rw [storeIn_eq hmsg hp, Function.update_of_ne hne]
  exact hi.done k' r' ret hd i c hc hid

theorem mail_waits {m : Mailbox.State} {a : Mailbox.Act} {k : Nat} {t : CivMsgType} {msg : Mailbox.CivMsg} {pid : Nat}
    {c : Mailbox.Call} (hm : Mailbox.Inv s.mail) (hsent : Sent s.mail) (hs : Mailbox.step s.mail a = some m)
    (he : ∀ e, a ≠ .handlerEnds e) (hpc : s.mail.server = .handling k t) (hmsg : s.mail.msg = some msg)
    (hp : msg.payload = some pid) (hc : (s.mail.client pid).call = some c) :
    m.msg = some msg ∧ (m.client pid).call = some c := by
  rcases Mailbox.step_by hs with ⟨i, -, hmove⟩ | ⟨ha, -⟩
  · exact client_waits hm hsent (by rw [hpc]; rfl) hmsg hp hc hmove
  · cases a with
    | notify i t | client i | wakeClient i timeout => cases ha
    | server => simp [Mailbox.step, Mailbox.serverStep, hpc] at hs
    | wakeServer => simp [Mailbox.step, Mailbox.wakeServer, hpc] at hs
    | handlerEnds e => exact absurd rfl (he e)
    | stop =>
      cases hs
      exact ⟨hmsg, hc⟩

/-- When a handler is called, the message names the client that made the call. -/
theorem enter_delivered (hw : Whole s) (hr : Reachable (step h) (init k₀) s) {m : Mailbox.State} {k : Nat}
    {t : CivMsgType} {r : Request} {sys : Sys κ} (hs : Mailbox.serverStep s.mail = some m)
    (hk : m.server = .handling k t) (ho : openRequest s t = .ok (some r))
    (hsys : VmManager.step h s.sys (.recv r) = some sys) : ∃ msg pid c g, m.msg = some msg ∧ msg.payload = some pid ∧
      (m.client pid).call = some c ∧ c.id = k ∧ s.seg pid = some g ∧ Handles h k₀ r (sys, g) := by
  have hpc := found_of_handling hs hk
  cases Mailbox.serverStep_move hs with
  | stop =>
    rw [show s.mail.server = .handling k t from hk] at hpc
    cases hpc
  | handle msg t' _ hmsg hty hh =>
    cases hk
    obtain ⟨i, c, hc, hhas, hid⟩ := hw.mail.slot.owner hmsg
    unfold openRequest at ho
    rw [hmsg] at ho
    cases hp : msg.payload with
    | none => simp [hp] at ho
    | some pid =>
      obtain rfl := hw.mail.locks.only_msg (Mailbox.ClientPc.holdsMutex_of_hasMsg hhas) (hw.addressed msg pid hmsg hp)
      cases hg : s.seg pid with
      | none => simp [hp, hg] at ho
      | some g =>
        simp only [hp, hg, Option.bind_some, Except.ok.injEq] at ho
        have hty' := type_of_readRequest ho
        have hreach : Reachable (VmManager.step h) (Sys.init k₀) sys := (reachable_sys hr).trans ⟨_, run_one hsys⟩
        refine ⟨msg, pid, c, g, hmsg, hp, hc, hid.symm, hg, sys, g, [], hreach, (recv_of_step hsys).2, ?_, nofun, rfl⟩
        rw [hty', ho]
  | returns j t' msg ok hpc' => simp [hpc] at hpc'
  | exit | lock | flagged | wait | wake | relock | missing | take | stopServer | skip | throws | clear => cases hk

theorem idle_of_notify {m m' : Mailbox.State} {pid : Nat} {t : CivMsgType} (hn : Mailbox.notify m pid t = some m') :
    m.client pid = .idle := by
  unfold Mailbox.notify at hn
  split at hn
  · assumption
  · cases hn

theorem notify_msg {m m' : Mailbox.State} {pid : Nat} {t : CivMsgType} (hn : Mailbox.notify m pid t = some m') :
    m'.msg = m.msg := by
  unfold Mailbox.notify at hn
  split at hn
  · split at hn <;> cases hn <;> rfl
  · cases hn

theorem delivered_step {a : Act κ} (hr : Reachable (step h) (init k₀) s) (hsent : Sent s.mail)
    (hi : Delivered h k₀ s) (hs : step h s a = some s') : Delivered h k₀ s' := by
  have hw := reachable_whole hr
  cases step_move hs with
  | segment pid g hidle =>
    have hne : ∀ {i c}, (s.mail.client i).call = some c → i ≠ pid := by
      rintro i c hc rfl
      rw [hidle] at hc
      cases hc
    refine ⟨fun k r hserving => ?_, fun k r ret hd i c hc hid => ?_⟩
    · obtain ⟨msg, i, c, g', hmsg, hp, hc, hid, hg, hrun⟩ := hi.serving k r hserving
      exact ⟨msg, i, c, g', hmsg, hp, hc, hid, (Function.update_of_ne (hne hc) ..).trans hg, hrun⟩
    · obtain ⟨g', sys, hg, hrun⟩ := hi.done k r ret hd i c hc hid
      exact ⟨g', sys, (Function.update_of_ne (hne hc) ..).trans hg, hrun⟩
  | call pid t g m hg hready hn =>
    have hidle := idle_of_notify hn
    refine ⟨fun k r hserving => ?_, fun k r ret hd i c hc hid => ?_⟩
    · obtain ⟨msg, i, c, g', hmsg, hp, hc, hid, hg', hrun⟩ := hi.serving k r hserving
      have hne : i ≠ pid := by
        rintro rfl
        rw [hidle] at hc
        cases hc
      exact ⟨msg, i, c, g', (notify_msg hn).trans hmsg, hp, by rw [(Mailbox.notify_move hn).other hne, hc], hid, hg', hrun⟩
    · rcases call_of_notify hn hc with ⟨rfl, rfl⟩ | hc
      · have hlt := lt_calls hw.mail (hw.asked.done k r ret hd).2
        exact absurd hid.symm (Nat.ne_of_lt hlt)
      · exact hi.done k r ret hd i c hc hid
  | mail b m hm hn he hto hclear =>
    refine ⟨fun k r hserving => ?_, fun k r ret hd i c hc hid => hi.done k r ret hd i c (call_of_step hm hn hc) hid⟩
    obtain ⟨msg, i, c, g, hmsg, hp, hc, hid, hg, hrun⟩ := hi.serving k r hserving
    obtain ⟨t, hpc⟩ := hw.coupled.serving k r hserving
    obtain ⟨hmsg', hc'⟩ := mail_waits hw.mail hsent hm he hpc hmsg hp hc
    exact ⟨msg, i, c, g, hmsg', hp, hc', hid, hg, hrun⟩
  | enter m k t r sys hpc hm hk ho hsys =>
    have hclient : m.client = s.mail.client := (Mailbox.serverStep_move hm).client
    refine ⟨fun k' r' hserving => ?_, fun k' r' ret hd i c hc hid => hi.done k' r' ret hd i c (hclient ▸ hc) hid⟩
    cases hserving
    exact enter_delivered hw hr hm hk ho hsys
  | unopened m m' k t e hpc hm hk ho hm' =>
    have hclient : m'.client = s.mail.client := (thrown hm').2.trans (Mailbox.serverStep_move hm).client
    refine ⟨fun k' r' hserving => ?_, fun k' r' ret hd i c hc hid => hi.done k' r' ret hd i c (hclient ▸ hc) hid⟩
    obtain ⟨t', ht'⟩ := hw.coupled.serving k' r' hserving
    cases hpc.symm.trans ht'
  | handle k r sys hserving hclear hreply hsys hexit =>
    refine ⟨fun k' r' hserving' => ?_, stored_aside hw hi hserving⟩
    cases hserving.symm.trans hserving'
    obtain ⟨msg, i, c, g, hmsg, hp, hc, hid, hg, hrun⟩ := hi.serving k r hserving
    refine ⟨msg, i, c, _, hmsg, hp, hc, hid, ?_, hrun.next rfl hsys⟩
    dsimp only
    rw [storeIn_eq hmsg hp, Function.update_self, hg, Option.map_some]
  | threw k r sys e m hserving hsys he hm =>
    refine ⟨fun _ _ hr => (by cases hr), fun k' r' ret hd i c hc hid => stored_aside hw hi hserving k' r' ret hd i c ?_ hid⟩
    rw [← hc, (thrown hm).2]
  | returned k r ret sys m hserving hpc hsys hm =>
    obtain ⟨t, ht⟩ := hw.coupled.serving k r hserving
    simp only [Mailbox.handlerEnds, ht] at hm
    obtain ⟨msg, hmsg, rfl⟩ := Option.map_eq_some_iff.1 hm
    refine ⟨fun _ _ hr => (by cases hr), fun k' r' ret' hd i c hc hid => ?_⟩
    rcases List.mem_append.1 hd with hd | hd
    · exact hi.done k' r' ret' hd i c hc hid
    · cases List.mem_singleton.1 hd
      obtain ⟨msg', j, d, g, -, -, hd', hid', hg, hrun⟩ := hi.serving k r hserving
      obtain rfl := hw.mail.calls.inj i j c d hc hd' (hid.trans hid'.symm)
      exact ⟨g, s.sys, hg, hrun, hpc⟩
  | finish m sys hpc hm hclear hsys =>
    rw [serverStep_clear hpc hm]
    refine ⟨fun k r hserving => ?_, hi.done⟩
    obtain ⟨t, ht⟩ := hw.coupled.serving k r hserving
    cases hpc.symm.trans ht
  | other b sys hsys hb hrecv =>
    refine ⟨fun k r hserving => ?_, hi.done⟩
    obtain ⟨msg, i, c, g, hmsg, hp, hc, hid, hg, hrun⟩ := hi.serving k r hserving
    have hstore : storeResult h s.sys b g = g := by
      cases b <;> first | rfl | exact absurd rfl hb
    have hno : b.isRecv = false := by
      cases b <;> first | rfl | exact absurd rfl (hrecv _)
    exact ⟨msg, i, c, g, hmsg, hp, hc, hid, hg, hstore ▸ hrun.next hno hsys⟩

theorem reachable_delivered (hr : Reachable (step h) (init k₀) s) : Sent s.mail ∧ Delivered h k₀ s := by
  obtain ⟨as, hr⟩ := hr
  refine run_keeps_past (J := fun _ s => Sent s.mail ∧ Delivered h k₀ s) (fun bs s₁ a s₂ h₁ hi hs => ?_) hr
    ⟨fun _ _ hm => (nomatch hm), fun _ _ hr => (nomatch hr), fun _ _ _ hd => (nomatch hd)⟩
  have hr₁ : Reachable (step h) (init k₀) s₁ := ⟨bs, h₁⟩
  refine ⟨?_, delivered_step hr₁ hi.1 hi.2 hs⟩
  have hkeep := (simulates_mail h).keeps (I := fun m => Mailbox.Inv m ∧ Sent m)
    (fun m b m' hi hs => ⟨Mailbox.inv_step hi.1 hs, sent_step hi.1 hi.2 hs⟩) ⟨(reachable_whole hr₁).mail, hi.1⟩ hs
  exact hkeep.2

/-- A client whose `Notify` returns true for a request that has a handler finds
in its segment what one run of that handler, on the request that it made, has
left there, from its arrival to its reply of 0. -/
theorem success_is_delivered (hr : Reachable (step h) (init k₀) s) {i : Nat} {c : Mailbox.Call}
    (hpc : s.mail.client i = .unlock c true) (hc : c.type.hasHandler = true) :
    ∃ r g sys, r.type = c.type ∧ s.asked c.id = some r ∧ s.seg i = some g ∧ Handles h k₀ r (sys, g) ∧
      sys.server = .reply 0 := by
  have hstep : step h s (.mail (.client i)) =
      some { s with mail := { s.mail.goto i .idle with mutex := none, log := .ret c.id c.type true :: s.mail.log } } := by
    simp [step, Mailbox.step, Mailbox.clientStep, hpc]
  obtain ⟨r, hty, hasked, hd, -⟩ := success_is_served (hr.trans ⟨_, run_one hstep⟩) List.mem_cons_self hc
  obtain ⟨g, sys, hg, hrun, hreply⟩ := (reachable_delivered hr).2.done c.id r 0 hd i c (by rw [hpc]; rfl) rfl
  exact ⟨r, g, sys, hty, hasked, hg, hrun, hreply⟩

theorem success_is_delivered_list : ∃ s, run (step oneVmHost) (init ()) listMade = some s ∧
    ∃ r g sys, r.type = .listVm ∧ s.asked 1 = some r ∧ s.seg 7 = some g ∧ Handles oneVmHost () r (sys, g) ∧
      sys.server = .reply 0 ∧ g.listVms = some ["a:Running"] := by
  have he : (run (step oneVmHost) (init ()) listMade).map
      (fun s => (s.mail.client 7, (s.seg 7).map (·.listVms))) =
      some (.unlock ⟨1, .listVm⟩ true, some (some ["a:Running"])) := by decide +kernel
  obtain ⟨s, hs, he⟩ := Option.map_eq_some_iff.1 he
  obtain ⟨hpc, hlist⟩ := Prod.mk.inj he
  obtain ⟨r, g, sys, hty, hasked, hg, hrun, hreply⟩ := success_is_delivered ⟨_, hs⟩ hpc rfl
  rw [hg, Option.map_some, Option.some.injEq] at hlist
  exact ⟨s, hs, r, g, sys, hty, hasked, hg, hrun, hreply, hlist⟩

end VmManager.Manager
