import VmManager.MailboxTheorems
/-!
# Theorems about requests that a client gives up

`Notify` leaves its wait loop when `msg_in` is clear, when `wait_for` ends
without a timeout, or after `kMaxRetryCount` timeouts. It does not look at
`msg_in` again after that: a reply that came with the last timeout is not read,
and a request that was never answered leaves the flag set.
-/
open Mutex Runs

namespace VmManager.Mailbox

/-! ## Replies that came with the last timeout -/

/-- The server has written `kCivMsgRespondSuccess` into the `CivMsg` of call
`k`: its handler returned 0, or it was the request to stop the server. -/
def Succeeded (log : List Event) (k : Nat) : Prop := .handled k true ∈ log ∨ .stopped k ∈ log

@[simp] theorem succeeded_handler (log : List Event) (k k' : Nat) (t : CivMsgType) :
    Succeeded (.handler k' t :: log) k ↔ Succeeded log k := by simp [Succeeded]

@[simp] theorem succeeded_handled (log : List Event) (k k' : Nat) (ok : Bool) :
    Succeeded (.handled k' ok :: log) k ↔ (k = k' ∧ ok = true) ∨ Succeeded log k := by
  simp [Succeeded, or_assoc]

@[simp] theorem succeeded_stopped (log : List Event) (k k' : Nat) :
    Succeeded (.stopped k' :: log) k ↔ k = k' ∨ Succeeded log k := by
  simp [Succeeded, or_left_comm]

@[simp] theorem succeeded_reply (log : List Event) (k k' o : Nat) :
    Succeeded (.reply k' o :: log) k ↔ Succeeded log k := by simp [Succeeded]

@[simp] theorem succeeded_ret (log : List Event) (k k' : Nat) (t : CivMsgType) (b : Bool) :
    Succeeded (.ret k' t b :: log) k ↔ Succeeded log k := by simp [Succeeded]

/-- `Notify` will return false, whatever the `CivMsg` says. -/
def ClientPc.failing : ClientPc → Bool
  | .loop _ r | .after _ r => decide (kMaxRetryCount ≤ r)
  | .result _ ret | .gone _ ret | .unlock _ ret => !ret
  | _ => false

/-- A client does not count its last timeout when the reply is there. -/
def inTime (s : State) : Act → Bool
  | .client i =>
    match s.client i with
    | .woken _ r true => r + 1 < kMaxRetryCount || s.msg.all (·.type ≠ some .respondSuccess)
    | _ => true
  | _ => true

structure Reported (s : State) : Prop where
  counted : ∀ i, (s.client i).counted = true
  fresh : ∀ k, Succeeded s.log k → k < s.calls
  unsent : ∀ i c, (s.client i).call = some c → (s.client i).unsent = true → ¬ Succeeded s.log c.id
  typed : ∀ i c m, (s.client i).call = some c → (s.client i).hasMsg = true → s.msg = some m →
    Succeeded s.log c.id → m.type = some .respondSuccess
  failing : ∀ i c, (s.client i).call = some c → (s.client i).failing = true → ¬ Succeeded s.log c.id
  ret : ∀ k t, .ret k t false ∈ s.log → ¬ Succeeded s.log k

/-- One client moves on in its call and nothing of this is logged. The others
have no message to lose. -/
theorem Reported.move {s s' : State} {i : Nat} {p p' : ClientPc} {c : Call} (hi : Reported s)
    (hpc : s.client i = p) (hcl : s'.client = Function.update s.client i p') (hlog : s'.log = s.log)
    (hcalls : s'.calls = s.calls) (hp : p.call = some c) (hp' : ∀ d, p'.call = some d → d = c)
    (hmsg : ∀ j, j ≠ i → (s.client j).hasMsg = true → s'.msg = s.msg) (hun : p'.unsent = true → p.unsent = true)
    (htyped : p'.hasMsg = true → ∀ m, s'.msg = some m → Succeeded s.log c.id → m.type = some .respondSuccess)
    (hcount : p.counted = true → p'.counted = true) (hfail : p'.failing = true → ¬ Succeeded s.log c.id) : Reported s' := by
  have hself : s'.client i = p' := by rw [hcl, Function.update_self]
  have hother : ∀ j, j ≠ i → s'.client j = s.client j := fun j hj => by rw [hcl, Function.update_of_ne hj]
  have hcounted : ∀ j, (s'.client j).counted = true := fun j =>
    client_all (R := fun p p' => p.counted = true → p'.counted = true) hpc hcl hcount (fun _ => id) j (hi.counted j)
  refine ⟨hcounted, ?_, fun j d hd hu => ?_, fun j d m hd hw hm => ?_, fun j d hd hf => ?_, ?_⟩ <;> rw [hlog]
  · rw [hcalls]
    exact hi.fresh
  · by_cases hj : j = i
    · subst hj
      rw [hself] at hd hu
      obtain rfl := hp' d hd
      exact hi.unsent j d (by rw [hpc, hp]) (by rw [hpc, hun hu])
    · rw [hother j hj] at hd hu
      exact hi.unsent j d hd hu
  · by_cases hj : j = i
    · subst hj
      rw [hself] at hd hw
      obtain rfl := hp' d hd
      exact htyped hw m hm
    · rw [hother j hj] at hd hw
      rw [hmsg j hj hw] at hm
      exact hi.typed j d m hd hw hm
  · by_cases hj : j = i
    · subst hj
      rw [hself] at hd hf
      obtain rfl := hp' d hd
      exact hfail hf
    · rw [hother j hj] at hd hf
      exact hi.failing j d hd hf
  · exact hi.ret

/-- Client `i` enters `Notify`, with a call no success is logged of. -/
theorem Reported.enter {s s' : State} {i : Nat} {t : CivMsgType} (hi : Reported s)
    (hcl : s'.client = Function.update s.client i (.enter ⟨s.calls, t⟩)) (hcalls : s'.calls = s.calls + 1)
    (hlog : s'.log = s.log) (hmsg : s'.msg = s.msg) : Reported s' := by
  have hself : s'.client i = .enter ⟨s.calls, t⟩ := by rw [hcl, Function.update_self]
  have hother : ∀ j, j ≠ i → s'.client j = s.client j := fun j hj => by rw [hcl, Function.update_of_ne hj]
  refine ⟨fun j => ?_, fun k => ?_, fun j c hc hu => ?_, fun j c m hc hw hm => ?_, fun j c hc hf => ?_, ?_⟩
  · by_cases hj : j = i
    · rw [hj, hself]
      rfl
    · rw [hother j hj]
      exact hi.counted j
  · rw [hlog, hcalls]
    exact fun hk => Nat.lt_succ_of_lt (hi.fresh k hk)
  · rw [hlog]
    by_cases hj : j = i
    · rw [hj, hself] at hc
      cases hc
      exact fun hk => absurd (hi.fresh _ hk) (Nat.lt_irrefl _)
    · rw [hother j hj] at hc hu
      exact hi.unsent j c hc hu
  · by_cases hj : j = i
    · rw [hj, hself] at hw
      cases hw
    · rw [hother j hj] at hc hw
      rw [hlog]
      exact hi.typed j c m hc hw (hmsg ▸ hm)
  · by_cases hj : j = i
    · rw [hj, hself] at hf
      cases hf
    · rw [hother j hj] at hc hf
      rw [hlog]
      exact hi.failing j c hc hf
  · rw [hlog]
    exact hi.ret

/-- Anything but a success is logged. -/
theorem Reported.report {s s' : State} {e : Event} (hi : Reported s) (hlog : s'.log = e :: s.log)
    (hcalls : s.calls ≤ s'.calls) (hmsg : s'.msg = s.msg) (hclient : s'.client = s.client)
    (hs : ∀ k, Succeeded (e :: s.log) k ↔ Succeeded s.log k)
    (hret : ∀ k t, e = .ret k t false → ¬ Succeeded s.log k) : Reported s' := by
  refine ⟨by rw [hclient]; exact hi.counted, fun k => ?_, fun j c => ?_, fun j c m => ?_, fun j c => ?_,
    fun k t => ?_⟩ <;> rw [hlog, hs]
  · exact fun hk => Nat.lt_of_lt_of_le (hi.fresh k hk) hcalls
  · rw [hclient]; exact hi.unsent j c
  · rw [hclient, hmsg]; exact hi.typed j c m
  · rw [hclient]; exact hi.failing j c
  · intro hm
    rcases List.mem_cons.1 hm with he | hm
    · exact hret k t he.symm
    · exact hi.ret k t hm

theorem reported_client {s s' : State} {i : Nat} (hv : Inv s) (hi : Reported s)
    (hg : ∀ c r m, s.client i = .woken c r true → s.msg = some m → kMaxRetryCount ≤ r + 1 →
      m.type ≠ some .respondSuccess) (h : ClientMove s i s') : Reported s' := by
  have htyped : ∀ {p : ClientPc} {c : Call}, s.client i = p → p.call = some c → p.hasMsg = true → ∀ m,
      s.msg = some m → Succeeded s.log c.id → m.type = some .respondSuccess := fun hpc hc hw m =>
    hi.typed i _ m (by rw [hpc, hc]) (by rw [hpc, hw])
  have hfail : ∀ {p : ClientPc} {c : Call}, s.client i = p → p.call = some c → p.failing = true →
      ¬ Succeeded s.log c.id := fun hpc hc hf => hi.failing i _ (by rw [hpc, hc]) (by rw [hpc, hf])
  have hun : ∀ {p : ClientPc} {c : Call}, s.client i = p → p.call = some c → p.unsent = true →
      ¬ Succeeded s.log c.id := fun hpc hc hu => hi.unsent i _ (by rw [hpc, hc]) (by rw [hpc, hu])
  have hsame : ∀ c d : Call, some c = some d → d = c := fun c d he => (Option.some.inj he).symm
  -- A client that holds `mutex` is the only one with a message.
  have halone : ∀ {p : ClientPc}, s.client i = p → p.holdsMutex = true → ∀ j, j ≠ i → (s.client j).hasMsg = true →
      s'.msg = s.msg := fun hpc hp j hj hw => absurd (hv.locks.only_msg (by rw [hpc, hp]) hw) hj
  cases h with
  | refused t =>
    refine hi.report rfl (Nat.le_succ _) rfl rfl (by simp) fun k t' he hk => ?_
    cases he
    exact absurd (hi.fresh _ hk) (Nat.lt_irrefl _)
  | enter t hpc => exact hi.enter rfl rfl rfl rfl
  | lock c hpc => exact hi.move hpc rfl rfl rfl rfl (hsame _) (fun _ _ _ => rfl) (fun _ => rfl) nofun (fun _ => rfl) nofun
  | construct c hpc =>
    refine hi.move hpc rfl rfl rfl rfl (hsame _) (halone hpc rfl) (fun _ => rfl) (fun _ _ _ hk => ?_) (fun _ => rfl) nofun
    exact absurd hk (hun hpc rfl rfl)
  | exists_ c m hpc =>
    exact hi.move hpc rfl rfl rfl rfl (hsame _) (fun _ _ _ => rfl) nofun nofun (fun _ => rfl) fun _ => hun hpc rfl rfl
  | type c m hpc =>
    refine hi.move hpc rfl rfl rfl rfl (hsame _) (halone hpc rfl) nofun (fun _ _ _ hk => ?_) (fun _ => rfl) nofun
    exact absurd hk (hun hpc rfl rfl)
  | payload c m hpc hm =>
    refine hi.move hpc rfl rfl rfl rfl (hsame _) (halone hpc rfl) nofun (fun _ m' hm' hk => ?_) (fun _ => rfl) nofun
    cases hm'
    exact htyped hpc rfl rfl m hm hk
  | retry c r hpc =>
    refine hi.move hpc rfl rfl rfl rfl (hsame _) (fun _ _ _ => rfl) nofun (fun _ => htyped hpc rfl rfl) (fun _ => rfl)
      fun hlast hk => ?_
    obtain ⟨m, hm, -⟩ := hv.slot.own i c (by rw [hpc]; rfl) (by rw [hpc]; rfl)
    exact hg c r m hpc hm (of_decide_eq_true hlast) (htyped hpc rfl rfl m hm hk)
  | read c r m hpc hm =>
    have hmid : Reported (s.goto i (.result c (m.type == some .respondSuccess))) := by
      refine hi.move hpc rfl rfl rfl rfl (hsame _) (fun _ _ _ => rfl) nofun (fun _ => htyped hpc rfl rfl) (fun _ => rfl)
        fun hf hk => ?_
      rw [ClientPc.failing, htyped hpc rfl rfl m hm hk] at hf
      cases hf
    exact hmid.report rfl (Nat.le_refl _) rfl rfl (by simp) nofun
  | giveUp c r m hpc _ hr =>
    refine hi.move hpc rfl rfl rfl rfl (hsame _) (fun _ _ _ => rfl) nofun (fun _ => htyped hpc rfl rfl) (fun _ => rfl)
      fun _ => ?_
    exact hfail (p := .after c r) hpc rfl (decide_eq_true hr)
  | destroy c ret hpc =>
    exact hi.move hpc rfl rfl rfl rfl (hsame _) (halone hpc rfl) nofun nofun (fun _ => rfl)
      (hfail (p := .result c ret) hpc rfl)
  | unlockCond c ret hpc =>
    exact hi.move hpc rfl rfl rfl rfl (hsame _) (fun _ _ _ => rfl) nofun nofun (fun _ => rfl)
      (hfail (p := .gone c ret) hpc rfl)
  | unlock c ret hpc =>
    have hmid : Reported { s.goto i .idle with mutex := none } :=
      hi.move (c := c) hpc rfl rfl rfl rfl nofun (fun _ _ _ => rfl) nofun nofun (fun _ => rfl) nofun
    refine hmid.report rfl (Nat.le_refl _) rfl rfl (by simp) fun k t he => ?_
    cases he
    exact hfail (p := .unlock c false) hpc rfl rfl
  | wait c r hpc _ hr =>
    exact hi.move hpc rfl rfl rfl rfl (hsame _) (fun _ _ _ => rfl) nofun (fun _ => htyped hpc rfl rfl)
      (fun _ => decide_eq_true hr) nofun
  | leave c r hpc =>
    exact hi.move hpc rfl rfl rfl rfl (hsame _) (fun _ _ _ => rfl) nofun (fun _ => htyped hpc rfl rfl) (fun _ => rfl)
      (hfail (p := .loop c r) hpc rfl)
  | wake c r timeout hpc =>
    exact hi.move hpc rfl rfl rfl rfl (hsame _) (fun _ _ _ => rfl) nofun (fun _ => htyped hpc rfl rfl) id nofun
  | woken c r hpc =>
    have hr := hi.counted i
    rw [hpc] at hr
    refine hi.move hpc rfl rfl rfl rfl (hsame _) (fun _ _ _ => rfl) nofun (fun _ => htyped hpc rfl rfl) (fun _ => rfl)
      fun hlast => ?_
    exact absurd (of_decide_eq_true hlast) (Nat.not_le.2 (of_decide_eq_true hr))
  | lockCond c hpc | submit c hpc =>
    exact hi.move hpc rfl rfl rfl rfl (hsame _) (fun _ _ _ => rfl) nofun (fun _ => htyped hpc rfl rfl) (fun _ => rfl)
      nofun

/-- The server answers call `c` of client `i` in the slot. -/
theorem Reported.answer {s s' : State} {i : Nat} {c : Call} {m m' : CivMsg} {e : Event} {b : Bool} (hv : Inv s)
    (hi : Reported s) (hc : (s.client i).call = some c) (hw : (s.client i).hasMsg = true)
    (hu : (s.client i).unsent = false) (hm : s.msg = some m) (ht : m.type ≠ some .respondSuccess)
    (hcond : s.server.holdsCond = true) (hlog : s'.log = e :: s.log) (hcalls : s'.calls = s.calls)
    (hclient : s'.client = s.client) (hmsg : s'.msg = some m') (hok : b = true → m'.type = some .respondSuccess)
    (hret : ∀ k t ret, e ≠ .ret k t ret)
    (hs : ∀ k, Succeeded (e :: s.log) k ↔ (k = c.id ∧ b = true) ∨ Succeeded s.log k) : Reported s' := by
  have hone : ∀ j d, (s.client j).call = some d → d.id = c.id → j = i ∧ d = c := by
    intro j d hd he
    obtain rfl := hv.calls.inj j i d c hd hc he
    exact ⟨rfl, Option.some.inj (hd.symm.trans hc)⟩
  refine ⟨by rw [hclient]; exact hi.counted, fun k => ?_, fun j d hd hun => ?_, fun j d m'' hd hj hm'' => ?_,
    fun j d hd hf => ?_, fun k t hk => ?_⟩ <;> rw [hlog, hs]
  · rw [hcalls]
    rintro (⟨rfl, -⟩ | hk)
    · exact hv.calls.lt i c hc
    · exact hi.fresh k hk
  · rw [hclient] at hd hun
    rintro (⟨he, -⟩ | hk)
    · rw [(hone j d hd he).1, hu] at hun
      cases hun
    · exact hi.unsent j d hd hun hk
  · rw [hclient] at hd hj
    obtain rfl := hv.locks.only_msg (ClientPc.holdsMutex_of_hasMsg hw) hj
    cases hc.symm.trans hd
    cases hmsg.symm.trans hm''
    rintro (⟨-, ho⟩ | hk)
    · exact hok ho
    · exact absurd (hi.typed j c m hc hw hm hk) ht
  · -- A client that has given up holds `mutex_cond`, or its message is gone.
    rw [hclient] at hd hf
    rintro (⟨he, -⟩ | hk)
    · obtain ⟨rfl, rfl⟩ := hone j d hd he
      have hout : (s.client j).holdsCond = true := by
        cases hp : s.client j <;> rw [hp] at hf hw <;> first | rfl | cases hf | cases hw
      rw [hv.locks.server_out hout] at hcond
      cases hcond
    · exact hi.failing j d hd hf hk
  · have hold : .ret k t false ∈ s.log := by
      rcases List.mem_cons.1 (hlog ▸ hk) with he | hk
      · exact absurd he.symm (hret k t false)
      · exact hk
    rintro (⟨rfl, -⟩ | hk)
    · exact (hv.calls.done _ t false hold).2 i c hc rfl
    · exact hi.ret k t hold hk

theorem reported_server {s s' : State} (hv : Inv s) (hi : Reported s) (h : ServerMove s s') : Reported s' := by
  cases h with
  | handle m t => exact hi.report rfl (Nat.le_refl _) rfl rfl (by simp) nofun
  | stopServer m hpc hm ht =>
    obtain ⟨i, c, hc, hw, hu, hid, -, -⟩ := fresh_request hv.slot hv.history hpc hm ht rfl
    refine hi.answer (b := true) hv hc hw hu hm ?_ (by rw [hpc]; rfl) rfl rfl rfl rfl (fun _ => rfl) nofun (by simp [hid])
    rw [ht]
    exact nofun
  | returns k t m ok hpc hm =>
    obtain ⟨m', hm', hid, ht, hh⟩ := hv.slot.handling k t hpc
    cases hm.symm.trans hm'
    obtain ⟨i, c, hc, hw, hid'⟩ := hv.slot.owner hm
    have hu : (s.client i).unsent = false := by
      refine Bool.eq_false_iff.2 fun hun => ?_
      -- A handler has been called on this message, so it has been sent.
      have hran := hv.history.running k t hpc
      rw [← hid, hid'] at hran
      exact not_handler_of_runs (hv.history.unsent i c hc hun) t hran
    refine hi.answer (b := ok) hv hc hw hu hm ?_ (by rw [hpc]; rfl) rfl rfl rfl rfl ?_ nofun (by simp [← hid, hid'])
    · rw [ht]
      rintro he
      cases he
      cases hh
    · rintro rfl
      rfl
  | _ => exact ⟨hi.counted, hi.fresh, hi.unsent, hi.typed, hi.failing, hi.ret⟩

theorem reported_step {s s' : State} {a : Act} (hi : Inv s ∧ Reported s) (hg : inTime s a = true)
    (h : step s a = some s') : Inv s' ∧ Reported s' := by
  obtain ⟨hv, hi⟩ := hi
  refine ⟨inv_step hv h, ?_⟩
  rcases step_actor h with ⟨i, hm, ha⟩ | hm
  · refine reported_client hv hi (fun c r m hp hmsg hr ht => ?_) hm
    rw [hp] at ha
    rcases ha with rfl | ha | ⟨_, _, ha⟩
    · simp [inTime, hp, hmsg, ht] at hg
      omega
    · cases ha
    · cases ha
  · exact reported_server hv hi hm

theorem reported_init : Reported init := by
  constructor <;> simp [init, Succeeded, ClientPc.counted, ClientPc.call]

/-- No call that the server answered with `kCivMsgRespondSuccess` is reported
as failed. -/
def ReportsSuccess (s : State) : Prop := ∀ k t b, Succeeded s.log k → .ret k t b ∈ s.log → b = true

/-- In every run in which no client counts its last timeout with the reply
already there, `Notify` returns true for every request that succeeded. -/
theorem notify_reports_success {s : State} {as : List Act} (h : run step init as = some s)
    (hg : Guarded step (fun s a => inTime s a = true) init as) : ReportsSuccess s := by
  obtain ⟨-, hi⟩ := run_keeps_guarded (I := fun s => Inv s ∧ Reported s) (fun _ _ _ => reported_step) h hg
    ⟨inv_init, reported_init⟩
  intro k t b hk hret
  cases b with
  | true => rfl
  | false => exact absurd hk (hi.ret k t hret)

theorem notify_reports_success_listVm : ∃ s, run step init listVmRun = some s ∧ Succeeded s.log 0 ∧
    .ret 0 .listVm true ∈ s.log ∧ ReportsSuccess s := by
  have hlog : (run step init listVmRun).map State.log =
      some [.ret 0 .listVm true, .reply 0 0, .handled 0 true, .handler 0 .listVm] := rfl
  obtain ⟨s, hs, hlog⟩ := Option.map_eq_some_iff.1 hlog
  refine ⟨s, hs, by simp [hlog, Succeeded], by simp [hlog], notify_reports_success hs (by decide)⟩

/-- The server is slow to take the request. It answers while the client's
hundredth timeout waits for `mutex_cond`. -/
def lastTimeoutRun : List Act :=
  [.notify 7 .listVm, .client 7, .client 7, .client 7, .client 7, .client 7, .client 7, .client 7] ++
  (List.replicate 99 [.wakeClient 7 true, .client 7, .client 7]).flatten ++
  [.wakeClient 7 true, .server, .server, .server, .server, .handlerEnds (.returns true), .server,
   .client 7, .client 7, .client 7, .client 7, .client 7, .client 7]

theorem notify_reports_failure_of_success : ∃ s, Reachable step init s ∧ ¬ ReportsSuccess s := by
  have hlog : (run step init lastTimeoutRun).map State.log =
      some [.ret 0 .listVm false, .handled 0 true, .handler 0 .listVm] := by decide +kernel
  obtain ⟨s, hs, hlog⟩ := Option.map_eq_some_iff.1 hlog
  refine ⟨s, ⟨lastTimeoutRun, hs⟩, fun h => ?_⟩
  have hfalse := h 0 .listVm false (by simp [hlog, Succeeded]) (by simp [hlog])
  cases hfalse

/-! ## The flag of an abandoned request -/

/-- The client has set `msg_in` and is in its wait loop. -/
def ClientPc.waits : ClientPc → Bool
  | .loop _ _ | .asleep _ _ | .woken _ _ _ => true
  | _ => false

/-- A client leaves its wait loop only once the server has cleared `msg_in`. -/
def waitsForFlag (s : State) : Act → Bool
  | .client i =>
    match s.client i with
    | .woken _ _ false => !s.msgIn
    | .loop _ r => !s.msgIn || r < kMaxRetryCount
    | _ => true
  | _ => true

/-- A set flag has a client that waits for it. -/
def Flagged (s : State) : Prop := s.msgIn = true → ∃ i, (s.client i).waits = true

/-- Client `i` moves and stays in the loop, if it was there. -/
theorem Flagged.move {s s' : State} {i : Nat} {p p' : ClientPc} (hi : Flagged s) (hpc : s.client i = p)
    (hcl : s'.client = Function.update s.client i p') (hin : s'.msgIn = s.msgIn)
    (hw : p.waits = true → p'.waits = true) : Flagged s' := by
  intro hset
  obtain ⟨j, hj⟩ := hi (hin ▸ hset)
  exact ⟨j, client_all (R := fun p p' => p.waits = true → p'.waits = true) hpc hcl hw (fun _ => id) j hj⟩

/-- Client `i` leaves the loop, or the server has cleared the flag. -/
theorem Flagged.of_clear {s : State} (h : s.msgIn = false) : Flagged s := by
  intro hset
  rw [h] at hset
  cases hset

theorem flagged_client {s s' : State} {i : Nat} (hi : Flagged s)
    (hwoken : ∀ c r, s.client i = .woken c r false → s.msgIn = false)
    (hloop : ∀ c r, s.client i = .loop c r → s.msgIn = true → r < kMaxRetryCount) (h : ClientMove s i s') :
    Flagged s' := by
  cases h with
  | refused t hpc => exact hi
  | submit c hpc => exact fun _ => ⟨i, by simp [State.goto, ClientPc.waits]⟩
  | leave c r hpc hout =>
    refine .of_clear (Bool.eq_false_iff.2 fun hset => ?_)
    exact hout ⟨hset, hloop c r hpc hset⟩
  | woken c r hpc => exact .of_clear (hwoken c r hpc)
  | wait c r hpc | wake c r _ hpc | retry c r hpc => exact hi.move hpc rfl rfl fun _ => rfl
  | enter _ hpc | lock _ hpc | construct _ hpc | exists_ _ _ hpc | type _ _ hpc | payload _ _ hpc | lockCond _ hpc
  | read _ _ _ hpc | giveUp _ _ _ hpc | destroy _ _ hpc | unlockCond _ _ hpc | unlock _ _ hpc =>
    exact hi.move hpc rfl rfl fun hw => by cases hw

theorem flagged_step {s s' : State} {a : Act} (hi : Flagged s) (hg : waitsForFlag s a = true)
    (h : step s a = some s') : Flagged s' := by
  rcases step_actor h with ⟨i, hm, ha⟩ | hm
  · refine flagged_client hi (fun c r hp => ?_) (fun c r hp hset => ?_) hm <;> rw [hp] at ha <;>
      rcases ha with rfl | ha | ⟨_, _, ha⟩
    · simpa [waitsForFlag, hp] using hg
    · cases ha
    · cases ha
    · simpa [waitsForFlag, hp, hset] using hg
    · cases ha
    · cases ha
  · cases hm with
    | clear => exact .of_clear rfl
    | _ => exact hi

/-- In every run in which no client leaves its wait loop with the flag set,
the flag is clear whenever no client waits, and a server that looks at it goes
to sleep. -/
theorem flag_clear_without_waiter {s : State} {as : List Act} (h : run step init as = some s)
    (hg : Guarded step (fun s a => waitsForFlag s a = true) init as) (hno : ∀ i, (s.client i).waits = false) :
    s.msgIn = false ∧ (s.server = .locked → step s .server = some { s with server := .asleep, mutexCond := none }) := by
  have hi : Flagged s := run_keeps_guarded (fun _ _ _ => flagged_step) h hg (.of_clear rfl)
  have hclear : s.msgIn = false := by
    refine Bool.eq_false_iff.2 fun hset => ?_
    obtain ⟨i, hw⟩ := hi hset
    rw [hno i] at hw
    cases hw
  refine ⟨hclear, fun hpc => ?_⟩
  simp [step, serverStep, hpc, hclear]

theorem Locks.waits_false {s : State} (hl : Locks s) (hm : s.mutex = none) (i : Nat) :
    (s.client i).holdsMutex = false ∧ (s.client i).waits = false := by
  have hout : (s.client i).holdsMutex = false := by
    refine Bool.eq_false_iff.2 fun hh => ?_
    have hheld := (hl.mutex i).1 hh
    rw [hm] at hheld
    cases hheld
  refine ⟨hout, ?_⟩
  cases hp : s.client i <;> rw [hp] at hout <;> first | rfl | cases hout

theorem flag_clear_without_waiter_listVm : ∃ s, run step init (listVmRun ++ [.server]) = some s ∧
    s.server = .locked ∧ s.msgIn = false ∧ step s .server = some { s with server := .asleep, mutexCond := none } := by
  have hpc : (run step init (listVmRun ++ [.server])).map (fun s => (s.server, s.mutex)) = some (.locked, none) := by
    rfl
  obtain ⟨s, hs, hpc⟩ := Option.map_eq_some_iff.1 hpc
  obtain ⟨hserver, hmutex⟩ := Prod.mk.inj hpc
  have hl := (reachable_inv ⟨_, hs⟩).locks
  obtain ⟨hclear, hsleep⟩ := flag_clear_without_waiter hs (by decide) fun i => (hl.waits_false hmutex i).2
  exact ⟨s, hs, hserver, hclear, hsleep hserver⟩

/-- The client's first wait ends spuriously, before the server has looked. -/
def spuriousWakeRun : List Act :=
  [.notify 7 .listVm, .client 7, .client 7, .client 7, .client 7, .client 7, .client 7, .client 7,
   .wakeClient 7 false, .client 7, .client 7, .client 7, .client 7, .client 7]

/-- No client is inside `Notify` past `lock_clients`, and the flag is set. -/
theorem flag_set_without_client : ∃ s, Reachable step init s ∧ (∀ i, (s.client i).holdsMutex = false) ∧
    s.msg = none ∧ s.msgIn = true := by
  have hpc : (run step init spuriousWakeRun).map (fun s => (s.mutex, s.msg, s.msgIn)) = some (none, none, true) := by
    rfl
  obtain ⟨s, hs, hpc⟩ := Option.map_eq_some_iff.1 hpc
  obtain ⟨hmutex, hpc⟩ := Prod.mk.inj hpc
  obtain ⟨hmsg, hset⟩ := Prod.mk.inj hpc
  have hl := (reachable_inv ⟨_, hs⟩).locks
  exact ⟨s, ⟨_, hs⟩, fun i => (hl.waits_false hmutex i).1, hmsg, hset⟩

end VmManager.Mailbox
