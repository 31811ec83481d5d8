import VmManager.MailboxTheorems
/-!
# Progress in the mailbox

What keeps a `Notify` from returning: nothing the other clients and the server
can do, as long as handlers return, and a client that dies inside `Notify`,
for good. `left` counts the steps that a client has still to make, so it bounds
a call from above and is also the measure by which it can be led to its end.
-/
open Mutex Runs

namespace VmManager.Mailbox

/-- The client whose step it is. -/
def Act.client? : Act → Option Nat
  | .notify i _ | .client i | .wakeClient i _ => some i
  | .server | .wakeServer | .handlerEnds _ | .stop => none

/-- The steps that need no luck: nothing is notified, nobody calls anew, and a
handler returns. -/
def Act.Unaided : Act → Prop
  | .client _ | .wakeClient _ true | .server | .handlerEnds (.returns _) => True
  | .notify .. | .wakeClient _ false | .wakeServer | .handlerEnds .throws | .stop => False

/-! ## The steps left -/

/-- How many steps of its own a client makes at most before `Notify` returns. -/
def ClientPc.left : ClientPc → Nat
  | .idle => 0
  | .unlock _ _ => 1
  | .gone _ _ => 2
  | .result _ _ => 3
  | .after _ _ => 4
  | .loop _ r => 3 * (kMaxRetryCount - r) + 5
  | .asleep _ r => 3 * (kMaxRetryCount - r) + 4
  | .woken _ r _ => 3 * (kMaxRetryCount - r) + 3
  | .holding _ => 3 * kMaxRetryCount + 6
  | .filled _ => 3 * kMaxRetryCount + 7
  | .typed _ => 3 * kMaxRetryCount + 8
  | .made _ => 3 * kMaxRetryCount + 9
  | .locked _ => 3 * kMaxRetryCount + 10
  | .enter _ => 3 * kMaxRetryCount + 11

theorem ClientPc.left_le (p : ClientPc) : p.left ≤ 311 := by
  cases p <;> simp only [left, kMaxRetryCount] <;> omega

theorem ClientMove.other {s s' : State} {i : Nat} (h : ClientMove s i s') {j : Nat} (hj : j ≠ i) :
    s'.client j = s.client j := by
  cases h <;> first | rfl | exact Function.update_of_ne hj ..

theorem ServerMove.client {s s' : State} (h : ServerMove s s') : s'.client = s.client := by
  cases h <;> rfl

theorem ClientMove.counted {s s' : State} {i : Nat} (h : ClientMove s i s') (hi : (s.client i).counted = true) :
    (s'.client i).counted = true := by
  cases h with
  | wait c r hpc hm hr => simpa [State.goto, ClientPc.counted] using hr
  | wake c r timeout hpc =>
    rw [hpc] at hi
    simpa [State.goto, ClientPc.counted] using hi
  | refused t hpc =>
    rw [hpc] at hi
    simp [hpc, ClientPc.counted]
  | _ => simp [State.goto, ClientPc.counted]

theorem counted_step {s s' : State} {a : Act} (hi : ∀ i, (s.client i).counted = true) (h : step s a = some s') :
    ∀ i, (s'.client i).counted = true := by
  intro j
  rcases step_move h with ⟨i, hm⟩ | hm
  · by_cases hj : j = i
    · exact hj ▸ hm.counted (hi i)
    · rw [hm.other hj]
      exact hi j
  · rw [hm.client]
    exact hi j

/-- A step of a client in a call leaves it one step less, whatever happened to
it in between. -/
theorem ClientMove.left_lt {s s' : State} {i : Nat} (h : ClientMove s i s') (hi : (s.client i).counted = true)
    (hpc : s.client i ≠ .idle) : (s'.client i).left < (s.client i).left := by
  cases h with
  | refused t hidle | enter t hidle => exact absurd hidle hpc
  | wait c r hat hm hr | leave c r hat hm => simp [State.goto, hat, ClientPc.left]
  | wake c r timeout hat => simp [State.goto, hat, ClientPc.left]
  | retry c r hat | woken c r hat =>
    rw [hat] at hi
    simp only [ClientPc.counted, decide_eq_true_eq] at hi
    simp only [State.goto, Function.update_self, hat, ClientPc.left]
    omega
  | lock c hat | construct c hat | exists_ c m hat | type c m hat | payload c m hat | lockCond c hat | submit c hat
  | read c r m hat | giveUp c r m hat | destroy c ret hat | unlockCond c ret hat | unlock c ret hat =>
    simp [State.goto, hat, ClientPc.left]

/-! ## Every call comes to its end -/

theorem step_by {s s' : State} {a : Act} (h : step s a = some s') :
    (∃ i, a.client? = some i ∧ ClientMove s i s') ∨ (a.client? = none ∧ ServerMove s s') := by
  cases a with
  | notify i t => exact .inl ⟨i, rfl, notify_move h⟩
  | client i => exact .inl ⟨i, rfl, clientStep_move h⟩
  | wakeClient i timeout =>
    simp only [step, wakeClient] at h
    split at h <;> cases h
    exact .inl ⟨i, rfl, .wake _ _ _ ‹_›⟩
  | server => exact .inr ⟨rfl, serverStep_move h⟩
  | wakeServer =>
    simp only [step, wakeServer] at h
    split at h <;> cases h
    exact .inr ⟨rfl, .wake ‹_›⟩
  | handlerEnds e =>
    simp only [step, handlerEnds] at h
    split at h
    · obtain ⟨m, hm, rfl⟩ := Option.map_eq_some_iff.1 h
      exact .inr ⟨rfl, .returns _ _ m _ ‹_› hm⟩
    · cases h
      exact .inr ⟨rfl, .throws _ _ ‹_›⟩
    · cases h
  | stop =>
    cases h
    exact .inr ⟨rfl, .stop⟩

/-- A step of the client in a call leaves it one step less, one of another
thread as many as before. -/
theorem step_left {s s' : State} {a : Act} {i : Nat} (hin : ∀ j, (s.client j).counted = true) (h : step s a = some s')
    (hbusy : s.client i ≠ .idle) : (a.client? == some i).toNat + (s'.client i).left ≤ (s.client i).left := by
  rcases step_by h with ⟨j, ha, hm⟩ | ⟨ha, hm⟩ <;> rw [ha]
  · by_cases hj : j = i
    · subst hj
      have hlt := hm.left_lt (hin j) hbusy
      simp only [BEq.rfl, Bool.toNat_true]
      omega
    · have hne : (some j == some i) = false := by simpa using hj
      exact Nat.le_of_eq (by rw [hm.other (Ne.symm hj), hne, Bool.toNat_false, Nat.zero_add])
  · rw [hm.client]
    exact Nat.le_of_eq (Nat.zero_add _)

/-- In any run a client makes at most 311 steps of its own before the call it
is in returns, however the others' steps lie between them. -/
theorem notify_bounded {s : State} (h : Reachable step init s) (i : Nat) (as : List Act) :
    stepsUntil step (fun _ a => a.client? == some i) (fun s : State => s.client i == .idle) s as ≤ 311 := by
  have hin : ∀ j, (s.client j).counted = true := h.keeps (fun _ _ _ => counted_step) fun _ => rfl
  have hall : Guarded step (fun _ _ => True) s as := guarded_of_forall (P := fun _ => True) fun _ _ => trivial
  have hrank : ∀ (s : State) a s', (∀ j, (s.client j).counted = true) → True → step s a = some s' →
      (s.client i == .idle) = false → (a.client? == some i).toNat + (s'.client i).left ≤ (s.client i).left :=
    fun _ _ _ hi _ hs hd => step_left hi hs (by simpa using hd)
  exact Nat.le_trans (stepsUntil_le_rank (fun _ _ _ hi _ => counted_step hi) hrank hall hin) (ClientPc.left_le _)

theorem ClientPc.holdsMutex_of_holdsCond {p : ClientPc} (h : p.holdsCond = true) : p.holdsMutex = true := by
  cases p <;> simp_all

/-- With the server out, whoever holds `mutex` finds `mutex_cond` free. -/
theorem Locks.cond_free {s : State} (hi : Locks s) {i : Nat} (hserver : s.server.holdsCond = false)
    (hm : (s.client i).holdsMutex = true) (hc : (s.client i).holdsCond = false) : s.mutexCond = none := by
  refine Option.eq_none_iff_forall_not_mem.2 fun a ha => ?_
  have hheld : s.holdsCond a = true := (hi.cond a).2 ha
  cases a with
  | server => exact absurd (hserver.symm.trans hheld) nofun
  | client j =>
    have hj : (s.client j).holdsCond = true := hheld
    obtain rfl := hi.same_client hm (ClientPc.holdsMutex_of_holdsCond hj)
    exact absurd (hc.symm.trans hj) nofun

/-- How many steps the server makes before it lets go of `mutex_cond`. -/
def ServerPc.left : ServerPc → Nat
  | .locked => 5
  | .find => 4
  | .found => 3
  | .handling _ _ => 2
  | .clear => 1
  | .head | .asleep | .woken | .exited => 0

theorem serverStep_left {s s' : State} (h : serverStep s = some s') (hc : s.server.holdsCond = true) :
    s'.server.left < s.server.left := by
  cases hpc : s.server with
  | head | asleep | woken | exited =>
    rw [hpc] at hc
    cases hc
  | handling k t => simp [serverStep, hpc] at h
  | locked | find =>
    simp only [serverStep, hpc] at h
    split at h <;> cases h <;> simp [ServerPc.left]
  | found =>
    simp only [serverStep, hpc] at h
    split at h
    · cases h
    · split at h
      · cases h
        simp [ServerPc.left]
      · split at h <;> cases h <;> simp [ServerPc.left]
      · cases h
        simp [ServerPc.left]
  | clear =>
    simp only [serverStep, hpc] at h
    cases h
    simp [ServerPc.left]

/-- While the server holds `mutex_cond` it has a step to make, its own or the
end of a handler. -/
theorem server_next {s : State} (hi : Inv s) (h : s.server.holdsCond = true) :
    ∃ a s', a.Unaided ∧ a.client? = none ∧ step s a = some s' ∧ s'.server.left < s.server.left := by
  have hown : (serverStep s).isSome = true → ∃ a s', a.Unaided ∧ a.client? = none ∧ step s a = some s' ∧
      s'.server.left < s.server.left := by
    intro hsome
    obtain ⟨s', hs⟩ := Option.isSome_iff_exists.1 hsome
    exact ⟨.server, s', trivial, rfl, hs, serverStep_left hs h⟩
  cases hpc : s.server with
  | head | asleep | woken | exited =>
    rw [hpc] at h
    cases h
  | handling k t =>
    obtain ⟨m, hm, -⟩ := hi.slot.handling k t hpc
    have hs : step s (.handlerEnds (.returns true)) = some { s with
        server := .clear, msg := some { m with type := some .respondSuccess }, log := .handled k true :: s.log } := by
      simp [step, handlerEnds, hpc, hm]
    exact ⟨.handlerEnds (.returns true), _, trivial, rfl, hs, by simp [ServerPc.left]⟩
  | found =>
    obtain ⟨m, hm⟩ := Option.ne_none_iff_exists'.1 (hi.slot.found hpc)
    refine hpc ▸ hown ?_
    unfold serverStep
    simp only [hpc, hm]
    split
    · rfl
    · split <;> rfl
    · rfl
  | locked | find | clear =>
    refine hpc ▸ hown ?_
    unfold serverStep
    simp only [hpc]
    first | rfl | (split <;> rfl)

/-- A client that holds `mutex`, or could take it, has a step to make while the
server is out: its own, or the end of `wait_for` by timeout. -/
theorem client_next {s : State} (hi : Inv s) {i : Nat} {c : Call} (hserver : s.server.holdsCond = false)
    (hc : (s.client i).call = some c) (hfree : s.client i = .enter c → s.mutex = none) :
    ∃ a s', a.Unaided ∧ a.client? = some i ∧ step s a = some s' := by
  have hown : (clientStep s i).isSome = true → ∃ a s', a.Unaided ∧ a.client? = some i ∧ step s a = some s' := by
    intro hsome
    obtain ⟨s', hs⟩ := Option.isSome_iff_exists.1 hsome
    exact ⟨.client i, s', trivial, rfl, hs⟩
  have hcond : ∀ {p}, s.client i = p → p.holdsMutex = true → p.holdsCond = false → s.mutexCond = none :=
    fun hpc hm hc => hi.locks.cond_free hserver (by rw [hpc, hm]) (by rw [hpc, hc])
  have hmsg : ∀ {p}, s.client i = p → p.hasMsg = true → ∃ m, s.msg = some m := by
    intro p hpc hw
    obtain ⟨m, hm, -⟩ := hi.slot.own i c hc (by rw [hpc, hw])
    exact ⟨m, hm⟩
  cases hpc : s.client i with
  | idle =>
    rw [hpc] at hc
    cases hc
  | asleep d r =>
    have hs : step s (.wakeClient i true) = some (s.goto i (.woken d r true)) := by simp [step, wakeClient, hpc]
    exact ⟨.wakeClient i true, _, trivial, rfl, hs⟩
  | enter d =>
    rw [hpc] at hc
    cases hc
    exact hown (by simp [clientStep, hpc, hfree hpc])
  | locked d =>
    refine hown ?_
    simp only [clientStep, hpc]
    split <;> rfl
  | made d | typed d | after d r =>
    obtain ⟨m, hm⟩ := hmsg hpc rfl
    exact hown (by simp [clientStep, hpc, hm])
  | filled d | woken d r timeout => exact hown (by simp [clientStep, hpc, hcond hpc rfl rfl])
  | loop d r =>
    refine hown ?_
    simp only [clientStep, hpc]
    split <;> rfl
  | holding d | result d ret | gone d ret | unlock d ret => exact hown (by simp [clientStep, hpc])

theorem call_of_ne_idle {p : ClientPc} (h : p ≠ .idle) : ∃ c, p.call = some c := by
  cases p with
  | idle => exact absurd rfl h
  | _ => exact ⟨_, rfl⟩

/-- `Notify` number `c.id` of client `i` has returned. -/
def Returned (i : Nat) (c : Call) (s : State) : Prop := s.client i = .idle ∧ ∃ b, .ret c.id c.type b ∈ s.log

theorem ClientMove.server {s s' : State} {i : Nat} (h : ClientMove s i s') : s'.server = s.server := by
  cases h <;> rfl

theorem ClientMove.returns {s s' : State} {i : Nat} {c : Call} (h : ClientMove s i s')
    (hc : (s.client i).call = some c) : (s'.client i).call = some c ∨ Returned i c s' := by
  have hidle : s.client i ≠ .idle := fun hpc => by rw [hpc] at hc; cases hc
  cases h with
  | refused t hpc | enter t hpc => exact absurd hpc hidle
  | unlock d ret hpc =>
    rw [hpc] at hc
    cases hc
    exact .inr ⟨by simp [State.goto], ret, List.mem_cons_self⟩
  | lock d hpc | construct d hpc | exists_ d m hpc | type d m hpc | payload d m hpc | lockCond d hpc | submit d hpc
  | wait d r hpc | leave d r hpc | wake d r timeout hpc | retry d r hpc | woken d r hpc | read d r m hpc
  | giveUp d r m hpc | destroy d ret hpc | unlockCond d ret hpc =>
    rw [hpc] at hc
    cases hc
    exact .inl (by simp [State.goto])

/-- What the phases below keep: the server is out of the way, and client `i` is
still in its call or has returned from it. -/
structure Leading (i : Nat) (c : Call) (s : State) : Prop where
  inv : Inv s
  counted : ∀ j, (s.client j).counted = true
  out : s.server.holdsCond = false
  call : (s.client i).call = some c ∨ Returned i c s

/-- With the server out, a client that holds `mutex`, or finds it free, can go
on to its return while all others stand still. -/
theorem holder_returns {s : State} {i : Nat} {c : Call} (hi : Leading i c s)
    (hfree : s.client i = .enter c → s.mutex = none) :
    CanReach step (fun _ => Act.Unaided)
      (fun s' => Leading i c s' ∧ Returned i c s' ∧ ∀ j, j ≠ i → s'.client j = s.client j) s := by
  suffices hreach : CanReach step (fun _ => Act.Unaided) (fun s' =>
      (Leading i c s' ∧ (s'.client i = .enter c → s'.mutex = none) ∧
      ∀ j, j ≠ i → s'.client j = s.client j) ∧ Returned i c s') s from
    hreach.imp fun s' h => ⟨h.1.1, h.2, h.1.2.2⟩
  refine canReach_of_rank (fun s => (s.client i).left) ?_ ⟨hi, hfree, fun _ _ => rfl⟩
  · rintro t ⟨ht, htfree, hsame⟩ hnot
    have hc : (t.client i).call = some c := ht.call.resolve_right hnot
    obtain ⟨a, t', ha, hby, hs⟩ := client_next ht.inv ht.out hc htfree
    obtain ⟨j, hj, hm⟩ | ⟨hnone, -⟩ := step_by hs
    · cases hby.symm.trans hj
      have hlt := hm.left_lt (ht.counted i) fun hpc => by rw [hpc] at hc; cases hc
      refine ⟨a, t', ha, hs, ⟨?_, ?_, fun j hj => (hm.other hj).trans (hsame j hj)⟩, hlt⟩
      · exact ⟨inv_step ht.inv hs, counted_step ht.counted hs, hm.server ▸ ht.out, hm.returns hc⟩
      · -- Nobody comes back to the start of a call within it.
        intro hpc
        have hle := (t.client i).left_le
        rw [hpc, ClientPc.left, kMaxRetryCount] at hlt
        omega
    · rw [hby] at hnone
      cases hnone

/-- The server can get out of the way while all clients stand still. -/
theorem server_leaves {s : State} (hi : Inv s) (hin : ∀ j, (s.client j).counted = true) :
    CanReach step (fun _ => Act.Unaided)
      (fun s' => (Inv s' ∧ (∀ j, (s'.client j).counted = true) ∧ s'.client = s.client) ∧
        s'.server.holdsCond = false) s := by
  refine canReach_of_rank (fun s => s.server.left) ?_ ⟨hi, hin, rfl⟩
  rintro t ⟨ht, htin, hsame⟩ hnot
  obtain ⟨a, t', ha, hby, hs, hlt⟩ := server_next ht (by simpa using hnot)
  obtain ⟨j, hj, -⟩ | ⟨-, hm⟩ := step_by hs
  · rw [hby] at hj
    cases hj
  · exact ⟨a, t', ha, hs, ⟨inv_step ht hs, counted_step htin hs, hm.client.trans hsame⟩, hlt⟩

/-- From every reachable state, every call in progress can come to its end: no
client is ever left waiting for ever, whoever holds what, as long as handlers
return. It takes no notification, no luck with wake-ups and no new call. -/
theorem notify_can_return {s : State} (h : Reachable step init s) {i : Nat} {c : Call}
    (hc : (s.client i).call = some c) : CanReach step (fun _ => Act.Unaided) (Returned i c) s := by
  have hi : Inv s := reachable_inv h
  have hin : ∀ j, (s.client j).counted = true := h.keeps (fun _ _ _ => counted_step) fun _ => rfl
  refine (server_leaves hi hin).trans ?_
  rintro t ⟨⟨ht, htin, hsame⟩, hout⟩
  have htc : (t.client i).call = some c := by rw [hsame, hc]
  cases hm : t.mutex with
  | none => exact (holder_returns ⟨ht, htin, hout, .inl htc⟩ fun _ => hm).imp fun _ hu => hu.2.1
  | some j =>
    have hj : (t.client j).holdsMutex = true := (ht.locks.mutex j).2 hm
    have hjenter : ∀ d, t.client j = .enter d → t.mutex = none := fun d hd => by rw [hd] at hj; cases hj
    by_cases hij : j = i
    · subst hij
      exact (holder_returns ⟨ht, htin, hout, .inl htc⟩ fun hd => hjenter c hd).imp fun _ hu => hu.2.1
    · obtain ⟨d, hd⟩ := call_of_ne_idle (p := t.client j) fun hpc => by rw [hpc] at hj; cases hj
      refine (holder_returns ⟨ht, htin, hout, .inl hd⟩ fun he => hjenter d he).trans ?_
      rintro u ⟨hu, hret, hothers⟩
      -- The holder is back, and nobody else held `mutex` beside it.
      have hnone : u.mutex = none := by
        refine Option.eq_none_iff_forall_not_mem.2 fun k hk => ?_
        have hkm : (u.client k).holdsMutex = true := (hu.inv.locks.mutex k).2 hk
        by_cases hkj : k = j
        · rw [hkj, hret.1] at hkm
          cases hkm
        · rw [hothers k hkj] at hkm
          exact hkj (ht.locks.same_client hkm hj)
      have huc : (u.client i).call = some c := by rw [hothers i (Ne.symm hij), htc]
      exact (holder_returns ⟨hu.inv, hu.counted, hu.out, .inl huc⟩ fun _ => hnone).imp fun _ hv => hv.2.1

/-- Client 7 waits for the answer to a request, and client 8 for client 7. -/
def twoCallsRun : List Act :=
  [.notify 7 .startVm, .client 7, .client 7, .client 7, .client 7, .client 7, .client 7, .client 7, .notify 8 .listVm]

theorem notify_can_return_second : ∃ s, run step init twoCallsRun = some s ∧
    CanReach step (fun _ => Act.Unaided) (Returned 8 ⟨1, .listVm⟩) s := by
  have hpc : (run step init twoCallsRun).map (fun s => (s.client 8).call) = some (some ⟨1, .listVm⟩) := rfl
  obtain ⟨s, hs, hpc⟩ := Option.map_eq_some_iff.1 hpc
  exact ⟨s, hs, notify_can_return ⟨_, hs⟩ hpc⟩

/-- Client 7 is never answered and counts a hundred timeouts. Client 8 comes in
the meantime and waits for it. -/
def noAnswer : List Act :=
  List.replicate 7 (.client 7) ++ .notify 8 .listVm ::
    (List.replicate 100 [.wakeClient 7 true, .client 7, .client 7]).flatten ++ List.replicate 4 (.client 7)

/-- The bound is met. -/
theorem notify_bounded_second : ∃ s, run step init [.notify 7 .startVm] = some s ∧
    stepsUntil step (fun _ a => a.client? == some 7) (fun s : State => s.client 7 == .idle) s noAnswer = 311 ∧
    stepsUntil step (fun _ a => a.client? == some 7) (fun s : State => s.client 7 == .idle) s noAnswer ≤ 311 := by
  have hsteps : (run step init [.notify 7 .startVm]).map (fun s =>
      stepsUntil step (fun _ a => a.client? == some 7) (fun s : State => s.client 7 == .idle) s noAnswer) = some 311 := by
    decide +kernel
  obtain ⟨s, hs, hsteps⟩ := Option.map_eq_some_iff.1 hsteps
  exact ⟨s, hs, hsteps, notify_bounded ⟨_, hs⟩ 7 noAnswer⟩

/-! ## After a stop -/

def Event.isTaken : Event → Bool
  | .handler .. | .stopped _ => true
  | .handled .. | .reply .. | .ret .. => false

/-- How many requests the server has taken up. -/
def taken (log : List Event) : Nat := log.countP Event.isTaken

/-- The server has passed the head of its loop and not looked at the message
type since. -/
def ServerPc.mayTake : ServerPc → Bool
  | .locked | .asleep | .woken | .find | .found => true
  | .head | .handling .. | .clear | .exited => false

@[simp] theorem taken_cons (e : Event) (log : List Event) : taken (e :: log) = taken log + e.isTaken.toNat := by
  cases h : e.isTaken <;> simp [taken, h]

theorem ClientMove.taken_eq {s s' : State} {i : Nat} (h : ClientMove s i s') :
    taken s'.log = taken s.log ∧ s'.stopServer = s.stopServer := by
  cases h <;> exact ⟨rfl, rfl⟩

/-- At the head of the loop a server that is to stop does not go on. -/
theorem head_stays_out {s s' : State} {a : Act} (h : step s a = some s') (hstop : s.stopServer = true)
    (hpc : s.server = .head) : s'.server ≠ .locked := by
  rcases step_by h with ⟨i, -, hm⟩ | ⟨ha, -⟩
  · rw [hm.server, hpc]
    exact nofun
  · cases a with
    | notify i t | client i | wakeClient i timeout => cases ha
    | server =>
      simp only [step, serverStep, hpc, hstop, if_true, Option.some.injEq] at h
      subst h
      intro hlocked
      cases hlocked
    | wakeServer => simp [step, wakeServer, hpc] at h
    | handlerEnds e => simp [step, handlerEnds, hpc] at h
    | stop =>
      cases h
      simp [hpc]

/-- What the server can still take up once it is to stop. -/
def State.toTake (s : State) : Nat := taken s.log + s.server.mayTake.toNat

theorem stopping_step {s s' : State} {a : Act} (hstop : s.stopServer = true) (h : step s a = some s') :
    s'.stopServer = true ∧ s'.toTake ≤ s.toTake := by
  rcases step_by h with ⟨i, -, hm⟩ | ⟨-, hm⟩
  · rw [hm.taken_eq.2, State.toTake, hm.taken_eq.1, hm.server]
    exact ⟨hstop, Nat.le_refl _⟩
  · cases hm with
    | stop => exact ⟨rfl, Nat.le_refl _⟩
    | lock hpc => exact absurd rfl (head_stays_out h hstop hpc)
    | stopServer m hpc =>
      refine ⟨rfl, ?_⟩
      simp [hpc, State.toTake, Event.isTaken, ServerPc.mayTake]
    | exit hpc | flagged hpc | wait hpc | wake hpc | relock hpc | missing hpc | take m hpc | handle m t hpc | skip m hpc
    | returns k t m ok hpc | throws k t hpc | clear hpc =>
      refine ⟨hstop, ?_⟩
      simp [hpc, State.toTake, Event.isTaken, ServerPc.mayTake]

/-- The server has taken its `kCiVMsgStopServer`: it is to stop, and past the
point where it would take up another request. -/
theorem stopped_step {s s' : State} {a : Act}
    (hi : ∀ k, .stopped k ∈ s.log → s.stopServer = true ∧ s.server.mayTake = false) (h : step s a = some s') :
    ∀ k, .stopped k ∈ s'.log → s'.stopServer = true ∧ s'.server.mayTake = false := by
  intro k hk
  rcases step_by h with ⟨i, -, hm⟩ | ⟨-, hm⟩
  · rw [hm.taken_eq.2, hm.server]
    cases hm <;> first | exact hi k hk | exact hi k (by simpa using hk)
  · cases hm with
    | stop =>
      exact ⟨rfl, (hi k hk).2⟩
    | stopServer m hpc => exact ⟨rfl, rfl⟩
    | lock hpc => exact absurd rfl (head_stays_out h (hi k hk).1 hpc)
    | flagged hpc | wait hpc | wake hpc | relock hpc | missing hpc | take m hpc | skip m hpc =>
      have hnot := (hi k hk).2
      rw [hpc] at hnot
      cases hnot
    | handle m t hpc =>
      have hnot := (hi k (by simpa using hk)).2
      rw [hpc] at hnot
      cases hnot
    | returns j t m ok hpc => exact ⟨(hi k (by simpa using hk)).1, rfl⟩
    | exit hpc | throws j t hpc | clear hpc => exact ⟨(hi k hk).1, rfl⟩

theorem step_log {s s' : State} {a : Act} (h : step s a = some s') : s.log <:+ s'.log := by
  rcases step_by h with ⟨i, -, hm⟩ | ⟨-, hm⟩ <;>
    cases hm <;> first | exact List.suffix_refl _ | exact List.suffix_cons _ _

/-- A server that has been told to stop, by a signal or by a request, takes up
at most one more request, and none after the request to stop. -/
theorem stop_ends_service {s s' : State} {as : List Act} (h : Reachable step init s) (hstop : s.stopServer = true)
    (hr : run step s as = some s') :
    taken s'.log ≤ taken s.log + 1 ∧ ((∃ k, .stopped k ∈ s.log) → taken s'.log = taken s.log) := by
  have hle : s'.toTake ≤ s.toTake :=
    (run_keeps (I := fun t : State => t.stopServer = true ∧ t.toTake ≤ s.toTake)
      (fun t a t' hi ht => ⟨(stopping_step hi.1 ht).1, Nat.le_trans (stopping_step hi.1 ht).2 hi.2⟩) hr
      ⟨hstop, Nat.le_refl _⟩).2
  refine ⟨?_, fun ⟨k, hk⟩ => ?_⟩
  · have hone := Bool.toNat_le s.server.mayTake
    simp only [State.toTake] at hle
    omega
  · have hnone : s.server.mayTake = false :=
      (h.keeps (I := fun s => ∀ k, .stopped k ∈ s.log → s.stopServer = true ∧ s.server.mayTake = false)
        (fun _ _ _ => stopped_step) (fun _ hk => nomatch hk) k hk).2
    have hgrow : s.log <:+ s'.log :=
      run_keeps (I := fun t : State => s.log <:+ t.log) (fun t a t' hi ht => hi.trans (step_log ht)) hr
        (List.suffix_refl _)
    have hmono : taken s.log ≤ taken s'.log := hgrow.sublist.countP_le
    simp only [State.toTake, hnone, Bool.toNat_false] at hle
    omega

/-- A signal comes while the server sleeps; the request that wakes it is still
served. -/
theorem stop_ends_service_signal : ∃ s s', run step init [.server, .server, .stop] = some s ∧
    run step s ([.notify 7 .listVm] ++ List.replicate 6 (.client 7) ++ [.client 7, .wakeServer] ++
      List.replicate 3 .server) = some s' ∧ taken s'.log ≤ taken s.log + 1 := by
  have hpc : (run step init [.server, .server, .stop]).map State.stopServer = some true := rfl
  obtain ⟨s, hs, hstop⟩ := Option.map_eq_some_iff.1 hpc
  have hr : (run step init ([.server, .server, .stop] ++ ([.notify 7 .listVm] ++ List.replicate 6 (.client 7) ++
      [.client 7, .wakeServer] ++ List.replicate 3 .server))).map State.server = some (.handling 0 .listVm) := rfl
  obtain ⟨s', hs', -⟩ := Option.map_eq_some_iff.1 hr
  obtain ⟨t, ht, hr⟩ := run_append.1 hs'
  cases hs.symm.trans ht
  exact ⟨s, s', hs, hr, (stop_ends_service ⟨_, hs⟩ hstop hr).1⟩

/-! ## A client that dies -/

/-- Since `s₀` nobody but client `i`, which has stood still in call `c`, has been
served or has come back from a call it was in. -/
structure Wedged (i : Nat) (c : Call) (s₀ s : State) : Prop where
  dead : s.client i = s₀.client i
  handler : ∀ k t, .handler k t ∈ s.log → .handler k t ∈ s₀.log ∨ k = c.id
  ret : ∀ k t b, .ret k t b ∈ s.log → .ret k t b ∈ s₀.log ∨ b = false ∧ s.syncGone = true
  call : ∀ j d, (s₀.client j).call = some d → (s.client j).call = some d

theorem wedged_client {s₀ s s' : State} {i j : Nat} {c : Call} (hv : Inv s) (hi : Wedged i c s₀ s)
    (hm : (s.client i).holdsMutex = true) (hj : j ≠ i) (h : ClientMove s j s') : Wedged i c s₀ s' := by
  have hout : (s.client j).holdsMutex = false :=
    Bool.eq_false_iff.2 fun hjm => hj (hv.locks.same_client hjm hm)
  have hother : ∀ l, l ≠ j → s'.client l = s.client l := fun l => h.other
  cases h with
  | refused t hpc hgone =>
    refine ⟨hi.dead, fun k u hk => hi.handler k u (by simpa using hk), fun k u b hk => ?_, hi.call⟩
    rcases List.mem_cons.1 hk with he | hk
    · cases he
      exact .inr ⟨rfl, hgone⟩
    · exact hi.ret k u b hk
  | enter t hpc =>
    refine ⟨(hother i (Ne.symm hj)).trans hi.dead, hi.handler, hi.ret, fun l d hd => ?_⟩
    have hl := hi.call l d hd
    by_cases hlj : l = j
    · rw [hlj, hpc] at hl
      cases hl
    · rw [hother l hlj]
      exact hl
  | lock d hpc hfree =>
    have hheld := (hv.locks.mutex i).1 hm
    rw [hfree] at hheld
    cases hheld
  | construct d hpc | exists_ d m hpc | type d m hpc | payload d m hpc | lockCond d hpc | submit d hpc | wait d r hpc
  | leave d r hpc | wake d r timeout hpc | retry d r hpc | woken d r hpc | read d r m hpc | giveUp d r m hpc
  | destroy d ret hpc | unlockCond d ret hpc | unlock d ret hpc =>
    rw [hpc] at hout
    cases hout

theorem wedged_server {s₀ s s' : State} {i : Nat} {c : Call} (hv : Inv s) (hi : Wedged i c s₀ s)
    (hc : (s.client i).call = some c) (hm : (s.client i).holdsMutex = true) (h : ServerMove s s') :
    Wedged i c s₀ s' := by
  cases h with
  | handle m t hpc hmsg =>
    -- The message in the slot is the one of the client that holds `mutex`.
    obtain ⟨j, d, hd, hw, hid⟩ := hv.slot.owner hmsg
    obtain rfl := hv.locks.only_msg hm hw
    cases hd.symm.trans hc
    refine ⟨hi.dead, fun k u hk => ?_, fun k u b hk => hi.ret k u b (by simpa using hk), hi.call⟩
    rcases List.mem_cons.1 hk with he | hk
    · cases he
      exact .inr hid
    · exact hi.handler k u hk
  | stopServer m hpc | returns k t m ok hpc =>
    exact ⟨hi.dead, fun k u hk => hi.handler k u (by simpa using hk), fun k u b hk => hi.ret k u b (by simpa using hk),
      hi.call⟩
  | exit hpc => exact ⟨hi.dead, hi.handler, fun k u b hk => (hi.ret k u b hk).imp id fun hb => ⟨hb.1, rfl⟩, hi.call⟩
  | stop | lock hpc | flagged hpc | wait hpc | wake hpc | relock hpc | missing hpc | take m hpc | skip m hpc
  | throws k t hpc | clear hpc => exact ⟨hi.dead, hi.handler, hi.ret, hi.call⟩

/-- A client that dies inside `Notify`, with `mutex` held, is the last one that
is served: from then on no other call reaches a handler or returns, but for
those that find no sync block because the server has gone. -/
theorem dead_client_blocks {s s' : State} {as : List Act} {i : Nat} {c : Call} (h : Reachable step init s)
    (hc : (s.client i).call = some c) (hm : (s.client i).holdsMutex = true)
    (hdead : ∀ a ∈ as, a.client? ≠ some i) (hr : run step s as = some s') :
    (∀ k t, .handler k t ∈ s'.log → .handler k t ∈ s.log ∨ k = c.id) ∧
      (∀ k t b, .ret k t b ∈ s'.log → .ret k t b ∈ s.log ∨ b = false ∧ s'.syncGone = true) ∧
      ∀ j d, (s.client j).call = some d → (s'.client j).call = some d := by
  have hw : Inv s' ∧ Wedged i c s s' := by
    refine run_keeps_guarded (I := fun t => Inv t ∧ Wedged i c s t) (G := fun _ a => a.client? ≠ some i) ?_ hr
      (guarded_of_forall hdead) ⟨reachable_inv h, rfl, fun _ _ => .inl, fun _ _ _ => .inl, fun _ _ => id⟩
    rintro t a t' ⟨hv, hw⟩ ha hs
    have htc : (t.client i).call = some c := by rw [hw.dead, hc]
    have htm : (t.client i).holdsMutex = true := by rw [hw.dead, hm]
    refine ⟨inv_step hv hs, ?_⟩
    rcases step_by hs with ⟨j, hj, hmove⟩ | ⟨-, hmove⟩
    · exact wedged_client hv hw htm (fun he => ha (he ▸ hj)) hmove
    · exact wedged_server hv hw htc htm hmove
  exact ⟨hw.2.handler, hw.2.ret, hw.2.call⟩

/-- Client 7 dies while it waits for its answer, and client 8 keeps trying. -/
theorem dead_client_blocks_second : ∃ s s', run step init (twoCallsRun.take 8) = some s ∧
    run step s ([.server, .server] ++ [.server, .server] ++ [.notify 8 .listVm]) = some s' ∧
    ∀ j d, (s.client j).call = some d → (s'.client j).call = some d := by
  have hpc : (run step init (twoCallsRun.take 8)).map (fun s => ((s.client 7).call, (s.client 7).holdsMutex)) =
      some (some ⟨0, .startVm⟩, true) := rfl
  obtain ⟨s, hs, hpc⟩ := Option.map_eq_some_iff.1 hpc
  obtain ⟨hc, hm⟩ := Prod.mk.inj hpc
  have hr : (run step init (twoCallsRun.take 8 ++ ([.server, .server] ++ [.server, .server] ++
      [.notify 8 .listVm]))).map State.server = some (.handling 0 .startVm) := rfl
  obtain ⟨s', hs', -⟩ := Option.map_eq_some_iff.1 hr
  obtain ⟨t, ht, hr⟩ := run_append.1 hs'
  cases hs.symm.trans ht
  exact ⟨s, s', hs, hr, (dead_client_blocks ⟨_, hs⟩ hc hm (by decide) hr).2.2⟩

end VmManager.Mailbox
