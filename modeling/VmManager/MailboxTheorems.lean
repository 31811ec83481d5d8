import Mathlib.Data.List.Basic
import VmManager.Mailbox
/-!
# Theorems about the mailbox

`step_move` sums up `Mailbox.lean`. The invariants come in layers, each kept
by every move given the ones before it: who holds the two mutexes, whose
`CivMsg` is in the slot, and what the log says about each `Notify` call.
-/
open Mutex Runs

namespace VmManager.Mailbox

/-! ## Who holds what -/

@[simp, grind =] def ClientPc.holdsMutex : ClientPc → Bool
  | .idle | .enter _ => false
  | .locked _ | .made _ | .typed _ | .filled _ | .holding _ | .loop _ _ | .asleep _ _ | .woken _ _ _ | .after _ _
  | .result _ _ | .gone _ _ | .unlock _ _ => true

@[simp, grind =] def ClientPc.holdsCond : ClientPc → Bool
  | .holding _ | .loop _ _ | .after _ _ | .result _ _ | .gone _ _ => true
  | .idle | .enter _ | .locked _ | .made _ | .typed _ | .filled _ | .asleep _ _ | .woken _ _ _ | .unlock _ _ => false

@[simp, grind =] def ServerPc.holdsCond : ServerPc → Bool
  | .locked | .find | .found | .handling _ _ | .clear => true
  | .head | .asleep | .woken | .exited => false

/-- The client's `CivMsg` is in the slot. -/
@[simp, grind =] def ClientPc.hasMsg : ClientPc → Bool
  | .made _ | .typed _ | .filled _ | .holding _ | .loop _ _ | .asleep _ _ | .woken _ _ _ | .after _ _
  | .result _ _ => true
  | .idle | .enter _ | .locked _ | .gone _ _ | .unlock _ _ => false

/-- The `Notify` call the client is in. -/
@[simp, grind =] def ClientPc.call : ClientPc → Option Call
  | .idle => none
  | .enter c | .locked c | .made c | .typed c | .filled c | .holding c | .loop c _ | .asleep c _ | .woken c _ _
  | .after c _ | .result c _ | .gone c _ | .unlock c _ => some c

/-- A client in `wait_for` has a retry left. -/
def ClientPc.counted : ClientPc → Bool
  | .asleep _ r | .woken _ r _ => r < kMaxRetryCount
  | _ => true

def State.holdsCond (s : State) : Holder → Bool
  | .server => s.server.holdsCond
  | .client i => (s.client i).holdsCond

/-- What holds of a client that moves from `p` to `p'`, and of those that stay,
holds of all. -/
theorem client_all {s s' : State} {i : Nat} {p p' : ClientPc} {R : ClientPc → ClientPc → Prop} (hpc : s.client i = p)
    (hcl : s'.client = Function.update s.client i p') (hr : R p p') (hrefl : ∀ p, R p p) (j : Nat) :
    R (s.client j) (s'.client j) := by
  rw [hcl]
  by_cases hj : j = i
  · subst hj
    rw [Function.update_self, hpc]
    exact hr
  · rw [Function.update_of_ne hj]
    exact hrefl _

structure Locks (s : State) : Prop where
  mutex : Held (fun i => (s.client i).holdsMutex) s.mutex
  cond : Held s.holdsCond s.mutexCond

theorem Locks.keep {s s' : State} (hi : Locks s) (hmutex : s'.mutex = s.mutex) (hcond : s'.mutexCond = s.mutexCond)
    (hserver : s'.server.holdsCond = s.server.holdsCond)
    (hclient : ∀ j, (s'.client j).holdsMutex = (s.client j).holdsMutex ∧
      (s'.client j).holdsCond = (s.client j).holdsCond) : Locks s' := by
  refine ⟨?_, ?_⟩
  · rw [hmutex]
    exact hi.mutex.keep fun j => (hclient j).1
  · rw [hcond]
    refine hi.cond.keep fun a => ?_
    cases a with
    | server => exact hserver
    | client j => exact (hclient j).2

theorem locks_client {s s' : State} {i : Nat} (hi : Locks s) (h : ClientMove s i s') : Locks s' := by
  have hmutex : ∀ {p p' : ClientPc}, s.client i = p → s'.client = Function.update s.client i p' →
      p'.holdsMutex = p.holdsMutex → ∀ j, (s'.client j).holdsMutex = (s.client j).holdsMutex := fun hpc hcl hp =>
    client_all (R := fun p p' => p'.holdsMutex = p.holdsMutex) hpc hcl hp fun _ => rfl
  have hcond : ∀ {p p' : ClientPc}, s.client i = p → s'.client = Function.update s.client i p' →
      s'.server = s.server → p'.holdsCond = p.holdsCond → ∀ a, s'.holdsCond a = s.holdsCond a := by
    intro p p' hpc hcl hserver hp a
    cases a with
    | server => rw [State.holdsCond, hserver]; rfl
    | client j => exact client_all (R := fun p p' => p'.holdsCond = p.holdsCond) hpc hcl hp (fun _ => rfl) j
  -- Taking or releasing `mutex_cond` does not concern the others.
  have hother : ∀ {p' : ClientPc}, s'.client = Function.update s.client i p' → s'.server = s.server →
      ∀ a, a ≠ .client i → s'.holdsCond a = s.holdsCond a := by
    intro p' hcl hserver a ha
    cases a with
    | server => rw [State.holdsCond, hserver]; rfl
    | client j =>
      rw [State.holdsCond, hcl, Function.update_of_ne (fun hj => ha (by rw [hj]))]
      rfl
  have hself : ∀ p' : ClientPc, Function.update s.client i p' i = p' := fun p' => Function.update_self ..
  cases h with
  | refused t => exact hi.keep rfl rfl rfl fun _ => ⟨rfl, rfl⟩
  | lock c hpc hfree =>
    refine ⟨(hfree ▸ hi.mutex).lock ?_ fun j hj => ?_, hi.cond.keep (hcond hpc rfl rfl rfl)⟩
    · simp only [State.goto, hself, ClientPc.holdsMutex]
    · simp only [State.goto, Function.update_of_ne hj]
  | unlock c ret hpc =>
    refine ⟨hi.mutex.unlock (a := i) ?_ ?_ fun j hj => ?_, hi.cond.keep (hcond hpc rfl rfl rfl)⟩
    · rw [hpc]; rfl
    · simp only [State.goto, hself, ClientPc.holdsMutex]
    · simp only [State.goto, Function.update_of_ne hj]
  | lockCond c hpc hfree | retry c r hpc hfree | woken c r hpc hfree =>
    refine ⟨hi.mutex.keep (hmutex hpc rfl rfl), (hfree ▸ hi.cond).lock ?_ (hother rfl rfl)⟩
    simp only [State.holdsCond, State.goto, hself, ClientPc.holdsCond]
  | wait c r hpc | unlockCond c ret hpc =>
    refine ⟨hi.mutex.keep (hmutex hpc rfl rfl), hi.cond.unlock (a := .client i) ?_ ?_ (hother rfl rfl)⟩
    · rw [State.holdsCond, hpc]; rfl
    · simp only [State.holdsCond, State.goto, hself, ClientPc.holdsCond]
  | enter t hpc | construct c hpc | exists_ c m hpc | type c m hpc | payload c m hpc | submit c hpc | leave c r hpc
  | wake c r timeout hpc | read c r m hpc | giveUp c r m hpc | destroy c ret hpc =>
    exact ⟨hi.mutex.keep (hmutex hpc rfl rfl), hi.cond.keep (hcond hpc rfl rfl rfl)⟩

theorem locks_server {s s' : State} (hi : Locks s) (h : ServerMove s s') : Locks s' := by
  have hother : s'.client = s.client → ∀ a, a ≠ .server → s'.holdsCond a = s.holdsCond a := by
    intro hcl a ha
    cases a with
    | server => exact absurd rfl ha
    | client j => rw [State.holdsCond, hcl]; rfl
  have hkeep : s'.client = s.client → s'.mutex = s.mutex → s'.mutexCond = s.mutexCond →
      s'.server.holdsCond = s.server.holdsCond → Locks s' := fun hcl hm hc hs =>
    hi.keep hm hc hs fun j => by rw [hcl]; exact ⟨rfl, rfl⟩
  cases h with
  | lock hpc hfree | relock hpc hfree => exact ⟨hi.mutex, (hfree ▸ hi.cond).lock rfl (hother rfl)⟩
  | wait hpc | missing hpc | throws k t hpc | clear hpc =>
    exact ⟨hi.mutex, hi.cond.unlock (a := .server) (by rw [State.holdsCond, hpc]; rfl) rfl (hother rfl)⟩
  | stop => exact hkeep rfl rfl rfl rfl
  | exit hpc | flagged hpc | wake hpc | take m hpc | stopServer m hpc | handle m t hpc | skip m hpc
  | returns k t m ok hpc => exact hkeep rfl rfl rfl (by rw [hpc]; rfl)

/-- Only one client at a time is between taking and releasing `mutex`. -/
theorem Locks.same_client {s : State} (hi : Locks s) {i j : Nat} (h : (s.client i).holdsMutex = true)
    (h' : (s.client j).holdsMutex = true) : i = j := hi.mutex.unique h h'

/-- The server does not hold `mutex_cond` while a client does. -/
theorem Locks.server_out {s : State} (hi : Locks s) {i : Nat} (h : (s.client i).holdsCond = true) :
    s.server.holdsCond = false := by
  refine Bool.eq_false_iff.2 fun h' => ?_
  have hc : s.holdsCond (.client i) = true := h
  have hs : s.holdsCond .server = true := h'
  cases hi.cond.unique hc hs

/-! ## Whose message is in the slot -/

theorem ClientPc.holdsMutex_of_hasMsg {p : ClientPc} (h : p.hasMsg = true) : p.holdsMutex = true := by
  cases p <;> simp_all

/-- While client `i` holds `mutex`, no other client has a message. -/
theorem Locks.only_msg {s : State} (hi : Locks s) {i j : Nat} (h : (s.client i).holdsMutex = true)
    (hj : (s.client j).hasMsg = true) : j = i := hi.same_client (ClientPc.holdsMutex_of_hasMsg hj) h

structure Slot (s : State) : Prop where
  own : ∀ i c, (s.client i).call = some c → (s.client i).hasMsg = true → ∃ m, s.msg = some m ∧ m.call = c.id
  owned : ∀ m, s.msg = some m → ∃ i, (s.client i).hasMsg = true
  untyped : ∀ i c m, s.client i = .made c → s.msg = some m → m.type = none
  found : s.server = .found → s.msg ≠ none
  handling : ∀ k t, s.server = .handling k t → ∃ m, s.msg = some m ∧ m.call = k ∧ m.type = some t ∧
    t.hasHandler = true

/-- From `p` to `p'` the client keeps its message as it is. -/
structure ClientPc.KeepsMsg (p p' : ClientPc) : Prop where
  hasMsg : p'.hasMsg = p.hasMsg
  call : p'.hasMsg = true → p'.call = p.call
  made : ∀ c, p' = .made c → p = .made c

theorem ClientPc.KeepsMsg.refl (p : ClientPc) : p.KeepsMsg p := ⟨rfl, fun _ => rfl, fun _ => id⟩

theorem Slot.keep {s s' : State} (hi : Slot s) (hmsg : s'.msg = s.msg) (hserver : s'.server = s.server)
    (hclient : ∀ j, (s.client j).KeepsMsg (s'.client j)) : Slot s' := by
  refine ⟨fun j c hc hw => ?_, fun m hm => ?_, fun j c m hp hm => ?_, ?_, ?_⟩
  · rw [hmsg]
    exact hi.own j c ((hclient j).call hw ▸ hc) ((hclient j).hasMsg ▸ hw)
  · rw [hmsg] at hm
    obtain ⟨j, hw⟩ := hi.owned m hm
    exact ⟨j, (hclient j).hasMsg.trans hw⟩
  · rw [hmsg] at hm
    exact hi.untyped j c m ((hclient j).made c hp) hm
  · rw [hserver, hmsg]; exact hi.found
  · rw [hserver, hmsg]; exact hi.handling

/-- The one client that has a message puts `m` in the slot. -/
theorem Slot.of_msg {s s' : State} {i : Nat} {p' : ClientPc} {m : CivMsg} {c : Call}
    (hcl : s'.client = Function.update s.client i p') (hone : ∀ j, (s.client j).hasMsg = true → j = i)
    (hmsg : s'.msg = some m) (hw : p'.hasMsg = true) (hc : p'.call = some c) (hid : m.call = c.id)
    (hmade : ∀ d, p' = .made d → m.type = none)
    (hh : ∀ k t, s'.server = .handling k t → m.call = k ∧ m.type = some t ∧ t.hasHandler = true) : Slot s' := by
  have hpc : s'.client i = p' := by rw [hcl, Function.update_self]
  have honly : ∀ j, (s'.client j).hasMsg = true → j = i := by
    intro j hj
    by_cases hne : j = i
    · exact hne
    · rw [hcl, Function.update_of_ne hne] at hj
      exact hone j hj
  refine ⟨fun j d hd hj => ?_, fun _ _ => ⟨i, by rw [hpc, hw]⟩, fun j d m' hp hm' => ?_, fun _ => ?_, fun k t hs => ?_⟩
  · rw [honly j hj, hpc, hc] at hd
    cases hd
    exact ⟨m, hmsg, hid⟩
  · rw [honly j (by rw [hp]; rfl), hpc] at hp
    rw [hmsg] at hm'
    cases hm'
    exact hmade d hp
  · rw [hmsg]; exact nofun
  · exact ⟨m, hmsg, hh k t hs⟩

theorem slot_client {s s' : State} {i : Nat} (hl : Locks s) (hi : Slot s) (h : ClientMove s i s') : Slot s' := by
  have hone : ∀ {p : ClientPc}, s.client i = p → p.holdsMutex = true → ∀ j, (s.client j).hasMsg = true → j = i :=
    fun hpc hp j hj => hl.only_msg (by rw [hpc]; exact hp) hj
  cases h with
  | refused t => exact hi.keep rfl rfl fun _ => .refl _
  | construct c hpc hm =>
    refine .of_msg rfl (hone hpc rfl) rfl rfl rfl rfl (fun _ _ => rfl) fun k t hs => ?_
    obtain ⟨m', hm', -⟩ := hi.handling k t hs
    rw [hm] at hm'
    cases hm'
  | type c m hpc hm =>
    obtain ⟨m', hm', hid⟩ := hi.own i c (by rw [hpc]; rfl) (by rw [hpc]; rfl)
    cases hm.symm.trans hm'
    refine .of_msg rfl (hone hpc rfl) rfl rfl rfl hid nofun fun k t hs => ?_
    -- A handler runs only on a message with a type.
    obtain ⟨m', hm', -, ht, -⟩ := hi.handling k t hs
    cases hm.symm.trans hm'
    rw [hi.untyped i c m hpc hm] at ht
    cases ht
  | payload c m hpc hm =>
    obtain ⟨m', hm', hid⟩ := hi.own i c (by rw [hpc]; rfl) (by rw [hpc]; rfl)
    cases hm.symm.trans hm'
    refine .of_msg rfl (hone hpc rfl) rfl rfl rfl hid nofun fun k t hs => ?_
    obtain ⟨m', hm', hh⟩ := hi.handling k t hs
    cases hm.symm.trans hm'
    exact hh
  | destroy c ret hpc =>
    have hout := hl.server_out (i := i) (by rw [hpc]; rfl)
    have hnone : ∀ j, ¬ (Function.update s.client i (.gone c ret) j).hasMsg = true := by
      intro j hj
      by_cases hne : j = i
      · rw [hne, Function.update_self] at hj; cases hj
      · rw [Function.update_of_ne hne] at hj
        exact hne (hone hpc rfl j hj)
    refine ⟨fun j d _ hj => absurd hj (hnone j), nofun, fun _ _ _ _ => nofun, fun hs => ?_, fun k t hs => ?_⟩
    · rw [show s.server = .found from hs] at hout; cases hout
    · rw [show s.server = .handling k t from hs] at hout; cases hout
  | enter t hpc | lock c hpc | exists_ c m hpc | unlockCond c ret hpc | unlock c ret hpc =>
    exact hi.keep rfl rfl (client_all hpc rfl ⟨rfl, nofun, nofun⟩ .refl)
  | lockCond c hpc | submit c hpc | wait c r hpc | leave c r hpc | wake c r timeout hpc | retry c r hpc
  | woken c r hpc | read c r m hpc | giveUp c r m hpc =>
    exact hi.keep rfl rfl (client_all hpc rfl ⟨rfl, fun _ => rfl, nofun⟩ .refl)

/-- The server moves on, and no handler is called. -/
theorem Slot.serve {s s' : State} (hi : Slot s) (hmsg : s'.msg = s.msg) (hclient : s'.client = s.client)
    (hf : s'.server = .found → s.msg ≠ none) (hh : ∀ k t, s'.server ≠ .handling k t) : Slot s' := by
  refine ⟨?_, ?_, ?_, ?_, fun k t hs => absurd hs (hh k t)⟩
  · rw [hclient, hmsg]; exact hi.own
  · rw [hclient, hmsg]; exact hi.owned
  · rw [hclient, hmsg]; exact hi.untyped
  · rw [hmsg]; exact hf

/-- The server answers in the slot. -/
theorem Slot.answer {s s' : State} (hi : Slot s) {m : CivMsg} {t : CivMsgType} {r : Option CivMsgType}
    (hm : s.msg = some m) (ht : m.type = some t) (hmsg : s'.msg = some { m with type := r })
    (hclient : s'.client = s.client) (hs : s'.server = .clear) : Slot s' := by
  refine ⟨fun i c hc hw => ?_, fun _ _ => ?_, fun i c _ hp _ => ?_, ?_, ?_⟩
  · rw [hclient] at hc hw
    obtain ⟨m', hm', hid⟩ := hi.own i c hc hw
    cases hm.symm.trans hm'
    exact ⟨_, hmsg, hid⟩
  · rw [hclient]; exact hi.owned m hm
  · -- There is a type already.
    rw [hclient] at hp
    rw [hi.untyped i c m hp hm] at ht
    cases ht
  · rw [hs]; exact nofun
  · rw [hs]; exact nofun

theorem slot_server {s s' : State} (hi : Slot s) (h : ServerMove s s') : Slot s' := by
  cases h with
  | stop => exact ⟨hi.own, hi.owned, hi.untyped, hi.found, hi.handling⟩
  | take m hpc hm => exact hi.serve rfl rfl (fun _ => by rw [hm]; exact nofun) nofun
  | handle m t hpc hm ht hh =>
    refine ⟨hi.own, hi.owned, hi.untyped, nofun, fun k t' hs => ?_⟩
    cases hs
    exact ⟨m, hm, rfl, ht, hh⟩
  | stopServer m hpc hm ht => exact hi.answer hm ht rfl rfl rfl
  | returns k t m ok hpc hm =>
    obtain ⟨m', hm', -, ht, -⟩ := hi.handling k t hpc
    cases hm.symm.trans hm'
    exact hi.answer hm ht rfl rfl rfl
  | exit | lock | flagged | wait | wake | relock | missing | skip | throws | clear => exact hi.serve rfl rfl nofun nofun

/-! ## What the log says about each call -/

def Event.isHandlerOf (k : Nat) : Event → Bool
  | .handler k' _ => k' == k
  | _ => false

/-- How often the server has called a handler on the `CivMsg` of call `k`. -/
def runs (log : List Event) (k : Nat) : Nat := log.countP (Event.isHandlerOf k)

@[simp] theorem runs_nil (k : Nat) : runs [] k = 0 := rfl

@[simp, grind =] theorem runs_handler (log : List Event) (k k' : Nat) (t : CivMsgType) :
    runs (.handler k' t :: log) k = if k' = k then runs log k + 1 else runs log k := by
  by_cases hk : k' = k <;> simp [runs, Event.isHandlerOf, hk]

@[simp, grind =] theorem runs_handled (log : List Event) (k k' : Nat) (ok : Bool) :
    runs (.handled k' ok :: log) k = runs log k := rfl

@[simp, grind =] theorem runs_stopped (log : List Event) (k k' : Nat) : runs (.stopped k' :: log) k = runs log k := rfl

@[simp, grind =] theorem runs_reply (log : List Event) (k k' o : Nat) : runs (.reply k' o :: log) k = runs log k := rfl

@[simp, grind =] theorem runs_ret (log : List Event) (k k' : Nat) (t : CivMsgType) (b : Bool) :
    runs (.ret k' t b :: log) k = runs log k := rfl

theorem not_handler_of_runs {log : List Event} {k : Nat} (h : runs log k = 0) (t : CivMsgType) :
    Event.handler k t ∉ log := by
  intro hm
  rw [runs, List.countP_eq_zero] at h
  exact h _ hm (by simp [Event.isHandlerOf])

/-- The handler of the call ran and returned 0, or the server took its
`kCiVMsgStopServer`. -/
def Served (log : List Event) (c : Call) : Prop :=
  (.handler c.id c.type ∈ log ∧ .handled c.id true ∈ log) ∨ (c.type = .stopServer ∧ .stopped c.id ∈ log)

theorem Served.cons {log : List Event} {c : Call} (h : Served log c) (e : Event) : Served (e :: log) c :=
  h.imp (fun h => ⟨List.mem_cons_of_mem _ h.1, List.mem_cons_of_mem _ h.2⟩)
    (fun h => ⟨h.1, List.mem_cons_of_mem _ h.2⟩)

/-- The client has not written its type yet. -/
@[simp, grind =] def ClientPc.unsent : ClientPc → Bool
  | .enter _ | .locked _ | .made _ => true
  | .idle | .typed _ | .filled _ | .holding _ | .loop _ _ | .asleep _ _ | .woken _ _ _ | .after _ _ | .result _ _
  | .gone _ _ | .unlock _ _ => false

/-- The client has read a reply that makes `Notify` return true. -/
@[simp, grind =] def ClientPc.success : ClientPc → Bool
  | .result _ ret | .gone _ ret | .unlock _ ret => ret
  | .idle | .enter _ | .locked _ | .made _ | .typed _ | .filled _ | .holding _ | .loop _ _ | .asleep _ _
  | .woken _ _ _ | .after _ _ => false

/-- Where the request of call `c` stands, seen from its `CivMsg`: untouched, in
its handler (or left there by an exception), or answered. -/
def Phase (s : State) (c : Call) (m : CivMsg) : Prop :=
  (m.type = some c.type ∧ (runs s.log c.id = 0 ∨ s.server = .handling c.id c.type ∨ s.server = .exited)) ∨
  (m.type = some .respondSuccess ∧ Served s.log c) ∨ m.type = some .respondFail

/-- The calls in progress are numbered apart, and numbers from `calls` on are
unused. -/
structure Calls (s : State) : Prop where
  lt : ∀ i c, (s.client i).call = some c → c.id < s.calls
  inj : ∀ i j c d, (s.client i).call = some c → (s.client j).call = some d → c.id = d.id → i = j
  unused : ∀ k, s.calls ≤ k → runs s.log k = 0
  done : ∀ k t b, .ret k t b ∈ s.log → k < s.calls ∧ ∀ i c, (s.client i).call = some c → c.id ≠ k

structure History (s : State) : Prop where
  unsent : ∀ i c, (s.client i).call = some c → (s.client i).unsent = true → runs s.log c.id = 0
  once : ∀ k, runs s.log k ≤ 1
  kind : ∀ i c t, (s.client i).call = some c → .handler c.id t ∈ s.log → t = c.type
  phase : ∀ i c m, (s.client i).call = some c → (s.client i).hasMsg = true → (s.client i).unsent = false →
    s.msg = some m → Phase s c m
  success : ∀ i c, (s.client i).call = some c → (s.client i).success = true → c.type.isOperation = true →
    Served s.log c
  ret : ∀ k t t' b, .ret k t b ∈ s.log → .handler k t' ∈ s.log → t' = t
  served : ∀ k t, .ret k t true ∈ s.log → t.isOperation = true → Served s.log ⟨k, t⟩
  reply : ∀ k o, .reply k o ∈ s.log → o = k
  running : ∀ k t, s.server = .handling k t → .handler k t ∈ s.log

/-- Nothing is started, and nothing is logged that counts here. -/
theorem Calls.keep {s s' : State} (hi : Calls s) (hcalls : s'.calls = s.calls)
    (hcall : ∀ j c, (s'.client j).call = some c → (s.client j).call = some c)
    (hruns : ∀ k, runs s'.log k = runs s.log k) (hret : ∀ k t b, .ret k t b ∈ s'.log → .ret k t b ∈ s.log) :
    Calls s' := by
  refine ⟨fun j c hc => ?_, fun j j' c d hc hd => ?_, fun k hk => ?_, fun k t b hm => ?_⟩
  · rw [hcalls]; exact hi.lt j c (hcall j c hc)
  · exact hi.inj j j' c d (hcall j c hc) (hcall j' d hd)
  · rw [hruns]; exact hi.unused k (hcalls ▸ hk)
  · rw [hcalls]
    obtain ⟨hlt, hne⟩ := hi.done k t b (hret k t b hm)
    exact ⟨hlt, fun j c hc => hne j c (hcall j c hc)⟩

theorem calls_client {s s' : State} {i : Nat} (hi : Calls s) (h : ClientMove s i s') : Calls s' := by
  have hcall : ∀ {p p' : ClientPc}, s.client i = p → s'.client = Function.update s.client i p' →
      (∀ c, p'.call = some c → p.call = some c) → ∀ j c, (s'.client j).call = some c → (s.client j).call = some c :=
    fun hpc hcl hp => client_all (R := fun p p' => ∀ c, p'.call = some c → p.call = some c) hpc hcl hp fun _ _ => id
  cases h with
  | refused t =>
    refine ⟨fun j c hc => Nat.lt_succ_of_lt (hi.lt j c hc), hi.inj, fun k hk => ?_, fun k t' b hm => ?_⟩
    · rw [runs_ret]
      exact hi.unused k (Nat.le_of_succ_le hk)
    · rcases List.mem_cons.1 hm with he | hm
      · cases he
        exact ⟨Nat.lt_succ_self _, fun j c hc => Nat.ne_of_lt (hi.lt j c hc)⟩
      · obtain ⟨hlt, hne⟩ := hi.done k t' b hm
        exact ⟨Nat.lt_succ_of_lt hlt, hne⟩
  | enter t hpc =>
    -- The new call has the number `s.calls`, and every other a smaller one.
    have hnew : ∀ j c, (Function.update s.client i (.enter ⟨s.calls, t⟩) j).call = some c →
        (j = i ∧ c.id = s.calls) ∨ (s.client j).call = some c := by
      intro j c hc
      by_cases hj : j = i
      · rw [hj, Function.update_self] at hc
        cases hc
        exact .inl ⟨hj, rfl⟩
      · rw [Function.update_of_ne hj] at hc
        exact .inr hc
    refine ⟨fun j c hc => ?_, fun j j' c d hc hd he => ?_, fun k hk => hi.unused k (Nat.le_of_succ_le hk),
      fun k t' b hm => ?_⟩
    · rcases hnew j c hc with ⟨-, hid⟩ | hc
      · rw [hid]; exact Nat.lt_succ_self _
      · exact Nat.lt_succ_of_lt (hi.lt j c hc)
    · rcases hnew j c hc with ⟨hj, hid⟩ | hc <;> rcases hnew j' d hd with ⟨hj', hid'⟩ | hd
      · exact hj.trans hj'.symm
      · have hlt := hi.lt j' d hd; omega
      · have hlt := hi.lt j c hc; omega
      · exact hi.inj j j' c d hc hd he
    · obtain ⟨hlt, hne⟩ := hi.done k t' b hm
      refine ⟨Nat.lt_succ_of_lt hlt, fun j c hc => ?_⟩
      rcases hnew j c hc with ⟨-, hid⟩ | hc
      · omega
      · exact hne j c hc
  | unlock c ret hpc =>
    have hc : (s.client i).call = some c := by rw [hpc]; rfl
    have hold := hcall hpc rfl nofun
    refine ⟨fun j d hd => hi.lt j d (hold j d hd), fun j j' d e hd he => hi.inj j j' d e (hold j d hd) (hold j' e he),
      fun k hk => ?_, fun k t b hm => ?_⟩
    · rw [runs_ret]; exact hi.unused k hk
    · rcases List.mem_cons.1 hm with he | hm
      · cases he
        refine ⟨hi.lt i c hc, fun j d hd hid => ?_⟩
        obtain rfl := hi.inj j i d c (hold j d hd) hc hid
        simp only [State.goto, Function.update_self] at hd
        cases hd
      · obtain ⟨hlt, hne⟩ := hi.done k t b hm
        exact ⟨hlt, fun j d hd => hne j d (hold j d hd)⟩
  | read c r m hpc =>
    refine hi.keep rfl (hcall hpc rfl fun _ => id) (fun k => runs_reply ..) fun k t b hm => ?_
    rcases List.mem_cons.1 hm with he | hm
    · cases he
    · exact hm
  | lock c hpc | construct c hpc | exists_ c m hpc | type c m hpc | payload c m hpc | lockCond c hpc | submit c hpc
  | wait c r hpc | leave c r hpc | wake c r timeout hpc | retry c r hpc | woken c r hpc | giveUp c r m hpc
  | destroy c ret hpc | unlockCond c ret hpc =>
    exact hi.keep rfl (hcall hpc rfl fun _ => id) (fun _ => rfl) fun _ _ _ => id

theorem ClientPc.call_of_hasMsg {p : ClientPc} (h : p.hasMsg = true) : ∃ c, p.call = some c := by
  cases p <;> simp_all

/-- The message in the slot belongs to a call in progress. -/
theorem Slot.owner {s : State} (hi : Slot s) {m : CivMsg} (hm : s.msg = some m) :
    ∃ i c, (s.client i).call = some c ∧ (s.client i).hasMsg = true ∧ m.call = c.id := by
  obtain ⟨i, hw⟩ := hi.owned m hm
  obtain ⟨c, hc⟩ := ClientPc.call_of_hasMsg hw
  obtain ⟨m', hm', hid⟩ := hi.own i c hc hw
  rw [hm, Option.some.injEq] at hm'
  exact ⟨i, c, hc, hw, hm' ▸ hid⟩

theorem calls_server {s s' : State} (hs : Slot s) (hi : Calls s) (h : ServerMove s s') : Calls s' := by
  have hret : ∀ {e : Event}, (∀ k t b, e ≠ .ret k t b) → ∀ k t b, .ret k t b ∈ e :: s.log → .ret k t b ∈ s.log := by
    intro e he k t b hm
    rcases List.mem_cons.1 hm with hm | hm
    · exact absurd hm.symm (he k t b)
    · exact hm
  cases h with
  | handle m t _ hm =>
    obtain ⟨i, c, hc, -, hid⟩ := hs.owner hm
    have hlt := hi.lt i c hc
    refine ⟨hi.lt, hi.inj, fun k hk => ?_, fun k t' b he => hi.done k t' b (hret (e := .handler m.call t) nofun k t' b he)⟩
    rw [runs_handler, if_neg (by dsimp only at hk; omega)]
    exact hi.unused k hk
  | stopServer m =>
    exact hi.keep rfl (fun _ _ => id) (fun _ => runs_stopped ..) (hret (e := .stopped m.call) nofun)
  | returns k t m ok =>
    exact hi.keep rfl (fun _ _ => id) (fun _ => runs_handled ..) (hret (e := .handled k ok) nofun)
  | stop | exit | lock | flagged | wait | wake | relock | missing | take | skip | throws | clear =>
    exact hi.keep rfl (fun _ _ => id) (fun _ => rfl) fun _ _ _ => id

theorem Phase.frame {s s' : State} {c : Call} {m : CivMsg} (h : Phase s c m)
    (hserver : (s.server = .handling c.id c.type ∨ s.server = .exited) → s'.server = s.server)
    (hruns : runs s'.log c.id = runs s.log c.id) (hserved : Served s.log c → Served s'.log c) : Phase s' c m := by
  rcases h with ⟨ht, hr | hs⟩ | ⟨ht, hs⟩ | ht
  · exact .inl ⟨ht, .inl (hruns.trans hr)⟩
  · exact .inl ⟨ht, .inr (hserver hs ▸ hs)⟩
  · exact .inr (.inl ⟨ht, hserved hs⟩)
  · exact .inr (.inr ht)

/-- What a client that reads success knows. -/
theorem Phase.served {s : State} {c : Call} {m : CivMsg} (h : Phase s c m) (hm : m.type = some .respondSuccess)
    (hop : c.type.isOperation = true) : Served s.log c := by
  rcases h with ⟨ht, -⟩ | ⟨-, hs⟩ | ht
  · rw [hm, Option.some.injEq] at ht
    rw [← ht] at hop
    cases hop
  · exact hs
  · rw [hm] at ht
    cases ht

/-- The calls go on, nothing is logged, and what is said of the messages and
the replies still has to be shown. -/
theorem History.move {s s' : State} (hi : History s) (hlog : s'.log = s.log)
    (hrun : ∀ k t, s'.server = .handling k t → s.server = .handling k t)
    (hcall : ∀ j c, (s'.client j).call = some c → (s.client j).call = some c)
    (hunsent : ∀ j, (s'.client j).unsent = true → (s.client j).unsent = true)
    (hphase : ∀ j c m, (s'.client j).call = some c → (s'.client j).hasMsg = true → (s'.client j).unsent = false →
      s'.msg = some m → Phase s' c m)
    (hsucc : ∀ j c, (s'.client j).call = some c → (s'.client j).success = true → c.type.isOperation = true →
      Served s.log c) : History s' := by
  refine ⟨?_, ?_, ?_, hphase, ?_, ?_, ?_, ?_, ?_⟩ <;> rw [hlog]
  · exact fun j c hc hu => hi.unsent j c (hcall j c hc) (hunsent j hu)
  · exact hi.once
  · exact fun j c t hc => hi.kind j c t (hcall j c hc)
  · exact hsucc
  · exact hi.ret
  · exact hi.served
  · exact hi.reply
  · exact fun k t hs => hi.running k t (hrun k t hs)

/-- Anything but the call of a handler is logged. -/
theorem History.report {s s' : State} (hi : History s) {e : Event} (hlog : s'.log = e :: s.log)
    (hserver : s'.server = s.server) (hmsg : s'.msg = s.msg) (hclient : s'.client = s.client)
    (hne : ∀ k t, e ≠ .handler k t)
    (hret : ∀ k t b, e = .ret k t b → (∀ t', .handler k t' ∈ s.log → t' = t) ∧
      (b = true → t.isOperation = true → Served s.log ⟨k, t⟩))
    (hreply : ∀ k o, e = .reply k o → o = k) : History s' := by
  have hold : ∀ k t, .handler k t ∈ e :: s.log → .handler k t ∈ s.log := by
    intro k t hm
    rcases List.mem_cons.1 hm with he | hm
    · exact absurd he.symm (hne k t)
    · exact hm
  have hruns : ∀ k, runs (e :: s.log) k = runs s.log k := by
    intro k
    cases e with
    | handler k' t => exact absurd rfl (hne k' t)
    | _ => rfl
  have hphase : ∀ j c m, (s'.client j).call = some c → (s'.client j).hasMsg = true → (s'.client j).unsent = false →
      s'.msg = some m → Phase s' c m := by
    rw [hclient, hmsg]
    intro j c m hc hw hu hm
    refine (hi.phase j c m hc hw hu hm).frame (fun _ => hserver) ?_ ?_ <;> rw [hlog]
    · exact hruns _
    · exact (·.cons e)
  refine ⟨?_, ?_, ?_, hphase, ?_, ?_, ?_, ?_, ?_⟩ <;> rw [hlog]
  · rw [hclient]; exact fun j c hc hu => (hruns _).trans (hi.unsent j c hc hu)
  · exact fun k => Nat.le_trans (Nat.le_of_eq (hruns k)) (hi.once k)
  · rw [hclient]; exact fun j c t hc hm => hi.kind j c t hc (hold _ t hm)
  · rw [hclient]; exact fun j c hc hs hop => (hi.success j c hc hs hop).cons e
  · intro k t t' b hm hh
    rcases List.mem_cons.1 hm with he | hm
    · exact (hret k t b he.symm).1 t' (hold k t' hh)
    · exact hi.ret k t t' b hm (hold k t' hh)
  · intro k t hm hop
    refine Served.cons ?_ e
    rcases List.mem_cons.1 hm with he | hm
    · exact (hret k t true he.symm).2 rfl hop
    · exact hi.served k t hm hop
  · intro k o hm
    rcases List.mem_cons.1 hm with he | hm
    · exact hreply k o he.symm
    · exact hi.reply k o hm
  · rw [hserver]; exact fun k t hs => List.mem_cons_of_mem _ (hi.running k t hs)

/-- From `p` to `p'` the client stays in its call, or leaves it. -/
structure ClientPc.KeepsCall (p p' : ClientPc) : Prop where
  call : ∀ c, p'.call = some c → p.call = some c
  unsent : p'.unsent = true → p.unsent = true
  hasMsg : p'.hasMsg = true → p.hasMsg = true ∧ p'.unsent = p.unsent
  success : p'.success = true → p.success = true

theorem ClientPc.KeepsCall.refl (p : ClientPc) : p.KeepsCall p := ⟨fun _ => id, id, fun h => ⟨h, rfl⟩, id⟩

theorem History.keep {s s' : State} (hi : History s) (hlog : s'.log = s.log) (hserver : s'.server = s.server)
    (hmsg : s'.msg = s.msg) (hclient : ∀ j, (s.client j).KeepsCall (s'.client j)) : History s' := by
  refine hi.move hlog (fun _ _ => hserver ▸ id) (fun j => (hclient j).call) (fun j => (hclient j).unsent)
    (fun j c m hc hw hu hm => ?_) fun j c hc hs => hi.success j c ((hclient j).call c hc) ((hclient j).success hs)
  obtain ⟨hw', hu'⟩ := (hclient j).hasMsg hw
  have hp := hi.phase j c m ((hclient j).call c hc) hw' (hu' ▸ hu) (hmsg ▸ hm)
  exact hp.frame (fun _ => hserver) (by rw [hlog]) (by rw [hlog]; exact id)

/-- The moves that change the message: only its client's call is concerned. -/
theorem History.touch {s s' : State} {i : Nat} {p p' : ClientPc} {c : Call} (hi : History s) (hl : Locks s)
    (hpc : s.client i = p) (hcl : s'.client = Function.update s.client i p') (hp : p.holdsMutex = true)
    (hlog : s'.log = s.log) (hserver : s'.server = s.server) (hcp : p.call = some c) (hcp' : p'.call = some c)
    (hun : p'.unsent = true → p.unsent = true) (hsucc : p'.success = true → p.success = true)
    (hphase : p'.hasMsg = true → p'.unsent = false → ∀ m, s'.msg = some m → Phase s' c m) : History s' := by
  have hpc' : s'.client i = p' := by rw [hcl, Function.update_self]
  have hcall : ∀ j d, (s'.client j).call = some d → (s.client j).call = some d :=
    client_all (R := fun p p' => ∀ d, p'.call = some d → p.call = some d) hpc hcl
      (fun d hd => hcp.trans (hcp'.symm.trans hd)) fun _ _ => id
  refine hi.move hlog (fun _ _ => hserver ▸ id) hcall
    (client_all (R := fun p p' => p'.unsent = true → p.unsent = true) hpc hcl hun fun _ => id)
    (fun j d m hd hw hu hm => ?_) fun j d hd hsc => ?_
  · by_cases hj : j = i
    · subst hj
      rw [hpc'] at hd hw hu
      cases hcp'.symm.trans hd
      exact hphase hw hu m hm
    · rw [hcl, Function.update_of_ne hj] at hw
      exact absurd (hl.only_msg (by rw [hpc]; exact hp) hw) hj
  · exact hi.success j d (hcall j d hd)
      (client_all (R := fun p p' => p'.success = true → p.success = true) hpc hcl hsucc (fun _ => id) j hsc)

/-- A new call, for which nothing has run. -/
theorem History.enter {s : State} (hi : History s) (hc : Calls s) (i : Nat) (t : CivMsgType) :
    History { s.goto i (.enter ⟨s.calls, t⟩) with calls := s.calls + 1 } := by
  have hnew := hc.unused s.calls (Nat.le_refl _)
  refine ⟨?_, hi.once, ?_, ?_, ?_, hi.ret, hi.served, hi.reply, hi.running⟩
  · refine (Function.forall_update_iff s.client
      fun _ p => ∀ c, p.call = some c → p.unsent = true → runs s.log c.id = 0).2 ⟨?_, fun j _ => hi.unsent j⟩
    rintro c hcall -
    cases hcall
    exact hnew
  · refine (Function.forall_update_iff s.client
      fun _ p => ∀ c t', p.call = some c → .handler c.id t' ∈ s.log → t' = c.type).2 ⟨?_, fun j _ => hi.kind j⟩
    intro c t' hcall hm
    cases hcall
    exact absurd hm (not_handler_of_runs hnew t')
  · exact (Function.forall_update_iff s.client fun _ p => ∀ c m, p.call = some c → p.hasMsg = true → p.unsent = false →
      s.msg = some m → Phase s c m).2 ⟨(fun _ _ _ hw => nomatch hw), fun j _ => hi.phase j⟩
  · exact (Function.forall_update_iff s.client fun _ p => ∀ c, p.call = some c → p.success = true →
      c.type.isOperation = true → Served s.log c).2 ⟨(fun _ _ hsc => nomatch hsc), fun j _ => hi.success j⟩

theorem history_client {s s' : State} {i : Nat} (hl : Locks s) (hs : Slot s) (hc : Calls s) (hi : History s)
    (h : ClientMove s i s') : History s' := by
  cases h with
  | refused t =>
    refine hi.report rfl rfl rfl rfl nofun (fun k t' b he => ?_) nofun
    cases he
    exact ⟨fun t' hm => absurd hm (not_handler_of_runs (hc.unused _ (Nat.le_refl _)) t'), nofun⟩
  | enter t hpc => exact hi.enter hc i t
  | construct c hpc => exact hi.touch hl hpc rfl rfl rfl rfl rfl rfl (fun _ => rfl) nofun nofun
  | type c m hpc hm =>
    refine hi.touch hl hpc rfl rfl rfl rfl rfl rfl nofun nofun fun _ _ m' hm' => ?_
    cases hm'
    exact .inl ⟨rfl, .inl (hi.unsent i c (by rw [hpc]; rfl) (by rw [hpc]; rfl))⟩
  | payload c m hpc hm =>
    refine hi.touch hl hpc rfl rfl rfl rfl rfl rfl nofun nofun fun _ _ m' hm' => ?_
    cases hm'
    exact hi.phase i c m (by rw [hpc]; rfl) (by rw [hpc]; rfl) (by rw [hpc]; rfl) hm
  | destroy c ret hpc => exact hi.touch hl hpc rfl rfl rfl rfl rfl rfl nofun id nofun
  | read c r m hpc hm =>
    have hcall : (s.client i).call = some c := by rw [hpc]; rfl
    have hphase := hi.phase i c m hcall (by rw [hpc]; rfl) (by rw [hpc]; rfl) hm
    obtain ⟨m', hm', hid⟩ := hs.own i c hcall (by rw [hpc]; rfl)
    cases hm.symm.trans hm'
    have hmid : History (s.goto i (.result c (m.type == some .respondSuccess))) := by
      refine hi.move rfl (fun _ _ => id)
        (client_all (R := fun p p' => ∀ d, p'.call = some d → p.call = some d) hpc rfl (fun _ => id) fun _ _ => id)
        (client_all (R := fun p p' => p'.unsent = true → p.unsent = true) hpc rfl nofun fun _ => id)
        (fun j d m' hd hw hu hm' => ?_) fun j d hd hsc hop => ?_ <;>
        simp only [State.goto] at * <;> by_cases hj : j = i
      · subst hj
        rw [Function.update_self] at hd
        cases hd
        cases hm.symm.trans hm'
        exact hphase
      · rw [Function.update_of_ne hj] at hd hw hu
        exact hi.phase j d m' hd hw hu hm'
      · subst hj
        rw [Function.update_self] at hd hsc
        cases hd
        exact hphase.served (by simpa using hsc) hop
      · rw [Function.update_of_ne hj] at hd hsc
        exact hi.success j d hd hsc hop
    refine hmid.report rfl rfl rfl rfl nofun nofun fun k o he => ?_
    cases he
    exact hid
  | unlock c ret hpc =>
    have hcall : (s.client i).call = some c := by rw [hpc]; rfl
    have hmid : History { s.goto i .idle with mutex := none } :=
      hi.keep rfl rfl rfl (client_all hpc rfl ⟨nofun, nofun, nofun, nofun⟩ .refl)
    refine hmid.report rfl rfl rfl rfl nofun (fun k t b he => ?_) nofun
    cases he
    refine ⟨fun t' hm => hi.kind i c t' hcall hm, fun hb hop => ?_⟩
    exact hi.success i c hcall (by rw [hpc]; exact hb) hop
  | lock c hpc | exists_ c m hpc | unlockCond c ret hpc | lockCond c hpc | submit c hpc | wait c r hpc | leave c r hpc
  | wake c r timeout hpc | retry c r hpc | woken c r hpc | giveUp c r m hpc =>
    refine hi.keep rfl rfl rfl (client_all hpc rfl ⟨fun _ => id, ?_, ?_, ?_⟩ .refl)
    all_goals first | exact id | exact fun _ => ⟨rfl, rfl⟩ | exact fun _ => rfl | exact nofun

/-- When the server takes an operation from the slot, no handler has run for
that call yet, and the operation is the one its client asked for. -/
theorem fresh_request {s : State} (hs : Slot s) (hi : History s) (hf : s.server = .found) {m : CivMsg}
    {t : CivMsgType} (hm : s.msg = some m) (ht : m.type = some t) (hop : t.isOperation = true) :
    ∃ i c, (s.client i).call = some c ∧ (s.client i).hasMsg = true ∧ (s.client i).unsent = false ∧
      m.call = c.id ∧ c.type = t ∧ runs s.log c.id = 0 := by
  obtain ⟨i, c, hc, hw, hid⟩ := hs.owner hm
  have hu : (s.client i).unsent = false := by
    cases hp : s.client i with
    | made d => rw [hs.untyped i d m hp hm] at ht; cases ht
    | _ => simp_all
  refine ⟨i, c, hc, hw, hu, hid, ?_⟩
  rcases hi.phase i c m hc hw hu hm with ⟨hty, hr⟩ | ⟨hty, -⟩ | hty
  · rw [ht, Option.some.injEq] at hty
    refine ⟨hty.symm, hr.resolve_right ?_⟩
    simp [hf]
  · rw [ht, Option.some.injEq] at hty; subst hty; cases hop
  · rw [ht, Option.some.injEq] at hty; subst hty; cases hop

/-- The server moves on without a word, from a place where no handler runs, or
out of one with an exception. -/
theorem History.serve {s s' : State} (hi : History s) (hlog : s'.log = s.log) (hmsg : s'.msg = s.msg)
    (hclient : s'.client = s.client) (hh : ∀ k t, s'.server ≠ .handling k t)
    (hs : s'.server = .exited ∨ ∀ k t, s.server ≠ .handling k t ∧ s.server ≠ .exited) : History s' := by
  refine hi.move hlog (fun k t he => absurd he (hh k t)) (by rw [hclient]; exact fun _ _ => id)
    (by rw [hclient]; exact fun _ => id) ?_ (by rw [hclient]; exact hi.success)
  rw [hclient, hmsg]
  intro j c m hc hw hu hm
  rcases hi.phase j c m hc hw hu hm with ⟨ht, hr⟩ | ⟨ht, hsv⟩ | ht
  · refine .inl ⟨ht, ?_⟩
    rcases hs with he | hs
    · exact .inr (.inr he)
    · refine .inl ?_
      rw [hlog]
      rcases hr with hr | hr | hr
      · exact hr
      · exact absurd hr (hs _ _).1
      · exact absurd hr (hs 0 .listVm).2
  · exact .inr (.inl ⟨ht, by rw [hlog]; exact hsv⟩)
  · exact .inr (.inr ht)

/-- The server logs `e` and answers call `c` of client `i` in the slot. -/
theorem History.answer {s s' : State} (hl : Locks s) (hi : History s) {i : Nat} {c : Call} {m : CivMsg} {e : Event}
    (hc : (s.client i).call = some c) (hw : (s.client i).hasMsg = true) (hlog : s'.log = e :: s.log)
    (hmsg : s'.msg = some m) (hclient : s'.client = s.client) (hs : s'.server = .clear)
    (hne : (∀ k t, e ≠ .handler k t) ∧ (∀ k t b, e ≠ .ret k t b) ∧ ∀ k o, e ≠ .reply k o)
    (hm : (m.type = some .respondSuccess ∧ Served (e :: s.log) c) ∨ m.type = some .respondFail) : History s' := by
  have hmid : History { s with log := e :: s.log } :=
    hi.report rfl rfl rfl rfl hne.1 (fun k t b he => absurd he (hne.2.1 k t b)) fun k o he => absurd he (hne.2.2 k o)
  refine hmid.move hlog (fun k t he => ?_) (by rw [hclient]; exact fun _ _ => id) (by rw [hclient]; exact fun _ => id)
    (fun j d m' hd hj _ hm' => ?_) (by rw [hclient]; exact hmid.success)
  · rw [hs] at he; cases he
  · -- No other client has a message.
    rw [hclient] at hd hj
    obtain rfl := hl.only_msg (ClientPc.holdsMutex_of_hasMsg hw) hj
    cases hc.symm.trans hd
    cases hmsg.symm.trans hm'
    refine .inr (hm.imp_left fun h => ⟨h.1, ?_⟩)
    rw [hlog]
    exact h.2

/-- A handler is called, for the call of the only client with a message. -/
theorem History.handle {s : State} (hl : Locks s) (hs : Slot s) (hc : Calls s) (hi : History s) {m : CivMsg}
    {t : CivMsgType} (hpc : s.server = .found) (hm : s.msg = some m) (ht : m.type = some t) (hop : t.hasHandler = true) :
    History { s with server := .handling m.call t, log := .handler m.call t :: s.log } := by
  obtain ⟨i, c, hcall, hw, hu, hid, hty, hr⟩ :=
    fresh_request hs hi hpc hm ht (CivMsgType.isOperation_of_hasHandler hop)
  -- Only call `c` is concerned, and only client `i` is in it.
  have hsame : ∀ j d, (s.client j).call = some d → d.id = m.call → j = i ∧ d = c := by
    intro j d hd he
    obtain rfl := hc.inj j i d c hd hcall (he.trans hid)
    exact ⟨rfl, Option.some.inj (hd.symm.trans hcall)⟩
  refine ⟨fun j d hd hud => ?_, fun k => ?_, fun j d t' hd hh => ?_, fun j d m' hd hj _ hm' => ?_,
    fun j d hd hsc hop => (hi.success j d hd hsc hop).cons _, fun k t' t'' b hret hh => ?_, fun k t' hret hop => ?_,
    fun k o hrep => ?_, fun k t' he => ?_⟩
  · rw [runs_handler, if_neg]
    · exact hi.unsent j d hd hud
    · intro he
      rw [(hsame j d hd he.symm).1, hu] at hud
      cases hud
  · rw [runs_handler]
    split
    · rename_i he
      rw [← he, hid]
      exact Nat.le_of_eq (congrArg (· + 1) hr)
    · exact hi.once k
  · rcases List.mem_cons.1 hh with he | hh
    · obtain ⟨hk, ht'⟩ := Event.handler.inj he
      rw [(hsame j d hd hk).2, hty, ht']
    · exact hi.kind j d t' hd hh
  · obtain rfl := hl.only_msg (ClientPc.holdsMutex_of_hasMsg hw) hj
    cases hcall.symm.trans hd
    cases hm.symm.trans hm'
    refine .inl ⟨by rw [ht, hty], .inr (.inl ?_)⟩
    rw [← hid, hty]
  · rcases List.mem_cons.1 hret with he | hret
    · cases he
    · rcases List.mem_cons.1 hh with he | hh
      · obtain ⟨he, -⟩ := Event.handler.inj he
        exact absurd (hid.symm.trans he.symm) ((hc.done k t' b hret).2 i c hcall)
      · exact hi.ret k t' t'' b hret hh
  · rcases List.mem_cons.1 hret with he | hret
    · cases he
    · exact (hi.served k t' hret hop).cons _
  · rcases List.mem_cons.1 hrep with he | hrep
    · cases he
    · exact hi.reply k o hrep
  · cases he
    exact List.mem_cons_self

theorem history_server {s s' : State} (hl : Locks s) (hs : Slot s) (hc : Calls s) (hi : History s)
    (h : ServerMove s s') : History s' := by
  have hquiet : s'.log = s.log → s'.msg = s.msg → s'.client = s.client → (∀ k t, s'.server ≠ .handling k t) →
      ∀ {p : ServerPc}, s.server = p → (∀ k t, p ≠ .handling k t ∧ p ≠ .exited) → History s' :=
    fun hlog hmsg hclient hh _ hpc hp => hi.serve hlog hmsg hclient hh (.inr (by rw [hpc]; exact hp))
  cases h with
  | stop => exact hi.keep rfl rfl rfl fun _ => .refl _
  | stopServer m hpc hm ht =>
    obtain ⟨i, c, hcall, hw, -, hid, hty, -⟩ := fresh_request hs hi hpc hm ht rfl
    refine hi.answer hl hcall hw rfl rfl rfl rfl ⟨nofun, nofun, nofun⟩ (.inl ⟨rfl, .inr ⟨hty, ?_⟩⟩)
    rw [hid]
    exact List.mem_cons_self
  | handle m t hpc hm ht hop => exact hi.handle hl hs hc hpc hm ht hop
  | returns k t m ok hpc hm =>
    obtain ⟨m', hm', hid, -⟩ := hs.handling k t hpc
    cases hm.symm.trans hm'
    obtain ⟨i, c, hcall, hw, hid'⟩ := hs.owner hm
    have hck : c.id = k := hid'.symm.trans hid
    have hran := hi.running k t hpc
    have hty := hi.kind i c t hcall (hck ▸ hran)
    refine hi.answer hl hcall hw rfl rfl rfl rfl ⟨nofun, nofun, nofun⟩ ?_
    cases ok with
    | false => exact .inr rfl
    | true =>
      refine .inl ⟨rfl, .inl ⟨?_, ?_⟩⟩
      · rw [hck, ← hty]; exact List.mem_cons_of_mem _ hran
      · rw [hck]; exact List.mem_cons_self
  | throws k t hpc => exact hi.serve rfl rfl rfl nofun (.inl rfl)
  | exit hpc | lock hpc | flagged hpc | wait hpc | wake hpc | relock hpc | missing hpc | take m hpc | skip m hpc
  | clear hpc => exact hquiet rfl rfl rfl nofun hpc fun _ _ => ⟨nofun, nofun⟩

/-! ## Every run -/

structure Inv (s : State) : Prop where
  locks : Locks s
  slot : Slot s
  calls : Calls s
  history : History s

theorem inv_init : Inv init := by
  refine ⟨⟨fun i => ⟨nofun, nofun⟩, fun a => ⟨fun h => ?_, nofun⟩⟩, ?_, ?_, ?_⟩
  · cases a <;> cases h
  all_goals constructor <;> simp [init]

theorem inv_step {s s' : State} {a : Act} (hi : Inv s) (h : step s a = some s') : Inv s' := by
  obtain ⟨hl, hs, hc, hh⟩ := hi
  rcases step_move h with ⟨i, h⟩ | h
  · exact ⟨locks_client hl h, slot_client hl hs h, calls_client hc h, history_client hl hs hc hh h⟩
  · exact ⟨locks_server hl h, slot_server hs h, calls_server hs hc h, history_server hl hs hc hh h⟩

theorem reachable_inv {s : State} (h : Reachable step init s) : Inv s :=
  h.keeps (fun _ _ _ hi h => inv_step hi h) inv_init

/-- Whatever the interleaving, a call's handler runs at most once and is the
handler of the operation asked for, `Notify` of an operation returns true only
when that handler ran for this call and returned 0 (or the server took its
stop request), and the reply a client reads is in its own `CivMsg`. -/
theorem notify_answered_once {s : State} (h : Reachable step init s) :
    (∀ k, runs s.log k ≤ 1) ∧
    (∀ i c t, (s.client i).call = some c → .handler c.id t ∈ s.log → t = c.type) ∧
    (∀ k t t' b, .ret k t b ∈ s.log → .handler k t' ∈ s.log → t' = t) ∧
    (∀ k t, .ret k t true ∈ s.log → t.isOperation = true →
      (.handler k t ∈ s.log ∧ .handled k true ∈ s.log) ∨ (t = .stopServer ∧ .stopped k ∈ s.log)) ∧
    (∀ k owner, .reply k owner ∈ s.log → owner = k) := by
  have hi := (reachable_inv h).history
  exact ⟨hi.once, hi.kind, hi.ret, hi.served, hi.reply⟩

/-- One client lists the VMs: the server is asleep, is woken, runs the handler
and answers. -/
def listVmRun : List Act :=
  [.server, .server, .notify 7 .listVm, .client 7, .client 7, .client 7, .client 7, .client 7, .client 7, .client 7,
   .wakeServer, .server, .server, .server, .handlerEnds (.returns true), .server,
   .wakeClient 7 false, .client 7, .client 7, .client 7, .client 7, .client 7]

theorem notify_answered_once_listVm : ∃ s, Reachable step init s ∧ .ret 0 .listVm true ∈ s.log ∧
    runs s.log 0 ≤ 1 ∧ .handler 0 .listVm ∈ s.log := by
  have hlog : (run step init listVmRun).map State.log =
      some [.ret 0 .listVm true, .reply 0 0, .handled 0 true, .handler 0 .listVm] := rfl
  obtain ⟨s, hs, hlog⟩ := Option.map_eq_some_iff.1 hlog
  obtain ⟨honce, -, -, hserved, -⟩ := notify_answered_once ⟨listVmRun, hs⟩
  refine ⟨s, ⟨listVmRun, hs⟩, by simp [hlog], honce 0, ?_⟩
  rcases hserved 0 .listVm (by simp [hlog]) rfl with h | h
  · exact h.1
  · cases h.1

/-! ## Messages the server takes half-written -/

/-- The client has set `msg_in` for its `CivMsg`. -/
@[simp, grind =] def ClientPc.submitted : ClientPc → Bool
  | .loop _ _ | .asleep _ _ | .woken _ _ _ | .after _ _ | .result _ _ => true
  | .idle | .enter _ | .locked _ | .made _ | .typed _ | .filled _ | .holding _ | .gone _ _ | .unlock _ _ => false

/-- Whenever a handler runs, its `CivMsg` has the type and the payload that its
client wrote, and that client has submitted it. -/
def HandlesSubmitted (s : State) : Prop :=
  ∀ k t, s.server = .handling k t → ∃ i c m, s.msg = some m ∧ m.type = some t ∧ m.payload = some i ∧
    (s.client i).call = some c ∧ c = ⟨k, t⟩ ∧ (s.client i).submitted = true

def CivMsg.isReply (m : CivMsg) : Bool := m.type == some .respondSuccess || m.type == some .respondFail

/-- The flag means what it says: the server looks a `CivMsg` up only with
`msg_in` set (one that is answered already does no harm), and a client writes
its request only with `msg_in` clear. -/
def flagInStep (s : State) : Act → Bool
  | .server =>
    match s.server with
    | .find => s.msgIn || s.msg.all CivMsg.isReply
    | _ => true
  | .client i =>
    match s.client i with
    | .made _ => !s.msgIn
    | _ => true
  | _ => true

/-- The client has written its payload. -/
@[simp, grind =] def ClientPc.written : ClientPc → Bool
  | .filled _ | .holding _ | .loop _ _ | .asleep _ _ | .woken _ _ _ | .after _ _ | .result _ _ => true
  | .idle | .enter _ | .locked _ | .made _ | .typed _ | .gone _ _ | .unlock _ _ => false

/-- The client has written its type but not submitted yet. -/
@[simp, grind =] def ClientPc.writing : ClientPc → Bool
  | .typed _ | .filled _ | .holding _ => true
  | .idle | .enter _ | .locked _ | .made _ | .loop _ _ | .asleep _ _ | .woken _ _ _ | .after _ _ | .result _ _
  | .gone _ _ | .unlock _ _ => false

theorem ClientPc.hasMsg_of_written {p : ClientPc} (h : p.written = true) : p.hasMsg = true := by
  cases p <;> simp_all

theorem ClientPc.written_of_submitted {p : ClientPc} (h : p.submitted = true) : p.written = true := by
  cases p <;> simp_all

theorem ClientPc.hasMsg_of_writing {p : ClientPc} (h : p.writing = true) : p.hasMsg = true := by
  cases p <;> simp_all

structure Submitted (s : State) : Prop where
  writing : ∀ i, (s.client i).writing = true → s.msgIn = false
  payload : ∀ i m, (s.client i).written = true → s.msg = some m → m.payload = some i
  found : ∀ i m, s.server = .found → s.msg = some m → (s.client i).hasMsg = true →
    m.isReply = true ∨ (m.type = none ∧ s.msgIn = true) ∨ (s.client i).submitted = true
  handling : ∀ i k t, s.server = .handling k t → (s.client i).hasMsg = true → (s.client i).submitted = true

/-- The two places are alike in what has been written. -/
def ClientPc.Alike (p p' : ClientPc) : Prop :=
  p'.hasMsg = p.hasMsg ∧ p'.writing = p.writing ∧ p'.written = p.written ∧ p'.submitted = p.submitted

/-- Client `i` goes to a place that is alike. -/
theorem Submitted.goto {s s' : State} {i : Nat} {p' : ClientPc} (hi : Submitted s) (ha : (s.client i).Alike p')
    (hclient : s'.client = Function.update s.client i p') (hserver : s'.server = s.server) (hmsg : s'.msg = s.msg)
    (hin : s'.msgIn = s.msgIn) : Submitted s' := by
  have hsame : ∀ j, (s.client j).Alike (s'.client j) := by
    intro j
    rw [hclient, Function.update_apply]
    split
    · rename_i hj
      rw [hj]
      exact ha
    · exact ⟨rfl, rfl, rfl, rfl⟩
  constructor
  · intro j hw
    rw [hin]
    exact hi.writing j ((hsame j).2.1 ▸ hw)
  · intro j m hw hm
    exact hi.payload j m ((hsame j).2.2.1 ▸ hw) (hmsg ▸ hm)
  · intro j m hf hm hw
    rw [hin, (hsame j).2.2.2]
    exact hi.found j m (hserver ▸ hf) (hmsg ▸ hm) ((hsame j).1 ▸ hw)
  · intro j k t hh hw
    rw [(hsame j).2.2.2]
    exact hi.handling j k t (hserver ▸ hh) ((hsame j).1 ▸ hw)

theorem submitted_client {s s' : State} {i : Nat} (hl : Locks s) (hs : Slot s) (hi : Submitted s)
    (hg : ∀ c, s.client i = .made c → s.msgIn = false) (h : ClientMove s i s') : Submitted s' := by
  have hmutex := fun j => hl.same_client (i := i) (j := j)
  have hholds := fun j => ClientPc.holdsMutex_of_hasMsg (p := s.client j)
  cases h with
  | refused => exact ⟨hi.writing, hi.payload, hi.found, hi.handling⟩
  | construct c hp hm =>
    -- The server has no message in hand while there is none.
    have hf := hs.found
    have hh := hs.handling
    have hwritten := fun j => ClientPc.hasMsg_of_written (p := s.client j)
    obtain ⟨h1, h2, h3, h4⟩ := hi
    constructor <;> simp only [State.goto, Function.update_apply] <;> grind
  | type c m hp hm =>
    have hin := hg c hp
    have hwritten := fun j => ClientPc.hasMsg_of_written (p := s.client j)
    have hz := hs.untyped i
    obtain ⟨h1, h2, h3, h4⟩ := hi
    constructor <;> simp only [State.goto, Function.update_apply] <;> grind [CivMsg.isReply]
  | payload c m hp hm =>
    have hwritten := fun j => ClientPc.hasMsg_of_written (p := s.client j)
    obtain ⟨h1, h2, h3, h4⟩ := hi
    constructor <;> simp only [State.goto, Function.update_apply] <;> grind [CivMsg.isReply]
  | submit c hp =>
    -- The client is the only one with a message, so nobody else is writing.
    have hwriting := fun j => ClientPc.hasMsg_of_writing (p := s.client j)
    obtain ⟨h1, h2, h3, h4⟩ := hi
    constructor <;> simp only [State.goto, Function.update_apply] <;> grind
  | destroy c ret hp =>
    obtain ⟨h1, h2, h3, h4⟩ := hi
    constructor <;> simp only [State.goto, Function.update_apply] <;> grind
  | _ => exact hi.goto (by simp [ClientPc.Alike, *]) rfl rfl rfl rfl

theorem ClientPc.hasMsg_cases {p : ClientPc} (h : p.hasMsg = true) :
    (∃ c, p = .made c) ∨ p.writing = true ∨ p.submitted = true := by
  cases p <;> simp_all

theorem submitted_server {s s' : State} (hs : Slot s) (hi : Submitted s)
    (hg : s.server = .find → s.msgIn = true ∨ s.msg.all CivMsg.isReply = true)
    (h : ServerMove s s') : Submitted s' := by
  obtain ⟨h1, h2, h3, h4⟩ := hi
  cases h with
  | take m hf hm =>
    refine ⟨h1, h2, fun i m' _ hm' hw => ?_, fun _ _ _ h => nomatch h⟩
    rcases hg hf with hin | hr
    · rcases ClientPc.hasMsg_cases hw with ⟨c, hp⟩ | hp | hp
      · exact .inr (.inl ⟨hs.untyped i c m' hp hm', hin⟩)
      · cases hin.symm.trans (h1 i hp)
      · exact .inr (.inr hp)
    · rw [hm'] at hr
      exact .inl hr
  | handle m t hf hm ht hh =>
    refine ⟨h1, h2, fun _ _ h => (nomatch h), fun i _ _ _ hw => ?_⟩
    rcases h3 i m hf hm hw with hr | ⟨hn, -⟩ | hp
    · cases t <;> simp_all [CivMsg.isReply, CivMsgType.hasHandler]
    · cases ht.symm.trans hn
    · exact hp
  | _ => constructor <;> grind [CivMsg.isReply]

/-- The invariants along a run in which the flag is in step. -/
theorem submitted_step {s s' : State} {a : Act} (hi : Inv s ∧ Submitted s) (hg : flagInStep s a = true)
    (h : step s a = some s') : Inv s' ∧ Submitted s' := by
  obtain ⟨hv, hi⟩ := hi
  refine ⟨inv_step hv h, ?_⟩
  cases a with
  | notify i t =>
    refine submitted_client hv.locks hv.slot hi (fun c hp => ?_) (notify_move h)
    simp [step, notify, hp] at h
  | client i =>
    refine submitted_client hv.locks hv.slot hi (fun c hp => ?_) (clientStep_move h)
    simpa [flagInStep, hp] using hg
  | wakeClient i timeout =>
    simp only [step, wakeClient] at h
    split at h <;> cases h
    rename_i c r hp
    exact submitted_client hv.locks hv.slot hi (fun d hp' => by rw [hp] at hp'; cases hp') (.wake c r timeout hp)
  | server =>
    refine submitted_server hv.slot hi (fun hf => ?_) (serverStep_move h)
    simpa [flagInStep, hf] using hg
  | wakeServer =>
    simp only [step, wakeServer] at h
    split at h <;> cases h
    exact submitted_server hv.slot hi (fun hf => by simp_all) (.wake ‹_›)
  | handlerEnds e =>
    simp only [step, handlerEnds] at h
    split at h
    · obtain ⟨m, hm, rfl⟩ := Option.map_eq_some_iff.1 h
      exact submitted_server hv.slot hi (fun hf => by simp_all) (.returns _ _ m _ ‹_› hm)
    · cases h
      exact submitted_server hv.slot hi (fun hf => by simp_all) (.throws _ _ ‹_›)
    · cases h
  | stop => cases h; exact ⟨hi.writing, hi.payload, hi.found, hi.handling⟩

theorem submitted_init : Submitted init := by
  constructor <;> simp [init]

/-- In every run in which the flag is in step, a handler runs only on a
message that its client has written completely and submitted. -/
theorem handler_runs_on_submitted {s : State} {as : List Act} (h : run step init as = some s)
    (hg : Guarded step (fun s a => flagInStep s a = true) init as) : HandlesSubmitted s := by
  obtain ⟨hv, hi⟩ := run_keeps_guarded (I := fun s => Inv s ∧ Submitted s) (fun _ _ _ => submitted_step) h hg
    ⟨inv_init, submitted_init⟩
  intro k t hp
  obtain ⟨m, hm, hid, hty, hh⟩ := hv.slot.handling k t hp
  obtain ⟨i, c, hc, hw, hcid⟩ := hv.slot.owner hm
  have hsub := hi.handling i k t hp hw
  have hpay := hi.payload i m (ClientPc.written_of_submitted hsub) hm
  have hck : c.id = k := hcid.symm.trans hid
  have hkind := hv.history.kind i c t hc (hck ▸ hv.history.running k t hp)
  refine ⟨i, c, m, hm, hty, hpay, hc, ?_, hsub⟩
  rw [← hck, hkind]

theorem handler_runs_on_submitted_listVm : ∃ s, run step init (listVmRun.take 14) = some s ∧
    s.server = .handling 0 .listVm ∧ HandlesSubmitted s := by
  have hpc : (run step init (listVmRun.take 14)).map State.server = some (.handling 0 .listVm) := rfl
  obtain ⟨s, hs, hpc⟩ := Option.map_eq_some_iff.1 hpc
  exact ⟨s, hs, hpc, handler_runs_on_submitted hs (by decide)⟩

/-- The server sleeps, a client has constructed its `CivMsg` and written the
type, and `cond_s.wait` wakes up spuriously. -/
def halfWrittenRun : List Act :=
  [.server, .server, .notify 7 .listVm, .client 7, .client 7, .client 7, .wakeServer, .server, .server, .server]

theorem handler_runs_on_half_written : ∃ s, Reachable step init s ∧ ¬ HandlesSubmitted s := by
  have hpc : (run step init halfWrittenRun).map (fun s => (s.server, s.msg)) =
      some (.handling 0 .listVm, some ⟨0, some .listVm, none⟩) := rfl
  obtain ⟨s, hs, hpc⟩ := Option.map_eq_some_iff.1 hpc
  refine ⟨s, ⟨halfWrittenRun, hs⟩, fun h => ?_⟩
  obtain ⟨hserver, hmsg⟩ := Prod.mk.inj hpc
  obtain ⟨i, c, m, hm, -, hp, -⟩ := h 0 .listVm hserver
  rw [hmsg, Option.some.injEq] at hm
  rw [← hm] at hp
  cases hp

end VmManager.Mailbox
