import VmManager.Lib.Log
import VmManager.Listener
/-!
# Theorems about `pending_vms_`

The listener on its own, with callbacks of any kind and every order of calls.
`Registered` looks at the calls made so far and what they returned, not at the
table; `calls_registered` is that the table says the same.
-/
open Text

namespace VmManager

variable {γ : Type}

/-- A call on the listener. A cid is a `uint32_t`, and a callback may be null. -/
inductive ListenerOp (γ : Type)
  | addPendingVM (cid : UInt32) (callback : Option γ)
  | removePendingVM (cid : UInt32)
  | vmReady (peer : String)
  deriving DecidableEq, Repr

/-- What a call returns, and the callback it has run. -/
inductive ListenerRet (γ : Type)
  | done
  | answered (status : Status) (ran : Option γ)
  deriving DecidableEq, Repr

/-- `pending_vms_`. -/
abbrev Callbacks (γ : Type) := Nat → Option (Option γ)

namespace Callbacks

/-- `VmReady`: the answer, the callback that runs, and what is left. -/
def vmReady (pending : Callbacks γ) (peer : String) : Status × Option γ × Callbacks γ :=
  match parsePeer peer with
  | none => (.failedPrecondition "Invalid peer for StartupListener", none, pending)
  | some cid =>
    match pending cid with
    | none => (.failedPrecondition "VM is unknown", none, pending)
    | some callback => (.ok, callback, Function.update pending cid none)

def call (pending : Callbacks γ) : ListenerOp γ → ListenerRet γ × Callbacks γ
  | .addPendingVM cid callback => (.done, Function.update pending cid.toNat (some callback))
  | .removePendingVM cid => (.done, Function.update pending cid.toNat none)
  | .vmReady peer =>
    let r := pending.vmReady peer
    (.answered r.1 r.2.1, r.2.2)

/-- A call and what it returned. -/
abbrev Entry (γ : Type) := ListenerOp γ × ListenerRet γ

/-- The table after some calls on a new listener, and the calls with what they
returned. -/
def calls (ops : List (ListenerOp γ)) : Callbacks γ × List (Entry γ) :=
  ops.foldl (fun s op => ((s.1.call op).2, s.2 ++ [(op, (s.1.call op).1)])) (fun _ => none, [])

/-! ## Registrations -/

/-- The callback that the call registers for the cid. -/
def registers (cid : UInt32) : Entry γ → Option (Option γ)
  | (.addPendingVM c callback, _) => if c = cid then some callback else none
  | _ => none

/-- The call removes or replaces the registration of the cid, or is its
`VmReady`. -/
def Ends (cid : UInt32) : Entry γ → Prop
  | (.addPendingVM c _, _) => c = cid
  | (.removePendingVM c, _) => c = cid
  | (.vmReady peer, .answered .ok _) => parsePeer peer = some cid.toNat
  | _ => False

/-- The callback was registered for the cid, with no removal, replacement or
successful `VmReady` since. -/
def Registered (log : List (Entry γ)) (cid : UInt32) (callback : Option γ) : Prop :=
  Log.Stands (registers cid) (Ends cid) log callback

/-- The `VmReady` at `j` runs the callback that was registered at `i`. -/
def Answers (log : List (Entry γ)) (i j : Nat) : Prop :=
  ∃ cid callback peer, log[i]?.map (·.1) = some (.addPendingVM cid callback) ∧
    log[j]? = some (.vmReady peer, .answered .ok callback) ∧ parsePeer peer = some cid.toNat ∧
    Log.EndedAt (Ends cid) log i j

/-- The call is about the cid. -/
def Concerns (cid : UInt32) : ListenerOp γ → Prop
  | .addPendingVM c _ => c = cid
  | .removePendingVM c => c = cid
  | .vmReady peer => parsePeer peer = some cid.toNat

/-! ## The callbacks of the server -/

/-- The server's own `pending_vms_`, where no callback is null. -/
def ofPendingVms (pending : PendingVms) : Callbacks Nat := fun cid => (pending cid).map some

theorem ofPendingVms_update (pending : PendingVms) (cid : Nat) (uid : Option Nat) :
    ofPendingVms (Function.update pending cid uid) = Function.update (ofPendingVms pending) cid (uid.map some) := by
  funext c
  by_cases hc : c = cid
  · simp [ofPendingVms, hc]
  · simp [ofPendingVms, hc]

/-- What the server's callbacks do is a case of this. -/
theorem vmReady_ofPendingVms (pending : PendingVms) (peer : String) :
    (ofPendingVms pending).vmReady peer =
      ((pending.vmReady peer).1, (pending.vmReady peer).2.1, ofPendingVms (pending.vmReady peer).2.2) := by
  unfold vmReady PendingVms.vmReady
  cases parsePeer peer with
  | none => rfl
  | some cid =>
    cases hc : pending cid with
    | none => simp [ofPendingVms, hc]
    | some uid =>
      have hc' : ofPendingVms pending cid = some (some uid) := by simp [ofPendingVms, hc]
      simp only [hc, hc', PendingVms.remove, ofPendingVms_update]
      rfl

/-! ## One call -/

theorem parsePeer_lt {peer : String} {n : Nat} (h : parsePeer peer = some n) : n < 2 ^ 32 := by
  unfold parsePeer at h
  split at h
  · obtain ⟨r, -, rfl⟩ := Option.map_eq_some_iff.1 h
    exact Nat.mod_lt _ (by decide)
  · cases h

theorem exists_cid {peer : String} {n : Nat} (h : parsePeer peer = some n) : ∃ cid : UInt32, parsePeer peer = some cid.toNat :=
  ⟨UInt32.ofNat n, by rw [h, UInt32.toNat_ofNat_of_lt' (parsePeer_lt h)]⟩

variable (pending : Callbacks γ)

theorem vmReady_registered {peer : String} {cid : Nat} {callback : Option γ} (hp : parsePeer peer = some cid)
    (hc : pending cid = some callback) :
    pending.call (.vmReady peer) = (.answered .ok callback, Function.update pending cid none) := by
  simp [call, vmReady, hp, hc]

theorem vmReady_rejected {peer : String} (h : ∀ cid : UInt32, parsePeer peer = some cid.toNat → pending cid.toNat = none) :
    ∃ msg, pending.call (.vmReady peer) = (.answered (.failedPrecondition msg) none, pending) := by
  cases hp : parsePeer peer with
  | none => exact ⟨_, by simp only [call, vmReady, hp]; rfl⟩
  | some n =>
    obtain ⟨cid, hcid⟩ := exists_cid hp
    have hnone := h cid hcid
    obtain rfl : n = cid.toNat := Option.some.inj (hp.symm.trans hcid)
    exact ⟨_, by simp only [call, vmReady, hp, hnone]; rfl⟩

theorem vmReady_succeeded {peer : String} {ran : Option γ} (h : (pending.call (.vmReady peer)).1 = .answered .ok ran) :
    ∃ cid : UInt32, parsePeer peer = some cid.toNat ∧ pending cid.toNat = some ran := by
  by_contra hnone
  obtain ⟨msg, hcall⟩ := pending.vmReady_rejected fun cid hp => by
    cases hc : pending cid.toNat with
    | none => rfl
    | some callback =>
      rw [pending.vmReady_registered hp hc] at h
      cases h
      exact absurd ⟨cid, hp, hc⟩ hnone
  rw [hcall] at h
  cases h

/-- A call leaves the entries of other cids alone. -/
theorem call_other {op : ListenerOp γ} {cid : UInt32} (h : ¬ Concerns cid op) :
    (pending.call op).2 cid.toNat = pending cid.toNat := by
  have hne : ∀ {c : UInt32}, c ≠ cid → cid.toNat ≠ c.toNat := fun hc he => hc (UInt32.toNat_inj.1 he.symm)
  cases op with
  | addPendingVM c callback => exact Function.update_of_ne (hne h) _ _
  | removePendingVM c => exact Function.update_of_ne (hne h) _ _
  | vmReady peer =>
    unfold call vmReady
    dsimp only
    split
    · rfl
    · rename_i n hp
      split
      · rfl
      · refine Function.update_of_ne (fun he => h ?_) _ _
        rw [Concerns, hp, he]

theorem not_ends {op : ListenerOp γ} {cid : UInt32} (h : ¬ Concerns cid op) (ret : ListenerRet γ) :
    ¬ Ends cid (op, ret) ∧ registers cid (op, ret) = none := by
  cases op with
  | addPendingVM c callback => exact ⟨h, if_neg h⟩
  | removePendingVM c => exact ⟨h, rfl⟩
  | vmReady peer =>
    refine ⟨fun he => ?_, rfl⟩
    unfold Ends at he
    split at he
    · rename_i heq
      cases heq
    · rename_i heq
      cases heq
    · rename_i heq
      cases heq
      exact h he
    · exact he

theorem registers_eq_some {cid : UInt32} {e : Entry γ} {callback : Option γ} (h : registers cid e = some callback) :
    e.1 = .addPendingVM cid callback := by
  obtain ⟨op, ret⟩ := e
  cases op with
  | addPendingVM c callback' =>
    obtain ⟨hc, he⟩ := Option.ite_none_right_eq_some.1 h
    rw [hc, Option.some.inj he]
  | removePendingVM c => cases h
  | vmReady peer => cases h

/-- What a call enters and ends is what happens to the table. -/
theorem call_registered (op : ListenerOp γ) (cid : UInt32) (callback : Option γ) :
    (pending.call op).2 cid.toNat = some callback ↔
      registers cid (op, (pending.call op).1) = some callback ∨
        (pending cid.toNat = some callback ∧ ¬ Ends cid (op, (pending.call op).1)) := by
  by_cases hc : Concerns cid op
  · cases op with
    | addPendingVM c callback' =>
      obtain rfl : c = cid := hc
      simp [call, registers, Ends]
    | removePendingVM c =>
      obtain rfl : c = cid := hc
      simp [call, registers, Ends]
    | vmReady peer =>
      cases hp : pending cid.toNat with
      | none =>
        obtain ⟨msg, hcall⟩ := pending.vmReady_rejected fun c hpeer => by
          obtain rfl : c = cid := UInt32.toNat_inj.1 (Option.some.inj (hpeer.symm.trans hc))
          exact hp
        rw [hcall]
        simp [registers, hp]
      | some callback' =>
        rw [pending.vmReady_registered hc hp]
        have hends : Ends cid ((.vmReady peer, .answered .ok callback') : Entry γ) := hc
        simp [registers, hends]
  · obtain ⟨hends, hreg⟩ := not_ends hc (pending.call op).1
    rw [pending.call_other hc, hreg]
    simp [hends]

/-! ## Any calls -/

variable (ops : List (ListenerOp γ))

theorem calls_concat (op : ListenerOp γ) :
    calls (ops ++ [op]) = (((calls ops).1.call op).2, (calls ops).2 ++ [(op, ((calls ops).1.call op).1)]) := by
  rw [calls, List.foldl_append]
  rfl

/-- The table holds the registrations that stand. -/
theorem calls_registered (cid : UInt32) (callback : Option γ) :
    (calls ops).1 cid.toNat = some callback ↔ Registered (calls ops).2 cid callback := by
  induction ops using List.reverseRecOn generalizing callback with
  | nil =>
    constructor
    · intro h
      cases h
    · intro h
      exact absurd h (Log.not_stands_nil callback)
  | append_singleton ops op ih =>
    rw [calls_concat, Registered, Log.stands_concat, ← Registered, ← ih]
    exact call_registered _ op cid callback

/-- Every successful `VmReady` answers a registration. -/
theorem exists_answers {j : Nat} {peer : String} {ran : Option γ}
    (h : (calls ops).2[j]? = some (.vmReady peer, .answered .ok ran)) : ∃ i, Answers (calls ops).2 i j := by
  induction ops using List.reverseRecOn with
  | nil => cases h
  | append_singleton ops op ih =>
    rw [calls_concat] at h ⊢
    dsimp only at h ⊢
    rcases Nat.lt_or_ge j (calls ops).2.length with hlt | hge
    · rw [List.getElem?_append_left hlt] at h
      obtain ⟨i, cid, callback, peer', hi, hj, hp, hended⟩ := ih h
      have hilt : i < (calls ops).2.length := Nat.lt_trans hended.1 hlt
      refine ⟨i, cid, callback, peer', ?_, ?_, hp, hended.append _⟩
      · rwa [List.getElem?_append_left hilt]
      · rwa [List.getElem?_append_left hlt]
    · obtain rfl : j = (calls ops).2.length := by
        have := (List.getElem?_eq_some_iff.1 h).1
        simp only [List.length_append, List.length_singleton] at this
        omega
      rw [List.getElem?_concat_length] at h
      obtain ⟨rfl, hret⟩ := Prod.mk.inj (Option.some.inj h)
      obtain ⟨cid, hp, hc⟩ := (calls ops).1.vmReady_succeeded hret
      have hstands := (calls_registered ops cid ran).1 hc
      have hends : Ends cid ((.vmReady peer, .answered .ok ran) : Entry γ) := hp
      rw [hret]
      obtain ⟨i, d, hi, hd, hended⟩ := Log.endedAt_of_stands hstands hends
      have hilt : i < (calls ops).2.length := (List.getElem?_eq_some_iff.1 hi).1
      refine ⟨i, cid, ran, peer, ?_, List.getElem?_concat_length, hp, hended⟩
      rw [List.getElem?_append_left hilt, hi, Option.map_some, registers_eq_some hd]

/-- The answers of the listener, after any calls. -/
theorem listener_answers :
    (∀ peer (cid : UInt32) callback, parsePeer peer = some cid.toNat → Registered (calls ops).2 cid callback →
      (calls ops).1.call (.vmReady peer) = (.answered .ok callback, Function.update (calls ops).1 cid.toNat none)) ∧
    (∀ peer, (¬ ∃ (cid : UInt32) (callback : Option γ), parsePeer peer = some cid.toNat ∧
        Registered (calls ops).2 cid callback) →
      ∃ msg, (calls ops).1.call (.vmReady peer) = (.answered (.failedPrecondition msg) none, (calls ops).1)) ∧
    (∀ (op : ListenerOp γ) (cid : UInt32), ¬ Concerns cid op →
      ((calls ops).1.call op).2 cid.toNat = (calls ops).1 cid.toNat) ∧
    (∀ j peer ran, (calls ops).2[j]? = some (.vmReady peer, .answered .ok ran) → ∃ i, Answers (calls ops).2 i j) ∧
    ∀ i j j', Answers (calls ops).2 i j → Answers (calls ops).2 i j' → j = j' := by
  refine ⟨?_, ?_, ?_, ?_, ?_⟩
  · intro peer cid callback hp hr
    exact (calls ops).1.vmReady_registered hp ((calls_registered ops cid callback).2 hr)
  · intro peer hnone
    refine (calls ops).1.vmReady_rejected fun cid hp => ?_
    cases hc : (calls ops).1 cid.toNat with
    | none => rfl
    | some callback => exact absurd ⟨cid, callback, hp, (calls_registered ops cid callback).1 hc⟩ hnone
  · intro op cid hc
    exact (calls ops).1.call_other hc
  · intro j peer ran h
    exact exists_answers ops h
  · rintro i j j' ⟨cid, callback, peer, hi, -, -, hended⟩ ⟨cid', callback', peer', hi', -, -, hended'⟩
    rw [hi] at hi'
    cases hi'
    exact hended.unique hended'

end Callbacks

end VmManager
