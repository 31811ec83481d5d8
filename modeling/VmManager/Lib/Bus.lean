import Mathlib.Data.List.Induction
import Mathlib.Data.List.Nodup
import Mathlib.Logic.Function.Basic
/-!
# A bus with a stub driver

A device of the bus is bound to a driver of the host, to a stub driver that
holds it for somebody else, or to none. The stub has a table of ids: it is
offered the devices with these ids. Handing a list of devices over to the stub,
one after the other, and taking them back is what this file is about.
-/
namespace Bus

inductive Binding
  | none
  | stub
  | native
  deriving DecidableEq, Repr

structure State (δ ι : Type) where
  binding : δ → Binding
  /-- The table of the stub driver. -/
  ids : ι → Bool

namespace State

variable {δ ι : Type} [DecidableEq δ] [DecidableEq ι] (ident : δ → ι) (hasNative : δ → Bool) (b : State δ ι)

/-! ## What can be written -/

/-- A new id goes into the table, and the stub is offered every device that has
no driver. An id that is known is refused. -/
def newId (v : ι) : State δ ι :=
  if b.ids v then b
  else
    { binding := fun d => if ident d = v ∧ b.binding d = .none then .stub else b.binding d
      ids := Function.update b.ids v true }

def removeId (v : ι) : State δ ι := { b with ids := Function.update b.ids v false }

def unbind (d : δ) : State δ ι := { b with binding := Function.update b.binding d .none }

/-- Through the stub only its own devices can be unbound. -/
def stubUnbind (d : δ) : State δ ι := if b.binding d = .stub then b.unbind d else b

/-- A device without a driver is offered to the stub and then to its own
driver. -/
def probe (d : δ) : State δ ι :=
  if b.binding d = .none then
    { b with binding := Function.update b.binding d
               (if b.ids (ident d) then .stub else if hasNative d then .native else .none) }
  else b

/-! ## One device is handed over, or taken back -/

/-- The device loses its driver. -/
def detach (d : δ) : State δ ι :=
  if b.binding d = .none then b
  else (if b.binding d = .stub then b.removeId (ident d) else b).unbind d

def take (d : δ) : State δ ι := (b.detach ident d).newId ident (ident d)

def release (d : δ) : State δ ι :=
  (if b.binding d = .stub then (b.removeId (ident d)).stubUnbind d else b).probe ident hasNative d

/-- The id of the device is new to the stub when its turn comes. -/
def Offers (d : δ) : Prop := b.binding d = .stub ∨ b.ids (ident d) = false

theorem detach_binding (d e : δ) : (b.detach ident d).binding e = if e = d then .none else b.binding e := by
  unfold detach
  by_cases hn : b.binding d = .none
  · by_cases he : e = d
    · simp [he, hn]
    · simp [he, hn]
  · by_cases hs : b.binding d = .stub
    · simp [hs, unbind, removeId, Function.update_apply]
    · simp [hn, hs, unbind, Function.update_apply]

theorem detach_ids (d : δ) (v : ι) :
    (b.detach ident d).ids v = if v = ident d ∧ b.binding d = .stub then false else b.ids v := by
  unfold detach
  by_cases hn : b.binding d = .none
  · simp [hn]
  · by_cases hs : b.binding d = .stub
    · simp [hs, unbind, removeId, Function.update_apply]
    · simp [hn, hs, unbind]

theorem take_ids (d : δ) (v : ι) : (b.take ident d).ids v = if v = ident d then true else b.ids v := by
  unfold take newId
  split
  · rename_i hk
    rw [detach_ids] at hk ⊢
    by_cases hv : v = ident d
    · subst hv
      simpa using hk
    · simp [hv]
  · simp only [Function.update_apply, detach_ids]
    by_cases hv : v = ident d
    · simp [hv]
    · simp [hv]

/-- When the device's id is new, the stub gets it and all devices without a
driver that have the id. -/
theorem take_binding_offers {d : δ} (ho : b.Offers ident d) (e : δ) :
    (b.take ident d).binding e =
      if ident e = ident d ∧ (e = d ∨ b.binding e = .none) then .stub else b.binding e := by
  have hnew : ¬ (b.detach ident d).ids (ident d) = true := by
    rw [detach_ids]
    rcases ho with hs | hf
    · simp [hs]
    · simp [hf]
  unfold take newId
  rw [if_neg hnew]
  simp only [detach_binding]
  by_cases he : e = d
  · simp [he]
  · simp [he]

/-- Otherwise it is left without a driver. -/
theorem take_binding_refused {d : δ} (ho : ¬ b.Offers ident d) (e : δ) :
    (b.take ident d).binding e = if e = d then .none else b.binding e := by
  have hknown : (b.detach ident d).ids (ident d) = true := by
    unfold Offers at ho
    rw [not_or, Bool.not_eq_false] at ho
    rw [detach_ids]
    simp [ho.1, ho.2]
  unfold take newId
  rw [if_pos hknown, detach_binding]

/-- Devices with another id are left alone. -/
theorem take_binding_other {d e : δ} (he : ident e ≠ ident d) : (b.take ident d).binding e = b.binding e := by
  have hne : e ≠ d := fun h => he (congrArg ident h)
  by_cases ho : b.Offers ident d
  · simp [take_binding_offers ident b ho, he]
  · simp [take_binding_refused ident b ho, hne]

/-! ## A list of devices is handed over -/

def takeAll (devs : List δ) : State δ ι := devs.foldl (fun b d => b.take ident d) b

/-- Among these devices was one whose id was new to the stub. -/
def Offered (pre : List δ) (v : ι) : Prop :=
  (∃ y ∈ pre, ident y = v) ∧ (b.ids v = false ∨ ∃ y ∈ pre, ident y = v ∧ b.binding y = .stub)

/-- The stub will hold the device after its turn, when the devices `pre` have
had theirs. -/
def Bindable (pre : List δ) (x : δ) : Prop :=
  match b.binding x with
  | .stub => True
  | .none => b.ids (ident x) = false ∨ ∃ y ∈ pre, ident y = ident x ∧ b.binding y = .stub
  | .native => b.ids (ident x) = false ∧ ∀ y ∈ pre, ident y ≠ ident x

/-- The state after the devices `pre` have had their turns. -/
structure Taken (pre : List δ) (b' : State δ ι) : Prop where
  ids : ∀ v, b'.ids v = true ↔ b.ids v = true ∨ ∃ y ∈ pre, ident y = v
  turn : ∀ e ∈ pre, b'.binding e ≠ .native
  noTurn : ∀ e ∉ pre, b'.binding e = .stub ↔ b.binding e = .stub ∨ (b.binding e = .none ∧ b.Offered ident pre (ident e))
  noTurnNative : ∀ e ∉ pre, b'.binding e = .native ↔ b.binding e = .native

variable {ident b} {pre : List δ} {b' : State δ ι} {x : δ}

omit [DecidableEq δ] [DecidableEq ι] in
theorem Taken.ids_eq_false (ht : b.Taken ident pre b') (v : ι) :
    b'.ids v = false ↔ b.ids v = false ∧ ∀ y ∈ pre, ident y ≠ v := by
  rw [← Bool.not_eq_true, ht.ids]
  simp

omit [DecidableEq δ] in
theorem Taken.offers_iff (ht : b.Taken ident pre b') (hx : x ∉ pre) : b'.Offers ident x ↔ b.Bindable ident pre x := by
  unfold Offers Bindable
  rw [ht.noTurn x hx, ht.ids_eq_false]
  cases hb : b.binding x with
  | stub => simp
  | native => simp
  | none =>
    simp only [reduceCtorEq, false_or, true_and, Offered]
    constructor
    · rintro (⟨-, h⟩ | ⟨h, -⟩)
      · exact h
      · exact .inl h
    · rintro (h | ⟨y, hy, hv, hs⟩)
      · by_cases hex : ∃ y ∈ pre, ident y = ident x
        · exact .inl ⟨hex, .inl h⟩
        · exact .inr ⟨h, fun y hy hv => hex ⟨y, hy, hv⟩⟩
      · exact .inl ⟨⟨y, hy, hv⟩, .inr ⟨y, hy, hv, hs⟩⟩

omit [DecidableEq δ] [DecidableEq ι] in
theorem offered_append_other {v : ι} (hv : ident x ≠ v) : b.Offered ident (pre ++ [x]) v ↔ b.Offered ident pre v := by
  simp [Offered, or_and_right, exists_or, hv]

omit [DecidableEq δ] in
theorem Taken.offered_append (ht : b.Taken ident pre b') (hx : x ∉ pre) :
    b.Offered ident (pre ++ [x]) (ident x) ↔ b.Offered ident pre (ident x) ∨ b'.Offers ident x := by
  rw [ht.offers_iff hx]
  have hself : b.Offered ident (pre ++ [x]) (ident x) ↔
      b.ids (ident x) = false ∨ (∃ y ∈ pre, ident y = ident x ∧ b.binding y = .stub) ∨ b.binding x = .stub := by
    simp [Offered, or_and_right, exists_or]
  rw [hself]
  unfold Bindable Offered
  constructor
  · rintro (hf | ⟨y, hy, hv, hs⟩ | hs)
    · by_cases hex : ∃ y ∈ pre, ident y = ident x
      · exact .inl ⟨hex, .inl hf⟩
      · right
        cases b.binding x with
        | stub => trivial
        | none => exact .inl hf
        | native => exact ⟨hf, fun y hy hv => hex ⟨y, hy, hv⟩⟩
    · exact .inl ⟨⟨y, hy, hv⟩, .inr ⟨y, hy, hv, hs⟩⟩
    · right
      rw [hs]
      trivial
  · rintro (⟨-, hf | hs⟩ | hb)
    · exact .inl hf
    · exact .inr (.inl hs)
    · cases hbx : b.binding x with
      | stub => exact .inr (.inr rfl)
      | none =>
        rw [hbx] at hb
        rcases hb with hf | hs
        · exact .inl hf
        · exact .inr (.inl hs)
      | native =>
        rw [hbx] at hb
        exact .inl hb.1

/-- One turn more. -/
theorem Taken.step (ht : b.Taken ident pre b') (hx : x ∉ pre) : b.Taken ident (pre ++ [x]) (b'.take ident x) := by
  have hstub : ∀ e ∉ pre, b'.binding e = .none ∨ b'.binding e = .stub ↔ b.binding e = .none ∨ b.binding e = .stub := by
    intro e he
    have hn := ht.noTurnNative e he
    cases h : b.binding e <;> cases h' : b'.binding e <;> simp [h, h'] at hn ⊢
  refine ⟨fun v => ?_, fun e he => ?_, fun e he => ?_, fun e he => ?_⟩
  · rw [take_ids]
    split
    · rename_i hv
      simp [hv]
    · rename_i hv
      rw [ht.ids]
      simp [or_and_right, exists_or, Ne.symm hv]
  · by_cases ho : b'.Offers ident x
    · rw [take_binding_offers ident b' ho]
      split
      · simp
      · rename_i hne
        refine ht.turn e ?_
        rcases List.mem_append.1 he with he | he
        · exact he
        · rw [List.mem_singleton] at he
          simp [he] at hne
    · rw [take_binding_refused ident b' ho]
      split
      · simp
      · rename_i hne
        refine ht.turn e ?_
        simpa [hne] using he
  · rw [List.mem_append, List.mem_singleton, not_or] at he
    by_cases hv : ident e = ident x
    · rw [hv, ht.offered_append hx]
      by_cases ho : b'.Offers ident x
      · -- The stub is offered the device along with `x`.
        have hgot : (b'.take ident x).binding e = .stub ↔ b'.binding e = .none ∨ b'.binding e = .stub := by
          rw [take_binding_offers ident b' ho]
          cases b'.binding e <;> simp [hv, he.2]
        rw [hgot, hstub e he.1]
        simp [ho, or_comm]
      · rw [take_binding_refused ident b' ho, if_neg he.2, ht.noTurn e he.1, hv]
        simp [ho]
    · rw [take_binding_other ident b' hv, ht.noTurn e he.1, offered_append_other (Ne.symm hv)]
  · rw [List.mem_append, List.mem_singleton, not_or] at he
    rw [← ht.noTurnNative e he.1]
    by_cases ho : b'.Offers ident x
    · rw [take_binding_offers ident b' ho]
      split
      · rename_i hc
        simp [hc.2.resolve_left he.2]
      · rfl
    · rw [take_binding_refused ident b' ho, if_neg he.2]

/-- All turns. -/
theorem takeAll_taken (ident : δ → ι) (b : State δ ι) {devs : List δ} (hn : devs.Nodup) : b.Taken ident devs (b.takeAll ident devs) := by
  induction devs using List.reverseRecOn with
  | nil =>
    refine ⟨fun v => ?_, fun e he => ?_, fun e _ => ?_, fun e _ => ?_⟩
    · simp [takeAll]
    · cases he
    · simp [takeAll, Offered]
    · simp [takeAll]
  | append_singleton pre x ih =>
    obtain ⟨hpre, -, hdisj⟩ := List.nodup_append.1 hn
    have hx : x ∉ pre := fun hm => hdisj x hm x List.mem_cons_self rfl
    have hstep := (ih hpre).step hx
    simpa [takeAll] using hstep

omit [DecidableEq δ] in
theorem append_singleton_eq_split {pre p q : List δ} {x z : δ} (h : pre ++ [x] = p ++ z :: q) :
    (q = [] ∧ p = pre ∧ z = x) ∨ ∃ q', q = q' ++ [x] ∧ pre = p ++ z :: q' := by
  rcases List.eq_nil_or_concat q with rfl | ⟨q', y, rfl⟩
  · obtain ⟨hp, hz⟩ := List.append_inj' h rfl
    exact .inl ⟨rfl, hp.symm, (List.singleton_inj.1 hz).symm⟩
  · rw [List.concat_eq_append, ← List.cons_append, ← List.append_assoc] at h
    obtain ⟨hp, hx⟩ := List.append_inj' h rfl
    exact .inr ⟨q', by rw [List.concat_eq_append, ← List.singleton_inj.1 hx], hp⟩

/-- After the turn of `x` the stub holds all devices so far that have its id,
or not even `x`. -/
theorem Taken.stub_iff (ht : b.Taken ident pre b') (hx : x ∉ pre) :
    (∀ y ∈ pre ++ [x], ident y = ident x → (b'.take ident x).binding y = .stub) ↔ b.Bindable ident pre x := by
  rw [← ht.offers_iff hx]
  constructor
  · intro hall
    by_contra ho
    have hstub := hall x (by simp) rfl
    simp [take_binding_refused ident b' ho] at hstub
  · intro ho y hy hv
    rw [take_binding_offers ident b' ho]
    split
    · rfl
    · rename_i hne
      simp only [hv, true_and, not_or] at hne
      have hy : y ∈ pre := by simpa [hne.1] using hy
      have hnative := ht.turn y hy
      cases hb : b'.binding y with
      | none => exact absurd hb hne.2
      | stub => rfl
      | native => exact absurd hb hnative

/-- The stub holds all devices with an id if and only if it got the last of
them. -/
theorem takeAll_stub_iff {devs : List δ} (hn : devs.Nodup) (v : ι) :
    (∀ y ∈ devs, ident y = v → (b.takeAll ident devs).binding y = .stub) ↔
      ∀ p z q, devs = p ++ z :: q → ident z = v → (∀ y ∈ q, ident y ≠ v) → b.Bindable ident p z := by
  induction devs using List.reverseRecOn with
  | nil => simp
  | append_singleton pre x ih =>
    obtain ⟨hpre, -, hdisj⟩ := List.nodup_append.1 hn
    have hx : x ∉ pre := fun hm => hdisj x hm x List.mem_cons_self rfl
    have ht := takeAll_taken ident b hpre
    have hlast : b.takeAll ident (pre ++ [x]) = (b.takeAll ident pre).take ident x := by simp [takeAll]
    rw [hlast]
    by_cases hv : ident x = v
    · subst hv
      rw [ht.stub_iff hx]
      constructor
      · intro hb p z q hs hz hq
        rcases append_singleton_eq_split hs with ⟨-, rfl, rfl⟩ | ⟨q', rfl, -⟩
        · exact hb
        · exact absurd rfl (hq x (by simp))
      · intro hall
        exact hall pre x [] rfl rfl (by simp)
    · -- The turn of `x` is of no account.
      have hkeep : (∀ y ∈ pre ++ [x], ident y = v → ((b.takeAll ident pre).take ident x).binding y = .stub) ↔
          ∀ y ∈ pre, ident y = v → (b.takeAll ident pre).binding y = .stub := by
        have hother : ∀ y, ident y = v → ((b.takeAll ident pre).take ident x).binding y = (b.takeAll ident pre).binding y :=
          fun y hy => take_binding_other ident _ fun he => hv (he.symm.trans hy)
        constructor
        · intro hall y hy he
          rw [← hother y he]
          exact hall y (by simp [hy]) he
        · intro hall y hy he
          rw [hother y he]
          rcases List.mem_append.1 hy with hy | hy
          · exact hall y hy he
          · rw [List.mem_singleton] at hy
            exact absurd (hy ▸ he) hv
      rw [hkeep, ih hpre]
      constructor
      · intro hall p z q hs hz hq
        rcases append_singleton_eq_split hs with ⟨-, -, rfl⟩ | ⟨q', rfl, hpz⟩
        · exact absurd hz hv
        · exact hall p z q' hpz hz fun y hy => hq y (by simp [hy])
      · intro hall p z q hs hz hq
        refine hall p z (q ++ [x]) (by simp [hs]) hz fun y hy => ?_
        rcases List.mem_append.1 hy with hy | hy
        · exact hq y hy
        · rw [List.mem_singleton] at hy
          exact hy ▸ hv

/-! ## The devices are taken back -/

/-- For an id in the table, the stub holds the first of the devices with it. -/
def HoldsFirst (ident : δ → ι) (devs : List δ) (b : State δ ι) : Prop :=
  ∀ v y, b.ids v = true → devs.find? (fun d => ident d = v) = some y → b.binding y = .stub

omit [DecidableEq δ] in
theorem ident_of_find {devs : List δ} {v : ι} {y : δ} (h : devs.find? (fun d => ident d = v) = some y) : ident y = v := by
  simpa using List.find?_some h

/-- When no id of the devices was in the table, the first device with an id is
the one that brings it there. -/
theorem takeAll_holdsFirst {devs : List δ} (hn : devs.Nodup) (hnew : ∀ x ∈ devs, b.ids (ident x) = false) (v : ι) (y : δ)
    (hy : devs.find? (fun d => ident d = v) = some y) : (b.takeAll ident devs).binding y = .stub := by
  induction devs using List.reverseRecOn with
  | nil => cases hy
  | append_singleton pre x ih =>
    obtain ⟨hpre, -, hdisj⟩ := List.nodup_append.1 hn
    have hx : x ∉ pre := fun hm => hdisj x hm x List.mem_cons_self rfl
    have ht := takeAll_taken ident b hpre
    have hlast : b.takeAll ident (pre ++ [x]) = (b.takeAll ident pre).take ident x := by simp [takeAll]
    rw [hlast]
    rw [List.find?_append] at hy
    cases hf : pre.find? (fun d => ident d = v) with
    | none =>
      have hyx : x = y ∧ ident x = v := by
        rw [hf] at hy
        by_cases hv : ident x = v
        · simpa [hv] using hy
        · simp [hv] at hy
      obtain ⟨rfl, rfl⟩ := hyx
      have ho : (b.takeAll ident pre).Offers ident x := by
        refine .inr ((ht.ids_eq_false (ident x)).2 ⟨hnew x (by simp), fun z hz he => ?_⟩)
        have := List.find?_eq_none.1 hf z hz
        simp [he] at this
      rw [take_binding_offers ident _ ho]
      simp
    | some y' =>
      have hyy : y' = y := by simpa [hf] using hy
      subst hyy
      have hstub := ih hpre (fun z hz => hnew z (by simp [hz])) hf
      have hne : y' ≠ x := fun he => hx (he ▸ List.mem_of_find?_eq_some hf)
      by_cases ho : (b.takeAll ident pre).Offers ident x
      · rw [take_binding_offers ident _ ho, hstub]
        split <;> rfl
      · rw [take_binding_refused ident _ ho, if_neg hne, hstub]

/-- The first part of the devices has been handed over. -/
theorem holdsFirst_of_takeAll {post : List δ} (hn : (pre ++ post).Nodup) (hnew : ∀ x ∈ pre ++ post, b.ids (ident x) = false) :
    HoldsFirst ident (pre ++ post) (b.takeAll ident pre) := by
  have hpre := (List.nodup_append.1 hn).1
  intro v y hv hy
  have hin := ((takeAll_taken ident b hpre).ids v).1 hv
  refine takeAll_holdsFirst hpre (fun x hx => hnew x (by simp [hx])) v y ?_
  -- Some device with the id has had its turn, so the first one has.
  rw [List.find?_append] at hy
  cases hf : pre.find? (fun d => ident d = v) with
  | some y' => simpa [hf] using hy
  | none =>
    exfalso
    rcases hin with hin | ⟨z, hz, he⟩
    · have hfind : post.find? (fun d => ident d = v) = some y := by simpa [hf] using hy
      rw [← ident_of_find hfind, hnew y (by simp [List.mem_of_find?_eq_some hfind])] at hin
      cases hin
    · have := List.find?_eq_none.1 hf z hz
      simp [he] at this

theorem HoldsFirst.detach {devs : List δ} (hb : HoldsFirst ident devs b) (x : δ) :
    HoldsFirst ident devs (b.detach ident x) := by
  intro v y hv hy
  rw [detach_ids] at hv
  rw [detach_binding]
  split at hv
  · cases hv
  · rename_i hkeep
    have hstub := hb v y hv hy
    rw [if_neg, hstub]
    rintro rfl
    exact hkeep ⟨(ident_of_find hy).symm, hstub⟩

variable {hasNative}

/-- The device is back with its own driver, if it has one, and its id is not in
the table. -/
structure Released (ident : δ → ι) (hasNative : δ → Bool) (b : State δ ι) (x : δ) (b' : State δ ι) : Prop where
  self : b'.binding x ≠ .stub ∧ (hasNative x = true → b'.binding x = .native)
  other : ∀ e ≠ x, b'.binding e = b.binding e
  ids : ∀ v, b'.ids v = if v = ident x then false else b.ids v

/-- The id is gone when the device is probed. -/
theorem probe_released {c : State δ ι} (hs : c.binding x ≠ .stub) (hother : ∀ e ≠ x, c.binding e = b.binding e)
    (hids : ∀ v, c.ids v = if v = ident x then false else b.ids v) :
    Released ident hasNative b x (c.probe ident hasNative x) := by
  have hgone : c.ids (ident x) = false := by rw [hids, if_pos rfl]
  unfold probe
  by_cases hn : c.binding x = .none
  · rw [if_pos hn]
    refine ⟨?_, fun e he => ?_, hids⟩
    · cases hnat : hasNative x <;> simp [hgone]
    · simp [he, hother e he]
  · rw [if_neg hn]
    have hnative : c.binding x = .native := by
      cases hb : c.binding x with
      | none => exact absurd hb hn
      | stub => exact absurd hb hs
      | native => rfl
    exact ⟨by simp [hnative], hother, hids⟩

theorem release_released (hx : b.ids (ident x) = true → b.binding x = .stub) :
    Released ident hasNative b x (b.release ident hasNative x) := by
  unfold release
  by_cases hs : b.binding x = .stub
  · have hstub : (b.removeId (ident x)).stubUnbind x = (b.removeId (ident x)).unbind x := if_pos hs
    rw [if_pos hs, hstub]
    refine probe_released ?_ (fun e he => ?_) fun v => ?_
    · simp [unbind]
    · simp [unbind, removeId, he]
    · simp [unbind, removeId, Function.update_apply]
  · rw [if_neg hs]
    refine probe_released hs (fun _ _ => rfl) fun v => ?_
    split
    · rename_i hv
      rw [hv, ← Bool.not_eq_true]
      exact fun hk => hs (hx hk)
    · rfl

/-- It does no harm to remove the id when the device has no driver. -/
theorem removeId_probe_released (hn : b.binding x = .none) :
    Released ident hasNative b x (((b.removeId (ident x)).stubUnbind x).probe ident hasNative x) := by
  have hstub : (b.removeId (ident x)).stubUnbind x = b.removeId (ident x) := by
    simp [stubUnbind, removeId, hn]
  rw [hstub]
  refine probe_released ?_ (fun _ _ => rfl) fun v => ?_
  · simp [removeId, hn]
  · simp [removeId, Function.update_apply]

/-- Of the devices `devs`, the first ones are back. -/
structure Restored (ident : δ → ι) (hasNative : δ → Bool) (devs pre : List δ) (b : State δ ι) : Prop where
  back : ∀ y ∈ pre, b.binding y ≠ .stub ∧ (hasNative y = true → b.binding y = .native) ∧ b.ids (ident y) = false
  held : HoldsFirst ident devs b

omit [DecidableEq δ] in
theorem Restored.held_of_known {devs post : List δ} (hr : Restored ident hasNative devs pre b)
    (hd : devs = pre ++ x :: post) (hk : b.ids (ident x) = true) : b.binding x = .stub := by
  refine hr.held (ident x) x hk ?_
  -- Nobody before `x` has its id, or the id would be gone.
  have hnone : pre.find? (fun d => ident d = ident x) = none := by
    refine List.find?_eq_none.2 fun y hy he => ?_
    have := (hr.back y hy).2.2
    rw [of_decide_eq_true he, hk] at this
    cases this
  simp [hd, List.find?_append, hnone]

omit [DecidableEq δ] in
theorem Restored.step {devs post : List δ} (hr : Restored ident hasNative devs pre b) (hd : devs = pre ++ x :: post)
    (hn : devs.Nodup) (hrel : Released ident hasNative b x b') :
    Restored ident hasNative devs (pre ++ [x]) b' := by
  subst hd
  have hx : x ∉ pre := fun hm => (List.nodup_append.1 hn).2.2 x hm x List.mem_cons_self rfl
  refine ⟨fun y hy => ?_, fun v y hv hy => ?_⟩
  · rcases List.mem_append.1 hy with hy | hy
    · have hne : y ≠ x := fun he => hx (he ▸ hy)
      obtain ⟨hs, hnat, hid⟩ := hr.back y hy
      refine ⟨hrel.other y hne ▸ hs, hrel.other y hne ▸ hnat, ?_⟩
      rw [hrel.ids, hid, ite_self]
    · rw [List.mem_singleton] at hy
      subst hy
      exact ⟨hrel.self.1, hrel.self.2, by rw [hrel.ids, if_pos rfl]⟩
  · rw [hrel.ids] at hv
    split at hv
    · cases hv
    · rename_i hne
      have hyx : y ≠ x := by
        rintro rfl
        exact hne (ident_of_find hy).symm
      rw [hrel.other y hyx]
      exact hr.held v y hv hy
end State

end Bus
