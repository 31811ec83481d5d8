import Mathlib.Data.Set.Insert
import VmManager.Lib.Runs
/-!
# Fleets

Members come under keys that were never given out before, each with a name that
no other member has. They go through phases along a graph, and leave. What the
two ends of a run say about each other follows from that alone. Nothing here
knows what the members are.
-/
open Runs

/-- The members under their keys, each with its name and its phase. -/
structure Fleet (υ ν φ : Type) where
  member : υ → Option (ν × φ)
  /-- The keys that are not given out any more. -/
  taken : Set υ

namespace Fleet

variable {υ ν φ : Type}

inductive Event (υ ν φ : Type)
  | join (u : υ) (n : ν) (p : φ)
  | advance (u : υ) (p : φ)
  | leave (u : υ)
  /-- A key is given out in vain. -/
  | waste (u : υ)

/-- The phases a member may come in, and the graph it goes along. -/
structure Course (φ : Type) where
  first : φ → Prop
  next : φ → φ → Prop

def Allowed (c : Course φ) (f : Fleet υ ν φ) : Event υ ν φ → Prop
  | .join u n p => u ∉ f.taken ∧ (∀ v q, f.member v ≠ some (n, q)) ∧ c.first p
  | .advance u p => ∃ n q, f.member u = some (n, q) ∧ c.next q p
  | .leave u => f.member u ≠ none
  | .waste u => u ∉ f.taken

/-- There is nobody. -/
def empty : Fleet υ ν φ := ⟨fun _ => none, ∅⟩

/-- What every fleet keeps. -/
structure Sound (f : Fleet υ ν φ) : Prop where
  names : ∀ u v n p q, f.member u = some (n, p) → f.member v = some (n, q) → u = v
  taken : ∀ u, f.member u ≠ none → u ∈ f.taken

theorem sound_empty : Sound (empty : Fleet υ ν φ) := ⟨fun _ _ _ _ _ hu => (by cases hu), fun _ hu => absurd rfl hu⟩

variable [DecidableEq υ]

def apply (f : Fleet υ ν φ) : Event υ ν φ → Fleet υ ν φ
  | .join u n p => ⟨Function.update f.member u (some (n, p)), insert u f.taken⟩
  | .advance u p => ⟨Function.update f.member u ((f.member u).map fun m => (m.1, p)), f.taken⟩
  | .leave u => ⟨Function.update f.member u none, f.taken⟩
  | .waste u => ⟨f.member, insert u f.taken⟩

open Classical in
noncomputable def step (c : Course φ) (f : Fleet υ ν φ) (e : Event υ ν φ) : Option (Fleet υ ν φ) :=
  if Allowed c f e then some (f.apply e) else none

variable {c : Course φ} {f f' : Fleet υ ν φ} {e : Event υ ν φ} {u v : υ} {n n' : ν} {p p' q : φ}

theorem step_eq : step c f e = some f' ↔ Allowed c f e ∧ f.apply e = f' := by
  unfold step
  split <;> simp_all

/-- To advance to the phase one is in changes nothing. -/
theorem apply_advance_self (hm : f.member u = some (n, p)) : f.apply (.advance u p) = f := by
  change Fleet.mk (Function.update f.member u ((f.member u).map fun m => (m.1, p))) f.taken = f
  rw [hm, Option.map_some, ← hm, Function.update_eq_self]

/-! ## Steps -/

/-- Where a member comes from. -/
theorem member_of_step (hs : step c f e = some f') {m : ν × φ} (hm : f'.member u = some m) :
    (e = .join u m.1 m.2 ∧ u ∉ f.taken) ∨ f.member u = some m ∨
      (e = .advance u m.2 ∧ ∃ q, f.member u = some (m.1, q) ∧ c.next q m.2) := by
  obtain ⟨ha, rfl⟩ := step_eq.1 hs
  cases e with
  | join v n p =>
    by_cases he : u = v
    · subst he
      simp only [apply, Function.update_self, Option.some.injEq] at hm
      exact .inl ⟨by rw [← hm], ha.1⟩
    · exact .inr (.inl (by simpa only [apply, Function.update_of_ne he] using hm))
  | advance v p =>
    by_cases he : u = v
    · subst he
      obtain ⟨n, q, hq, hn⟩ := ha
      simp only [apply, Function.update_self, hq, Option.map_some, Option.some.injEq] at hm
      subst hm
      exact .inr (.inr ⟨rfl, q, hq, hn⟩)
    · exact .inr (.inl (by simpa only [apply, Function.update_of_ne he] using hm))
  | leave v =>
    by_cases he : u = v
    · subst he
      simp only [apply, Function.update_self] at hm
      cases hm
    · exact .inr (.inl (by simpa only [apply, Function.update_of_ne he] using hm))
  | waste v => exact .inr (.inl hm)

theorem taken_of_step (hs : step c f e = some f') : f.taken ⊆ f'.taken := by
  obtain ⟨-, rfl⟩ := step_eq.1 hs
  cases e with
  | join v => exact Set.subset_insert v _
  | waste v => exact Set.subset_insert v _
  | _ => exact subset_rfl

/-- A member that has not just come was there before, under its name. -/
theorem member_before (hs : step c f e = some f') (ht : u ∈ f.taken) (hm : f'.member u = some (n, p)) :
    ∃ q, f.member u = some (n, q) := by
  rcases member_of_step hs hm with ⟨-, hn⟩ | hm | ⟨-, q, hq, -⟩
  · exact absurd ht hn
  · exact ⟨p, hm⟩
  · exact ⟨q, hq⟩

theorem name_of_step (hs : step c f e = some f') (hm : f'.member u = some (n, p)) :
    (∃ q, f.member u = some (n, q)) ∨ (e = .join u n p ∧ ∀ v q, f.member v ≠ some (n, q)) := by
  rcases member_of_step hs hm with ⟨rfl, -⟩ | hm | ⟨-, q, hq, -⟩
  · exact .inr ⟨rfl, (step_eq.1 hs).1.2.1⟩
  · exact .inl ⟨p, hm⟩
  · exact .inl ⟨q, hq⟩

theorem sound_step (hi : Sound f) (hs : step c f e = some f') : Sound f' := by
  constructor
  · intro u v n p q hu hv
    rcases name_of_step hs hu with ⟨p', hu⟩ | ⟨rfl, hu⟩ <;> rcases name_of_step hs hv with ⟨q', hv⟩ | ⟨he, hv⟩
    · exact hi.names u v n p' q' hu hv
    · exact absurd hu (hv u p')
    · exact absurd hv (hu v q')
    · cases he
      rfl
  · intro u hu
    obtain ⟨m, hm⟩ := Option.ne_none_iff_exists'.1 hu
    rcases member_of_step hs hm with ⟨rfl, -⟩ | hm | ⟨-, q, hm, -⟩
    · obtain ⟨-, rfl⟩ := step_eq.1 hs
      exact Set.mem_insert u _
    · exact taken_of_step hs (hi.taken u (hm ▸ Option.some_ne_none m))
    · exact taken_of_step hs (hi.taken u (hm ▸ Option.some_ne_none (m.1, q)))

/-! ## The two ends of a run -/

theorem Sound.reachable (hi : Sound f) (hr : Reachable (step c) f f') : Sound f' :=
  hr.keeps (I := Sound) (fun _ _ _ hi hs => sound_step hi hs) hi

/-- Who has left does not come back. -/
theorem stays_gone (hr : Reachable (step c) f f') (ht : u ∈ f.taken) (hn : f.member u = none) : f'.member u = none := by
  refine (hr.keeps (I := fun f => u ∈ f.taken ∧ f.member u = none) (fun g _ g' hi hs => ?_) ⟨ht, hn⟩).2
  refine ⟨taken_of_step hs hi.1, Option.eq_none_iff_forall_not_mem.2 fun m hm => ?_⟩
  obtain ⟨q, hq⟩ := member_before hs hi.1 hm
  rw [hi.2] at hq
  cases hq

/-- Who is there at both ends has kept its name and has gone along the graph. -/
theorem goes_along (hi : Sound f) (hr : Reachable (step c) f f') (hm : f.member u = some (n, p))
    (hm' : f'.member u = some (n', p')) : n' = n ∧ Relation.ReflTransGen c.next p p' := by
  have hstart : u ∈ f.taken ∧ ∀ m, f.member u = some m → m.1 = n ∧ Relation.ReflTransGen c.next p m.2 := by
    refine ⟨hi.taken u (hm ▸ Option.some_ne_none (n, p)), fun m he => ?_⟩
    rw [hm] at he
    cases he
    exact ⟨rfl, .refl⟩
  refine (hr.keeps (I := fun f => u ∈ f.taken ∧ ∀ m, f.member u = some m → m.1 = n ∧
    Relation.ReflTransGen c.next p m.2) (fun g e g' hg hs => ?_) hstart).2 (n', p') hm'
  refine ⟨taken_of_step hs hg.1, fun m hm => ?_⟩
  rcases member_of_step hs hm with ⟨-, hn⟩ | hm | ⟨-, q, hq, hnext⟩
  · exact absurd hg.1 hn
  · exact hg.2 m hm
  · exact ⟨(hg.2 _ hq).1, (hg.2 _ hq).2.tail hnext⟩

/-- A name comes to another member only when the one that had it has left. -/
theorem name_passes_on (hi : Sound f) (hr : Reachable (step c) f f') (hm : f.member u = some (n, p))
    (hv : f'.member v = some (n, q)) (hne : v ≠ u) : f'.member u = none := by
  refine Option.eq_none_iff_forall_not_mem.2 fun m hm' => ?_
  obtain ⟨hn, -⟩ := goes_along hi hr hm hm'
  exact hne ((hi.reachable hr).names v u n q m.2 hv (hn ▸ hm'))

end Fleet
