import Mathlib.Data.List.Basic
import Mathlib.Data.List.Induction
/-!
# Runs of a step function

A system is a step function: from a state, an action either leads to a next
state or is not enabled. A run is a list of actions, one thread's step after
another's in any order, so a theorem about every run is a theorem about every
interleaving. What such systems share is here too: their locks, and one seen as
another. Nothing here knows what the states are.
-/
namespace Runs

variable {σ α : Type}

/-- The state after the actions, or `none` once one of them is not enabled. -/
def run (step : σ → α → Option σ) : σ → List α → Option σ
  | s, [] => some s
  | s, a :: as => (step s a).bind (run step · as)

/-- Every action of the run meets `G`, judged in the state before it. -/
def Guarded (step : σ → α → Option σ) (G : σ → α → Prop) : σ → List α → Prop
  | _, [] => True
  | s, a :: as => G s a ∧ ∀ s', step s a = some s' → Guarded step G s' as

variable {step : σ → α → Option σ} {G : σ → α → Prop} {I : σ → Prop} {s s' : σ} {as : List α}

theorem run_cons {a : α} : run step s (a :: as) = some s' ↔ ∃ s₁, step s a = some s₁ ∧ run step s₁ as = some s' := by
  simp [run, Option.bind_eq_some_iff]

instance Guarded.decide [∀ s a, Decidable (G s a)] : (s : σ) → (as : List α) → Decidable (Guarded step G s as)
  | _, [] => isTrue trivial
  | s, a :: as =>
    match h : step s a with
    | none => decidable_of_iff (G s a) ⟨fun hg => ⟨hg, fun s' h' => by simp [h] at h'⟩, fun hg => hg.1⟩
    | some s₁ =>
      have := Guarded.decide s₁ as
      decidable_of_iff (G s a ∧ Guarded step G s₁ as)
        ⟨fun hg => ⟨hg.1, fun s' h' => Option.some.inj (h.symm.trans h') ▸ hg.2⟩, fun hg => ⟨hg.1, hg.2 s₁ h⟩⟩

/-- A property that every guarded step keeps holds after every guarded run. -/
theorem run_keeps_guarded (hstep : ∀ s a s', I s → G s a → step s a = some s' → I s')
    (h : run step s as = some s') (hg : Guarded step G s as) (hi : I s) : I s' := by
  induction as generalizing s with
  | nil => simp only [run, Option.some.injEq] at h; exact h ▸ hi
  | cons a as ih =>
    obtain ⟨s₁, h₁, h⟩ := run_cons.1 h
    exact ih h (hg.2 s₁ h₁) (hstep s a s₁ hi hg.1 h₁)

/-- A property that every step keeps holds after every run. -/
theorem run_keeps (hstep : ∀ s a s', I s → step s a = some s' → I s')
    (h : run step s as = some s') (hi : I s) : I s' := by
  induction as generalizing s with
  | nil => simp only [run, Option.some.injEq] at h; exact h ▸ hi
  | cons a as ih =>
    obtain ⟨s₁, h₁, h⟩ := run_cons.1 h
    exact ih h (hstep s a s₁ hi h₁)

theorem run_append {bs : List α} :
    run step s (as ++ bs) = some s' ↔ ∃ s₁, run step s as = some s₁ ∧ run step s₁ bs = some s' := by
  induction as generalizing s with
  | nil => simp [run]
  | cons a as ih => simp only [List.cons_append, run_cons, ih]; grind

theorem guarded_append {bs : List α} (hg : Guarded step G s (as ++ bs)) (h : run step s as = some s') :
    Guarded step G s as ∧ Guarded step G s' bs := by
  induction as generalizing s with
  | nil =>
    cases h
    exact ⟨trivial, hg⟩
  | cons a as ih =>
    obtain ⟨s₁, h₁, h⟩ := run_cons.1 h
    obtain ⟨hga, hgb⟩ := ih (hg.2 s₁ h₁) h
    refine ⟨⟨hg.1, fun s₂ h₂ => ?_⟩, hgb⟩
    cases h₁.symm.trans h₂
    exact hga

theorem guarded_append_of {bs : List α} (hg : Guarded step G s as)
    (hg' : ∀ s', run step s as = some s' → Guarded step G s' bs) : Guarded step G s (as ++ bs) := by
  induction as generalizing s with
  | nil => exact hg' s rfl
  | cons a as ih => exact ⟨hg.1, fun s₁ h₁ => ih (hg.2 s₁ h₁) fun s' h => hg' s' (run_cons.2 ⟨s₁, h₁, h⟩)⟩

theorem guarded_and {G' : σ → α → Prop} :
    Guarded step (fun s a => G s a ∧ G' s a) s as ↔ Guarded step G s as ∧ Guarded step G' s as := by
  induction as generalizing s with
  | nil => simp [Guarded]
  | cons a as ih =>
    simp only [Guarded, ih]
    grind

theorem guarded_of_forall {P : α → Prop} (h : ∀ a ∈ as, P a) : Guarded step (fun _ a => P a) s as := by
  induction as generalizing s with
  | nil => trivial
  | cons a as ih => exact ⟨h a List.mem_cons_self, fun _ _ => ih fun b hb => h b (List.mem_cons_of_mem a hb)⟩

/-- A run that does not meet a guard fails it for a first time. -/
theorem not_guarded (hg : ¬ Guarded step G s as) :
    ∃ as₁ a as₂ s₁, as = as₁ ++ a :: as₂ ∧ run step s as₁ = some s₁ ∧ Guarded step G s as₁ ∧ ¬ G s₁ a := by
  induction as generalizing s with
  | nil => exact absurd trivial hg
  | cons a as ih =>
    by_cases ha : G s a
    · simp only [Guarded, not_and, not_forall] at hg
      obtain ⟨s₁, h₁, hg⟩ := hg ha
      obtain ⟨as₁, b, as₂, s₂, rfl, hr, hg₁, hb⟩ := ih hg
      refine ⟨a :: as₁, b, as₂, s₂, rfl, run_cons.2 ⟨s₁, h₁, hr⟩, ⟨ha, fun s' h' => ?_⟩, hb⟩
      cases h₁.symm.trans h'
      exact hg₁
    · exact ⟨[], a, as, s, rfl, rfl, trivial, ha⟩

/-- A property of the end that every step carries back to its start, where it
gives `G'`. -/
theorem guarded_of_end {G' : σ → α → Prop} {Q : σ → Prop} (hstep : ∀ s a s', I s → G s a → step s a = some s' → I s')
    (hback : ∀ s a s', I s → G s a → step s a = some s' → Q s' → Q s ∧ G' s a)
    (h : run step s as = some s') (hg : Guarded step G s as) (hi : I s) (hq : Q s') : Q s ∧ Guarded step G' s as := by
  induction as generalizing s with
  | nil =>
    cases h
    exact ⟨hq, trivial⟩
  | cons a as ih =>
    obtain ⟨s₁, h₁, h⟩ := run_cons.1 h
    obtain ⟨hq₁, hrest⟩ := ih h (hg.2 s₁ h₁) (hstep s a s₁ hi hg.1 h₁)
    obtain ⟨hq, hga⟩ := hback s a s₁ hi hg.1 h₁ hq₁
    refine ⟨hq, hga, fun s₂ h₂ => ?_⟩
    cases h₁.symm.trans h₂
    exact hrest

/-- A guard that gives another one in every state it leads to. -/
theorem guarded_imp {G' : σ → α → Prop} (hstep : ∀ s a s', I s → G s a → step s a = some s' → I s')
    (himp : ∀ s a, I s → G s a → G' s a) (hi : I s) (hg : Guarded step G s as) : Guarded step G' s as := by
  induction as generalizing s with
  | nil => trivial
  | cons a as ih => exact ⟨himp s a hi hg.1, fun s₁ h₁ => ih (hstep s a s₁ hi hg.1 h₁) (hg.2 s₁ h₁)⟩

/-- Two guards that agree as long as they are met are met by the same runs. -/
theorem guarded_congr {G' : σ → α → Prop} (hstep : ∀ s a s', I s → G s a → step s a = some s' → I s')
    (hiff : ∀ s a, I s → (G s a ↔ G' s a)) (hi : I s) : Guarded step G s as ↔ Guarded step G' s as := by
  constructor
  · exact guarded_imp hstep (fun s a hi => (hiff s a hi).1) hi
  · exact guarded_imp (fun s a s' hi hg => hstep s a s' hi ((hiff s a hi).2 hg)) (fun s a hi => (hiff s a hi).2) hi

/-- Some action of the run meets `E`, judged in the state before it. -/
def Happened (step : σ → α → Option σ) (E : σ → α → Prop) : σ → List α → Prop
  | _, [] => False
  | s, a :: as => E s a ∨ ∃ s', step s a = some s' ∧ Happened step E s' as

/-- What holds at the end and not at the start has come about on the way. -/
theorem run_happened {Q : σ → Prop} {E : σ → α → Prop} (hstep : ∀ s a s', I s → G s a → step s a = some s' → I s')
    (hcause : ∀ s a s', I s → G s a → step s a = some s' → Q s' → Q s ∨ E s a)
    (h : run step s as = some s') (hg : Guarded step G s as) (hi : I s) (hq : Q s') : Q s ∨ Happened step E s as := by
  induction as generalizing s with
  | nil =>
    cases h
    exact .inl hq
  | cons a as ih =>
    obtain ⟨s₁, h₁, h⟩ := run_cons.1 h
    rcases ih h (hg.2 s₁ h₁) (hstep s a s₁ hi hg.1 h₁) with hq | he
    · rcases hcause s a s₁ hi hg.1 h₁ hq with hq | he
      · exact .inl hq
      · exact .inr (.inl he)
    · exact .inr (.inr ⟨s₁, h₁, he⟩)

/-! ## History variables -/

section History

variable {γ : Type} {upd : σ → α → γ → γ} {g g' : γ}

/-- The system with something remembered beside its state. What is remembered
follows the steps and does not decide any of them. -/
def withHistory (step : σ → α → Option σ) (upd : σ → α → γ → γ) (s : σ × γ) (a : α) : Option (σ × γ) :=
  (step s.1 a).map fun s' => (s', upd s.1 a s.2)

theorem withHistory_eq {a : α} : withHistory step upd (s, g) a = some (s', g') ↔ step s a = some s' ∧ upd s a g = g' := by
  simp [withHistory]

/-- A run is a run of the system alone. -/
theorem run_forget {p p' : σ × γ} (h : run (withHistory step upd) p as = some p') : run step p.1 as = some p'.1 := by
  induction as generalizing p with
  | nil => cases h; rfl
  | cons a as ih =>
    obtain ⟨p₁, h₁, h⟩ := run_cons.1 h
    exact run_cons.2 ⟨p₁.1, (withHistory_eq.1 h₁).1, ih h⟩

/-- What is remembered decides nothing, so a guard on the state alone stays one. -/
theorem guarded_history (hg : Guarded step G s as) : Guarded (withHistory step upd) (fun p a => G p.1 a) (s, g) as := by
  induction as generalizing s g with
  | nil => trivial
  | cons a as ih =>
    refine ⟨hg.1, fun p h => ?_⟩
    obtain ⟨s₁, g₁⟩ := p
    exact ih (hg.2 s₁ (withHistory_eq.1 h).1)

end History

/-- How many of the actions meet `A`, up to the first state that meets `D`. -/
def stepsUntil (step : σ → α → Option σ) (A : σ → α → Bool) (D : σ → Bool) : σ → List α → Nat
  | _, [] => 0
  | s, a :: as =>
    if D s then 0
    else
      match step s a with
      | none => 0
      | some s' => (A s a).toNat + stepsUntil step A D s' as

/-- A rank that no step raises and that every action of `A` lowers bounds how
many of them a run can take. -/
theorem stepsUntil_le_rank {A : σ → α → Bool} {D : σ → Bool} {rank : σ → Nat}
    (hstep : ∀ s a s', I s → G s a → step s a = some s' → I s')
    (hrank : ∀ s a s', I s → G s a → step s a = some s' → D s = false → (A s a).toNat + rank s' ≤ rank s)
    (hg : Guarded step G s as) (hi : I s) : stepsUntil step A D s as ≤ rank s := by
  induction as generalizing s with
  | nil => exact Nat.zero_le _
  | cons a as ih =>
    unfold stepsUntil
    by_cases hd : D s = true
    · rw [if_pos hd]
      exact Nat.zero_le _
    · rw [if_neg hd]
      split
      · exact Nat.zero_le _
      · rename_i s' hs
        have hle := ih (hg.2 s' hs) (hstep s a s' hi hg.1 hs)
        have hr := hrank s a s' hi hg.1 hs (Bool.eq_false_iff.2 hd)
        omega

/-- The states that the runs from `s₀` reach. -/
def Reachable (step : σ → α → Option σ) (s₀ s : σ) : Prop := ∃ as, run step s₀ as = some s

theorem Reachable.keeps {s₀ : σ} (h : Reachable step s₀ s)
    (hstep : ∀ s a s', I s → step s a = some s' → I s') (hi : I s₀) : I s := by
  obtain ⟨as, h⟩ := h
  exact run_keeps hstep h hi

/-! ## What a run has passed -/

/-- Some state of the run, its ends among them, has `Q`. -/
def Passes (step : σ → α → Option σ) (Q : σ → Prop) (s : σ) (as : List α) : Prop :=
  ∃ as₁ as₂ s₁, as = as₁ ++ as₂ ∧ run step s as₁ = some s₁ ∧ Q s₁

theorem Passes.append {Q : σ → Prop} (h : Passes step Q s as) (bs : List α) : Passes step Q s (as ++ bs) := by
  obtain ⟨as₁, as₂, s₁, rfl, hr, hq⟩ := h
  exact ⟨as₁, as₂ ++ bs, s₁, List.append_assoc .., hr, hq⟩

theorem Passes.last {Q : σ → Prop} (hr : run step s as = some s') (hq : Q s') : Passes step Q s as :=
  ⟨as, [], s', (List.append_nil _).symm, hr, hq⟩

/-- What every step keeps, when it may speak of the run so far. -/
theorem run_keeps_past {J : List α → σ → Prop}
    (hstep : ∀ as s₁ a s₂, run step s as = some s₁ → J as s₁ → step s₁ a = some s₂ → J (as ++ [a]) s₂)
    (h : run step s as = some s') (hi : J [] s) : J as s' := by
  induction as using List.reverseRecOn generalizing s' with
  | nil =>
    cases h
    exact hi
  | append_singleton as a ih =>
    obtain ⟨s₁, h₁, h⟩ := run_append.1 h
    obtain ⟨s₂, h₂, h⟩ := run_cons.1 h
    cases h
    exact hstep as s₁ a s' h₁ (ih h₁) h₂

/-! ## What can still happen

`run` says what a system has done, `CanReach` what it can do from here on. A
system in which every reachable state can reach a goal has no deadlock on the
way to it. -/

section Progress

variable {A : σ → α → Prop} {P Q : σ → Prop}

/-- Some run of actions that meet `A` leads from `s` to a state with `P`. -/
def CanReach (step : σ → α → Option σ) (A : σ → α → Prop) (P : σ → Prop) (s : σ) : Prop :=
  ∃ as s', Guarded step A s as ∧ run step s as = some s' ∧ P s'

theorem CanReach.here (h : P s) : CanReach step A P s := ⟨[], s, trivial, rfl, h⟩

theorem CanReach.next {a : α} (ha : A s a) (hs : step s a = some s') (h : CanReach step A P s') :
    CanReach step A P s := by
  obtain ⟨as, t, hA, hr, hp⟩ := h
  refine ⟨a :: as, t, ⟨ha, fun s₁ h₁ => ?_⟩, run_cons.2 ⟨s', hs, hr⟩, hp⟩
  cases hs.symm.trans h₁
  exact hA

theorem CanReach.trans (h : CanReach step A Q s) (hq : ∀ s, Q s → CanReach step A P s) : CanReach step A P s := by
  obtain ⟨as, t, hA, hr, ht⟩ := h
  obtain ⟨bs, u, hB, hr', hu⟩ := hq t ht
  refine ⟨as ++ bs, u, guarded_append_of hA fun t' ht' => ?_, run_append.2 ⟨t, hr, hr'⟩, hu⟩
  cases hr.symm.trans ht'
  exact hB

theorem CanReach.imp (h : CanReach step A Q s) (hq : ∀ s, Q s → P s) : CanReach step A P s :=
  h.trans fun s hs => .here (hq s hs)

/-- Where every state short of the goal has an allowed action that lowers a
rank, the goal can be reached. -/
theorem canReach_of_rank (rank : σ → Nat)
    (hnext : ∀ s, I s → ¬ P s → ∃ a s', A s a ∧ step s a = some s' ∧ I s' ∧ rank s' < rank s) (hi : I s) :
    CanReach step A (fun s => I s ∧ P s) s := by
  induction hn : rank s using Nat.strongRecOn generalizing s with
  | ind n ih =>
    by_cases hp : P s
    · exact .here ⟨hi, hp⟩
    · obtain ⟨a, s', ha, hs, hi', hlt⟩ := hnext s hi hp
      exact .next ha hs (ih (rank s') (hn ▸ hlt) hi' rfl)

end Progress

/-! ## One system seen as another

`f` shows a state of one system as a state of another. Where every step of the
one shows as some steps of the other, none of them among the possibilities, the
other does whatever the one does, and its invariants hold of what is shown. -/

section Simulation

variable {τ β : Type} {step' : τ → β → Option τ} {f : σ → τ} {s₀ : σ}

/-- Every step is a run of the other system, seen through `f`. -/
def Simulates (step : σ → α → Option σ) (step' : τ → β → Option τ) (f : σ → τ) : Prop :=
  ∀ s a s', step s a = some s' → ∃ bs, run step' (f s) bs = some (f s')

theorem Reachable.refl (s : σ) : Reachable step s s := ⟨[], rfl⟩

theorem Reachable.trans {t u : σ} (h : Reachable step s t) (h' : Reachable step t u) : Reachable step s u := by
  obtain ⟨as, h⟩ := h
  obtain ⟨bs, h'⟩ := h'
  exact ⟨as ++ bs, run_append.2 ⟨t, h, h'⟩⟩

/-- What is reachable shows as something reachable. -/
theorem Simulates.reachable (h : Simulates step step' f) (hr : Reachable step s₀ s) :
    Reachable step' (f s₀) (f s) :=
  hr.keeps (I := fun s => Reachable step' (f s₀) (f s)) (fun _ _ _ hi hs => hi.trans (h _ _ _ hs)) (.refl _)

/-- What is kept by the steps of the other system is kept by those of the one. -/
theorem Simulates.keeps (h : Simulates step step' f) {I : τ → Prop} (hI : ∀ t b t', I t → step' t b = some t' → I t')
    {a : α} {s' : σ} (hi : I (f s)) (hs : step s a = some s') : I (f s') := by
  obtain ⟨bs, hr⟩ := h s a s' hs
  exact run_keeps hI hr hi

/-- The same from the states that `I` keeps. -/
structure SimulatesOn (I : σ → Prop) (step : σ → α → Option σ) (step' : τ → β → Option τ) (f : σ → τ) : Prop where
  keeps : ∀ s a s', I s → step s a = some s' → I s'
  shows : ∀ s a s', I s → step s a = some s' → ∃ bs, run step' (f s) bs = some (f s')

theorem SimulatesOn.reachable {I : σ → Prop} (h : SimulatesOn I step step' f) (hi : I s₀) (hr : Reachable step s₀ s) :
    Reachable step' (f s₀) (f s) :=
  (hr.keeps (I := fun s => I s ∧ Reachable step' (f s₀) (f s))
    (fun _ _ _ hi hs => ⟨h.keeps _ _ _ hi.1 hs, hi.2.trans (h.shows _ _ _ hi.1 hs)⟩) ⟨hi, .refl _⟩).2

end Simulation

end Runs

/-! ## Who holds a mutex

Each party knows from where it is whether it holds the mutex; the mutex knows
its owner. `Held` says that they agree, and the rules say what taking and
releasing it does to that. -/

namespace Mutex

variable {α : Type} {f g : α → Bool} {o : Option α} {a b : α}

/-- The parties that believe to hold the mutex are its owner. -/
def Held (f : α → Bool) (o : Option α) : Prop := ∀ a, f a = true ↔ o = some a

theorem Held.unique (h : Held f o) (ha : f a = true) (hb : f b = true) : a = b :=
  Option.some.inj (((h a).1 ha).symm.trans ((h b).1 hb))

/-- Nobody changes their mind. -/
theorem Held.keep (h : Held f o) (hg : ∀ a, g a = f a) : Held g o := by
  intro a
  rw [hg a]
  exact h a

theorem Held.lock (h : Held f none) (ha : g a = true) (hg : ∀ b, b ≠ a → g b = f b) : Held g (some a) := by
  intro b
  by_cases hb : b = a
  · subst hb
    exact ⟨fun _ => rfl, fun _ => ha⟩
  · rw [hg b hb, h b]
    exact ⟨nofun, fun he => absurd (Option.some.inj he).symm hb⟩

theorem Held.unlock (h : Held f o) (hf : f a = true) (ha : g a = false) (hg : ∀ b, b ≠ a → g b = f b) :
    Held g none := by
  intro b
  refine ⟨fun hb => ?_, nofun⟩
  by_cases he : b = a
  · rw [he, ha] at hb
    cases hb
  · rw [hg b he] at hb
    exact absurd (h.unique hb hf) he

end Mutex
