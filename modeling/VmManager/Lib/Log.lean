import Mathlib.Data.List.Induction
/-!
# What a log leaves standing

Some entries of a log enter a value and some end what was entered before, both
by the entry alone. A value stands when no later entry ended it, and the entry
that ends it is the first one after it that could.
-/
namespace Log

variable {ε ν : Type} {enters : ε → Option ν} {ends : ε → Prop} {log : List ε}

/-- The value was entered, and nothing ended it since. -/
def Stands (enters : ε → Option ν) (ends : ε → Prop) (log : List ε) (v : ν) : Prop :=
  ∃ before e after, log = before ++ e :: after ∧ enters e = some v ∧ ∀ e' ∈ after, ¬ ends e'

/-- At `j` stands the first entry after `i` that ends a value. -/
def EndedAt (ends : ε → Prop) (log : List ε) (i j : Nat) : Prop :=
  i < j ∧ (∃ e, log[j]? = some e ∧ ends e) ∧ ∀ m, i < m → m < j → ∀ e, log[m]? = some e → ¬ ends e

theorem not_stands_nil (v : ν) : ¬ Stands enters ends [] v := by
  rintro ⟨before, e, after, heq, -⟩
  simp at heq

/-- One more entry: it enters the value, or the value stood and it does not end
it. -/
theorem stands_concat (e : ε) (v : ν) :
    Stands enters ends (log ++ [e]) v ↔ enters e = some v ∨ (Stands enters ends log v ∧ ¬ ends e) := by
  constructor
  · rintro ⟨before, d, after, heq, hd, hafter⟩
    induction after using List.reverseRecOn with
    | nil =>
      obtain ⟨-, he⟩ := List.append_inj' heq rfl
      cases he
      exact .inl hd
    | append_singleton after e' _ =>
      rw [← List.cons_append, ← List.append_assoc] at heq
      obtain ⟨hlog, he⟩ := List.append_inj' heq rfl
      cases he
      refine .inr ⟨⟨before, d, after, hlog, hd, fun a ha => hafter a (List.mem_append_left _ ha)⟩, ?_⟩
      exact hafter e (by simp)
  · rintro (he | ⟨⟨before, d, after, rfl, hd, hafter⟩, hn⟩)
    · exact ⟨log, e, [], rfl, he, by simp⟩
    · refine ⟨before, d, after ++ [e], by simp, hd, fun a ha => ?_⟩
      rcases List.mem_append.1 ha with ha | ha
      · exact hafter a ha
      · rw [List.mem_singleton.1 ha]
        exact hn

/-- What is entered ends only once. -/
theorem EndedAt.unique {i j j' : Nat} (h : EndedAt ends log i j) (h' : EndedAt ends log i j') : j = j' := by
  obtain ⟨hij, ⟨e, he, hends⟩, hbetween⟩ := h
  obtain ⟨hij', ⟨e', he', hends'⟩, hbetween'⟩ := h'
  rcases Nat.lt_trichotomy j j' with hlt | heq | hlt
  · exact absurd hends (hbetween' j hij hlt e he)
  · exact heq
  · exact absurd hends' (hbetween j' hij' hlt e' he')

/-- Later entries change nothing about it. -/
theorem EndedAt.append {i j : Nat} (h : EndedAt ends log i j) (rest : List ε) : EndedAt ends (log ++ rest) i j := by
  obtain ⟨hij, ⟨e, he, hends⟩, hbetween⟩ := h
  have hj : j < log.length := (List.getElem?_eq_some_iff.1 he).1
  refine ⟨hij, ⟨e, by rwa [List.getElem?_append_left hj], hends⟩, fun m hm hlt e' he' => ?_⟩
  rw [List.getElem?_append_left (by omega)] at he'
  exact hbetween m hm hlt e' he'

/-- The next entry ends a value that stands. -/
theorem endedAt_of_stands {v : ν} {e : ε} (h : Stands enters ends log v) (he : ends e) :
    ∃ i d, log[i]? = some d ∧ enters d = some v ∧ EndedAt ends (log ++ [e]) i log.length := by
  obtain ⟨before, d, after, rfl, hd, hafter⟩ := h
  refine ⟨before.length, d, by simp, hd, by simp, ⟨e, by simp, he⟩, fun m hm hlt e' he' => ?_⟩
  obtain ⟨n, rfl⟩ : ∃ n, m = before.length + (n + 1) := ⟨m - before.length - 1, by omega⟩
  simp only [List.length_append, List.length_cons] at hlt
  rw [List.append_assoc, List.getElem?_append_right (by omega)] at he'
  simp only [Nat.add_sub_cancel_left, List.cons_append, List.getElem?_cons_succ] at he'
  rw [List.getElem?_append_left (by omega)] at he'
  exact hafter e' (List.mem_of_getElem? he')

end Log
