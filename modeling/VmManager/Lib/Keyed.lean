import Mathlib.Data.List.Nodup
import Mathlib.Logic.Function.Basic
/-!
# Keyed rows

Rows with a key, some keys more than once, and new rows for some of the keys.
`upsert` puts each new row where the first row of its key stood, and behind all
rows if there was none. Later rows of the key stay.

`filter_key_upsert` says what the rows of one key are afterwards, `filter_upsert`
that the rows of other keys are as before, `map_key_upsert` that every row keeps
its place, and `upsert_upsert` that a second time changes nothing.
-/
namespace Keyed

variable {α κ : Type} [DecidableEq κ]

/-- A new row is used up when the first row of its key is replaced. -/
def rewrite (key : α → κ) (new : κ → Option α) : List α → List α
  | [] => []
  | x :: xs =>
    match new (key x) with
    | some y => y :: rewrite key (Function.update new (key x) none) xs
    | none => x :: rewrite key new xs

/-- The new rows that no row had the key of. -/
def left (key : α → κ) (new : κ → Option α) (xs : List α) (k : κ) : Option α :=
  if k ∈ xs.map key then none else new k

def upsert (key : α → κ) (keys : List κ) (new : κ → Option α) (xs : List α) : List α :=
  rewrite key new xs ++ keys.filterMap (left key new xs)

/-- Every new row has the key it is for. -/
def Fits (key : α → κ) (new : κ → Option α) : Prop := ∀ k y, new k = some y → key y = k

variable {key : α → κ} {keys : List κ} {new : κ → Option α}

theorem Fits.update (h : Fits key new) (k : κ) : Fits key (Function.update new k none) := by
  intro j y hy
  by_cases hj : j = k
  · subst hj
    simp at hy
  · rw [Function.update_of_ne hj] at hy
    exact h j y hy

@[simp] theorem left_nil : left key new [] = new := by
  funext k
  simp [left]

theorem left_cons (x : α) (xs : List α) :
    left key new (x :: xs) = left key (Function.update new (key x) none) xs := by
  funext k
  by_cases hk : k = key x
  · simp [left, hk]
  · simp [left, hk]

theorem left_cons_of_none {x : α} (h : new (key x) = none) (xs : List α) :
    left key new (x :: xs) = left key new xs := by
  rw [left_cons, ← h, Function.update_eq_self]

/-! ## Places -/

theorem map_key_rewrite (h : Fits key new) (xs : List α) : (rewrite key new xs).map key = xs.map key := by
  induction xs generalizing new with
  | nil => rfl
  | cons x xs ih =>
    unfold rewrite
    cases hx : new (key x) with
    | none => simp [ih h]
    | some y => simp [ih (h.update _), h _ _ hx]

/-- Every row stays at its place, or the new row of the same key does. -/
theorem map_key_upsert (h : Fits key new) (xs : List α) :
    (upsert key keys new xs).map key = xs.map key ++ (keys.filterMap (left key new xs)).map key := by
  rw [upsert, List.map_append, map_key_rewrite h]

theorem mem_rewrite {z : α} {xs : List α} (hz : z ∈ rewrite key new xs) : z ∈ xs ∨ ∃ k, new k = some z := by
  induction xs generalizing new with
  | nil => simp [rewrite] at hz
  | cons x xs ih =>
    unfold rewrite at hz
    cases hx : new (key x) with
    | none =>
      rw [hx] at hz
      rcases List.mem_cons.1 hz with rfl | hz
      · exact .inl List.mem_cons_self
      · exact (ih hz).imp_left (List.mem_cons_of_mem x)
    | some y =>
      rw [hx] at hz
      rcases List.mem_cons.1 hz with rfl | hz
      · exact .inr ⟨_, hx⟩
      · refine (ih hz).imp (List.mem_cons_of_mem x) ?_
        rintro ⟨k, hk⟩
        by_cases he : k = key x
        · simp [he] at hk
        · exact ⟨k, by rwa [Function.update_of_ne he] at hk⟩

theorem left_eq_some {xs : List α} {k : κ} {y : α} : left key new xs k = some y ↔ k ∉ xs.map key ∧ new k = some y := by
  unfold left
  split <;> simp_all

theorem mem_upsert {z : α} {xs : List α} (hz : z ∈ upsert key keys new xs) : z ∈ xs ∨ ∃ k, new k = some z := by
  rcases List.mem_append.1 hz with hz | hz
  · exact mem_rewrite hz
  · obtain ⟨k, -, hk⟩ := List.mem_filterMap.1 hz
    exact .inr ⟨k, (left_eq_some.1 hk).2⟩

/-! ## What a filter keeps -/

theorem filter_rewrite (p : α → Bool) (h : Fits key new) (hp : ∀ x, p x = true → new (key x) = none) (xs : List α) :
    (rewrite key new xs).filter p = xs.filter p := by
  induction xs generalizing new with
  | nil => rfl
  | cons x xs ih =>
    unfold rewrite
    cases hx : new (key x) with
    | none => simp only [List.filter_cons, ih h hp]
    | some y =>
      have hnot : ∀ z, key z = key x → p z = false := fun z hz => by
        refine Bool.eq_false_iff.2 fun hpz => ?_
        have := hp z hpz
        rw [hz, hx] at this
        cases this
      have hp' : ∀ z, p z = true → Function.update new (key x) none (key z) = none := fun z hz => by
        by_cases he : key z = key x
        · simp [he]
        · rw [Function.update_of_ne he]
          exact hp z hz
      simp only [List.filter_cons, hnot y (h _ _ hx), hnot x rfl, ih (h.update _) hp', Bool.false_eq_true, if_false]

/-- Rows whose key has no new row are as before, in the same order. -/
theorem filter_upsert (p : α → Bool) (h : Fits key new) (hp : ∀ x, p x = true → new (key x) = none) (xs : List α) :
    (upsert key keys new xs).filter p = xs.filter p := by
  have hrest : (keys.filterMap (left key new xs)).filter p = [] := by
    refine List.filter_eq_nil_iff.2 fun y hy hpy => ?_
    obtain ⟨k, -, hk⟩ := List.mem_filterMap.1 hy
    have hky := (left_eq_some.1 hk).2
    have := hp y hpy
    rw [h k y hky, hky] at this
    cases this
  rw [upsert, List.filter_append, filter_rewrite p h hp, hrest, List.append_nil]

theorem filter_key_rewrite (h : Fits key new) {k : κ} {y : α} (hk : new k = some y) (xs : List α) :
    (rewrite key new xs).filter (key · = k) =
      if k ∈ xs.map key then y :: (xs.filter (key · = k)).tail else [] := by
  induction xs generalizing new with
  | nil => rfl
  | cons x xs ih =>
    unfold rewrite
    by_cases hx : key x = k
    · subst hx
      have hrest : (rewrite key (Function.update new (key x) none) xs).filter (key · = key x) =
          xs.filter (key · = key x) :=
        filter_rewrite _ (h.update _) (fun z hz => by simp [of_decide_eq_true hz]) xs
      simp [hk, h _ _ hk, hrest]
    · cases hn : new (key x) with
      | none => simp [hx, ih h hk, Ne.symm hx]
      | some z =>
        have hk' : Function.update new (key x) none k = some y := by
          rw [Function.update_of_ne (Ne.symm hx)]
          exact hk
        simp [hx, h _ _ hn, ih (h.update _) hk', Ne.symm hx]

theorem filterMap_left (h : Fits key new) (hnd : keys.Nodup) {k : κ} (hmem : k ∈ keys) (xs : List α) :
    (keys.filterMap (left key new xs)).filter (key · = k) = (left key new xs k).toList := by
  induction keys with
  | nil => cases hmem
  | cons j keys ih =>
    have hkey : ∀ {i : κ} {z : α}, left key new xs i = some z → key z = i := fun hz => h _ _ (left_eq_some.1 hz).2
    obtain ⟨hj, hnd⟩ := List.nodup_cons.1 hnd
    rw [List.filterMap_cons]
    rcases List.mem_cons.1 hmem with rfl | hmem
    · -- Later keys differ from `k`, so nothing more is found for it.
      have hrest : (keys.filterMap (left key new xs)).filter (key · = k) = [] := by
        refine List.filter_eq_nil_iff.2 fun z hz hzk => hj ?_
        obtain ⟨i, hi, hz⟩ := List.mem_filterMap.1 hz
        rw [← of_decide_eq_true hzk, hkey hz]
        exact hi
      cases hl : left key new xs k with
      | none => simpa using hrest
      | some z => simpa [hkey hl] using hrest
    · have hne : j ≠ k := fun he => hj (he ▸ hmem)
      cases hl : left key new xs j with
      | none => exact ih hnd hmem
      | some z => simpa [hkey hl, hne] using ih hnd hmem

/-- The rows of a key with a new row: the new one, then what was there but the
first. -/
theorem filter_key_upsert (h : Fits key new) (hnd : keys.Nodup) {k : κ} (hmem : k ∈ keys) {y : α} (hk : new k = some y)
    (xs : List α) : (upsert key keys new xs).filter (key · = k) = y :: (xs.filter (key · = k)).tail := by
  rw [upsert, List.filter_append, filter_key_rewrite h hk, filterMap_left h hnd hmem]
  by_cases hx : k ∈ xs.map key
  · simp [left, hx]
  · have hnone : xs.filter (key · = k) = [] := by
      refine List.filter_eq_nil_iff.2 fun z hz hzk => hx ?_
      exact List.mem_map.2 ⟨z, hz, of_decide_eq_true hzk⟩
    simp [left, hx, hnone, hk]

/-- Where the new row of a key stands: at the place of the first row of its key,
or behind all rows. -/
theorem upsert_eq_append (h : Fits key new) (hnd : keys.Nodup) {k : κ} (hmem : k ∈ keys) {y : α} (hk : new k = some y)
    (xs : List α) :
    ∃ pre post, upsert key keys new xs = pre ++ y :: post ∧ (∀ z ∈ pre, key z ≠ k) ∧
      (k ∈ xs.map key → pre.length = (xs.map key).idxOf k) ∧ (k ∉ xs.map key → xs.length ≤ pre.length) := by
  obtain ⟨pre, post, heq, hpre, -, -⟩ := List.filter_eq_cons_iff.1 (filter_key_upsert h hnd hmem hk xs)
  have hnot : k ∉ pre.map key := by
    intro hin
    obtain ⟨z, hz, hzk⟩ := List.mem_map.1 hin
    exact hpre z hz (by simpa using hzk)
  -- Both sides are the index of the key among the keys of the new rows.
  have hidx : ((upsert key keys new xs).map key).idxOf k = pre.length := by
    rw [heq, List.map_append, List.map_cons, h k y hk, List.idxOf_append_of_notMem hnot]
    simp
  rw [map_key_upsert h] at hidx
  refine ⟨pre, post, heq, fun z hz hzk => hnot (List.mem_map.2 ⟨z, hz, hzk⟩), fun hin => ?_, fun hout => ?_⟩
  · rw [← hidx, List.idxOf_append_of_mem hin]
  · rw [← hidx, List.idxOf_append_of_notMem hout, List.length_map]
    omega

/-! ## A second time -/

/-- Nothing changes when the first row of each key is the new one already. -/
theorem rewrite_eq_self {xs : List α}
    (h : ∀ k y, new k = some y → ∀ z zs, xs.filter (key · = k) = z :: zs → z = y) : rewrite key new xs = xs := by
  induction xs generalizing new with
  | nil => rfl
  | cons x xs ih =>
    unfold rewrite
    cases hx : new (key x) with
    | none =>
      refine congrArg (x :: ·) (ih fun k y hk z zs hz => ?_)
      have hne : key x ≠ k := fun he => by
        rw [← he, hx] at hk
        cases hk
      exact h k y hk z zs (by simpa [hne] using hz)
    | some y =>
      obtain rfl : x = y := h _ y hx x (xs.filter (key · = key x)) (by simp)
      refine congrArg (x :: ·) (ih fun k w hk z zs hz => ?_)
      by_cases he : k = key x
      · simp [he] at hk
      · rw [Function.update_of_ne he] at hk
        exact h k w hk z zs (by simpa [Ne.symm he] using hz)

theorem upsert_upsert (h : Fits key new) (hnd : keys.Nodup) (hin : ∀ k y, new k = some y → k ∈ keys) (xs : List α) :
    upsert key keys new (upsert key keys new xs) = upsert key keys new xs := by
  have hfirst : ∀ {k : κ} {y : α}, new k = some y →
      (upsert key keys new xs).filter (key · = k) = y :: (xs.filter (key · = k)).tail :=
    fun hk => filter_key_upsert h hnd (hin _ _ hk) hk xs
  have hself : rewrite key new (upsert key keys new xs) = upsert key keys new xs := by
    refine rewrite_eq_self fun k y hk z zs hz => ?_
    rw [hfirst hk] at hz
    exact (List.cons.inj hz).1.symm
  have hleft : keys.filterMap (left key new (upsert key keys new xs)) = [] := by
    refine List.filterMap_eq_nil_iff.2 fun k _ => ?_
    cases hk : new k with
    | none => simp [left, hk]
    | some y =>
      have hm : y ∈ (upsert key keys new xs).filter (key · = k) := by simp [hfirst hk]
      exact if_pos (List.mem_map.2 ⟨y, (List.mem_filter.1 hm).1, h k y hk⟩)
  rw [upsert, hself, hleft, List.append_nil]

theorem upsert_none (h : ∀ k, new k = none) (xs : List α) : upsert key keys new xs = xs := by
  have hself : rewrite key new xs = xs := rewrite_eq_self fun k y hk => by simp [h] at hk
  have hleft : keys.filterMap (left key new xs) = [] :=
    List.filterMap_eq_nil_iff.2 fun k _ => by simp [left, h]
  rw [upsert, hself, hleft, List.append_nil]

end Keyed
