import Mathlib.Algebra.BigOperators.Group.Finset.Basic
import Mathlib.Algebra.GroupWithZero.Nat
import Mathlib.Algebra.Order.BigOperators.Group.Finset
/-!
# A directory that is read while it changes

A stream of a directory's entries returns every entry that was there when it
was opened and that has not been removed since. An entry that has come since it
may return or not. No entry is returned twice.

A reader that adds up the sizes of what it is given, and writes a file back in
parts when it is too large, has counted every file there is by the end, and
none more than twice: `Counted` is the invariant, `Counted.read` and
`Counted.split` are the two steps.
-/

/-- The files of a flat directory, and how large they are. -/
structure Dir (α : Type) where
  files : Finset α
  size : α → Nat

namespace Dir

variable {α : Type} [DecidableEq α]

/-- A file is created, or overwritten. -/
def put (d : Dir α) (p : α × Nat) : Dir α := ⟨insert p.1 d.files, Function.update d.size p.1 p.2⟩

def putAll (d : Dir α) (ps : List (α × Nat)) : Dir α := ps.foldl put d

def unlink (d : Dir α) (n : α) : Dir α := ⟨d.files.erase n, Function.update d.size n 0⟩

def total (d : Dir α) : Nat := ∑ n ∈ d.files, d.size n

/-- The sizes of the files, with those of `limit` or more taken twice. -/
def load (limit : Nat) (d : Dir α) : Nat := ∑ n ∈ d.files, if limit ≤ d.size n then 2 * d.size n else d.size n

/-- What a stream has yet to return, and what it may. -/
structure Stream (α : Type) where
  unread : Finset α
  fresh : Finset α

namespace Stream

def opened (d : Dir α) : Stream α := ⟨d.files, ∅⟩

def read (s : Stream α) (n : α) : Stream α := ⟨s.unread.erase n, s.fresh.erase n⟩

/-- The directory changes from `d` to `d'`. -/
def follow (s : Stream α) (d d' : Dir α) : Stream α :=
  ⟨s.unread ∩ d'.files, (s.fresh ∩ d'.files) ∪ (d'.files \ d.files)⟩

/-- What is still to be returned is there. -/
structure Of (s : Stream α) (d : Dir α) : Prop where
  unread : s.unread ⊆ d.files
  fresh : s.fresh ⊆ d.files

end Stream

variable {d d₁ d₂ : Dir α} {s : Stream α} {n : α} {limit : Nat}

omit [DecidableEq α] in
theorem Stream.Of.opened (d : Dir α) : (Stream.opened d).Of d := ⟨Finset.Subset.refl _, Finset.empty_subset _⟩

theorem Stream.Of.read (h : s.Of d) (n : α) : (s.read n).Of d :=
  ⟨(Finset.erase_subset _ _).trans h.unread, (Finset.erase_subset _ _).trans h.fresh⟩

theorem Stream.Of.follow (s : Stream α) (d d' : Dir α) : (s.follow d d').Of d' :=
  ⟨Finset.inter_subset_right, Finset.union_subset Finset.inter_subset_right Finset.sdiff_subset⟩

theorem Stream.Of.follow_self (h : s.Of d) : s.follow d d = s := by
  simp [Stream.follow, Finset.inter_eq_left.2 h.unread, Finset.inter_eq_left.2 h.fresh]

/-- After a change that only adds files, a second change is as one. -/
theorem Stream.Of.follow_follow (h : s.Of d) (hsub : d.files ⊆ d₁.files) :
    (s.follow d d₁).follow d₁ d₂ = s.follow d d₂ := by
  have hu := h.unread.trans hsub
  have hf := h.fresh.trans hsub
  simp only [Stream.follow, Stream.mk.injEq]
  constructor
  · rw [Finset.inter_eq_left.2 hu]
  · ext m
    simp only [Finset.mem_union, Finset.mem_inter, Finset.mem_sdiff]
    have := @hsub m
    have := @hf m
    tauto

/-! ## Sums over the files -/

/-- One file written, with what the others count for left as it is. -/
theorem sum_insert_le {f g : α → Nat} (files : Finset α) (hfg : ∀ m, m ≠ n → g m = f m) :
    ∑ m ∈ insert n files, g m ≤ ∑ m ∈ files, f m + g n := by
  rw [← Finset.insert_erase (Finset.mem_insert_self n files), Finset.sum_insert (Finset.notMem_erase _ _),
    Finset.erase_insert_eq_erase]
  have hrest : ∑ m ∈ files.erase n, g m = ∑ m ∈ files.erase n, f m :=
    Finset.sum_congr rfl fun m hm => hfg m (Finset.ne_of_mem_erase hm)
  have hle : ∑ m ∈ files.erase n, f m ≤ ∑ m ∈ files, f m := Finset.sum_le_sum_of_subset (Finset.erase_subset _ _)
  omega

/-- One file left out. -/
theorem sum_erase_add {f g : α → Nat} {files : Finset α} (hfg : ∀ m, m ≠ n → g m = f m) (hn : n ∈ files) :
    ∑ m ∈ files.erase n, g m + f n = ∑ m ∈ files, f m := by
  rw [← Finset.sum_erase_add files f hn]
  congr 1
  exact Finset.sum_congr rfl fun m hm => hfg m (Finset.ne_of_mem_erase hm)

/-- The files on a list that goes on with one more. -/
theorem sum_mem_cons {f : α → Nat} {files : Finset α} {l : List α} (hn : n ∈ files) (hl : n ∉ l) :
    ∑ m ∈ files with m ∈ n :: l, f m = f n + ∑ m ∈ files with m ∈ l, f m := by
  have hinsert : files.filter (· ∈ n :: l) = insert n (files.filter (· ∈ l)) := by
    ext m
    simp only [Finset.mem_filter, Finset.mem_insert, List.mem_cons]
    constructor
    · intro hm
      exact hm.2.imp_right fun hr => ⟨hm.1, hr⟩
    · rintro (rfl | hm)
      · exact ⟨hn, .inl rfl⟩
      · exact ⟨hm.1, .inr hm.2⟩
  rw [hinsert, Finset.sum_insert fun hm => hl (Finset.mem_filter.1 hm).2]

theorem sum_mem_le {f : α → Nat} {files : Finset α} {l : List α} :
    ∑ m ∈ files with m ∈ l, f m ≤ ∑ m ∈ files with m ∈ n :: l, f m := by
  refine Finset.sum_le_sum_of_subset (Finset.monotone_filter_right _ ?_)
  intro m _ hm
  exact List.mem_cons_of_mem _ hm

/-- What a file counts for once it has been returned or has come since. -/
def seen (d : Dir α) (s : Stream α) (n : α) : Nat := if n ∈ s.unread then 0 else d.size n

/-- The most that a file can still add: its size when it is returned, and the
size of its parts if it is going to be split. -/
def ahead (limit : Nat) (d : Dir α) (s : Stream α) (n : α) : Nat :=
  if n ∈ s.unread then if limit ≤ d.size n then 2 * d.size n else d.size n
  else if n ∈ s.fresh then d.size n else 0

theorem sum_seen_read (hn : n ∈ d.files) :
    ∑ m ∈ d.files, seen d (s.read n) m ≤ ∑ m ∈ d.files, seen d s m + d.size n := by
  have hle := sum_insert_le (n := n) (f := seen d s) (g := seen d (s.read n)) d.files fun m hm => by
    simp [seen, Stream.read, hm]
  rwa [Finset.insert_eq_of_mem hn, show seen d (s.read n) n = d.size n by simp [seen, Stream.read]] at hle

theorem sum_ahead_read (limit : Nat) (hn : n ∈ d.files) :
    ∑ m ∈ d.files, ahead limit d (s.read n) m + ahead limit d s n = ∑ m ∈ d.files, ahead limit d s m := by
  have hsum := sum_erase_add (f := ahead limit d s) (g := ahead limit d (s.read n))
    (fun m hm => by simp [ahead, Stream.read, hm]) hn
  rwa [← Finset.sum_erase_add d.files _ hn, show ahead limit d (s.read n) n = 0 by simp [ahead, Stream.read],
    Nat.add_zero]

theorem size_put (d : Dir α) (p : α × Nat) {m : α} (hm : m ≠ p.1) : (d.put p).size m = d.size m :=
  Function.update_of_ne hm _ _

@[simp] theorem size_put_self (d : Dir α) (p : α × Nat) : (d.put p).size p.1 = p.2 := Function.update_self _ _ _

theorem mem_unlink {m : α} : m ∈ (d.unlink n).files ↔ m ≠ n ∧ m ∈ d.files := Finset.mem_erase

theorem size_unlink (d : Dir α) {m : α} (hm : m ≠ n) : (d.unlink n).size m = d.size m := Function.update_of_ne hm _ _

theorem total_unlink (d : Dir α) (n : α) : (d.unlink n).total ≤ d.total := by
  have hsame : ∀ m ∈ d.files.erase n, (d.unlink n).size m = d.size m :=
    fun m hm => size_unlink d (Finset.ne_of_mem_erase hm)
  rw [total, show (d.unlink n).files = d.files.erase n from rfl, Finset.sum_congr rfl hsame]
  exact Finset.sum_le_sum_of_subset (Finset.erase_subset _ _)

theorem mem_follow_put (h : s.Of d) (p : α × Nat) {m : α} (hm : m ≠ p.1) :
    (m ∈ (s.follow d (d.put p)).unread ↔ m ∈ s.unread) ∧ (m ∈ (s.follow d (d.put p)).fresh ↔ m ∈ s.fresh) := by
  have hu := @h.unread m
  have hf := @h.fresh m
  simp only [Stream.follow, put, Finset.mem_union, Finset.mem_inter, Finset.mem_insert, Finset.mem_sdiff, hm, false_or]
  tauto

theorem sum_seen_put (h : s.Of d) (p : α × Nat) :
    ∑ m ∈ (d.put p).files, seen (d.put p) (s.follow d (d.put p)) m ≤ ∑ m ∈ d.files, seen d s m + p.2 := by
  refine (sum_insert_le (f := seen d s) _ fun m hm => ?_).trans (Nat.add_le_add_left ?_ _)
  · simp only [seen, (mem_follow_put h p hm).1, size_put d p hm]
  · unfold seen
    split <;> simp

theorem sum_ahead_put (h : s.Of d) {p : α × Nat} (hp : p.2 < limit) :
    ∑ m ∈ (d.put p).files, ahead limit (d.put p) (s.follow d (d.put p)) m ≤ ∑ m ∈ d.files, ahead limit d s m + p.2 := by
  refine (sum_insert_le (f := ahead limit d s) _ fun m hm => ?_).trans (Nat.add_le_add_left ?_ _)
  · simp only [ahead, (mem_follow_put h p hm).1, (mem_follow_put h p hm).2, size_put d p hm]
  · unfold ahead
    rw [size_put_self, if_neg (Nat.not_le.2 hp)]
    split
    · exact Nat.le_refl _
    · split <;> omega

/-! ## Many files written, and one removed -/

theorem files_putAll (d : Dir α) (ps : List (α × Nat)) : d.files ⊆ (d.putAll ps).files := by
  induction ps generalizing d with
  | nil => exact Finset.Subset.refl _
  | cons p ps ih => exact (Finset.subset_insert _ _).trans (ih (d.put p))

/-- A file is one of those written, or as before. -/
theorem putAll_cases (d : Dir α) (ps : List (α × Nat)) (m : α) :
    (∃ p ∈ ps, p.1 = m ∧ (d.putAll ps).size m = p.2) ∨
      ((m ∈ (d.putAll ps).files ↔ m ∈ d.files) ∧ (d.putAll ps).size m = d.size m) := by
  induction ps generalizing d with
  | nil => exact .inr ⟨.rfl, rfl⟩
  | cons p ps ih =>
    rcases ih (d.put p) with ⟨q, hq, hm, hs⟩ | ⟨hmem, hs⟩
    · exact .inl ⟨q, List.mem_cons_of_mem p hq, hm, hs⟩
    · by_cases hm : m = p.1
      · refine .inl ⟨p, List.mem_cons_self, hm.symm, hs.trans ?_⟩
        simp [put, hm]
      · refine .inr ⟨hmem.trans ?_, hs.trans ?_⟩ <;> simp [put, hm]

theorem mem_putAll {ps : List (α × Nat)} {p : α × Nat} (hp : p ∈ ps) (d : Dir α) : p.1 ∈ (d.putAll ps).files := by
  induction ps generalizing d with
  | nil => cases hp
  | cons q ps ih =>
    rcases List.mem_cons.1 hp with rfl | hp
    · exact files_putAll (d.put p) ps (Finset.mem_insert_self _ _)
    · exact ih hp (d.put q)

theorem size_putAll {ps : List (α × Nat)} (hnodup : (ps.map (·.1)).Nodup) {p : α × Nat} (hp : p ∈ ps) (d : Dir α) :
    (d.putAll ps).size p.1 = p.2 := by
  induction ps generalizing d with
  | nil => cases hp
  | cons q ps ih =>
    obtain ⟨hq, hnodup⟩ := List.nodup_cons.1 hnodup
    rcases List.mem_cons.1 hp with rfl | hp
    · rcases putAll_cases (d.put p) ps p.1 with ⟨r, hr, he, -⟩ | ⟨-, hs⟩
      · exact absurd (List.mem_map.2 ⟨r, hr, he⟩) hq
      · exact hs.trans (size_put_self d p)
    · exact ih hnodup hp (d.put q)

theorem sums_putAll (h : s.Of d) {ps : List (α × Nat)} (hps : ∀ p ∈ ps, p.2 < limit) :
    (∑ m ∈ (d.putAll ps).files, seen (d.putAll ps) (s.follow d (d.putAll ps)) m ≤
        ∑ m ∈ d.files, seen d s m + (ps.map (·.2)).sum) ∧
      ∑ m ∈ (d.putAll ps).files, ahead limit (d.putAll ps) (s.follow d (d.putAll ps)) m ≤
        ∑ m ∈ d.files, ahead limit d s m + (ps.map (·.2)).sum := by
  induction ps generalizing d s with
  | nil =>
    rw [show d.putAll [] = d from rfl, h.follow_self]
    exact ⟨Nat.le_refl _, Nat.le_refl _⟩
  | cons p ps ih =>
    simp only [List.forall_mem_cons] at hps
    obtain ⟨hseen, hahead⟩ := ih (.follow s d (d.put p)) hps.2
    have hs := sum_seen_put h p
    have ha := sum_ahead_put h hps.1
    rw [h.follow_follow (Finset.subset_insert _ _)] at hseen hahead
    rw [show d.putAll (p :: ps) = (d.put p).putAll ps from rfl, List.map_cons, List.sum_cons]
    constructor <;> omega

theorem sum_seen_unlink (h : s.Of d) (hn : n ∈ d.files) (hu : n ∉ s.unread) :
    ∑ m ∈ (d.unlink n).files, seen (d.unlink n) (s.follow d (d.unlink n)) m + d.size n = ∑ m ∈ d.files, seen d s m := by
  have hsum := sum_erase_add (n := n) (f := seen d s) (g := seen (d.unlink n) (s.follow d (d.unlink n)))
    (fun m hm => ?_) hn
  · rwa [show seen d s n = d.size n from if_neg hu] at hsum
  · have hmem : m ∈ (s.follow d (d.unlink n)).unread ↔ m ∈ s.unread := by
      rw [Stream.follow, Finset.mem_inter]
      exact and_iff_left_of_imp fun hmu => mem_unlink.2 ⟨hm, h.unread hmu⟩
    simp only [seen, hmem, size_unlink d hm]

theorem sum_ahead_unlink (limit : Nat) (d : Dir α) (s : Stream α) (n : α) :
    ∑ m ∈ (d.unlink n).files, ahead limit (d.unlink n) (s.follow d (d.unlink n)) m ≤ ∑ m ∈ d.files, ahead limit d s m := by
  have hsame : ∀ m ∈ d.files.erase n, ahead limit (d.unlink n) (s.follow d (d.unlink n)) m = ahead limit d s m := by
    intro m hm
    have hu : m ∈ (s.follow d (d.unlink n)).unread ↔ m ∈ s.unread := by
      rw [Stream.follow, Finset.mem_inter, and_iff_left (show m ∈ (d.unlink n).files from hm)]
    have hf : m ∈ (s.follow d (d.unlink n)).fresh ↔ m ∈ s.fresh := by
      have hsub : (d.unlink n).files \ d.files = ∅ := Finset.sdiff_eq_empty_iff_subset.2 (Finset.erase_subset _ _)
      rw [Stream.follow, hsub, Finset.union_empty, Finset.mem_inter, and_iff_left (show m ∈ (d.unlink n).files from hm)]
    simp only [ahead, hu, hf, size_unlink d (Finset.ne_of_mem_erase hm)]
  rw [show (d.unlink n).files = d.files.erase n from rfl, Finset.sum_congr rfl hsame]
  exact Finset.sum_le_sum_of_subset (Finset.erase_subset _ _)

/-! ## Counting what is returned -/

/-- The reader has counted `T`. That covers the files it was given and those
that have come since, all of them small; and with what is ahead it stays within
`B`. -/
structure Counted (limit : Nat) (d : Dir α) (s : Stream α) (T B : Nat) : Prop where
  stream : s.Of d
  small : ∀ m ∈ d.files, m ∉ s.unread → d.size m < limit
  seen : ∑ m ∈ d.files, seen d s m ≤ T
  ahead : T + ∑ m ∈ d.files, ahead limit d s m ≤ B

variable {T B : Nat}

theorem Counted.opened (limit : Nat) (d : Dir α) (T : Nat) : Counted limit d (.opened d) T (T + d.load limit) := by
  have hseen : ∑ m ∈ d.files, Dir.seen d (.opened d) m = 0 := Finset.sum_eq_zero fun m hm => if_pos hm
  have hahead : ∑ m ∈ d.files, Dir.ahead limit d (.opened d) m = d.load limit :=
    Finset.sum_congr rfl fun m hm => if_pos hm
  exact ⟨.opened d, fun m hm hu => absurd hm hu, hseen ▸ Nat.zero_le T, by rw [hahead]⟩

theorem Counted.le (h : Counted limit d s T B) : T ≤ B := (Nat.le_add_right _ _).trans h.ahead

/-- A small file is returned, and counted. -/
theorem Counted.read (h : Counted limit d s T B) (hn : n ∈ s.unread ∨ n ∈ s.fresh) (hsmall : d.size n < limit) :
    Counted limit d (s.read n) (T + d.size n) B := by
  have hfile : n ∈ d.files := hn.elim (@h.stream.unread n) (@h.stream.fresh n)
  refine ⟨h.stream.read n, fun m hm hu => ?_, (sum_seen_read hfile).trans (Nat.add_le_add_right h.seen _), ?_⟩
  · by_cases he : m = n
    · exact he ▸ hsmall
    · exact h.small m hm fun hmu => hu (Finset.mem_erase.2 ⟨he, hmu⟩)
  · have hsum := sum_ahead_read (s := s) limit hfile
    have hself : Dir.ahead limit d s n = d.size n := by
      unfold Dir.ahead
      rw [if_neg (Nat.not_le.2 hsmall)]
      split
      · rfl
      · exact if_pos (hn.resolve_left ‹_›)
    have := h.ahead
    omega

/-- A file that is not small is returned and counted, written back in parts, and
removed. -/
theorem Counted.split (h : Counted limit d s T B) (hn : n ∈ s.unread ∨ n ∈ s.fresh) (hlarge : limit ≤ d.size n)
    {ps : List (α × Nat)} (hps : ∀ p ∈ ps, p.2 < limit) (hsum : (ps.map (·.2)).sum = d.size n)
    (hnot : n ∉ ps.map (·.1)) :
    Counted limit ((d.putAll ps).unlink n) ((s.read n).follow d ((d.putAll ps).unlink n)) (T + d.size n) B := by
  have hfile : n ∈ d.files := hn.elim (@h.stream.unread n) (@h.stream.fresh n)
  have hunread : n ∈ s.unread := by
    by_contra hu
    exact absurd (h.small n hfile hu) (Nat.not_lt.2 hlarge)
  -- The stream follows the parts first and the removal then.
  have hread := h.stream.read n
  have hsub := files_putAll d ps
  have hkept : (d.putAll ps).size n = d.size n := by
    rcases putAll_cases d ps n with ⟨p, hp, he, -⟩ | ⟨-, hs⟩
    · exact absurd (List.mem_map.2 ⟨p, hp, he⟩) hnot
    · exact hs
  have hgone : n ∉ ((s.read n).follow d (d.putAll ps)).unread := by simp [Stream.follow, Stream.read]
  obtain ⟨hseen, hahead⟩ := sums_putAll hread hps
  have hseen' := sum_seen_unlink (.follow _ _ _) (hsub hfile) hgone
  have hahead' := sum_ahead_unlink limit (d.putAll ps) ((s.read n).follow d (d.putAll ps)) n
  rw [hread.follow_follow hsub] at hseen' hahead'
  refine ⟨.follow _ _ _, fun m hm hu => ?_, ?_, ?_⟩
  · obtain ⟨hne, hm⟩ := mem_unlink.1 hm
    rcases putAll_cases d ps m with ⟨p, hp, -, hs⟩ | ⟨hmem, hs⟩
    · rw [size_unlink _ hne, hs]
      exact hps p hp
    · rw [size_unlink _ hne, hs]
      refine h.small m (hmem.1 hm) fun hmu => hu ?_
      simp [Stream.follow, Stream.read, unlink, hne, hmu, hm]
  · have := sum_seen_read (s := s) hfile
    have := h.seen
    omega
  · have hself : Dir.ahead limit d s n = 2 * d.size n := by rw [Dir.ahead, if_pos hunread, if_pos hlarge]
    have := sum_ahead_read (s := s) limit hfile
    have := h.ahead
    omega

/-- When all has been returned, all has been counted. -/
theorem Counted.done (h : Counted limit d s T B) (hs : s.unread = ∅) :
    (∀ m ∈ d.files, d.size m < limit) ∧ d.total ≤ T := by
  refine ⟨fun m hm => h.small m hm (by simp [hs]), ?_⟩
  have hall : ∑ m ∈ d.files, Dir.seen d s m = d.total := Finset.sum_congr rfl fun m _ => by simp [Dir.seen, hs]
  rw [← hall]
  exact h.seen

end Dir
