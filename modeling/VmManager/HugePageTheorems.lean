import VmManager.SysfsTheorems
/-!
# Theorems about huge pages

`SetupHugePages` reads a size, compares it with the free pages, asks for more
and waits for them. The size is read by two rules that do not look at each
other: the number from the front, the unit from the last character.
-/
open Text

namespace VmManager

variable {κ : Type}

/-! ## The size -/

/-- The size in MiB that a text denotes: a positive number as `std::stoi` reads
it, alone or followed by one letter for the unit. -/
def denotedMb (memSize : String) : Option Int :=
  match stoi 0 memSize with
  | .error _ => none
  | .ok (n, pos) =>
    if n ≤ 0 then none
    else
      match memSize.toList.drop pos with
      | [] => some n
      | [c] =>
        if c = 'M' ∨ c = 'm' then some n
        else if (c = 'G' ∨ c = 'g') ∧ n * 1024 < 2 ^ 31 then some (n * 1024)
        else none
      | _ => none

/-- The `switch` lets the last character pass, after the number `n`. -/
def LastTaken (n : Int) (last : Char) : Prop :=
  let c := last.toUpper
  ('0' ≤ c ∧ c ≤ '9') ∨ ('A' ≤ c ∧ c ≤ 'F') ∨ c = 'M' ∨ (c = 'G' ∧ n * 1024 < 2 ^ 31)

/-- What follows a positive number is nothing or a unit, or the text ends in a
character that is not taken. -/
def SizeClear (memSize : String) : Prop :=
  ∀ n pos, stoi 0 memSize = .ok (n, pos) → 0 < n →
    memSize.toList.drop pos ∈ [[], ['M'], ['m'], ['G'], ['g']] ∨
      ∀ c, (memSize.toList.drop pos).getLast? = some c → ¬ LastTaken n c

/-- What `std::stoi` leaves of a text. -/
theorem stoi_ok {memSize : String} {n : Int} {pos : Nat} (h : stoi 0 memSize = .ok (n, pos)) :
    n < 2 ^ 31 ∧ ∃ pre d, memSize.toList = pre ++ d :: memSize.toList.drop pos ∧ isDigit 16 d = true := by
  unfold stoi at h
  split at h
  · cases h
  · rename_i neg m rest hscan
    dsimp only at h
    split at h
    · rename_i hr
      cases h
      obtain ⟨pre, d, hs, hd⟩ := scan_eq (by decide) hscan
      refine ⟨hr.2, pre, d, ?_, hd⟩
      have hdrop : memSize.toList.drop (memSize.toList.length - rest.length) = rest := by
        have hpos : memSize.toList.length - rest.length = (pre ++ [d]).length := by
          simp [hs]
          omega
        rw [hpos, hs, List.append_cons pre d rest, List.drop_left]
      rw [hdrop]
      exact hs
    · cases h

/-- The `switch` of `SetupHugePages`. -/
theorem hugePagesMb_eq {memSize : String} {n : Int} {pos : Nat} {last : Char} (h : stoi 0 memSize = .ok (n, pos))
    (hn : 0 < n) (hl : memSize.toList.getLast? = some last) :
    hugePagesMb memSize =
      if ('0' ≤ last.toUpper ∧ last.toUpper ≤ '9') ∨ ('A' ≤ last.toUpper ∧ last.toUpper ≤ 'F') ∨ last.toUpper = 'M' then
        some n
      else if last.toUpper = 'G' ∧ n * 1024 < 2 ^ 31 then some (n * 1024)
      else none := by
  have hG : n > (2 ^ 31 - 1) / 1024 ↔ ¬ n * 1024 < 2 ^ 31 := by omega
  unfold hugePagesMb
  simp only [hl, h, hG]
  rw [if_neg (by omega)]
  split
  · rfl
  · by_cases hc : last.toUpper = 'G'
    · by_cases hlt : n * 1024 < 2 ^ 31
      · rw [if_pos hc, if_neg (not_not.2 hlt), if_pos ⟨hc, hlt⟩]
      · rw [if_pos hc, if_pos hlt, if_neg fun hm => hlt hm.2]
    · rw [if_neg hc, if_neg fun hm => hc hm.1]

theorem hugePagesMb_eq_none_iff {memSize : String} {n : Int} {pos : Nat} {last : Char}
    (h : stoi 0 memSize = .ok (n, pos)) (hn : 0 < n) (hl : memSize.toList.getLast? = some last) :
    hugePagesMb memSize = none ↔ ¬ LastTaken n last := by
  rw [hugePagesMb_eq h hn hl]
  unfold LastTaken
  dsimp only
  split
  · rename_i hc
    simp only [reduceCtorEq, false_iff, not_not]
    tauto
  · rename_i hc
    split
    · rename_i hG
      simp only [reduceCtorEq, false_iff, not_not]
      tauto
    · rename_i hG
      simp only [true_iff]
      tauto

theorem denotedMb_eq {memSize : String} {n : Int} {pos : Nat} (h : stoi 0 memSize = .ok (n, pos)) (hn : 0 < n) :
    denotedMb memSize = match memSize.toList.drop pos with
      | [] => some n
      | [c] =>
        if c = 'M' ∨ c = 'm' then some n
        else if (c = 'G' ∨ c = 'g') ∧ n * 1024 < 2 ^ 31 then some (n * 1024)
        else none
      | _ => none := by
  have hpos : ¬ n ≤ 0 := by omega
  simp only [denotedMb, h, hpos, if_false]

/-- Nothing or a unit follows the number. -/
theorem hugePagesMb_unit {memSize : String} {n : Int} {pos : Nat} (h : stoi 0 memSize = .ok (n, pos)) (hn : 0 < n)
    (hu : memSize.toList.drop pos ∈ [[], ['M'], ['m'], ['G'], ['g']]) : hugePagesMb memSize = denotedMb memSize := by
  obtain ⟨-, pre, d, hs, hd⟩ := stoi_ok h
  rw [denotedMb_eq h hn]
  generalize memSize.toList.drop pos = rest at hs hu
  have hkinds : rest = [] ∨ (∃ c, rest = [c] ∧ (c = 'M' ∨ c = 'm')) ∨ ∃ c, rest = [c] ∧ (c = 'G' ∨ c = 'g') := by
    simp only [List.mem_cons, List.not_mem_nil, or_false] at hu
    rcases hu with rfl | rfl | rfl | rfl | rfl <;> simp
  rcases hkinds with rfl | ⟨c, rfl, hc⟩ | ⟨c, rfl, hc⟩
  · have hl : memSize.toList.getLast? = some d := by simp [hs]
    rw [hugePagesMb_eq h hn hl, if_pos]
    rcases toUpper_of_isDigit hd with hr | hr
    · exact .inl hr
    · exact .inr (.inl hr)
  · have hl : memSize.toList.getLast? = some c := by simp [hs]
    have hup : c.toUpper = 'M' := by rcases hc with rfl | rfl <;> decide
    rw [hugePagesMb_eq h hn hl, if_pos (.inr (.inr hup))]
    exact (if_pos hc).symm
  · have hl : memSize.toList.getLast? = some c := by simp [hs]
    have hup : c.toUpper = 'G' := by rcases hc with rfl | rfl <;> decide
    have hM : ¬ (c = 'M' ∨ c = 'm') := by rcases hc with rfl | rfl <;> decide
    rw [hugePagesMb_eq h hn hl, hup, if_neg (by decide)]
    simp [hc, hM]

/-- Something else follows it. -/
theorem denotedMb_junk {memSize : String} {n : Int} {pos : Nat} (h : stoi 0 memSize = .ok (n, pos)) (hn : 0 < n)
    (hu : memSize.toList.drop pos ∉ [[], ['M'], ['m'], ['G'], ['g']]) : denotedMb memSize = none := by
  rw [denotedMb_eq h hn]
  generalize memSize.toList.drop pos = rest at hu
  simp at hu
  split
  · exact absurd rfl hu.1
  · rename_i c
    simp at hu
    simp [hu]
  · rfl

theorem sizeClear_iff {memSize : String} {n : Int} {pos : Nat} (h : stoi 0 memSize = .ok (n, pos)) (hn : 0 < n) :
    SizeClear memSize ↔ memSize.toList.drop pos ∈ [[], ['M'], ['m'], ['G'], ['g']] ∨
      ∀ c, (memSize.toList.drop pos).getLast? = some c → ¬ LastTaken n c := by
  constructor
  · intro hc
    exact hc n pos h hn
  · intro hc n' pos' h' _
    rw [h] at h'
    cases h'
    exact hc

/-- Without a positive number in front there is no size. -/
theorem hugePagesMb_none {memSize : String} (h : ∀ n pos, stoi 0 memSize = .ok (n, pos) → n ≤ 0) :
    hugePagesMb memSize = none ∧ denotedMb memSize = none := by
  unfold hugePagesMb denotedMb
  cases hst : stoi 0 memSize with
  | error e =>
    refine ⟨?_, rfl⟩
    split <;> rfl
  | ok r =>
    have hle := h r.1 r.2 hst
    constructor
    · split <;> simp [hle]
    · simp [hle]

/-- A text is given the size it denotes exactly when it is clear. -/
theorem hugePagesMb_iff (memSize : String) : hugePagesMb memSize = denotedMb memSize ↔ SizeClear memSize := by
  by_cases hst : ∃ n pos, stoi 0 memSize = .ok (n, pos) ∧ 0 < n
  · obtain ⟨n, pos, hst, hn⟩ := hst
    rw [sizeClear_iff hst hn]
    by_cases hu : memSize.toList.drop pos ∈ [[], ['M'], ['m'], ['G'], ['g']]
    · simp only [hugePagesMb_unit hst hn hu, hu, true_or]
    · obtain ⟨-, pre, d, hs, -⟩ := stoi_ok hst
      rw [denotedMb_junk hst hn hu]
      simp only [hu, false_or]
      -- The text and what follows the number have the same last character.
      cases hl : (memSize.toList.drop pos).getLast? with
      | none =>
        rw [List.getLast?_eq_none_iff] at hl
        rw [hl] at hu
        simp at hu
      | some c =>
        have hlast : memSize.toList.getLast? = some c := by
          rw [hs, List.append_cons, List.getLast?_append, hl]
          rfl
        simp [hugePagesMb_eq_none_iff hst hn hlast]
  · have hle : ∀ n pos, stoi 0 memSize = .ok (n, pos) → n ≤ 0 := by
      intro n pos h
      by_contra hn
      exact hst ⟨n, pos, h, by omega⟩
    obtain ⟨hmb, hdenoted⟩ := hugePagesMb_none hle
    refine iff_of_true (hmb.trans hdenoted.symm) fun n pos h hn => ?_
    exact absurd ⟨n, pos, h, hn⟩ hst

/-- Junk before the unit is passed over, a letter after a decimal number is
taken for a digit, and an octal number may end in an 8. -/
theorem junk_taken :
    hugePagesMb "10abcM" = some 10 ∧ denotedMb "10abcM" = none ∧ hugePagesMb "1024A" = some 1024 ∧
      denotedMb "1024A" = none ∧ hugePagesMb "018" = some 1 ∧ denotedMb "018" = none := by
  decide

/-- A size that is taken fits an `int`. -/
theorem hugePagesMb_range {memSize : String} {memMb : Int} (h : hugePagesMb memSize = some memMb) :
    0 < memMb ∧ memMb < 2 ^ 31 := by
  unfold hugePagesMb at h
  split at h
  · cases h
  · split at h
    · cases h
    · rename_i mb pos hst
      have hlt := (stoi_ok hst).1
      split at h
      · cases h
      · dsimp only at h
        split at h
        · cases h
          omega
        · split at h
          · split at h
            · cases h
            · cases h
              omega
          · cases h

/-! ## The pages -/

/-- What is assumed of the kernel: the files show the counters, and pages that
are added or taken away are free ones. -/
structure HugePageKernel (h : Host κ) (nr free : κ → Int) : Prop where
  showsNr : ∀ k, readSysFileOf (h.readFile k kSys2MNrHugePages) 10 (h.uninit k) = nr k
  showsFree : ∀ k, readSysFileOf (h.readFile k kSys2MFreeHugePages) 10 (h.uninit k) = free k
  write : ∀ k s, nr (h.writeFile k kSys2MNrHugePages s) - free (h.writeFile k kSys2MNrHugePages s) = nr k - free k
  sleep : ∀ k, nr (h.sleep k) - free (h.sleep k) = nr k - free k

/-- The count that `SetupHugePages` asks for. -/
def requiredHp (nr free : κ → Int) (memMb : Int) (k : κ) : Int := nr k - free k + memMb.tdiv 2

/-- The host after the count was written, and then after so many turns. -/
def polling (h : Host κ) (required : Int) (k : κ) (i : Nat) : κ :=
  h.sleep^[i] (h.writeFile k kSys2MNrHugePages (toString required))

/-- The turn of the last read: the first that shows the required count, or else
the 201st. -/
def lastTurn (shows : Nat → Bool) : Nat := ((List.range 200).find? shows).getD 200

/-- The host at the last read. -/
def lastRead (h : Host κ) (nr free : κ → Int) (memMb : Int) (k : κ) : κ :=
  if memMb.tdiv 2 ≤ free k then k
  else
    let required := requiredHp nr free memMb k
    polling h required k (lastTurn fun i => nr (polling h required k i) = required)

/-- When `SetupHugePages` returns true there are enough free pages, when it
returns false the last read showed another count than the required one, and the
required count is computed without overflow. -/
def PagesReported (h : Host κ) (nr free : κ → Int) (memSize : String) (memMb : Int) (k : κ) : Prop :=
  let ret := ((setupHugePages h memSize).run k).1
  let required := requiredHp nr free memMb k
  let k' := lastRead h nr free memMb k
  (ret = true → memMb ≤ 2 * free k') ∧ (ret = false → nr k' ≠ required) ∧
    (0 ≤ free k → free k ≤ nr k → nr k < 2 ^ 30 →
      0 ≤ nr k - free k ∧ nr k - free k < 2 ^ 31 ∧ 0 ≤ required ∧ required < 2 ^ 31)

/-- The size is even, or there were enough free pages at once, or the count was
not reached in 200 turns; and it was not reached in the 201st. -/
def PagesClear (h : Host κ) (nr free : κ → Int) (memMb : Int) (k : κ) : Prop :=
  let required := requiredHp nr free memMb k
  let never := free k < memMb.tdiv 2 ∧ ∀ i < 200, nr (polling h required k i) ≠ required
  (memMb % 2 = 0 ∨ memMb ≤ 2 * free k ∨ never) ∧ ¬ (never ∧ nr (polling h required k 200) = required)

theorem lastTurn_eq {shows : Nat → Bool} {i : Nat} (h : lastTurn shows = i) :
    (i < 200 ∧ shows i = true) ∨ (i = 200 ∧ ∀ j < 200, shows j = false) := by
  unfold lastTurn at h
  cases hf : (List.range 200).find? shows with
  | none =>
    refine .inr ⟨by rw [← h, hf]; rfl, fun j hj => ?_⟩
    simpa using List.find?_eq_none.1 hf j (List.mem_range.2 hj)
  | some j =>
    have hj : j = i := by rw [← h, hf]; rfl
    subst hj
    exact .inl ⟨List.mem_range.1 (List.mem_of_find?_eq_some hf), List.find?_some hf⟩

section Pages
variable {h : Host κ} {nr free : κ → Int} (hk : HugePageKernel h nr free)
include hk

/-- The limit of the loop is looked at after the read, so what the last read
shows does not count. -/
theorem waitHugePages_ret {required : Int} (n : Nat) (nrHp : Int) (hne : nrHp ≠ required) (k : κ) :
    ((waitHugePages h required n nrHp).run k).1 = true ↔ ∃ i < n, nr (h.sleep^[i] k) = required := by
  induction n generalizing nrHp k with
  | zero =>
    unfold waitHugePages
    simp only [hne, if_false, run_bind, readSysFile_run]
    simp
  | succ n ih =>
    unfold waitHugePages
    simp only [hne, if_false, run_bind, readSysFile_run, run_modify, hk.showsNr]
    by_cases hr : nr k = required
    · have hret : ((waitHugePages h required n (nr k)).run (h.sleep k)).1 = true := by
        unfold waitHugePages
        rw [if_pos hr]
        rfl
      rw [hret]
      simp only [true_iff]
      exact ⟨0, Nat.succ_pos n, hr⟩
    · rw [ih (nr k) hr]
      constructor
      · rintro ⟨i, hi, he⟩
        exact ⟨i + 1, by omega, he⟩
      · rintro ⟨i, hi, he⟩
        cases i with
        | zero => exact absurd he hr
        | succ i => exact ⟨i, by omega, he⟩

theorem setupHugePages_ret {memSize : String} {memMb : Int} (hm : hugePagesMb memSize = some memMb) (k : κ) :
    ((setupHugePages h memSize).run k).1 = true ↔ memMb.tdiv 2 ≤ free k ∨
      ∃ i < 200, nr (polling h (requiredHp nr free memMb k) k i) = requiredHp nr free memMb k := by
  unfold setupHugePages
  simp only [hm, run_bind, readSysFile_run, hk.showsFree, ge_iff_le]
  by_cases hfree : memMb.tdiv 2 ≤ free k
  · rw [if_pos hfree]
    simp only [hfree, true_or, iff_true]
    rfl
  · have hne : nr k ≠ nr k - free k + memMb.tdiv 2 := by omega
    rw [if_neg hfree]
    simp only [run_bind, readSysFile_run, writeSysFile_run, hk.showsNr, hfree, false_or]
    exact waitHugePages_ret hk 200 (nr k) hne _

/-- The pages in use are the same all the time. -/
theorem polling_used (required : Int) (k : κ) (i : Nat) :
    nr (polling h required k i) - free (polling h required k i) = nr k - free k := by
  unfold polling
  induction i with
  | zero => exact hk.write k _
  | succ i ih =>
    rw [Function.iterate_succ_apply', hk.sleep]
    exact ih

/-- Exactly when `SetupHugePages` reports rightly about the pages. -/
theorem pagesReported_iff {memSize : String} {memMb : Int} (hm : hugePagesMb memSize = some memMb) (k : κ) :
    PagesReported h nr free memSize memMb k ↔ PagesClear h nr free memMb k := by
  obtain ⟨hpos, hlt⟩ := hugePagesMb_range hm
  have hdiv : memMb.tdiv 2 = memMb / 2 := Int.tdiv_eq_ediv_of_nonneg (by omega)
  have hret := setupHugePages_ret hk hm k
  have hused := fun i => polling_used hk (requiredHp nr free memMb k) k i
  have hrange : 0 ≤ free k → free k ≤ nr k → nr k < 2 ^ 30 → 0 ≤ nr k - free k ∧ nr k - free k < 2 ^ 31 ∧
      0 ≤ requiredHp nr free memMb k ∧ requiredHp nr free memMb k < 2 ^ 31 := by
    unfold requiredHp
    omega
  have hreq : requiredHp nr free memMb k = nr k - free k + memMb / 2 := by rw [← hdiv]; rfl
  unfold PagesReported PagesClear lastRead
  simp only [iff_true_intro hrange, and_true]
  generalize requiredHp nr free memMb k = required at *
  by_cases hfree : memMb.tdiv 2 ≤ free k
  · -- There were enough pages at the start, but for the rounding.
    rw [hret.2 (.inl hfree), if_pos hfree]
    rw [hdiv] at hfree
    simp only [hdiv, forall_const, Bool.true_eq_false, false_implies, and_true]
    omega
  · rw [if_neg hfree]
    generalize hturn : (lastTurn fun i => decide (nr (polling h required k i) = required)) = i
    have hused := hused i
    rcases lastTurn_eq hturn with ⟨hi, hshows⟩ | ⟨rfl, hno⟩
    · -- The count was reached, and the free pages are now half the size, rounded down.
      have hnr : nr (polling h required k i) = required := of_decide_eq_true hshows
      have hreached : ¬ ∀ i < 200, nr (polling h required k i) ≠ required := fun hno => hno i hi hnr
      rw [hret.2 (.inr ⟨i, hi, hnr⟩)]
      rw [hdiv] at hfree ⊢
      simp only [hreached, forall_const, Bool.true_eq_false, false_implies, and_true, and_false, or_false, false_and,
        not_false_iff]
      omega
    · -- It was not reached in time.
      have hnever : ∀ i < 200, nr (polling h required k i) ≠ required := fun i hi => of_decide_eq_false (hno i hi)
      have hfalse : ((setupHugePages h memSize).run k).1 = false := by
        refine Bool.eq_false_iff.2 fun htrue => ?_
        rcases hret.1 htrue with hf | ⟨i, hi, he⟩
        · exact hfree hf
        · exact hnever i hi he
      have hlt : free k < memMb.tdiv 2 := by omega
      rw [hfalse]
      constructor
      · rintro ⟨-, hne⟩
        exact ⟨.inr (.inr ⟨hlt, hnever⟩), fun hc => hne rfl hc.2⟩
      · rintro ⟨-, hne⟩
        exact ⟨fun hc => (by cases hc), fun _ he => hne ⟨⟨hlt, hnever⟩, he⟩⟩

end Pages

/-- A machine that has no huge page, and makes one when asked for some. -/
def onePageHost : Host Bool :=
  liveHost (fun made f => if f = kSys2MNrHugePages ∨ f = kSys2MFreeHugePages then some (if made then "1" else "0") else none)
    (fun _ _ => none) [] (fun _ _ _ => true) id

def onePage (made : Bool) : Int := if made then 1 else 0

theorem onePageHost_kernel : HugePageKernel onePageHost onePage onePage where
  showsNr := by decide
  showsFree := by decide
  write _ _ := by omega
  sleep _ := by omega

theorem pagesReported_two :
    HugePageKernel onePageHost onePage onePage ∧ hugePagesMb "2M" = some 2 ∧
      PagesReported onePageHost onePage onePage "2M" 2 false := by
  have hm : hugePagesMb "2M" = some 2 := rfl
  refine ⟨onePageHost_kernel, hm, (pagesReported_iff onePageHost_kernel hm false).2 ⟨.inl rfl, ?_⟩⟩
  rintro ⟨⟨-, hno⟩, -⟩
  exact hno 0 (by decide) rfl

/-- For a guest of three MiB, one page of two MiB is enough. -/
theorem odd_size_short :
    ((setupHugePages onePageHost "3M").run false).1 = true ∧ hugePagesMb "3M" = some 3 ∧
      ¬ PagesReported onePageHost onePage onePage "3M" 3 false := by
  have hm : hugePagesMb "3M" = some 3 := rfl
  refine ⟨rfl, hm, fun hrep => ?_⟩
  rw [pagesReported_iff onePageHost_kernel hm] at hrep
  rcases hrep.1 with heven | henough | ⟨-, hno⟩
  · revert heven; decide
  · revert henough; decide
  · exact hno 0 (by decide) rfl

end VmManager
