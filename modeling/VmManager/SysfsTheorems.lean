import VmManager.Builder
import VmManager.Lib.Ios
/-!
# Theorems about sysfs files and virtual functions

`ReadSysFile` and `WriteSysFile` are written as if their streams threw when
something goes wrong. They do not, so the callers never learn of a refused
write, and a failed read gives them 0 or whatever the stack held.
-/
open Text Ios

namespace VmManager

variable {κ : Type}

/-! ## The two helpers, over their streams -/

/-- How the system answers when a file is opened, written and flushed, and the
`errno` it leaves. -/
structure FileAnswer where
  opens : Bool
  takes : Bool
  syncs : Bool
  errno : Int
  deriving DecidableEq, Repr

/-- The file was opened and the whole text went into it. -/
def FileAnswer.accepted (a : FileAnswer) : Bool := a.opens && a.takes && a.syncs

/-- `WriteSysFile`, statement by statement. -/
def writeSysFileOf (a : FileAnswer) : Int :=
  let tried : Except Failure Ios.Stream := do
    let of ← Stream.openFile a.opens
    let of ← of.insert a.takes
    of.flush a.syncs
  match tried with
  | .ok _ => 0
  | .error _ => a.errno

/-- `ReadSysFile`, statement by statement, for a file with this content or, for
`none`, one that cannot be opened. `uninit` is what `ret` holds at first. -/
def readSysFileOf (content : Option String) (base : Nat) (uninit : Int) : Int :=
  let tried : Except Failure (Option Int × Ios.Stream) := do
    let ifs ← Stream.openFile content.isSome
    ifs.extract base (content.getD "")
  match tried with
  | .ok (ret, _) => ret.getD uninit
  | .error _ => -1

/-- Nothing is thrown, so the code is 0 whatever the system answered. -/
theorem writeSysFileOf_eq (a : FileAnswer) : writeSysFileOf a = 0 := by
  obtain ⟨s₁, h₁, hm₁⟩ := Stream.openFile_default a.opens
  obtain ⟨s₂, h₂, hm₂⟩ := Stream.output_default hm₁ a.takes
  obtain ⟨s₃, h₃, -⟩ := Stream.output_default hm₂ a.syncs
  simp [writeSysFileOf, Stream.insert, Stream.flush, h₁, h₂, h₃, bind, Except.bind]

/-- The extraction does not get as far as `ret`. -/
def unset (content : Option String) : Bool := content.all fun s => s.toList.all isSpace

theorem readSysFileOf_eq (content : Option String) (base : Nat) (uninit : Int) :
    readSysFileOf content base uninit = if unset content then uninit else extractInt base (content.getD "") := by
  cases content with
  | none =>
    obtain ⟨s, h⟩ := Stream.extract_default (s := { rdstate := { fail := true } }) rfl base ""
    have ho : Stream.openFile false = .ok { rdstate := { fail := true } } := rfl
    simp [readSysFileOf, ho, h, unset, Stream.good, bind, Except.bind]
  | some text =>
    obtain ⟨s, h⟩ := Stream.extract_default (s := {}) rfl base text
    have ho : Stream.openFile true = .ok {} := rfl
    by_cases hb : text.toList.all isSpace = true
    · simp [readSysFileOf, ho, h, unset, hb, Stream.good, bind, Except.bind]
    · rw [Bool.not_eq_true] at hb
      simp [readSysFileOf, ho, h, unset, hb, Stream.good, bind, Except.bind]

/-! ## Running them -/

section Run
variable {α β : Type} (k : κ)

theorem run_bind (x : StateM κ α) (f : α → StateM κ β) : (x >>= f).run k = (f (x.run k).1).run (x.run k).2 := rfl

theorem run_pure (a : α) : (pure a : StateM κ α).run k = (a, k) := rfl

theorem run_get : (get : StateM κ κ).run k = (k, k) := rfl

theorem run_modify (f : κ → κ) : (modify f : StateM κ PUnit).run k = ((), f k) := rfl

end Run

/-- `writeSysFile` is `WriteSysFile` for every answer of the system. -/
theorem writeSysFile_run_of (h : Host κ) (file text : String) (k : κ) (a : FileAnswer) :
    (writeSysFile h file text).run k = (writeSysFileOf a, h.writeFile k file text) := by
  rw [writeSysFileOf_eq]
  rfl

@[simp] theorem writeSysFile_run (h : Host κ) (file text : String) (k : κ) :
    (writeSysFile h file text).run k = (0, h.writeFile k file text) := rfl

@[simp] theorem readSysFile_run (h : Host κ) (file : String) (base : Nat) (k : κ) :
    (readSysFile h file base).run k = (readSysFileOf (h.readFile k file) base (h.uninit k), k) := by
  rw [readSysFileOf_eq]
  unfold readSysFile
  rw [run_bind, run_get, run_pure]
  cases h.readFile k file with
  | none => rfl
  | some s => rfl

/-! ## What the callers learn -/

/-- The content is there and starts with an integer. -/
def startsWithInt (base : Nat) (content : Option String) : Bool := content.any fun s => (scan base s.toList).isSome

/-- What the code does about the result of the first write of `new_id`. -/
inductive NewIdBranch
  | goOn
  /-- The id is removed and written again. -/
  | retry
  | giveUp
  deriving DecidableEq, Repr

def newIdBranch (errnoSaved : Int) : NewIdBranch :=
  if errnoSaved = eexist then .retry else if errnoSaved ≠ 0 then .giveUp else .goOn

/-- The branches of `writeNewId`, that is of `PassthroughOnePciDev` and of
`SetAvailableVf`. -/
theorem writeNewId_branch (h : Host κ) (id : String) :
    writeNewId h id = do
      let errnoSaved ← writeSysFile h kVfioPciNewId id
      match newIdBranch errnoSaved with
      | .goOn => return true
      | .retry =>
        let _ ← writeSysFile h kVfioPciRemoveId id
        let _ ← writeSysFile h kVfioPciNewId id
        return true
      | .giveUp => return false := by
  unfold writeNewId
  congr
  funext errnoSaved
  unfold newIdBranch
  by_cases he : errnoSaved = eexist
  · simp [he]
  · by_cases h0 : errnoSaved = 0
    · subst h0; rfl
    · simp [he, h0]

/-! ## The search for a virtual function -/

/-- The `enable` file of a virtual function. -/
def vfEnable (i : Nat) : String :=
  .ofList (kIntelGpuDevPath.toList.take (kIntelGpuDevPath.length - 2)) ++ toString i ++ "/enable"

/-- The `status` that `SetAvailableVf` reads. -/
def vfStatus (h : Host κ) (k : κ) (i : Nat) : Int := readSysFileOf (h.readFile k (vfEnable i)) 10 (h.uninit k)

/-- The loop returns the first virtual function whose status is 0. -/
theorem findVf_ret (h : Host κ) (k : κ) (n i : Nat) :
    ((findVf h n i).run k).1 = ((List.range' i n).find? fun j => vfStatus h k j = 0).elim (-1) Int.ofNat := by
  induction n generalizing i with
  | zero => rfl
  | succ n ih =>
    rw [List.range'_succ, List.find?_cons]
    unfold findVf
    simp only [run_bind, readSysFile_run]
    by_cases hs : vfStatus h k i = 0
    · have hs' := hs
      unfold vfStatus vfEnable at hs'
      rw [if_pos hs']
      simp only [run_bind, run_pure, hs]
      rfl
    · have hs' := hs
      unfold vfStatus vfEnable at hs'
      rw [if_neg hs', ih]
      simp [hs]

/-! ## What a result is supposed to say -/

/-- `WriteSysFile` returns 0 only for a write that was accepted. -/
def WriteReports (a : FileAnswer) : Prop := writeSysFileOf a = 0 → a.accepted = true

/-- `ReadSysFile` returns -1 for a file that does not start with an integer. -/
def ReadReports (content : Option String) (base : Nat) (uninit : Int) : Prop :=
  startsWithInt base content = false → readSysFileOf content base uninit = -1

/-- `CreateGvtgVgpu` returns true only when the kernel accepted the vGPU. -/
def VgpuReports (h : Host κ) (vb : VmBuilderQemu) (k : κ) (a : FileAnswer) : Prop :=
  ((vb.createGvtgVgpu h).run k).1 = true → a.accepted = true

/-- A refused `new_id` leads into the branch for its `errno`. -/
def NewIdReports (h : Host κ) (k : κ) (id : String) (a : FileAnswer) : Prop :=
  a.accepted = false →
    newIdBranch ((writeSysFile h kVfioPciNewId id).run k).1 = if a.errno = eexist then .retry else .giveUp

/-- The search among the first `n` virtual functions does not take one whose
`enable` file cannot be opened. -/
def VfReports (h : Host κ) (k : κ) (n : Nat) : Prop :=
  ∀ i : Nat, ((findVf h n 1).run k).1 = i → (h.readFile k (vfEnable i)).isSome = true

theorem writeReports_iff (a : FileAnswer) : WriteReports a ↔ a.accepted = true := by
  simp [WriteReports, writeSysFileOf_eq]

theorem readReports_iff (content : Option String) (base : Nat) (uninit : Int) :
    ReadReports content base uninit ↔
      startsWithInt base content = true ∨ (unset content = true ∧ uninit = -1) := by
  unfold ReadReports
  rw [readSysFileOf_eq]
  by_cases hi : startsWithInt base content = true
  · simp [hi]
  · by_cases hu : unset content = true
    · simp [hi, hu]
    · -- Something else than a number stands there, and 0 is stored.
      cases content with
      | none => exact absurd rfl hu
      | some s =>
        have hscan : scan base s.toList = none := by simpa [startsWithInt] using hi
        simp [hi, hu, extractInt, hscan]

theorem vgpuReports_iff (h : Host κ) (vb : VmBuilderQemu) (k : κ) (a : FileAnswer) :
    VgpuReports h vb k a ↔ a.accepted = true := by
  have htrue : ((vb.createGvtgVgpu h).run k).1 = true := rfl
  simp [VgpuReports, htrue]

theorem newIdReports_iff (h : Host κ) (k : κ) (id : String) (a : FileAnswer) :
    NewIdReports h k id a ↔ a.accepted = true := by
  have hgo : newIdBranch ((writeSysFile h kVfioPciNewId id).run k).1 = .goOn := by
    rw [writeSysFile_run_of h _ _ k a, writeSysFileOf_eq]
    rfl
  unfold NewIdReports
  rw [hgo]
  by_cases ha : a.accepted = true
  · simp [ha]
  · split <;> simp [ha]

theorem vfReports_iff (h : Host κ) (k : κ) (n : Nat) :
    VfReports h k n ↔ (h.uninit k = 0 → ∀ i, 1 ≤ i → i ≤ n → h.readFile k (vfEnable i) = none →
      ∃ j, 1 ≤ j ∧ j < i ∧ (h.readFile k (vfEnable j)).isSome = true ∧ vfStatus h k j = 0) := by
  have hnone : ∀ i, h.readFile k (vfEnable i) = none → vfStatus h k i = h.uninit k := by
    intro i hi
    simp [vfStatus, hi, readSysFileOf_eq, unset]
  unfold VfReports
  simp only [findVf_ret]
  constructor
  · intro hrep hzero i h1 hn hi
    -- The search stops at `i` at the latest, and not at `i` itself.
    cases hf : (List.range' 1 n).find? fun j => vfStatus h k j = 0 with
    | none =>
      rw [List.find?_range'_eq_none] at hf
      have := hf i h1 (by omega)
      simp [hnone i hi, hzero] at this
    | some j =>
      have hj := hrep j (by simp [hf])
      rw [List.find?_range'_eq_some, List.mem_range'_1] at hf
      obtain ⟨hs, hm, hmin⟩ := hf
      refine ⟨j, hm.1, ?_, hj, by simpa using hs⟩
      by_contra hlt
      rcases Nat.eq_or_lt_of_le (Nat.le_of_not_lt hlt) with rfl | hlt
      · simp [hi] at hj
      · have := hmin i h1 hlt
        simp [hnone i hi, hzero] at this
  · intro hcond i hret
    cases hf : (List.range' 1 n).find? fun j => vfStatus h k j = 0 with
    | none => simp [hf] at hret
    | some j =>
      have hij : j = i := by simpa [hf] using hret
      subst hij
      rw [List.find?_range'_eq_some, List.mem_range'_1] at hf
      obtain ⟨hs, hm, hmin⟩ := hf
      rw [Option.isSome_iff_ne_none]
      intro hj
      have hzero : h.uninit k = 0 := by simpa [hnone j hj] using hs
      obtain ⟨j', h1, hlt, -, hs'⟩ := hcond hzero j hm.1 (by omega) hj
      have := hmin j' h1 hlt
      simp [hs'] at this

/-- The results say what they are supposed to say of a write that was accepted,
and of a file that starts with an integer, or that `ret` is not read from while
it happens to hold -1. The search for a virtual function needs an uninitialised
`ret` other than 0, or a free one before the first whose file cannot be opened. -/
theorem sysfs_reports_iff (h : Host κ) (vb : VmBuilderQemu) (k : κ) (id : String) (a : FileAnswer) :
    (WriteReports a ↔ a.accepted = true) ∧
    (∀ content base uninit, ReadReports content base uninit ↔
      startsWithInt base content = true ∨ (unset content = true ∧ uninit = -1)) ∧
    (VgpuReports h vb k a ↔ a.accepted = true) ∧
    (NewIdReports h k id a ↔ a.accepted = true) ∧
    ∀ n, VfReports h k n ↔ (h.uninit k = 0 → ∀ i, 1 ≤ i → i ≤ n → h.readFile k (vfEnable i) = none →
      ∃ j, 1 ≤ j ∧ j < i ∧ (h.readFile k (vfEnable j)).isSome = true ∧ vfStatus h k j = 0) :=
  ⟨writeReports_iff a, readReports_iff, vgpuReports_iff h vb k a, newIdReports_iff h k id a, vfReports_iff h k⟩

/-- A vGPU that the kernel refuses counts as created, a file that is missing or
holds no number does not give -1, and a virtual function without an `enable`
file is taken. -/
theorem sysfs_failures_unreported :
    ¬ VgpuReports (stillHost [] []) { uid := 0, name := "vm", cfg := {} } () ⟨true, true, false, 22⟩ ∧
      ¬ ReadReports none 10 0 ∧ ¬ ReadReports (some "none") 10 (-1) ∧ ¬ VfReports (stillHost [] []) () 1 := by
  refine ⟨?_, ?_, ?_, ?_⟩
  · rw [vgpuReports_iff]
    decide
  · rw [readReports_iff]
    decide
  · rw [readReports_iff]
    decide
  · rw [vfReports_iff]
    intro hcond
    obtain ⟨j, h1, hlt, -⟩ := hcond rfl 1 (Nat.le_refl 1) (Nat.le_refl 1) rfl
    omega

/-! ## `SetAvailableVf`, whatever the writes of `new_id` return -/

/-- The part before `new_id` is written: the number of virtual functions and
the id, or `none` where the function returns -1. -/
def vfSetup (h : Host κ) : StateM κ (Option (Nat × String)) := do
  if !(← loadKernelModule h kVfioModulePath "vfio") then return none
  if !(← loadKernelModule h kVfioPciModulePath "vfio-pci") then return none
  let totalvfs ← readSysFile h kIntelGpuSriovTotalVfs 10
  if totalvfs ≤ 0 then return none
  let currentVfs ← readSysFile h kIntelGpuSriovNumVfs 10
  if currentVfs < 0 then return none
  if currentVfs = 0 then
    let _ ← writeSysFile h kIntelGpuSriovAutoProbe "0"
    let _ ← writeSysFile h kIntelGpuSriovNumVfs "0"
    let _ ← writeSysFile h kIntelGpuSriovNumVfs (toString totalvfs)
    let _ ← writeSysFile h kIntelGpuSriovAutoProbe "1"
  let devId ← readSysFile h kIntelGpuDevice 16
  if devId < 0 then return none
  return some (totalvfs.toNat, "8086 " ++ hex devId)

/-- The writes of `new_id` and, on `EEXIST`, of `remove_id`. -/
def newIdWrites (h : Host κ) (first : Int) (id : String) (k : κ) : κ :=
  let k := h.writeFile k kVfioPciNewId id
  if newIdBranch first = .retry then h.writeFile (h.writeFile k kVfioPciRemoveId id) kVfioPciNewId id else k

/-- `SetAvailableVf` when the first write of `new_id` returns `first`. What a
second write returns is not looked at. -/
def setAvailableVfWith (h : Host κ) (first : Int) : StateM κ Int := do
  match ← vfSetup h with
  | none => return -1
  | some (totalvfs, id) =>
    modify (newIdWrites h first id)
    if newIdBranch first = .giveUp then return 0
    findVf h (totalvfs - 1) 1

theorem writeNewId_then (h : Host κ) (id : String) (rest : StateM κ Int) :
    (do if !(← writeNewId h id) then return 0
        rest) = (do
      modify (newIdWrites h 0 id)
      if newIdBranch 0 = .giveUp then return 0
      rest) := by
  rw [writeNewId_branch]
  rfl

theorem ite_bind {α β : Type} (c : Prop) [Decidable c] (x y : StateM κ α) (f : α → StateM κ β) :
    (if c then x else y) >>= f = if c then x >>= f else y >>= f := by
  split <;> rfl

/-- `WriteSysFile` returns 0. -/
theorem setAvailableVf_eq (h : Host κ) : setAvailableVf h = setAvailableVfWith h 0 := by
  unfold setAvailableVf setAvailableVfWith vfSetup
  simp only [bind_assoc, ite_bind, pure_bind, writeNewId_then]

/-- The kernel took the id: at the first write, or at the second after the
first was refused with `EEXIST`. -/
def idAccepted (first again : Int) : Prop := first = 0 ∨ (first = eexist ∧ again = 0)

/-- `SetAvailableVf` returns the least of the free virtual functions, when
there is one and the id was taken, and a negative value otherwise; never 0. -/
def VfChosen (h : Host κ) (first again : Int) (k : κ) : Prop :=
  let ret := ((setAvailableVfWith h first).run k).1
  match (vfSetup h).run k with
  | (none, _) => ret < 0
  | (some (totalvfs, id), k₁) =>
    let free : Set Nat := { i | 1 ≤ i ∧ i ≤ totalvfs ∧ vfStatus h (newIdWrites h first id k₁) i = 0 }
    (idAccepted first again ∧ free.Nonempty → ∃ i, IsLeast free i ∧ ret = i) ∧
      (¬ (idAccepted first again ∧ free.Nonempty) → ret < 0) ∧ ret ≠ 0

/-- The write of `new_id` returns 0 or `EEXIST`. When the id was taken, it is not
the last virtual function alone that is free; otherwise none before it is. -/
def VfReached (h : Host κ) (first again : Int) (k : κ) : Prop :=
  match (vfSetup h).run k with
  | (none, _) => True
  | (some (totalvfs, id), k₁) =>
    let free (i : Nat) : Prop := vfStatus h (newIdWrites h first id k₁) i = 0
    (first = 0 ∨ first = eexist) ∧
      (idAccepted first again → free totalvfs → ∃ i, 1 ≤ i ∧ i < totalvfs ∧ free i) ∧
      (¬ idAccepted first again → ∀ i, 1 ≤ i → i < totalvfs → ¬ free i)

theorem newIdBranch_eq_giveUp {first : Int} : newIdBranch first = .giveUp ↔ ¬ (first = 0 ∨ first = eexist) := by
  unfold newIdBranch
  by_cases he : first = eexist
  · simp [he]
  · by_cases h0 : first = 0
    · simp [h0, eexist]
    · simp [he, h0]

/-- What the function returns once `new_id` has been written. -/
theorem setAvailableVfWith_ret {h : Host κ} {first : Int} {k k₁ : κ} {totalvfs : Nat} {id : String}
    (hs : (vfSetup h).run k = (some (totalvfs, id), k₁)) :
    ((setAvailableVfWith h first).run k).1 =
      if first = 0 ∨ first = eexist then
        ((List.range' 1 (totalvfs - 1)).find? fun i => vfStatus h (newIdWrites h first id k₁) i = 0).elim (-1) Int.ofNat
      else 0 := by
  unfold setAvailableVfWith
  rw [run_bind, hs]
  simp only [run_bind, run_modify]
  by_cases hf : first = 0 ∨ first = eexist
  · rw [if_neg (fun hg => newIdBranch_eq_giveUp.1 hg hf), findVf_ret, if_pos hf]
  · rw [if_pos (newIdBranch_eq_giveUp.2 hf), if_neg hf]
    rfl

theorem totalvfs_pos {h : Host κ} {k k₁ : κ} {totalvfs : Nat} {id : String}
    (hs : (vfSetup h).run k = (some (totalvfs, id), k₁)) : 0 < totalvfs := by
  unfold vfSetup at hs
  simp only [run_bind] at hs
  split at hs
  · cases hs
  · simp only [run_bind] at hs
    split at hs
    · cases hs
    · simp only [run_bind, readSysFile_run] at hs
      split at hs
      · cases hs
      · rename_i hpos
        simp only [run_bind, readSysFile_run] at hs
        split at hs
        · cases hs
        · split at hs
          · simp only [run_bind, readSysFile_run, writeSysFile_run] at hs
            split at hs
            · cases hs
            · cases hs
              omega
          · simp only [run_bind, readSysFile_run] at hs
            split at hs
            · cases hs
            · cases hs
              omega

/-- The loop stops before the last virtual function. -/
theorem search_iff {P : Prop} {n : Nat} (hn : 0 < n) (status : Nat → Int) :
    let ret := ((List.range' 1 (n - 1)).find? fun i => status i = 0).elim (-1) Int.ofNat
    let free : Set Nat := { i | 1 ≤ i ∧ i ≤ n ∧ status i = 0 }
    ((P ∧ free.Nonempty → ∃ i, IsLeast free i ∧ ret = i) ∧ (¬ (P ∧ free.Nonempty) → ret < 0) ∧ ret ≠ 0) ↔
      (P → status n = 0 → ∃ i, 1 ≤ i ∧ i < n ∧ status i = 0) ∧ (¬ P → ∀ i, 1 ≤ i → i < n → ¬ status i = 0) := by
  intro ret free
  cases hf : (List.range' 1 (n - 1)).find? fun i => status i = 0 with
  | none =>
    have hret : ret = -1 := by simp [ret, hf]
    have hbusy : ∀ i, 1 ≤ i → i < n → ¬ status i = 0 := by
      intro i h1 hlt
      rw [List.find?_range'_eq_none] at hf
      simpa using hf i h1 (by omega)
    rw [hret]
    constructor
    · rintro ⟨hleast, -, -⟩
      refine ⟨fun hP hlast => ?_, fun _ => hbusy⟩
      obtain ⟨i, -, hi⟩ := hleast ⟨hP, n, hn, Nat.le_refl n, hlast⟩
      omega
    · rintro ⟨hlast, -⟩
      refine ⟨?_, fun _ => by omega, by omega⟩
      rintro ⟨hP, i, h1, hle, hi⟩
      -- Only the last one can be free, and then an earlier one is, too.
      rcases Nat.eq_or_lt_of_le hle with rfl | hlt
      · obtain ⟨j, hj1, hjlt, hj⟩ := hlast hP hi
        exact absurd hj (hbusy j hj1 hjlt)
      · exact absurd hi (hbusy i h1 hlt)
  | some j =>
    have hret : ret = j := by simp [ret, hf]
    rw [List.find?_range'_eq_some, List.mem_range'_1] at hf
    obtain ⟨hs, hm, hmin⟩ := hf
    have hj : status j = 0 := by simpa using hs
    have hleast : IsLeast free j := by
      refine ⟨⟨hm.1, by omega, hj⟩, fun i hi => ?_⟩
      by_contra hlt
      have := hmin i hi.1 (by omega)
      simp [hi.2.2] at this
    rw [hret]
    constructor
    · rintro ⟨-, hneg, -⟩
      refine ⟨fun _ _ => ⟨j, hm.1, by omega, hj⟩, fun hP => ?_⟩
      have := hneg fun hc => hP hc.1
      omega
    · rintro ⟨-, hno⟩
      refine ⟨fun _ => ⟨j, hleast, rfl⟩, fun hc => ?_, by omega⟩
      exact absurd hj (hno (fun hP => hc ⟨hP, j, hleast.1⟩) j hm.1 (by omega))

/-- Exactly when `SetAvailableVf` makes the right choice. -/
theorem vfChosen_iff (h : Host κ) (first again : Int) (k : κ) :
    VfChosen h first again k ↔ VfReached h first again k := by
  unfold VfChosen VfReached
  rcases hs : (vfSetup h).run k with ⟨_ | ⟨totalvfs, id⟩, k₁⟩
  · have hret : ((setAvailableVfWith h first).run k).1 = -1 := by
      unfold setAvailableVfWith
      rw [run_bind, hs]
      rfl
    simp [hret]
  · simp only [setAvailableVfWith_ret hs]
    by_cases hf : first = 0 ∨ first = eexist
    · rw [if_pos hf]
      simp only [hf, true_and]
      exact search_iff (totalvfs_pos hs) _
    · rw [if_neg hf]
      simp [hf]

/-- As `WriteSysFile` returns 0, the physical function is not handed out. -/
theorem setAvailableVf_ne_zero (h : Host κ) (k : κ) : ((setAvailableVf h).run k).1 ≠ 0 := by
  rw [setAvailableVf_eq]
  rcases hs : (vfSetup h).run k with ⟨_ | ⟨totalvfs, id⟩, k₁⟩
  · unfold setAvailableVfWith
    rw [run_bind, hs]
    exact (by decide : (-1 : Int) ≠ 0)
  · rw [setAvailableVfWith_ret hs, if_pos (.inl rfl)]
    cases hf : (List.range' 1 (totalvfs - 1)).find? fun i => vfStatus h (newIdWrites h 0 id k₁) i = 0 with
    | none => simp
    | some i =>
      rw [List.find?_range'_eq_some, List.mem_range'_1] at hf
      simp
      omega

/-- A GPU with two virtual functions, where the first is in use. -/
def vfHost : Host Unit :=
  stillHost [(kIntelGpuSriovTotalVfs, "2"), (kIntelGpuSriovNumVfs, "2"), (kIntelGpuDevice, "0x46a6"), (vfEnable 1, "1"),
    (vfEnable 2, "0")] [(kVfioModulePath, []), (kVfioPciModulePath, [])]

/-- The last virtual function is free and not found; and where `new_id` is
refused, 0 comes back, which is the physical function. -/
theorem last_vf_missed : ¬ VfChosen vfHost 0 0 () ∧ ((setAvailableVfWith vfHost 13).run ()).1 = 0 := by
  have hs : ((vfSetup vfHost).run ()).1 = some (2, "8086 46a6") := rfl
  have hfree : vfStatus vfHost () 2 = 0 := rfl
  have hbusy : vfStatus vfHost () 1 = 1 := rfl
  refine ⟨?_, rfl⟩
  rw [vfChosen_iff]
  unfold VfReached
  rw [show (vfSetup vfHost).run () = (some (2, "8086 46a6"), ()) from Prod.ext hs rfl]
  rintro ⟨-, hlast, -⟩
  obtain ⟨i, h1, hlt, hi⟩ := hlast (.inl rfl) hfree
  obtain rfl : i = 1 := by omega
  rw [hbusy] at hi
  cases hi

end VmManager
