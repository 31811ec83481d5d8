import Mathlib.Data.List.AList
import VmManager.Flash
import VmManager.Lib.Dir
/-!
# The images on the USB disk (`VmFlasher::CheckImages`)

`CheckImages` reads a directory that it changes: an image of 4 GiB or more
becomes its parts, and the iterator may give these too or may not. What it adds
up covers the files there are at its end either way, and the disk made from it
has room for them, unless the sum leaves the 64 bits it is kept in.
-/
open Text

namespace VmManager

namespace VmFlasher

variable {κ : Type} {h : FlashHost κ}

/-! ## The count of blocks -/

theorem ddCount_room (total : UInt64) (hroom : total.toNat + 2 ^ 30 + kDdBs.toNat ≤ 2 ^ 64) :
    total.toNat + 2 ^ 30 ≤ (ddCount total).toNat * kDdBs.toNat := by
  have hbs : kDdBs.toNat = 66060288 := by decide
  rw [hbs] at hroom ⊢
  have hgb : (total + gb 1).toNat = total.toNat + 2 ^ 30 := by
    rw [UInt64.toNat_add, show (gb 1).toNat = 2 ^ 30 by decide]
    exact Nat.mod_eq_of_lt (by omega)
  have hlast : (total + gb 1 + kDdBs - 1).toNat = total.toNat + 2 ^ 30 + 66060287 := by
    have hsum : total + gb 1 + kDdBs - 1 = total + gb 1 + (kDdBs - 1) := by
      rw [UInt64.sub_eq_add_neg, UInt64.add_assoc, ← UInt64.sub_eq_add_neg]
    rw [hsum, UInt64.toNat_add, hgb, show (kDdBs - 1).toNat = 66060287 by decide]
    exact Nat.mod_eq_of_lt (by omega)
  rw [ddCount, UInt64.toNat_div, hlast, hbs]
  omega

/-! ## A directory of images -/

/-- The host has a directory of images: `view` is its files, by their paths. The
program `e` is `split`. -/
structure FlatDir (h : FlashHost κ) (e oDir : String) (view : κ → Dir String) : Prop where
  regular : ∀ k p, p ∈ (view k).files → h.isRegularFile k p = true
  fileSize : ∀ k p, p ∈ (view k).files → (h.fileSize k p).toNat = (view k).size p
  /-- `split` writes small parts beside the file, which are as much as it. -/
  split : ∀ k p, p ∈ (view k).files → (h.systemArgs k e (splitArgs p)).1 = 0 →
    ∃ parts : List (String × Nat), (∀ q ∈ parts, q.2 < k4GB.toNat) ∧ (parts.map (·.2)).sum = (view k).size p ∧
      p ∉ parts.map (·.1) ∧ view (h.systemArgs k e (splitArgs p)).2 = (view k).putAll parts
  remove : ∀ k p, p ∈ (view k).files → view (h.remove k p) = (view k).unlink p
  listed : ∀ k k' n, n ∈ h.listDir k oDir → h.isRegularFile k' (Path.append oDir n) = true →
    Path.append oDir n ∈ (view k').files
  nodup : ∀ k, (h.listDir k oDir).Nodup
  /-- The tools change nothing but the disk. -/
  dd : ∀ k total, (view (h.system k (ddCmd total)).2).unlink kVirtualUsbDiskPath = (view k).unlink kVirtualUsbDiskPath
  mkfs : ∀ k, (view (h.system k mkfsCmd).2).unlink kVirtualUsbDiskPath = (view k).unlink kVirtualUsbDiskPath
  mcopy : ∀ k p, (view (h.system k (mcopyCmd p)).2).unlink kVirtualUsbDiskPath = (view k).unlink kVirtualUsbDiskPath

/-- An iterator of the directory gives these paths while the loop runs. It may
still give the path of a file that is gone. -/
def Iterates (h : FlashHost κ) (view : κ → Dir String) (e : String) :
    Dir.Stream String → List String → VmFlasher → κ → Prop
  | s, [], _, _ => s.unread = ∅
  | s, path :: paths, f, k =>
    let r := visitImage h e f path k
    if h.isRegularFile k path then
      (path ∈ s.unread ∨ path ∈ s.fresh) ∧ Iterates h view e ((s.read path).follow (view k) (view r.2.2)) paths r.2.1 r.2.2
    else Iterates h view e s paths f k

/-- What the loop adds to `total_image_size_`. -/
def sizesAdded (h : FlashHost κ) (e : String) : List String → VmFlasher → κ → Nat
  | [], _, _ => 0
  | path :: paths, f, k =>
    let r := visitImage h e f path k
    (if h.isRegularFile k path then (h.fileSize k path).toNat else 0) + sizesAdded h e paths r.2.1 r.2.2

variable {oDir : String} {view : κ → Dir String} {e : String} {s : Dir.Stream String} {path : String} {visits : List String}
  {f : VmFlasher} {k : κ} {B : Nat}

/-! ## One visit -/

theorem visitImage_other (hreg : ¬ h.isRegularFile k path = true) : visitImage h e f path k = (true, f, k) := if_neg hreg

theorem visitImage_small (hreg : h.isRegularFile k path = true) (hsmall : ¬ k4GB ≤ h.fileSize k path) :
    visitImage h e f path k = (true, { f with totalImageSize := f.totalImageSize + h.fileSize k path }, k) := by
  rw [visitImage, if_pos hreg]
  exact if_neg hsmall

/-- A large file is only passed when it has been split, and it is removed then. -/
theorem visitImage_large (hreg : h.isRegularFile k path = true) (hlarge : k4GB ≤ h.fileSize k path)
    (hret : (visitImage h e f path k).1 = true) :
    (h.systemArgs k e (splitArgs path)).1 = 0 ∧ visitImage h e f path k =
      (true, { f with totalImageSize := f.totalImageSize + h.fileSize k path },
        h.remove (h.systemArgs k e (splitArgs path)).2 path) := by
  rw [visitImage, if_pos hreg]
  dsimp only
  rw [if_pos hlarge]
  by_cases hsplit : (h.systemArgs k e (splitArgs path)).1 = 0
  · exact ⟨hsplit, if_neg (not_not.2 hsplit)⟩
  · rw [visitImage, if_pos hreg] at hret
    dsimp only at hret
    rw [if_pos hlarge, if_pos hsplit] at hret
    cases hret

/-- A regular file is visited: its size is added, without overflow, and the
count goes on. -/
theorem visitImage_counted (D : FlatDir h e oDir view)
    (hc : Dir.Counted k4GB.toNat (view k) s f.totalImageSize.toNat B) (hB : B < 2 ^ 64)
    (hreg : h.isRegularFile k path = true) (hpath : path ∈ s.unread ∨ path ∈ s.fresh)
    (hret : (visitImage h e f path k).1 = true) :
    let r := visitImage h e f path k
    Dir.Counted k4GB.toNat (view r.2.2) ((s.read path).follow (view k) (view r.2.2)) r.2.1.totalImageSize.toNat B ∧
      r.2.1.totalImageSize.toNat = f.totalImageSize.toNat + (h.fileSize k path).toNat := by
  have hfile : path ∈ (view k).files := hpath.elim (@hc.stream.unread path) (@hc.stream.fresh path)
  have hsize := D.fileSize k path hfile
  have hadd (hle : f.totalImageSize.toNat + (h.fileSize k path).toNat ≤ B) :
      (f.totalImageSize + h.fileSize k path).toNat = f.totalImageSize.toNat + (h.fileSize k path).toNat := by
    rw [UInt64.toNat_add]
    exact Nat.mod_eq_of_lt (by omega)
  by_cases hlarge : k4GB ≤ h.fileSize k path
  · obtain ⟨hsplit, hvisit⟩ := visitImage_large hreg hlarge hret
    obtain ⟨parts, hsmall, hsum, hnot, hview⟩ := D.split k path hfile hsplit
    have hkept : path ∈ (view (h.systemArgs k e (splitArgs path)).2).files := by
      rw [hview]
      exact Dir.files_putAll _ _ hfile
    have hcount := hc.split hpath (hsize ▸ UInt64.le_iff_toNat_le.1 hlarge) hsmall hsum hnot
    rw [← hview, ← D.remove _ _ hkept, ← hsize] at hcount
    rw [hvisit]
    dsimp only
    rw [hadd hcount.le]
    exact ⟨hcount, rfl⟩
  · have hsmall : (view k).size path < k4GB.toNat := by
      rw [← hsize]
      exact Nat.lt_of_not_le fun hle => hlarge (UInt64.le_iff_toNat_le.2 hle)
    have hcount := hc.read hpath hsmall
    rw [← hsize] at hcount
    rw [visitImage_small hreg hlarge]
    dsimp only
    rw [hadd hcount.le, (hc.stream.read path).follow_self]
    exact ⟨hcount, rfl⟩

/-- The loop, to its end. -/
theorem visitImages_counted (D : FlatDir h e oDir view) (hB : B < 2 ^ 64)
    (hc : Dir.Counted k4GB.toNat (view k) s f.totalImageSize.toNat B) (hit : Iterates h view e s visits f k)
    (hret : (visitImages h e visits f k).1 = true) :
    let r := visitImages h e visits f k
    (∃ s' : Dir.Stream String, s'.unread = ∅ ∧ Dir.Counted k4GB.toNat (view r.2.2) s' r.2.1.totalImageSize.toNat B) ∧
      r.2.1.totalImageSize.toNat = f.totalImageSize.toNat + sizesAdded h e visits f k := by
  induction visits generalizing s f k with
  | nil => exact ⟨⟨s, hit, hc⟩, rfl⟩
  | cons path paths ih =>
    rw [Iterates] at hit
    rw [visitImages] at hret ⊢
    rw [sizesAdded]
    by_cases hreg : h.isRegularFile k path = true
    · rw [if_pos hreg] at hit ⊢
      have hstep := visitImage_counted (e := e) D hc hB hreg hit.1
      revert hit hret hstep
      generalize visitImage h e f path k = r
      obtain ⟨ok, f', k'⟩ := r
      intro hit hret hstep
      cases ok with
      | false => cases hret
      | true =>
        obtain ⟨hc', hadd⟩ := hstep rfl
        obtain ⟨hend, hsum⟩ := ih hc' hit.2 hret
        exact ⟨hend, by rw [hsum, hadd, Nat.add_assoc]⟩
    · rw [if_neg hreg] at hit ⊢
      rw [visitImage_other hreg] at hret ⊢
      rw [Nat.zero_add]
      exact ih hc hit hret

theorem checkImages_eq (hfound : ¬ (h.searchPath k "split").isEmpty = true) :
    checkImages h visits f k = visitImages h (h.searchPath k "split") visits f k := if_neg hfound

/-! ## What is copied -/

/-- The files that the loop of `mcopy` commands copies, with their sizes. -/
def copied (h : FlashHost κ) : List String → κ → List (String × Nat)
  | [], _ => []
  | path :: paths, k =>
    if h.isRegularFile k path then
      let mcopy := h.system k (mcopyCmd path)
      (path, (h.fileSize k path).toNat) :: if mcopy.1 ≠ 0 then [] else copied h paths mcopy.2
    else copied h paths k

/-- These are the files that `mcopy` is run on, one after the other. -/
theorem copyFiles_copied (paths : List String) (k : κ) :
    (copyFiles h paths k).2 = (copied h paths k).foldl (fun k p => (h.system k (mcopyCmd p.1)).2) k := by
  induction paths generalizing k with
  | nil => rfl
  | cons path paths ih =>
    rw [copyFiles, copied]
    by_cases hreg : h.isRegularFile k path = true
    · rw [if_pos hreg, if_pos hreg, List.foldl_cons]
      dsimp only
      split
      · rfl
      · exact ih _
    · rw [if_neg hreg, if_neg hreg]
      exact ih k

theorem append_injective (dir : String) : Function.Injective (Path.append dir) := by
  intro n m hnm
  unfold Path.append at hnm
  split at hnm
  · exact (String.append_right_inj _).1 hnm
  · exact (String.append_right_inj _).1 hnm

/-- What is copied, the disk itself apart, is among the files of the directory. -/
theorem copied_le (D : FlatDir h e oDir view) {paths : List String} (hnodup : paths.Nodup)
    (hfiles : ∀ p ∈ paths, ∀ k, h.isRegularFile k p = true → p ∈ (view k).files) {d : Dir String}
    (hd : (view k).unlink kVirtualUsbDiskPath = d) :
    (((copied h paths k).filter (·.1 ≠ kVirtualUsbDiskPath)).map (·.2)).sum ≤ ∑ m ∈ d.files with m ∈ paths, d.size m := by
  induction paths generalizing k with
  | nil => exact Nat.zero_le _
  | cons p paths ih =>
    obtain ⟨hnew, hnodup⟩ := List.nodup_cons.1 hnodup
    obtain ⟨hfile, hfiles⟩ := List.forall_mem_cons.1 hfiles
    rw [copied]
    by_cases hreg : h.isRegularFile k p = true
    · rw [if_pos hreg]
      -- The files left over, whether or not this one could be copied.
      have htail : (((if (h.system k (mcopyCmd p)).1 ≠ 0 then [] else copied h paths (h.system k (mcopyCmd p)).2).filter
          (·.1 ≠ kVirtualUsbDiskPath)).map (·.2)).sum ≤ ∑ m ∈ d.files with m ∈ paths, d.size m := by
        split
        · exact Nat.zero_le _
        · exact ih hnodup hfiles ((D.mcopy k p).trans hd)
      by_cases hdisk : p = kVirtualUsbDiskPath
      · rw [List.filter_cons_of_neg (by simpa using hdisk)]
        exact htail.trans Dir.sum_mem_le
      · have hmem : p ∈ d.files := hd ▸ Dir.mem_unlink.2 ⟨hdisk, hfile k hreg⟩
        have hsize : (h.fileSize k p).toNat = d.size p := by
          rw [D.fileSize k p (hfile k hreg), ← hd, Dir.size_unlink _ hdisk]
        rw [List.filter_cons_of_pos (by simpa using hdisk), List.map_cons, List.sum_cons, hsize,
          Dir.sum_mem_cons hmem hnew]
        exact Nat.add_le_add_left htail _
    · rw [if_neg hreg]
      exact (ih hnodup hfiles hd).trans Dir.sum_mem_le

/-- The paths that `CopyImages` goes through. -/
def imagePaths (h : FlashHost κ) (oDir : String) (k : κ) : List String := (h.listDir k oDir).map (Path.append oDir)

/-- What is copied to the disk, apart from the disk itself, is not more than the
files of the directory before it was made. -/
theorem copied_le_total (D : FlatDir h e oDir view) (total : UInt64) (k : κ) :
    (((copied h (imagePaths h oDir (makeDisk h total k).2) (makeDisk h total k).2).filter
      (·.1 ≠ kVirtualUsbDiskPath)).map (·.2)).sum ≤ (view k).total := by
  have hmade : (view (makeDisk h total k).2).unlink kVirtualUsbDiskPath = (view k).unlink kVirtualUsbDiskPath := by
    unfold makeDisk
    dsimp only
    split
    · exact D.dd k total
    · exact (D.mkfs _).trans (D.dd k total)
  have hfiles : ∀ p ∈ imagePaths h oDir (makeDisk h total k).2, ∀ k, h.isRegularFile k p = true →
      p ∈ (view k).files := by
    intro p hp k' hreg
    obtain ⟨n, hn, rfl⟩ := List.mem_map.1 hp
    exact D.listed _ k' n hn hreg
  refine (copied_le D ((D.nodup _).map (append_injective oDir)) hfiles hmade).trans ?_
  exact (Finset.sum_le_sum_of_subset (Finset.filter_subset _ _)).trans (Dir.total_unlink _ _)

/-! ## A host that splits -/

/-- A number in so many digits. -/
def digits : Nat → Nat → List Char
  | 0, _ => []
  | w + 1, i => digits w (i / 10) ++ [Nat.digitChar (i % 10)]

/-- The suffixes of `split --numeric-suffixes`: `00` to `89`, then `9000` to
`9899`, then `990000` to `998999`, and so on. -/
def numericSuffix (nines i : Nat) : List Char :=
  if i < 9 * 10 ^ (nines + 1) then List.replicate nines '9' ++ digits (nines + 2) i
  else numericSuffix (nines + 1) (i - 9 * 10 ^ (nines + 1))
termination_by i
decreasing_by
  have := Nat.pow_pos (n := nines + 1) (show 0 < 10 by decide)
  omega

theorem length_digits (w i : Nat) : (digits w i).length = w := by
  induction w generalizing i with
  | zero => rfl
  | succ w ih => rw [digits, List.length_append, ih, List.length_singleton]

theorem digitChar_inj {a b : Nat} (ha : a < 10) (hb : b < 10) (h : Nat.digitChar a = Nat.digitChar b) : a = b := by
  have hall : ∀ a < 10, ∀ b < 10, Nat.digitChar a = Nat.digitChar b → a = b := by decide
  exact hall a ha b hb h

theorem digits_inj {w i j : Nat} (hi : i < 10 ^ w) (hj : j < 10 ^ w) (h : digits w i = digits w j) : i = j := by
  induction w generalizing i j with
  | zero => omega
  | succ w ih =>
    obtain ⟨hinit, hlast⟩ := List.append_inj' h rfl
    have hdiv := ih (by omega) (by omega) hinit
    have hmod := digitChar_inj (Nat.mod_lt _ (by decide)) (Nat.mod_lt _ (by decide)) (List.cons.inj hlast).1
    omega

theorem le_length_numericSuffix (nines i : Nat) : 2 * nines + 2 ≤ (numericSuffix nines i).length := by
  fun_induction numericSuffix nines i with
  | case1 nines i hi =>
    rw [List.length_append, List.length_replicate, length_digits]
    omega
  | case2 nines i hi ih => omega

theorem length_numericSuffix {nines i : Nat} (hi : i < 9 * 10 ^ (nines + 1)) :
    (numericSuffix nines i).length = 2 * nines + 2 := by
  rw [numericSuffix, if_pos hi, List.length_append, List.length_replicate, length_digits]
  omega

theorem numericSuffix_injective (nines : Nat) : Function.Injective (numericSuffix nines) := by
  intro i j hij
  fun_induction numericSuffix nines i generalizing j with
  | case1 nines i hi =>
    have hj : j < 9 * 10 ^ (nines + 1) := by
      by_contra hj
      have hlong := le_length_numericSuffix (nines + 1) (j - 9 * 10 ^ (nines + 1))
      have hlen := congrArg List.length hij
      rw [numericSuffix, if_neg hj, List.length_append, List.length_replicate, length_digits] at hlen
      omega
    rw [numericSuffix, if_pos hj] at hij
    have hpow : 10 ^ (nines + 2) = 10 * 10 ^ (nines + 1) := Nat.pow_succ'
    exact digits_inj (by omega) (by omega) (List.append_cancel_left hij)
  | case2 nines i hi ih =>
    by_cases hj : j < 9 * 10 ^ (nines + 1)
    · have hlong := le_length_numericSuffix (nines + 1) (i - 9 * 10 ^ (nines + 1))
      rw [hij, length_numericSuffix hj] at hlong
      omega
    · rw [numericSuffix.eq_def nines j, if_neg hj] at hij
      have := ih hij
      omega

/-- The sizes of the parts of `n` bytes. -/
def partSizes (bytes n : Nat) : List Nat := List.replicate (n / bytes) bytes ++ if n % bytes = 0 then [] else [n % bytes]

theorem sum_partSizes (bytes n : Nat) : (partSizes bytes n).sum = n := by
  have hdiv := Nat.div_add_mod' n bytes
  rw [partSizes, List.sum_append, List.sum_replicate_nat]
  split
  · rw [List.sum_nil]
    omega
  · rw [List.sum_singleton]
    exact hdiv

theorem partSizes_le {bytes n m : Nat} (hb : 0 < bytes) (hm : m ∈ partSizes bytes n) : m ≤ bytes := by
  have hmod := Nat.mod_lt n hb
  rcases List.mem_append.1 hm with hm | hm
  · exact Nat.le_of_eq (List.eq_of_mem_replicate hm)
  · split at hm
    · cases hm
    · rw [List.mem_singleton.1 hm]
      omega

def partPath (pre : String) (i : Nat) : String := pre ++ .ofList (numericSuffix 0 i)

/-- The parts of `n` bytes, below 4 GiB each. -/
def parts (pre : String) (n : Nat) : List (String × UInt64) :=
  (partSizes (k4GB.toNat - 1) n).zipIdx.map fun q => (partPath pre q.2, .ofNat q.1)

/-- Files with their sizes. -/
abbrev Images := AList fun _ : String => UInt64

def bytesOf (k : Images) (p : String) : UInt64 := (k.lookup p).getD 0

def writeParts (k : Images) (ps : List (String × UInt64)) : Images := ps.foldl (fun k p => k.insert p.1 p.2) k

def imageView (k : Images) : Dir String := ⟨k.keys.toFinset, fun p => (bytesOf k p).toNat⟩

/-- A machine that has these files in a directory, and a `split` that writes
there what the real one does. The disk is kept elsewhere. -/
def splitHost : FlashHost Images where
  toHost :=
    { liveHost (fun _ _ => none) (fun _ _ => none) [] (fun k _ _ => k) id with
      isRegularFile := fun k p => (k.lookup p).isSome
      listDir := fun k dir => k.keys.filterMap (textAfter (dir ++ "/"))
      remove := fun k p => k.erase p }
  fileSize := bytesOf
  systemArgs k _ args :=
    match args with
    | [_, _, path, pre] => (0, writeParts k (parts pre (bytesOf k path).toNat))
    | _ => (1, k)

theorem imageView_insert (k : Images) (p : String) (v : UInt64) :
    imageView (k.insert p v) = (imageView k).put (p, v.toNat) := by
  have hfiles : (k.insert p v).keys.toFinset = insert p k.keys.toFinset := by
    ext m
    rw [List.mem_toFinset, ← AList.mem_keys, AList.mem_insert, Finset.mem_insert, List.mem_toFinset, AList.mem_keys]
  have hsize : (fun m => (bytesOf (k.insert p v) m).toNat) = Function.update (fun m => (bytesOf k m).toNat) p v.toNat := by
    funext m
    by_cases hm : m = p
    · subst hm
      rw [Function.update_self, bytesOf, AList.lookup_insert]
      rfl
    · rw [Function.update_of_ne hm, bytesOf, AList.lookup_insert_ne hm]
      rfl
  rw [imageView, hfiles, hsize]
  rfl

theorem imageView_erase (k : Images) (p : String) : imageView (k.erase p) = (imageView k).unlink p := by
  have hfiles : (k.erase p).keys.toFinset = k.keys.toFinset.erase p := by
    ext m
    rw [List.mem_toFinset, ← AList.mem_keys, AList.mem_erase, Finset.mem_erase, List.mem_toFinset, AList.mem_keys]
  have hsize : (fun m => (bytesOf (k.erase p) m).toNat) = Function.update (fun m => (bytesOf k m).toNat) p 0 := by
    funext m
    by_cases hm : m = p
    · subst hm
      rw [Function.update_self, bytesOf, AList.lookup_erase]
      rfl
    · rw [Function.update_of_ne hm, bytesOf, AList.lookup_erase_ne hm]
      rfl
  rw [imageView, hfiles, hsize]
  rfl

theorem imageView_writeParts (k : Images) (ps : List (String × UInt64)) :
    imageView (writeParts k ps) = (imageView k).putAll (ps.map fun p => (p.1, p.2.toNat)) := by
  induction ps generalizing k with
  | nil => rfl
  | cons p ps ih =>
    rw [show writeParts k (p :: ps) = writeParts (k.insert p.1 p.2) ps from rfl, ih, imageView_insert]
    rfl

theorem mem_imageView {k : Images} {p : String} : p ∈ (imageView k).files ↔ splitHost.isRegularFile k p = true := by
  rw [show (splitHost.isRegularFile k p = true) = ((k.lookup p).isSome = true) from rfl, AList.lookup_isSome,
    AList.mem_keys]
  exact List.mem_toFinset

theorem lt_of_mem_partSizes {n m : Nat} (hm : m ∈ partSizes (k4GB.toNat - 1) n) : m < k4GB.toNat := by
  have hle := partSizes_le (show 0 < k4GB.toNat - 1 by decide) hm
  have hpos : 0 < k4GB.toNat := by decide
  omega

theorem parts_toNat (pre : String) (n : Nat) :
    (parts pre n).map (fun p => p.2.toNat) = partSizes (k4GB.toNat - 1) n := by
  rw [parts, List.map_map]
  refine Eq.trans (List.map_congr_left fun q hq => ?_) (List.zipIdx_map_fst 0 _)
  have hlt := lt_of_mem_partSizes (List.fst_mem_of_mem_zipIdx hq)
  exact UInt64.toNat_ofNat_of_lt' (hlt.trans_le (by decide))

theorem parts_fst (pre : String) (n : Nat) :
    (parts pre n).map (·.1) = (List.range (partSizes (k4GB.toNat - 1) n).length).map (partPath pre) := by
  rw [parts, List.map_map, List.range_eq_range', ← List.zipIdx_map_snd, List.map_map]
  rfl

theorem partPath_injective (pre : String) : Function.Injective (partPath pre) := fun _ _ hij =>
  numericSuffix_injective 0 (String.ofList_injective ((String.append_right_inj pre).1 hij))

theorem nodup_parts (pre : String) (n : Nat) : ((parts pre n).map (·.1)).Nodup := by
  rw [parts_fst]
  exact List.nodup_range.map (partPath_injective pre)

theorem not_mem_parts (path : String) (n : Nat) : path ∉ (parts (path ++ ".part") n).map (·.1) := by
  rw [parts_fst]
  intro hmem
  obtain ⟨i, -, hi⟩ := List.mem_map.1 hmem
  have hlen := congrArg String.length hi
  rw [partPath, String.length_append, String.length_append, show ".part".length = 5 by decide] at hlen
  omega

theorem splitHost_flatDir (e oDir : String) : FlatDir splitHost e oDir imageView where
  regular _ _ hp := mem_imageView.1 hp
  fileSize _ _ _ := rfl
  split k p _ _ := by
    refine ⟨(parts (p ++ ".part") (bytesOf k p).toNat).map fun q => (q.1, q.2.toNat), ?_, ?_, ?_, ?_⟩
    · intro q hq
      obtain ⟨q, hq', rfl⟩ := List.mem_map.1 hq
      have hsize : q.2.toNat ∈ (parts (p ++ ".part") (bytesOf k p).toNat).map (fun q => q.2.toNat) :=
        List.mem_map_of_mem hq'
      rw [parts_toNat] at hsize
      exact lt_of_mem_partSizes hsize
    · rw [List.map_map]
      exact (congrArg List.sum (parts_toNat _ _)).trans (sum_partSizes _ _)
    · rw [List.map_map]
      exact not_mem_parts p _
    · exact imageView_writeParts k _
  remove k p _ := imageView_erase k p
  listed _ _ _ _ hreg := mem_imageView.2 hreg
  nodup k := by
    refine k.keys_nodup.filterMap fun p q n hp hq => ?_
    rw [textAfter_eq_some.1 hp, textAfter_eq_some.1 hq]
  dd _ _ := rfl
  mkfs _ := rfl
  mcopy _ _ := rfl

/-! ## One large image -/

def imagePath : String := "/tmp/civ/boot.img"

/-- A directory with one image of `v` bytes. -/
def oneImage (v : UInt64) : Images := AList.singleton imagePath v

def imageParts (v : UInt64) : List (String × UInt64) := parts (imagePath ++ ".part") v.toNat

/-- The directory when the image has been split. -/
def splitImage (v : UInt64) : Images := (writeParts (oneImage v) (imageParts v)).erase imagePath

theorem imageView_splitImage (v : UInt64) : imageView (splitImage v) =
    ((imageView (oneImage v)).putAll ((imageParts v).map fun p => (p.1, p.2.toNat))).unlink imagePath := by
  rw [splitImage, imageView_erase, imageView_writeParts]

theorem ne_imagePath {v : UInt64} {p : String × UInt64} (hp : p ∈ imageParts v) : p.1 ≠ imagePath := by
  rintro he
  exact not_mem_parts imagePath v.toNat (List.mem_map.2 ⟨p, hp, he⟩)

/-- The parts with their sizes as numbers, as the view has them. -/
theorem mem_viewParts {v : UInt64} {p : String × UInt64} (hp : p ∈ imageParts v) :
    (p.1, p.2.toNat) ∈ (imageParts v).map fun p => (p.1, p.2.toNat) := List.mem_map.2 ⟨p, hp, rfl⟩

theorem mem_splitImage {v : UInt64} {p : String × UInt64} (hp : p ∈ imageParts v) :
    p.1 ∈ (imageView (splitImage v)).files := by
  have hput := Dir.mem_putAll (mem_viewParts hp) (imageView (oneImage v))
  rw [imageView_splitImage]
  exact Dir.mem_unlink.2 ⟨ne_imagePath hp, hput⟩

theorem fileSize_splitImage {v : UInt64} {p : String × UInt64} (hp : p ∈ imageParts v) :
    (splitHost.fileSize (splitImage v) p.1).toNat = p.2.toNat := by
  have hnodup : (((imageParts v).map fun p => (p.1, p.2.toNat)).map (·.1)).Nodup := by
    rw [List.map_map]
    exact nodup_parts _ _
  have hput := Dir.size_putAll hnodup (mem_viewParts hp) (imageView (oneImage v))
  rw [(splitHost_flatDir "/usr/bin/split" "/tmp/civ").fileSize _ _ (mem_splitImage hp), imageView_splitImage,
    Dir.size_unlink _ (ne_imagePath hp)]
  exact hput

theorem small_splitImage {v : UInt64} {p : String × UInt64} (hp : p ∈ imageParts v) :
    ¬ k4GB ≤ splitHost.fileSize (splitImage v) p.1 := by
  have hmem : p.2.toNat ∈ (imageParts v).map fun p => p.2.toNat := List.mem_map_of_mem hp
  rw [imageParts, parts_toNat] at hmem
  rw [UInt64.le_iff_toNat_le, fileSize_splitImage hp]
  exact Nat.not_le.2 (lt_of_mem_partSizes hmem)

theorem lookup_oneImage (v : UInt64) : (oneImage v).lookup imagePath = some v := by
  rw [oneImage, ← AList.insert_empty, AList.lookup_insert]

theorem isRegularFile_oneImage (v : UInt64) : splitHost.isRegularFile (oneImage v) imagePath = true :=
  congrArg Option.isSome (lookup_oneImage v)

theorem fileSize_oneImage (v : UInt64) : splitHost.fileSize (oneImage v) imagePath = v :=
  congrArg (Option.getD · 0) (lookup_oneImage v)

theorem splitHost_finds_split (k : Images) : ¬ (splitHost.searchPath k "split").isEmpty = true :=
  show ¬ ("/usr/bin/" ++ "split").isEmpty = true by decide

theorem visitImage_oneImage {v : UInt64} (hv : k4GB ≤ v) (e : String) (f : VmFlasher) :
    visitImage splitHost e f imagePath (oneImage v) =
      (true, { f with totalImageSize := f.totalImageSize + v }, splitImage v) := by
  have hsize := fileSize_oneImage v
  have hparts : splitHost.systemArgs (oneImage v) e (splitArgs imagePath) = (0, writeParts (oneImage v) (imageParts v)) :=
    congrArg (fun n : UInt64 => (0, writeParts (oneImage v) (parts (imagePath ++ ".part") n.toNat))) hsize
  rw [visitImage, if_pos (isRegularFile_oneImage v)]
  dsimp only
  rw [hsize, if_pos hv, hparts]
  rfl

/-- A visit to small files only adds their sizes. -/
theorem visitImages_small {ps : List String}
    (hps : ∀ p ∈ ps, h.isRegularFile k p = true ∧ ¬ k4GB ≤ h.fileSize k p) :
    (∃ f', visitImages h e ps f k = (true, f', k)) ∧
      sizesAdded h e ps f k = (ps.map fun p => (h.fileSize k p).toNat).sum := by
  induction ps generalizing f with
  | nil => exact ⟨⟨f, rfl⟩, rfl⟩
  | cons p ps ih =>
    obtain ⟨⟨hreg, hsmall⟩, hps⟩ := List.forall_mem_cons.1 hps
    have hvisit := visitImage_small (f := f) (e := e) hreg hsmall
    obtain ⟨hrun, hsum⟩ := ih (f := { f with totalImageSize := f.totalImageSize + h.fileSize k p }) hps
    rw [visitImages, sizesAdded, hvisit, if_pos hreg, List.map_cons, List.sum_cons]
    exact ⟨hrun, congrArg _ hsum⟩

/-- An iterator that has nothing left that it must give may give any of the
files that have come. -/
theorem iterates_fresh {ps : List String} (hs : s.Of (view k)) (hunread : s.unread = ∅) (hnodup : ps.Nodup)
    (hps : ∀ p ∈ ps, p ∈ s.fresh ∧ h.isRegularFile k p = true ∧ ¬ k4GB ≤ h.fileSize k p) :
    Iterates h view e s ps f k := by
  induction ps generalizing s f with
  | nil => exact hunread
  | cons p ps ih =>
    obtain ⟨⟨hfresh, hreg, hsmall⟩, hps⟩ := List.forall_mem_cons.1 hps
    obtain ⟨hp, hnodup⟩ := List.nodup_cons.1 hnodup
    rw [Iterates, if_pos hreg, visitImage_small hreg hsmall, (hs.read p).follow_self]
    refine ⟨.inr hfresh, ih (hs.read p) ?_ hnodup fun q hq => ⟨?_, hps q hq |>.2⟩⟩
    · rw [Dir.Stream.read, hunread, Finset.erase_empty]
    · exact Finset.mem_erase.2 ⟨fun he => hp (he ▸ hq), (hps q hq).1⟩

/-- The iterator gives the image, and then some of its parts. -/
theorem iterates_oneImage {v : UInt64} (hv : k4GB ≤ v) (e : String) (f : VmFlasher) {ps : List String}
    (hps : List.Sublist ps ((imageParts v).map (·.1))) :
    Iterates splitHost imageView e (.opened (imageView (oneImage v))) (imagePath :: ps) f (oneImage v) := by
  have hfiles : (imageView (oneImage v)).files = {imagePath} := rfl
  rw [Iterates, if_pos (isRegularFile_oneImage v), visitImage_oneImage hv]
  have himage : imagePath ∈ (imageView (oneImage v)).files := hfiles ▸ Finset.mem_singleton_self imagePath
  refine ⟨.inl himage, iterates_fresh (.follow _ _ _) ?_ ?_ ?_⟩
  · rw [Dir.Stream.follow, Dir.Stream.read, Dir.Stream.opened, hfiles, Finset.erase_singleton, Finset.empty_inter]
  · exact (nodup_parts _ _).sublist hps
  · intro q hq
    obtain ⟨p, hp, rfl⟩ := List.mem_map.1 (hps.subset hq)
    refine ⟨?_, mem_imageView.1 (mem_splitImage hp), small_splitImage hp⟩
    rw [Dir.Stream.follow, hfiles]
    refine Finset.mem_union_right _ (Finset.mem_sdiff.2 ⟨mem_splitImage hp, ?_⟩)
    rw [Finset.mem_singleton]
    exact ne_imagePath hp

theorem checkImages_oneImage {v : UInt64} (hv : k4GB ≤ v) (f : VmFlasher) {ps : List String}
    (hps : List.Sublist ps ((imageParts v).map (·.1))) :
    (∃ f', checkImages splitHost (imagePath :: ps) f (oneImage v) = (true, f', splitImage v)) ∧
      ∀ e, sizesAdded splitHost e (imagePath :: ps) f (oneImage v) =
        v.toNat + (ps.map fun p => (splitHost.fileSize (splitImage v) p).toNat).sum := by
  have hsmall : ∀ p ∈ ps, splitHost.isRegularFile (splitImage v) p = true ∧
      ¬ k4GB ≤ splitHost.fileSize (splitImage v) p := by
    intro q hq
    obtain ⟨p, hp, rfl⟩ := List.mem_map.1 (hps.subset hq)
    exact ⟨mem_imageView.1 (mem_splitImage hp), small_splitImage hp⟩
  refine ⟨?_, fun e => ?_⟩
  · obtain ⟨f', hrun⟩ := (visitImages_small (e := splitHost.searchPath (oneImage v) "split")
      (f := { f with totalImageSize := f.totalImageSize + v }) hsmall).1
    refine ⟨f', ?_⟩
    rw [checkImages_eq (splitHost_finds_split _), visitImages, visitImage_oneImage hv]
    exact hrun
  · rw [sizesAdded, if_pos (isRegularFile_oneImage v), fileSize_oneImage, visitImage_oneImage hv]
    exact congrArg _ (visitImages_small hsmall).2

theorem load_oneImage {v : UInt64} (hv : k4GB ≤ v) : (imageView (oneImage v)).load k4GB.toNat = 2 * v.toNat := by
  have hsize : (imageView (oneImage v)).size imagePath = v.toNat := congrArg (fun o => (o.getD 0).toNat) (lookup_oneImage v)
  rw [Dir.load, show (imageView (oneImage v)).files = {imagePath} from rfl, Finset.sum_singleton, hsize,
    if_pos (UInt64.le_iff_toNat_le.1 hv)]

/-- A file that is there is copied, when copying changes nothing. -/
theorem mem_copied (hcopy : ∀ p, h.system k (mcopyCmd p) = (0, k)) (hreg : h.isRegularFile k path = true)
    {ps : List String} (hp : path ∈ ps) : (path, (h.fileSize k path).toNat) ∈ copied h ps k := by
  induction ps with
  | nil => cases hp
  | cons p ps ih =>
    rw [copied, hcopy]
    rcases List.mem_cons.1 hp with rfl | hp
    · rw [if_pos hreg]
      exact List.mem_cons_self
    · split
      · exact List.mem_cons_of_mem _ (ih hp)
      · exact ih hp

theorem sum_splitImage (v : UInt64) :
    (((imageParts v).map (·.1)).map fun p => (splitHost.fileSize (splitImage v) p).toNat).sum = v.toNat := by
  have hsizes : ((imageParts v).map (·.1)).map (fun p => (splitHost.fileSize (splitImage v) p).toNat) =
      (imageParts v).map fun p => p.2.toNat := by
    rw [List.map_map]
    exact List.map_congr_left fun p hp => fileSize_splitImage hp
  rw [hsizes, imageParts, parts_toNat, sum_partSizes]

/-- With all the parts visited, the image has been added twice. -/
theorem total_splitImage {v : UInt64} (hv : k4GB ≤ v) (hfits : 2 * v.toNat < 2 ^ 64) :
    ∃ f', checkImages splitHost (imagePath :: (imageParts v).map (·.1)) {} (oneImage v) = (true, f', splitImage v) ∧
      f'.totalImageSize.toNat = 2 * v.toNat := by
  have hall := List.Sublist.refl ((imageParts v).map (·.1))
  obtain ⟨⟨f', hrun⟩, hadded⟩ := checkImages_oneImage hv {} hall
  have hfound := splitHost_finds_split (oneImage v)
  have hit := iterates_oneImage hv (splitHost.searchPath (oneImage v) "split") {} hall
  have hload : ({} : VmFlasher).totalImageSize.toNat + (imageView (oneImage v)).load k4GB.toNat < 2 ^ 64 := by
    rw [load_oneImage hv]
    exact (Nat.zero_add _).symm ▸ hfits
  rw [checkImages_eq hfound] at hrun
  have hsum := (visitImages_counted (splitHost_flatDir _ "/tmp/civ") hload (.opened _ _ _) hit (congrArg Prod.fst hrun)).2
  rw [hrun, hadded, sum_splitImage, ← Nat.two_mul] at hsum
  exact ⟨f', by rw [checkImages_eq hfound, hrun], hsum.trans (Nat.zero_add _)⟩

theorem partPath_eq (i : Nat) :
    partPath (imagePath ++ ".part") i = "/tmp/civ" ++ "/" ++ ("boot.img.part" ++ .ofList (numericSuffix 0 i)) := by
  rw [partPath, ← String.append_assoc]
  exact congrArg (· ++ _) (by decide)

/-- A part of the split image is copied, and it is as large as parts get. -/
theorem le_copied_splitImage {v : UInt64} (hv : k4GB ≤ v) :
    k4GB.toNat - 1 ≤ (((copied splitHost (imagePaths splitHost "/tmp/civ" (splitImage v)) (splitImage v)).filter
      (·.1 ≠ kVirtualUsbDiskPath)).map (·.2)).sum := by
  have hfull : k4GB.toNat - 1 ∈ (imageParts v).map fun p => p.2.toNat := by
    have hpos : 0 < v.toNat / (k4GB.toNat - 1) :=
      Nat.div_pos ((Nat.sub_le _ _).trans (UInt64.le_iff_toNat_le.1 hv)) (by decide)
    rw [imageParts, parts_toNat]
    exact List.mem_append_left _ (List.mem_replicate.2 ⟨Nat.ne_of_gt hpos, rfl⟩)
  obtain ⟨p, hp, hsize⟩ := List.mem_map.1 hfull
  obtain ⟨i, -, hi⟩ := List.mem_map.1 (parts_fst (imagePath ++ ".part") v.toNat ▸ List.mem_map_of_mem hp)
  rw [partPath_eq] at hi
  have hlisted : p.1 ∈ imagePaths splitHost "/tmp/civ" (splitImage v) := by
    refine List.mem_map.2 ⟨_, List.mem_filterMap.2 ⟨p.1, List.mem_toFinset.1 (mem_splitImage hp), ?_⟩, hi⟩
    exact textAfter_eq_some.2 hi.symm
  have hother : p.1 ≠ kVirtualUsbDiskPath := by
    intro he
    have hlen := congrArg String.length (hi.trans he)
    rw [String.length_append, String.length_append "boot.img.part", show ("/tmp/civ" ++ "/").length = 9 by decide,
      show "boot.img.part".length = 13 by decide, show kVirtualUsbDiskPath.length = 15 by decide] at hlen
    omega
  have hmem := mem_copied (fun _ => rfl) (mem_imageView.1 (mem_splitImage hp)) hlisted
  rw [fileSize_splitImage hp, hsize] at hmem
  exact List.le_sum_of_mem (List.mem_map.2 ⟨_, List.mem_filter.2 ⟨hmem, by simpa using hother⟩, rfl⟩)

/-! ## The images fit -/

/-- A directory of images, and any way that its iterator goes: when `CheckImages`
returns true, then every file is small, the sizes have been added up without
overflow, and the disk is larger by 1 GiB than all that is copied to it. The
sizes of the images, of the large ones twice, must leave room for the last block
in the 64 bits. -/
theorem images_fit (D : FlatDir h (h.searchPath k "split") oDir view)
    (hit : Iterates h view (h.searchPath k "split") (.opened (view k)) visits f k)
    (hroom : f.totalImageSize.toNat + (view k).load k4GB.toNat + 2 ^ 30 + kDdBs.toNat ≤ 2 ^ 64)
    (hret : (checkImages h visits f k).1 = true) :
    let r := checkImages h visits f k
    let disk := makeDisk h r.2.1.totalImageSize r.2.2
    (∀ n ∈ h.listDir r.2.2 oDir, h.isRegularFile r.2.2 (Path.append oDir n) = true →
        h.fileSize r.2.2 (Path.append oDir n) < k4GB) ∧
      (((copied h (imagePaths h oDir disk.2) disk.2).filter (·.1 ≠ kVirtualUsbDiskPath)).map (·.2)).sum + 2 ^ 30 ≤
        (ddCount r.2.1.totalImageSize).toNat * kDdBs.toNat ∧
      r.2.1.totalImageSize.toNat = f.totalImageSize.toNat + sizesAdded h (h.searchPath k "split") visits f k ∧
      r.2.1.totalImageSize.toNat + (gb 1).toNat + kDdBs.toNat - 1 < 2 ^ 64 := by
  by_cases hfound : (h.searchPath k "split").isEmpty = true
  · rw [checkImages, if_pos hfound] at hret
    cases hret
  · rw [checkImages_eq hfound] at hret ⊢
    have hbs : 0 < kDdBs.toNat := by decide
    obtain ⟨⟨s', hend, hc⟩, hadded⟩ :=
      visitImages_counted D (by omega) (.opened k4GB.toNat (view k) f.totalImageSize.toNat) hit hret
    generalize visitImages h (h.searchPath k "split") visits f k = r at hc hadded ⊢
    obtain ⟨hsmall, htotal⟩ := hc.done hend
    have hle := hc.le
    have hdisk := ddCount_room r.2.1.totalImageSize (by omega)
    refine ⟨fun n hn hreg => ?_, ?_, hadded, ?_⟩
    · have hfile := D.listed _ _ n hn hreg
      rw [UInt64.lt_iff_toNat_lt, D.fileSize _ _ hfile]
      exact hsmall _ hfile
    · have hcopied := copied_le_total D r.2.1.totalImageSize r.2.2
      omega
    · rw [show (gb 1).toNat = 2 ^ 30 by decide]
      omega

/-- Five gigabytes in two parts, of which the iterator gives one. -/
theorem images_fit_five_gb :
    let v := gb 5
    let r := checkImages splitHost (imagePath :: ((imageParts v).map (·.1)).take 1) {} (oneImage v)
    let disk := makeDisk splitHost r.2.1.totalImageSize r.2.2
    r.1 = true ∧
      (((copied splitHost (imagePaths splitHost "/tmp/civ" disk.2) disk.2).filter
        (·.1 ≠ kVirtualUsbDiskPath)).map (·.2)).sum + 2 ^ 30 ≤ (ddCount r.2.1.totalImageSize).toNat * kDdBs.toNat := by
  have hlarge : k4GB ≤ gb 5 := by decide
  have hsome := List.take_sublist 1 ((imageParts (gb 5)).map (·.1))
  have hret := checkImages_oneImage hlarge {} hsome
  obtain ⟨⟨f', hrun⟩, -⟩ := hret
  have htrue := congrArg Prod.fst hrun
  have hroom : ({} : VmFlasher).totalImageSize.toNat + (imageView (oneImage (gb 5))).load k4GB.toNat + 2 ^ 30 +
      kDdBs.toNat ≤ 2 ^ 64 := by
    rw [load_oneImage hlarge]
    decide
  exact ⟨htrue, (images_fit (splitHost_flatDir _ "/tmp/civ") (iterates_oneImage hlarge _ {} hsome) hroom htrue).2.1⟩

/-- One image of 2^63 - 1 bytes, all of whose parts the iterator gives: the sum
fits, but the last block does not, and the disk has 17 blocks. -/
theorem images_overflow :
    let v : UInt64 := 9223372036854775807
    let visits := imagePath :: (imageParts v).map (·.1)
    let r := checkImages splitHost visits {} (oneImage v)
    let disk := makeDisk splitHost r.2.1.totalImageSize r.2.2
    FlatDir splitHost (splitHost.searchPath (oneImage v) "split") "/tmp/civ" imageView ∧
      (imageView (oneImage v)).total < 2 ^ 63 ∧
      Iterates splitHost imageView (splitHost.searchPath (oneImage v) "split") (.opened (imageView (oneImage v))) visits {}
        (oneImage v) ∧
      r.1 = true ∧ r.2.1.totalImageSize = 18446744073709551614 ∧ ddCount r.2.1.totalImageSize = 17 ∧
      ¬ (((copied splitHost (imagePaths splitHost "/tmp/civ" disk.2) disk.2).filter
        (·.1 ≠ kVirtualUsbDiskPath)).map (·.2)).sum + 2 ^ 30 ≤ (ddCount r.2.1.totalImageSize).toNat * kDdBs.toNat := by
  intro v visits r disk
  have hlarge : k4GB ≤ v := by decide
  obtain ⟨f', hrun, htotal⟩ := total_splitImage hlarge (by decide)
  have hr : r = (true, f', splitImage v) := hrun
  have hcount : f'.totalImageSize = 18446744073709551614 := UInt64.toNat_inj.1 (htotal.trans (by decide))
  have hcopied := le_copied_splitImage hlarge
  have hsize : (imageView (oneImage v)).total = v.toNat :=
    congrArg (fun o => (o.getD 0).toNat) (lookup_oneImage v)
  refine ⟨splitHost_flatDir _ _, ?_, iterates_oneImage hlarge _ {} (List.Sublist.refl _), ?_, ?_, ?_, ?_⟩
  · rw [hsize]
    decide
  · rw [hr]
  · rw [hr, hcount]
  · rw [hr, hcount]
    decide
  · have hdisk : disk = (true, splitImage v) := congrArg (fun r => makeDisk splitHost r.2.1.totalImageSize r.2.2) hr
    rw [hdisk, hr, hcount]
    refine Nat.not_le.2 (lt_of_lt_of_le ?_ (Nat.add_le_add_right hcopied _))
    decide

end VmFlasher

end VmManager
