import Mathlib.Algebra.Order.Ring.Int
import Mathlib.Data.List.DropRight
/-!
# Text

The string operations of C++ and of Boost that configs, commands and sysfs
files go through: trimming, splitting and reading numbers. All of them work on
the list of characters.
-/
namespace Text

/-- `isspace` in the C locale. -/
def isSpace (c : Char) : Bool := c = ' ' || (9 ≤ c.toNat && c.toNat ≤ 13)

def trimList (cs : List Char) : List Char := ((cs.dropWhile isSpace).reverse.dropWhile isSpace).reverse

/-- `boost::trim`. -/
def trim (s : String) : String := .ofList (trimList s.toList)

/-- `boost::split` at each `sep`; the empty text has one empty token. -/
def split (sep : Char) (s : String) : List String := (s.toList.splitOn sep).map .ofList

/-- A run of separators becomes one. -/
def compress (sep : Char) : List Char → List Char
  | [] => []
  | [c] => [c]
  | c :: d :: cs => if c = sep ∧ d = sep then compress sep (d :: cs) else c :: compress sep (d :: cs)

/-- `boost::split` with `token_compress_on`. -/
def splitCompress (sep : Char) (s : String) : List String := ((compress sep s.toList).splitOn sep).map .ofList

/-- The text before and after the first `c`. -/
def cut (c : Char) : List Char → Option (List Char × List Char)
  | [] => none
  | d :: cs => if d = c then some ([], cs) else (cut c cs).map fun p => (d :: p.1, p.2)

/-- What follows `pre` in a text that starts with it. -/
def textAfter (pre s : String) : Option String :=
  if pre.toList <+: s.toList then some (.ofList (s.toList.drop pre.length)) else none

/-- The first word, up to a space. -/
def firstWord (s : String) : String := .ofList (s.toList.takeWhile (· ≠ ' '))

/-! ## Numbers -/

def digitVal (c : Char) : Option Nat :=
  if '0' ≤ c ∧ c ≤ '9' then some (c.toNat - 48)
  else if 'a' ≤ c ∧ c ≤ 'z' then some (c.toNat - 87)
  else if 'A' ≤ c ∧ c ≤ 'Z' then some (c.toNat - 55)
  else none

def isDigit (base : Nat) (c : Char) : Bool := (digitVal c).any (· < base)

def digitsVal (base : Nat) (ds : List Char) : Nat := ds.foldl (fun n c => n * base + (digitVal c).getD 0) 0

/-- The base `strtol` settles on, and the text after the prefix that says so.
`0x` counts only before a digit. -/
def basePrefix (base : Nat) : List Char → Nat × List Char
  | '0' :: x :: c :: cs =>
    if (base = 0 ∨ base = 16) ∧ (x = 'x' ∨ x = 'X') ∧ isDigit 16 c then (16, c :: cs)
    else (if base = 0 then 8 else base, '0' :: x :: c :: cs)
  | '0' :: cs => (if base = 0 then 8 else base, '0' :: cs)
  | cs => (if base = 0 then 10 else base, cs)

/-- `strtol` before any range check: the sign, the magnitude and the rest, or
`none` without a digit. -/
def scan (base : Nat) (s : List Char) : Option (Bool × Nat × List Char) :=
  let s := s.dropWhile isSpace
  let (neg, s) := match s with
    | '-' :: cs => (true, cs)
    | '+' :: cs => (false, cs)
    | cs => (false, cs)
  let (base, s) := basePrefix base s
  let ds := s.takeWhile (isDigit base)
  if ds.isEmpty then none else some (neg, digitsVal base ds, s.drop ds.length)

def signed (neg : Bool) (n : Nat) : Int := if neg then -n else n

/-- What `std::stoi` and `std::stoul` throw. -/
inductive NumError
  | invalidArgument
  | outOfRange
  deriving DecidableEq, Repr

/-- `std::stoi(s, &pos, base)`: the value and `pos`. -/
def stoi (base : Nat) (s : String) : Except NumError (Int × Nat) :=
  match scan base s.toList with
  | none => .error .invalidArgument
  | some (neg, n, rest) =>
    let v := signed neg n
    if -2 ^ 31 ≤ v ∧ v < 2 ^ 31 then .ok (v, s.toList.length - rest.length) else .error .outOfRange

/-- `std::stoul(s)`. A minus sign negates modulo 2^64. -/
def stoul (s : String) : Except NumError Nat :=
  match scan 10 s.toList with
  | none => .error .invalidArgument
  | some (neg, n, _) =>
    if n < 2 ^ 64 then .ok (if neg then (2 ^ 64 - n) % 2 ^ 64 else n) else .error .outOfRange

/-- `stream >> n` for an `int` in the given base: 0 without a digit, and the
nearest bound when it does not fit. -/
def extractInt (base : Nat) (s : String) : Int :=
  match scan base s.toList with
  | none => 0
  | some (neg, n, _) => max (-2 ^ 31) (min (signed neg n) (2 ^ 31 - 1))

/-- `strtol(s, nullptr, 10)`: 0 without a digit, and the nearest bound when it
does not fit. -/
def strtol (s : String) : Int :=
  match scan 10 s.toList with
  | none => 0
  | some (neg, n, _) => max (-2 ^ 63) (min (signed neg n) (2 ^ 63 - 1))

/-- `atoi(s)`, which is `(int) strtol(s)`. -/
def atoi (s : String) : Int := (strtol s).bmod (2 ^ 32)

example : atoi "9223372036854775808" = -1 := by decide +kernel

/-- `%x` of an `int`. -/
def hex (v : Int) : String := .ofList (Nat.toDigits 16 (v % 2 ^ 32).toNat)

/-! ## Where a number ends -/

theorem isDigit_mono {b b' : Nat} (hb : b ≤ b') {c : Char} (h : isDigit b c = true) : isDigit b' c = true := by
  unfold isDigit at h ⊢
  cases hv : digitVal c with
  | none => simp [hv] at h
  | some v =>
    simp only [hv, Option.any_some, decide_eq_true_eq] at h ⊢
    omega

theorem basePrefix_spec {base : Nat} (hb : base ≤ 16) (cs : List Char) :
    (basePrefix base cs).1 ≤ 16 ∧ (basePrefix base cs).2 <:+ cs := by
  unfold basePrefix
  split
  · rename_i x c cs
    split
    · exact ⟨Nat.le_refl 16, ⟨['0', x], rfl⟩⟩
    · refine ⟨?_, List.suffix_rfl⟩
      dsimp only
      split <;> omega
  · refine ⟨?_, List.suffix_rfl⟩
    dsimp only
    split <;> omega
  · refine ⟨?_, List.suffix_rfl⟩
    dsimp only
    split <;> omega

/-- Where digits end, in a text that starts with the base's prefix. -/
theorem digits_eq {base : Nat} (hb : base ≤ 16) {s rest : List Char} {neg neg' : Bool} {n : Nat}
    (h : (let (base, s) := basePrefix base s
          let ds := s.takeWhile (isDigit base)
          if ds.isEmpty then none else some (neg', digitsVal base ds, s.drop ds.length)) = some (neg, n, rest)) :
    ∃ pre d, s = pre ++ d :: rest ∧ isDigit 16 d = true := by
  obtain ⟨hle, pre, hpre⟩ := basePrefix_spec hb s
  dsimp only at h
  split at h
  · cases h
  · rename_i hne
    simp only [Option.some.injEq, Prod.mk.injEq] at h
    obtain ⟨-, -, hrest⟩ := h
    generalize (basePrefix base s).1 = b at hle hne hrest
    generalize (basePrefix base s).2 = t at hpre hne hrest
    have ht : t = t.takeWhile (isDigit b) ++ rest := by
      rw [← hrest]
      exact (List.prefix_iff_eq_append.1 (List.takeWhile_prefix _)).symm
    have hds : t.takeWhile (isDigit b) ≠ [] := by simpa using hne
    have hlast := List.mem_takeWhile_imp (List.getLast_mem hds)
    refine ⟨pre ++ (t.takeWhile (isDigit b)).dropLast, (t.takeWhile (isDigit b)).getLast hds, ?_, isDigit_mono hle hlast⟩
    rw [List.append_assoc, List.append_cons, List.dropLast_append_getLast, ← ht, hpre]

/-- A number that was read ends in a digit. -/
theorem scan_eq {base : Nat} (hb : base ≤ 16) {cs : List Char} {neg : Bool} {n : Nat} {rest : List Char}
    (h : scan base cs = some (neg, n, rest)) : ∃ pre d, cs = pre ++ d :: rest ∧ isDigit 16 d = true := by
  have key : ∀ s : List Char, s <:+ cs → (∃ pre d, s = pre ++ d :: rest ∧ isDigit 16 d = true) →
      ∃ pre d, cs = pre ++ d :: rest ∧ isDigit 16 d = true := by
    rintro s ⟨front, rfl⟩ ⟨pre, d, rfl, hd⟩
    exact ⟨front ++ pre, d, by simp, hd⟩
  have hsuf := List.dropWhile_suffix isSpace (l := cs)
  dsimp only [scan] at h
  split at h
  · rename_i s hs
    exact key s ((List.suffix_cons _ _).trans (hs ▸ hsuf)) (digits_eq hb h)
  · rename_i s hs
    exact key s ((List.suffix_cons _ _).trans (hs ▸ hsuf)) (digits_eq hb h)
  · exact key _ hsuf (digits_eq hb h)

/-- A hexadecimal digit, in capitals. -/
theorem toUpper_of_isDigit {c : Char} (h : isDigit 16 c = true) :
    ('0' ≤ c.toUpper ∧ c.toUpper ≤ '9') ∨ ('A' ≤ c.toUpper ∧ c.toUpper ≤ 'F') := by
  have hlt : c.toNat < 128 := by
    by_contra hge
    have hnone : digitVal c = none := by
      have hle : ∀ d : Char, d.toNat < 128 → ¬ c ≤ d := fun d hd hc => by
        have := UInt32.le_iff_toNat_le.1 (Char.le_def.1 hc)
        exact hge (Nat.lt_of_le_of_lt this hd)
      simp [digitVal, hle]
    simp [isDigit, hnone] at h
  have hall : ∀ n < 128, isDigit 16 (Char.ofNat n) = true →
      ('0' ≤ (Char.ofNat n).toUpper ∧ (Char.ofNat n).toUpper ≤ '9') ∨
        ('A' ≤ (Char.ofNat n).toUpper ∧ (Char.ofNat n).toUpper ≤ 'F') := by decide +kernel
  have := hall c.toNat hlt
  rw [Char.ofNat_toNat] at this
  exact this h

/-! ## Texts with something in them -/

/-- The text has a character other than a space. -/
def NonBlank (s : String) : Prop := ∃ c ∈ s.toList, c ≠ ' '

instance (s : String) : Decidable (NonBlank s) := List.decidableBEx (fun c => c ≠ ' ') s.toList

/-- `find_first_not_of(' ')` is `npos`; the search is over the bytes. -/
def blank (s : String) : Bool := s.toByteArray.data.toList.all (· = 32)

theorem utf8Encode_spaces (n : Nat) : (List.replicate n ' ').utf8Encode.data.toList = List.replicate n 32 := by
  have hspace : String.utf8EncodeChar ' ' = [32] := by decide +kernel
  have hbytes : (List.replicate n ' ').flatMap String.utf8EncodeChar = List.replicate n 32 := by
    induction n with
    | zero => rfl
    | succ n ih => rw [List.replicate_succ, List.flatMap_cons, ih, hspace]; rfl
  rw [List.utf8Encode, hbytes]
  simp

theorem NonBlank.blank_eq_false {s : String} (h : NonBlank s) : blank s = false := by
  obtain ⟨c, hc, hne⟩ := h
  refine Bool.eq_false_iff.2 fun hb => hne ?_
  -- Bytes that are all 32 are the encoding of that many spaces, and of nothing else.
  have hrep : s.toByteArray.data.toList = List.replicate s.toByteArray.data.toList.length 32 := by
    refine List.eq_replicate_iff.2 ⟨rfl, fun b hm => ?_⟩
    exact of_decide_eq_true (List.all_eq_true.1 hb b hm)
  have hs : s = String.ofList (List.replicate s.toByteArray.data.toList.length ' ') := by
    apply String.toByteArray_inj.1
    rw [String.toByteArray_ofList]
    apply ByteArray.ext
    apply Array.toList_inj.1
    rw [utf8Encode_spaces]
    exact hrep
  rw [hs, String.toList_ofList] at hc
  exact List.eq_of_mem_replicate hc

theorem NonBlank.append_left {s : String} (h : NonBlank s) (t : String) : NonBlank (s ++ t) := by
  obtain ⟨c, hc, hs⟩ := h
  exact ⟨c, by simp [hc], hs⟩

theorem NonBlank.append_right {t : String} (h : NonBlank t) (s : String) : NonBlank (s ++ t) := by
  obtain ⟨c, hc, hs⟩ := h
  exact ⟨c, by simp [hc], hs⟩

theorem head_of_dropWhile {p : Char → Bool} {cs : List Char} (h : cs.dropWhile p ≠ []) :
    ∃ c ∈ cs.dropWhile p, p c = false := by
  induction cs with
  | nil => exact absurd rfl h
  | cons c cs ih =>
    by_cases hc : p c = true
    · rw [List.dropWhile_cons_of_pos hc] at h ⊢
      exact ih h
    · rw [List.dropWhile_cons_of_neg hc] at h ⊢
      exact ⟨c, List.mem_cons_self, by simpa using hc⟩

/-- A trimmed text is empty or has a character other than a space. -/
theorem nonBlank_trim {s : String} (h : trim s ≠ "") : NonBlank (trim s) := by
  have hne : ((s.toList.dropWhile isSpace).reverse.dropWhile isSpace) ≠ [] := by
    intro he
    exact h (by simp [trim, trimList, he])
  obtain ⟨c, hc, hs⟩ := head_of_dropWhile hne
  refine ⟨c, by simpa [trim, trimList] using hc, ?_⟩
  rintro rfl
  cases hs

/-! ## Trimming twice, and what a split leaves out -/

theorem trimList_eq (cs : List Char) : trimList cs = (cs.dropWhile isSpace).rdropWhile isSpace := rfl

theorem trimList_trimList (cs : List Char) : trimList (trimList cs) = trimList cs := by
  have hfront : (trimList cs).dropWhile isSpace = trimList cs := by
    rw [List.dropWhile_eq_self_iff]
    intro hl
    have hpre : trimList cs <+: cs.dropWhile isSpace := List.rdropWhile_prefix isSpace _
    rw [hpre.getElem hl]
    exact List.dropWhile_get_zero_not isSpace cs (Nat.lt_of_lt_of_le hl hpre.length_le)
  rw [trimList_eq (trimList cs), hfront, trimList_eq, List.rdropWhile_idempotent]

@[simp] theorem trim_trim (s : String) : trim (trim s) = trim s := by
  simp only [trim, String.toList_ofList, trimList_trimList]

/-- No token of a split has the separator in it. -/
theorem splitOn_not_mem {sep : Char} {cs : List Char} : ∀ ds ∈ cs.splitOn sep, sep ∉ ds := by
  induction cs with
  | nil => simp
  | cons c cs ih =>
    rw [List.splitOn_cons_eq_if_modifyHead]
    split
    · simpa using ih
    · rename_i hc
      cases hs : cs.splitOn sep with
      | nil => simp
      | cons d ds =>
        rw [hs] at ih
        simp only [List.modifyHead_cons, List.forall_mem_cons] at ih ⊢
        refine ⟨?_, ih.2⟩
        rw [List.mem_cons, not_or]
        exact ⟨fun he => hc (by simp [he]), ih.1⟩

theorem split_head_not_mem (sep : Char) (s : String) : sep ∉ ((split sep s).headD "").toList := by
  unfold split
  cases hs : s.toList.splitOn sep with
  | nil => simp
  | cons d ds =>
    have hd := splitOn_not_mem d (hs ▸ List.mem_cons_self)
    simpa using hd

/-! ## Lines, and the parts of a line -/

/-- Lines that were written one after the other come back, and an empty rest. -/
theorem splitOn_lines {sep : Char} {ls : List (List Char)} (h : ∀ l ∈ ls, sep ∉ l) :
    (ls.flatMap (· ++ [sep])).splitOn sep = ls ++ [[]] := by
  induction ls with
  | nil => simp
  | cons l ls ih =>
    simp only [List.forall_mem_cons] at h
    simp only [List.flatMap_cons, List.append_assoc, List.cons_append, List.nil_append]
    rw [List.splitOn_append_cons_self_of_not_mem h.1, ih h.2]

theorem cut_append {c : Char} {pre : List Char} (h : c ∉ pre) (post : List Char) :
    cut c (pre ++ c :: post) = some (pre, post) := by
  induction pre with
  | nil => simp [cut]
  | cons d pre ih =>
    simp only [List.mem_cons, not_or] at h
    simp [cut, Ne.symm h.1, ih h.2]

theorem cut_takeWhile {c : Char} {cs pre post : List Char} (h : cut c cs = some (pre, post)) :
    cs.takeWhile (· ≠ c) = pre := by
  induction cs generalizing pre with
  | nil => cases h
  | cons d cs ih =>
    unfold cut at h
    split at h
    · rename_i hd
      obtain ⟨rfl, -⟩ : [] = pre ∧ cs = post := by simpa using h
      simp [hd]
    · rename_i hd
      obtain ⟨p, hp, hpre⟩ := Option.map_eq_some_iff.1 h
      obtain ⟨rfl, rfl⟩ : d :: p.1 = pre ∧ p.2 = post := by simpa using hpre
      rw [List.takeWhile_cons_of_pos (by simp [hd]), ih hp]

theorem eq_of_cut {c : Char} {cs pre post : List Char} (h : cut c cs = some (pre, post)) : cs = pre ++ c :: post := by
  induction cs generalizing pre post with
  | nil => cases h
  | cons d cs ih =>
    unfold cut at h
    split at h
    · rename_i hd
      obtain ⟨rfl, rfl⟩ : [] = pre ∧ cs = post := by simpa using h
      rw [hd, List.nil_append]
    · obtain ⟨p, hp, hpre⟩ := Option.map_eq_some_iff.1 h
      obtain ⟨rfl, rfl⟩ : d :: p.1 = pre ∧ p.2 = post := by simpa using hpre
      rw [List.cons_append, ← ih hp]

theorem textAfter_eq_some {pre s t : String} : textAfter pre s = some t ↔ s = pre ++ t := by
  rw [textAfter, Option.ite_none_right_eq_some, Option.some.injEq, ← String.length_toList]
  constructor
  · rintro ⟨⟨cs, hcs⟩, rfl⟩
    rw [← String.toList_inj, ← hcs, List.drop_left, String.toList_append, String.toList_ofList]
  · rintro rfl
    rw [String.toList_append, List.drop_left, String.ofList_toList]
    exact ⟨List.prefix_append _ _, rfl⟩

theorem firstWord_append {s : String} (hs : ' ' ∈ s.toList) (t : String) : firstWord (s ++ t) = firstWord s := by
  have htake : ∀ {cs : List Char}, ' ' ∈ cs → ∀ ds, (cs ++ ds).takeWhile (· ≠ ' ') = cs.takeWhile (· ≠ ' ') := by
    intro cs hcs ds
    induction cs with
    | nil => cases hcs
    | cons c cs ih =>
      by_cases hc : c = ' '
      · simp [hc]
      · rw [List.cons_append, List.takeWhile_cons_of_pos (by simp [hc]), List.takeWhile_cons_of_pos (by simp [hc]),
          ih ((List.mem_cons.1 hcs).resolve_left (Ne.symm hc))]
  rw [firstWord, String.toList_append, htake hs]
  rfl

theorem cut_subset {c : Char} {cs : List Char} {p : List Char × List Char} (h : cut c cs = some p) : p.1 ⊆ cs := by
  induction cs generalizing p with
  | nil => cases h
  | cons d cs ih =>
    unfold cut at h
    split at h
    · cases h
      exact List.nil_subset _
    · obtain ⟨q, hq, rfl⟩ := Option.map_eq_some_iff.1 h
      exact List.cons_subset_cons d (ih hq)

theorem trimList_eq_self {cs : List Char} (h : ∀ c ∈ cs, isSpace c = false) : trimList cs = cs := by
  have hfront : cs.dropWhile isSpace = cs := List.dropWhile_eq_self_iff.2 fun hl => by simp [h]
  have hback : cs.rdropWhile isSpace = cs := List.rdropWhile_eq_self_iff.2 fun hne => by simp [h]
  rw [trimList_eq, hfront, hback]

theorem rdropWhile_dropWhile (p : Char → Bool) (cs : List Char) :
    (cs.rdropWhile p).dropWhile p = (cs.dropWhile p).rdropWhile p := by
  induction cs using List.reverseRecOn with
  | nil => rfl
  | append_singleton cs c ih =>
    by_cases hc : p c = true
    · rw [List.rdropWhile_concat_pos p cs c hc, ih, List.dropWhile_append]
      split
      · rename_i he
        simp only [List.isEmpty_iff] at he
        simp [he, hc]
      · rw [List.rdropWhile_concat_pos p _ c hc]
    · rw [List.rdropWhile_concat_neg p cs c hc, List.dropWhile_append]
      split
      · simp [List.rdropWhile_singleton, hc]
      · rw [List.rdropWhile_concat_neg p _ c hc]

/-- The end of a text may be trimmed beforehand. -/
theorem trimList_rdropWhile (cs : List Char) : trimList (cs.rdropWhile isSpace) = trimList cs := by
  rw [trimList_eq, rdropWhile_dropWhile, List.rdropWhile_idempotent, trimList_eq]

/-- A line with a name in front is trimmed at its end only. -/
theorem trimList_append {pre : List Char} (h : ∀ c ∈ pre, isSpace c = false) {c : Char} (hc : isSpace c = false)
    (post : List Char) : trimList (pre ++ c :: post) = pre ++ c :: post.rdropWhile isSpace := by
  have hback : (pre ++ c :: post).rdropWhile isSpace = pre ++ c :: post.rdropWhile isSpace := by
    induction post using List.reverseRecOn with
    | nil => rw [List.rdropWhile_concat_neg isSpace pre c (by simp [hc])]; rfl
    | append_singleton post d ih =>
      rw [← List.cons_append, ← List.append_assoc, List.rdropWhile_concat, ih, List.rdropWhile_concat]
      split <;> simp
  have hfront : (pre ++ c :: post).dropWhile isSpace = pre ++ c :: post := by
    cases pre with
    | nil => simp [hc]
    | cons d pre => simp [h d List.mem_cons_self]
  rw [trimList_eq, hfront, hback]

/-! ## Numbers that are the whole text -/

/-- A decimal number, perhaps with a plus sign, and nothing else. -/
def decimal (s : String) : Option Nat :=
  let ds := match s.toList with
    | '+' :: cs => cs
    | cs => cs
  if ds ≠ [] ∧ ds.all (isDigit 10) then some (digitsVal 10 ds) else none

theorem basePrefix_ten (cs : List Char) : basePrefix 10 cs = (10, cs) := by
  unfold basePrefix
  split <;> simp

theorem isSpace_of_isDigit {c : Char} (h : isDigit 10 c = true) : isSpace c = false := by
  refine Bool.eq_false_iff.2 fun hs => ?_
  simp only [isSpace, Bool.or_eq_true, Bool.and_eq_true, decide_eq_true_eq] at hs
  have hle : c.toNat ≤ 32 := by
    rcases hs with rfl | hs
    · decide
    · omega
  have hall : ∀ n ≤ 32, isDigit 10 (Char.ofNat n) = false := by decide +kernel
  have := hall c.toNat hle
  rw [Char.ofNat_toNat, h] at this
  cases this

/-- Digits are read to their end. -/
theorem scan_digits {ds : List Char} (hne : ds ≠ []) (hd : ds.all (isDigit 10) = true) :
    scan 10 ds = some (false, digitsVal 10 ds, []) ∧ scan 10 ('+' :: ds) = some (false, digitsVal 10 ds, []) := by
  have htake : ds.takeWhile (isDigit 10) = ds := List.takeWhile_eq_self_iff.2 (List.all_eq_true.1 hd)
  obtain ⟨d, rest, rfl⟩ := List.exists_cons_of_ne_nil hne
  have hdig : isDigit 10 d = true := List.all_eq_true.1 hd d List.mem_cons_self
  have hminus : d ≠ '-' := by
    rintro rfl
    exact absurd hdig (by decide)
  have hplus : d ≠ '+' := by
    rintro rfl
    exact absurd hdig (by decide)
  constructor
  · unfold scan
    rw [List.dropWhile_cons_of_neg (by simp [isSpace_of_isDigit hdig])]
    dsimp only
    split
    · rename_i he
      cases he
      exact absurd rfl hminus
    · rename_i he
      cases he
      exact absurd rfl hplus
    · simp [basePrefix_ten, htake]
  · have hsp : isSpace '+' = false := by decide
    unfold scan
    rw [List.dropWhile_cons_of_neg (by simp [hsp])]
    simp [basePrefix_ten, htake]

theorem stoul_decimal {s : String} {n : Nat} (h : decimal s = some n) (hn : n < 2 ^ 64) : stoul s = .ok n := by
  have hscan : scan 10 s.toList = some (false, n, []) := by
    unfold decimal at h
    dsimp only at h
    split at h
    · rename_i ds hs
      split at h
      · rename_i hds
        cases h
        rw [hs]
        exact (scan_digits hds.1 hds.2).2
      · cases h
    · split at h
      · rename_i hds
        cases h
        exact (scan_digits hds.1 hds.2).1
      · cases h
  rw [stoul, hscan]
  exact if_pos hn

/-! ## Tokens with something in them -/

theorem filter_of_head_tail {α : Type} {p : α → Bool} {xs ys : List α} (hhead : xs.head? = ys.head?)
    (htail : xs.tail.filter p = ys.tail.filter p) : xs.filter p = ys.filter p := by
  cases xs with
  | nil =>
    cases ys with
    | nil => rfl
    | cons y ys => cases hhead
  | cons x xs =>
    cases ys with
    | nil => cases hhead
    | cons y ys =>
      cases hhead
      simp only [List.tail_cons] at htail
      simp only [List.filter_cons, htail]

/-- Runs of separators only add empty tokens, and none in front. -/
theorem splitOn_compress (sep : Char) (cs : List Char) :
    ((compress sep cs).splitOn sep).head? = (cs.splitOn sep).head? ∧
      ((compress sep cs).splitOn sep).tail.filter (· ≠ []) = (cs.splitOn sep).tail.filter (· ≠ []) := by
  induction cs using compress.induct sep with
  | case1 => exact ⟨rfl, rfl⟩
  | case2 c => exact ⟨rfl, rfl⟩
  | case3 c d cs h ih =>
    obtain ⟨rfl, rfl⟩ := h
    rw [compress, if_pos ⟨rfl, rfl⟩]
    simp only [List.splitOn_cons_eq_if_modifyHead, beq_self_eq_true, if_true, List.head?_cons, List.tail_cons] at ih ⊢
    exact ⟨ih.1, by simpa using ih.2⟩
  | case4 c d cs h ih =>
    rw [compress, if_neg h, List.splitOn_cons_eq_if_modifyHead, List.splitOn_cons_eq_if_modifyHead c]
    generalize (compress sep (d :: cs)).splitOn sep = ts at ih ⊢
    generalize (d :: cs).splitOn sep = us at ih ⊢
    by_cases hc : (c == sep) = true
    · simp only [hc, if_true, List.head?_cons, List.tail_cons]
      exact ⟨trivial, filter_of_head_tail ih.1 ih.2⟩
    · simp only [hc, if_false, Bool.false_eq_true, List.head?_modifyHead, List.tail_modifyHead, ih.1]
      exact ⟨trivial, ih.2⟩

theorem filter_splitOn_compress (sep : Char) (cs : List Char) :
    ((compress sep cs).splitOn sep).filter (· ≠ []) = (cs.splitOn sep).filter (· ≠ []) :=
  filter_of_head_tail (splitOn_compress sep cs).1 (splitOn_compress sep cs).2

theorem filter_ofList (ls : List (List Char)) :
    (ls.map String.ofList).filter (· ≠ "") = (ls.filter (· ≠ [])).map .ofList := by
  have hp : ((fun s : String => decide (s ≠ "")) ∘ String.ofList) = fun cs : List Char => decide (cs ≠ []) := by
    funext cs
    simp
  rw [List.filter_map, hp]

/-- The tokens of a split with compression that are not empty. -/
theorem filter_splitCompress (sep : Char) (s : String) :
    (splitCompress sep s).filter (· ≠ "") = ((s.toList.splitOn sep).filter (· ≠ [])).map .ofList := by
  rw [splitCompress, filter_ofList, filter_splitOn_compress]

end Text
