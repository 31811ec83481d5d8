import VmManager.ConfigTheorems
/-!
# Which files are accepted

`SanitizeOpts` walks over the tree, in which an entry outside any section looks
like a section without entries. The tree has the entries of the text in their
order, so what the walk decides is read off the text.
-/
open Text

namespace VmManager

/-! ## The entries of a text -/

/-- The text in front of a character, trimmed. -/
def upTo (c : Char) (cs : List Char) : String := trim (.ofList (cs.takeWhile (· ≠ c)))

/-- What a line of the file is. -/
inductive IniItem
  | blank
  | header (name : String)
  | entry (key : String)
  deriving DecidableEq, Repr

def iniItem (line : List Char) : IniItem :=
  match trimList line with
  | [] => .blank
  | ';' :: _ => .blank
  | '#' :: _ => .blank
  | '[' :: rest => .header (upTo ']' rest)
  | c :: cs => .entry (upTo '=' (c :: cs))

/-- The section that a line leaves open. -/
def IniItem.next (group : Option String) : IniItem → Option String
  | .header name => some name
  | _ => group

/-- An entry: its key, and the section it lies in, if any. -/
abbrev FileEntry := Option String × String

def IniItem.entries (group : Option String) : IniItem → List FileEntry
  | .entry key => [(group, key)]
  | _ => []

def iniEntries : Option String → List (List Char) → List FileEntry
  | _, [] => []
  | group, line :: lines => (iniItem line).entries group ++ iniEntries ((iniItem line).next group) lines

/-- The entries of a file, from its first line to its last. -/
def fileEntries (content : String) : List FileEntry := iniEntries none (content.toList.splitOn '\n')

/-- A group of `kConfigMap`. -/
def isGroup (name : String) : Bool := kConfigMap.any (·.1 == name)

/-- The entry lies in a section of `kConfigMap`, which has its key. -/
def FileEntry.isKnown (e : FileEntry) : Bool := e.1.any (known · e.2)

/-! ## The entries of the tree -/

def Section.leaves (sec : Section) : List FileEntry :=
  if sec.entries.isEmpty then [(none, sec.name)] else sec.entries.map fun e => (some sec.name, e.1)

def treeEntries (secs : List Section) : List FileEntry := secs.flatMap Section.leaves

/-- The entries of what was read so far, in the order of the lines. -/
def IniState.entries (st : IniState) : List FileEntry := treeEntries (dropEmpty st).reverse

/-- The section that is open, if any. -/
inductive InSection : IniState → Option String → Prop
  | outside (secs : List Section) : InSection (secs, false) none
  | inside (sec : Section) (rest : List Section) : InSection (sec :: rest, true) (some sec.name)

/-- An open section adds its entries, which may be none. -/
theorem entries_inside (sec : Section) (rest : List Section) :
    IniState.entries (sec :: rest, true) =
      treeEntries rest.reverse ++ sec.entries.map fun e => (some sec.name, e.1) := by
  by_cases hempty : sec.entries = []
  · simp [IniState.entries, dropEmpty, hempty]
  · simp [IniState.entries, dropEmpty, treeEntries, Section.leaves, hempty]

/-! ## One line -/

variable {st st' : IniState} {group : Option String}

theorem iniSection_some {line : List Char} (h : iniSection st line = some st') :
    st' = ({ name := upTo ']' line } :: dropEmpty st, true) := by
  unfold iniSection at h
  split at h
  · cases h
  · rename_i name post hcut
    simp only at h
    split at h
    · cases h
    · rw [upTo, cut_takeWhile hcut]
      exact (Option.some.inj h).symm

theorem iniEntry_some {line : List Char} (h : iniEntry st line = some st') (hs : InSection st group) :
    InSection st' group ∧ st'.entries = st.entries ++ [(group, upTo '=' line)] := by
  unfold iniEntry at h
  split at h
  · cases h
  · cases h
  · rename_i key val _ hcut
    have hkey : upTo '=' line = trim (.ofList key) := by rw [upTo, cut_takeWhile hcut]
    rw [hkey]
    cases hs with
    | outside secs =>
      simp only at h
      split at h
      · cases h
      · cases h
        refine ⟨.outside _, ?_⟩
        simp [IniState.entries, dropEmpty, treeEntries, Section.leaves]
    | inside sec rest =>
      simp only at h
      split at h
      · cases h
      · cases h
        refine ⟨.inside _ _, ?_⟩
        rw [entries_inside, entries_inside]
        simp

/-- A line adds its entry, and opens a section if it is a header. -/
theorem iniLine_entries {line : List Char} (h : iniLine st line = some st') (hs : InSection st group) :
    InSection st' ((iniItem line).next group) ∧ st'.entries = st.entries ++ (iniItem line).entries group := by
  have hblank : some st = some st' → InSection st' group ∧ st'.entries = st.entries ++ [] := by
    intro he
    rw [← Option.some.inj he, List.append_nil]
    exact ⟨hs, rfl⟩
  revert h
  unfold iniLine iniItem
  generalize trimList line = cs
  split
  · exact hblank
  · exact hblank
  · exact hblank
  · -- A header takes the place of an open section without entries, which is no entry of the text.
    intro h
    rw [iniSection_some h]
    refine ⟨.inside _ _, ?_⟩
    rw [entries_inside]
    simp [IniState.entries, IniItem.entries]
  · rename_i hsemi hhash hbracket
    intro h
    have hentry := iniEntry_some h hs
    simpa [IniItem.next, IniItem.entries] using hentry

/-! ## The whole text -/

theorem foldlM_entries {lines : List (List Char)} (h : lines.foldlM iniLine st = some st') (hs : InSection st group) :
    st'.entries = st.entries ++ iniEntries group lines := by
  induction lines generalizing st group with
  | nil =>
    cases h
    simp [iniEntries]
  | cons line lines ih =>
    rw [List.foldlM_cons] at h
    obtain ⟨mid, hline, hrest⟩ := Option.bind_eq_some_iff.1 h
    obtain ⟨hin, hadd⟩ := iniLine_entries hline hs
    rw [ih hrest hin, hadd, iniEntries, List.append_assoc]

/-- The tree has the entries of the text, in their order. -/
theorem readIni_entries {content : String} {data : List Section} (h : readIni content = some data) :
    treeEntries data = fileEntries content := by
  obtain ⟨st, hfold, rfl⟩ := Option.map_eq_some_iff.1 h
  exact foldlM_entries hfold (.outside [])

/-! ## What the walk accepts -/

/-- An entry that the walk over the tree lets pass. -/
def FileEntry.passes (e : FileEntry) : Bool := e.isKnown || (e.1.isNone && isGroup e.2)

theorem isGroup_eq (name : String) : isGroup name = (kConfigMap.find? (·.1 == name)).isSome := by
  rw [Bool.eq_iff_iff]
  simp [isGroup, List.find?_isSome]

/-- A child of the root is taken when its entries pass; an entry outside any
section is one without entries of its own, of which only the name is looked at. -/
theorem sanitizeOpts_singleton (sec : Section) :
    CivConfig.sanitizeOpts ⟨[sec]⟩ = sec.leaves.all FileEntry.passes := by
  simp only [CivConfig.sanitizeOpts, List.all_cons, List.all_nil, Bool.and_true]
  by_cases hempty : sec.entries = []
  · have hleaves : sec.leaves.all FileEntry.passes = isGroup sec.name := by
      simp [Section.leaves, hempty, FileEntry.passes, FileEntry.isKnown]
    rw [hleaves, isGroup_eq, hempty]
    cases kConfigMap.find? (·.1 == sec.name) <;> rfl
  · have hleaves : sec.leaves.all FileEntry.passes = sec.entries.all fun e => known sec.name e.1 := by
      simp [Section.leaves, hempty, FileEntry.passes, FileEntry.isKnown, Function.comp_def]
    rw [hleaves]
    unfold known
    cases kConfigMap.find? (·.1 == sec.name) with
    | some group => rfl
    | none =>
      obtain ⟨e, he⟩ := List.exists_mem_of_ne_nil _ hempty
      exact (List.all_eq_false.2 ⟨e, he, by simp⟩).symm

theorem sanitizeOpts_eq (data : List Section) :
    CivConfig.sanitizeOpts ⟨data⟩ = (treeEntries data).all FileEntry.passes := by
  induction data with
  | nil => rfl
  | cons sec data ih =>
    have hcons : CivConfig.sanitizeOpts ⟨sec :: data⟩ =
        (CivConfig.sanitizeOpts ⟨[sec]⟩ && CivConfig.sanitizeOpts ⟨data⟩) := by
      simp [CivConfig.sanitizeOpts]
    rw [hcons, sanitizeOpts_singleton, ih, treeEntries, treeEntries, List.flatMap_cons, List.all_append]

/-- Some entries of the file lie outside any section, each of these has the
name of a group, and the other entries are known. -/
def StrayGroups (content : String) : Prop :=
  (∃ e ∈ fileEntries content, e.1 = none) ∧
    ∀ e ∈ fileEntries content, e.isKnown = true ∨ (e.1 = none ∧ isGroup e.2 = true)

theorem passes_iff (e : FileEntry) : e.passes = true ↔ e.isKnown = true ∨ (e.1 = none ∧ isGroup e.2 = true) := by
  simp [FileEntry.passes]

/-- An entry outside any section is not known. -/
theorem isKnown_stray {e : FileEntry} (h : e.1 = none) : e.isKnown = false := by
  simp [FileEntry.isKnown, h]

theorem all_passes_iff (content : String) :
    (fileEntries content).all FileEntry.passes = (fileEntries content).all FileEntry.isKnown ↔
      ¬ StrayGroups content := by
  constructor
  · rintro heq ⟨⟨e, he, hstray⟩, hall⟩
    have hpass : (fileEntries content).all FileEntry.passes = true :=
      List.all_eq_true.2 fun e he => (passes_iff e).2 (hall e he)
    have hknown := List.all_eq_true.1 (heq ▸ hpass) e he
    rw [isKnown_stray hstray] at hknown
    cases hknown
  · intro hnot
    rw [Bool.eq_iff_iff]
    refine ⟨fun hpass => ?_, fun hknown => ?_⟩
    · rw [List.all_eq_true] at hpass ⊢
      intro e he
      rcases (passes_iff e).1 (hpass e he) with hknown | ⟨hstray, -⟩
      · exact hknown
      · exact absurd ⟨⟨e, he, hstray⟩, fun e he => (passes_iff e).1 (hpass e he)⟩ hnot
    · rw [List.all_eq_true] at hknown ⊢
      intro e he
      exact (passes_iff e).2 (.inl (hknown e he))

/-! ## `ReadConfigFile` -/

namespace CivConfig

variable {κ : Type} {h : Host κ} {k : κ} {path content : String}

/-- `readConfigFile` is what the object gives back and holds after the call. -/
theorem readConfigFileOn_readConfigFile (cfg : CivConfig) :
    (readConfigFileOn h k cfg path).1 = (readConfigFile h k path).map Option.isSome ∧
      ∀ c, readConfigFile h k path = .ok (some c) → (readConfigFileOn h k cfg path).2 = c := by
  unfold readConfigFileOn readConfigFile
  split
  · exact ⟨rfl, by simp⟩
  · split
    · exact ⟨rfl, by simp⟩
    · cases (h.readFile k path).bind readIni with
      | none => exact ⟨rfl, by simp⟩
      | some data =>
        simp only
        split
        · exact ⟨rfl, by simp⟩
        · exact ⟨rfl, by simp⟩

section Readable
variable (cfg : CivConfig) (hexists : h.pathExists k path = true) (hregular : h.isRegularFile k path = true)
  (hfile : h.readFile k path = some content)
include hexists hregular hfile

theorem readConfigFileOn_malformed (hini : readIni content = none) :
    readConfigFileOn h k cfg path = (.error .iniParserError, {}) := by
  simp [readConfigFileOn, hexists, hregular, hfile, hini]

/-- A file that can be read is taken by its entries. -/
theorem readConfigFileOn_read {data : List Section} (hini : readIni content = some data) :
    readConfigFileOn h k cfg path =
      if (fileEntries content).all FileEntry.passes then (.ok true, ⟨data⟩) else (.ok false, {}) := by
  have hwalk : sanitizeOpts ⟨data⟩ = (fileEntries content).all FileEntry.passes := by
    rw [sanitizeOpts_eq, readIni_entries hini]
  rw [← hwalk]
  simp [readConfigFileOn, hexists, hregular, hfile, hini]

theorem readConfigFileOn_fst {data : List Section} (hini : readIni content = some data) :
    (readConfigFileOn h k cfg path).1 = .ok ((fileEntries content).all FileEntry.passes) := by
  rw [readConfigFileOn_read cfg hexists hregular hfile hini]
  cases (fileEntries content).all FileEntry.passes <;> rfl

/-- A file that is not accepted leaves the object empty, whatever it held. -/
theorem readConfigFileOn_cleared (hnot : (readConfigFileOn h k cfg path).1 ≠ .ok true) :
    (readConfigFileOn h k cfg path).2 = {} := by
  cases hini : readIni content with
  | none => rw [readConfigFileOn_malformed cfg hexists hregular hfile hini]
  | some data =>
    rw [readConfigFileOn_fst cfg hexists hregular hfile hini] at hnot
    have hpass : (fileEntries content).all FileEntry.passes = false := by
      rw [Bool.eq_false_iff]
      intro hpass
      exact hnot (by rw [hpass])
    rw [readConfigFileOn_read cfg hexists hregular hfile hini, hpass]
    rfl

end Readable

/-- The file is accepted just when each of its entries is known, and a file
that is not accepted leaves nothing to be seen, of itself or of what was read
before. -/
structure ReadsStrictly (h : Host κ) (k : κ) (cfg : CivConfig) (path content : String) : Prop where
  returns : readIni content ≠ none →
    (readConfigFileOn h k cfg path).1 = .ok ((fileEntries content).all FileEntry.isKnown)
  forgets : (readConfigFileOn h k cfg path).1 ≠ .ok true →
    ∀ group key, (readConfigFileOn h k cfg path).2.getValue group key = ""

/-- An entry outside any section passes for a section when it has the name of a
group, and every file is judged by its entries otherwise. -/
theorem readsStrictly_iff (cfg : CivConfig) (hexists : h.pathExists k path = true)
    (hregular : h.isRegularFile k path = true) (hfile : h.readFile k path = some content) :
    ReadsStrictly h k cfg path content ↔ ¬ (readIni content ≠ none ∧ StrayGroups content) := by
  have hforgets : (readConfigFileOn h k cfg path).1 ≠ .ok true →
      ∀ group key, (readConfigFileOn h k cfg path).2.getValue group key = "" := by
    intro hnot group key
    rw [readConfigFileOn_cleared cfg hexists hregular hfile hnot]
    rfl
  constructor
  · rintro hstrict ⟨hini, hstray⟩
    obtain ⟨data, hdata⟩ := Option.ne_none_iff_exists'.1 hini
    have hreturns := hstrict.returns hini
    rw [readConfigFileOn_fst cfg hexists hregular hfile hdata] at hreturns
    exact (all_passes_iff content).1 (Except.ok.inj hreturns) hstray
  · intro hcond
    refine ⟨fun hini => ?_, hforgets⟩
    obtain ⟨data, hdata⟩ := Option.ne_none_iff_exists'.1 hini
    rw [readConfigFileOn_fst cfg hexists hregular hfile hdata,
      (all_passes_iff content).2 fun hstray => hcond ⟨hini, hstray⟩]

def sizedFile : String := "[global]\nname = vm\n\n[memory]\nsize = 2G\n"

/-- Two sections with known keys. -/
theorem readsStrictly_sized :
    ReadsStrictly (stillHost [("vm.ini", sizedFile)] []) () ⟨[{ name := "vcpu", entries := [("num", "4")] }]⟩
      "vm.ini" sizedFile := by
  refine (readsStrictly_iff _ (by decide) (by decide) (by decide)).2 ?_
  rintro ⟨-, ⟨e, he, hnone⟩, -⟩
  revert hnone
  revert e
  decide

def strayFile : String := "memory = 2G\n"

/-- `memory` in front of the first section is accepted. -/
theorem stray_memory_accepted :
    (readConfigFileOn (stillHost [("vm.ini", strayFile)] []) () {} "vm.ini").1 = .ok true ∧
      fileEntries strayFile = [(none, "memory")] ∧
      ¬ ReadsStrictly (stillHost [("vm.ini", strayFile)] []) () {} "vm.ini" strayFile := by
  have haccepted : (readConfigFileOn (stillHost [("vm.ini", strayFile)] []) () {} "vm.ini").1 = .ok true := by
    rfl
  have hentries : fileEntries strayFile = [(none, "memory")] := rfl
  refine ⟨haccepted, hentries, fun hstrict => ?_⟩
  have hreturns := hstrict.returns (by decide)
  rw [haccepted, hentries] at hreturns
  cases hreturns

end CivConfig

end VmManager
