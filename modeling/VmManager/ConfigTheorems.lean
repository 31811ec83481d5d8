import VmManager.Config
/-!
# What is written is what is read

`read_ini` gives back the tree that `write_ini` printed, with its texts
trimmed, as long as the names are those of `kConfigMap` and no text has a line
break. `SetValue` makes no other trees.
-/
open Text

namespace VmManager

/-! ## Names -/

def isNameChar (c : Char) : Bool := (97 ≤ c.toNat && c.toNat ≤ 122) || c = '_'

/-- A name that stays one when it is printed in a line. -/
def IsName (s : String) : Prop := s.toList ≠ [] ∧ ∀ c ∈ s.toList, isNameChar c = true

instance (s : String) : Decidable (IsName s) :=
  decidable_of_iff ((!s.toList.isEmpty && s.toList.all isNameChar) = true) (by simp [IsName])

/-- `kConfigMap` has the key in the group. -/
def known (group key : String) : Bool :=
  match kConfigMap.find? (·.1 == group) with
  | some g => g.2.contains key
  | none => false

theorem kConfigMap_names : ∀ g ∈ kConfigMap, IsName g.1 ∧ ∀ key ∈ g.2, IsName key := by decide +kernel

theorem isName_of_known {group key : String} (h : known group key = true) : IsName group ∧ IsName key := by
  unfold known at h
  split at h
  · rename_i g hg
    have hname : g.1 = group := by simpa using List.find?_some hg
    have hmem := kConfigMap_names g (List.mem_of_find?_eq_some hg)
    exact ⟨hname ▸ hmem.1, hmem.2 key (by simpa using h)⟩
  · cases h

theorem isSpace_of_isNameChar {c : Char} (h : isNameChar c = true) : isSpace c = false := by
  rw [Bool.eq_false_iff]
  intro hs
  simp only [isNameChar, isSpace, Bool.or_eq_true, Bool.and_eq_true, decide_eq_true_eq] at h hs
  rcases hs with rfl | hs
  · revert h
    decide
  · rcases h with h | rfl
    · omega
    · revert hs
      decide

variable {s : String}

theorem IsName.trimList_eq (h : IsName s) : trimList s.toList = s.toList :=
  trimList_eq_self fun c hc => isSpace_of_isNameChar (h.2 c hc)

theorem IsName.trim_eq (h : IsName s) : trim s = s := by
  rw [trim, h.trimList_eq, String.ofList_toList]

theorem IsName.not_mem (h : IsName s) {c : Char} (hc : isNameChar c = false) : c ∉ s.toList := by
  intro hm
  rw [h.2 c hm] at hc
  cases hc

/-! ## The lines of a tree -/

def sectionLine (name : String) : List Char := '[' :: (name.toList ++ [']'])

def entryLine (e : String × String) : List Char := e.1.toList ++ '=' :: e.2.toList

def Section.lines (sec : Section) : List (List Char) := sectionLine sec.name :: sec.entries.map entryLine

/-- A section as `SetValue` makes it. -/
structure Section.WellFormed (sec : Section) : Prop where
  data : sec.data = ""
  entries : sec.entries ≠ []
  keys : (sec.entries.map (·.1)).Nodup
  known : ∀ e ∈ sec.entries, known sec.name e.1 = true
  lines : ∀ e ∈ sec.entries, '\n' ∉ e.2.toList

/-- A tree that `write_ini` prints line by line. -/
structure WellFormed (pt : List Section) : Prop where
  names : (pt.map (·.name)).Nodup
  sections : ∀ sec ∈ pt, sec.WellFormed

theorem Section.WellFormed.isName {sec : Section} (h : sec.WellFormed) : IsName sec.name := by
  obtain ⟨e, he⟩ := List.exists_mem_of_ne_nil _ h.entries
  exact (isName_of_known (h.known e he)).1

theorem Section.WellFormed.isName_key {sec : Section} (h : sec.WellFormed) {e : String × String} (he : e ∈ sec.entries) :
    IsName e.1 :=
  (isName_of_known (h.known e he)).2

theorem Section.WellFormed.no_break {sec : Section} (h : sec.WellFormed) : ∀ l ∈ sec.lines, '\n' ∉ l := by
  simp only [Section.lines, List.forall_mem_cons, List.forall_mem_map]
  refine ⟨?_, fun e he => ?_⟩
  · simp [sectionLine, h.isName.not_mem (by decide : isNameChar '\n' = false)]
  · simp [entryLine, (h.isName_key he).not_mem (by decide : isNameChar '\n' = false), h.lines e he]

theorem toList_writeKeys (entries : List (String × String)) :
    (writeKeys entries).toList = (entries.map entryLine).flatMap (· ++ ['\n']) := by
  simp only [writeKeys, String.toList_join, List.flatMap_map]
  apply List.flatMap_congr
  intro e _
  simp [entryLine]

/-- `write_ini` prints the lines. -/
theorem writeIni_eq {pt : List Section} (h : WellFormed pt) :
    ∃ content, writeIni pt = some content ∧ content.toList = (pt.flatMap Section.lines).flatMap (· ++ ['\n']) := by
  have hsecs : pt.filter (!·.entries.isEmpty) = pt := by
    rw [List.filter_eq_self]
    intro sec hm
    simp [(h.sections sec hm).entries]
  have htop : pt.filter (·.entries.isEmpty) = [] := by
    rw [List.filter_eq_nil_iff]
    intro sec hm
    simp [(h.sections sec hm).entries]
  simp only [writeIni, hsecs, htop]
  rw [if_pos ⟨h.names, fun sec hm => ⟨(h.sections sec hm).keys, (h.sections sec hm).data⟩⟩]
  refine ⟨_, rfl, ?_⟩
  simp only [String.toList_append, toList_writeKeys, List.map_nil, List.flatMap_nil, List.nil_append,
    String.toList_join, List.flatMap_map, List.flatMap_assoc]
  apply List.flatMap_congr
  intro sec _
  simp [Section.lines, sectionLine, List.flatMap_map]

/-! ## Reading the lines -/

/-- What is left of a section after it was read. -/
def Section.trimmed (sec : Section) : Section := { sec with entries := sec.entries.map fun e => (e.1, trim e.2) }

theorem iniLine_section {st : IniState} {name : String} (hn : IsName name)
    (hnew : ∀ sec ∈ dropEmpty st, sec.name ≠ name) :
    iniLine st (sectionLine name) = some ({ name } :: dropEmpty st, true) := by
  have htrim : trimList (sectionLine name) = sectionLine name := by
    apply trimList_eq_self
    simp only [sectionLine, List.forall_mem_cons, List.forall_mem_append, List.not_mem_nil, false_imp_iff, implies_true,
      and_true]
    exact ⟨by decide, fun c hc => isSpace_of_isNameChar (hn.2 c hc), by decide⟩
  have hcut : cut ']' (name.toList ++ [']']) = some (name.toList, []) := cut_append (hn.not_mem (by decide)) []
  have hany : (dropEmpty st).any (·.name == name) = false := by
    rw [List.any_eq_false]
    intro sec hm
    simp [hnew sec hm]
  unfold iniLine
  rw [htrim]
  simp only [sectionLine, iniSection, hcut, String.ofList_toList, hn.trim_eq, hany, Bool.false_eq_true, if_false]

/-- A line that starts with a name is an entry, whatever follows the `=`. -/
theorem iniLine_entryLine (st : IniState) {e : String × String} (hn : IsName e.1) :
    iniLine st (entryLine e) = iniEntry st (e.1.toList ++ '=' :: e.2.toList.rdropWhile isSpace) := by
  have htrim : trimList (entryLine e) = e.1.toList ++ '=' :: e.2.toList.rdropWhile isSpace :=
    trimList_append (fun c hc => isSpace_of_isNameChar (hn.2 c hc)) (by decide) _
  -- The first character of the key is none of those that make another kind of line.
  obtain ⟨c, cs, hcs⟩ := List.exists_cons_of_ne_nil hn.1
  have hc : ∀ d, isNameChar d = false → c ≠ d := by
    rintro d hd rfl
    rw [hn.2 c (by simp [hcs])] at hd
    cases hd
  unfold iniLine
  rw [htrim]
  rw [hcs]
  simp only [List.cons_append]
  split
  · rename_i he
    cases he
  · rename_i he
    exact absurd (List.cons.inj he).1 (hc _ (by decide))
  · rename_i he
    exact absurd (List.cons.inj he).1 (hc _ (by decide))
  · rename_i he
    exact absurd (List.cons.inj he).1 (hc _ (by decide))
  · rename_i he
    rw [← he]

/-- The parts of such a line. -/
theorem cut_entryLine {e : String × String} (hn : IsName e.1) :
    cut '=' (e.1.toList ++ '=' :: e.2.toList.rdropWhile isSpace) = some (e.1.toList, e.2.toList.rdropWhile isSpace) ∧
      trim (.ofList e.1.toList) = e.1 ∧ trim (.ofList (e.2.toList.rdropWhile isSpace)) = trim e.2 := by
  refine ⟨cut_append (hn.not_mem (by decide : isNameChar '=' = false)) _, ?_, ?_⟩
  · rw [String.ofList_toList, hn.trim_eq]
  · rw [trim, String.toList_ofList, trimList_rdropWhile, trim]

theorem iniLine_entry {sec : Section} {rest : List Section} {e : String × String} (hn : IsName e.1)
    (hnew : ∀ e' ∈ sec.entries, e'.1 ≠ e.1) :
    iniLine (sec :: rest, true) (entryLine e) =
      some ({ sec with entries := sec.entries ++ [(e.1, trim e.2)] } :: rest, true) := by
  obtain ⟨hcut, hkey, hval⟩ := cut_entryLine hn
  have hany : sec.entries.any (·.1 == e.1) = false := by
    rw [List.any_eq_false]
    intro e' hm
    simp [hnew e' hm]
  obtain ⟨c, cs, hcs⟩ := List.exists_cons_of_ne_nil hn.1
  rw [iniLine_entryLine _ hn]
  rw [hcs] at hcut hkey ⊢
  simp only [iniEntry, hcut, hkey, hval, hany, Bool.false_eq_true, if_false]

theorem readEntries (sec : Section) (rest : List Section) {es : List (String × String)} (hn : ∀ e ∈ es, IsName e.1)
    (hd : ((sec.entries ++ es).map (·.1)).Nodup) :
    (es.map entryLine).foldlM iniLine (sec :: rest, true) =
      some ({ sec with entries := sec.entries ++ es.map fun e => (e.1, trim e.2) } :: rest, true) := by
  induction es generalizing sec with
  | nil => simp
  | cons e es ih =>
    have hnew : ∀ e' ∈ sec.entries, e'.1 ≠ e.1 := by
      intro e' hm he
      simp only [List.map_append, List.map_cons, List.nodup_append, List.mem_map, List.mem_cons] at hd
      exact hd.2.2 e'.1 ⟨e', hm, rfl⟩ e.1 (.inl rfl) he
    simp only [List.map_cons, List.foldlM_cons, iniLine_entry (hn e List.mem_cons_self) hnew]
    have hd' : (((sec.entries ++ [(e.1, trim e.2)]) ++ es).map (·.1)).Nodup := by simpa using hd
    have hrest := ih { sec with entries := sec.entries ++ [(e.1, trim e.2)] }
      (fun e' hm => hn e' (List.mem_cons_of_mem e hm)) hd'
    simpa using hrest

theorem readSection {st : IniState} {sec : Section} (h : sec.WellFormed) (hnew : ∀ t ∈ dropEmpty st, t.name ≠ sec.name) :
    sec.lines.foldlM iniLine st = some (sec.trimmed :: dropEmpty st, true) := by
  have hentries := readEntries { name := sec.name } (dropEmpty st) (fun e he => h.isName_key he) (by simpa using h.keys)
  have htrimmed : sec.trimmed = { name := sec.name, entries := sec.entries.map fun e => (e.1, trim e.2) } := by
    rw [Section.trimmed, h.data]
  rw [htrimmed, Section.lines, List.foldlM_cons, iniLine_section h.isName hnew]
  exact hentries

/-- A section that was read is not dropped by the next one. -/
theorem dropEmpty_trimmed {sec : Section} (h : sec.WellFormed) (secs : List Section) :
    dropEmpty (sec.trimmed :: secs, true) = sec.trimmed :: secs := by
  simp [dropEmpty, Section.trimmed, h.entries]

theorem readSections (st : IniState) {pt : List Section} (h : WellFormed pt)
    (hnew : ∀ t ∈ dropEmpty st, ∀ sec ∈ pt, t.name ≠ sec.name) :
    ∃ st', (pt.flatMap Section.lines).foldlM iniLine st = some st' ∧
      dropEmpty st' = (pt.map Section.trimmed).reverse ++ dropEmpty st := by
  induction pt generalizing st with
  | nil => exact ⟨st, rfl, rfl⟩
  | cons sec pt ih =>
    have hn := List.nodup_cons.1 (List.map_cons ▸ h.names)
    have hsec := h.sections sec List.mem_cons_self
    have hdrop := dropEmpty_trimmed hsec (dropEmpty st)
    obtain ⟨st', hfold, hst'⟩ := ih (sec.trimmed :: dropEmpty st, true)
      ⟨hn.2, fun t ht => h.sections t (List.mem_cons_of_mem sec ht)⟩ (by
        rw [hdrop]
        simp only [List.forall_mem_cons]
        refine ⟨fun t ht he => hn.1 (List.mem_map.2 ⟨t, ht, he.symm⟩), fun t ht t' ht' => ?_⟩
        exact hnew t ht t' (List.mem_cons_of_mem sec ht'))
    refine ⟨st', ?_, ?_⟩
    · rw [List.flatMap_cons, List.foldlM_append, readSection hsec fun t ht => hnew t ht sec List.mem_cons_self]
      exact hfold
    · rw [hst', hdrop]
      simp

/-- What `write_ini` prints is read back, with its texts trimmed. -/
theorem readIni_writeIni {pt : List Section} (h : WellFormed pt) :
    ∃ content, writeIni pt = some content ∧ readIni content = some (pt.map Section.trimmed) := by
  obtain ⟨content, hw, hlines⟩ := writeIni_eq h
  refine ⟨content, hw, ?_⟩
  have hbreak : ∀ l ∈ pt.flatMap Section.lines, '\n' ∉ l := by
    intro l hl
    obtain ⟨sec, hsec, hl⟩ := List.mem_flatMap.1 hl
    exact (h.sections sec hsec).no_break l hl
  obtain ⟨st, hfold, hst⟩ := readSections ([], false) h (by simp [dropEmpty])
  have hlast : ∀ st, iniLine st [] = some st := fun _ => rfl
  have hempty : dropEmpty ([], false) = [] := rfl
  rw [hempty, List.append_nil] at hst
  rw [readIni, hlines, splitOn_lines hbreak, List.foldlM_append, hfold]
  simp [hlast, hst]

/-! ## What `put` leaves -/

section Entries
variable {key value : String} {es : List (String × String)}

theorem find_putEntry (k : String) :
    (putEntry key value es).find? (·.1 == k) = if k = key then some (key, value) else es.find? (·.1 == k) := by
  induction es with
  | nil =>
    by_cases hk : k = key
    · simp [putEntry, hk]
    · simp [putEntry, hk, Ne.symm hk]
  | cons e es ih =>
    unfold putEntry
    split
    · rename_i he
      by_cases hk : k = key
      · simp [hk]
      · simp [hk, Ne.symm hk, he]
    · rename_i he
      rw [List.find?_cons, List.find?_cons, ih]
      by_cases hk : k = key
      · have hbeq : (e.1 == k) = false := by simp [hk, he]
        simp only [hbeq, if_pos hk]
      · simp [hk]

theorem mem_putEntry {e : String × String} (h : e ∈ putEntry key value es) : e = (key, value) ∨ e ∈ es := by
  induction es with
  | nil => exact .inl (List.mem_singleton.1 h)
  | cons e' es ih =>
    unfold putEntry at h
    split at h
    · rcases List.mem_cons.1 h with h | h
      · exact .inl h
      · exact .inr (List.mem_cons_of_mem e' h)
    · rcases List.mem_cons.1 h with rfl | h
      · exact .inr List.mem_cons_self
      · exact (ih h).imp id (List.mem_cons_of_mem e')

theorem putEntry_ne_nil : putEntry key value es ≠ [] := by
  cases es with
  | nil => simp [putEntry]
  | cons e es =>
    unfold putEntry
    split <;> simp

theorem nodup_putEntry (h : (es.map (·.1)).Nodup) : ((putEntry key value es).map (·.1)).Nodup := by
  induction es with
  | nil => simp [putEntry]
  | cons e es ih =>
    obtain ⟨hnot, hn⟩ := List.nodup_cons.1 (List.map_cons ▸ h)
    unfold putEntry
    split
    · rename_i he
      rw [← he]
      exact h
    · rename_i he
      refine List.nodup_cons.2 ⟨?_, ih hn⟩
      intro hm
      obtain ⟨e', hm, hkey⟩ := List.mem_map.1 hm
      rcases mem_putEntry hm with rfl | hm
      · exact he hkey.symm
      · exact hnot (List.mem_map.2 ⟨e', hm, hkey⟩)

end Entries

/-- The text at `group.key`, if the tree has the path. -/
def lookup (pt : List Section) (group key : String) : Option String :=
  (pt.find? (·.name == group)).bind fun sec => (sec.entries.find? (·.1 == key)).map (·.2)

theorem getValue_eq (cfg : CivConfig) (group key : String) :
    cfg.getValue group key = trim ((lookup cfg.cfgData group key).getD "") := by
  unfold CivConfig.getValue lookup
  cases cfg.cfgData.find? (·.name == group) with
  | none => rfl
  | some sec =>
    simp only [Option.bind_some]
    cases sec.entries.find? (·.1 == key) <;> rfl

theorem lookup_trimmed (pt : List Section) (group key : String) :
    lookup (pt.map Section.trimmed) group key = (lookup pt group key).map trim := by
  unfold lookup
  rw [List.find?_map]
  change ((pt.find? (·.name == group)).map _).bind _ = _
  cases pt.find? (·.name == group) with
  | none => rfl
  | some sec =>
    simp only [Option.map_some, Option.bind_some, Section.trimmed, List.find?_map]
    change ((sec.entries.find? (·.1 == key)).map _).map _ = _
    cases sec.entries.find? (·.1 == key) <;> rfl

section Put
variable {group key value : String} {pt : List Section}

theorem lookup_put (g k : String) :
    lookup (put group key value pt) g k = if g = group ∧ k = key then some value else lookup pt g k := by
  induction pt with
  | nil =>
    by_cases hg : g = group
    · by_cases hk : k = key
      · simp [put, lookup, hg, hk]
      · simp [put, lookup, hg, hk, Ne.symm hk]
    · simp [put, lookup, hg, Ne.symm hg]
  | cons sec pt ih =>
    unfold put
    unfold lookup at ih ⊢
    split
    · rename_i hs
      by_cases hg : g = group
      · simp only [hg, hs, List.find?_cons, beq_self_eq_true, Option.bind_some, find_putEntry]
        by_cases hk : k = key <;> simp [hk]
      · simp [hs, hg, Ne.symm hg]
    · rename_i hs
      rw [List.find?_cons, List.find?_cons]
      by_cases hg : g = sec.name
      · have hne : ¬ g = group := fun he => hs (by rw [← hg, he])
        simp [← hg, hne]
      · have hbeq : (sec.name == g) = false := by simp [Ne.symm hg]
        simp only [hbeq, ih]

theorem mem_put {sec : Section} (h : sec ∈ put group key value pt) :
    sec ∈ pt ∨ (sec.name = group ∧ ((sec.data = "" ∧ sec.entries = [(key, value)]) ∨
      ∃ t ∈ pt, t.name = group ∧ sec = { t with entries := putEntry key value t.entries })) := by
  induction pt with
  | nil =>
    rw [List.mem_singleton.1 h]
    exact .inr ⟨rfl, .inl ⟨rfl, rfl⟩⟩
  | cons t pt ih =>
    unfold put at h
    split at h
    · rename_i ht
      rcases List.mem_cons.1 h with rfl | h
      · exact .inr ⟨ht, .inr ⟨t, List.mem_cons_self, ht, rfl⟩⟩
      · exact .inl (List.mem_cons_of_mem t h)
    · rcases List.mem_cons.1 h with rfl | h
      · exact .inl List.mem_cons_self
      · rcases ih h with h | ⟨hn, h | ⟨t', ht', h⟩⟩
        · exact .inl (List.mem_cons_of_mem t h)
        · exact .inr ⟨hn, .inl h⟩
        · exact .inr ⟨hn, .inr ⟨t', List.mem_cons_of_mem t ht', h⟩⟩

theorem nodup_put (h : (pt.map (·.name)).Nodup) : ((put group key value pt).map (·.name)).Nodup := by
  induction pt with
  | nil => simp [put]
  | cons t pt ih =>
    obtain ⟨hnot, hn⟩ := List.nodup_cons.1 (List.map_cons ▸ h)
    unfold put
    split
    · exact h
    · rename_i ht
      refine List.nodup_cons.2 ⟨?_, ih hn⟩
      intro hm
      obtain ⟨sec, hm, hname⟩ := List.mem_map.1 hm
      rcases mem_put hm with hm | ⟨hg, -⟩
      · exact hnot (List.mem_map.2 ⟨sec, hm, hname⟩)
      · exact ht (hname.symm.trans hg)

theorem WellFormed.put (h : WellFormed pt) (hk : known group key = true) (hv : '\n' ∉ value.toList) :
    WellFormed (put group key value pt) := by
  refine ⟨nodup_put h.names, fun sec hm => ?_⟩
  rcases mem_put hm with hm | ⟨hg, ⟨hd, he⟩ | ⟨t, ht, htg, rfl⟩⟩
  · exact h.sections sec hm
  · exact ⟨hd, by simp [he], by simp [he], by simp [he, hg, hk], by simp [he, hv]⟩
  · have hs := h.sections t ht
    refine ⟨hs.data, putEntry_ne_nil, nodup_putEntry hs.keys, fun e he => ?_, fun e he => ?_⟩
    · rcases mem_putEntry he with rfl | he
      · rw [htg]
        exact hk
      · exact hs.known e he
    · rcases mem_putEntry he with rfl | he
      · exact hv
      · exact hs.lines e he

end Put

/-! ## Writing a config and reading it again -/

namespace CivConfig

theorem sanitizeOpts_of_wellFormed {pt : List Section} (h : WellFormed pt) : sanitizeOpts ⟨pt⟩ = true := by
  rw [sanitizeOpts, List.all_eq_true]
  intro sec hm
  have hs := h.sections sec hm
  obtain ⟨e, he⟩ := List.exists_mem_of_ne_nil _ hs.entries
  have hknown := hs.known
  unfold known at hknown
  split
  · rename_i g hg
    simp only [hg] at hknown
    exact List.all_eq_true.2 hknown
  · rename_i hg
    have := hknown e he
    simp [hg] at this

theorem sanitizeOpts_trimmed (pt : List Section) : sanitizeOpts ⟨pt.map Section.trimmed⟩ = sanitizeOpts ⟨pt⟩ := by
  simp only [sanitizeOpts, List.all_map]
  congr 1
  funext sec
  simp only [Function.comp_apply, Section.trimmed, List.all_map]
  rfl

/-- What the host does with a file that is written: it is there afterwards, a
regular file, with what was written to it. -/
structure Keeps {κ : Type} (h : Host κ) (k : κ) (path : String) : Prop where
  pathExists : ∀ content, h.pathExists (h.writeFile k path content) path = true
  isRegularFile : ∀ content, h.isRegularFile (h.writeFile k path content) path = true
  readFile : ∀ content, h.readFile (h.writeFile k path content) path = some content

theorem read_of_written {κ : Type} {h : Host κ} {k : κ} {path : String} {cfg : CivConfig} (hw : WellFormed cfg.cfgData)
    (hne : cfg.cfgData ≠ []) (he : h.pathExists k path = true) (hr : h.isRegularFile k path = true)
    (hk : Keeps h k path) :
    ∃ k', cfg.writeConfigFile h k path = .ok (true, k') ∧
      readConfigFile h k' path = .ok (some ⟨cfg.cfgData.map Section.trimmed⟩) := by
  obtain ⟨content, hcontent, hread⟩ := readIni_writeIni hw
  have hs := sanitizeOpts_of_wellFormed hw
  refine ⟨h.writeFile k path content, ?_, ?_⟩
  · simp [writeConfigFile, he, hr, hne, hs, hcontent]
  · simp [readConfigFile, hk.pathExists, hk.isRegularFile, hk.readFile, hread, sanitizeOpts_trimmed, hs]

theorem getValue_trimmed (pt : List Section) (group key : String) :
    getValue ⟨pt.map Section.trimmed⟩ group key = trim ((lookup pt group key).getD "") := by
  rw [getValue_eq, lookup_trimmed]
  cases lookup pt group key with
  | none => rfl
  | some s => simp

/-! ## One `SetValue` after the other -/

variable {cfg : CivConfig} {group key value : String}

theorem wellFormed_setValue (h : WellFormed cfg.cfgData) (hk : known group key = true) (hv : '\n' ∉ value.toList) :
    WellFormed (cfg.setValue group key value).cfgData := by
  unfold setValue
  split
  · exact h
  · exact h.put hk hv

theorem lookup_setValue (g k : String) :
    lookup (cfg.setValue group key value).cfgData g k =
      if g = group ∧ k = key ∧ value ≠ "" then some value else lookup cfg.cfgData g k := by
  unfold setValue
  split
  · rename_i hv
    simp [hv]
  · rename_i hv
    simp [lookup_put, hv]

end CivConfig

end VmManager
