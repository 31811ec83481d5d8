import Mathlib.Data.List.Nodup
import VmManager.FormTheorems
import VmManager.SanitizeTheorems
/-!
# Reading a config and writing it back

`read_ini` takes texts in many forms: spaces, comments, empty sections. What it
leaves of them `write_ini` prints in one form, and that form is read as the same
tree again.
-/
open Text

namespace VmManager

/-! ## The trees that `read_ini` makes -/

/-- A text that was trimmed and comes from one line. -/
def Settled (s : String) : Prop := trim s = s ∧ '\n' ∉ s.toList

/-- An entry outside any section. -/
structure Stray (sec : Section) : Prop where
  entries : sec.entries = []
  data : Settled sec.data

/-- A section, which may still be without entries. -/
structure Filled (sec : Section) : Prop where
  data : sec.data = ""
  keys : (sec.entries.map (·.1)).Nodup
  settled : ∀ e ∈ sec.entries, Settled e.2

/-- The sections `ss`, none of them empty, after the strays `ts`, both with the
last child first. -/
structure Tree (ss ts : List Section) : Prop where
  names : ((ss ++ ts).map (·.name)).Nodup
  sections : ∀ sec ∈ ss, Filled sec ∧ sec.entries ≠ []
  strays : ∀ t ∈ ts, Stray t

/-- What has been read so far. -/
inductive Clean : IniState → Prop
  | outside (ts : List Section) : Tree [] ts → Clean (ts, false)
  | inside (sec : Section) (ss ts : List Section) : Tree ss ts → Filled sec →
      (∀ t ∈ ss ++ ts, t.name ≠ sec.name) → Clean (sec :: (ss ++ ts), true)

theorem dropEmpty_outside (secs : List Section) : dropEmpty (secs, false) = secs := by cases secs <;> rfl

theorem Clean.tree {st : IniState} (hc : Clean st) : ∃ ss ts, dropEmpty st = ss ++ ts ∧ Tree ss ts := by
  cases hc with
  | outside ts ht => exact ⟨[], ts, dropEmpty_outside ts, ht⟩
  | inside sec ss ts ht hsec hnew =>
    by_cases hempty : sec.entries = []
    · exact ⟨ss, ts, by simp [dropEmpty, hempty], ht⟩
    · refine ⟨sec :: ss, ts, by simp [dropEmpty, hempty], ?_, ?_, ht.strays⟩
      · rw [List.cons_append, List.map_cons, List.nodup_cons]
        refine ⟨fun hm => ?_, ht.names⟩
        obtain ⟨t, ht, he⟩ := List.mem_map.1 hm
        exact hnew t ht he
      · exact List.forall_mem_cons.2 ⟨⟨hsec, hempty⟩, ht.sections⟩

/-! ## One line -/

theorem trimList_subset (cs : List Char) : trimList cs ⊆ cs := by
  intro c hc
  rw [trimList_eq] at hc
  have hpre : (cs.dropWhile isSpace).rdropWhile isSpace <+: cs.dropWhile isSpace := List.rdropWhile_prefix isSpace _
  exact (List.dropWhile_suffix isSpace).subset (hpre.subset hc)

theorem settled_trim {cs : List Char} (h : '\n' ∉ cs) : Settled (trim (.ofList cs)) := by
  refine ⟨trim_trim _, fun hm => h (trimList_subset cs ?_)⟩
  simpa [trim] using hm

variable {st st' : IniState}

theorem iniSection_clean {line : List Char} (h : iniSection st line = some st') (hc : Clean st) : Clean st' := by
  obtain ⟨ss, ts, hd, ht⟩ := hc.tree
  unfold iniSection at h
  split at h
  · cases h
  · simp only at h
    split at h
    · cases h
    · rename_i hnew
      cases h
      rw [hd] at hnew ⊢
      refine .inside _ ss ts ht ⟨rfl, List.nodup_nil, nofun⟩ fun t hm he => hnew ?_
      exact List.any_eq_true.2 ⟨t, hm, by simpa using he⟩

theorem iniEntry_clean {line : List Char} (h : iniEntry st line = some st') (hn : '\n' ∉ line) (hc : Clean st) :
    Clean st' := by
  unfold iniEntry at h
  split at h
  · cases h
  · cases h
  · rename_i k v _ hcut
    have hv : Settled (trim (.ofList v)) := by
      refine settled_trim fun hm => hn ?_
      rw [eq_of_cut hcut]
      exact List.mem_append_right _ (List.mem_cons_of_mem _ hm)
    cases hc with
    | outside ts ht =>
      simp only at h
      split at h
      · cases h
      · rename_i hnew
        cases h
        refine .outside _ ⟨?_, nofun, ?_⟩
        · rw [List.nil_append, List.map_cons, List.nodup_cons]
          refine ⟨fun hm => ?_, ht.names⟩
          obtain ⟨t, ht, he⟩ := List.mem_map.1 hm
          exact hnew (List.any_eq_true.2 ⟨t, ht, by simpa using he⟩)
        · exact List.forall_mem_cons.2 ⟨⟨rfl, hv⟩, ht.strays⟩
    | inside sec ss ts ht hsec hnames =>
      simp only at h
      split at h
      · cases h
      · rename_i hnew
        cases h
        refine .inside _ ss ts ht ⟨hsec.data, ?_, ?_⟩ hnames
        · rw [List.map_append, List.map_singleton, List.nodup_append]
          refine ⟨hsec.keys, List.pairwise_singleton _ _, fun a ha b hb he => hnew ?_⟩
          obtain ⟨e, hm, rfl⟩ := List.mem_map.1 ha
          exact List.any_eq_true.2 ⟨e, hm, by simpa [he] using hb⟩
        · rw [List.forall_mem_append]
          exact ⟨hsec.settled, by simpa using hv⟩

theorem iniLine_clean {line : List Char} (h : iniLine st line = some st') (hn : '\n' ∉ line) (hc : Clean st) :
    Clean st' := by
  have htrim : '\n' ∉ trimList line := fun hm => hn (trimList_subset line hm)
  revert h htrim
  unfold iniLine
  generalize trimList line = cs
  intro h htrim
  split at h
  · cases h; exact hc
  · cases h; exact hc
  · cases h; exact hc
  · exact iniSection_clean h hc
  · exact iniEntry_clean h htrim hc

theorem foldlM_clean {lines : List (List Char)} (h : lines.foldlM iniLine st = some st') (hn : ∀ l ∈ lines, '\n' ∉ l)
    (hc : Clean st) : Clean st' := by
  induction lines generalizing st with
  | nil =>
    cases h
    exact hc
  | cons line lines ih =>
    rw [List.foldlM_cons] at h
    obtain ⟨mid, hline, hrest⟩ := Option.bind_eq_some_iff.1 h
    have hmid := iniLine_clean hline (hn line List.mem_cons_self) hc
    exact ih hrest (fun l hl => hn l (List.mem_cons_of_mem _ hl)) hmid

/-- What is read is the strays, then the sections. -/
theorem readIni_tree {content : String} {data : List Section} (h : readIni content = some data) :
    ∃ ss ts, data = ts.reverse ++ ss.reverse ∧ Tree ss ts := by
  obtain ⟨st, hfold, rfl⟩ := Option.map_eq_some_iff.1 h
  have hclean := foldlM_clean hfold splitOn_not_mem (.outside [] ⟨List.nodup_nil, nofun, nofun⟩)
  obtain ⟨ss, ts, hd, ht⟩ := hclean.tree
  exact ⟨ss, ts, by rw [hd, List.reverse_append], ht⟩

/-! ## Printed and read again -/

/-- A tree that the walk has let pass, in the order of its file. -/
structure Printable (ts ss : List Section) : Prop where
  names : ((ts ++ ss).map (·.name)).Nodup
  strays : ∀ t ∈ ts, Stray t ∧ IsName t.name
  sections : ∀ sec ∈ ss, sec.WellFormed
  settled : ∀ sec ∈ ss, sec.trimmed = sec

def strayLine (t : Section) : List Char := entryLine (t.name, t.data)

theorem iniLine_stray {secs : List Section} {t : Section} (ht : Stray t) (hn : IsName t.name)
    (hnew : ∀ s ∈ secs, s.name ≠ t.name) : iniLine (secs, false) (strayLine t) = some (t :: secs, false) := by
  obtain ⟨hcut, hkey, hval⟩ := cut_entryLine (e := (t.name, t.data)) hn
  have hany : secs.any (·.name == t.name) = false := by
    rw [List.any_eq_false]
    intro s hm
    simp [hnew s hm]
  have hsame : ({ name := t.name, data := t.data } : Section) = t := by
    have hentries := ht.entries
    cases t
    cases hentries
    rfl
  obtain ⟨c, cs, hcs⟩ := List.exists_cons_of_ne_nil hn.1
  rw [strayLine, iniLine_entryLine _ (e := (t.name, t.data)) hn]
  rw [hcs] at hcut hkey ⊢
  simp only [iniEntry, hcut, hkey, hval, hany, Bool.false_eq_true, if_false, ht.data.1, hsame]

theorem readStrays {ts : List Section} (h : ∀ t ∈ ts, Stray t ∧ IsName t.name) {secs : List Section}
    (hn : ((secs ++ ts).map (·.name)).Nodup) :
    (ts.map strayLine).foldlM iniLine (secs, false) = some (ts.reverse ++ secs, false) := by
  induction ts generalizing secs with
  | nil => rfl
  | cons t ts ih =>
    obtain ⟨ht, hname⟩ := h t List.mem_cons_self
    have hnew : ∀ s ∈ secs, s.name ≠ t.name := by
      intro s hm he
      rw [List.map_append, List.nodup_append] at hn
      exact hn.2.2 s.name (List.mem_map_of_mem hm) t.name (List.mem_map_of_mem List.mem_cons_self) he
    have hn' : ((t :: secs ++ ts).map (·.name)).Nodup := by
      refine (List.Perm.map _ ?_).nodup hn
      exact List.perm_middle
    rw [List.map_cons, List.foldlM_cons, iniLine_stray ht hname hnew, Option.bind_eq_bind, Option.bind_some,
      ih (fun t hm => h t (List.mem_cons_of_mem _ hm)) hn', List.reverse_cons, List.append_assoc]
    rfl

theorem writeIni_printable {ts ss : List Section} (h : Printable ts ss) :
    ∃ content, writeIni (ts ++ ss) = some content ∧
      content.toList = (ts.map strayLine ++ ss.flatMap Section.lines).flatMap (· ++ ['\n']) := by
  have htop : (ts ++ ss).filter (·.entries.isEmpty) = ts := by
    rw [List.filter_append, List.filter_eq_self.2 fun t hm => by simp [(h.strays t hm).1.entries],
      List.filter_eq_nil_iff.2 fun s hm => by simp [(h.sections s hm).entries], List.append_nil]
  have hsecs : (ts ++ ss).filter (!·.entries.isEmpty) = ss := by
    rw [List.filter_append, List.filter_eq_nil_iff.2 fun t hm => by simp [(h.strays t hm).1.entries],
      List.filter_eq_self.2 fun s hm => by simp [(h.sections s hm).entries], List.nil_append]
  simp only [writeIni, htop, hsecs]
  rw [if_pos ⟨h.names, fun sec hm => ⟨(h.sections sec hm).keys, (h.sections sec hm).data⟩⟩]
  refine ⟨_, rfl, ?_⟩
  simp only [String.toList_append, toList_writeKeys, String.toList_join, List.flatMap_append, List.flatMap_map,
    List.map_map, List.flatMap_assoc]
  congr 1
  apply List.flatMap_congr
  intro sec _
  simp [Section.lines, sectionLine, List.flatMap_map]

/-- What is printed of such a tree is read as that tree. -/
theorem readIni_printable {ts ss : List Section} (h : Printable ts ss) :
    ∃ content, writeIni (ts ++ ss) = some content ∧ readIni content = some (ts ++ ss) := by
  obtain ⟨content, hw, hlines⟩ := writeIni_printable h
  refine ⟨content, hw, ?_⟩
  have hbreak : ∀ l ∈ ts.map strayLine ++ ss.flatMap Section.lines, '\n' ∉ l := by
    rw [List.forall_mem_append, List.forall_mem_map]
    refine ⟨fun t hm => ?_, fun l hl => ?_⟩
    · obtain ⟨ht, hname⟩ := h.strays t hm
      simp [strayLine, entryLine, hname.not_mem (by decide : isNameChar '\n' = false), ht.data.2]
    · obtain ⟨sec, hsec, hl⟩ := List.mem_flatMap.1 hl
      exact (h.sections sec hsec).no_break l hl
  obtain ⟨hts, hss, hdisjoint⟩ := List.nodup_append.1 (List.map_append ▸ h.names)
  have hstart : ((([] : List Section) ++ ts).map (·.name)).Nodup := hts
  have hstrays := readStrays h.strays hstart
  have hsame : ss.map Section.trimmed = ss := by
    conv_rhs => rw [← List.map_id ss]
    exact List.map_congr_left h.settled
  rw [List.append_nil] at hstrays
  obtain ⟨st, hfold, hst⟩ := readSections (ts.reverse, false) ⟨hss, h.sections⟩ (by
    rw [dropEmpty_outside]
    intro t ht sec hsec
    exact hdisjoint t.name (List.mem_map_of_mem (List.mem_reverse.1 ht)) sec.name (List.mem_map_of_mem hsec))
  rw [hsame, dropEmpty_outside] at hst
  have hlast : ∀ st, iniLine st [] = some st := fun _ => rfl
  rw [readIni, hlines, splitOn_lines hbreak, List.foldlM_append, List.foldlM_append, hstrays]
  simp [hlast, hfold, hst]

/-! ## `ReadConfigFile` and `WriteConfigFile` -/

theorem isName_of_isGroup {name : String} (h : isGroup name = true) : IsName name := by
  obtain ⟨g, hm, he⟩ := List.any_eq_true.1 h
  have hname : g.1 = name := by simpa using he
  exact hname ▸ (kConfigMap_names g hm).1

/-- What the walk lets pass can be printed. -/
theorem printable_of_accepted {content : String} {data : List Section} (h : readIni content = some data)
    (hs : CivConfig.sanitizeOpts ⟨data⟩ = true) : ∃ ts ss, data = ts ++ ss ∧ Printable ts ss := by
  obtain ⟨ss, ts, rfl, ht⟩ := readIni_tree h
  rw [sanitizeOpts_eq, List.all_eq_true] at hs
  have hpass : ∀ sec ∈ ts.reverse ++ ss.reverse, ∀ e ∈ sec.leaves, e.passes = true := fun sec hm e he =>
    hs e (List.mem_flatMap.2 ⟨sec, hm, he⟩)
  refine ⟨ts.reverse, ss.reverse, rfl, ?_, fun t hm => ?_, fun sec hm => ?_, fun sec hm => ?_⟩
  · rw [← List.reverse_append, List.map_reverse]
    exact List.nodup_reverse.2 ht.names
  · have hstray := ht.strays t (List.mem_reverse.1 hm)
    refine ⟨hstray, isName_of_isGroup ?_⟩
    have hp := hpass t (List.mem_append_left _ hm) (none, t.name) (by simp [Section.leaves, hstray.entries])
    simpa [FileEntry.passes, FileEntry.isKnown] using hp
  · obtain ⟨hfilled, hne⟩ := ht.sections sec (List.mem_reverse.1 hm)
    refine ⟨hfilled.data, hne, hfilled.keys, fun e he => ?_, fun e he => (hfilled.settled e he).2⟩
    have hp := hpass sec (List.mem_append_right _ hm) (some sec.name, e.1) (by
      simp only [Section.leaves, List.isEmpty_iff, hne, if_false]
      exact List.mem_map_of_mem he)
    simpa [FileEntry.passes, FileEntry.isKnown] using hp
  · obtain ⟨hfilled, -⟩ := ht.sections sec (List.mem_reverse.1 hm)
    have hsame : sec.entries.map (fun e => (e.1, trim e.2)) = sec.entries := by
      conv_rhs => rw [← List.map_id sec.entries]
      exact List.map_congr_left fun e he => by rw [(hfilled.settled e he).1]; rfl
    rw [Section.trimmed, hsame]

theorem readConfigFile_some {κ : Type} {h : Host κ} {k : κ} {path : String} {cfg : CivConfig}
    (hread : CivConfig.readConfigFile h k path = .ok (some cfg)) : h.pathExists k path = true ∧
      h.isRegularFile k path = true ∧ (h.readFile k path).bind readIni = some cfg.cfgData ∧ cfg.sanitizeOpts = true := by
  unfold CivConfig.readConfigFile at hread
  split at hread
  · cases hread
  · split at hread
    · cases hread
    · split at hread
      · cases hread
      · split at hread <;> cases hread
        simp_all

/-- Whatever text a config is read from: it can be written back to its file, and
is the same when it is read again. -/
theorem config_survives_rewriting {κ : Type} (h : Host κ) (k : κ) (path : String) (cfg : CivConfig)
    (hk : CivConfig.Keeps h k path) (hread : CivConfig.readConfigFile h k path = .ok (some cfg)) :
    ∃ k', cfg.writeConfigFile h k path = .ok (true, k') ∧ CivConfig.readConfigFile h k' path = .ok (some cfg) := by
  obtain ⟨hexists, hregular, hini, hs⟩ := readConfigFile_some hread
  by_cases hempty : cfg.cfgData = []
  · -- Nothing is written, and the file stays.
    exact ⟨k, by simp [CivConfig.writeConfigFile, hexists, hregular, hempty], hread⟩
  · obtain ⟨content, -, hini⟩ := Option.bind_eq_some_iff.1 hini
    obtain ⟨ts, ss, hdata, hprint⟩ := printable_of_accepted hini hs
    obtain ⟨content', hw, hr⟩ := readIni_printable hprint
    rw [← hdata] at hw hr
    refine ⟨h.writeFile k path content', ?_, ?_⟩
    · simp [CivConfig.writeConfigFile, hexists, hregular, hempty, hs, hw]
    · simp [CivConfig.readConfigFile, hk.pathExists, hk.isRegularFile, hk.readFile, hr, hs]

/-- A file with an entry outside any section, an empty section, a comment and
spaces. -/
def untidyFile : String := "memory = x\r\n[net]\n# none\n  [global]  \n\tname =  vm \n[disk]\nsize=\n"

theorem config_survives_rewriting_untidy : ∃ cfg k', cfg.cfgData.map (·.name) = ["memory", "global", "disk"] ∧
    cfg.writeConfigFile (fileHost "/vm.ini") (some untidyFile) "/vm.ini" = .ok (true, k') ∧
    CivConfig.readConfigFile (fileHost "/vm.ini") k' "/vm.ini" = .ok (some cfg) := by
  have he : CivConfig.readConfigFile (fileHost "/vm.ini") (some untidyFile) "/vm.ini" = .ok (some ⟨[
      { name := "memory", data := "x" }, { name := "global", entries := [("name", "vm")] },
      { name := "disk", entries := [("size", "")] }]⟩) := by decide +kernel
  obtain ⟨k', hw, hr⟩ := config_survives_rewriting _ _ _ _ (fileHost_keeps "/vm.ini" _) he
  exact ⟨_, k', rfl, hw, hr⟩

end VmManager
