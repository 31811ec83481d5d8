import VmManager.Aaf
import VmManager.Lib.Keyed
/-!
# What `Flush` makes of `mixins.spec`

`Flush` reads `mixins.spec` line by line and writes it anew. Lines without a key
are dropped, the others are rows with a key, and what is pending are new rows
for some of the keys: `flush_spec` says that the new file is their `upsert`, line
by line, on a disk that does what it is asked.
-/
open Text Keyed

namespace VmManager

namespace Aaf

/-! ## Lines -/

/-- The part before the first colon, or the whole line. -/
def lineKey (l : List Char) : String := .ofList ((cut ':' l).elim l (·.1))

/-- The lines of a text that have a key; a blank line has none. -/
def keyedLines (text : String) : List (List Char) := (text.toList.splitOn '\n').filter fun l => lineKey l ≠ ""

/-- A text of these lines. -/
def ofLines (ls : List (List Char)) : String := .ofList (ls.flatMap (· ++ ['\n']))

/-- The line for a setting. -/
def entry (k v : String) : List Char := (k ++ ":" ++ v).toList

theorem ofLines_nil : ofLines [] = "" := rfl

theorem ofLines_append (ls ms : List (List Char)) : ofLines (ls ++ ms) = ofLines ls ++ ofLines ms := by
  apply String.toList_inj.1
  simp [ofLines]

theorem ofLines_cons (l : List Char) (ls : List (List Char)) : ofLines (l :: ls) = .ofList l ++ "\n" ++ ofLines ls := by
  apply String.toList_inj.1
  simp [ofLines]

theorem lineKey_entry {k : String} (hk : ':' ∉ k.toList) (v : String) : lineKey (entry k v) = k := by
  have hcut : cut ':' (entry k v) = some (k.toList, v.toList) := by
    have := cut_append hk v.toList
    simpa [entry] using this
  simp [lineKey, hcut]

/-- Lines with a key come back from the text they were written to. -/
theorem keyedLines_ofLines {ls : List (List Char)} (h : ∀ l ∈ ls, '\n' ∉ l ∧ lineKey l ≠ "") :
    keyedLines (ofLines ls) = ls := by
  have hall : ls.filter (fun l => lineKey l ≠ "") = ls := List.filter_eq_self.2 fun l hl => by simpa using (h l hl).2
  have hnil : lineKey [] = "" := rfl
  rw [keyedLines, ofLines, String.toList_ofList, splitOn_lines fun l hl => (h l hl).1, List.filter_append, hall]
  simp [hnil]

theorem mem_keyedLines {text : String} {l : List Char} (h : l ∈ keyedLines text) : '\n' ∉ l ∧ lineKey l ≠ "" := by
  obtain ⟨hl, hk⟩ := List.mem_filter.1 h
  exact ⟨splitOn_not_mem l hl, by simpa using hk⟩

/-! ## What is pending -/

/-- The pending value of a key. -/
def value (a : Aaf) (k : String) : Option String := ((a.data.find? (·.1 = k)).map (·.2)).filter (· ≠ "")

def pending (a : Aaf) (k : String) : Option (List Char) := (a.value k).map (entry k)

/-- The keys of `data_`. -/
def knownKeys : List String := [kAafKeyAudioType, kAafKeyGpuType, kAafKeySuspend]

/-- The settings of a VM, on a fresh `Aaf`. -/
def settings (dir : String) (sets : List (String × String)) : Aaf :=
  sets.foldl (fun a s => a.set s.1 s.2) { path := dir }

theorem knownKeys_spec : knownKeys.Nodup ∧ ∀ k ∈ knownKeys, ':' ∉ k.toList ∧ '\n' ∉ k.toList ∧ k ≠ "" := by
  decide

theorem keys_set (a : Aaf) (k v : String) : (a.set k v).data.map (·.1) = a.data.map (·.1) := by
  simp only [set, List.map_map]
  refine List.map_congr_left fun e _ => ?_
  by_cases he : e.1 = k
  · simp [he]
  · simp [he]

theorem value_eq_some {a : Aaf} {k v : String} (h : a.value k = some v) : (k, v) ∈ a.data ∧ v ≠ "" := by
  obtain ⟨h, hv⟩ := Option.filter_eq_some_iff.1 h
  obtain ⟨e, he, rfl⟩ := Option.map_eq_some_iff.1 h
  have hk : e.1 = k := by simpa using List.find?_some he
  exact ⟨hk ▸ List.mem_of_find?_eq_some he, by simpa using hv⟩

theorem find?_set (a : Aaf) (k v j : String) :
    (a.set k v).data.find? (·.1 = j) = (a.data.find? (·.1 = j)).map fun e => if e.1 = k then (k, v) else e := by
  have hp : ((fun e : String × String => decide (e.1 = j)) ∘ fun e => if e.1 = k then (k, v) else e) =
      fun e : String × String => decide (e.1 = j) := by
    funext e
    by_cases he : e.1 = k
    · simp [he]
    · simp [he]
  rw [set, List.find?_map, hp]

theorem pending_set_clear (a : Aaf) (k : String) : (a.set k "").pending = Function.update a.pending k none := by
  funext j
  rw [pending, value, find?_set]
  by_cases hj : j = k
  · subst hj
    cases hf : a.data.find? (·.1 = j) with
    | none => simp
    | some e =>
      have he : e.1 = j := by simpa using List.find?_some hf
      simp [he]
  · rw [Function.update_of_ne hj, pending, value]
    cases hf : a.data.find? (·.1 = j) with
    | none => simp
    | some e =>
      have he : e.1 = j := by simpa using List.find?_some hf
      simp [he, hj]

section Keys
variable {a : Aaf} (hkeys : a.data.map (·.1) = knownKeys)
include hkeys

theorem mem_knownKeys {k v : String} (h : a.value k = some v) : k ∈ knownKeys := by
  rw [← hkeys]
  exact List.mem_map.2 ⟨(k, v), (value_eq_some h).1, rfl⟩

theorem fits_pending : Fits lineKey a.pending := by
  intro k l hl
  obtain ⟨v, hv, rfl⟩ := Option.map_eq_some_iff.1 hl
  exact lineKey_entry (knownKeys_spec.2 k (mem_knownKeys hkeys hv)).1 v

theorem pending_mem {k : String} {l : List Char} (h : a.pending k = some l) : k ∈ knownKeys := by
  obtain ⟨v, hv, rfl⟩ := Option.map_eq_some_iff.1 h
  exact mem_knownKeys hkeys hv

end Keys

theorem keys_settings (dir : String) (sets : List (String × String)) :
    (settings dir sets).data.map (·.1) = knownKeys ∧ (settings dir sets).path = dir := by
  unfold settings
  induction sets using List.reverseRecOn with
  | nil => exact ⟨rfl, rfl⟩
  | append_singleton sets s ih =>
    rw [List.foldl_append, List.foldl_cons, List.foldl_nil, keys_set]
    exact ⟨ih.1, ih.2⟩

/-- Nothing is pending at first. -/
theorem fresh_data (dir : String) : ∀ e ∈ ({ path := dir } : Aaf).data, e.2 = "" := by
  simp

theorem fresh_pending (dir : String) (k : String) : ({ path := dir } : Aaf).pending k = none := by
  cases hv : ({ path := dir } : Aaf).value k with
  | none => simp [pending, hv]
  | some v =>
    obtain ⟨hmem, hne⟩ := value_eq_some hv
    exact absurd (fresh_data dir _ hmem) hne

/-- A pending value was set. -/
theorem mem_settings {dir : String} {sets : List (String × String)} {k v : String}
    (h : (settings dir sets).value k = some v) : ∃ s ∈ sets, s.2 = v := by
  obtain ⟨hmem, hne⟩ := value_eq_some h
  suffices hall : ∀ e ∈ (settings dir sets).data, e.2 = "" ∨ ∃ s ∈ sets, s.2 = e.2 from (hall _ hmem).resolve_left hne
  unfold settings
  clear h hmem hne
  induction sets using List.reverseRecOn with
  | nil => exact fun e he => .inl (fresh_data dir e he)
  | append_singleton sets s ih =>
    intro e he
    rw [List.foldl_append, List.foldl_cons, List.foldl_nil, set, List.mem_map] at he
    obtain ⟨e', he', rfl⟩ := he
    split
    · exact .inr ⟨s, by simp, rfl⟩
    · refine (ih e' he').imp_right ?_
      rintro ⟨t, ht, hte⟩
      exact ⟨t, List.mem_append_left _ ht, hte⟩

theorem value_noBreak {dir : String} {sets : List (String × String)} (hv : ∀ s ∈ sets, '\n' ∉ s.2.toList)
    (key v : String) (h : (settings dir sets).value key = some v) : '\n' ∉ v.toList := by
  obtain ⟨s, hs, rfl⟩ := mem_settings h
  exact hv s hs

/-! ## The copy loop -/

theorem flushLine_noKey {a : Aaf} {out : String} {l : List Char} (h : lineKey l = "") : flushLine (a, out) l = (a, out) := by
  unfold flushLine
  rw [← lineKey, h]
  simp

theorem flushLine_keeps {a : Aaf} {out : String} {l : List Char} (h : lineKey l ≠ "")
    (hp : a.pending (lineKey l) = none) : flushLine (a, out) l = (a, out ++ .ofList l ++ "\n") := by
  have hne : l ≠ [] := by
    rintro rfl
    exact h rfl
  simp only [pending, value, Option.map_eq_none_iff] at hp
  dsimp only [flushLine]
  rw [← lineKey]
  cases hf : a.data.find? (·.1 = lineKey l) with
  | none => simp [hne, h]
  | some e =>
    have he : e.2 = "" := by
      rw [hf] at hp
      simpa using hp
    simp [hne, h, he]

theorem flushLine_replaces {a : Aaf} {out : String} {l e : List Char} (h : lineKey l ≠ "")
    (hp : a.pending (lineKey l) = some e) :
    flushLine (a, out) l = (a.set (lineKey l) "", out ++ .ofList e ++ "\n") := by
  have hne : l ≠ [] := by
    rintro rfl
    exact h rfl
  obtain ⟨v, hv, rfl⟩ := Option.map_eq_some_iff.1 hp
  obtain ⟨hf, hv⟩ := Option.filter_eq_some_iff.1 hv
  obtain ⟨d, hd, rfl⟩ := Option.map_eq_some_iff.1 hf
  have hv : d.2 ≠ "" := by simpa using hv
  dsimp only [flushLine]
  rw [← lineKey]
  simp [hne, h, hd, hv, entry, String.append_assoc]

/-- What the loop has written, and what is still pending. -/
theorem foldl_flushLine (a : Aaf) (out : String) (ls : List (List Char)) :
    (ls.foldl flushLine (a, out)).2 = out ++ ofLines (rewrite lineKey a.pending (ls.filter fun l => lineKey l ≠ "")) ∧
      (ls.foldl flushLine (a, out)).1.pending = left lineKey a.pending (ls.filter fun l => lineKey l ≠ "") ∧
      (ls.foldl flushLine (a, out)).1.data.map (·.1) = a.data.map (·.1) ∧
      (ls.foldl flushLine (a, out)).1.path = a.path := by
  induction ls generalizing a out with
  | nil => simp [rewrite, ofLines_nil]
  | cons l ls ih =>
    rw [List.foldl_cons]
    by_cases hl : lineKey l = ""
    · rw [flushLine_noKey hl, List.filter_cons_of_neg (by simpa using hl)]
      exact ih a out
    · rw [List.filter_cons_of_pos (by simpa using hl)]
      unfold rewrite
      cases hp : a.pending (lineKey l) with
      | none =>
        rw [flushLine_keeps hl hp, left_cons_of_none hp]
        obtain ⟨hout, hrest⟩ := ih a (out ++ .ofList l ++ "\n")
        refine ⟨?_, hrest⟩
        rw [hout]
        simp [ofLines_cons, String.append_assoc]
      | some e =>
        rw [flushLine_replaces hl hp, left_cons]
        obtain ⟨hout, hpend, hkeys, hpath⟩ := ih (a.set (lineKey l) "") (out ++ .ofList e ++ "\n")
        rw [pending_set_clear] at hout hpend
        refine ⟨?_, hpend, by rw [hkeys, keys_set], hpath⟩
        rw [hout]
        simp [ofLines_cons, String.append_assoc]

/-- The last loop writes what is pending, and clears it. -/
theorem flushPending_eq (a : Aaf) (out : String) (hnd : (a.data.map (·.1)).Nodup) :
    flushPending (a, out) =
      ({ a with data := a.data.map fun e => (e.1, "") }, out ++ ofLines ((a.data.map (·.1)).filterMap a.pending)) := by
  have hpend : ∀ e ∈ a.data, a.pending e.1 = if e.2 = "" then none else some (entry e.1 e.2) := by
    intro e he
    have hfind : a.data.find? (·.1 = e.1) = some e := by
      obtain ⟨d, hd⟩ : ∃ d, a.data.find? (·.1 = e.1) = some d := by
        refine Option.isSome_iff_exists.1 (List.find?_isSome.2 ⟨e, he, by simp⟩)
      have hde : d.1 = e.1 := by simpa using List.find?_some hd
      rw [hd, List.inj_on_of_nodup_map hnd (List.mem_of_find?_eq_some hd) he hde]
    by_cases hv : e.2 = ""
    · simp [pending, value, hfind, hv]
    · simp [pending, value, hfind, hv]
  unfold flushPending
  refine Prod.ext rfl ?_
  dsimp only
  generalize a.pending = pend at hpend ⊢
  generalize a.data = es at hpend ⊢
  clear hnd
  induction es generalizing out with
  | nil => simp [ofLines_nil]
  | cons e es ih =>
    obtain ⟨he, hes⟩ := List.forall_mem_cons.1 hpend
    rw [List.foldl_cons, ih _ hes, List.map_cons, List.filterMap_cons, he]
    by_cases hv : e.2 = ""
    · simp [hv]
    · simp [hv, ofLines_cons, entry, String.append_assoc]

/-! ## A disk that does what it is asked -/

def specFile (dir : String) : String := dir ++ "/" ++ "mixins.spec"

def hiddenFile (dir : String) : String := dir ++ "/" ++ ".mixins.spec~"

section Disk
variable {κ : Type} (h : Host κ) (dir : String)

/-- There is a directory at the path. -/
def Found (k : κ) : Prop := dir ≠ "" ∧ h.pathExists k dir = true ∧ h.isDirectory k dir = true

/-- In the states `ok`, the file operations of `Flush` succeed, and they lead to
such states again. -/
structure FilesWork (ok : κ → Prop) : Prop where
  found : ∀ {k}, ok k → Found h dir k
  pathExists : ∀ {k}, ok k → h.pathExists k (specFile dir) = (h.readFile k (specFile dir)).isSome
  rename : ∀ {k}, ok k → ok (h.rename k (specFile dir) (hiddenFile dir)) ∧
    h.readFile (h.rename k (specFile dir) (hiddenFile dir)) (hiddenFile dir) = h.readFile k (specFile dir)
  write : ∀ {k}, ok k → ∀ s, ok (h.writeFile k (specFile dir) s) ∧
    h.readFile (h.writeFile k (specFile dir) s) (specFile dir) = some s
  remove : ∀ {k}, ok k → ok (h.remove k (hiddenFile dir))

/-- The lines with a key that `mixins.spec` has; none while there is no such
file. -/
def specLines (k : κ) : List (List Char) := keyedLines ((h.readFile k (specFile dir)).getD "")

variable {h dir} {ok : κ → Prop} {k : κ} {a : Aaf}

theorem flush_notFound (hn : ¬ Found h a.path k) : flush h a k = .ok (a, k) := by
  unfold flush
  by_cases hempty : a.path = ""
  · simp [hempty]
  by_cases hex : h.pathExists k a.path = true
  · have hdir : h.isDirectory k a.path = false := Bool.eq_false_iff.2 fun hd => hn ⟨hempty, hex, hd⟩
    simp [hempty, hex, hdir]
  · simp [hempty, hex]

/-- Without `mixins.spec`, what is pending makes a new one. -/
theorem flush_creates (hf : Found h a.path k) (hex : h.pathExists k (specFile a.path) = false) :
    flush h a k = .ok ((flushPending (a, "")).1, h.writeFile k (specFile a.path) (flushPending (a, "")).2) := by
  obtain ⟨hne, hp, hd⟩ := hf
  unfold specFile at hex ⊢
  simp [flush, hne, hp, hd, hex]

theorem flush_copies (hf : Found h a.path k) (hex : h.pathExists k (specFile a.path) = true) {text : String}
    (hread : h.readFile (h.rename k (specFile a.path) (hiddenFile a.path)) (hiddenFile a.path) = some text) :
    flush h a k = .ok ((flushPending ((text.toList.splitOn '\n').foldl flushLine (a, ""))).1,
      h.writeFile (h.remove (h.writeFile (h.rename k (specFile a.path) (hiddenFile a.path)) (specFile a.path) "")
        (hiddenFile a.path)) (specFile a.path) (flushPending ((text.toList.splitOn '\n').foldl flushLine (a, ""))).2) := by
  obtain ⟨hne, hp, hd⟩ := hf
  unfold specFile at hex hread ⊢
  unfold hiddenFile at hread ⊢
  simp [flush, hne, hp, hd, hex, hread]

theorem flush_loops (hf : Found h a.path k) (hex : h.pathExists k (specFile a.path) = true)
    (hread : h.readFile (h.rename k (specFile a.path) (hiddenFile a.path)) (hiddenFile a.path) = none) :
    flush h a k = .error (h.writeFile (h.rename k (specFile a.path) (hiddenFile a.path)) (specFile a.path) "") := by
  obtain ⟨hne, hp, hd⟩ := hf
  unfold specFile at hex hread ⊢
  unfold hiddenFile at hread ⊢
  simp [flush, hne, hp, hd, hex, hread]

/-- What is written when the lines read are these. -/
theorem flushPending_foldl (hkeys : a.data.map (·.1) = knownKeys) (ls : List (List Char)) :
    flushPending (ls.foldl flushLine (a, "")) =
      ({ path := a.path }, ofLines (upsert lineKey knownKeys a.pending (ls.filter fun l => lineKey l ≠ ""))) := by
  obtain ⟨hout, hpend, hkeys', hpath⟩ := foldl_flushLine a "" ls
  generalize ls.foldl flushLine (a, "") = st at hout hpend hkeys' hpath ⊢
  obtain ⟨a', out⟩ := st
  dsimp only at hout hpend hkeys' hpath
  rw [hkeys] at hkeys'
  have hdata : a'.data.map (fun e => (e.1, "")) = knownKeys.map fun key => (key, "") := by
    rw [← hkeys', List.map_map]
    rfl
  rw [flushPending_eq a' out (hkeys' ▸ knownKeys_spec.1), hkeys', hpend, hout, hdata, hpath, upsert, ofLines_append,
    String.empty_append]
  rfl

/-- The file afterwards, line by line; nothing is pending any more. -/
theorem flush_spec (hw : FilesWork h dir ok) (hk : ok k) (hkeys : a.data.map (·.1) = knownKeys) (hpath : a.path = dir) :
    ∃ k', flush h a k = .ok ({ path := dir }, k') ∧ ok k' ∧
      h.readFile k' (specFile dir) = some (ofLines (upsert lineKey knownKeys a.pending (specLines h dir k))) := by
  subst hpath
  have hold := hw.pathExists hk
  unfold specLines
  cases hread : h.readFile k (specFile a.path) with
  | none =>
    rw [hread] at hold
    have hnew := flushPending_foldl hkeys []
    rw [List.foldl_nil, List.filter_nil] at hnew
    rw [flush_creates (hw.found hk) hold, hnew]
    exact ⟨_, rfl, hw.write hk _⟩
  | some text =>
    rw [hread] at hold
    obtain ⟨hok, hmoved⟩ := hw.rename hk
    rw [hread] at hmoved
    rw [flush_copies (hw.found hk) hold hmoved, flushPending_foldl hkeys]
    exact ⟨_, rfl, hw.write (hw.remove (hw.write hok "").1) _⟩

end Disk

/-! ## What the file operations come to -/

/-- How the file operations of `Flush` go. -/
structure Outcomes where
  /-- `mixins.spec` is renamed. -/
  renames : Bool
  /-- `.mixins.spec~`, if there is one, is opened and read. -/
  opensHidden : Bool
  /-- `mixins.spec` is opened, which truncates it, and written. -/
  opensSpec : Bool
  /-- `.mixins.spec~` is removed. -/
  removes : Bool
  deriving DecidableEq, Repr

def Outcomes.allWell : Outcomes := ⟨true, true, true, true⟩

/-- The contents of the two files. -/
structure SpecFiles where
  spec : Option String
  hidden : Option String
  deriving DecidableEq, Repr

/-- A machine with this directory, on which the file operations go so. -/
def specHost (dir : String) (o : Outcomes) : Host SpecFiles :=
  { liveHost
      (fun k p =>
        if p = specFile dir then k.spec else if p = hiddenFile dir then (if o.opensHidden then k.hidden else none) else none)
      (fun _ _ => none) [(dir, [])]
      (fun k p s => if p = specFile dir then (if o.opensSpec then { k with spec := some s } else k) else k) id with
    rename := fun k p q =>
      if p = specFile dir ∧ q = hiddenFile dir then (if o.renames then ⟨none, k.spec⟩ else k) else k
    remove := fun k p => if p = hiddenFile dir then (if o.removes then { k with hidden := none } else k) else k }

section SpecHost
variable {dir : String} {o : Outcomes} (k : SpecFiles)

theorem hiddenFile_ne (dir : String) : hiddenFile dir ≠ specFile dir := by
  intro he
  simp [hiddenFile, specFile] at he

theorem specHost_read_spec : (specHost dir o).readFile k (specFile dir) = k.spec := by
  simp [specHost, liveHost]

theorem specHost_read_hidden :
    (specHost dir o).readFile k (hiddenFile dir) = if o.opensHidden then k.hidden else none := by
  simp [specHost, liveHost, hiddenFile_ne]

theorem specHost_found (hdir : dir ≠ "") : Found (specHost dir o) dir k := by
  simp [Found, hdir, specHost, liveHost]

theorem specHost_exists : (specHost dir o).pathExists k (specFile dir) = k.spec.isSome := by
  have hne : dir ≠ specFile dir := by
    intro he
    have := congrArg (fun s : String => s.toList.length) he
    simp [specFile] at this
  simp [specHost, liveHost, hne]

theorem specHost_rename : (specHost dir o).rename k (specFile dir) (hiddenFile dir) =
    if o.renames then ⟨none, k.spec⟩ else k := by
  simp [specHost]

theorem specHost_write (s : String) : (specHost dir o).writeFile k (specFile dir) s =
    if o.opensSpec then { k with spec := some s } else k := by
  simp [specHost, liveHost]

theorem specHost_remove : (specHost dir o).remove k (hiddenFile dir) =
    if o.removes then { k with hidden := none } else k := by
  simp [specHost]

theorem specHost_works (dir : String) (hdir : dir ≠ "") : FilesWork (specHost dir .allWell) dir fun _ => True where
  found _ := specHost_found _ hdir
  pathExists _ := by rw [specHost_exists, specHost_read_spec]
  rename _ := by
    rw [specHost_rename, specHost_read_hidden, specHost_read_spec]
    exact ⟨trivial, rfl⟩
  write _ s := by
    rw [specHost_write, specHost_read_spec]
    exact ⟨trivial, rfl⟩
  remove _ := trivial

end SpecHost

/-! ## The lines afterwards -/

section Lines
variable {κ : Type} {h : Host κ} {dir : String} {ok : κ → Prop} {k : κ} {sets : List (String × String)}

/-- Settings without a line break leave the lines with a key apart. -/
theorem keyedLines_upsert (dir : String) {sets : List (String × String)}
    (hv : ∀ key v, (settings dir sets).value key = some v → '\n' ∉ v.toList) (text : String) :
    keyedLines (ofLines (upsert lineKey knownKeys (settings dir sets).pending (keyedLines text))) =
      upsert lineKey knownKeys (settings dir sets).pending (keyedLines text) := by
  refine keyedLines_ofLines fun l hl => ?_
  rcases mem_upsert hl with hl | ⟨key, hkey⟩
  · exact mem_keyedLines hl
  · obtain ⟨v, hval, rfl⟩ := Option.map_eq_some_iff.1 hkey
    obtain ⟨hcolon, hbreak, hne⟩ := knownKeys_spec.2 key (mem_knownKeys (keys_settings dir sets).1 hval)
    rw [lineKey_entry hcolon]
    refine ⟨?_, hne⟩
    simp [entry, hbreak, hv key v hval]

/-- `Flush` merges the settings into `mixins.spec`: lines of other keys stay as
they are and in their order, every line keeps its place, and the setting of a
key stands where its first line stood, or behind the old lines. -/
theorem flush_merges (hw : FilesWork h dir ok) (hk : ok k) (hv : ∀ s ∈ sets, '\n' ∉ s.2.toList) :
    ∃ a' k' text, flush h (settings dir sets) k = .ok (a', k') ∧ h.readFile k' (specFile dir) = some text ∧
      (keyedLines text).filter (fun l => (settings dir sets).value (lineKey l) = none) =
        (specLines h dir k).filter (fun l => (settings dir sets).value (lineKey l) = none) ∧
      ((keyedLines text).take (specLines h dir k).length).map lineKey = (specLines h dir k).map lineKey ∧
      (∀ key v, (settings dir sets).value key = some v →
        ∃ pre post, keyedLines text = pre ++ entry key v :: post ∧ (∀ l ∈ pre, lineKey l ≠ key) ∧
          (key ∈ (specLines h dir k).map lineKey → pre.length = ((specLines h dir k).map lineKey).idxOf key) ∧
          (key ∉ (specLines h dir k).map lineKey → (specLines h dir k).length ≤ pre.length)) ∧
      ∀ e ∈ a'.data, e.2 = "" := by
  obtain ⟨hkeys, hpath⟩ := keys_settings dir sets
  obtain ⟨k', hflush, -, hread⟩ := flush_spec hw hk hkeys hpath
  have hfits := fits_pending hkeys
  have hlines := keyedLines_upsert dir (value_noBreak hv) ((h.readFile k (specFile dir)).getD "")
  refine ⟨_, k', _, hflush, hread, ?_, ?_, fun key v hval => ?_, ?_⟩
  · rw [specLines, hlines]
    refine filter_upsert _ hfits (fun l hl => ?_) _
    simp [pending, of_decide_eq_true hl]
  · rw [specLines, hlines, List.map_take, map_key_upsert hfits]
    simp
  · rw [specLines, hlines]
    exact upsert_eq_append hfits knownKeys_spec.1 (mem_knownKeys hkeys hval) (by simp [pending, hval]) _
  · exact fresh_data dir

theorem flush_merges_audio : ∃ a' k' text,
    flush (specHost "/aaf" .allWell) (settings "/aaf" [(kAafKeyAudioType, "hda"), (kAafKeySuspend, "true")])
      ⟨some "suspend:false\n\nother", none⟩ = .ok (a', k') ∧
    (specHost "/aaf" .allWell).readFile k' (specFile "/aaf") = some text ∧
      (keyedLines text).filter (fun l => (settings "/aaf"
        [(kAafKeyAudioType, "hda"), (kAafKeySuspend, "true")]).value (lineKey l) = none) = ["other".toList] := by
  obtain ⟨a', k', text, hflush, hread, hkept, -⟩ := flush_merges (specHost_works "/aaf" (by decide))
    (k := ⟨some "suspend:false\n\nother", none⟩) trivial
    (show ∀ s ∈ [(kAafKeyAudioType, "hda"), (kAafKeySuspend, "true")], '\n' ∉ s.2.toList by simp)
  refine ⟨a', k', text, hflush, hread, hkept.trans ?_⟩
  rfl

/-! ## Later starts -/

/-- The `Flush` of one start after the other. -/
def flushAll (h : Host κ) (as : List Aaf) (k : κ) : Except κ κ := as.foldlM (fun k a => (a.flush h k).map (·.2)) k

theorem flushAll_keeps {P : κ → Prop} {as : List Aaf}
    (hstep : ∀ a ∈ as, ∀ {k}, P k → ∃ a' k', flush h a k = .ok (a', k') ∧ P k') (hP : P k) :
    ∃ k', flushAll h as k = .ok k' ∧ P k' := by
  unfold flushAll
  induction as generalizing k with
  | nil => exact ⟨k, rfl, hP⟩
  | cons a as ih =>
    obtain ⟨a', k1, hflush, hP1⟩ := hstep a List.mem_cons_self hP
    obtain ⟨k2, hrest, hP2⟩ := ih (fun b hb => hstep b (List.mem_cons_of_mem a hb)) hP1
    refine ⟨k2, ?_, hP2⟩
    rw [List.foldlM_cons, hflush]
    exact hrest

/-- The same settings again, or none: the file stays. -/
theorem flush_again (hw : FilesWork h dir ok) {ls : List (List Char)}
    (hls : keyedLines (ofLines (upsert lineKey knownKeys (settings dir sets).pending ls)) =
      upsert lineKey knownKeys (settings dir sets).pending ls)
    {b : Aaf} (hb : b = settings dir sets ∨ b = { path := dir }) (hk : ok k)
    (hread : h.readFile k (specFile dir) = some (ofLines (upsert lineKey knownKeys (settings dir sets).pending ls))) :
    ∃ a' k', flush h b k = .ok (a', k') ∧ ok k' ∧ h.readFile k' (specFile dir) = h.readFile k (specFile dir) := by
  have hlines : specLines h dir k = upsert lineKey knownKeys (settings dir sets).pending ls := by
    rw [specLines, hread, Option.getD_some, hls]
  rcases hb with rfl | rfl
  · obtain ⟨hkeys, hpath⟩ := keys_settings dir sets
    obtain ⟨k', hflush, hok, hread'⟩ := flush_spec hw hk hkeys hpath
    refine ⟨_, k', hflush, hok, ?_⟩
    rw [hread', hread, hlines, upsert_upsert (fits_pending hkeys) knownKeys_spec.1 fun _ _ => pending_mem hkeys]
  · obtain ⟨k', hflush, hok, hread'⟩ := flush_spec hw hk (a := { path := dir }) rfl rfl
    refine ⟨_, k', hflush, hok, ?_⟩
    rw [hread', hread, hlines, upsert_none (fresh_pending dir)]

/-- Every later start with the same settings, and every `Flush` with nothing
pending, leaves the file as the first one made it. -/
theorem flush_settles (hw : FilesWork h dir ok) (hk : ok k ∨ ¬ Found h dir k) (hv : ∀ s ∈ sets, '\n' ∉ s.2.toList) :
    ∃ a' k', flush h (settings dir sets) k = .ok (a', k') ∧
      ∀ later : List Aaf, (∀ b ∈ later, b = settings dir sets ∨ b = { path := dir }) →
        ∃ k'', flushAll h later k' = .ok k'' ∧ h.readFile k'' (specFile dir) = h.readFile k' (specFile dir) := by
  obtain ⟨hkeys, hpath⟩ := keys_settings dir sets
  rcases hk with hk | hn
  · obtain ⟨k', hflush, hok, hread⟩ := flush_spec hw hk hkeys hpath
    have hls := keyedLines_upsert dir (value_noBreak hv) ((h.readFile k (specFile dir)).getD "")
    refine ⟨_, k', hflush, fun later hlater => ?_⟩
    have hstep : ∀ b ∈ later, ∀ {k1}, ok k1 ∧ h.readFile k1 (specFile dir) = h.readFile k' (specFile dir) →
        ∃ a2 k2, flush h b k1 = .ok (a2, k2) ∧ ok k2 ∧ h.readFile k2 (specFile dir) = h.readFile k' (specFile dir) := by
      intro b hb k1 hk1
      obtain ⟨a2, k2, hflush2, hok2, hread2⟩ := flush_again hw hls (hlater b hb) hk1.1 (hk1.2.trans hread)
      exact ⟨a2, k2, hflush2, hok2, hread2.trans hk1.2⟩
    obtain ⟨k'', hall, -, hread'⟩ := flushAll_keeps hstep ⟨hok, rfl⟩
    exact ⟨k'', hall, hread'⟩
  · refine ⟨_, k, flush_notFound (hpath.symm ▸ hn), fun later hlater => ?_⟩
    have hstep : ∀ b ∈ later, ∀ {k1}, k1 = k → ∃ a2 k2, flush h b k1 = .ok (a2, k2) ∧ k2 = k := by
      rintro b hb k1 rfl
      have hbp : b.path = dir := by
        rcases hlater b hb with rfl | rfl
        · exact hpath
        · rfl
      exact ⟨b, k1, flush_notFound (hbp.symm ▸ hn), rfl⟩
    obtain ⟨k'', hall, rfl⟩ := flushAll_keeps hstep rfl
    exact ⟨k'', hall, rfl⟩

theorem flush_settles_virtio : ∃ a' k',
    flush (specHost "/aaf" .allWell) (settings "/aaf" [(kAafKeyGpuType, "virtio")]) ⟨none, none⟩ = .ok (a', k') ∧
      ∀ later : List Aaf, (∀ b ∈ later, b = settings "/aaf" [(kAafKeyGpuType, "virtio")] ∨ b = { path := "/aaf" }) →
        ∃ k'', flushAll (specHost "/aaf" .allWell) later k' = .ok k'' ∧
          (specHost "/aaf" .allWell).readFile k'' (specFile "/aaf") =
            (specHost "/aaf" .allWell).readFile k' (specFile "/aaf") :=
  flush_settles (specHost_works "/aaf" (by decide)) (.inl trivial)
    (show ∀ s ∈ [(kAafKeyGpuType, "virtio")], '\n' ∉ s.2.toList by simp)

/-! ## One line for each setting -/

/-- The text has one line for each pending setting, with its value. -/
def OneLineEach (a : Aaf) (text : String) : Prop :=
  ∀ key v, a.value key = some v → (keyedLines text).filter (lineKey · = key) = [entry key v]

/-- There is one line for each setting exactly when no value has a line break and
no key of a setting had two lines before. -/
theorem flush_oneLineEach_iff (hw : FilesWork h dir ok) (hk : ok k) (sets : List (String × String)) :
    ∃ a' k' text, flush h (settings dir sets) k = .ok (a', k') ∧ h.readFile k' (specFile dir) = some text ∧
      (OneLineEach (settings dir sets) text ↔
        ∀ key v, (settings dir sets).value key = some v →
          '\n' ∉ v.toList ∧ ((specLines h dir k).filter (lineKey · = key)).length ≤ 1) := by
  obtain ⟨hkeys, hpath⟩ := keys_settings dir sets
  obtain ⟨k', hflush, -, hread⟩ := flush_spec hw hk hkeys hpath
  refine ⟨_, k', _, hflush, hread, ?_⟩
  -- Without a line break in the values, the lines are those of the `upsert`.
  have hone : (∀ key v, (settings dir sets).value key = some v → '\n' ∉ v.toList) → ∀ {key v},
      (settings dir sets).value key = some v →
      ((keyedLines (ofLines (upsert lineKey knownKeys (settings dir sets).pending (specLines h dir k)))).filter
        (lineKey · = key) = [entry key v] ↔ ((specLines h dir k).filter (lineKey · = key)).length ≤ 1) := by
    intro hv key v hval
    rw [specLines, keyedLines_upsert dir hv,
      filter_key_upsert (fits_pending hkeys) knownKeys_spec.1 (mem_knownKeys hkeys hval) (y := entry key v)
        (by simp [pending, hval])]
    simp only [List.cons.injEq, true_and, ← List.length_eq_zero_iff, List.length_tail]
    omega
  constructor
  · intro hall
    have hv : ∀ key v, (settings dir sets).value key = some v → '\n' ∉ v.toList := by
      intro key v hval hbreak
      have hmem : entry key v ∈ (keyedLines (ofLines (upsert lineKey knownKeys (settings dir sets).pending
          (specLines h dir k)))).filter (lineKey · = key) := by simp [hall key v hval]
      refine (mem_keyedLines (List.mem_filter.1 hmem).1).1 ?_
      simp [entry, hbreak]
    exact fun key v hval => ⟨hv key v hval, (hone hv hval).1 (hall key v hval)⟩
  · intro hcond key v hval
    exact (hone (fun key v hval => (hcond key v hval).1) hval).2 (hcond key v hval).2

theorem flush_oneLineEach_suspend : ∃ a' k' text,
    flush (specHost "/aaf" .allWell) (settings "/aaf" [(kAafKeySuspend, "true")]) ⟨some "suspend:false", none⟩ =
      .ok (a', k') ∧
    (specHost "/aaf" .allWell).readFile k' (specFile "/aaf") = some text ∧
    OneLineEach (settings "/aaf" [(kAafKeySuspend, "true")]) text := by
  obtain ⟨a', k', text, hflush, hread, hiff⟩ :=
    flush_oneLineEach_iff (specHost_works "/aaf" (by decide)) (k := ⟨some "suspend:false", none⟩) trivial
      [(kAafKeySuspend, "true")]
  refine ⟨a', k', text, hflush, hread, hiff.2 fun key v hval => ⟨?_, (List.length_filter_le ..).trans (by decide)⟩⟩
  obtain ⟨s, hs, rfl⟩ := mem_settings hval
  obtain rfl := List.mem_singleton.1 hs
  decide

/-- The second line of the key still says what it said before. -/
theorem flush_leaves_secondLine :
    flush (specHost "/aaf" .allWell) (settings "/aaf" [(kAafKeyGpuType, "gvtd")])
        ⟨some "gpu-type:gvtg\ngpu-type:virtio\n", none⟩ =
      .ok ({ path := "/aaf" }, ⟨some "gpu-type:gvtd\ngpu-type:virtio\n", none⟩) ∧
    ¬ OneLineEach (settings "/aaf" [(kAafKeyGpuType, "gvtd")]) "gpu-type:gvtd\ngpu-type:virtio\n" := by
  refine ⟨rfl, fun hall => ?_⟩
  have := hall kAafKeyGpuType "gvtd" rfl
  revert this
  decide

end Lines

/-! ## When an operation fails -/

/-- `Flush` ends, and if it could not read what was in `mixins.spec`, then that is
still there, or in `.mixins.spec~`. -/
def OldContentSafe (dir : String) (o : Outcomes) (hidden : Option String) (old : String) (a : Aaf) : Prop :=
  ∃ a' k', flush (specHost dir o) a ⟨some old, hidden⟩ = .ok (a', k') ∧
    (¬ (o.renames = true ∧ o.opensHidden = true) → k'.spec = some old ∨ k'.hidden = some old)

section Failures
variable {a : Aaf} (hdir : a.path ≠ "") (o : Outcomes) (hidden : Option String) (old : String)

/-- What the copy loop reads. -/
def Outcomes.reads : Option String := if o.opensHidden then if o.renames then some old else hidden else none

theorem specHost_reads (dir : String) :
    (specHost dir o).readFile ((specHost dir o).rename ⟨some old, hidden⟩ (specFile dir) (hiddenFile dir)) (hiddenFile dir) =
      o.reads hidden old := by
  rw [specHost_rename, specHost_read_hidden, Outcomes.reads]
  cases o.renames <;> rfl

include hdir

theorem flush_specHost_loops (hread : o.reads hidden old = none) :
    ∃ k', flush (specHost a.path o) a ⟨some old, hidden⟩ = .error k' := by
  rw [← specHost_reads o hidden old a.path] at hread
  exact ⟨_, flush_loops (specHost_found _ hdir) (specHost_exists _) hread⟩

/-- Both files after the copy of a text. -/
theorem flush_specHost_copies (text : String) (hread : o.reads hidden old = some text) :
    flush (specHost a.path o) a ⟨some old, hidden⟩ =
      .ok ((flushPending ((text.toList.splitOn '\n').foldl flushLine (a, ""))).1,
        { spec :=
            if o.opensSpec then some (flushPending ((text.toList.splitOn '\n').foldl flushLine (a, ""))).2
            else if o.renames then none else some old
          hidden := if o.removes then none else if o.renames then some old else hidden }) := by
  rw [← specHost_reads o hidden old a.path] at hread
  rw [flush_copies (specHost_found _ hdir) (specHost_exists _) hread, specHost_rename, specHost_write, specHost_remove,
    specHost_write]
  cases o.renames <;> cases o.opensSpec <;> cases o.removes <;> rfl

theorem exists_read (h : OldContentSafe a.path o hidden old a) : ∃ text, o.reads hidden old = some text := by
  obtain ⟨a', k', hflush, -⟩ := h
  cases hread : o.reads hidden old with
  | none =>
    obtain ⟨k, hloops⟩ := flush_specHost_loops hdir o hidden old hread
    rw [hflush] at hloops
    cases hloops
  | some text => exact ⟨text, rfl⟩

/-- Without the rename, `mixins.spec` is overwritten with what the copy of
`.mixins.spec~` gives. -/
theorem exists_lost (stale : String) (hr : o.renames = false) (hs : o.opensSpec = true) (ho : o.opensHidden = true) :
    ∃ old, ¬ OldContentSafe a.path o (some stale) old a := by
  -- An old content longer than both files afterwards is in neither of them.
  refine ⟨stale ++ (flushPending ((stale.toList.splitOn '\n').foldl flushLine (a, ""))).2 ++ "\n", ?_⟩
  generalize hold : stale ++ (flushPending ((stale.toList.splitOn '\n').foldl flushLine (a, ""))).2 ++ "\n" = old
  rintro ⟨a', k', hflush, hsafe⟩
  rw [flush_specHost_copies hdir o (some stale) old stale (by simp [Outcomes.reads, hr, ho])] at hflush
  obtain ⟨-, rfl⟩ := Prod.mk.inj (Except.ok.inj hflush)
  have hlen := congrArg (fun s : String => s.toList.length) hold
  simp only [String.toList_append, List.length_append] at hlen
  rcases hsafe (by simp [hr]) with he | he
  · simp only [hs, if_true, Option.some.injEq] at he
    simp [he] at hlen
    omega
  · simp only [hr, Bool.false_eq_true, if_false] at he
    split at he
    · cases he
    · simp [Option.some.inj he] at hlen
      omega

end Failures

/-- The old content is safe, whatever it is, exactly when `.mixins.spec~` can be
read, and `mixins.spec` was renamed to it or cannot be opened. -/
theorem oldContentSafe_iff {dir : String} (hdir : dir ≠ "") (o : Outcomes) (hidden : Option String) :
    (∀ old sets, OldContentSafe dir o hidden old (settings dir sets)) ↔
      o.opensHidden = true ∧ (o.renames = true ∨ (hidden.isSome = true ∧ o.opensSpec = false)) := by
  constructor
  · intro hall
    obtain ⟨text, hread⟩ := exists_read (a := settings dir []) hdir o hidden "" (hall "" [])
    unfold Outcomes.reads at hread
    split at hread
    · rename_i ho
      refine ⟨ho, ?_⟩
      by_cases hr : o.renames = true
      · exact .inl hr
      · rw [if_neg hr] at hread
        refine .inr ⟨by simp [hread], Bool.eq_false_iff.2 fun hs => ?_⟩
        obtain ⟨old, hlost⟩ := exists_lost (a := settings dir []) hdir o text (by simpa using hr) hs ho
        exact hlost (hread ▸ hall old [])
    · cases hread
  · rintro ⟨ho, hor⟩ old sets
    have hpath : (settings dir sets).path = dir := (keys_settings dir sets).2
    generalize settings dir sets = a at hpath
    subst hpath
    by_cases hr : o.renames = true
    · have hread : o.reads hidden old = some old := by simp [Outcomes.reads, ho, hr]
      exact ⟨_, _, flush_specHost_copies hdir o hidden old old hread, fun hn => absurd ⟨hr, ho⟩ hn⟩
    · obtain ⟨hsome, hs⟩ := hor.resolve_left hr
      obtain ⟨stale, rfl⟩ := Option.isSome_iff_exists.1 hsome
      have hread : o.reads (some stale) old = some stale := by simp [Outcomes.reads, ho, hr]
      exact ⟨_, _, flush_specHost_copies hdir o _ old stale hread, fun _ => .inl (by simp [hs, hr])⟩

theorem oldContentSafe_renamed :
    OldContentSafe "/aaf" .allWell none "suspend:true\n" (settings "/aaf" [(kAafKeySuspend, "false")]) :=
  (oldContentSafe_iff (by decide) .allWell none).2 (by decide) _ _

/-- The rename fails and there is no `.mixins.spec~`: the copy loop does not end,
and `mixins.spec` is empty by then. -/
theorem oldContent_lost :
    flush (specHost "/aaf" ⟨false, true, true, true⟩) (settings "/aaf" []) ⟨some "suspend:true\n", none⟩ =
      .error ⟨some "", none⟩ ∧
    ¬ OldContentSafe "/aaf" ⟨false, true, true, true⟩ none "suspend:true\n" (settings "/aaf" []) := by
  have hloops : flush (specHost "/aaf" ⟨false, true, true, true⟩) (settings "/aaf" []) ⟨some "suspend:true\n", none⟩ =
      .error ⟨some "", none⟩ := rfl
  refine ⟨hloops, ?_⟩
  rintro ⟨a', k', hflush, -⟩
  rw [hloops] at hflush
  cases hflush

end Aaf

end VmManager
