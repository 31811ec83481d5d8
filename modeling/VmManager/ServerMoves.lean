import VmManager.BuilderSteps
import VmManager.Server
/-!
# What a step of the server can do

The steps of `Server.lean` sorted by what they do to the state that the
threads share. Most of the server's steps only move it on.
-/
open Text

namespace VmManager

variable {κ : Type}

/-- Where a handler has an index from: `FindVmInstance`, the counter of a loop
or `vmis_.insert`. -/
inductive Origin
  | found
  | counted
  | inserted
  deriving DecidableEq, Repr

/-- An index that a handler still uses, and the name of the VM it is to be of,
where the handler has one. -/
structure Use where
  origin : Origin
  name : Option String
  id : Nat
  deriving DecidableEq, Repr

def ServerPc.uses : ServerPc → Option Use
  | .stopName name id | .stopCid name id | .stopRpc name id _ | .stopStop name id | .infoConstruct name id
  | .infoCid name id | .infoState name id _ | .importState _ name id => some ⟨.found, some name, id⟩
  | .listName i => some ⟨.counted, none, i⟩
  | .listState i name => some ⟨.counted, some name, i⟩
  | .startGet pos _ _ _ => some ⟨.inserted, none, pos⟩
  | _ => none

/-- There is an instance at the index, of that name. -/
def Use.Good (u : Use) (s : Sys κ) : Prop := ∃ vb, s.vmAt u.id = some vb ∧ ∀ name ∈ u.name, vb.name = name

/-- The builder that a handler owns. -/
def ServerPc.builder : ServerPc → Option VmBuilderQemu
  | .building _ vb _ | .insert _ vb | .discard vb | .unwind _ vb => some vb
  | _ => none

/-- The VM that `StartVm` has inserted, and whether it waits for the guest. -/
def ServerPc.started : ServerPc → Option (Nat × Bool)
  | .startGet _ uid _ waitReady | .startWait uid waitReady | .startState uid waitReady => some (uid, waitReady)
  | _ => none

/-- Neither of the two. -/
def ServerPc.plain (p : ServerPc) : Prop := p.builder = none ∧ p.started = none

/-- What the threads share is the same in both states. -/
structure SameCore (s s' : Sys κ) : Prop where
  vmis : s'.vmis = s.vmis
  deleting : s'.deleting = s.deleting
  pool : s'.world.pool = s.world.pool
  pending : s'.pending = s.pending
  thread : s'.thread = s.thread
  latch : s'.latch = s.latch
  nextUid : s'.nextUid = s.nextUid

/-- The steps of the server thread, and the arrival of a request. -/
inductive ServerMove (h : Host κ) (s : Sys κ) : Sys κ → Prop
  | undefined (accesses : List Access) : ServerMove h s { s with accesses }.undefined
  /-- Only the server moves on, and an index it uses is one it used or is good
  now. -/
  | quiet (s' : Sys κ) : SameCore s s' → s.server.plain → s'.server.plain →
      (∀ u, s'.server.uses = some u → s.server.uses = some u ∨ u.Good s) → ServerMove h s s'
  | stop (name : String) (id : Nat) (vb : VmBuilderQemu) : s.server = .stopStop name id → s.vmAt id = some vb →
      ServerMove h s { s.access name .stopVm (some vb) with
        vmis := s.vmis.set id (vb.stopVm h s.world).1, world := (vb.stopVm h s.world).2, server := .stopping vb.uid }
  | create (p : Purpose) (name : String) (cfg : CivConfig) : s.server.plain → findVmInstance s.vmis name = none →
      ServerMove h s (startBuild s p name cfg)
  | lock (name : String) (cfg : CivConfig) : s.server = .importLock cfg name → s.deleting = none →
      ServerMove h s ({ s with deleting := some ⟨none, name⟩ }.goto (.importDelete cfg name))
  | overwrite (name : String) (cfg : CivConfig) : s.server = .importDelete cfg name →
      ServerMove h s (startBuild (deleteVmInstance h s name) .import name cfg)
  /-- A step of `BuildVmArgs` returned or threw. -/
  | build (p : Purpose) (vb vb' : VmBuilderQemu) (w : World κ) (i : Nat) (st : Step κ) (q : ServerPc) :
      s.server = .building p vb i → (VmBuilderQemu.buildSteps h)[i]? = some st →
      (st vb s.world = .ok vb' w ∧ q = .building p vb' (i + 1)) ∨ (st vb s.world = .failed vb' w ∧ q = .discard vb') ∨
        (∃ e, st vb s.world = .threw e vb' w ∧ q = .unwind e vb') →
      ServerMove h s { s with server := q, world := w }
  | hang (p : Purpose) (vb : VmBuilderQemu) (w : World κ) (i : Nat) (st : Step κ) : s.server = .building p vb i →
      (VmBuilderQemu.buildSteps h)[i]? = some st → st vb s.world = .hung w →
      ServerMove h s { s with server := .hung, world := w }
  | built (p : Purpose) (vb : VmBuilderQemu) (i : Nat) : s.server = .building p vb i →
      (VmBuilderQemu.buildSteps h)[i]? = none → ServerMove h s (s.goto (.insert p vb))
  | insertImport (vb : VmBuilderQemu) : s.server = .insert .import vb → s.moving = false →
      ServerMove h s ({ s with vmis := s.vmis ++ [vb] }.goto (.reply 0))
  | insertStart (vb : VmBuilderQemu) (env : List String) (waitReady : Bool) :
      s.server = .insert (.start env waitReady) vb → s.moving = false →
      ServerMove h s ({ s with vmis := s.vmis ++ [vb] }.goto (.startGet s.vmis.length vb.uid env waitReady))
  | drop (vb : VmBuilderQemu) (q : ServerPc) :
      (s.server = .discard vb ∧ q = .reply (-1)) ∨ (∃ e, s.server = .unwind e vb ∧ q = .exited e) →
      ServerMove h s { s with world := (vb.stopVm h s.world).2, server := q }
  | get (pos uid : Nat) (env : List String) (waitReady : Bool) (vb : VmBuilderQemu) :
      s.server = .startGet pos uid env waitReady → s.vmis[pos]? = some vb →
      ServerMove h s
        { (s.updateVm vb.uid fun vb => { vb with mainProc := vb.mainProc.map ({ · with envData := env }) }).setThread
            vb.uid .launch with
          latch := Function.update s.latch vb.uid (if waitReady then 2 else 1), server := .startWait vb.uid waitReady }
  | pass (uid : Nat) (waitReady : Bool) : s.server = .startWait uid waitReady → s.latch uid = 0 →
      ServerMove h s (s.goto (.startState uid waitReady))
  | answer (uid : Nat) (waitReady : Bool) (vb : VmBuilderQemu) : s.server = .startState uid waitReady →
      s.find uid = some vb → ServerMove h s (s.goto (.reply (if vb.state = .running then 0 else -1)))

/-- What holds of every outcome holds of what the step of `BuildVmArgs` left
behind. -/
theorem build_all {p : Purpose} {vb vb' : VmBuilderQemu} {w w' : World κ} {i : Nat} {st : Step κ} {q : ServerPc}
    {R : VmBuilderQemu → World κ → Prop} (hall : (st vb w).All R)
    (hq : (st vb w = .ok vb' w' ∧ q = .building p vb' (i + 1)) ∨ (st vb w = .failed vb' w' ∧ q = .discard vb') ∨
      (∃ e, st vb w = .threw e vb' w' ∧ q = .unwind e vb')) : R vb' w' := by
  rcases hq with ⟨he, -⟩ | ⟨he, -⟩ | ⟨e, he, -⟩ <;> rw [he] at hall <;> cases hall <;> assumption

/-- The builder is the server's own until the next step, however the step of
`BuildVmArgs` ended. -/
theorem build_builder {p : Purpose} {vb vb' : VmBuilderQemu} {w w' : World κ} {i : Nat} {st : Step κ} {q : ServerPc}
    (hq : (st vb w = .ok vb' w' ∧ q = .building p vb' (i + 1)) ∨ (st vb w = .failed vb' w' ∧ q = .discard vb') ∨
      (∃ e, st vb w = .threw e vb' w' ∧ q = .unwind e vb')) : q.builder = some vb' := by
  rcases hq with ⟨-, rfl⟩ | ⟨-, rfl⟩ | ⟨e, -, rfl⟩ <;> rfl

theorem SameCore.goto (s : Sys κ) (p : ServerPc) : SameCore s (s.goto p) := ⟨rfl, rfl, rfl, rfl, rfl, rfl, rfl⟩

/-- The server moves on to a place where it uses no index, or the one it used. -/
theorem ServerMove.move {h : Host κ} {s s' : Sys κ} (hc : SameCore s s') (hp : s.server.plain) (hq : s'.server.plain)
    (hn : s'.server.uses = none ∨ s'.server.uses = s.server.uses) : ServerMove h s s' := by
  refine .quiet s' hc hp hq fun u he => .inl ?_
  rcases hn with hn | hn
  · rw [hn] at he; cases he
  · rw [← hn]; exact he

theorem vmAt_some {s : Sys κ} {id : Nat} {vb : VmBuilderQemu} (hv : s.vmAt id = some vb) :
    s.vmis[id]? = some vb ∧ ∀ pos ∈ s.erasePos, id < pos := by
  unfold Sys.vmAt at hv
  split at hv
  · rename_i hpos
    refine ⟨hv, fun pos hp => ?_⟩
    rw [Option.mem_def] at hp
    simpa [hp] using hpos
  · cases hv

theorem vmAt_get {s : Sys κ} {id : Nat} {vb : VmBuilderQemu} (hv : s.vmAt id = some vb) : s.vmis[id]? = some vb :=
  (vmAt_some hv).1

theorem vmAt_of {s : Sys κ} {id : Nat} {vb : VmBuilderQemu} (hv : s.vmis[id]? = some vb)
    (hpos : ∀ pos ∈ s.erasePos, id < pos) : s.vmAt id = some vb := by
  unfold Sys.vmAt
  rw [if_pos, hv]
  cases hp : s.erasePos with
  | none => rfl
  | some pos => exact decide_eq_true (hpos pos hp)

/-- While nothing is being moved every instance can be looked at. -/
theorem vmAt_still {s : Sys κ} {id : Nat} {vb : VmBuilderQemu} (hv : s.vmis[id]? = some vb) (hm : s.moving = false) :
    s.vmAt id = some vb := by
  refine vmAt_of hv fun pos hp => ?_
  rw [Sys.moving, Option.isSome_eq_false_iff, Option.isNone_iff_eq_none] at hm
  rw [Sys.erasePos, hm] at hp
  cases hp

theorem findVmInstance_some {vmis : List VmBuilderQemu} {name : String} {id : Nat}
    (h : findVmInstance vmis name = some id) : ∃ vb, vmis[id]? = some vb ∧ vb.name = name := by
  obtain ⟨hlt, hn, -⟩ := List.findIdx?_eq_some_iff_getElem.1 h
  exact ⟨vmis[id], List.getElem?_eq_getElem hlt, by simpa using hn⟩

theorem findVmInstance_none {vmis : List VmBuilderQemu} {name : String} :
    findVmInstance vmis name = none ↔ ∀ vb ∈ vmis, vb.name ≠ name := by
  rw [findVmInstance, List.findIdx?_eq_none_iff]
  simp

/-- An index that has just been looked up is good. -/
theorem good_of_find {s : Sys κ} {name : String} {id : Nat} (hf : findVmInstance s.vmis name = some id)
    (he : s.moving = false) : (⟨.found, some name, id⟩ : Use).Good s := by
  obtain ⟨vb, hv, hn⟩ := findVmInstance_some hf
  refine ⟨vb, vmAt_still hv he, fun n hn' => ?_⟩
  cases hn'
  exact hn

/-- Where reading the config takes the server: to the answer, out of the loop,
or on with the config. -/
theorem readConfig_cases (h : Host κ) (s : Sys κ) (path : String) (next : CivConfig → String → ServerPc) :
    ∃ q, readConfig h s path next = s.goto q ∧ (q = .reply (-1) ∨
      (∃ e, CivConfig.readConfigFile h s.world.kernel path = .error e ∧ path.isEmpty = false ∧ q = .exited e) ∨
      ∃ cfg, configName cfg ≠ "" ∧ q = next cfg (configName cfg)) := by
  unfold readConfig
  split
  · exact ⟨_, rfl, .inl rfl⟩
  · rename_i hp
    split
    · exact ⟨_, rfl, .inr (.inl ⟨_, ‹_›, Bool.eq_false_iff.2 hp, rfl⟩)⟩
    · exact ⟨_, rfl, .inl rfl⟩
    · split
      · exact ⟨_, rfl, .inl rfl⟩
      · rename_i hn
        exact ⟨_, rfl, .inr (.inr ⟨_, by simpa using hn, rfl⟩)⟩

/-- What a step of `BuildVmArgs` makes of the state: there was none left, or it
has returned or thrown, or it hangs. -/
theorem buildStep_cases (h : Host κ) (s : Sys κ) (p : Purpose) (vb : VmBuilderQemu) (i : Nat) :
    ((VmBuilderQemu.buildSteps h)[i]? = none ∧ buildStep h s p vb i = s.goto (.insert p vb)) ∨
    ∃ st, (VmBuilderQemu.buildSteps h)[i]? = some st ∧
      ((∃ vb' w q, ((st vb s.world = .ok vb' w ∧ q = .building p vb' (i + 1)) ∨
          (st vb s.world = .failed vb' w ∧ q = .discard vb') ∨ ∃ e, st vb s.world = .threw e vb' w ∧ q = .unwind e vb') ∧
        buildStep h s p vb i = { s with server := q, world := w }) ∨
       ∃ w, st vb s.world = .hung w ∧ buildStep h s p vb i = { s with server := .hung, world := w }) := by
  unfold buildStep
  split
  · exact .inl ⟨‹_›, rfl⟩
  · rename_i st hst
    refine .inr ⟨st, hst, ?_⟩
    split
    · exact .inl ⟨_, _, _, .inl ⟨‹_›, rfl⟩, rfl⟩
    · exact .inl ⟨_, _, _, .inr (.inl ⟨‹_›, rfl⟩), rfl⟩
    · exact .inl ⟨_, _, _, .inr (.inr ⟨_, ‹_›, rfl⟩), rfl⟩
    · exact .inr ⟨_, ‹_›, rfl⟩

theorem readConfig_move {h : Host κ} {s : Sys κ} {path : String} {next : CivConfig → String → ServerPc}
    (hp : s.server.plain) (hq : ∀ cfg name, (next cfg name).plain ∧ (next cfg name).uses = none) :
    ServerMove h s (readConfig h s path next) := by
  have hgo : ∀ q : ServerPc, q.plain → q.uses = none → ServerMove h s (s.goto q) := fun q h1 h2 =>
    .move (.goto s q) hp h1 (.inl h2)
  obtain ⟨q, he, rfl | ⟨e, -, -, rfl⟩ | ⟨cfg, -, rfl⟩⟩ := readConfig_cases h s path next <;> rw [he]
  · exact hgo _ ⟨rfl, rfl⟩ rfl
  · exact hgo _ ⟨rfl, rfl⟩ rfl
  · exact hgo _ (hq _ _).1 (hq _ _).2

theorem buildStep_move {h : Host κ} {s : Sys κ} {p : Purpose} {vb : VmBuilderQemu} {i : Nat}
    (hs : s.server = .building p vb i) : ServerMove h s (buildStep h s p vb i) := by
  rcases buildStep_cases h s p vb i with ⟨hn, he⟩ | ⟨st, hst, ⟨vb', w, q, hq, he⟩ | ⟨w, hh, he⟩⟩ <;> rw [he]
  · exact .built p vb i hs hn
  · exact .build p vb vb' w i st q hs hst hq
  · exact .hang p vb w i st hs hst hh

theorem ServerPc.plain.of_eq {p q : ServerPc} (h : p = q) (hq : q.plain) : p.plain := h ▸ hq

theorem lockVmis_some {s s' : Sys κ} {thread : Option Nat} {name : String} (hs : s.lockVmis thread name = some s') :
    s.deleting = none ∧ s' = { s with deleting := some ⟨thread, name⟩ } := by
  unfold Sys.lockVmis at hs
  split at hs
  · cases hs
  · rename_i hno
    exact ⟨by simpa using hno, (Option.some.inj hs).symm⟩

theorem ServerMove.of_undefined {h : Host κ} {s : Sys κ} : ServerMove h s s.undefined := .undefined s.accesses

theorem serverStep_move {h : Host κ} {s s' : Sys κ} (hs : serverStep h s = some s') : ServerMove h s s' := by
  have hplain : ∀ {p : ServerPc}, s.server = p → p.plain → s.server.plain := ServerPc.plain.of_eq
  have hstay : ∀ {p q : ServerPc}, s.server = p → q.uses = p.uses → q.uses = none ∨ q.uses = s.server.uses :=
    fun hp hq => .inr (hp ▸ hq)
  cases hpc : s.server <;> simp only [serverStep, hpc] at hs
  case loop | exited | hung => cases hs
  case stopFind name | infoFind name =>
    have hp := hplain hpc ⟨rfl, rfl⟩
    split at hs
    · cases hs
      exact .of_undefined
    · rename_i hm
      split at hs <;> cases hs
      · exact .move (.goto s _) hp ⟨rfl, rfl⟩ (.inl rfl)
      · rename_i hf
        refine .quiet _ (.goto s _) hp ⟨rfl, rfl⟩ fun u hu => .inr ?_
        cases hu
        exact good_of_find hf (Bool.eq_false_iff.2 hm)
  case stopName name id | stopCid name id | infoCid name id =>
    have hp := hplain hpc ⟨rfl, rfl⟩
    split at hs <;> cases hs
    · exact .undefined _
    · exact .move ⟨rfl, rfl, rfl, rfl, rfl, rfl, rfl⟩ hp ⟨rfl, rfl⟩ (hstay hpc rfl)
  case stopRpc name id cid =>
    cases hs
    have hp := hplain hpc ⟨rfl, rfl⟩
    by_cases hok : (h.shutdown s.world.kernel cid).1 = true
    · rw [if_pos hok]
      exact .move ⟨rfl, rfl, rfl, rfl, rfl, rfl, rfl⟩ hp ⟨rfl, rfl⟩ (.inl rfl)
    · rw [if_neg hok]
      exact .move ⟨rfl, rfl, rfl, rfl, rfl, rfl, rfl⟩ hp ⟨rfl, rfl⟩ (hstay hpc rfl)
  case stopStop name id =>
    split at hs <;> cases hs
    · exact .undefined _
    · exact .stop name id _ hpc ‹_›
  case stopping uid =>
    cases hs
    exact .move (.goto s _) (hplain hpc ⟨rfl, rfl⟩) ⟨rfl, rfl⟩ (.inl rfl)
  case infoConstruct name id =>
    have hp := hplain hpc ⟨rfl, rfl⟩
    split at hs <;> cases hs
    · exact .move ⟨rfl, rfl, rfl, rfl, rfl, rfl, rfl⟩ hp ⟨rfl, rfl⟩ (hstay hpc rfl)
    · exact .move ⟨rfl, rfl, rfl, rfl, rfl, rfl, rfl⟩ hp ⟨rfl, rfl⟩ (.inl rfl)
  case infoState name id cid =>
    have hp := hplain hpc ⟨rfl, rfl⟩
    split at hs <;> cases hs
    · exact .undefined _
    · exact .move ⟨rfl, rfl, rfl, rfl, rfl, rfl, rfl⟩ hp ⟨rfl, rfl⟩ (.inl rfl)
  case listConstruct =>
    have hp := hplain hpc ⟨rfl, rfl⟩
    split at hs
    · cases hs
      exact .of_undefined
    · split at hs <;> cases hs <;> exact .move ⟨rfl, rfl, rfl, rfl, rfl, rfl, rfl⟩ hp ⟨rfl, rfl⟩ (.inl rfl)
  case listItem i =>
    have hp := hplain hpc ⟨rfl, rfl⟩
    split at hs
    · cases hs
      exact .of_undefined
    · rename_i hm
      split at hs <;> cases hs
      · rename_i hlt
        refine .quiet _ (.goto s _) hp ⟨rfl, rfl⟩ fun u hu => .inr ?_
        cases hu
        exact ⟨s.vmis[i], vmAt_still (List.getElem?_eq_getElem hlt) (Bool.eq_false_iff.2 hm), nofun⟩
      · exact .move (.goto s _) hp ⟨rfl, rfl⟩ (.inl rfl)
  case listName i =>
    split at hs <;> cases hs
    · exact .of_undefined
    · rename_i vb hv
      refine .quiet _ (.goto s _) (hplain hpc ⟨rfl, rfl⟩) ⟨rfl, rfl⟩ fun u hu => .inr ?_
      cases hu
      refine ⟨vb, hv, fun n hn => ?_⟩
      cases hn
      rfl
  case listState i name =>
    have hp := hplain hpc ⟨rfl, rfl⟩
    split at hs
    · cases hs
      exact .of_undefined
    · split at hs <;> cases hs <;> exact .move ⟨rfl, rfl, rfl, rfl, rfl, rfl, rfl⟩ hp ⟨rfl, rfl⟩ (.inl rfl)
  case importRead path =>
    cases hs
    exact readConfig_move (hplain hpc ⟨rfl, rfl⟩) fun _ _ => ⟨⟨rfl, rfl⟩, rfl⟩
  case importFind cfg name =>
    have hp := hplain hpc ⟨rfl, rfl⟩
    split at hs
    · cases hs
      exact .of_undefined
    · rename_i hm
      split at hs <;> cases hs
      · exact .create .import name cfg hp ‹_›
      · rename_i hf
        refine .quiet _ (.goto s _) hp ⟨rfl, rfl⟩ fun u hu => .inr ?_
        cases hu
        exact good_of_find hf (Bool.eq_false_iff.2 hm)
  case importState cfg name id =>
    have hp := hplain hpc ⟨rfl, rfl⟩
    split at hs
    · cases hs
      exact .undefined _
    · split at hs <;> cases hs <;> exact .move ⟨rfl, rfl, rfl, rfl, rfl, rfl, rfl⟩ hp ⟨rfl, rfl⟩ (.inl rfl)
  case importLock cfg name =>
    obtain ⟨s₁, hlock, rfl⟩ := Option.map_eq_some_iff.1 hs
    obtain ⟨hno, rfl⟩ := lockVmis_some hlock
    exact .lock name cfg hpc hno
  case importDelete cfg name =>
    cases hs
    exact .overwrite name cfg hpc
  case startRead path env =>
    cases hs
    exact readConfig_move (hplain hpc ⟨rfl, rfl⟩) fun _ _ => ⟨⟨rfl, rfl⟩, rfl⟩
  case startFind cfg name env =>
    have hp := hplain hpc ⟨rfl, rfl⟩
    split at hs
    · cases hs
      exact .of_undefined
    · split at hs <;> cases hs
      · exact .move (.goto s _) hp ⟨rfl, rfl⟩ (.inl rfl)
      · exact .create _ name cfg hp ‹_›
  case building p vb i =>
    cases hs
    exact buildStep_move hpc
  case insert p vb =>
    split at hs
    · cases hs
      exact .of_undefined
    · rename_i hm
      have hm := Bool.eq_false_iff.2 hm
      cases p <;> cases hs
      · exact .insertImport vb hpc hm
      · exact .insertStart vb _ _ hpc hm
  case discard vb =>
    cases hs
    exact .drop vb _ (.inl ⟨hpc, rfl⟩)
  case unwind e vb =>
    cases hs
    exact .drop vb _ (.inr ⟨e, hpc, rfl⟩)
  case startGet pos uid env waitReady =>
    split at hs <;> cases hs
    · exact .of_undefined
    · exact .get pos uid env waitReady _ hpc (vmAt_some ‹_›).1
  case startWait uid waitReady =>
    split at hs <;> cases hs
    exact .pass uid waitReady hpc ‹_›
  case startState uid waitReady =>
    split at hs <;> cases hs
    · exact .of_undefined
    · exact .answer uid waitReady _ hpc ‹_›
  case reply ret =>
    cases hs
    exact .move ⟨rfl, rfl, rfl, rfl, rfl, rfl, rfl⟩ (hplain hpc ⟨rfl, rfl⟩) ⟨rfl, rfl⟩ (.inl rfl)
  case clear =>
    cases hs
    exact .move ⟨rfl, rfl, rfl, rfl, rfl, rfl, rfl⟩ (hplain hpc ⟨rfl, rfl⟩) ⟨rfl, rfl⟩ (.inl rfl)

theorem recv_move {h : Host κ} {s s' : Sys κ} {r : Request} (hs : recv s r = some s') : ServerMove h s s' := by
  unfold recv at hs
  split at hs <;> cases hs
  rename_i hpc
  refine .move ⟨rfl, rfl, rfl, rfl, rfl, rfl, rfl⟩ (.of_eq hpc ⟨rfl, rfl⟩) ?_ (.inl ?_)
  · cases r <;> exact ⟨rfl, rfl⟩
  · cases r <;> rfl

/-! ## The VM threads -/

/-- The steps of the thread of VM `uid`. -/
inductive ThreadMove (h : Host κ) (s : Sys κ) (uid : Nat) : Sys κ → Prop
  /-- The thread goes through the pointer to an instance that is gone. -/
  | undefined : s.thread uid ≠ .none → s.thread uid ≠ .done → s.thread uid ≠ .giveUpNotify → s.find uid = none →
      ThreadMove h s uid s.undefined
  | noMain (vb : VmBuilderQemu) : s.thread uid = .launch → s.find uid = some vb → vb.mainProc = none →
      ThreadMove h s uid (s.setThread uid .countDown)
  | stuck (vb : VmBuilderQemu) (main : VmProcess) : s.thread uid = .launch → s.find uid = some vb →
      vb.mainProc = some main →
      (∀ procs k, launchProcs h vb.coProcs s.world.kernel = some (procs, k) → main.run h k = none) →
      ThreadMove h s uid (s.setThread uid .stuck)
  | launch (vb : VmBuilderQemu) (procs : List VmProcess) (main₀ main : VmProcess) (k₀ k : κ) :
      s.thread uid = .launch → s.find uid = some vb → vb.mainProc = some main₀ →
      launchProcs h vb.coProcs s.world.kernel = some (procs, k₀) → main₀.run h k₀ = some (main, k) →
      ThreadMove h s uid (((s.updateVm uid fun vb => { vb with coProcs := procs, mainProc := some main }).setKernel
        k).setThread uid .booting)
  | booting (vb : VmBuilderQemu) : s.thread uid = .booting → s.find uid = some vb →
      ThreadMove h s uid ((s.updateVm uid ({ · with state := .booting })).setThread uid .countDown)
  | countReady : s.thread uid = .countDown → s.latch uid - 1 = 0 →
      ThreadMove h s uid ((s.tryCountDown uid).setThread uid .setReady)
  | countPending : s.thread uid = .countDown → s.latch uid - 1 ≠ 0 →
      ThreadMove h s uid ((s.tryCountDown uid).setThread uid .addPending)
  | setReady (vb : VmBuilderQemu) : s.thread uid = .setReady → s.find uid = some vb →
      ThreadMove h s uid ((s.updateVm uid ({ · with state := .running })).setThread uid .waitExit)
  | join (vb : VmBuilderQemu) : s.thread uid = .waitExit → s.find uid = some vb →
      vb.mainProc.any (·.mon) = true → ThreadMove h s uid (s.setThread uid .joining)
  | exited (vb : VmBuilderQemu) : s.find uid = some vb →
      (s.thread uid = .waitExit ∧ vb.mainProc.any (·.mon) = false) ∨
        (s.thread uid = .joining ∧ vb.mainProc.all (·.child = .attached false) = true) →
      ThreadMove h s uid (s.setThread uid .deleteLock)
  /-- The thread locks `vmis_mutex_`, on either way out. -/
  | lock (vb : VmBuilderQemu) (p : ThreadPc) : s.find uid = some vb → s.deleting = none →
      (s.thread uid = .deleteLock ∧ p = .delete) ∨ (s.thread uid = .giveUpLock ∧ p = .giveUp) →
      ThreadMove h s uid ({ s with deleting := some ⟨some uid, vb.name⟩ }.setThread uid p)
  | delete (vb : VmBuilderQemu) : s.thread uid = .delete → s.find uid = some vb → s.server ≠ .stopping uid →
      ThreadMove h s uid ((deleteVmInstance h s vb.name).setThread uid .done)
  | addPending (vb : VmBuilderQemu) : s.thread uid = .addPending → s.find uid = some vb →
      ThreadMove h s uid ({ s with pending := s.pending.add vb.vsockCid uid }.setThread uid (.waitReady 0))
  | sleep (vb : VmBuilderQemu) (n : Nat) : s.thread uid = .waitReady n → s.find uid = some vb → n < 200 →
      vb.mainProc.any (·.running) = true → ThreadMove h s uid (s.setThread uid (.sleepReady n))
  | givesUp (vb : VmBuilderQemu) (n : Nat) : s.thread uid = .waitReady n → s.find uid = some vb →
      ¬ (n < 200 ∧ vb.mainProc.any (·.running) = true) → ThreadMove h s uid (s.setThread uid .giveUpLock)
  | woken (vb : VmBuilderQemu) (n : Nat) : s.thread uid = .sleepReady n → s.find uid = some vb →
      vb.state = .running → ThreadMove h s uid (s.setThread uid .notifyReady)
  | again (vb : VmBuilderQemu) (n : Nat) : s.thread uid = .sleepReady n → s.find uid = some vb →
      vb.state ≠ .running → ThreadMove h s uid (s.setThread uid (.waitReady (n + 1)))
  | notifyReady : s.thread uid = .notifyReady → ThreadMove h s uid ((s.tryCountDown uid).setThread uid .waitExit)
  | giveUp (vb : VmBuilderQemu) : s.thread uid = .giveUp → s.find uid = some vb → s.server ≠ .stopping uid →
      ThreadMove h s uid ((deleteVmInstance h s vb.name).setThread uid .giveUpNotify)
  | giveUpNotify : s.thread uid = .giveUpNotify → ThreadMove h s uid ((s.tryCountDown uid).setThread uid .done)

theorem threadStepOn_move {h : Host κ} {s s' : Sys κ} {uid : Nat} {vb : VmBuilderQemu} (hf : s.find uid = some vb)
    (hs : threadStepOn h s uid vb = some s') : ThreadMove h s uid s' := by
  cases hpc : s.thread uid <;> simp only [threadStepOn, hpc] at hs
  case none | countDown | notifyReady | giveUpNotify | done | stuck => cases hs
  case launch =>
    split at hs
    · cases hs
      exact .noMain vb hpc hf ‹_›
    · rename_i main hmain
      split at hs <;> cases hs
      · rename_i hn
        refine .stuck vb main hpc hf hmain fun procs k hl => ?_
        rw [hl] at hn
        exact Option.map_eq_none_iff.1 hn
      · rename_i hl
        obtain ⟨⟨procs, k₀⟩, hprocs, hl⟩ := Option.bind_eq_some_iff.1 hl
        obtain ⟨⟨main', k⟩, hrun, he⟩ := Option.map_eq_some_iff.1 hl
        cases he
        exact .launch vb _ main _ k₀ _ hpc hf hmain hprocs hrun
  case booting =>
    cases hs
    exact .booting vb hpc hf
  case setReady =>
    cases hs
    exact .setReady vb hpc hf
  case waitExit =>
    cases hs
    by_cases hm : vb.mainProc.any (·.mon) = true
    · rw [if_pos hm]
      exact .join vb hpc hf hm
    · rw [if_neg hm]
      exact .exited vb hf (.inl ⟨hpc, by simpa using hm⟩)
  case joining =>
    split at hs <;> cases hs
    exact .exited vb hf (.inr ⟨hpc, ‹_›⟩)
  case deleteLock =>
    obtain ⟨s₁, hlock, rfl⟩ := Option.map_eq_some_iff.1 hs
    obtain ⟨hno, rfl⟩ := lockVmis_some hlock
    exact .lock vb _ hf hno (.inl ⟨hpc, rfl⟩)
  case delete =>
    split at hs <;> cases hs
    exact .delete vb hpc hf ‹_›
  case addPending =>
    cases hs
    exact .addPending vb hpc hf
  case waitReady n =>
    cases hs
    by_cases hn : n < 200 ∧ vb.mainProc.any (·.running) = true
    · rw [if_pos hn]
      exact .sleep vb n hpc hf hn.1 hn.2
    · rw [if_neg hn]
      exact .givesUp vb n hpc hf hn
  case sleepReady n =>
    cases hs
    by_cases hr : vb.state = .running
    · rw [if_pos hr]
      exact .woken vb n hpc hf hr
    · rw [if_neg hr]
      exact .again vb n hpc hf hr
  case giveUpLock =>
    obtain ⟨s₁, hlock, rfl⟩ := Option.map_eq_some_iff.1 hs
    obtain ⟨hno, rfl⟩ := lockVmis_some hlock
    exact .lock vb _ hf hno (.inr ⟨hpc, rfl⟩)
  case giveUp =>
    split at hs <;> cases hs
    exact .giveUp vb hpc hf ‹_›

theorem threadStep_move {h : Host κ} {s s' : Sys κ} {uid : Nat} (hs : threadStep h s uid = some s') :
    ThreadMove h s uid s' := by
  unfold threadStep at hs
  split at hs
  · cases hs
  · cases hs
  · cases hs
  · rename_i hpc
    cases hs
    have hl : (s.tryCountDown uid).latch uid = s.latch uid - 1 := by simp [Sys.tryCountDown]
    by_cases hz : s.latch uid - 1 = 0
    · rw [if_pos (hl.trans hz)]; exact .countReady hpc hz
    · rw [if_neg (hl ▸ hz)]; exact .countPending hpc hz
  · cases hs; exact .notifyReady ‹_›
  · cases hs; exact .giveUpNotify ‹_›
  · split at hs
    · cases hs; exact .undefined ‹_› ‹_› ‹_› ‹_›
    · exact threadStepOn_move ‹_› hs

/-! ## Everything else -/

/-- The changes that only touch the children of an instance's processes. -/
structure SameInstance (f : VmBuilderQemu → VmBuilderQemu) : Prop where
  uid : ∀ vb, (f vb).uid = vb.uid
  name : ∀ vb, (f vb).name = vb.name
  cid : ∀ vb, (f vb).vsockCid = vb.vsockCid
  stopped : ∀ vb, (f vb).stopped = vb.stopped
  state : ∀ vb, (f vb).state = vb.state
  main : ∀ vb, (f vb).mainProc.map (fun p => (p.kind, p.mon)) = vb.mainProc.map fun p => (p.kind, p.mon)
  procs : ∀ vb, (f vb).coProcs.map (·.kind) = vb.coProcs.map (·.kind)

theorem onProc_same (i : Nat) {f : VmProcess → VmProcess} (hk : ∀ p, (f p).kind = p.kind)
    (hm : ∀ p, (f p).mon = p.mon) : SameInstance (onProc i f) := by
  refine ⟨?_, ?_, ?_, ?_, ?_, fun vb => ?_, fun vb => ?_⟩
  case refine_6 =>
    cases i with
    | zero => simp [onProc, Option.map_map, Function.comp_def, hk, hm]
    | succ i => rfl
  case refine_7 =>
    cases i with
    | zero => rfl
    | succ i =>
      refine List.ext_getElem? fun j => ?_
      simp only [onProc, List.getElem?_map, List.getElem?_modify]
      split <;> cases vb.coProcs[j]? <;> simp [hk]
  all_goals intro vb; cases i <;> rfl

theorem exits_same (p : VmProcess) : p.exits.kind = p.kind ∧ p.exits.mon = p.mon := by
  unfold VmProcess.exits
  split <;> exact ⟨rfl, rfl⟩

theorem attaches_same (p : VmProcess) : p.attaches.kind = p.kind ∧ p.attaches.mon = p.mon := by
  unfold VmProcess.attaches
  split <;> exact ⟨rfl, rfl⟩

/-- The processes, the guests and the host. -/
inductive OtherMove (s : Sys κ) : Sys κ → Prop
  | undefined : OtherMove s s.undefined
  | proc (uid : Nat) (f : VmBuilderQemu → VmBuilderQemu) : SameInstance f → OtherMove s (s.updateVm uid f)
  | unknown (pending : PendingVms) : pending = s.pending → OtherMove s { s with pending }
  | vmReady (cid uid : Nat) (vb : VmBuilderQemu) : s.pending cid = some uid → s.find uid = some vb →
      OtherMove s { s.updateVm uid ({ · with state := .running }) with pending := s.pending.remove cid }
  | host (k : κ) : OtherMove s (s.setKernel k)

theorem vmReady_unknown {pending : PendingVms} {peer : String}
    (hp : ∀ cid, parsePeer peer = some cid → pending cid = none) :
    ∃ msg, pending.vmReady peer = (.failedPrecondition msg, none, pending) := by
  unfold PendingVms.vmReady
  cases hc : parsePeer peer with
  | none => exact ⟨_, rfl⟩
  | some cid =>
    dsimp only
    rw [hp cid hc]
    exact ⟨_, rfl⟩

theorem vmReady_known {pending : PendingVms} {peer : String} {cid uid : Nat} (hc : parsePeer peer = some cid)
    (hp : pending cid = some uid) : pending.vmReady peer = (.ok, some uid, pending.remove cid) := by
  unfold PendingVms.vmReady
  rw [hc]
  dsimp only
  rw [hp]

theorem rpcVmReady_move (s : Sys κ) (peer : String) : OtherMove s (rpcVmReady s peer).2 := by
  unfold rpcVmReady
  by_cases hp : ∀ cid, parsePeer peer = some cid → s.pending cid = none
  · obtain ⟨msg, he⟩ := vmReady_unknown hp
    rw [he]
    exact .unknown s.pending rfl
  · push Not at hp
    obtain ⟨cid, hc, hne⟩ := hp
    obtain ⟨uid, hp⟩ := Option.ne_none_iff_exists'.1 hne
    rw [vmReady_known hc hp]
    dsimp only
    cases hf : s.find uid with
    | none => exact .undefined
    | some vb => exact .vmReady cid uid vb hp hf

/-- Every action is a step of the server, of one VM thread or of the rest. -/
theorem step_move {h : Host κ} {s s' : Sys κ} {a : Act κ} (hs : step h s a = some s') :
    ((a = .server ∨ s.server = .loop) ∧ ServerMove h s s') ∨ (∃ uid, a = .thread uid ∧ ThreadMove h s uid s') ∨
      OtherMove s s' := by
  unfold step at hs
  split at hs
  · cases hs
  · split at hs
    · refine .inl ⟨.inr ?_, recv_move hs⟩
      unfold recv at hs
      split at hs
      · assumption
      · cases hs
    · exact .inl ⟨.inl rfl, serverStep_move hs⟩
    · exact .inr (.inl ⟨_, rfl, threadStep_move hs⟩)
    · cases hs
      exact .inr (.inr (.proc _ _ (onProc_same _ (fun p => (exits_same p).1) fun p => (exits_same p).2)))
    · cases hs
      exact .inr (.inr (.proc _ _ (onProc_same _ (fun p => (attaches_same p).1) fun p => (attaches_same p).2)))
    · cases hs; exact .inr (.inr (rpcVmReady_move s _))
    · cases hs; exact .inr (.inr (.host _))

theorem threadMove_of_step {h : Host κ} {s s' : Sys κ} {uid : Nat} (hs : step h s (.thread uid) = some s') :
    ThreadMove h s uid s' := by
  unfold step at hs
  split at hs
  · cases hs
  · exact threadStep_move hs

theorem serverStep_of_step {h : Host κ} {s s' : Sys κ} (hs : step h s .server = some s') :
    serverStep h s = some s' := by
  unfold step at hs
  split at hs
  · cases hs
  · exact hs

end VmManager
