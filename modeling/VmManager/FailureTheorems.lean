import VmManager.CidTheorems
/-!
# Theorems about requests that fail

A `StartVm` or `ImportVm` that fails before it has inserted its instance has
only a builder to get rid of, and the destructor of that gives its cid back.
`ImportVm` may have deleted another instance before it starts to build.
-/
open Text Runs

namespace VmManager

open VmBuilderQemu

variable {κ : Type}

/-! ## The cid of a builder -/

/-- The pool as the request found it, less the cid that the builder holds. -/
def Owes (pool₀ : VsockCidPool) (vb : VmBuilderQemu) (pool : VsockCidPool) : Prop :=
  (vb.vsockCid = 0 ∧ pool = pool₀) ∨
    (VsockCidPool.Valid vb.vsockCid ∧ pool₀.bs vb.vsockCid = true ∧ pool = pool₀.reset vb.vsockCid)

theorem VsockCidPool.set_reset {p : VsockCidPool} {cid : Nat} (hf : p.bs cid = true) : (p.reset cid).set cid = p := by
  cases p with
  | mk bs =>
    simp only [reset, set, Function.update_idem]
    rw [← hf, Function.update_eq_self]

/-- The destructor pays back. -/
theorem Owes.stopVm {pool₀ : VsockCidPool} {vb : VmBuilderQemu} {w : World κ} (ho : Owes pool₀ vb w.pool)
    (h : Host κ) : (vb.stopVm h w).2.pool = pool₀ := by
  rw [stopVm_pool]
  rcases ho with ⟨hc, hp⟩ | ⟨hv, hf, hp⟩
  · rw [hc, hp]
    rfl
  · have hin : ¬ (vb.vsockCid < 3 ∨ kCivMaxCidNum ≤ vb.vsockCid) := by
      have := hv.1
      have := hv.2
      omega
    rw [hp, VsockCidPool.releaseCid, if_neg hin]
    exact VsockCidPool.set_reset hf

/-- Up to `BuildVsockCmd` the builder has no cid. -/
structure Owing (pool₀ : VsockCidPool) (vb : VmBuilderQemu) (i : Nat) (pool : VsockCidPool) : Prop where
  owes : Owes pool₀ vb pool
  early : i ≤ vsockIdx → vb.vsockCid = 0

theorem Owing.next {h : Host κ} {pool₀ : VsockCidPool} {vb vb' : VmBuilderQemu} {w w' : World κ} {i : Nat} {st : Step κ}
    {p : Purpose} {q : ServerPc} (ho : Owing pool₀ vb i w.pool) (hst : (buildSteps h)[i]? = some st)
    (hq : (st vb w = .ok vb' w' ∧ q = .building p vb' (i + 1)) ∨ (st vb w = .failed vb' w' ∧ q = .discard vb') ∨
      (∃ e, st vb w = .threw e vb' w' ∧ q = .unwind e vb')) : Owing pool₀ vb' (i + 1) w'.pool := by
  by_cases hi : i = vsockIdx
  · subst hi
    have h0 := ho.early (Nat.le_refl _)
    refine ⟨?_, fun hle => absurd hle (Nat.not_succ_le_self _)⟩
    rcases ho.owes with ⟨-, hp⟩ | ⟨hv, -, -⟩
    · rcases (build_all (buildSteps_cidStep hst vb w) hq).cid with ⟨hc, hp'⟩ | ⟨hne, hc, hp'⟩
      · refine .inl ⟨?_, hp'.trans hp⟩
        rcases hc with hc | hc
        · rw [hc, h0]
        · exact hc
      · obtain ⟨hv, hf⟩ := cidFor_free hne
        rw [← hc] at hv hf hp'
        exact .inr ⟨hv, hp ▸ hf, by rw [hp', hp]⟩
    · rw [h0] at hv
      exact absurd hv.1 (by decide)
  · have hk := build_all (buildSteps_kept_of_ne hst hi vb w) hq
    refine ⟨?_, fun hle => ?_⟩
    · rw [Owes, hk.cid, hk.pool]
      exact ho.owes
    · rw [hk.cid]
      exact ho.early (Nat.le_of_succ_le hle)

/-! ## What goes on meanwhile -/

/-- Which instances are registered, whatever their threads do with them. -/
def registered (s : Sys κ) : List (Nat × String × Nat) := s.vmis.map fun vb => (vb.uid, vb.name, vb.vsockCid)

/-- No VM exits, and no other request is taken. -/
def aside (s : Sys κ) : Act κ → Bool
  | .recv _ => false
  | .thread uid => !(s.thread uid).leaving
  | _ => true

theorem keepsUse_of_aside {s : Sys κ} {a : Act κ} (hg : aside s a = true) (origins : Origin → Bool) :
    keepsUse origins s a = true := by
  cases a with
  | thread uid =>
    have hr : s.removal uid = none := if_neg (by simpa [aside] using hg)
    simp only [keepsUse, hr]
    cases s.server.uses <;> rfl
  | _ => rfl

theorem registered_updateVm_eq {s : Sys κ} {uid : Nat} {f : VmBuilderQemu → VmBuilderQemu}
    (hf : ∀ vb, (f vb).uid = vb.uid ∧ (f vb).name = vb.name ∧ (f vb).vsockCid = vb.vsockCid) :
    registered (s.updateVm uid f) = registered s :=
  updateVm_map s uid fun vb => by rw [(hf vb).1, (hf vb).2.1, (hf vb).2.2]

theorem thread_aside {h : Host κ} {s s' : Sys κ} {uid : Nat} (hg : aside s (.thread uid) = true)
    (hs : ThreadMove h s uid s') :
    s'.server = s.server ∧ s'.world.pool = s.world.pool ∧ registered s' = registered s := by
  refine ⟨hs.counted.server, ?_⟩
  cases hs with
  | launch vb procs main₀ main k₀ k => exact ⟨rfl, registered_updateVm_eq fun _ => ⟨rfl, rfl, rfl⟩⟩
  | booting vb => exact ⟨rfl, registered_updateVm_eq fun _ => ⟨rfl, rfl, rfl⟩⟩
  | setReady vb => exact ⟨rfl, registered_updateVm_eq fun _ => ⟨rfl, rfl, rfl⟩⟩
  | delete vb hpc | giveUp vb hpc =>
    rw [aside, hpc] at hg
    cases hg
  | _ => exact ⟨rfl, rfl⟩

theorem other_aside {s s' : Sys κ} (hs : OtherMove s s') :
    s'.server = s.server ∧ s'.world.pool = s.world.pool ∧ registered s' = registered s := by
  refine ⟨hs.frame.1, ?_⟩
  cases hs with
  | proc uid f hf => exact ⟨rfl, registered_updateVm_eq fun vb => ⟨hf.uid vb, hf.name vb, hf.cid vb⟩⟩
  | vmReady cid uid vb => exact ⟨rfl, registered_updateVm_eq fun _ => ⟨rfl, rfl, rfl⟩⟩
  | _ => exact ⟨rfl, rfl⟩

/-- Nobody but the server touches the registry, the pool or the server's
place. -/
theorem aside_frame {h : Host κ} {s s' : Sys κ} {a : Act κ} (hg : aside s a = true) (hs : step h s a = some s') :
    (a = .server ∧ serverStep h s = some s') ∨
      (s'.server = s.server ∧ s'.world.pool = s.world.pool ∧ registered s' = registered s) := by
  unfold step at hs
  split at hs
  · cases hs
  · split at hs
    · cases hg
    · exact .inl ⟨rfl, hs⟩
    · exact .inr (thread_aside hg (threadStep_move hs))
    · cases hs
      exact .inr (other_aside (.proc _ _ (onProc_same _ (fun p => (exits_same p).1) fun p => (exits_same p).2)))
    · cases hs
      exact .inr (other_aside (.proc _ _ (onProc_same _ (fun p => (attaches_same p).1) fun p => (attaches_same p).2)))
    · cases hs
      exact .inr (other_aside (rpcVmReady_move s _))
    · cases hs
      exact .inr ⟨rfl, rfl, rfl⟩

/-! ## Requests that have changed nothing yet -/

def Purpose.imports : Purpose → Bool
  | .import => true
  | .start .. => false

/-- A `StartVm` or `ImportVm` that has inserted nothing and deleted nothing owes
the pool at most the cid of its builder. -/
def Undone (imports : Bool) (pool₀ : VsockCidPool) (s : Sys κ) : Prop :=
  match s.server with
  | .startRead .. | .startFind .. => s.world.pool = pool₀ ∧ imports = false
  | .importRead _ | .importFind .. | .importState .. => s.world.pool = pool₀ ∧ imports = true
  | .reply _ | .clear | .loop | .exited _ => s.world.pool = pool₀
  | .building p vb i => Owing pool₀ vb i s.world.pool ∧ p.imports = imports
  | .insert p vb => Owes pool₀ vb s.world.pool ∧ p.imports = imports
  | .discard vb | .unwind _ vb => Owes pool₀ vb s.world.pool
  | .hung => True
  | _ => False

theorem undone_readConfig {h : Host κ} {s : Sys κ} {imports : Bool} {pool₀ : VsockCidPool}
    (hp : s.world.pool = pool₀) (path : String) {next : CivConfig → String → ServerPc}
    (hn : ∀ cfg name, Undone imports pool₀ (s.goto (next cfg name))) :
    Undone imports pool₀ (readConfig h s path next) := by
  obtain ⟨q, he, rfl | ⟨e, -, -, rfl⟩ | ⟨cfg, -, rfl⟩⟩ := readConfig_cases h s path next <;> rw [he]
  · exact hp
  · exact hp
  · exact hn _ _

theorem undone_startBuild {s : Sys κ} {pool₀ : VsockCidPool} (hp : s.world.pool = pool₀) (p : Purpose) (name : String)
    (cfg : CivConfig) : Undone p.imports pool₀ (startBuild s p name cfg) :=
  ⟨⟨.inl ⟨rfl, hp⟩, fun _ => rfl⟩, rfl⟩

theorem undone_buildStep {h : Host κ} {s : Sys κ} {imports : Bool} {pool₀ : VsockCidPool} {p : Purpose}
    {vb : VmBuilderQemu} {i : Nat} (ho : Owing pool₀ vb i s.world.pool) (hp : p.imports = imports) :
    Undone imports pool₀ (buildStep h s p vb i) := by
  rcases buildStep_cases h s p vb i with ⟨-, he⟩ | ⟨st, hst, ⟨vb', w, q, hq, he⟩ | ⟨w, -, he⟩⟩ <;> rw [he]
  · exact ⟨ho.owes, hp⟩
  · have hnext := ho.next hst hq
    rcases hq with ⟨-, rfl⟩ | ⟨-, rfl⟩ | ⟨e, -, rfl⟩
    · exact ⟨hnext, hp⟩
    · exact hnext.owes
    · exact hnext.owes
  · trivial

theorem readConfig_vmis (h : Host κ) (s : Sys κ) (path : String) (next : CivConfig → String → ServerPc) :
    (readConfig h s path next).vmis = s.vmis := by
  obtain ⟨q, he, -⟩ := readConfig_cases h s path next
  rw [he]
  rfl

theorem buildStep_vmis (h : Host κ) (s : Sys κ) (p : Purpose) (vb : VmBuilderQemu) (i : Nat) :
    (buildStep h s p vb i).vmis = s.vmis := by
  rcases buildStep_cases h s p vb i with ⟨-, he⟩ | ⟨st, -, ⟨vb', w, q, -, he⟩ | ⟨w, -, he⟩⟩ <;> simp only [he, Sys.goto]

/-- `ImportVm` is about to find that it may overwrite the instance it has
found. -/
def overwrites (s : Sys κ) : Act κ → Bool
  | .server =>
    match s.server with
    | .importState _ _ id => (s.vmAt id).any fun vb => vb.state = .created || vb.state = .empty
    | _ => false
  | _ => false

/-- The server's next step is `vmis_.insert`. -/
def inserts (s : Sys κ) : Act κ → Bool
  | .server =>
    match s.server with
    | .insert .. => true
    | _ => false
  | _ => false

theorem undone_server {h : Host κ} {s s' : Sys κ} {imports : Bool} {pool₀ : VsockCidPool} (hi : Undone imports pool₀ s)
    (hins : inserts s .server = false) (hover : imports = true → overwrites s .server = false) (hs : serverStep h s = some s') :
    Undone imports pool₀ s' ∧ s'.vmis = s.vmis := by
  cases hpc : s.server with
  | startRead path env =>
    simp only [Undone, hpc] at hi
    simp only [serverStep, hpc, Option.some.injEq] at hs
    rw [← hs]
    exact ⟨undone_readConfig hi.1 path fun _ _ => hi, readConfig_vmis ..⟩
  | importRead path =>
    simp only [Undone, hpc] at hi
    simp only [serverStep, hpc, Option.some.injEq] at hs
    rw [← hs]
    exact ⟨undone_readConfig hi.1 path fun _ _ => hi, readConfig_vmis ..⟩
  | startFind cfg name env =>
    have hgo := hi
    simp only [Undone, hpc] at hgo
    simp only [serverStep, hpc] at hs
    split at hs
    · cases hs
      exact ⟨hi, rfl⟩
    · split at hs <;> cases hs
      · exact ⟨hgo.1, rfl⟩
      · exact ⟨hgo.2 ▸ undone_startBuild hgo.1 (.start ..) name cfg, rfl⟩
  | importFind cfg name =>
    have hgo := hi
    simp only [Undone, hpc] at hgo
    simp only [serverStep, hpc] at hs
    split at hs
    · cases hs
      exact ⟨hi, rfl⟩
    · split at hs <;> cases hs
      · exact ⟨hgo.2 ▸ undone_startBuild hgo.1 .import name cfg, rfl⟩
      · exact ⟨hgo, rfl⟩
  | importState cfg name id =>
    have hpool := hi
    simp only [Undone, hpc] at hpool
    simp only [serverStep, hpc] at hs
    split at hs
    · cases hs
      exact ⟨hi, rfl⟩
    · rename_i vb hv
      split at hs <;> cases hs
      · exact ⟨hpool.1, rfl⟩
      · rename_i hst
        have hover := hover hpool.2
        simp only [overwrites, hpc, hv, Option.any_some, Bool.or_eq_false_iff, decide_eq_false_iff_not] at hover
        exact absurd hover hst
  | building p vb i =>
    simp only [Undone, hpc] at hi
    simp only [serverStep, hpc, Option.some.injEq] at hs
    rw [← hs]
    exact ⟨undone_buildStep hi.1 hi.2, buildStep_vmis ..⟩
  | insert p vb => simp only [inserts, hpc, reduceCtorEq] at hins
  | discard vb =>
    simp only [Undone, hpc] at hi
    simp only [serverStep, hpc, Option.some.injEq] at hs
    rw [← hs]
    exact ⟨hi.stopVm h, rfl⟩
  | unwind e vb =>
    simp only [Undone, hpc] at hi
    simp only [serverStep, hpc, Option.some.injEq] at hs
    rw [← hs]
    exact ⟨hi.stopVm h, rfl⟩
  | reply ret =>
    simp only [Undone, hpc] at hi
    simp only [serverStep, hpc, Option.some.injEq] at hs
    rw [← hs]
    exact ⟨hi, rfl⟩
  | clear =>
    simp only [Undone, hpc] at hi
    simp only [serverStep, hpc, Option.some.injEq] at hs
    rw [← hs]
    exact ⟨hi, rfl⟩
  | loop => simp only [serverStep, hpc, reduceCtorEq] at hs
  | exited e => simp only [serverStep, hpc, reduceCtorEq] at hs
  | hung => simp only [serverStep, hpc, reduceCtorEq] at hs
  | _ => simp only [Undone, hpc] at hi

theorem undone_step {h : Host κ} {s s' : Sys κ} {a : Act κ} {imports : Bool} {pool₀ : VsockCidPool}
    (hi : Undone imports pool₀ s) (hg : aside s a = true) (hins : inserts s a = false)
    (hover : imports = true → overwrites s a = false) (hs : step h s a = some s') :
    Undone imports pool₀ s' ∧ registered s' = registered s := by
  rcases aside_frame hg hs with ⟨rfl, hserver⟩ | ⟨hserver, hp, hv⟩
  · obtain ⟨hu, hv⟩ := undone_server hi hins hover hserver
    exact ⟨hu, by rw [registered, hv, registered]⟩
  · refine ⟨?_, hv⟩
    rw [Undone, hserver, hp]
    exact hi

/-- Whatever the server's state and whatever the config: a `StartVm` that
fails before `vmis_.insert`, while no VM exits, leaves the pool and the
registry as they were. -/
theorem failed_start_changes_nothing (h : Host κ) (s₀ s : Sys κ) (as : List (Act κ)) (path : String) (env : List String)
    (h0 : s₀.server = .startRead path env) (hr : run (step h) s₀ as = some s)
    (hg : Guarded (step h) (fun s a => aside s a = true ∧ inserts s a = false) s₀ as)
    (hend : s.server = .reply (-1) ∨ ∃ e, s.server = .exited e) :
    s.world.pool = s₀.world.pool ∧ registered s = registered s₀ ∧ ((∀ a ∈ as, a = .server) → s.vmis = s₀.vmis) := by
  have h0 : Undone false s₀.world.pool s₀ := by rw [Undone, h0]; exact ⟨rfl, rfl⟩
  have hu : Undone false s₀.world.pool s ∧ registered s = registered s₀ := by
    refine run_keeps_guarded (I := fun s => Undone false s₀.world.pool s ∧ registered s = registered s₀)
      (fun s a s' hi hg hs => ?_) hr hg ⟨h0, rfl⟩
    obtain ⟨hu, hv⟩ := undone_step hi.1 hg.1 hg.2 nofun hs
    exact ⟨hu, hv.trans hi.2⟩
  refine ⟨?_, hu.2, fun hall => ?_⟩
  · have hpool := hu.1
    rcases hend with hend | ⟨e, hend⟩ <;> simpa only [Undone, hend] using hpool
  · have hg' := guarded_and.2 ⟨hg, guarded_of_forall hall⟩
    refine (run_keeps_guarded (I := fun s => Undone false s₀.world.pool s ∧ s.vmis = s₀.vmis)
      (fun s a s' hi hg hs => ?_) hr hg' ⟨h0, rfl⟩).2
    obtain ⟨⟨haside, hins⟩, rfl⟩ := hg
    obtain ⟨hu, hv⟩ := undone_server hi.1 hins nofun (serverStep_of_step hs)
    exact ⟨hu, hv.trans hi.2⟩

/-- A config without firmware: `BuildFirmwareCmd` fails after the cid was
taken. -/
def noFirmwareHost : Host Unit := stillHost [("/vm.ini", "[global]\nname=vm\n")] []

/-- The server has the VM `a`, and is about to handle a request. -/
def requestAt (pc : ServerPc) : Sys Unit where
  vmis := [startedVm 0 "a" true]
  world := { kernel := () }
  server := pc
  nextUid := 1

theorem failed_start_changes_nothing_vm : ∃ s, run (step noFirmwareHost) (requestAt (.startRead "/vm.ini" []))
      (List.replicate 17 .server) = some s ∧
    s.server = .reply (-1) ∧ s.world.pool = {} ∧ s.vmis = [startedVm 0 "a" true] := by
  have hpc : (run (step noFirmwareHost) (requestAt (.startRead "/vm.ini" [])) (List.replicate 17 .server)).map
      (·.server) = some (.reply (-1)) := rfl
  obtain ⟨s, hs, hpc⟩ := Option.map_eq_some_iff.1 hpc
  obtain ⟨hpool, -, hvmis⟩ := failed_start_changes_nothing noFirmwareHost (requestAt (.startRead "/vm.ini" [])) s _
    "/vm.ini" [] rfl hs (by decide) (.inl hpc)
  exact ⟨s, hs, hpc, hpool, hvmis fun a ha => List.eq_of_mem_replicate ha⟩

/-! ## Imports that overwrite -/

/-- `ImportVm` has returned 0. -/
def Served (s : Sys κ) : Prop := s.server = .reply 0 ∨ s.server = .clear ∨ s.server = .loop

theorem served_server {h : Host κ} {s s' : Sys κ} (hi : Served s) (hs : serverStep h s = some s') : Served s' := by
  rcases hi with hpc | hpc | hpc <;> simp only [serverStep, hpc, Option.some.injEq, reduceCtorEq] at hs <;> rw [← hs]
  · exact .inr (.inl rfl)
  · exact .inr (.inr rfl)

/-- Up to the check that it may overwrite, `ImportVm` has changed nothing, or
it is through. -/
structure Harmless (s₀ s : Sys κ) : Prop where
  undone : Undone true s₀.world.pool s
  registered : registered s = registered s₀
  held : Held (· = .found) s

theorem harmless_step {h : Host κ} {s₀ s s' : Sys κ} {a : Act κ} (hi : Harmless s₀ s ∨ Served s)
    (hg : aside s a = true) (hover : overwrites s a = false) (hs : step h s a = some s') :
    Harmless s₀ s' ∨ Served s' := by
  rcases hi with hi | hi
  · by_cases hins : inserts s a = true
    · -- An import has nothing left to do but to answer.
      cases a with
      | server =>
        unfold inserts at hins
        dsimp only at hins
        split at hins
        · rename_i p vb hpc
          have hp := hi.undone
          simp only [Undone, hpc] at hp
          have hs := serverStep_of_step hs
          cases p with
          | «import» =>
            simp only [serverStep, hpc] at hs
            split at hs <;> cases hs
            · exact .inl ⟨hi.undone, hi.registered, .of_none (by rw [Sys.undefined, hpc]; rfl)⟩
            · exact .inr (.inl rfl)
          | start env waitReady => cases hp.2
        · cases hins
      | _ => cases hins
    · obtain ⟨hu, hv⟩ := undone_step hi.undone hg (Bool.eq_false_iff.2 hins) (fun _ => hover) hs
      exact .inl ⟨hu, hv.trans hi.registered, held_step hi.held (keepsUse_of_aside hg _) hs⟩
  · rcases aside_frame hg hs with ⟨-, hserver⟩ | ⟨hserver, -, -⟩
    · exact .inr (served_server hi hserver)
    · rw [Served, hserver]
      exact .inr hi

/-- Past that check the instance is going or gone, until the import is
through. -/
def Losing (n : Nat) (s : Sys κ) : Prop :=
  match s.server with
  | .importLock _ name | .importDelete _ name => (registered s).length = n ∧ ∃ r ∈ registered s, r.2.1 = name
  | .building p _ _ | .insert p _ => (registered s).length < n ∧ p.imports = true
  | .discard _ | .unwind .. | .exited _ | .hung => (registered s).length < n
  | .reply ret => (registered s).length < n ∨ ret = 0
  | .clear | .loop => True
  | _ => False

theorem losing_server {h : Host κ} {s s' : Sys κ} {n : Nat} (hi : Losing n s) (hs : serverStep h s = some s') :
    Losing n s' := by
  cases hpc : s.server with
  | importLock cfg name =>
    simp only [Losing, hpc] at hi
    simp only [serverStep, hpc] at hs
    obtain ⟨s₁, hlock, rfl⟩ := Option.map_eq_some_iff.1 hs
    obtain ⟨-, rfl⟩ := lockVmis_some hlock
    exact hi
  | importDelete cfg name =>
    simp only [Losing, hpc] at hi
    simp only [serverStep, hpc, Option.some.injEq] at hs
    obtain ⟨hlen, r, hr, hn⟩ := hi
    obtain ⟨vb, hv, rfl⟩ := List.mem_map.1 hr
    rw [← hs]
    refine ⟨?_, rfl⟩
    rcases deleteVmInstance_cases h s name with ⟨hf, -⟩ | ⟨id, vb', -, hv', -, he⟩
    · exact absurd hn (findVmInstance_none.1 hf vb hv)
    · obtain ⟨hlt, -⟩ := List.getElem?_eq_some_iff.1 hv'
      rw [registered, List.length_map] at hlen
      rw [startBuild, he, registered, List.length_map, List.length_eraseIdx_of_lt hlt]
      omega
  | building p vb i =>
    simp only [Losing, hpc] at hi
    simp only [serverStep, hpc, Option.some.injEq] at hs
    rw [← hs]
    rcases buildStep_cases h s p vb i with ⟨-, he⟩ | ⟨st, -, ⟨vb', w, q, hq, he⟩ | ⟨w, -, he⟩⟩ <;> rw [he]
    · exact hi
    · rcases hq with ⟨-, rfl⟩ | ⟨-, rfl⟩ | ⟨e, -, rfl⟩
      · exact hi
      · exact hi.1
      · exact hi.1
    · exact hi.1
  | insert p vb =>
    have himport := hi
    simp only [Losing, hpc] at himport
    cases p with
    | «import» =>
      simp only [serverStep, hpc] at hs
      split at hs <;> cases hs
      · exact hi
      · exact .inr rfl
    | start env waitReady => cases himport.2
  | discard vb =>
    simp only [Losing, hpc] at hi
    simp only [serverStep, hpc, Option.some.injEq] at hs
    rw [← hs]
    exact .inl hi
  | unwind e vb =>
    simp only [Losing, hpc] at hi
    simp only [serverStep, hpc, Option.some.injEq] at hs
    rw [← hs]
    exact hi
  | reply ret =>
    simp only [serverStep, hpc, Option.some.injEq] at hs
    rw [← hs]
    trivial
  | clear =>
    simp only [serverStep, hpc, Option.some.injEq] at hs
    rw [← hs]
    trivial
  | loop => simp only [serverStep, hpc, reduceCtorEq] at hs
  | exited e => simp only [serverStep, hpc, reduceCtorEq] at hs
  | hung => simp only [serverStep, hpc, reduceCtorEq] at hs
  | _ => simp only [Losing, hpc] at hi

theorem losing_step {h : Host κ} {s s' : Sys κ} {a : Act κ} {n : Nat} (hi : Losing n s) (hg : aside s a = true)
    (hs : step h s a = some s') : Losing n s' := by
  rcases aside_frame hg hs with ⟨-, hserver⟩ | ⟨hserver, -, hv⟩
  · exact losing_server hi hserver
  · rw [Losing, hserver, hv]
    exact hi

/-- The check lets `ImportVm` go on to delete the instance it has found. -/
theorem losing_of_overwrites {h : Host κ} {s₀ s s' : Sys κ} {a : Act κ} (hi : Harmless s₀ s ∨ Served s)
    (hover : overwrites s a = true) (hs : step h s a = some s') : Losing (registered s₀).length s' := by
  cases a with
  | server =>
    unfold overwrites at hover
    dsimp only at hover
    split at hover
    · rename_i cfg name id hpc
      rcases hi with hi | hi
      · obtain ⟨vb, hv, hn⟩ := hi.held ⟨.found, some name, id⟩ (by rw [hpc]; rfl) rfl
        rw [hv] at hover
        have hst : ¬ (vb.state ≠ .created ∧ vb.state ≠ .empty) := by
          rintro ⟨h1, h2⟩
          simp [h1, h2] at hover
        have hs := serverStep_of_step hs
        simp only [serverStep, hpc, hv, if_neg hst, Option.some.injEq] at hs
        rw [← hs]
        exact ⟨congrArg List.length hi.registered, _, List.mem_map_of_mem (List.mem_of_getElem? (vmAt_get hv)),
          hn name rfl⟩
      · rcases hi with hi | hi | hi <;> rw [hpc] at hi <;> cases hi
    · cases hover
  | _ => cases hover

/-- Whatever the server's state and whatever the config: an `ImportVm` that
returns -1, while no VM exits, leaves the registry and the pool as they were
exactly if it has not found an instance of that name which it may overwrite. -/
theorem failed_import_changes_nothing_iff (h : Host κ) (s₀ s : Sys κ) (as : List (Act κ)) (path : String)
    (h0 : s₀.server = .importRead path) (hr : run (step h) s₀ as = some s)
    (hg : Guarded (step h) (fun s a => aside s a = true) s₀ as) (hend : s.server = .reply (-1)) :
    (registered s = registered s₀ ∧ s.world.pool = s₀.world.pool) ↔
      Guarded (step h) (fun s a => overwrites s a = false) s₀ as := by
  have hstart : Harmless s₀ s₀ ∨ Served s₀ := by
    refine .inl ⟨?_, rfl, .of_none (by rw [h0]; rfl)⟩
    rw [Undone, h0]
    exact ⟨rfl, rfl⟩
  have hkeep : ∀ {as s}, run (step h) s₀ as = some s → Guarded (step h) (fun s a => aside s a = true) s₀ as →
      Guarded (step h) (fun s a => overwrites s a = false) s₀ as → Harmless s₀ s ∨ Served s := by
    intro as s hr hg hover
    exact run_keeps_guarded (I := fun s => Harmless s₀ s ∨ Served s)
      (fun s a s' hi hg hs => harmless_step hi hg.1 hg.2 hs) hr (guarded_and.2 ⟨hg, hover⟩) hstart
  constructor
  · rintro ⟨hv, -⟩
    by_contra hover
    obtain ⟨as₁, a, as₂, s₁, rfl, hr₁, hover₁, ha⟩ := not_guarded hover
    obtain ⟨s₁', hr₁', hr₂⟩ := run_append.1 hr
    cases hr₁.symm.trans hr₁'
    obtain ⟨hg₁, hg₂⟩ := guarded_append hg hr₁
    obtain ⟨s₂, hs₂, hr₂⟩ := run_cons.1 hr₂
    have hlose := losing_of_overwrites (hkeep hr₁ hg₁ hover₁) (by simpa using ha) hs₂
    have hlost := run_keeps_guarded (I := Losing (registered s₀).length) (fun _ _ _ hi hg hs => losing_step hi hg hs) hr₂
      (hg₂.2 s₂ hs₂) hlose
    simp only [Losing, hend, hv] at hlost
    rcases hlost with hlt | hret
    · exact absurd hlt (Nat.lt_irrefl _)
    · cases hret
  · intro hover
    rcases hkeep hr hg hover with hi | hi
    · have hpool := hi.undone
      simp only [Undone, hend] at hpool
      exact ⟨hi.registered, hpool⟩
    · rcases hi with hi | hi | hi <;> rw [hend] at hi <;> cases hi

theorem failed_import_changes_nothing_vm : ∃ s, run (step noFirmwareHost) (requestAt (.importRead "/vm.ini"))
      (List.replicate 17 .server) = some s ∧
    s.server = .reply (-1) ∧ registered s = [(0, "a", 1000)] ∧ s.world.pool = {} := by
  have hpc : (run (step noFirmwareHost) (requestAt (.importRead "/vm.ini")) (List.replicate 17 .server)).map
      (·.server) = some (.reply (-1)) := rfl
  obtain ⟨s, hs, hpc⟩ := Option.map_eq_some_iff.1 hpc
  obtain ⟨hv, hpool⟩ := (failed_import_changes_nothing_iff noFirmwareHost (requestAt (.importRead "/vm.ini")) s _
    "/vm.ini" rfl hs (by decide) hpc).2 (by decide)
  exact ⟨s, hs, hpc, hv, hpool⟩

/-- Two configs of one name, the second without firmware. -/
def sameNameHost : Host Unit :=
  stillHost [("/a.ini", "[global]\nname=vm\n[firmware]\ntype=unified\n"), ("/b.ini", "[global]\nname=vm\n")] []

/-- The first is imported, and the import of the second has arrived. -/
def importTwice : List (Act Unit) :=
  .recv (.importVm "/a.ini") :: List.replicate 33 .server ++ [.recv (.importVm "/b.ini")]

theorem failed_import_loses_instance : ∃ s₀ s, run (step sameNameHost) (Sys.init ()) importTwice = some s₀ ∧
    s₀.server = .importRead "/b.ini" ∧ s₀.vmis.map (fun vb => (vb.name, vb.state)) = [("vm", .created)] ∧
    run (step sameNameHost) s₀ (List.replicate 20 .server) = some s ∧ s.server = .reply (-1) ∧ s.vmis = [] ∧
    registered s ≠ registered s₀ := by
  have hpc : (run (step sameNameHost) (Sys.init ()) importTwice).map (fun s₀ =>
      (s₀.server, s₀.vmis.map (fun vb => (vb.name, vb.state)),
        (run (step sameNameHost) s₀ (List.replicate 20 .server)).map fun s => (s.server, s.vmis))) =
      some (.importRead "/b.ini", [("vm", .created)], some (.reply (-1), [])) := by decide +kernel
  obtain ⟨s₀, hs₀, he⟩ := Option.map_eq_some_iff.1 hpc
  obtain ⟨h0, he⟩ := Prod.mk.inj he
  obtain ⟨hcreated, he⟩ := Prod.mk.inj he
  obtain ⟨s, hs, he⟩ := Option.map_eq_some_iff.1 he
  obtain ⟨hend, hvmis⟩ := Prod.mk.inj he
  refine ⟨s₀, s, hs₀, h0, hcreated, hs, hend, hvmis, fun hsame => ?_⟩
  have hlen := congrArg List.length hsame
  have hlen₀ := congrArg List.length hcreated
  rw [registered, registered, hvmis, List.length_map, List.length_map] at hlen
  rw [List.length_map] at hlen₀
  rw [hlen₀] at hlen
  cases hlen

end VmManager
