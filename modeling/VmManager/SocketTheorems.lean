import VmManager.Endpoints
/-!
# Theorems about the sockets of the VMs

The cleanup of a power socket reads a static that every later build writes to,
and it is queued whether a path was found or not. A path counts as free until
the emulator that was given it has made the file.
-/
open Text Runs

namespace VmManager

open VmBuilderQemu

variable {κ : Type}

/-! ## What a step does to the cleanups -/

theorem restorePci_sockets (h : Host κ) (vb : VmBuilderQemu) (w : World κ) :
    (vb.runEndCall h w .restorePci).sockets = w.sockets := by
  rw [runEndCall]
  generalize vb.pciPtDevSet = devs
  induction devs generalizing w with
  | nil => rfl
  | cons dev devs ih => rw [List.foldl_cons, ih]; rfl

/-- The cleanups leave the static, and each one of a power socket removes the
path that it holds. -/
theorem runEndCalls_sockets (h : Host κ) (vb : VmBuilderQemu) (cs : List EndCall) (w : World κ) :
    (cs.foldl (vb.runEndCall h) w).sockets =
      (w.socketPath, w.removals ++ List.replicate (cs.count .removeSocket) w.socketPath) := by
  induction cs generalizing w with
  | nil => simp [World.sockets]
  | cons c cs ih =>
    rw [List.foldl_cons, ih]
    cases c with
    | probeSound => rfl
    | removeSocket =>
      rw [List.count_cons_self, List.replicate_succ, ← List.singleton_append, ← List.append_assoc]
      rfl
    | restorePci =>
      have hw := restorePci_sockets h vb w
      obtain ⟨hpath, hremovals⟩ := Prod.mk.inj hw
      rw [hpath, hremovals, List.count_cons_of_ne (by decide)]

/-- While `StopVm` runs its cleanups the static stays. -/
theorem stopVm_socketPath (h : Host κ) (vb : VmBuilderQemu) (w : World κ) :
    (vb.stopVm h w).2.socketPath = w.socketPath :=
  congrArg Prod.fst (runEndCalls_sockets h vb vb.endCall _)

theorem stopVm_removals (h : Host κ) (vb : VmBuilderQemu) (w : World κ) :
    (vb.stopVm h w).2.removals =
      w.removals ++ List.replicate (vb.endCall.count .removeSocket) w.socketPath :=
  congrArg Prod.snd (runEndCalls_sockets h vb vb.endCall _)

/-- The action runs `BuildExtraGuestPmCtrlCmd`. -/
def AtPower (s : Sys κ) (a : Act κ) : Prop := a = .server ∧ ∃ p vb, s.server = .building p vb powerIdx

theorem queued_of_count {vb vb' : VmBuilderQemu} (hc : vb'.endCall.count .removeSocket = vb.endCall.count .removeSocket) :
    vb'.queued = vb.queued := by
  unfold queued
  rw [Bool.eq_iff_iff, List.contains_iff_mem, List.contains_iff_mem, ← List.count_pos_iff, ← List.count_pos_iff, hc]

section

variable {h : Host κ} {s s' : Sys κ} {a : Act κ}

/-- Apart from `BuildExtraGuestPmCtrlCmd` only `StopVm` changes what is queued. -/
theorem Evolves.count {vb vb' : VmBuilderQemu} (he : Evolves h s a vb vb') (hn : ¬ AtPower s a) :
    (vb'.endCall.count .removeSocket = vb.endCall.count .removeSocket ∧ vb'.stopped = vb.stopped) ∨
      (stopping s a = some vb ∧ vb'.endCall = [] ∧ vb'.stopped = true) := by
  cases he with
  | build p i st q vb' w ha hpc hst hq =>
    have hi : i ≠ powerIdx := by
      rintro rfl
      exact hn ⟨ha, p, vb, hpc⟩
    exact .inl ⟨build_all (buildSteps_sockets hst hi vb s.world).1 hq,
      (build_all (buildSteps_cidStep hst vb s.world) hq).same.stopped⟩
  | stop hst => exact .inr ⟨hst, rfl, rfl⟩
  | exits i => cases i <;> exact .inl ⟨rfl, rfl⟩
  | attaches i => cases i <;> exact .inl ⟨rfl, rfl⟩
  | _ => exact .inl ⟨rfl, rfl⟩

theorem Evolves.queued {vb vb' : VmBuilderQemu} (he : Evolves h s a vb vb') (hn : ¬ AtPower s a) :
    (vb'.queued = vb.queued ∧ vb'.stopped = vb.stopped) ∨
      (stopping s a = some vb ∧ vb'.queued = false ∧ vb'.stopped = true) := by
  rcases he.count hn with ⟨hc, hstopped⟩ | ⟨hst, hnil, hstopped⟩
  · exact .inl ⟨queued_of_count hc, hstopped⟩
  · exact .inr ⟨hst, by rw [VmBuilderQemu.queued, hnil]; rfl, hstopped⟩

theorem step_socketPath (hr : Registry s) (hs : step h s a = some s') (hn : ¬ AtPower s a) :
    s'.world.socketPath = s.world.socketPath := by
  have hw := step_world hr hs
  generalize s'.world = w at hw ⊢
  cases hw with
  | host k => rfl
  | stop vb => exact stopVm_socketPath h vb s.world
  | build p vb i st ha hpc hst =>
    refine congrArg Prod.fst (buildSteps_sockets hst ?_ vb s.world).2
    rintro rfl
    exact hn ⟨ha, p, vb, hpc⟩

/-- Only the cleanups of a `StopVm` remove a socket. -/
theorem step_removals (hr : Registry s) (hs : step h s a = some s') :
    s'.world.removals = s.world.removals ++ (match stopping s a with
      | some vb => List.replicate (vb.endCall.count .removeSocket) s.world.socketPath
      | none => []) := by
  have hw := step_world hr hs
  generalize s'.world = w at hw ⊢
  cases hw with
  | host k hst => rw [hst, List.append_nil]
  | stop vb hst => rw [hst, stopVm_removals]
  | build p vb i st ha hpc hst =>
    have hnone : stopping s a = none := by rw [ha]; simp only [stopping, hpc]
    rw [hnone, List.append_nil, buildSteps_removals hst]

theorem recordEndpoints_power (e : Nat → Endpoints) (hn : ¬ AtPower s a) (uid : Nat) :
    (recordEndpoints h s a e uid).power = (e uid).power := by
  rcases recordEndpoints_cases h s a e with ⟨p, vb, i, rfl, hpc⟩ | he
  · rw [recordEndpoints_building h e hpc]
    by_cases hu : uid = vb.uid
    · subst hu
      rw [Function.update_self]
      dsimp only
      rw [if_neg]
      rintro rfl
      exact hn ⟨rfl, p, vb, hpc⟩
    · rw [Function.update_of_ne hu]
  · rw [he]

end

/-! ## Cleanups and the paths they are for -/

/-- What a step is to remove: the power socket that the VM it stops was given,
unless `StopVm` has run on that VM before. -/
def ownSocket (p : Sys κ × (Nat → Endpoints)) (a : Act κ) : List String :=
  match stopping p.1 a with
  | some vb => if vb.stopped then [] else (p.2 vb.uid).power.toList
  | none => []

/-- The step removes that, and it is not the power socket of another VM. -/
def RemovesOwn (h : Host κ) (p : Sys κ × (Nat → Endpoints)) (a : Act κ) : Prop :=
  ∀ s', step h p.1 a = some s' →
    ∃ paths, s'.world.removals = p.1.world.removals ++ paths ∧ paths = ownSocket p a ∧
      ∀ vb, stopping p.1 a = some vb → ∀ vb' ∈ live p.1, vb'.uid ≠ vb.uid → vb'.stopped = false →
        ∀ path ∈ paths, (p.2 vb'.uid).power ≠ some path

/-- `BuildExtraGuestPmCtrlCmd` with the option finds a free path, and no
registered VM has its cleanup still queued. -/
def soleSocket (h : Host κ) (s : Sys κ) : Act κ → Bool
  | .server =>
    match s.server with
    | .building _ vb i =>
      i ≠ powerIdx || vb.value kGroupExtra kExtraPwrCtrlMultiOS ≠ "true" ||
        ((vb.powerPath h s.world.kernel).isSome && s.vmis.all (!·.queued))
    | _ => true
  | _ => true

/-- What is queued and what was given out. -/
structure Cleanups (s : Sys κ) (e : Nat → Endpoints) : Prop where
  once : ∀ vb ∈ live s, vb.endCall.count .removeSocket ≤ 1
  kept : ∀ vb ∈ live s, vb.stopped = false → (e vb.uid).power ≠ none → vb.queued = true
  done : ∀ vb ∈ live s, vb.stopped = true → vb.queued = false
  builder : ∀ vb, s.server.builder = some vb → vb.stopped = false
  early : ∀ p vb i, s.server = .building p vb i → i ≤ powerIdx → vb.queued = false

/-- At most one cleanup is queued, and the static holds its path. -/
structure Sole (s : Sys κ) (e : Nat → Endpoints) : Prop where
  own : ∀ vb ∈ live s, vb.queued = true → (e vb.uid).power = some s.world.socketPath
  unique : ∀ vb ∈ live s, ∀ vb' ∈ live s, vb.queued = true → vb'.queued = true → vb'.uid = vb.uid

section

variable {h : Host κ} {s s' : Sys κ} {a : Act κ} {e : Nat → Endpoints}

/-- What `BuildExtraGuestPmCtrlCmd` has done to the builder `vb`, which is `vb'`
after it. -/
structure PowerStep (h : Host κ) (s s' : Sys κ) (e e' : Nat → Endpoints) (vb vb' : VmBuilderQemu) : Prop where
  before : ∃ p, s.server = .building p vb powerIdx
  after : s'.server.builder = some vb'
  uid : vb'.uid = vb.uid
  vmis : s'.vmis = s.vmis
  given : (e' vb.uid).power = vb.powerPath h s.world.kernel
  others : ∀ v ∈ s.vmis, (e' v.uid).power = (e v.uid).power
  effect : (vb.value kGroupExtra kExtraPwrCtrlMultiOS ≠ "true" ∧ vb.powerPath h s.world.kernel = none ∧ vb' = vb ∧
      s'.world = s.world) ∨
    (vb.value kGroupExtra kExtraPwrCtrlMultiOS = "true" ∧ vb'.endCall = vb.endCall ++ [.removeSocket] ∧
      ∀ path, vb.powerPath h s.world.kernel = some path → s'.world.socketPath = path)

theorem step_atPower (hr : Registry s) (hs : step h s a = some s') (ha : AtPower s a) :
    ∃ vb vb', PowerStep h s s' e (recordEndpoints h s a e) vb vb' := by
  obtain ⟨rfl, p, vb, hpc⟩ := ha
  have hs := serverStep_of_step hs
  simp only [serverStep, hpc, Option.some.injEq] at hs
  obtain ⟨vb', w, he, heffect⟩ := buildExtra_cases h vb s.world
  have hs' : s' = { s with server := .building p vb' (powerIdx + 1), world := w } := by
    rw [← hs, buildStep, powerIdx, buildSteps_idx]
    dsimp only
    rw [ArgStep.run, he]
  subst hs'
  have hb : s.server.builder = some vb := by rw [hpc]; rfl
  refine ⟨vb, vb', ⟨p, hpc⟩, rfl, ?_, rfl, ?_, fun v hv => ?_, ?_⟩
  · rcases heffect with ⟨-, -, rfl, -⟩ | ⟨-, hu, -⟩
    · rfl
    · exact hu
  · rw [recordEndpoints_building h e hpc, Function.update_self]
    dsimp only
    exact if_pos rfl
  · rw [recordEndpoints_building h e hpc, Function.update_of_ne ((hr.builder vb hb).2.2.2 v hv).1]
  · rcases heffect with ⟨hv, hnone, hvb, hw⟩ | ⟨hv, -, -, hq, hpath⟩
    · exact .inl ⟨hv, hnone, hvb, hw⟩
    · exact .inr ⟨hv, hq, fun path hp => (hpath path hp).1⟩

theorem PowerStep.live {e' : Nat → Endpoints} {vb vb' v : VmBuilderQemu} (hp : PowerStep h s s' e e' vb vb') :
    v ∈ live s' ↔ v ∈ s.vmis ∨ v = vb' := by
  rw [mem_live, hp.vmis, hp.after]
  exact or_congr Iff.rfl ⟨fun hv => (Option.some.inj hv).symm, fun hv => hv ▸ rfl⟩

theorem queued_of_append {vb vb' : VmBuilderQemu} (hc : vb'.endCall = vb.endCall ++ [.removeSocket]) :
    vb'.queued = true := by
  rw [queued, hc, List.contains_iff_mem]
  exact List.mem_append_right _ List.mem_cons_self

theorem count_of_queued {vb : VmBuilderQemu} (hq : vb.queued = false) : vb.endCall.count .removeSocket = 0 := by
  rw [List.count_eq_zero]
  intro hm
  rw [queued, List.contains_iff_mem.2 hm] at hq
  cases hq

/-- Before `BuildExtraGuestPmCtrlCmd` nothing is queued. -/
theorem early_step (hi : Cleanups s e) (hs : step h s a = some s') :
    ∀ p vb i, s'.server = .building p vb i → i ≤ powerIdx → vb.queued = false := by
  intro p vb' i' hpc hle
  rcases step_building hs hpc with ⟨-, hpc⟩ | ⟨-, name, cfg, rfl⟩ | ⟨vb, i, st, w, -, rfl, hpc, hst, he⟩
  · exact hi.early p vb' i' hpc hle
  · rfl
  · have hall := (buildSteps_sockets hst (by omega) vb s.world).1
    rw [he] at hall
    cases hall with
    | ok hc => exact (queued_of_count hc).trans (hi.early p vb i hpc (by omega))

theorem cleanups_step (hr : Registry s) (hg : Given s e) (hi : Cleanups s e) (hs : step h s a = some s') :
    Cleanups s' (recordEndpoints h s a e) := by
  have hbuilder : ∀ vb, s'.server.builder = some vb → vb.stopped = false := by
    intro vb' hb
    rcases step_builder hs hb with ⟨name, cfg, rfl⟩ | ⟨vb, hv, -, hstopped⟩
    · rfl
    · exact hstopped.trans (hi.builder vb hv)
  by_cases ha : AtPower s a
  · obtain ⟨vb, vb', hp⟩ := step_atPower (e := e) hr hs ha
    refine ⟨fun v hv => ?_, fun v hv hst hne => ?_, fun v hv hst => ?_, hbuilder, early_step hi hs⟩
    · rcases hp.live.1 hv with hv | rfl
      · exact hi.once v (mem_live.2 (.inl hv))
      · obtain ⟨p, hpc⟩ := hp.before
        have hzero := count_of_queued (hi.early p vb powerIdx hpc (Nat.le_refl _))
        rcases hp.effect with ⟨-, -, rfl, -⟩ | ⟨-, hc, -⟩
        · omega
        · rw [hc, List.count_append, hzero]
          decide
    · rcases hp.live.1 hv with hv | rfl
      · rw [hp.others v hv] at hne
        exact hi.kept v (mem_live.2 (.inl hv)) hst hne
      · rw [hp.uid, hp.given] at hne
        rcases hp.effect with ⟨-, hnone, -⟩ | ⟨-, hq, -⟩
        · exact absurd hnone hne
        · exact queued_of_append hq
    · rcases hp.live.1 hv with hv | rfl
      · exact hi.done v (mem_live.2 (.inl hv)) hst
      · rw [hbuilder v hp.after] at hst
        cases hst
  · refine ⟨fun v hv => ?_, fun v hv hst hne => ?_, fun v hv hst => ?_, hbuilder, early_step hi hs⟩
    · rcases step_live hr hs v hv with ⟨name, cfg, rfl⟩ | ⟨vb, hvb, he⟩
      · exact Nat.zero_le 1
      · rcases he.count ha with ⟨hc, -⟩ | ⟨-, hnil, -⟩
        · exact hc.trans_le (hi.once vb hvb)
        · rw [hnil]
          exact Nat.zero_le 1
    · rw [recordEndpoints_power e ha] at hne
      rcases step_live hr hs v hv with ⟨name, cfg, rfl⟩ | ⟨vb, hvb, he⟩
      · rw [hg.fresh _ (Nat.le_refl _)] at hne
        exact absurd rfl hne
      · rcases he.queued ha with ⟨hq, hstopped⟩ | ⟨-, -, hstopped⟩
        · rw [hq]
          exact hi.kept vb hvb (hstopped.symm.trans hst) (he.identity.uid ▸ hne)
        · rw [hstopped] at hst
          cases hst
    · rcases step_live hr hs v hv with ⟨name, cfg, rfl⟩ | ⟨vb, hvb, he⟩
      · rfl
      · rcases he.queued ha with ⟨hq, hstopped⟩ | ⟨-, hq, -⟩
        · rw [hq]
          exact hi.done vb hvb (hstopped.symm.trans hst)
        · exact hq

theorem sole_atPower (hr : Registry s) (hc : Cleanups s e) (hi : Sole s e) (hsole : soleSocket h s a = true)
    (hs : step h s a = some s') (ha : AtPower s a) : Sole s' (recordEndpoints h s a e) := by
  obtain ⟨vb, vb', hp⟩ := step_atPower (e := e) hr hs ha
  obtain ⟨p, hpc⟩ := hp.before
  rcases hp.effect with ⟨-, hnone, rfl, hw⟩ | ⟨hv, hq, hpath⟩
  · -- Without the option nothing is queued for the builder.
    have hno : vb'.queued = false := hc.early p vb' powerIdx hpc (Nat.le_refl _)
    have hback : ∀ v ∈ live s', v.queued = true → v ∈ s.vmis := by
      intro v hm hq
      rcases hp.live.1 hm with hm | rfl
      · exact hm
      · rw [hno] at hq
        cases hq
    refine ⟨fun v hm hq => ?_, fun v hm v' hm' hq hq' => ?_⟩
    · have hm := hback v hm hq
      rw [hp.others v hm, hw]
      exact hi.own v (mem_live.2 (.inl hm)) hq
    · exact hi.unique v (mem_live.2 (.inl (hback v hm hq))) v' (mem_live.2 (.inl (hback v' hm' hq'))) hq hq'
  · have hq := queued_of_append hq
    have hsole : (vb.powerPath h s.world.kernel).isSome = true ∧ ∀ v ∈ s.vmis, v.queued = false := by
      simpa [soleSocket, ha.1, hpc, hv] using hsole
    obtain ⟨hsome, hnone⟩ := hsole
    obtain ⟨path, hsome⟩ := Option.isSome_iff_exists.1 hsome
    have honly : ∀ v ∈ live s', v.queued = true → v = vb' := by
      intro v hm hq
      refine (hp.live.1 hm).resolve_left fun hm => ?_
      rw [hnone v hm] at hq
      cases hq
    refine ⟨fun v hm hq => ?_, fun v hm v' hm' hq hq' => ?_⟩
    · rw [honly v hm hq, hp.uid, hp.given, hsome, hpath path hsome]
    · rw [honly v hm hq, honly v' hm' hq']

theorem sole_aside (hr : Registry s) (hi : Sole s e) (hs : step h s a = some s') (ha : ¬ AtPower s a) :
    Sole s' (recordEndpoints h s a e) := by
  have hback : ∀ v ∈ live s', v.queued = true → ∃ vb ∈ live s, vb.queued = true ∧ vb.uid = v.uid := by
    intro v hv hq
    rcases step_live hr hs v hv with ⟨name, cfg, rfl⟩ | ⟨vb, hvb, he⟩
    · cases hq
    · rcases he.queued ha with ⟨hsame, -⟩ | ⟨-, hno, -⟩
      · exact ⟨vb, hvb, hsame ▸ hq, he.identity.uid.symm⟩
      · rw [hno] at hq
        cases hq
  refine ⟨fun v hv hq => ?_, fun v hv v' hv' hq hq' => ?_⟩
  · obtain ⟨vb, hvb, hq, hu⟩ := hback v hv hq
    rw [recordEndpoints_power e ha, ← hu, step_socketPath hr hs ha]
    exact hi.own vb hvb hq
  · obtain ⟨vb, hvb, hq, hu⟩ := hback v hv hq
    obtain ⟨vb', hvb', hq', hu'⟩ := hback v' hv' hq'
    rw [← hu, ← hu']
    exact hi.unique vb hvb vb' hvb' hq hq'

theorem sole_step (hr : Registry s) (hc : Cleanups s e) (hi : Sole s e) (hsole : soleSocket h s a = true)
    (hs : step h s a = some s') : Sole s' (recordEndpoints h s a e) := by
  by_cases ha : AtPower s a
  · exact sole_atPower hr hc hi hsole hs ha
  · exact sole_aside hr hi hs ha

/-- What is queued for a VM is one cleanup of its own path, or none. -/
theorem replicate_own (hi : Cleanups s e) (hsole : Sole s e) {vb : VmBuilderQemu} (hvb : vb ∈ live s) :
    List.replicate (vb.endCall.count .removeSocket) s.world.socketPath =
      if vb.stopped then [] else (e vb.uid).power.toList := by
  cases hq : vb.queued with
  | true =>
    have hstopped : vb.stopped = false := by
      refine Bool.eq_false_iff.2 fun hst => ?_
      rw [hi.done vb hvb hst] at hq
      cases hq
    have hone : vb.endCall.count .removeSocket = 1 :=
      Nat.le_antisymm (hi.once vb hvb) (List.count_pos_iff.2 (List.contains_iff_mem.1 hq))
    rw [hone, hstopped, hsole.own vb hvb hq]
    rfl
  | false =>
    rw [count_of_queued hq]
    cases hstopped : vb.stopped with
    | true => rfl
    | false =>
      have hnone : (e vb.uid).power = none := by
        by_contra hne
        rw [hi.kept vb hvb hstopped hne] at hq
        cases hq
      rw [hnone]
      rfl

theorem removesOwn_of_sole (hr : Registry s) (hi : Cleanups s e) (hsole : Sole s e) : RemovesOwn h (s, e) a := by
  intro s' hs
  refine ⟨_, step_removals hr hs, ?_, fun vb hst vb' hvb' hne hstopped path hpath hpower => ?_⟩
  · unfold ownSocket
    cases hst : stopping s a with
    | none => rfl
    | some vb => exact replicate_own hi hsole (stopping_live hst)
  · have hq' := hi.kept vb' hvb' hstopped (by rw [hpower]; exact nofun)
    dsimp only at hst hpath
    have hq : vb.queued = true := by
      by_contra hq
      rw [hst] at hpath
      dsimp only at hpath
      rw [count_of_queued (Bool.eq_false_iff.2 hq)] at hpath
      cases hpath
    exact hne (hsole.unique vb (stopping_live hst) vb' hvb' hq hq')

/-- A queued cleanup stays queued, or it is run. -/
theorem queued_stays (hr : Registry s) (hs : step h s a = some s') (hn : ¬ AtPower s a) (hh : s'.server ≠ .hung)
    {vb : VmBuilderQemu} (hm : vb ∈ live s) (hq : vb.queued = true) :
    (∃ vb' ∈ live s', vb'.queued = true ∧ vb'.uid = vb.uid) ∨ stopping s a = some vb := by
  rcases live_stays hr hs hm with ⟨vb', hm', hu⟩ | hst | hhung
  · rcases step_live hr hs vb' hm' with ⟨name, cfg, rfl⟩ | ⟨vb₀, hm₀, he⟩
    · exact absurd hu (Nat.ne_of_gt (hr.live_lt hm))
    · obtain rfl := hr.eq_of_live hm₀ hm (he.identity.uid.symm.trans hu)
      rcases he.queued hn with ⟨hsame, -⟩ | ⟨hst, -⟩
      · exact .inl ⟨vb', hm', hsame.trans hq, hu⟩
      · exact .inr hst
  · exact .inr hst
  · exact absurd hhung hh

theorem soleSocket_aside (hn : ¬ AtPower s a) : soleSocket h s a = true := by
  unfold soleSocket
  split
  · split
    · rename_i p vb i hpc
      have hi : i ≠ powerIdx := by
        rintro rfl
        exact hn ⟨rfl, p, vb, hpc⟩
      simp [hi]
    · rfl
  · rfl

theorem Cleanups.running (hc : Cleanups s e) {vb : VmBuilderQemu} (hm : vb ∈ live s) (hq : vb.queued = true) :
    vb.stopped = false := by
  refine Bool.eq_false_iff.2 fun hst => ?_
  rw [hc.done vb hm hst] at hq
  cases hq

theorem sole_of_atPower (hr : Registry s) (hc : Cleanups s e) (hs : step h s a = some s') (ha : AtPower s a)
    (hsole : Sole s' (recordEndpoints h s a e)) : Sole s e ∧ soleSocket h s a = true := by
  obtain ⟨vb, vb', hp⟩ := step_atPower (e := e) hr hs ha
  obtain ⟨p, hpc⟩ := hp.before
  have hb : s.server.builder = some vb := by rw [hpc]; rfl
  have hreg : ∀ v ∈ live s, v.queued = true → v ∈ s.vmis := by
    intro v hm hq
    refine (mem_live.1 hm).resolve_right fun hv => ?_
    cases hb.symm.trans hv
    rw [hc.early p vb powerIdx hpc (Nat.le_refl _)] at hq
    cases hq
  rcases hp.effect with ⟨hv, -, -, hw⟩ | ⟨hv, hc', -⟩
  · refine ⟨⟨fun v hm hq => ?_, fun v hm v' hm' hq hq' => ?_⟩, by simp [soleSocket, ha.1, hpc, hv]⟩
    · have hm := hreg v hm hq
      rw [← hp.others v hm, ← hw]
      exact hsole.own v (hp.live.2 (.inl hm)) hq
    · exact hsole.unique v (hp.live.2 (.inl (hreg v hm hq))) v' (hp.live.2 (.inl (hreg v' hm' hq'))) hq hq'
  · -- The builder is the only one, so no registered VM has a cleanup queued.
    have hq' := queued_of_append hc'
    have hnone : ∀ v ∈ s.vmis, v.queued = false := by
      intro v hm
      refine Bool.eq_false_iff.2 fun hq => ?_
      have hu := hsole.unique vb' (hp.live.2 (.inr rfl)) v (hp.live.2 (.inl hm)) hq' hq
      exact ((hr.builder vb hb).2.2.2 v hm).1 (hu.trans hp.uid)
    have hpath := hsole.own vb' (hp.live.2 (.inr rfl)) hq'
    rw [hp.uid, hp.given] at hpath
    have hempty : ∀ v ∈ live s, v.queued ≠ true := fun v hm hq => by
      rw [hnone v (hreg v hm hq)] at hq
      cases hq
    refine ⟨⟨fun v hm hq => absurd hq (hempty v hm), fun v hm _ _ hq => absurd hq (hempty v hm)⟩, ?_⟩
    simpa [soleSocket, ha.1, hpc, hv, hpath] using hnone

/-- What the step that stops a VM has removed. -/
theorem RemovesOwn.of_stopping (hown : RemovesOwn h (s, e) a) (hr : Registry s) (hc : Cleanups s e)
    (hs : step h s a = some s') {vb : VmBuilderQemu} (hst : stopping s a = some vb) (hq : vb.queued = true) :
    (e vb.uid).power = some s.world.socketPath ∧
      ∀ vb' ∈ live s, vb'.uid ≠ vb.uid → vb'.stopped = false → (e vb'.uid).power ≠ some s.world.socketPath := by
  obtain ⟨paths, hpaths, howned, hothers⟩ := hown s' hs
  have hlog := step_removals hr hs
  rw [hst] at hlog
  have hremoved := List.append_cancel_left (hpaths.symm.trans hlog)
  have hmem : s.world.socketPath ∈ paths := by
    rw [hremoved]
    exact List.mem_replicate.2 ⟨(List.count_pos_iff.2 (List.contains_iff_mem.1 hq)).ne', rfl⟩
  refine ⟨?_, fun vb' hvb' hne hstopped => hothers vb hst vb' hvb' hne hstopped _ hmem⟩
  rw [howned] at hmem
  simp only [ownSocket, hst, hc.running (stopping_live hst) hq, Bool.false_eq_true, if_false, Option.mem_toList] at hmem
  exact hmem

theorem sole_of_aside (hr : Registry s) (hc : Cleanups s e) (hown : RemovesOwn h (s, e) a) (hs : step h s a = some s')
    (hh : s'.server ≠ .hung) (ha : ¬ AtPower s a) (hsole : Sole s' (recordEndpoints h s a e)) : Sole s e := by
  have hpath : ∀ vb ∈ live s, vb.queued = true → (e vb.uid).power = some s.world.socketPath := by
    intro vb hm hq
    rcases queued_stays hr hs ha hh hm hq with ⟨vb', hm', hq', hu⟩ | hst
    · rw [← recordEndpoints_power e ha, ← hu, ← step_socketPath hr hs ha]
      exact hsole.own vb' hm' hq'
    · exact (hown.of_stopping hr hc hs hst hq).1
  -- A VM that is stopped while another has its path queued takes it away from that one.
  have hstop : ∀ vb ∈ live s, ∀ vb' ∈ live s, vb.queued = true → vb'.queued = true → stopping s a = some vb →
      vb'.uid = vb.uid := by
    intro vb hm vb' hm' hq hq' hst
    by_contra hne
    exact (hown.of_stopping hr hc hs hst hq).2 vb' hm' hne (hc.running hm' hq') (hpath vb' hm' hq')
  refine ⟨hpath, fun vb hm vb' hm' hq hq' => ?_⟩
  rcases queued_stays hr hs ha hh hm hq with ⟨v, hv, hvq, hu⟩ | hst
  · rcases queued_stays hr hs ha hh hm' hq' with ⟨v', hv', hvq', hu'⟩ | hst
    · rw [← hu, ← hu']
      exact hsole.unique v hv v' hv' hvq hvq'
    · exact (hstop vb' hm' vb hm hq' hq hst).symm
  · exact hstop vb hm vb' hm' hq hq' hst

/-- When every `StopVm` removes its own VM's socket, a state that comes to have
at most one cleanup, with its path in the static, has come from such a state by
a build that keeps to it. -/
theorem sole_of_next (hr : Registry s) (hc : Cleanups s e) (hown : RemovesOwn h (s, e) a) (hs : step h s a = some s')
    (hh : s'.server ≠ .hung) (hsole : Sole s' (recordEndpoints h s a e)) : Sole s e ∧ soleSocket h s a = true := by
  by_cases ha : AtPower s a
  · exact sole_of_atPower hr hc hs ha hsole
  · exact ⟨sole_of_aside hr hc hown hs hh ha hsole, soleSocket_aside ha⟩

theorem step_hung (hs : step h s a = some s') (hh : s.server = .hung) : s'.server = .hung := by
  rcases step_server hs with ⟨-, hs⟩ | ⟨r, hl, -⟩ | ⟨-, hsame⟩
  · simp only [serverStep, hh, reduceCtorEq] at hs
  · rw [hh] at hl
    cases hl
  · exact hsame.trans hh

end

/-- What holds in every run of what is remembered. -/
structure Remembered (p : Sys κ × (Nat → Endpoints)) : Prop where
  registry : Registry p.1
  given : Given p.1 p.2
  cleanups : Cleanups p.1 p.2

theorem remembered_step {h : Host κ} {p p' : Sys κ × (Nat → Endpoints)} {a : Act κ} (hi : Remembered p)
    (hs : withHistory (step h) (recordEndpoints h) p a = some p') : Remembered p' := by
  obtain ⟨hs, he⟩ := withHistory_eq.1 hs
  constructor
  · exact registry_step hi.registry hs
  · rw [← he]
    exact given_step hi.registry hi.given hs
  · rw [← he]
    exact cleanups_step hi.registry hi.given hi.cleanups hs

theorem remembered_init (k : κ) : Remembered (Sys.init k, fun _ => {}) :=
  ⟨registry_init k, given_init k, fun _ hm => (nomatch hm), fun _ hm => (nomatch hm), fun _ hm => (nomatch hm),
    fun _ he => (nomatch he), fun _ _ _ he => nomatch he⟩

/-- Nothing is queued. -/
theorem Sole.of_none {s : Sys κ} {e : Nat → Endpoints} (hn : ∀ vb ∈ live s, vb.queued = false) : Sole s e := by
  refine ⟨fun vb hm hq => ?_, fun vb hm _ _ hq => ?_⟩ <;> rw [hn vb hm] at hq <;> cases hq

/-- In every run, every `StopVm` removes its own VM's power socket and no other
if `BuildExtraGuestPmCtrlCmd` with the option always finds a free path and no
other cleanup queued; and only if, when every cleanup has run at the end and the
server does not hang. The socket is the one in the VM's command. -/
theorem stopVm_removes_own_socket_iff (h : Host κ) (k : κ) (s : Sys κ) (e : Nat → Endpoints) (as : List (Act κ))
    (hr : run (withHistory (step h) (recordEndpoints h)) (Sys.init k, fun _ => {}) as = some (s, e)) :
    (Guarded (withHistory (step h) (recordEndpoints h)) (fun p a => soleSocket h p.1 a = true)
        (Sys.init k, fun _ => {}) as →
      Guarded (withHistory (step h) (recordEndpoints h)) (RemovesOwn h) (Sys.init k, fun _ => {}) as) ∧
    ((∀ vb ∈ live s, vb.queued = false) → s.server ≠ .hung →
      Guarded (withHistory (step h) (recordEndpoints h)) (RemovesOwn h) (Sys.init k, fun _ => {}) as →
      Guarded (withHistory (step h) (recordEndpoints h)) (fun p a => soleSocket h p.1 a = true)
        (Sys.init k, fun _ => {}) as) ∧
    ∀ vb ∈ s.vmis, ∀ path, (e vb.uid).power = some path → Mentions vb (powerOption path) := by
  refine ⟨fun hg => ?_, fun hn hh hg => ?_, fun vb hm => ?_⟩
  · refine guarded_imp (I := fun p => Remembered p ∧ Sole p.1 p.2) (fun p a p' hi hg hs => ?_)
      (fun p a hi _ => removesOwn_of_sole hi.1.registry hi.1.cleanups hi.2) ⟨remembered_init k, .of_none fun _ hm => nomatch hm⟩ hg
    obtain ⟨hstep, he⟩ := withHistory_eq.1 hs
    refine ⟨remembered_step hi.1 hs, ?_⟩
    rw [← he]
    exact sole_step hi.1.registry hi.1.cleanups hi.2 hg hstep
  · refine (guarded_of_end (I := Remembered) (Q := fun p => Sole p.1 p.2 ∧ p.1.server ≠ .hung)
      (fun p a p' hi _ hs => remembered_step hi hs) (fun p a p' hi hown hs hq => ?_) hr hg (remembered_init k)
      ⟨.of_none hn, hh⟩).2
    obtain ⟨hs, he⟩ := withHistory_eq.1 hs
    obtain ⟨hsole, hsocket⟩ := sole_of_next hi.registry hi.cleanups hown hs hq.2 (he ▸ hq.1)
    exact ⟨⟨hsole, fun hh => hq.2 (step_hung hs hh)⟩, hsocket⟩
  · have hend := run_keeps (fun _ _ _ hi hs => remembered_step hi hs) hr (remembered_init k)
    exact (hend.given.instances vb hm).power

/-- A config with a power socket, and a host that has the files. -/
def powerHost (files : List String) : Host Unit :=
  stillHost (("/vm.ini", vmConfig "" ++ "[extra]\npwr_ctrl_multios=true\n") :: files.map fun path => (path, "")) []

/-- The VM is started, and `StopVm` is about to run on it. -/
def upToStop : List (Act Unit) := startUp "/vm.ini" 0 ++ .recv (.stopVm "vm") :: List.replicate 4 .server

/-- The path that is free goes to the VM, and its `StopVm` removes it. -/
theorem stopVm_removes_own_socket_vm : ∃ s e vb s',
    run (withHistory (step (powerHost [])) (recordEndpoints (powerHost []))) (Sys.init (), fun _ => {}) upToStop =
      some (s, e) ∧ stopping s .server = some vb ∧ step (powerHost []) s .server = some s' ∧
    (e vb.uid).power = some "/tmp/qmp-pwr-socket-0" ∧ s'.world.removals = ["/tmp/qmp-pwr-socket-0"] := by
  have he : (run (withHistory (step (powerHost [])) (recordEndpoints (powerHost []))) (Sys.init (), fun _ => {})
      (upToStop ++ [.server])).isSome = true ∧
      (run (withHistory (step (powerHost [])) (recordEndpoints (powerHost []))) (Sys.init (), fun _ => {}) upToStop).map
        (fun p => (p.1.world.removals, (step (powerHost []) p.1 .server).isSome,
          (stopping p.1 .server).map fun vb => (vb.stopped, (p.2 vb.uid).power))) =
        some ([], true, some (false, some "/tmp/qmp-pwr-socket-0")) := by decide +kernel
  obtain ⟨hall, he⟩ := he
  obtain ⟨⟨s', e'⟩, hall⟩ := Option.isSome_iff_exists.1 hall
  obtain ⟨⟨s, e⟩, hs, he⟩ := Option.map_eq_some_iff.1 he
  obtain ⟨hnone, he⟩ := Prod.mk.inj he
  obtain ⟨hstep, he⟩ := Prod.mk.inj he
  obtain ⟨s₁, hstep⟩ := Option.isSome_iff_exists.1 hstep
  obtain ⟨vb, hst, he⟩ := Option.map_eq_some_iff.1 he
  obtain ⟨hstopped, hpower⟩ := Prod.mk.inj he
  have hg := (stopVm_removes_own_socket_iff (powerHost []) () s' e' _ hall).1 (by decide +kernel)
  obtain ⟨paths, hremovals, hown, -⟩ := (guarded_append hg hs).2.1 s₁ hstep
  dsimp only at hst hremovals hnone hpower
  simp only [ownSocket, hst, hstopped, Bool.false_eq_true, if_false, hpower, Option.toList_some] at hown
  rw [hnone, hown] at hremovals
  exact ⟨s, e, vb, s₁, hs, hst, hstep, hpower, hremovals⟩

/-- All seven paths are taken: the VM is given none, and its `StopVm` removes
the last one. -/
theorem stopVm_removes_foreign_socket :
    ¬ Guarded (withHistory (step (powerHost powerPaths)) (recordEndpoints (powerHost powerPaths)))
      (RemovesOwn (powerHost powerPaths)) (Sys.init (), fun _ => {}) (upToStop ++ [.server]) := by
  intro hg
  have he : (run (withHistory (step (powerHost powerPaths)) (recordEndpoints (powerHost powerPaths)))
      (Sys.init (), fun _ => {}) upToStop).map (fun p =>
        (p.1.world.removals, (step (powerHost powerPaths) p.1 .server).map (·.world.removals),
          (stopping p.1 .server).map fun vb => (vb.stopped, (p.2 vb.uid).power))) =
          some ([], some ["/tmp/qmp-pwr-socket-6"], some (false, none)) := by decide +kernel
  obtain ⟨⟨s, e⟩, hs, he⟩ := Option.map_eq_some_iff.1 he
  obtain ⟨hnone, he⟩ := Prod.mk.inj he
  obtain ⟨hstep, he⟩ := Prod.mk.inj he
  obtain ⟨s₁, hstep, hremoved⟩ := Option.map_eq_some_iff.1 hstep
  obtain ⟨vb, hst, he⟩ := Option.map_eq_some_iff.1 he
  obtain ⟨hstopped, hpower⟩ := Prod.mk.inj he
  obtain ⟨paths, hremovals, hown, -⟩ := (guarded_append hg hs).2.1 s₁ hstep
  dsimp only at hst hremovals hnone hpower
  simp only [ownSocket, hst, hstopped, Bool.false_eq_true, if_false, hpower, Option.toList_none] at hown
  rw [hnone, hown, hremoved] at hremovals
  cases hremovals

/-! ## Two VMs with one path -/

/-- Everything the VM was given. -/
def Endpoints.paths (e : Endpoints) : List String := e.rpmb.toList ++ e.power.toList

/-- A VM that is given an RPMB socket is built at a time whose text none of the
registered VMs has in its own, and when a VM is to be given a power socket, the
file of each one that a registered VM has is there, or an earlier one is not. -/
def givesNew (h : Host κ) (p : Sys κ × (Nat → Endpoints)) : Act κ → Bool
  | .server =>
    match p.1.server with
    | .building _ vb i =>
      (i ≠ rpmbIdx || (vb.value kGroupRpmb kRpmbBinPath).isEmpty || (vb.value kGroupRpmb kRpmbDataDir).isEmpty ||
        p.1.vmis.all fun v =>
          (p.2 v.uid).rpmb ≠ some (kRpmbSockPrefix ++ h.strftime p.1.world.kernel "%Y-%m-%d_%T")) &&
      (i ≠ powerIdx || vb.value kGroupExtra kExtraPwrCtrlMultiOS ≠ "true" ||
        p.1.vmis.all fun v => (p.2 v.uid).power.all fun path =>
          h.access p.1.world.kernel path ||
            (powerPaths.takeWhile (· ≠ path)).any fun earlier => !h.access p.1.world.kernel earlier)
    | _ => true
  | _ => true

/-- The path that is found is not there, and all those before it are. -/
theorem find_free {paths : List String} {there : String → Bool} {path : String}
    (hf : paths.find? (fun p => !there p) = some path) :
    there path = false ∧ ∀ earlier ∈ paths.takeWhile (· ≠ path), there earlier = true := by
  obtain ⟨hp, before, after, rfl, hbefore⟩ := List.find?_eq_some_iff_append.1 hf
  simp only [Bool.not_eq_true', Bool.not_not] at hp hbefore
  refine ⟨hp, fun earlier hm => hbefore earlier ?_⟩
  -- The path itself ends what is taken, so all of it comes from `before`.
  rw [List.takeWhile_append] at hm
  split at hm
  · simpa using hm
  · exact (List.takeWhile_sublist _).subset hm

section

variable {h : Host κ} {s s' : Sys κ} {a : Act κ} {e : Nat → Endpoints}

/-- No two VMs have been given one path of a kind. -/
def Apart (kind : Endpoints → Option String) (s : Sys κ) (e : Nat → Endpoints) : Prop :=
  ∀ v ∈ live s, ∀ v' ∈ live s, v.uid ≠ v'.uid → ∀ path, kind (e v.uid) = some path → kind (e v'.uid) ≠ some path

theorem apart_step {kind : Endpoints → Option String} (hkind : kind {} = none) (hr : Registry s) (hg : Given s e)
    (hi : Apart kind s e) (hs : step h s a = some s')
    (hnew : ∀ p vb i, a = .server → s.server = .building p vb i → ∀ path,
      kind (recordEndpoints h s a e vb.uid) = some path → kind (e vb.uid) = some path ∨
        ∀ v ∈ s.vmis, kind (e v.uid) ≠ some path) :
    Apart kind s' (recordEndpoints h s a e) := by
  intro v hv v' hv' hne path hp hp'
  -- A VM that has a path was there before the step.
  have hback : ∀ v ∈ live s', kind (recordEndpoints h s a e v.uid) = some path → ∃ vb ∈ live s, vb.uid = v.uid := by
    intro v hv hp
    rcases step_live hr hs v hv with ⟨name, cfg, rfl⟩ | ⟨vb, hvb, he⟩
    · rw [recordEndpoints_of_ne h a e fun p vb i hpc => Nat.ne_of_lt (hr.builder vb (by rw [hpc]; rfl)).1,
        hg.fresh _ (Nat.le_refl _), hkind] at hp
      cases hp
    · exact ⟨vb, hvb, he.identity.uid.symm⟩
  obtain ⟨vb, hm, hu⟩ := hback v hv hp
  obtain ⟨vb', hm', hu'⟩ := hback v' hv' hp'
  rw [← hu] at hp hne
  rw [← hu'] at hp' hne
  rcases recordEndpoints_cases h s a e with ⟨p, b, i, rfl, hpc⟩ | he
  · have hb : s.server.builder = some b := by rw [hpc]; rfl
    -- The registered VMs keep what they have.
    have hreg : ∀ w ∈ live s, w.uid ≠ b.uid → w ∈ s.vmis ∧ recordEndpoints h s .server e w.uid = e w.uid := by
      intro w hw hn
      refine ⟨(mem_live.1 hw).resolve_right fun hb' => ?_, ?_⟩
      · cases hb.symm.trans hb'
        exact hn rfl
      · rw [recordEndpoints_building h e hpc, Function.update_of_ne hn]
    have hbuilder : ∀ w ∈ live s, ∀ w' ∈ live s, w.uid = b.uid → w'.uid ≠ b.uid →
        kind (recordEndpoints h s .server e w.uid) = some path →
        kind (recordEndpoints h s .server e w'.uid) ≠ some path := by
      intro w hw w' hw' hwb hn hp hp'
      obtain ⟨hmem, hsame⟩ := hreg w' hw' hn
      rw [hsame] at hp'
      rw [hwb] at hp
      rcases hnew p b i rfl hpc path hp with hold | hother
      · exact hi w hw w' hw' (hwb ▸ Ne.symm hn) path (hwb ▸ hold) hp'
      · exact hother w' hmem hp'
    by_cases hvb : vb.uid = b.uid
    · exact hbuilder vb hm vb' hm' hvb (fun hvb' => hne (hvb.trans hvb'.symm)) hp hp'
    · by_cases hvb' : vb'.uid = b.uid
      · exact hbuilder vb' hm' vb hm hvb' hvb hp' hp
      · rw [(hreg vb hm hvb).2] at hp
        rw [(hreg vb' hm' hvb').2] at hp'
        exact hi vb hm vb' hm' hne path hp hp'
  · rw [he] at hp hp'
    exact hi vb hm vb' hm' hne path hp hp'

theorem rpmb_ne_power : rpmbIdx ≠ powerIdx := by decide

theorem apart_rpmb_step (hr : Registry s) (hg : Given s e) (hi : Apart (·.rpmb) s e)
    (hnew : givesNew h (s, e) a = true) (hs : step h s a = some s') : Apart (·.rpmb) s' (recordEndpoints h s a e) := by
  refine apart_step rfl hr hg hi hs fun p vb i ha hpc path hp => ?_
  subst ha
  rw [recordEndpoints_building h e hpc, Function.update_self] at hp
  dsimp only at hp
  split at hp
  · rename_i hidx
    subst hidx
    refine .inr fun v hv he => ?_
    unfold rpmbPath at hp
    split at hp
    · rename_i hc
      simp only [Bool.and_eq_true, Bool.not_eq_true'] at hc
      have htime : ∀ v ∈ s.vmis, (e v.uid).rpmb ≠ some (kRpmbSockPrefix ++ h.strftime s.world.kernel "%Y-%m-%d_%T") := by
        simpa [givesNew, hpc, hc.1, hc.2, rpmb_ne_power] using hnew
      cases hp
      exact htime v hv he
    · cases hp
  · exact .inl hp

theorem apart_power_step (hr : Registry s) (hg : Given s e) (hi : Apart (·.power) s e)
    (hnew : givesNew h (s, e) a = true) (hs : step h s a = some s') : Apart (·.power) s' (recordEndpoints h s a e) := by
  refine apart_step rfl hr hg hi hs fun p vb i ha hpc path hp => ?_
  subst ha
  rw [recordEndpoints_building h e hpc, Function.update_self] at hp
  dsimp only at hp
  split at hp
  · rename_i hidx
    subst hidx
    refine .inr fun v hv he => ?_
    unfold powerPath at hp
    split at hp
    · rename_i hc
      obtain ⟨hfree, hearlier⟩ := find_free hp
      have hmade : ∀ v ∈ s.vmis, ∀ path, (e v.uid).power = some path → h.access s.world.kernel path = true ∨
          ∃ earlier ∈ powerPaths.takeWhile (· ≠ path), h.access s.world.kernel earlier = false := by
        simpa [givesNew, hpc, hc, rpmb_ne_power.symm, Option.all_eq_true] using hnew
      rcases hmade v hv path he with hthere | ⟨earlier, hm, hno⟩
      · rw [hfree] at hthere
        cases hthere
      · rw [hearlier earlier hm] at hno
        cases hno
    · cases hp
  · exact .inl hp

end

/-- The paths of the two kinds differ in the sixth character. -/
theorem rpmb_not_power (time : String) : kRpmbSockPrefix ++ time ∉ powerPaths := by
  intro hm
  have hpower : ∀ path ∈ powerPaths, path.toList[5]? = some 'q' := by decide
  have hq := hpower _ hm
  rw [String.toList_append, List.getElem?_append_left (by decide)] at hq
  cases hq

theorem paths_disjoint {e e' : Endpoints} (hk : OfKinds e) (hk' : OfKinds e')
    (hr : ∀ path, e.rpmb = some path → e'.rpmb ≠ some path) (hp : ∀ path, e.power = some path → e'.power ≠ some path) :
    e.paths.Disjoint e'.paths := by
  intro path hm hm'
  simp only [Endpoints.paths, List.mem_append, Option.mem_toList] at hm hm'
  rcases hm with hm | hm <;> rcases hm' with hm' | hm'
  · exact hr path hm hm'
  · obtain ⟨time, rfl⟩ := hk.rpmb path hm
    exact rpmb_not_power time (hk'.power _ hm')
  · obtain ⟨time, rfl⟩ := hk'.rpmb path hm'
    exact rpmb_not_power time (hk.power _ hm)
  · exact hp path hm hm'

/-- In every run in which a VM's RPMB socket has a new time and the power socket
that is found free is no registered VM's, no two registered VMs have a path in
common, and the paths are those in the commands. -/
theorem endpoints_differ (h : Host κ) (k : κ) (s : Sys κ) (e : Nat → Endpoints) (as : List (Act κ))
    (hr : run (withHistory (step h) (recordEndpoints h)) (Sys.init k, fun _ => {}) as = some (s, e))
    (hg : Guarded (withHistory (step h) (recordEndpoints h)) (fun p a => givesNew h p a = true)
      (Sys.init k, fun _ => {}) as) :
    s.vmis.Pairwise (fun vb vb' => (e vb.uid).paths.Disjoint (e vb'.uid).paths) ∧
    ∀ vb ∈ s.vmis, InCommand (e vb.uid) vb := by
  obtain ⟨hm, hrpmb, hpower⟩ : Remembered (s, e) ∧ Apart (·.rpmb) s e ∧ Apart (·.power) s e := by
    refine run_keeps_guarded (I := fun p => Remembered p ∧ Apart (·.rpmb) p.1 p.2 ∧ Apart (·.power) p.1 p.2)
      (fun p a p' hi hnew hs => ?_) hr hg ⟨remembered_init k, fun _ hm => (nomatch hm), fun _ hm => nomatch hm⟩
    obtain ⟨hm, hrpmb, hpower⟩ := hi
    refine ⟨remembered_step hm hs, ?_⟩
    obtain ⟨hs, he⟩ := withHistory_eq.1 hs
    rw [← he]
    exact ⟨apart_rpmb_step hm.registry hm.given hrpmb hnew hs, apart_power_step hm.registry hm.given hpower hnew hs⟩
  refine ⟨(List.pairwise_map.1 hm.registry.uids).imp_of_mem fun {vb vb'} hv hv' hne => ?_, hm.given.instances⟩
  have hl := mem_live.2 (.inl hv)
  have hl' := mem_live.2 (.inl hv')
  exact paths_disjoint (hm.given.kinds _) (hm.given.kinds _) (hrpmb vb hl vb' hl' hne) (hpower vb hl vb' hl' hne)

/-- Two configs that differ in the name and in what follows, at one second of
the day. -/
def secondHost (moreA moreB : String) : Host Unit :=
  { stillHost [("/a.ini", "[global]\nname=a\n[firmware]\ntype=unified\n" ++ moreA),
      ("/b.ini", "[global]\nname=b\n[firmware]\ntype=unified\n" ++ moreB)] [] with
    strftime := fun _ _ => "2024-05-01_10:00:00" }

def rpmbSection : String := "[rpmb]\nbin_path=/usr/bin/rpmb_dev\ndata_dir=/data\n"

def powerSection : String := "[extra]\npwr_ctrl_multios=true\n"

/-- Both configs are imported, one after the other. -/
def importBoth : List (Act Unit) :=
  .recv (.importVm "/a.ini") :: List.replicate 33 .server ++ .recv (.importVm "/b.ini") :: List.replicate 33 .server

theorem endpoints_differ_two : ∃ s e,
    run (withHistory (step (secondHost rpmbSection powerSection)) (recordEndpoints (secondHost rpmbSection powerSection)))
      (Sys.init (), fun _ => {}) importBoth = some (s, e) ∧
    s.vmis.map (fun vb => (vb.name, (e vb.uid).paths)) =
      [("a", ["/tmp/rpmb_sock_2024-05-01_10:00:00"]), ("b", ["/tmp/qmp-pwr-socket-0"])] ∧
    s.vmis.Pairwise fun vb vb' => (e vb.uid).paths.Disjoint (e vb'.uid).paths := by
  have he : (run (withHistory (step (secondHost rpmbSection powerSection))
      (recordEndpoints (secondHost rpmbSection powerSection))) (Sys.init (), fun _ => {}) importBoth).map
        (fun p => p.1.vmis.map fun vb => (vb.name, (p.2 vb.uid).paths)) =
      some [("a", ["/tmp/rpmb_sock_2024-05-01_10:00:00"]), ("b", ["/tmp/qmp-pwr-socket-0"])] := by decide +kernel
  obtain ⟨⟨s, e⟩, hs, he⟩ := Option.map_eq_some_iff.1 he
  exact ⟨s, e, hs, he, (endpoints_differ _ () s e importBoth hs (by decide +kernel)).1⟩

/-- Both VMs are imported within one second, and neither has made a file: they
are given the same two paths. -/
theorem endpoints_shared : ¬ ∀ (h : Host Unit) s e as,
    run (withHistory (step h) (recordEndpoints h)) (Sys.init (), fun _ => {}) as = some (s, e) →
    s.vmis.Pairwise fun vb vb' => (e vb.uid).paths.Disjoint (e vb'.uid).paths := by
  intro hall
  have he : (run (withHistory (step (secondHost (rpmbSection ++ powerSection) (rpmbSection ++ powerSection)))
      (recordEndpoints (secondHost (rpmbSection ++ powerSection) (rpmbSection ++ powerSection))))
      (Sys.init (), fun _ => {}) importBoth).map (fun p => p.1.vmis.map fun vb => (p.2 vb.uid).paths) =
      some [["/tmp/rpmb_sock_2024-05-01_10:00:00", "/tmp/qmp-pwr-socket-0"],
        ["/tmp/rpmb_sock_2024-05-01_10:00:00", "/tmp/qmp-pwr-socket-0"]] := by decide +kernel
  obtain ⟨⟨s, e⟩, hs, he⟩ := Option.map_eq_some_iff.1 he
  have hp := List.pairwise_map.2 (hall _ s e importBoth hs)
  rw [he] at hp
  exact List.rel_of_pairwise_cons hp List.mem_cons_self List.mem_cons_self List.mem_cons_self

end VmManager
