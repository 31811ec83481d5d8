import VmManager.Lib.Runs
import VmManager.ProbeTheorems
import VmManager.Service
/-!
# Theorems about bringing the service up

`Server::Start` takes the name of the server's segment away from whoever has it,
both when it begins and when it ends. Only the `IsServerRunning` before it
keeps two servers apart, and between the two any other process may run.
-/
open Runs

namespace VmManager.Service

variable {m : Machine} {s s' : State} {a : Act} {pid child seg : Nat} {p p' : Pc}

/-! ## Roles -/

/-- What a process is to the name of the server's segment. -/
inductive Role
  | idle
  /-- Its `IsServerRunning` has said no, and it has made no segment. -/
  | starting
  | owner (seg : Nat)
  deriving DecidableEq

def Pc.role : Pc → Role
  | .fork1 | .fork2 | .redirect | .remove | .create | .cleanup .none => .starting
  | .construct seg | .serving seg | .cleanup (some seg) => .owner seg
  | _ => .idle

namespace State

def role (s : State) (pid : Nat) : Role := (s.proc pid).role

/-- The segment that a new client opens. -/
def home (s : State) : Option Nat := s.shm.link kCivServerMemName

theorem role_of_free (h : s.free pid = true) : s.role pid = .idle := by
  unfold free at h
  unfold role
  split at h
  · rw [‹s.proc pid = _›]
    rfl
  · rw [‹s.proc pid = _›]
    rfl
  · rw [‹s.proc pid = _›]
    rfl
  · cases h

end State

/-- The action is the one in which the `IsServerRunning` of `StartServer` says
no. -/
def startsUp (s : State) : Act → Bool
  | .step pid ok _ =>
    match s.proc pid with
    | .probe (.start _) => s.home.isNone || (s.shm.link (clientShmName pid)).isSome || !ok
    | .notify (.start _) _ => !ok
    | _ => false
  | _ => false

/-- What an action does to the roles and to the name. -/
inductive Move (s : State) (a : Act) (s' : State) : Prop
  | same : s'.role = s.role → s'.home = s.home → Move s a s'
  | begin (pid : Nat) : startsUp s a = true → s'.role = Function.update s.role pid .starting → s'.home = s.home →
      Move s a s'
  | fork (pid child : Nat) : s.role pid = .starting → s.role child = .idle →
      s'.role = Function.update (Function.update s.role pid .idle) child .starting → s'.home = s.home → Move s a s'
  /-- The process fails or is killed. -/
  | fail (pid : Nat) : s'.role = Function.update s.role pid .idle → s'.home = s.home → Move s a s'
  | remove (pid : Nat) : s.role pid = .starting → s'.role = s.role → s'.home = none → Move s a s'
  | create (pid seg : Nat) : s.role pid = .starting → s.home = none →
      s'.role = Function.update s.role pid (.owner seg) → s'.home = some seg → s'.shm.made = seg + 1 → Move s a s'
  | leave (pid : Nat) : s.role pid ≠ .idle → s'.role = Function.update s.role pid .idle → s'.home = none → Move s a s'

theorem role_update (f : Nat → Pc) (pid : Nat) (p : Pc) :
    (fun q => (Function.update f pid p q).role) = Function.update (fun q => (f q).role) pid p.role := by
  funext q
  by_cases he : q = pid
  · rw [he, Function.update_self, Function.update_self]
  · rw [Function.update_of_ne he, Function.update_of_ne he]

theorem role_goto (s : State) (pid : Nat) (p : Pc) : (s.goto pid p).role = Function.update s.role pid p.role :=
  role_update s.proc pid p

theorem update_same {f : Nat → Role} {r : Role} (h : f pid = r) : Function.update f pid r = f :=
  h ▸ Function.update_eq_self pid f

theorem role_keep (hpc : s.proc pid = p) (hproc : s'.proc = Function.update s.proc pid p') (hr : p'.role = p.role) :
    s'.role = s.role := by
  unfold State.role
  rw [hproc, role_update, hr, ← hpc]
  exact Function.update_eq_self pid fun q => (s.proc q).role

/-- The process moves on and keeps its role. -/
theorem Move.goto (hpc : s.proc pid = p) (hproc : s'.proc = Function.update s.proc pid p') (hr : p'.role = p.role)
    (hh : s'.home = s.home) : Move s a s' := .same (role_keep hpc hproc hr) hh

theorem fork_some (hf : s.fork pid child p p' = some s') : s.free child = true ∧ s'.shm = s.shm ∧
    s'.proc = Function.update (Function.update s.proc pid p) child p' := by
  unfold State.fork at hf
  split at hf <;> cases hf
  exact ⟨‹_›, rfl, rfl⟩

theorem Move.forked (hr : s.role pid = .starting) (hp : p.role = .idle) (hp' : p'.role = .starting)
    (hf : s.fork pid child p p' = some s') : Move s a s' := by
  obtain ⟨hfree, hshm, hproc⟩ := fork_some hf
  refine .fork pid child hr (State.role_of_free hfree) ?_ (by rw [State.home, hshm]; rfl)
  unfold State.role
  rw [hproc, role_update, role_update, hp, hp']

/-- A client's own segment does not have the server's name. -/
theorem home_of_unlink (pid : Nat) : (s.shm.unlink (clientShmName pid)).link kCivServerMemName = s.home :=
  Names.unlink_of_ne s.shm (clientShmName_ne_server pid).symm

theorem home_of_create {shm : Names String} (hc : s.shm.create (clientShmName pid) = some shm) :
    shm.link kCivServerMemName = s.home := Names.create_of_ne hc (clientShmName_ne_server pid).symm

/-- The role that follows the answer of `IsServerRunning`. -/
theorem answer_role (q : Asker) (yes : Bool) :
    (q.answer yes).role = .idle ∨ ((∃ daemon, q = .start daemon) ∧ yes = false ∧ (q.answer yes).role = .starting) := by
  cases q with
  | command => cases yes <;> exact .inl rfl
  | wait n =>
    cases yes with
    | true => exact .inl rfl
    | false =>
      change (if n > 100 then Pc.exited (-1) else .sleep (n + 1)).role = .idle ∨ _
      split <;> exact .inl rfl
  | start d =>
    cases yes with
    | true => exact .inl rfl
    | false =>
      refine .inr ⟨⟨d, rfl⟩, rfl, ?_⟩
      cases d <;> rfl

/-- The process goes on with an answer. -/
theorem Move.answered {q : Asker} {yes : Bool} (hpc : s.proc pid = p) (hr : p.role = .idle)
    (hs : (∃ daemon, q = .start daemon) → yes = false → startsUp s a = true)
    (hproc : s'.proc = Function.update s.proc pid (q.answer yes)) (hh : s'.home = s.home) : Move s a s' := by
  rcases answer_role q yes with hidle | ⟨hq, hno, hst⟩
  · exact .goto hpc hproc (hidle.trans hr.symm) hh
  · refine .begin pid (hs hq hno) ?_ hh
    unfold State.role
    rw [hproc, role_update, hst]

theorem procStep_move {ok : Bool} (hs : procStep m s pid ok child = some s') :
    Move s (.step pid ok child) s' := by
  have hrole : ∀ {p}, s.proc pid = p → s.role pid = p.role := fun h => congrArg Pc.role h
  unfold procStep at hs
  split at hs <;> rename_i hpc
  · cases hs
  · cases hs
  · cases hs
  · cases hs
    refine .goto hpc rfl ?_ rfl
    split <;> rfl
  · rename_i q
    split at hs
    · rename_i seg shm hhome hc
      split at hs <;> cases hs
      · exact .goto hpc rfl rfl (home_of_create hc)
      · refine .answered hpc rfl (fun ⟨d, hq⟩ _ => ?_) rfl rfl
        simp_all [startsUp]
    · cases hs
      rename_i hnot
      refine .answered hpc rfl (fun ⟨d, hq⟩ _ => ?_) rfl rfl
      simp only [startsUp, hpc, hq, State.home, Bool.or_eq_true]
      cases hl : s.shm.link kCivServerMemName with
      | none => exact .inl (.inl rfl)
      | some seg =>
        refine .inl (.inr (Names.create_none.1 (Option.eq_none_iff_forall_not_mem.2 fun shm hc => ?_)))
        exact hnot seg shm hl hc
  · rename_i q seg
    cases hs
    refine .answered hpc rfl (fun ⟨d, hq⟩ hno => ?_) rfl (home_of_unlink pid)
    simp [startsUp, hpc, hq, hno]
  · split at hs
    · obtain ⟨s₁, hf, rfl⟩ := Option.map_eq_some_iff.1 hs
      obtain ⟨hfree, hshm, hproc⟩ := fork_some hf
      refine .same ?_ (by rw [State.home, hshm]; rfl)
      have hpid : s.role pid = .idle := hrole hpc
      calc s₁.role = Function.update (Function.update s.role pid .idle) child .idle := by
            unfold State.role
            rw [hproc, role_update, role_update]
            rfl
        _ = s.role := by rw [update_same hpid, update_same (State.role_of_free hfree)]
    · cases hs
      exact .goto hpc rfl rfl rfl
  · rename_i c
    dsimp only at hs
    split at hs
    · cases hs
      refine .goto hpc rfl ?_ rfl
      split <;> rfl
    · cases hs
      exact .goto hpc rfl rfl rfl
    · cases hs
  · cases hs
    exact .goto hpc rfl rfl rfl
  · cases hs
    exact .goto hpc rfl rfl rfl
  · split at hs
    · exact .forked (hrole hpc) rfl rfl hs
    · cases hs
      exact .fail pid (role_goto ..) rfl
  · split at hs
    · exact .forked (hrole hpc) rfl rfl hs
    · cases hs
      exact .fail pid (role_goto ..) rfl
  · dsimp only at hs
    split at hs <;> cases hs
    · exact .goto hpc rfl rfl rfl
    · exact .fail pid (role_goto ..) rfl
  · split at hs <;> cases hs
    · exact .remove pid (hrole hpc) (role_keep hpc rfl rfl) (Names.unlink_self ..)
    · exact .fail pid (role_goto ..) rfl
  · split at hs
    · cases hs
      exact .goto hpc rfl rfl rfl
    · rename_i shm hc
      split at hs <;> cases hs
      · exact .create pid s.shm.made (hrole hpc) (Names.create_some hc).1 (role_goto ..) (Names.create_self hc)
          (Names.create_made hc)
      · exact .goto hpc rfl rfl rfl
  · cases hs
    refine .goto hpc rfl ?_ rfl
    split <;> rfl
  · cases hs
    exact .goto hpc rfl rfl rfl
  · rename_i made
    cases hs
    refine .leave pid ?_ (role_goto ..) (Names.unlink_self ..)
    rw [hrole hpc]
    cases made <;> exact fun he => by cases he

theorem step_move (hs : step m s a = some s') : Move s a s' := by
  cases a with
  | step pid ok child => exact procStep_move hs
  | exec pid q fds =>
    unfold step at hs
    dsimp only at hs
    split at hs
    · cases hs
    · split at hs <;> cases hs
      rename_i hfree
      refine .same ?_ rfl
      exact (role_goto s pid (.main q)).trans (update_same (State.role_of_free hfree))
  | kill pid =>
    unfold step at hs
    dsimp only at hs
    split at hs <;> cases hs
    exact .fail pid (role_goto s pid .killed) rfl

/-! ## One server at a time -/

/-- A start-up begins when no other is in progress, and when `IsServerRunning`
has been right. -/
def Orderly (s : State) (a : Act) : Prop :=
  startsUp s a = true → s.home = none ∧ ∀ pid, s.role pid ≠ .starting

/-- At most one process is more than idle, and the name is its. -/
structure Single (role : Nat → Role) (home : Option Nat) : Prop where
  one : ∀ pid pid', role pid ≠ .idle → role pid' ≠ .idle → pid = pid'
  owner : ∀ pid seg, role pid = .owner seg → home = some seg
  starting : ∀ pid, role pid = .starting → home = none

section

variable {role : Nat → Role} {home : Option Nat} {r : Role}

theorem Single.alone (hi : Single role home) (hp : role pid ≠ .idle) : ∀ q, q ≠ pid → role q = .idle := by
  intro q hq
  by_contra hn
  exact hq (hi.one q pid hn hp)

/-- One process may have any role that goes with the name. -/
theorem single_of_alone (ha : ∀ q, q ≠ pid → role q = .idle) (ho : ∀ seg, r = .owner seg → home = some seg)
    (hst : r = .starting → home = none) : Single (Function.update role pid r) home := by
  have hpid : ∀ q, Function.update role pid r q ≠ .idle → q = pid := by
    intro q hq
    by_contra hne
    rw [Function.update_of_ne hne] at hq
    exact hq (ha q hne)
  refine ⟨fun p q hp hq => (hpid p hp).trans (hpid q hq).symm, fun p seg hp => ?_, fun p hp => ?_⟩
  · obtain rfl := hpid p (by rw [hp]; exact fun he => by cases he)
    exact ho seg ((Function.update_self p r role).symm.trans hp)
  · obtain rfl := hpid p (by rw [hp]; exact fun he => by cases he)
    exact hst ((Function.update_self p r role).symm.trans hp)

theorem Single.fail (hi : Single role home) (pid : Nat) : Single (Function.update role pid .idle) home := by
  have hrole : ∀ q, Function.update role pid .idle q ≠ .idle → Function.update role pid .idle q = role q := by
    intro q hq
    by_cases he : q = pid
    · rw [he, Function.update_self] at hq
      exact absurd rfl hq
    · exact Function.update_of_ne he ..
  refine ⟨fun p q hp hq => hi.one p q (hrole p hp ▸ hp) (hrole q hq ▸ hq), fun p seg hp => ?_, fun p hp => ?_⟩
  · exact hi.owner p seg ((hrole p (by rw [hp]; exact fun he => by cases he)).symm.trans hp)
  · exact hi.starting p ((hrole p (by rw [hp]; exact fun he => by cases he)).symm.trans hp)

end

theorem single_step (hi : Single s.role s.home) (hg : Orderly s a) (hs : step m s a = some s') :
    Single s'.role s'.home := by
  cases step_move hs with
  | same hr hh =>
    rw [hr, hh]
    exact hi
  | begin pid hst hr hh =>
    obtain ⟨hn, hclear⟩ := hg hst
    -- An owner would have the name, and the name is free.
    have hidle : ∀ q, s.role q = .idle := by
      intro q
      cases hq : s.role q with
      | idle => rfl
      | starting => exact absurd hq (hclear q)
      | owner seg =>
        have howner := hi.owner q seg hq
        rw [hn] at howner
        cases howner
    rw [hr, hh]
    exact single_of_alone (fun q _ => hidle q) (fun _ he => by cases he) fun _ => hn
  | fork pid child hp hc hr hh =>
    have hn := hi.starting pid hp
    have hne : s.role pid ≠ .idle := by rw [hp]; exact fun he => by cases he
    have ha := hi.alone hne
    rw [hr, hh]
    refine single_of_alone (fun q _ => ?_) (fun _ he => by cases he) fun _ => hn
    by_cases he : q = pid
    · rw [he]
      exact Function.update_self ..
    · rw [Function.update_of_ne he]
      exact ha q he
  | fail pid hr hh =>
    rw [hr, hh]
    exact hi.fail pid
  | remove pid hp hr hh =>
    have hne : s.role pid ≠ .idle := by rw [hp]; exact fun he => by cases he
    have ha := hi.alone hne
    rw [hr, hh, ← update_same hp]
    exact single_of_alone ha (fun _ he => by cases he) fun _ => rfl
  | create pid seg hp hn hr hh =>
    have hne : s.role pid ≠ .idle := by rw [hp]; exact fun he => by cases he
    have ha := hi.alone hne
    rw [hr, hh]
    refine single_of_alone ha (fun seg' he => ?_) fun he => by cases he
    cases he
    rfl
  | leave pid hp hr hh =>
    rw [hr, hh]
    exact single_of_alone (hi.alone hp) (fun _ he => by cases he) fun he => by cases he

theorem single_init : Single (State.role {}) (State.home {}) :=
  ⟨fun _ _ hp => absurd rfl hp, fun _ _ hp => (by cases hp), fun _ hp => by cases hp⟩

/-- In every run whose start-ups follow one another there is at most one
server, and every client that comes opens its segment. -/
theorem one_server (m : Machine) (s : State) (as : List Act) (hr : run (step m) {} as = some s)
    (hg : Guarded (step m) Orderly {} as) :
    (∀ pid seg, s.proc pid = .serving seg → s.home = some seg) ∧
      ∀ pid pid' seg seg', s.proc pid = .serving seg → s.proc pid' = .serving seg' → pid = pid' := by
  have hi : Single s.role s.home := run_keeps_guarded (I := fun s => Single s.role s.home)
    (fun _ _ _ hi hg hs => single_step hi hg hs) hr hg single_init
  have hrole : ∀ {pid seg}, s.proc pid = .serving seg → s.role pid = .owner seg := fun h => congrArg Pc.role h
  refine ⟨fun pid seg hpc => hi.owner pid seg (hrole hpc), fun pid pid' seg seg' hpc hpc' => ?_⟩
  refine hi.one pid pid' ?_ ?_
  · rw [hrole hpc]
    exact fun he => by cases he
  · rw [hrole hpc']
    exact fun he => by cases he

def desk : Machine := ⟨1023, 1024⟩

/-- Process 1 is a command that finds no server. Its child 2 makes the daemon
3, and that process 4, which serves. -/
def firstCommand : List Act :=
  [.exec 1 .command fun _ => none, .step 1 true 0, .step 1 true 0, .step 1 true 2, .step 2 true 0]

def firstServer : List Act :=
  [.step 2 true 3, .step 3 true 4, .step 4 true 0, .step 4 true 0, .step 4 true 0, .step 4 true 0]

theorem orderly_of_quiet {as : List Act} (h : Guarded (step m) (fun s a => startsUp s a = false) s as) :
    Guarded (step m) Orderly s as :=
  guarded_imp (I := fun _ => True) (fun _ _ _ _ _ _ => trivial)
    (fun _ _ _ hq hst => absurd (hst.symm.trans hq) (by decide)) trivial h

theorem firstStart_orderly : Guarded (step desk) Orderly {} (firstCommand ++ .step 2 true 0 :: firstServer) := by
  refine guarded_append_of (orderly_of_quiet (by decide)) fun s hs => ?_
  obtain rfl := Option.some.inj hs
  refine ⟨fun _ => ⟨rfl, fun pid => ?_⟩, fun s hs => ?_⟩
  · rcases pid with _ | _ | _ | pid <;> exact fun he => by cases he
  · obtain rfl := Option.some.inj hs
    exact orderly_of_quiet (by decide +kernel)

theorem one_server_first : ∃ s, run (step desk) {} (firstCommand ++ .step 2 true 0 :: firstServer) = some s ∧
    s.proc 4 = .serving 0 ∧ s.home = some 0 := by
  have hpc : (run (step desk) {} (firstCommand ++ .step 2 true 0 :: firstServer)).map (fun s => s.proc 4) =
      some (.serving 0) := by decide +kernel
  obtain ⟨s, hs, hpc⟩ := Option.map_eq_some_iff.1 hpc
  exact ⟨s, hs, hpc, (one_server desk s _ hs firstStart_orderly).1 4 0 hpc⟩

/-- Processes 1 and 2 are started as servers at once. -/
def twoStarts : List Act :=
  [.exec 1 (.start false) fun _ => none, .exec 2 (.start false) fun _ => none, .step 1 true 0, .step 2 true 0,
    .step 1 true 0, .step 2 true 0, .step 1 true 0, .step 2 true 0, .step 1 true 0, .step 1 true 0, .step 2 true 0,
    .step 2 true 0]

/-- The second one takes the name away, fails to make a segment under it and
takes it away once more: the first serves a segment that no client can open. -/
theorem twoStarts_hidden : (run (step desk) {} twoStarts).map (fun s => (s.proc 1, s.proc 2, s.home)) =
    some (.serving 0, .exited 0, none) := by decide +kernel

/-! ## A server without its name -/

/-- What a step of `pid` leaves alone: the names change by one of their
operations, and whoever opens the server's segment finds it by its name. -/
structure Frame (s : State) (pid : Nat) (s' : State) : Prop where
  others : ∀ q, q ≠ pid → s.free q = false → s'.proc q = s.proc q
  shm : s'.shm = s.shm ∨ (∃ n, s.shm.create n = some s'.shm) ∨ ∃ n, s'.shm = s.shm.unlink n
  opened : ∀ pid q seg, s'.proc pid = .notify q seg → s.proc pid = .notify q seg ∨ s.home = some seg

/-- Where no client is constructed. -/
def Pc.blind (p : Pc) : Prop := ∀ q seg, p ≠ .notify q seg

theorem blind_answer (q : Asker) (yes : Bool) : (q.answer yes).blind := by
  intro q' seg he
  unfold Asker.answer at he
  split at he <;> first | cases he | (split at he <;> cases he)

theorem Frame.goto (hshm : s'.shm = s.shm ∨ (∃ n, s.shm.create n = some s'.shm) ∨ ∃ n, s'.shm = s.shm.unlink n)
    (hproc : s'.proc = Function.update s.proc pid p) (hp : p.blind) : Frame s pid s' := by
  refine ⟨fun q hq _ => by rw [hproc, Function.update_of_ne hq], hshm, fun q a seg hq => .inl ?_⟩
  rw [hproc] at hq
  by_cases he : q = pid
  · rw [he, Function.update_self] at hq
    exact absurd hq (hp a seg)
  · rwa [Function.update_of_ne he] at hq

theorem Frame.forked (hf : s.fork pid child p p' = some s') (hp : p.blind) (hp' : p'.blind) : Frame s pid s' := by
  obtain ⟨hfree, hshm, hproc⟩ := fork_some hf
  refine ⟨fun q hq hlive => ?_, .inl hshm, fun q a seg hq => .inl ?_⟩
  · have hc : q ≠ child := fun he => by rw [he, hfree] at hlive; cases hlive
    rw [hproc, Function.update_of_ne hc, Function.update_of_ne hq]
  rw [hproc] at hq
  by_cases hc : q = child
  · rw [hc, Function.update_self] at hq
    exact absurd hq (hp' a seg)
  · rw [Function.update_of_ne hc] at hq
    by_cases he : q = pid
    · rw [he, Function.update_self] at hq
      exact absurd hq (hp a seg)
    · rwa [Function.update_of_ne he] at hq

theorem procStep_frame {ok : Bool} (hs : procStep m s pid ok child = some s') : Frame s pid s' := by
  cases hpc : s.proc pid <;> simp only [procStep, hpc] at hs
  case none | exited | killed => cases hs
  case main | redirect | construct =>
    cases hs
    exact .goto (.inl rfl) rfl fun _ _ he => by split at he <;> cases he
  case probe q =>
    split at hs
    · rename_i seg shm hhome hc
      split at hs <;> cases hs
      · refine ⟨fun q' hq _ => Function.update_of_ne hq .., .inr (.inl ⟨_, hc⟩), fun q' a seg' hq => ?_⟩
        by_cases he : q' = pid
        · subst he
          cases (Function.update_self (f := s.proc) q' _).symm.trans hq
          exact .inr hhome
        · exact .inl ((Function.update_of_ne (f := s.proc) he _).symm.trans hq)
      · exact .goto (.inl rfl) rfl (blind_answer q false)
    · cases hs
      exact .goto (.inl rfl) rfl (blind_answer q false)
  case notify q seg =>
    cases hs
    exact .goto (.inr (.inr ⟨_, rfl⟩)) rfl (blind_answer q _)
  case system =>
    split at hs
    · obtain ⟨s₁, hf, rfl⟩ := Option.map_eq_some_iff.1 hs
      obtain ⟨hothers, hshm, hopened⟩ := Frame.forked hf (fun _ _ he => by cases he) fun _ _ he => by cases he
      exact ⟨hothers, hshm, hopened⟩
    · cases hs
      exact .goto (.inl rfl) rfl fun _ _ he => by cases he
  case waiting child =>
    split at hs <;> cases hs
    · refine .goto (.inl rfl) rfl fun _ _ he => ?_
      split at he <;> cases he
    · exact .goto (.inl rfl) rfl fun _ _ he => by cases he
  case fork1 | fork2 =>
    split at hs
    · exact .forked hs (fun _ _ he => by cases he) fun _ _ he => by cases he
    · cases hs
      exact .goto (.inl rfl) rfl fun _ _ he => by cases he
  case remove =>
    split at hs <;> cases hs
    · exact .goto (.inr (.inr ⟨_, rfl⟩)) rfl fun _ _ he => by cases he
    · exact .goto (.inl rfl) rfl fun _ _ he => by cases he
  case create =>
    split at hs
    · cases hs
      exact .goto (.inl rfl) rfl fun _ _ he => by cases he
    · split at hs <;> cases hs
      · exact .goto (.inr (.inl ⟨_, ‹_›⟩)) rfl fun _ _ he => by cases he
      · exact .goto (.inl rfl) rfl fun _ _ he => by cases he
  case cleanup =>
    cases hs
    exact .goto (.inr (.inr ⟨_, rfl⟩)) rfl fun _ _ he => by cases he
  case sleep | ready | serving =>
    cases hs
    exact .goto (.inl rfl) rfl fun _ _ he => by cases he

/-- The process that the action is about. -/
def Act.actor : Act → Nat
  | .exec pid _ _ | .step pid _ _ | .kill pid => pid

theorem step_frame (hs : step m s a = some s') : Frame s a.actor s' := by
  cases a with
  | step pid ok child => exact procStep_frame hs
  | exec pid q fds =>
    unfold step at hs
    dsimp only at hs
    split at hs
    · cases hs
    · split at hs <;> cases hs
      exact .goto (.inl rfl) rfl fun _ _ he => by cases he
  | kill pid =>
    unfold step at hs
    dsimp only at hs
    split at hs <;> cases hs
    exact .goto (.inl rfl) rfl fun _ _ he => by cases he

theorem made_mono (hs : step m s a = some s') : s.shm.made ≤ s'.shm.made := by
  rcases (step_frame hs).shm with he | ⟨n, hc⟩ | ⟨n, he⟩
  · rw [he]
  · rw [Names.create_made hc]
    exact Nat.le_succ _
  · rw [he]
    exact Nat.le_refl _

/-- A server's segment has been made. -/
def Made (s : State) : Prop := ∀ pid seg, s.role pid = .owner seg → seg < s.shm.made

theorem owner_of_update {role : Nat → Role} {r : Role} {q : Nat} (h : Function.update role pid r q = .owner seg) :
    role q = .owner seg ∨ r = .owner seg := by
  by_cases he : q = pid
  · rw [he, Function.update_self] at h
    exact .inr h
  · rw [Function.update_of_ne he] at h
    exact .inl h

theorem made_step (hi : Made s) (hs : step m s a = some s') : Made s' := by
  intro q seg hq
  have hmono := made_mono hs
  have hold : s.role q = .owner seg → seg < s'.shm.made := fun hq => Nat.lt_of_lt_of_le (hi q seg hq) hmono
  have hidle : ∀ {pid r}, Function.update s.role pid r q = .owner seg → r ≠ .owner seg → seg < s'.shm.made :=
    fun hu hr => hold ((owner_of_update hu).resolve_right hr)
  cases step_move hs with
  | same hr | remove _ _ hr =>
    rw [hr] at hq
    exact hold hq
  | begin pid _ hr | fail pid hr | leave pid _ hr =>
    rw [hr] at hq
    exact hidle hq fun he => by cases he
  | fork pid child _ _ hr =>
    rw [hr] at hq
    rcases owner_of_update hq with hq | hq
    · exact hidle hq fun he => by cases he
    · cases hq
  | create pid seg' _ _ hr _ hm =>
    rw [hr] at hq
    rcases owner_of_update hq with hq | hq
    · exact hold hq
    · cases hq
      omega

/-- Once the name does not lead to a server's segment any more, whatever the
reason, no client opens that segment any more. -/
theorem hidden_server_stays (m : Machine) (s s' : State) (as : List Act) (hr : Reachable (step m) {} s) (pid seg : Nat)
    (hpc : s.proc pid = .serving seg) (hh : s.home ≠ some seg) (hr' : run (step m) s as = some s') :
    s'.home ≠ some seg ∧ ∀ p q, s'.proc p = .notify q seg → s.proc p = .notify q seg := by
  have hmade : seg < s.shm.made := by
    refine (hr.keeps (I := Made) (fun _ _ _ hi hs => made_step hi hs) fun _ _ hp => by cases hp) pid seg ?_
    rw [State.role, hpc]
    rfl
  have hend := run_keeps (I := fun t => t.shm.Lost kCivServerMemName seg ∧
    ∀ p q, t.proc p = .notify q seg → s.proc p = .notify q seg) (fun t b t' hi hs => ?_) hr'
    ⟨⟨hmade, hh⟩, fun _ _ hp => hp⟩
  · exact ⟨hend.1.2, hend.2⟩
  · obtain ⟨hlost, hold⟩ := hi
    have hf := step_frame hs
    refine ⟨?_, fun p q hp => hold p q ((hf.opened p q seg hp).resolve_right hlost.2)⟩
    rcases hf.shm with he | ⟨n, hc⟩ | ⟨n, he⟩
    · exact he ▸ hlost
    · exact hlost.create hc
    · exact he ▸ hlost.unlink n

/-- After `twoStarts` the name leads nowhere, and whoever starts a third server
does not bring the first one back. -/
theorem hidden_server_stays_third : ∃ s s', Reachable (step desk) {} s ∧ s.proc 1 = .serving 0 ∧
    run (step desk) s (.exec 3 (.start false) (fun _ => none) :: List.replicate 5 (.step 3 true 0)) = some s' ∧
    s'.proc 3 = .serving 1 ∧ s'.home ≠ some 0 := by
  have hruns : (run (step desk) {} twoStarts).bind (fun s =>
      (run (step desk) s (.exec 3 (.start false) (fun _ => none) :: List.replicate 5 (.step 3 true 0))).map
        fun s' => (s.proc 1, s.home, s'.proc 3)) = some (.serving 0, none, .serving 1) := by decide +kernel
  obtain ⟨s, hs, hruns⟩ := Option.bind_eq_some_iff.1 hruns
  obtain ⟨s', hs', hruns⟩ := Option.map_eq_some_iff.1 hruns
  obtain ⟨hpc, hruns⟩ := Prod.mk.inj hruns
  obtain ⟨hh, hpc'⟩ := Prod.mk.inj hruns
  have hstays := hidden_server_stays desk s s' _ ⟨_, hs⟩ 1 0 hpc (by rw [hh]; exact fun he => by cases he) hs'
  exact ⟨s, s', ⟨_, hs⟩, hpc, hs', hpc', hstays.1⟩

/-! ## How often a command asks -/

/-- How many times the process can still ask whether there is a server. -/
def Pc.asksLeft : Pc → Nat
  | .main .command | .probe .command => 103
  | .notify .command _ | .system | .waiting _ => 102
  | .main (.wait waitCnt) | .probe (.wait waitCnt) | .sleep waitCnt => 101 - waitCnt + 1
  | .notify (.wait waitCnt) _ => 101 - waitCnt
  | .main (.start _) | .probe (.start _) => 1
  | _ => 0

/-- The process calls `IsServerRunning`. -/
def asks (pid : Nat) (s : State) : Act → Bool
  | .step p _ _ =>
    match s.proc p with
    | .probe _ => decide (p = pid)
    | _ => false
  | _ => false

def Pc.over : Pc → Bool
  | .none | .exited _ | .killed => true
  | _ => false

theorem live_of_over (h : (s.proc pid).over = false) : s.free pid = false := by
  unfold State.free
  cases hpc : s.proc pid with
  | none | exited | killed =>
    rw [hpc] at h
    cases h
  | _ => rfl

theorem asksLeft_probe (q : Asker) (seg : Nat) :
    (Pc.main q).asksLeft = (Pc.notify q seg).asksLeft + 1 ∧ (Pc.probe q).asksLeft = (Pc.notify q seg).asksLeft + 1 := by
  cases q <;> exact ⟨rfl, rfl⟩

theorem asksLeft_answer (q : Asker) (seg : Nat) (yes : Bool) :
    (q.answer yes).asksLeft ≤ (Pc.notify q seg).asksLeft := by
  cases q with
  | command => cases yes <;> exact Nat.le_of_ble_eq_true rfl
  | wait n =>
    cases yes with
    | true => exact Nat.zero_le _
    | false =>
      change (if n > 100 then Pc.exited (-1) else .sleep (n + 1)).asksLeft ≤ 101 - n
      split
      · exact Nat.zero_le _
      · change 101 - (n + 1) + 1 ≤ 101 - n
        omega
  | start d => cases d <;> cases yes <;> exact Nat.le_refl 0

/-- What one step of the process itself leaves. -/
theorem asksLeft_procStep {ok : Bool} (hs : procStep m s pid ok child = some s') :
    (asks pid s (.step pid ok child)).toNat + (s'.proc pid).asksLeft ≤ (s.proc pid).asksLeft := by
  have hfork : ∀ {p p' t}, s.free pid = false → s.fork pid child p p' = some t → t.proc pid = p := by
    intro p p' t hlive hf
    obtain ⟨hfree, -, hproc⟩ := fork_some hf
    have hc : pid ≠ child := fun he => by rw [he, hfree] at hlive; cases hlive
    rw [hproc, Function.update_of_ne hc, Function.update_self]
  have hother : ∀ {x y}, s.proc pid = x → (∀ q, x ≠ .probe q) → s'.proc pid = y → y.asksLeft ≤ x.asksLeft →
      (asks pid s (.step pid ok child)).toNat + (s'.proc pid).asksLeft ≤ (s.proc pid).asksLeft := by
    intro x y hx hne hy hle
    have hno : asks pid s (.step pid ok child) = false := by
      unfold asks
      dsimp only
      split
      · exact absurd (hx.symm.trans ‹_›) (hne _)
      · rfl
    rw [hno, hx, hy, Bool.toNat_false, Nat.zero_add]
    exact hle
  have hprobe : ∀ {q y}, s.proc pid = .probe q → s'.proc pid = y → y.asksLeft ≤ (Pc.notify q 0).asksLeft →
      (asks pid s (.step pid ok child)).toNat + (s'.proc pid).asksLeft ≤ (s.proc pid).asksLeft := by
    intro q y hx hy hle
    rw [hx, hy, (asksLeft_probe q 0).2, Nat.add_comm]
    exact Nat.add_le_add hle (Bool.toNat_le _)
  unfold procStep at hs
  split at hs <;> rename_i hpc
  · cases hs
  · cases hs
  · cases hs
  · rename_i q
    cases hs
    refine hother hpc (fun _ he => by cases he) (Function.update_self ..) ?_
    split
    · exact Nat.le_of_eq ((asksLeft_probe q 0).2.trans (asksLeft_probe q 0).1.symm)
    · exact Nat.zero_le _
  · rename_i q
    split at hs
    · split at hs <;> cases hs
      · exact hprobe hpc (Function.update_self ..) (by cases q <;> exact Nat.le_refl _)
      · exact hprobe hpc (Function.update_self ..) (asksLeft_answer q 0 false)
    · cases hs
      exact hprobe hpc (Function.update_self ..) (asksLeft_answer q 0 false)
  · rename_i q seg
    cases hs
    exact hother hpc (fun _ he => by cases he) (Function.update_self ..) (asksLeft_answer q seg ok)
  · have hlive : s.free pid = false := by unfold State.free; rw [hpc]
    split at hs
    · obtain ⟨s₁, hf, rfl⟩ := Option.map_eq_some_iff.1 hs
      have hwaiting : s₁.proc pid = .waiting child := hfork hlive hf
      exact hother hpc (fun _ he => by cases he) hwaiting (Nat.le_refl _)
    · cases hs
      exact hother hpc (fun _ he => by cases he) (Function.update_self ..) (Nat.zero_le _)
  · dsimp only at hs
    split at hs <;> cases hs
    · refine hother hpc (fun _ he => by cases he) (Function.update_self ..) ?_
      split
      · exact Nat.le_refl _
      · exact Nat.zero_le _
    · exact hother hpc (fun _ he => by cases he) (Function.update_self ..) (Nat.zero_le _)
  · cases hs
    exact hother hpc (fun _ he => by cases he) (Function.update_self ..) (Nat.le_refl _)
  · cases hs
    exact hother hpc (fun _ he => by cases he) (Function.update_self ..) (Nat.zero_le _)
  · have hlive : s.free pid = false := by unfold State.free; rw [hpc]
    split at hs
    · exact hother hpc (fun _ he => by cases he) (hfork hlive hs) (Nat.zero_le _)
    · cases hs
      exact hother hpc (fun _ he => by cases he) (Function.update_self ..) (Nat.zero_le _)
  · have hlive : s.free pid = false := by unfold State.free; rw [hpc]
    split at hs
    · exact hother hpc (fun _ he => by cases he) (hfork hlive hs) (Nat.zero_le _)
    · cases hs
      exact hother hpc (fun _ he => by cases he) (Function.update_self ..) (Nat.zero_le _)
  · cases hs
    refine hother hpc (fun _ he => by cases he) (Function.update_self ..) ?_
    split <;> exact Nat.zero_le _
  · split at hs <;> cases hs <;>
      exact hother hpc (fun _ he => by cases he) (Function.update_self ..) (Nat.zero_le _)
  · split at hs
    · cases hs
      exact hother hpc (fun _ he => by cases he) (Function.update_self ..) (Nat.zero_le _)
    · split at hs <;> cases hs <;>
        exact hother hpc (fun _ he => by cases he) (Function.update_self ..) (Nat.zero_le _)
  · cases hs
    refine hother hpc (fun _ he => by cases he) (Function.update_self ..) ?_
    split <;> exact Nat.zero_le _
  · cases hs
    exact hother hpc (fun _ he => by cases he) (Function.update_self ..) (Nat.zero_le _)
  · cases hs
    exact hother hpc (fun _ he => by cases he) (Function.update_self ..) (Nat.zero_le _)

/-- What any step leaves, of whatever process. -/
theorem asksLeft_step (hs : step m s a = some s') (hd : (s.proc pid).over = false) :
    (asks pid s a).toNat + (s'.proc pid).asksLeft ≤ (s.proc pid).asksLeft := by
  by_cases he : a.actor = pid
  · cases a with
    | step p ok child =>
      obtain rfl : p = pid := he
      exact asksLeft_procStep hs
    | exec p q fds =>
      obtain rfl : p = pid := he
      have hlive := live_of_over hd
      unfold step at hs
      dsimp only at hs
      split at hs
      · cases hs
      · rw [if_neg (by rw [hlive]; exact Bool.false_ne_true)] at hs
        cases hs
    | kill p =>
      obtain rfl : p = pid := he
      have hkilled : s'.proc p = .killed := by
        unfold step at hs
        dsimp only at hs
        split at hs <;> cases hs
        exact Function.update_self ..
      rw [show asks p s (.kill p) = false from rfl, hkilled]
      exact Nat.zero_le _
  · -- Nobody else moves the process, and its id is not given out as long as it lives.
    rw [(step_frame hs).others pid (Ne.symm he) (live_of_over hd)]
    have hno : asks pid s a = false := by
      cases a with
      | step p ok child =>
        unfold asks
        dsimp only
        split
        · exact decide_eq_false he
        · rfl
      | _ => rfl
    rw [hno, Bool.toNat_false, Nat.zero_add]

/-- A command asks at most 103 times whether there is a server, however the
processes get in each other's way: once at first, and 102 times in the loop
that is to end at 100. -/
theorem command_asks_bounded (m : Machine) (s : State) (as : List Act) (pid : Nat)
    (hpc : s.proc pid = .main .command) :
    stepsUntil (step m) (asks pid) (fun s => (s.proc pid).over) s as ≤ 103 := by
  have hrank : ∀ s a s', True → True → step m s a = some s' → (s.proc pid).over = false →
      (asks pid s a).toNat + (fun s : State => (s.proc pid).asksLeft) s' ≤ (fun s : State => (s.proc pid).asksLeft) s :=
    fun _ _ _ _ _ hs hd => asksLeft_step hs hd
  have hall : Guarded (step m) (fun _ _ => True) s as := guarded_of_forall fun _ _ => trivial
  have hbound := stepsUntil_le_rank (I := fun _ => True) (fun _ _ _ _ _ _ => trivial) hrank hall trivial
  rw [hpc] at hbound
  exact hbound

/-- The daemon of process 1 fails at its second fork, and process 1 waits in vain. -/
def waitsInVain : List Act :=
  .step 1 true 0 :: .step 1 true 0 :: .step 1 true 2 :: .step 2 true 0 :: .step 2 true 0 :: .step 2 true 3 ::
    .step 3 false 0 :: List.replicate 204 (.step 1 true 0)

theorem command_asks_bounded_inVain :
    stepsUntil (step desk) (asks 1) (fun s => (s.proc 1).over) (State.goto {} 1 (.main .command)) waitsInVain ≤ 103 ∧
      (run (step desk) (State.goto {} 1 (.main .command)) waitsInVain).map (fun s => s.proc 1) =
        some (.exited (-1)) :=
  ⟨command_asks_bounded desk _ waitsInVain 1 rfl, by decide +kernel⟩

/-! ## The descriptors of a daemon -/

/-- The descriptors that `Daemonize` has not closed. -/
theorem closed_apply (m : Machine) (d : Descriptors File) (t : Nat) :
    ((((d.closeFrom m.openMax).close 0).close 1).close 2) t =
      if t < 3 ∨ (t : Int) ≤ m.openMax then none else d t := by
  simp only [Descriptors.close, Function.update_apply, Descriptors.closeFrom_apply]
  split_ifs <;> first | rfl | omega

/-- `Daemonize` leaves its caller's descriptors behind: the standard streams are
on `/dev/null`, and no other descriptor up to `_SC_OPEN_MAX` is open. It fails
when `/dev/null` cannot be opened, and then only. -/
theorem redirect_spec (m : Machine) (hl : 2 < m.limit) (opens : Bool) (d : Descriptors File) :
    (redirect m opens d).1 = opens ∧ (opens = true → ∀ t, (redirect m opens d).2 t =
      if t < 3 then some .devNull else if (t : Int) ≤ m.openMax then none else d t) := by
  cases opens with
  | false => exact ⟨rfl, fun he => by cases he⟩
  | true =>
    have hopen := Descriptors.openLowest_zero (Nat.lt_of_le_of_lt (Nat.zero_le 2) hl) (closed_apply m d 0) File.devNull
    have hdup : ∀ e : Descriptors File, e 0 = some .devNull → ∀ t, t < m.limit →
        e.dup2 m.limit 0 t = some (t, Function.update e t (some .devNull)) := by
      intro e he t ht
      rw [Descriptors.dup2, if_pos ht, he, Option.map_some]
    unfold redirect
    dsimp only
    rw [if_pos rfl, hopen]
    dsimp only
    rw [if_neg (fun h => h rfl), hdup _ (Function.update_self ..) 1 (by omega)]
    dsimp only
    rw [hdup _ (by rw [Function.update_of_ne (by decide)]; exact Function.update_self ..) 2 hl]
    refine ⟨rfl, fun _ t => ?_⟩
    simp only [Function.update_apply, closed_apply]
    split_ifs <;> first | rfl | omega

end VmManager.Service
