import VmManager.Client
/-!
# Theorems about finding out whether the server runs

`IsServerRunning` constructs a `Client`, which fails without the server's
segment and also when there is a segment of the process's own name: one that an
earlier process with the same id has left behind, or that of a `Client` which
is still alive. `StopServer` asks while its own `Client` is, so the answer it
takes for a stopped server says nothing.
-/
open Runs

namespace VmManager

theorem clientShmName_ne_server (pid : Nat) : clientShmName pid ≠ kCivServerMemName := by
  intro h
  have hclient : "CivClientShm".toList = ['C', 'i', 'v', 'C', 'l', 'i', 'e', 'n', 't', 'S', 'h', 'm'] := by decide
  have hserver : "CivServerShm".toList = ['C', 'i', 'v', 'S', 'e', 'r', 'v', 'e', 'r', 'S', 'h', 'm'] := by decide
  have hlist := congrArg String.toList h
  simp [clientShmName, kCivServerMemName, hclient, hserver] at hlist

/-- The segments of other processes have other names. -/
theorem clientShmName_inj {pid pid' : Nat} (h : clientShmName pid = clientShmName pid') : pid = pid' := by
  have hlist := congrArg String.toList h
  simp only [clientShmName, String.toList_append, List.append_cancel_left_eq, Nat.toString_eq_repr,
    Nat.toList_repr] at hlist
  simpa only [Nat.ofDigitChars_ten_toDigits] using congrArg (Nat.ofDigitChars 10 · 0) hlist

/-! ## One call of `IsServerRunning` -/

/-- The constructor takes the two names as they are, and no other. -/
theorem construct_cases (pid : Nat) (o : ShmObjects) :
    (o kCivServerMemName = true ∧ o (clientShmName pid) = false ∧
      Client.construct pid o = .ok (Function.update o (clientShmName pid) true)) ∨
    ((o kCivServerMemName = true → o (clientShmName pid) = true) ∧ ∃ e, Client.construct pid o = .error e) := by
  unfold Client.construct openOnly createOnly
  cases hs : o kCivServerMemName <;> cases hc : o (clientShmName pid)
  · exact .inr ⟨nofun, _, rfl⟩
  · exact .inr ⟨nofun, _, rfl⟩
  · exact .inl ⟨rfl, rfl, rfl⟩
  · exact .inr ⟨fun _ => rfl, _, rfl⟩

/-- A `Notify` that returns, with whatever answer. -/
def NotifyEnd.Returns (n : NotifyEnd) : Prop := ∃ ret, n.result = .ok ret

theorem isServerRunning_true_iff (pid : Nat) (o : ShmObjects) (n : NotifyEnd) :
    (isServerRunning pid o n).1 = true ↔
      o kCivServerMemName = true ∧ o (clientShmName pid) = false ∧ n.Returns := by
  unfold isServerRunning NotifyEnd.Returns
  rcases construct_cases pid o with ⟨hs, hc, he⟩ | ⟨hsc, e, he⟩ <;> rw [he]
  · cases n.result <;> simp [hs, hc]
  · simp only [Bool.false_eq_true, false_iff, not_and]
    intro hs hc
    rw [hsc hs] at hc
    cases hc

/-- Asked while a client of the same process is alive, or has left its segment
behind, it says no. -/
theorem isServerRunning_nested {pid : Nat} {o : ShmObjects} (hc : o (clientShmName pid) = true) (n : NotifyEnd) :
    isServerRunning pid o n = (false, o) := by
  unfold isServerRunning
  rcases construct_cases pid o with ⟨-, hc', -⟩ | ⟨-, e, he⟩
  · rw [hc] at hc'
    cases hc'
  · rw [he]

/-- The segments of the other clients, alive or left behind, do not matter. -/
theorem isServerRunning_other {pid pid' : Nat} (hne : pid' ≠ pid) (o : ShmObjects) (there : Bool) (n : NotifyEnd) :
    (isServerRunning pid (Function.update o (clientShmName pid') there) n).1 = (isServerRunning pid o n).1 := by
  have hserver : Function.update o (clientShmName pid') there kCivServerMemName = o kCivServerMemName :=
    Function.update_of_ne (clientShmName_ne_server pid').symm there o
  have hown : Function.update o (clientShmName pid') there (clientShmName pid) = o (clientShmName pid) :=
    Function.update_of_ne (fun he => hne (clientShmName_inj he).symm) there o
  rw [Bool.eq_iff_iff, isServerRunning_true_iff, isServerRunning_true_iff, hserver, hown]

/-- The client of the call itself does not stay. -/
theorem isServerRunning_free {pid : Nat} {o : ShmObjects} (hc : o (clientShmName pid) = false) (n : NotifyEnd) :
    (isServerRunning pid o n).2 (clientShmName pid) = false := by
  unfold isServerRunning
  rcases construct_cases pid o with ⟨-, -, he⟩ | ⟨-, e, he⟩ <;> rw [he]
  · cases n.result <;> exact Function.update_self ..
  · exact hc

theorem isServerRunning_after {pid : Nat} {o : ShmObjects} {n : NotifyEnd} (h : (isServerRunning pid o n).1 = true) :
    (isServerRunning pid o n).2 = Client.destruct pid (n.after pid) := by
  unfold isServerRunning at h ⊢
  rcases construct_cases pid o with ⟨-, -, he⟩ | ⟨-, e, he⟩ <;> rw [he] at h ⊢
  · cases hn : n.result with
    | ok ret => rfl
    | error e => rfl
  · cases h

/-- No only when the server's segment is not there. -/
def ProbeRight (pid : Nat) (o : ShmObjects) (n : NotifyEnd) : Prop :=
  (isServerRunning pid o n).1 = false → o kCivServerMemName = false

theorem probeRight_iff (pid : Nat) (o : ShmObjects) (n : NotifyEnd) :
    ProbeRight pid o n ↔ (o kCivServerMemName = true → o (clientShmName pid) = false ∧ n.Returns) := by
  unfold ProbeRight
  rw [← Bool.not_eq_true, isServerRunning_true_iff]
  cases o kCivServerMemName <;> simp

/-- A process without a client of its own, alive or left behind, gets the right
answer however often it asks. -/
theorem probes_right {pid : Nat} {o : ShmObjects} (hc : o (clientShmName pid) = false) {ns : List NotifyEnd}
    (hns : ∀ n ∈ ns, n.Returns) :
    Guarded (fun o n => some (isServerRunning pid o n).2) (ProbeRight pid) o ns := by
  refine guarded_imp (I := fun o => o (clientShmName pid) = false) (G := fun _ n => n.Returns) ?_ ?_ hc
    (guarded_of_forall hns)
  · intro o n o' hc _ ho
    cases ho
    exact isServerRunning_free hc n
  · intro o n hc hn
    exact (probeRight_iff pid o n).2 fun _ => ⟨hc, hn⟩

/-! ## `StopServer` -/

/-- The server is there, the process has no segment yet, and the server has
confirmed that it stops. -/
def Confirmed (pid : Nat) (o : ShmObjects) (probe stop : NotifyEnd) : Prop :=
  o kCivServerMemName = true ∧ o (clientShmName pid) = false ∧ probe.Returns ∧
    probe.objects kCivServerMemName = true ∧ stop.result = .ok true

theorem after_apply (n : NotifyEnd) (pid : Nat) : n.after pid kCivServerMemName = n.objects kCivServerMemName :=
  Function.update_of_ne (clientShmName_ne_server pid).symm true n.objects

theorem destruct_apply (pid : Nat) (o : ShmObjects) : Client.destruct pid o kCivServerMemName = o kCivServerMemName :=
  Function.update_of_ne (clientShmName_ne_server pid).symm false o

/-- Once the server has confirmed, the answer is yes, and what the second
`IsServerRunning` meets does not matter. -/
theorem stopServer_confirmed {pid : Nat} {o : ShmObjects} {probe stop : NotifyEnd} (h : Confirmed pid o probe stop)
    (again : NotifyEnd) :
    stopServer pid o probe stop again = (.ok true, Client.destruct pid (stop.after pid)) := by
  obtain ⟨hs, hc, hp, hs', hstop⟩ := h
  have hprobe : (isServerRunning pid o probe).1 = true := (isServerRunning_true_iff pid o probe).2 ⟨hs, hc, hp⟩
  have hafter := isServerRunning_after hprobe
  have hagain : isServerRunning pid (stop.after pid) again = (false, stop.after pid) :=
    isServerRunning_nested (Function.update_self (clientShmName pid) true stop.objects) again
  unfold stopServer
  simp only [hprobe, Bool.not_true, Bool.false_eq_true, if_false]
  rcases construct_cases pid (isServerRunning pid o probe).2 with ⟨-, -, he⟩ | ⟨hsc, -⟩
  · rw [he, hstop]
    dsimp only
    rw [hagain]
    rfl
  · have hserver : (isServerRunning pid o probe).2 kCivServerMemName = true := by
      rw [hafter, destruct_apply, after_apply, hs']
    have hown := isServerRunning_free hc probe
    rw [hsc hserver] at hown
    cases hown

theorem stopServer_true_iff (pid : Nat) (o : ShmObjects) (probe stop again : NotifyEnd) :
    (stopServer pid o probe stop again).1 = .ok true ↔ Confirmed pid o probe stop := by
  refine ⟨fun h => ?_, fun h => by rw [stopServer_confirmed h]⟩
  unfold stopServer at h
  dsimp only at h
  split at h
  · cases h
  · rename_i hprobe
    simp only [Bool.not_eq_eq_eq_not, Bool.not_true, Bool.not_eq_false] at hprobe
    obtain ⟨hs, hc, hp⟩ := (isServerRunning_true_iff pid o probe).1 hprobe
    rcases construct_cases pid (isServerRunning pid o probe).2 with ⟨hs', -, he⟩ | ⟨-, e, he⟩ <;> rw [he] at h
    · dsimp only at h
      split at h
      · cases h
      · cases h
      · rename_i hstop
        rw [isServerRunning_after hprobe, destruct_apply, after_apply] at hs'
        exact ⟨hs, hc, hp, hs', hstop⟩
    · cases h

/-- Yes only when the server's segment is gone. -/
def StopRight (pid : Nat) (o : ShmObjects) (probe stop again : NotifyEnd) : Prop :=
  (stopServer pid o probe stop again).1 = .ok true →
    (stopServer pid o probe stop again).2 kCivServerMemName = false

/-- For all objects there are, and all that other processes do meanwhile:
`IsServerRunning` and `StopServer` are right about the server's segment exactly
if, where there is one, no segment of the process's own name is in the way and
`Notify` returns, and if a server that has confirmed that it stops has removed
its segment by the time `StopServer` looks. -/
theorem server_gone_iff (pid : Nat) (o : ShmObjects) (probe stop again : NotifyEnd) :
    (ProbeRight pid o probe ∧ StopRight pid o probe stop again) ↔
      (o kCivServerMemName = true → o (clientShmName pid) = false ∧ probe.Returns) ∧
        (Confirmed pid o probe stop → stop.objects kCivServerMemName = false) := by
  rw [probeRight_iff]
  refine and_congr_right fun _ => ?_
  unfold StopRight
  rw [stopServer_true_iff]
  refine forall_congr' fun h => ?_
  rw [stopServer_confirmed h]
  dsimp only
  rw [destruct_apply, after_apply]

/-- The objects with these names. -/
def shmWith (names : List String) : ShmObjects := fun name => names.contains name

/-- The server confirms and its segment is still there when `StopServer` looks:
it returns true. A segment that an earlier process 77 has left makes
`IsServerRunning` say no. -/
theorem server_reported_gone :
    (stopServer 77 (shmWith ["CivServerShm"]) ⟨.ok false, shmWith ["CivServerShm"]⟩
        ⟨.ok true, shmWith ["CivServerShm"]⟩ ⟨.ok false, shmWith ["CivServerShm"]⟩).1 = .ok true ∧
      ¬ StopRight 77 (shmWith ["CivServerShm"]) ⟨.ok false, shmWith ["CivServerShm"]⟩
        ⟨.ok true, shmWith ["CivServerShm"]⟩ ⟨.ok false, shmWith ["CivServerShm"]⟩ ∧
      ¬ ProbeRight 77 (shmWith ["CivServerShm", "CivClientShm77"]) ⟨.ok false, shmWith ["CivServerShm"]⟩ := by
  have hc : Confirmed 77 (shmWith ["CivServerShm"]) ⟨.ok false, shmWith ["CivServerShm"]⟩
      ⟨.ok true, shmWith ["CivServerShm"]⟩ := ⟨by decide, by decide, ⟨false, rfl⟩, by decide, rfl⟩
  refine ⟨(stopServer_true_iff ..).2 hc, fun h => ?_, fun h => ?_⟩
  · have hgone := h ((stopServer_true_iff ..).2 hc)
    rw [stopServer_confirmed hc] at hgone
    dsimp only at hgone
    rw [destruct_apply, after_apply] at hgone
    exact absurd hgone (by decide)
  · have hfree := ((probeRight_iff ..).1 h (by decide)).1
    exact absurd hfree (by decide)

end VmManager
