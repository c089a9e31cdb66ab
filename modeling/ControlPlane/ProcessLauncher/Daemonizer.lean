import ControlPlane.Core.Common
import Mathlib.Data.Finset.Basic
import Mathlib.Data.Finset.Range
import Mathlib.Data.List.AList

/-!
# The daemonizer's restart loop

`Daemonizer::Run` (src/cc/process_launcher/daemonizer) keeps the arguments
of the processes it has to start in `executable_arg_to_launch_set_` and the
argument of each process it has started under its pid in
`pid_to_executable_arg_map_`. Each turn of its loop forks every argument of
the set, recording the pid `fork` returns and taking the argument out of the
set, then waits for a child to exit; the argument of an exited child goes
back into the set when it asks to be restarted. A pid it does not know is a
grandchild and is ignored; a failed `wait` ends `Run`.

The operating system is an oracle that answers `fork` and `wait` from the
state the daemonizer is in when it asks. Two fields of the state are not
the daemonizer's own: the children the operating system holds, and the
arguments of every successful fork, in order.

## Implementation notes

An argument is its position in `executable_args_`, as each is its own
`shared_ptr`. The child's side of `fork` (`execvp`) is the process that
runs; the daemonizer sees only the parent's side. The base
`ShouldStopRestartingProcesses` answers false and is left out, as are the
log lines and the back-off sleep.
-/

namespace ControlPlane.ProcessLauncher

open ControlPlane.Core

def daemonizer : Nat := 0x0302

def daemonizerInvalidInput : StatusCode := makeErrorCode daemonizer 0x0001

def daemonizerFailedWaitingForLaunchedProcesses : StatusCode := makeErrorCode daemonizer 0x0003

structure ExecutableArgument where
  executableName : String
  commandLineArgs : List String
  restart : Bool
  deriving DecidableEq, Repr

structure Daemonizer where
  executableArgs : List ExecutableArgument
  executableArgToLaunchSet : Finset Nat
  pidToExecutableArgMap : AList (fun _ : Int => Nat)
  /-- The children the operating system holds for the daemonizer. -/
  children : Finset Int
  /-- The argument of every successful fork, in order. -/
  launched : List Nat

/-- What the operating system answers to `fork` (in the parent) and to
`wait`, in the state the daemonizer is in when it asks. -/
structure Os where
  fork : Daemonizer → Int
  wait : Daemonizer → Int

namespace Daemonizer

/-- Whether the argument at `i` asks to be restarted. -/
def restartOf (d : Daemonizer) (i : Nat) : Bool :=
  match d.executableArgs[i]? with
  | some arg => arg.restart
  | none => false

/-- Every argument is still to launch. -/
def start (executableArgs : List ExecutableArgument) : Daemonizer :=
  ⟨executableArgs, Finset.range executableArgs.length, ∅, ∅, []⟩

/-- One turn of the `for` loop: an argument in the set is forked, recorded
under the pid `fork` returns, and taken out of the set. -/
def launchOne (os : Os) (d : Daemonizer) (i : Nat) : Daemonizer :=
  if i ∉ d.executableArgToLaunchSet then d
  else
    let pid := os.fork d
    { d with
      pidToExecutableArgMap := d.pidToExecutableArgMap.insert pid i
      executableArgToLaunchSet := d.executableArgToLaunchSet.erase i
      children := if pid = -1 then d.children else insert pid d.children
      launched := if pid = -1 then d.launched else d.launched ++ [i] }

/-- The `for` loop over the arguments, in order. -/
def launchAll (os : Os) (d : Daemonizer) : Daemonizer :=
  (List.range d.executableArgs.length).foldl (launchOne os) d

/-- After `wait` returns `pid`: `Run` returns on `-1`; a known child's entry
is dropped and its argument goes back into the set when it asks to be
restarted; an unknown pid changes nothing of the daemonizer's. -/
def onWait (d : Daemonizer) (pid : Int) : Option Daemonizer :=
  if pid = -1 then none
  else
    let d₁ := { d with children := d.children.erase pid }
    match d.pidToExecutableArgMap.lookup pid with
    | none => some d₁
    | some i =>
        some { d₁ with
          pidToExecutableArgMap := d.pidToExecutableArgMap.erase pid
          executableArgToLaunchSet :=
            if d.restartOf i then insert i d.executableArgToLaunchSet
            else d.executableArgToLaunchSet }

/-- The loop of `Run` for at most `fuel` turns: the states in which it calls
`wait`, and its result if it returned. -/
def loop (os : Os) : Nat → Daemonizer → List Daemonizer × Option ExecutionResult
  | 0, _ => ([], none)
  | fuel + 1, d =>
      let d₁ := launchAll os d
      match onWait d₁ (os.wait d₁) with
      | none => ([d₁], some (failureExecutionResult daemonizerFailedWaitingForLaunchedProcesses))
      | some d₂ =>
          let r := loop os fuel d₂
          (d₁ :: r.1, r.2)

/-- `Daemonizer::Run` over parsed arguments. -/
def run (os : Os) (fuel : Nat) (executableArgs : List ExecutableArgument) :
    List Daemonizer × Option ExecutionResult :=
  if executableArgs.length < 1 then ([], some (failureExecutionResult daemonizerInvalidInput))
  else loop os fuel (start executableArgs)

/-! ## One turn of the loop -/

section Turn

variable {os : Os} {d : Daemonizer}

theorem lookup_insert_eq_some {m : AList (fun _ : Int => Nat)} {pid p : Int} {i k : Nat}
    (h : (m.insert pid i).lookup p = some k) :
    (p = pid ∧ k = i) ∨ (p ≠ pid ∧ m.lookup p = some k) := by
  by_cases hp : p = pid
  · subst hp
    rw [AList.lookup_insert, Option.some.injEq] at h
    exact .inl ⟨rfl, h.symm⟩
  · rw [AList.lookup_insert_ne hp] at h
    exact .inr ⟨hp, h⟩

theorem lookup_erase_eq_some {m : AList (fun _ : Int => Nat)} {pid p : Int} {k : Nat}
    (h : (m.erase pid).lookup p = some k) : p ≠ pid ∧ m.lookup p = some k := by
  by_cases hp : p = pid
  · subst hp
    rw [AList.lookup_erase] at h
    cases h
  · rw [AList.lookup_erase_ne hp] at h
    exact ⟨hp, h⟩

theorem launchOne_of_not_mem {i : Nat} (h : i ∉ d.executableArgToLaunchSet) :
    launchOne os d i = d := if_pos h

theorem launchOne_of_mem {i : Nat} (h : i ∈ d.executableArgToLaunchSet) :
    launchOne os d i =
      { d with
        pidToExecutableArgMap := d.pidToExecutableArgMap.insert (os.fork d) i
        executableArgToLaunchSet := d.executableArgToLaunchSet.erase i
        children := if os.fork d = -1 then d.children else insert (os.fork d) d.children
        launched := if os.fork d = -1 then d.launched else d.launched ++ [i] } :=
  if_neg (not_not.mpr h)

@[simp] theorem executableArgs_launchOne (i : Nat) :
    (launchOne os d i).executableArgs = d.executableArgs := by
  unfold launchOne
  split <;> rfl

theorem onWait_of_unknown {pid : Int} (hp : pid ≠ -1)
    (hl : d.pidToExecutableArgMap.lookup pid = none) :
    onWait d pid = some { d with children := d.children.erase pid } := by
  simp only [onWait, if_neg hp, hl]

theorem onWait_of_known {pid : Int} {i : Nat} (hp : pid ≠ -1)
    (hl : d.pidToExecutableArgMap.lookup pid = some i) :
    onWait d pid = some { d with
      children := d.children.erase pid
      pidToExecutableArgMap := d.pidToExecutableArgMap.erase pid
      executableArgToLaunchSet :=
        if d.restartOf i then insert i d.executableArgToLaunchSet
        else d.executableArgToLaunchSet } := by
  simp only [onWait, if_neg hp, hl]

/-- Every state a wait leads to comes from a pid other than `-1`, known or
not. -/
theorem onWait_cases {pid : Int} {d' : Daemonizer} (h : onWait d pid = some d') :
    pid ≠ -1 ∧ ((d.pidToExecutableArgMap.lookup pid = none ∧
        d' = { d with children := d.children.erase pid }) ∨
      ∃ i, d.pidToExecutableArgMap.lookup pid = some i ∧ d' = { d with
        children := d.children.erase pid
        pidToExecutableArgMap := d.pidToExecutableArgMap.erase pid
        executableArgToLaunchSet :=
          if d.restartOf i then insert i d.executableArgToLaunchSet
          else d.executableArgToLaunchSet }) := by
  have hp : pid ≠ -1 := by
    rintro rfl
    simp [onWait] at h
  refine ⟨hp, ?_⟩
  cases hl : d.pidToExecutableArgMap.lookup pid with
  | none =>
      rw [onWait_of_unknown hp hl, Option.some.injEq] at h
      exact .inl ⟨rfl, h.symm⟩
  | some i =>
      rw [onWait_of_known hp hl, Option.some.injEq] at h
      exact .inr ⟨i, rfl, h.symm⟩

theorem executableArgs_onWait {pid : Int} {d' : Daemonizer} (h : onWait d pid = some d') :
    d'.executableArgs = d.executableArgs := by
  rcases (onWait_cases h).2 with ⟨-, rfl⟩ | ⟨i, -, rfl⟩ <;> rfl

end Turn

/-! ## Invariants over whole runs -/

section Invariant

variable (os : Os) (P : Daemonizer → Prop)

/-- An invariant of every launch of an argument, and of every wait, holds
of every state the loop waits in. -/
theorem loop_invariant (hl : ∀ d i, P d → P (launchOne os d i))
    (hw : ∀ d pid d', P d → onWait d pid = some d' → P d') :
    ∀ (fuel : Nat) (d : Daemonizer), P d → ∀ d' ∈ (loop os fuel d).1, P d' := by
  -- the `for` loop keeps the invariant, by induction on the arguments it visits
  have hall : ∀ d, P d → P (launchAll os d) := by
    intro d hd
    unfold launchAll
    generalize List.range d.executableArgs.length = is
    induction is generalizing d with
    | nil => exact hd
    | cons i is ih => exact ih _ (hl d i hd)
  intro fuel
  induction fuel with
  | zero => simp [loop]
  | succ fuel ih =>
      intro d hd d' hd'
      unfold loop at hd'
      dsimp only at hd'
      split at hd'
      · rw [List.mem_singleton.mp hd']
        exact hall d hd
      · next d₂ hw₂ =>
          rcases List.mem_cons.mp hd' with rfl | hd'
          · exact hall d hd
          · exact ih d₂ (hw _ _ _ (hall d hd) hw₂) d' hd'

end Invariant

/-- The daemonizer's own invariant: an argument still to launch is recorded
under no pid, and an argument under at most one. -/
structure WellFormed (d : Daemonizer) : Prop where
  launch_unmapped : ∀ i ∈ d.executableArgToLaunchSet, ∀ pid,
    d.pidToExecutableArgMap.lookup pid ≠ some i
  map_unique : ∀ p q i, d.pidToExecutableArgMap.lookup p = some i →
    d.pidToExecutableArgMap.lookup q = some i → p = q

section WellFormed

variable {os : Os} {d : Daemonizer}

theorem wellFormed_start (executableArgs : List ExecutableArgument) :
    WellFormed (start executableArgs) := by
  constructor
  · intro i _ pid hpid
    simp [start] at hpid
  · intro p q i hp _
    simp [start] at hp

theorem WellFormed.launch (h : WellFormed d) (os : Os) (j : Nat) :
    WellFormed (launchOne os d j) := by
  by_cases hj : j ∈ d.executableArgToLaunchSet
  · rw [launchOne_of_mem hj]
    constructor
    · intro i hi pid hpid
      obtain ⟨hij, hi⟩ := Finset.mem_erase.mp hi
      rcases lookup_insert_eq_some hpid with ⟨-, rfl⟩ | ⟨-, hold⟩
      · exact hij rfl
      · exact h.launch_unmapped i hi pid hold
    · -- the new pid is the only one of `j`, which had none
      intro p q k hp hq
      rcases lookup_insert_eq_some hp with ⟨rfl, rfl⟩ | ⟨-, hp'⟩ <;>
        rcases lookup_insert_eq_some hq with ⟨rfl, hk⟩ | ⟨-, hq'⟩
      · rfl
      · exact absurd hq' (h.launch_unmapped _ hj q)
      · subst hk
        exact absurd hp' (h.launch_unmapped _ hj p)
      · exact h.map_unique p q k hp' hq'
  · rw [launchOne_of_not_mem hj]
    exact h

theorem WellFormed.wait (h : WellFormed d) {pid : Int} {d' : Daemonizer}
    (hw : onWait d pid = some d') : WellFormed d' := by
  rcases (onWait_cases hw).2 with ⟨-, rfl⟩ | ⟨k, hl, rfl⟩
  · exact ⟨h.launch_unmapped, h.map_unique⟩
  · constructor
    · intro i hi p hp
      obtain ⟨hpne, hp'⟩ := lookup_erase_eq_some hp
      dsimp only at hi
      split_ifs at hi
      · rcases Finset.mem_insert.mp hi with rfl | hi
        · exact hpne (h.map_unique p pid i hp' hl)
        · exact h.launch_unmapped i hi p hp'
      · exact h.launch_unmapped i hi p hp'
    · intro p q i hp hq
      exact h.map_unique p q i (lookup_erase_eq_some hp).2 (lookup_erase_eq_some hq).2

end WellFormed

/-! ## An argument that does not restart is forked at most once -/

/-- An argument that does not ask to be restarted has been forked at most
once, and not at all while it is still to launch. -/
def OnceUnlessRestarted (d : Daemonizer) : Prop :=
  ∀ i, d.restartOf i = false →
    d.launched.count i ≤ 1 ∧ (i ∈ d.executableArgToLaunchSet → d.launched.count i = 0)

section Once

variable {os : Os} {d : Daemonizer}

theorem onceUnlessRestarted_start (executableArgs : List ExecutableArgument) :
    OnceUnlessRestarted (start executableArgs) := by
  intro i _
  simp [start]

theorem OnceUnlessRestarted.launch (h : OnceUnlessRestarted d) (os : Os) (j : Nat) :
    OnceUnlessRestarted (launchOne os d j) := by
  by_cases hj : j ∈ d.executableArgToLaunchSet
  · intro i hi
    have hi' : d.restartOf i = false := by simpa [restartOf] using hi
    obtain ⟨hle, hzero⟩ := h i hi'
    -- a fork adds at most one launch, of `j`
    have hcount : (launchOne os d j).launched.count i ≤
        d.launched.count i + if i = j then 1 else 0 := by
      rw [launchOne_of_mem hj]
      dsimp only
      by_cases hf : os.fork d = -1
      · rw [if_pos hf]
        omega
      · rw [if_neg hf, List.count_append, List.count_singleton]
        by_cases hij : i = j
        · simp [hij]
        · simp [hij, Ne.symm hij]
    rw [launchOne_of_mem hj]
    constructor
    · by_cases hij : i = j
      · subst hij
        rw [launchOne_of_mem hj, if_pos rfl] at hcount
        have := hzero hj
        omega
      · rw [launchOne_of_mem hj, if_neg hij] at hcount
        omega
    · intro hmem
      obtain ⟨hij, hmem⟩ := Finset.mem_erase.mp hmem
      rw [launchOne_of_mem hj, if_neg hij] at hcount
      have := hzero hmem
      omega
  · rw [launchOne_of_not_mem hj]
    exact h

theorem OnceUnlessRestarted.wait (h : OnceUnlessRestarted d) {pid : Int} {d' : Daemonizer}
    (hw : onWait d pid = some d') : OnceUnlessRestarted d' := by
  rcases (onWait_cases hw).2 with ⟨-, rfl⟩ | ⟨k, -, rfl⟩
  · exact h
  · intro i hi
    have hi' : d.restartOf i = false := hi
    obtain ⟨hle, hzero⟩ := h i hi'
    refine ⟨hle, fun hmem => hzero ?_⟩
    dsimp only at hmem
    split_ifs at hmem with hk
    · rcases Finset.mem_insert.mp hmem with rfl | hmem
      · -- the argument put back asks to be restarted
        rw [hk] at hi'
        cases hi'
      · exact hmem
    · exact hmem

end Once

/-- In every run, an argument that does not ask to be restarted is forked
at most once. -/
theorem run_launches_once (os : Os) (fuel : Nat) (executableArgs : List ExecutableArgument) :
    ∀ d ∈ (run os fuel executableArgs).1, ∀ i, d.restartOf i = false → d.launched.count i ≤ 1 := by
  intro d hd i hi
  unfold run at hd
  split at hd
  · simp at hd
  · exact (loop_invariant os OnceUnlessRestarted (fun d j h => h.launch os j)
      (fun _ _ _ h hw => h.wait hw) fuel _ (onceUnlessRestarted_start executableArgs) d hd i hi).1

/-! ## An argument whose fork failed is never forked again -/

/-- The argument `i` is not to launch and is recorded under no pid but
`-1`, which no `wait` that lets the loop go on returns. -/
def Lost (i : Nat) (d : Daemonizer) : Prop :=
  i ∉ d.executableArgToLaunchSet ∧ ∀ pid, d.pidToExecutableArgMap.lookup pid = some i → pid = -1

section Lost

variable {os : Os} {d : Daemonizer} {i : Nat}

/-- A failed fork records its argument under `-1` and takes it out of the
set. -/
theorem lost_of_failed_fork (h : WellFormed d) (hi : i ∈ d.executableArgToLaunchSet)
    (hfork : os.fork d = -1) :
    Lost i (launchOne os d i) ∧ (launchOne os d i).launched = d.launched := by
  rw [launchOne_of_mem hi]
  refine ⟨⟨Finset.notMem_erase i _, fun pid hpid => ?_⟩, if_pos hfork⟩
  rcases lookup_insert_eq_some hpid with ⟨rfl, -⟩ | ⟨-, hold⟩
  · exact hfork
  · exact absurd hold (h.launch_unmapped i hi pid)

theorem Lost.launch (h : Lost i d) (hc : d.launched.count i = c) (os : Os) (j : Nat) :
    Lost i (launchOne os d j) ∧ (launchOne os d j).launched.count i = c := by
  by_cases hj : j ∈ d.executableArgToLaunchSet
  · have hij : i ≠ j := fun hij => h.1 (hij ▸ hj)
    rw [launchOne_of_mem hj]
    refine ⟨⟨fun hmem => h.1 (Finset.mem_of_mem_erase hmem), fun pid hpid => ?_⟩, ?_⟩
    · rcases lookup_insert_eq_some hpid with ⟨-, rfl⟩ | ⟨-, hold⟩
      · exact absurd rfl hij
      · exact h.2 pid hold
    · dsimp only
      split_ifs
      · exact hc
      · simp [List.count_append, hc, Ne.symm hij]
  · rw [launchOne_of_not_mem hj]
    exact ⟨h, hc⟩

theorem Lost.wait (h : Lost i d) {pid : Int} {d' : Daemonizer} (hw : onWait d pid = some d') :
    Lost i d' ∧ d'.launched = d.launched := by
  obtain ⟨hpid, hcases⟩ := onWait_cases hw
  rcases hcases with ⟨-, rfl⟩ | ⟨k, hl, rfl⟩
  · exact ⟨h, rfl⟩
  · -- the exited child was not `i`'s, which has none but `-1`
    have hki : k ≠ i := fun hki => hpid (h.2 pid (hki ▸ hl))
    refine ⟨⟨fun hmem => ?_, fun p hp => h.2 p (lookup_erase_eq_some hp).2⟩, rfl⟩
    dsimp only at hmem
    split_ifs at hmem
    · rcases Finset.mem_insert.mp hmem with hik | hmem
      · exact hki hik.symm
      · exact h.1 hmem
    · exact h.1 hmem

/-- Once an argument is lost, no later turn of the loop forks it. -/
theorem Lost.loop (h : Lost i d) (fuel : Nat) :
    ∀ d' ∈ (loop os fuel d).1, i ∉ d'.executableArgToLaunchSet ∧
      d'.launched.count i = d.launched.count i := by
  intro d' hd'
  obtain ⟨hlost, hcount⟩ := loop_invariant os
    (fun d' => Lost i d' ∧ d'.launched.count i = d.launched.count i)
    (fun _ j hd => hd.1.launch hd.2 os j)
    (fun _ _ _ hd hw => by
      obtain ⟨hl, heq⟩ := hd.1.wait hw
      exact ⟨hl, heq ▸ hd.2⟩)
    fuel d ⟨h, rfl⟩ d' hd'
  exact ⟨hlost.1, hcount⟩

end Lost

/-! ## Forks that never fail keep every restarting argument running -/

/-- The operating system's forks never fail and return a pid the daemonizer
has not recorded. -/
def ForksFresh (os : Os) : Prop :=
  ∀ d, os.fork d ≠ -1 ∧ d.pidToExecutableArgMap.lookup (os.fork d) = none

/-- Every recorded pid is a live child, and every argument that asks to be
restarted is to launch or recorded under a pid. -/
structure Supervised (d : Daemonizer) : Prop where
  mapped_live : ∀ pid i, d.pidToExecutableArgMap.lookup pid = some i → pid ∈ d.children
  restart_held : ∀ i < d.executableArgs.length, d.restartOf i = true →
    i ∈ d.executableArgToLaunchSet ∨ ∃ pid, d.pidToExecutableArgMap.lookup pid = some i

section Supervised

variable {os : Os} {d : Daemonizer}

theorem supervised_start (executableArgs : List ExecutableArgument) :
    Supervised (start executableArgs) := by
  constructor
  · intro pid i hpid
    simp [start] at hpid
  · intro i hi _
    exact .inl (Finset.mem_range.mpr hi)

theorem Supervised.launch (h : Supervised d) (hos : ForksFresh os) (j : Nat) :
    Supervised (launchOne os d j) := by
  by_cases hj : j ∈ d.executableArgToLaunchSet
  · obtain ⟨hne, hfresh⟩ := hos d
    rw [launchOne_of_mem hj]
    constructor
    · intro pid i hpid
      dsimp only
      rw [if_neg hne]
      rcases lookup_insert_eq_some hpid with ⟨rfl, -⟩ | ⟨-, hold⟩
      · exact Finset.mem_insert_self _ _
      · exact Finset.mem_insert_of_mem (h.mapped_live pid i hold)
    · intro i hi hr
      by_cases hij : i = j
      · -- the argument just forked is recorded under its new pid
        subst hij
        exact .inr ⟨os.fork d, AList.lookup_insert _⟩
      · rcases h.restart_held i hi hr with hmem | ⟨p, hp⟩
        · exact .inl (Finset.mem_erase.mpr ⟨hij, hmem⟩)
        · have hpne : p ≠ os.fork d := by
            rintro rfl
            rw [hfresh] at hp
            cases hp
          exact .inr ⟨p, (AList.lookup_insert_ne hpne).trans hp⟩
  · rw [launchOne_of_not_mem hj]
    exact h

theorem Supervised.wait (h : Supervised d) {pid : Int} {d' : Daemonizer}
    (hw : onWait d pid = some d') : Supervised d' := by
  rcases (onWait_cases hw).2 with ⟨hl, rfl⟩ | ⟨k, hl, rfl⟩
  · -- a grandchild: no recorded pid is its
    constructor
    · intro p i hp
      have hpne : p ≠ pid := by
        rintro rfl
        rw [hl] at hp
        cases hp
      exact Finset.mem_erase.mpr ⟨hpne, h.mapped_live p i hp⟩
    · exact h.restart_held
  · constructor
    · intro p i hp
      obtain ⟨hpne, hp'⟩ := lookup_erase_eq_some hp
      exact Finset.mem_erase.mpr ⟨hpne, h.mapped_live p i hp'⟩
    · intro i hi hr
      have hr' : d.restartOf i = true := hr
      by_cases hik : i = k
      · subst hik
        left
        dsimp only
        rw [if_pos hr']
        exact Finset.mem_insert_self _ _
      · rcases h.restart_held i hi hr' with hmem | ⟨p, hp⟩
        · left
          dsimp only
          split_ifs
          · exact Finset.mem_insert_of_mem hmem
          · exact hmem
        · have hpne : p ≠ pid := by
            rintro rfl
            rw [hl, Option.some.injEq] at hp
            exact hik hp.symm
          exact .inr ⟨p, (AList.lookup_erase_ne hpne).trans hp⟩

end Supervised

/-- When no fork fails, every argument that asks to be restarted is, at
every call to `wait`, to launch or the argument of exactly one live child
recorded in `pid_to_executable_arg_map_`. -/
theorem run_supervised {os : Os} (hos : ForksFresh os) (fuel : Nat)
    (executableArgs : List ExecutableArgument) :
    ∀ d ∈ (run os fuel executableArgs).1, ∀ i < d.executableArgs.length, d.restartOf i = true →
      i ∈ d.executableArgToLaunchSet ∨
        ∃ pid ∈ d.children, d.pidToExecutableArgMap.lookup pid = some i ∧
          ∀ q, d.pidToExecutableArgMap.lookup q = some i → q = pid := by
  intro d hd i hi hr
  unfold run at hd
  split at hd
  · simp at hd
  · obtain ⟨hwf, hsup⟩ := loop_invariant os (fun d => WellFormed d ∧ Supervised d)
      (fun _ j h => ⟨h.1.launch os j, h.2.launch hos j⟩)
      (fun _ _ _ h hw => ⟨h.1.wait hw, h.2.wait hw⟩)
      fuel _ ⟨wellFormed_start executableArgs, supervised_start executableArgs⟩ d hd
    rcases hsup.restart_held i hi hr with hmem | ⟨pid, hpid⟩
    · exact .inl hmem
    · exact .inr ⟨pid, hsup.mapped_live pid i hpid, hpid,
        fun q hq => hwf.map_unique q pid i hq hpid⟩

/-! ## A failed fork loses a restarting argument -/

/-- Two arguments that ask to be restarted. -/
def restartBoth : List ExecutableArgument := [⟨"a", [], true⟩, ⟨"b", [], true⟩]

/-- The fork of the first argument fails; every other fork succeeds with a
new pid, and `wait` returns the pid of the last child forked. -/
def firstForkFails : Os :=
  ⟨fun d => if 0 ∈ d.executableArgToLaunchSet then -1 else 100 + d.launched.length,
    fun d => if d.children = ∅ then -1 else 99 + d.launched.length⟩

/-- At each of the first three calls to `wait`, the first argument, which
asks to be restarted, is not to launch and is recorded only under `-1`,
while the only live child is the second argument's, which is restarted each
time; the first argument is never forked. -/
theorem failed_fork_never_restarted :
    (run firstForkFails 3 restartBoth).1.map (fun d =>
      (d.executableArgToLaunchSet, d.pidToExecutableArgMap.entries.map (fun e => (e.1, e.2)),
        d.children, d.launched)) =
      [(∅, [(100, 1), (-1, 0)], {100}, [1]),
        (∅, [(101, 1), (-1, 0)], {101}, [1, 1]),
        (∅, [(102, 1), (-1, 0)], {102}, [1, 1, 1])] := by
  decide

end Daemonizer

end ControlPlane.ProcessLauncher
