import CyclicDeadline.Startup.Machine
import Mathlib.Data.Fintype.Option

/-!
# The invariant of the startup protocol

`Proc.party` is what the barrier sees of `main` and of each thread: how often it has called
`pthread_barrier_wait` and the cycle it waits in. Through it a `Proc` is an instance of the
barrier of `Startup/Barrier`, and `Inv.barrier` says that the count and the cycles of `Proc` are
those of `BarrierOk` for the `N + 1` parties.

`Phases` is what the threads' progress keeps true on top of that: threads `main` has not reached
are not started, a thread that failed a call has set `shutdown`, no thread failed its
`sched_getattr` once `main` got past its first check, and a thread runs `do_runtime` only when
every thread's `sched_setattr` has succeeded. `WorkerPc.next_spec` and `MainPc.next_spec` say
once what a step of `next` can do; `Inv.step` shows each kind of step keeps `Inv`, and
`reachable_inv` that every reachable state satisfies it.
-/

set_option autoImplicit false
set_option relaxedAutoImplicit false

namespace CyclicDeadline

/-! ### What the barrier sees -/

/-- How often a thread at `pc` has called `pthread_barrier_wait`. -/
def WorkerPc.arrivals : WorkerPc → Nat
  | .unborn | .getattr => 0
  | .setShutdown resume | .arrive resume => resume.calls
  | .blocked resume _ => resume.calls + 1
  | .setattr => 2
  | .loopTest | .runtime | .getattrAgain => 3
  | .exited .getattrFailed => 1
  | .exited _ => 3

/-- The cycle a thread at `pc` waits in. -/
def WorkerPc.waiting : WorkerPc → Option Nat
  | .blocked _ cycle => some cycle
  | _ => none

/-- What the barrier sees of a thread at `pc`. -/
def WorkerPc.party (pc : WorkerPc) : Party :=
  ⟨pc.arrivals, pc.waiting⟩

/-- How often `main` at `pc` has called `pthread_barrier_wait`. -/
def MainPc.arrivals : MainPc → Nat
  | .create _ => 0
  | .arrive resume => resume.calls
  | .blocked resume _ => resume.calls + 1
  | .checkStep1 | .cpuset => 1
  | .checkStep2 => 2
  | .loop | .join _ | .returned => 3
  | .fatal .step2 => 2
  | .fatal _ => 1

/-- The cycle `main` at `pc` waits in. -/
def MainPc.waiting : MainPc → Option Nat
  | .blocked _ cycle => some cycle
  | _ => none

/-- What the barrier sees of `main` at `pc`. -/
def MainPc.party (pc : MainPc) : Party :=
  ⟨pc.arrivals, pc.waiting⟩

variable {N : Nat}

/-- What the barrier sees of its `N + 1` parties: `none` is `main`, `some i` thread `i`. -/
def Proc.party (s : Proc N) : Option (Fin N) → Party
  | none => s.main.party
  | some i => (s.worker i).party

@[simp] theorem Proc.party_none (s : Proc N) : s.party none = s.main.party := rfl

@[simp] theorem Proc.party_some (s : Proc N) (i : Fin N) : s.party (some i) = (s.worker i).party :=
  rfl

theorem Proc.party_setWorker (s : Proc N) (i : Fin N) (pc : WorkerPc) :
    (s.setWorker i pc).party = Function.update s.party (some i) pc.party := by
  funext p
  rcases p with _ | j
  · rfl
  · by_cases hj : j = i
    · subst hj; simp
    · simp [Function.update_noteq hj, Function.update_noteq (Option.some_injective _ |>.ne hj)]

theorem Proc.party_setMain (s : Proc N) (pc : MainPc) :
    (s.setMain pc).party = Function.update s.party none pc.party := by
  funext p
  rcases p with _ | j
  · simp
  · simp [Function.update_noteq (Option.some_ne_none j)]

@[simp] theorem Proc.party_arrive (s : Proc N) : s.arrive.party = s.party := by
  funext p; rcases p with _ | j <;> simp [Proc.party]

/-! ### How far each party has got -/

/-- The thread's first `sched_getattr` has returned success. -/
def WorkerPc.getattrOk : WorkerPc → Bool
  | .unborn | .getattr | .setShutdown .getattrFailed | .arrive .getattrFailed
  | .blocked .getattrFailed _ | .exited .getattrFailed => false
  | _ => true

/-- The thread failed its first `sched_getattr`. -/
def WorkerPc.getattrFailed : WorkerPc → Bool
  | .setShutdown .getattrFailed | .arrive .getattrFailed | .blocked .getattrFailed _
  | .exited .getattrFailed => true
  | _ => false

/-- The thread is at its `sched_setattr` or past it. -/
def WorkerPc.reachedSetattr : WorkerPc → Bool
  | .setattr | .setShutdown .setattrFailed | .arrive .setattrFailed | .blocked .setattrFailed _
  | .arrive .loop | .blocked .loop _ | .loopTest | .runtime | .getattrAgain
  | .exited .done | .exited .setattrFailed | .exited .getattrAgainFailed => true
  | _ => false

/-- The thread's `sched_setattr` has returned success. -/
def WorkerPc.setattrOk : WorkerPc → Bool
  | .arrive .loop | .blocked .loop _ | .loopTest | .runtime | .getattrAgain
  | .exited .done | .exited .getattrAgainFailed => true
  | _ => false

/-- The thread has set `shutdown` after a failed call. -/
def WorkerPc.failed : WorkerPc → Bool
  | .arrive .getattrFailed | .arrive .setattrFailed | .blocked .getattrFailed _
  | .blocked .setattrFailed _ | .exited .getattrFailed | .exited .setattrFailed => true
  | _ => false

/-- `main` got past its check of `shutdown` after the first meeting. -/
def MainPc.passedStep1 : MainPc → Bool
  | .create _ | .arrive .checkStep1 | .blocked .checkStep1 _ | .checkStep1 | .fatal .step1 => false
  | _ => true

/-- `main` has made the cpusets, or skipped them under `all_cpus`. -/
def MainPc.cpusetDone : MainPc → Bool
  | .create _ | .arrive .checkStep1 | .blocked .checkStep1 _ | .checkStep1 | .cpuset
  | .fatal .step1 | .fatal .cpuset => false
  | _ => true

theorem WorkerPc.getattrOk_of_two_le {pc : WorkerPc} (h : 2 ≤ pc.arrivals) : pc.getattrOk := by
  rcases pc with _ | _ | (_ | _ | _ | _ | _) | (_ | _ | _ | _ | _) | ⟨(_ | _ | _ | _ | _), g⟩ |
    _ | _ | _ | _ | (_ | _ | _ | _) <;>
    simp [WorkerPc.arrivals, WorkerPc.getattrOk, WorkerResume.calls] at h ⊢

theorem WorkerPc.setattrOk_or_failed {pc : WorkerPc} (h : 3 ≤ pc.arrivals) :
    pc.setattrOk ∨ pc.failed := by
  rcases pc with _ | _ | (_ | _ | _ | _ | _) | (_ | _ | _ | _ | _) | ⟨(_ | _ | _ | _ | _), g⟩ |
    _ | _ | _ | _ | (_ | _ | _ | _) <;>
    simp [WorkerPc.arrivals, WorkerPc.setattrOk, WorkerPc.failed, WorkerResume.calls] at h ⊢

theorem WorkerPc.two_le_passed {pc : WorkerPc} (h : pc.reachedSetattr) : 2 ≤ pc.party.passed := by
  rcases pc with _ | _ | (_ | _ | _ | _ | _) | (_ | _ | _ | _ | _) | ⟨(_ | _ | _ | _ | _), g⟩ |
    _ | _ | _ | _ | (_ | _ | _ | _) <;>
    simp [WorkerPc.reachedSetattr, WorkerPc.party, Party.passed, WorkerPc.arrivals,
      WorkerPc.waiting, WorkerResume.calls] at h ⊢

theorem MainPc.cpusetDone_of_two_le {pc : MainPc} (h : 2 ≤ pc.arrivals) : pc.cpusetDone := by
  rcases pc with _ | (_ | _ | _) | ⟨(_ | _ | _), g⟩ | _ | _ | _ | _ | _ | _ | (_ | _ | _) <;>
    simp [MainPc.arrivals, MainPc.cpusetDone, MainResume.calls] at h ⊢

theorem MainPc.one_le_passed {pc : MainPc} (h : pc.passedStep1) : 1 ≤ pc.party.passed := by
  rcases pc with _ | (_ | _ | _) | ⟨(_ | _ | _), g⟩ | _ | _ | _ | _ | _ | _ | (_ | _ | _) <;>
    simp [MainPc.passedStep1, MainPc.party, Party.passed, MainPc.arrivals, MainPc.waiting,
      MainResume.calls] at h ⊢

/-! ### What one step of `next` can do -/

/-- A step of `WorkerPc.next` keeps the thread's barrier calls and leaves it waiting in no cycle,
starts from a completed cycle if it starts inside the barrier, and moves the thread forward:
onto a failure path only from the call that failed, into `do_runtime` only from the loop test
with `shutdown` clear, and never back before a successful `sched_setattr`. -/
theorem WorkerPc.next_spec {shutdown : Bool} {cycle : Nat} {ok : Bool} {pc pc' : WorkerPc}
    (h : pc.next shutdown cycle ok = some pc') :
    pc'.arrivals = pc.arrivals ∧ pc'.waiting = none ∧ (∀ g, pc.waiting = some g → g < cycle) ∧
      pc ≠ .unborn ∧ (pc'.failed → pc.failed) ∧
      (pc'.getattrFailed → pc.getattrFailed ∨ pc = .getattr) ∧
      (pc' = .runtime → pc = .loopTest ∧ shutdown = false) ∧ (pc.setattrOk → pc'.setattrOk) := by
  rcases pc with _ | _ | r | r | ⟨r, g⟩ | _ | _ | _ | _ | how <;>
    simp only [WorkerPc.next, reduceCtorEq] at h
  case blocked =>
    split at h
    · cases h
      rcases r <;> simp_all [WorkerResume.next, WorkerPc.arrivals, WorkerPc.waiting,
        WorkerPc.failed, WorkerPc.getattrFailed, WorkerPc.setattrOk, WorkerResume.calls]
    · cases h
  all_goals
    cases h
    cases ok <;> cases shutdown <;> simp [WorkerPc.arrivals, WorkerPc.waiting, WorkerPc.failed,
      WorkerPc.getattrFailed, WorkerPc.setattrOk, WorkerResume.calls]

/-- A step of `MainPc.next` keeps `main`'s barrier calls and leaves it waiting in no cycle,
starts from a completed cycle if it starts inside the barrier, never goes back to thread
creation, and gets past the first check only from the check itself with `shutdown` clear. -/
theorem MainPc.next_spec {shutdown : Bool} {cycle : Nat} {ok : Bool} {pc pc' : MainPc}
    (h : pc.next shutdown cycle ok = some pc') :
    pc'.arrivals = pc.arrivals ∧ pc'.waiting = none ∧ (∀ g, pc.waiting = some g → g < cycle) ∧
      (∀ i, pc' ≠ .create i) ∧
      (pc'.passedStep1 → pc.passedStep1 ∨ pc = .checkStep1 ∧ shutdown = false) := by
  rcases pc with _ | r | ⟨r, g⟩ | _ | _ | _ | _ | _ | _ | site <;>
    simp only [MainPc.next, reduceCtorEq] at h
  case blocked =>
    split at h
    · cases h
      rcases r <;> simp_all [MainResume.next, MainPc.arrivals, MainPc.waiting, MainPc.passedStep1,
        MainResume.calls]
    · cases h
  all_goals
    cases h
    cases ok <;> cases shutdown <;>
      simp [MainPc.arrivals, MainPc.waiting, MainPc.passedStep1, MainResume.calls]

/-! ### The invariant -/

/-- What the progress of the threads keeps true. -/
structure Phases (s : Proc N) : Prop where
  /-- The threads `main` has not come to are not started. -/
  unborn : ∀ i (j : Fin N), s.main = .create i → i ≤ j → s.worker j = .unborn
  /-- A thread that failed a call has set `shutdown`. -/
  shutdown_of_failed : ∀ j, (s.worker j).failed → s.shutdown
  /-- Once `main` got past its first check, no thread has failed its `sched_getattr`. -/
  getattr_ok : s.main.passedStep1 → ∀ j, (s.worker j).getattrFailed = false
  /-- A thread in `do_runtime` comes after every thread's successful `sched_setattr`. -/
  setattr_ok : ∀ j, s.worker j = .runtime → ∀ k, (s.worker k).setattrOk

/-- The invariant of the startup protocol: the barrier's bookkeeping and the threads' progress. -/
structure Inv (s : Proc N) : Prop where
  barrier : BarrierOk s.party s.arrived s.cycle
  phases : Phases s

variable {s : Proc N}

theorem Phases.init : Phases (Proc.init : Proc N) where
  unborn _ _ _ _ := rfl
  shutdown_of_failed _ h := by cases h
  getattr_ok h := by cases h
  setattr_ok _ h := by cases h

theorem Phases.setShutdown (h : Phases s) : Phases { s with shutdown := true } :=
  ⟨h.unborn, fun _ _ ↦ rfl, h.getattr_ok, h.setattr_ok⟩

theorem Phases.arrive (h : Phases s) : Phases s.arrive := by
  refine ⟨?_, ?_, ?_, ?_⟩ <;> simp only [Proc.arrive_main, Proc.arrive_worker, Proc.arrive_shutdown]
  exacts [h.unborn, h.shutdown_of_failed, h.getattr_ok, h.setattr_ok]

/-- Thread `i` may move to `pc`, keeping the phases, when `pc` is `unborn` while `main` has not come
to it, is on a failure path only once `shutdown` is set, has failed `sched_getattr` after `main`'s
first check only if it had before, runs `do_runtime` only after every `sched_setattr` succeeded, and
keeps a successful `sched_setattr`. -/
theorem Phases.setWorker (h : Phases s) {i : Fin N} {pc : WorkerPc}
    (hborn : ∀ i', s.main = .create i' → i' ≤ i → pc = .unborn)
    (hfailed : pc.failed → (s.worker i).failed ∨ s.shutdown)
    (hgetattr : pc.getattrFailed → s.main.passedStep1 → (s.worker i).getattrFailed)
    (hruntime : pc = .runtime → ∀ k, (s.worker k).setattrOk)
    (hsetattr : (s.worker i).setattrOk → pc.setattrOk) :
    Phases (s.setWorker i pc) := by
  refine ⟨fun i' j hmain hle ↦ ?_, fun j hj ↦ ?_, fun hmain j ↦ ?_, fun j hj k ↦ ?_⟩ <;>
    simp only [Proc.setWorker_main, Proc.setWorker_worker, Proc.setWorker_shutdown] at *
  · rcases eq_or_ne j i with rfl | hji
    · simpa using hborn i' hmain hle
    · simpa [Function.update_noteq hji] using h.unborn i' j hmain hle
  · rcases eq_or_ne j i with rfl | hji
    · rcases hfailed (by simpa using hj) with hold | hsh
      exacts [h.shutdown_of_failed j hold, hsh]
    · exact h.shutdown_of_failed j (by simpa [Function.update_noteq hji] using hj)
  · rcases eq_or_ne j i with rfl | hji
    · cases hpc : pc.getattrFailed
      · simp [hpc]
      · simpa [h.getattr_ok hmain j] using hgetattr hpc hmain
    · simpa [Function.update_noteq hji] using h.getattr_ok hmain j
  · have hall : ∀ k, (s.worker k).setattrOk := by
      rcases eq_or_ne j i with rfl | hji
      · exact hruntime (by simpa using hj)
      · exact h.setattr_ok j (by simpa [Function.update_noteq hji] using hj)
    rcases eq_or_ne k i with rfl | hki
    · simpa using hsetattr (hall k)
    · simpa [Function.update_noteq hki] using hall k

/-- The main thread may move to `pc`, keeping the phases, when `pc` is a thread creation only after
an earlier one, and is past the first check only if `main` was, or no thread has failed
`sched_getattr`. -/
theorem Phases.setMain (h : Phases s) {pc : MainPc}
    (hcreate : ∀ i', pc = .create i' → ∃ i ≤ i', s.main = .create i)
    (hpassed : pc.passedStep1 → s.main.passedStep1 ∨ ∀ j, (s.worker j).getattrFailed = false) :
    Phases (s.setMain pc) := by
  refine ⟨fun i' j hmain hle ↦ ?_, h.shutdown_of_failed, fun hmain ↦ ?_, h.setattr_ok⟩
  · obtain ⟨i, hi, hold⟩ := hcreate i' hmain
    exact h.unborn i j hold (hi.trans hle)
  · rcases hpassed hmain with hold | hall
    exacts [h.getattr_ok hold, hall]

theorem Inv.init : Inv (Proc.init : Proc N) := by
  have hparty : (Proc.init : Proc N).party = fun _ ↦ ⟨0, none⟩ := by
    funext p; rcases p with _ | j <;> rfl
  exact ⟨hparty ▸ BarrierOk.init (by simp), Phases.init⟩

theorem Inv.setShutdown (h : Inv s) : Inv { s with shutdown := true } :=
  ⟨h.barrier, h.phases.setShutdown⟩

/-! ### What the barrier tells about the phases -/

/-- While thread `i` has not called `pthread_barrier_wait`, `main` is not past its first check. -/
theorem Inv.not_passedStep1 (h : Inv s) {i : Fin N} (hi : (s.worker i).arrivals = 0) :
    s.main.passedStep1 = false := by
  cases hpassed : s.main.passedStep1
  · rfl
  · have h1 := MainPc.one_le_passed hpassed
    have h2 := h.barrier.passed_le none
    have h3 := h.barrier.cycle_le (some i)
    simp only [Proc.party_none, Proc.party_some, WorkerPc.party] at h2 h3
    omega

/-- When thread `i` tests the loop condition with `shutdown` clear, every `sched_setattr` has
succeeded. -/
theorem Inv.setattrOk_of_loopTest (h : Inv s) {i : Fin N} (hi : s.worker i = .loopTest)
    (hsh : s.shutdown = false) (k : Fin N) : (s.worker k).setattrOk := by
  have hcycle : 3 = s.cycle := by
    simpa [hi, WorkerPc.party, WorkerPc.arrivals] using
      h.barrier.arrivals_eq_of_free (p := some i) (by simp [hi, WorkerPc.party, WorkerPc.waiting])
  have hk : s.cycle ≤ (s.worker k).arrivals := h.barrier.cycle_le (some k)
  rcases WorkerPc.setattrOk_or_failed (by omega : 3 ≤ (s.worker k).arrivals) with hok | hfailed
  · exact hok
  · simpa [hsh] using h.phases.shutdown_of_failed k hfailed

theorem WorkerPc.failed_of_getattrFailed {pc : WorkerPc} (h : pc.getattrFailed)
    (harr : 1 ≤ pc.arrivals) : pc.failed := by
  rcases pc with _ | _ | (_ | _ | _ | _ | _) | (_ | _ | _ | _ | _) | ⟨(_ | _ | _ | _ | _), g⟩ |
    _ | _ | _ | _ | (_ | _ | _ | _) <;>
    simp [WorkerPc.getattrFailed, WorkerPc.failed, WorkerPc.arrivals, WorkerResume.calls] at h harr ⊢

/-- When `main` checks `shutdown` after the first meeting and finds it clear, no thread has failed
its `sched_getattr`. -/
theorem Inv.getattr_ok_of_checkStep1 (h : Inv s) (hmain : s.main = .checkStep1)
    (hsh : s.shutdown = false) (j : Fin N) : (s.worker j).getattrFailed = false := by
  have hcycle : 1 = s.cycle := by
    simpa [hmain, MainPc.party, MainPc.arrivals] using
      h.barrier.arrivals_eq_of_free (p := none) (by simp [hmain, MainPc.party, MainPc.waiting])
  have hj : s.cycle ≤ (s.worker j).arrivals := h.barrier.cycle_le (some j)
  cases hpc : (s.worker j).getattrFailed
  · rfl
  · simpa [hsh] using h.phases.shutdown_of_failed j
      (WorkerPc.failed_of_getattrFailed hpc (by omega))

/-! ### Each kind of step keeps the invariant -/

variable {i : Fin N}

/-- When thread `i` moves to `pc` without calling `pthread_barrier_wait`, keeping its calls, from
outside the barrier or from a completed cycle, and the threads' progress is kept, the move keeps the
invariant. -/
theorem Inv.setWorker (h : Inv s) {pc : WorkerPc} (harr : pc.arrivals = (s.worker i).arrivals)
    (hwait : pc.waiting = none) (hfree : ∀ g, (s.worker i).waiting = some g → g < s.cycle)
    (hphases : Phases (s.setWorker i pc)) : Inv (s.setWorker i pc) := by
  refine ⟨?_, hphases⟩
  have hparty : pc.party = ⟨(s.party (some i)).arrivals, none⟩ := by
    simp [WorkerPc.party, harr, hwait]
  rw [Proc.party_setWorker, hparty]
  exact h.barrier.release (some i) (by simpa [WorkerPc.party] using hfree)

/-- When `main` moves to `pc` without calling `pthread_barrier_wait`, keeping its calls, from
outside the barrier or from a completed cycle, and the threads' progress is kept, the move keeps the
invariant. -/
theorem Inv.setMain (h : Inv s) {pc : MainPc} (harr : pc.arrivals = s.main.arrivals)
    (hwait : pc.waiting = none) (hfree : ∀ g, s.main.waiting = some g → g < s.cycle)
    (hphases : Phases (s.setMain pc)) : Inv (s.setMain pc) := by
  refine ⟨?_, hphases⟩
  have hparty : pc.party = ⟨(s.party none).arrivals, none⟩ := by
    simp [MainPc.party, harr, hwait]
  rw [Proc.party_setMain, hparty]
  exact h.barrier.release none (by simpa [MainPc.party] using hfree)

/-- A step of `WorkerPc.next` keeps the invariant. -/
theorem Inv.setWorker_next (h : Inv s) {ok : Bool} {pc : WorkerPc}
    (hnext : (s.worker i).next s.shutdown s.cycle ok = some pc) : Inv (s.setWorker i pc) := by
  obtain ⟨harr, hwait, hfree, hborn, hfailed, hgetattr, hruntime, hsetattr⟩ :=
    WorkerPc.next_spec hnext
  refine h.setWorker harr hwait hfree (h.phases.setWorker
    (fun i' hmain hle ↦ absurd (h.phases.unborn i' i hmain hle) hborn)
    (fun hpc ↦ .inl (hfailed hpc)) (fun hpc hmain ↦ ?_) (fun hpc ↦ ?_) hsetattr)
  · rcases hgetattr hpc with hold | hold
    · exact hold
    · simp [h.not_passedStep1 (i := i) (by simp [hold, WorkerPc.arrivals])] at hmain
  · obtain ⟨hloop, hsh⟩ := hruntime hpc
    exact h.setattrOk_of_loopTest hloop hsh

/-- A thread's `shutdown = 1` keeps the invariant. -/
theorem Inv.workerWrite (h : Inv s) {resume : WorkerResume}
    (hpc : s.worker i = .setShutdown resume) :
    Inv ({ s with shutdown := true }.setWorker i (.arrive resume)) := by
  refine h.setShutdown.setWorker (by simp [hpc, WorkerPc.arrivals]) rfl
    (by simp [hpc, WorkerPc.waiting]) (h.phases.setShutdown.setWorker (fun i' hmain hle ↦ ?_)
      (fun _ ↦ .inr rfl) (fun hfailed _ ↦ ?_) (fun hrun ↦ by cases hrun) (fun hok ↦ ?_))
  · simpa [hpc] using h.phases.unborn i' i hmain hle
  · cases resume <;> simp_all [WorkerPc.getattrFailed]
  · simp [hpc, WorkerPc.setattrOk] at hok

/-- A thread's call of `pthread_barrier_wait` keeps the invariant. -/
theorem Inv.workerArrive (h : Inv s) {resume : WorkerResume} (hpc : s.worker i = .arrive resume) :
    Inv (s.setWorker i (.blocked resume s.cycle)).arrive := by
  refine ⟨?_, (h.phases.setWorker (fun i' hmain hle ↦ ?_) (fun hfailed ↦ .inl ?_)
    (fun hfailed _ ↦ ?_) (fun hrun ↦ by cases hrun) (fun hok ↦ ?_)).arrive⟩
  · have hb := h.barrier.arrive (some i) (by simp [hpc, WorkerPc.party, WorkerPc.waiting])
    rw [Fintype.card_option, Fintype.card_fin] at hb
    rw [Proc.party_arrive, Proc.arrive_arrived, Proc.arrive_cycle, Proc.party_setWorker]
    convert hb using 2
    simp [hpc, WorkerPc.party, WorkerPc.arrivals, WorkerPc.waiting]
  · simpa [hpc] using h.phases.unborn i' i hmain hle
  all_goals cases resume <;> simp_all [WorkerPc.failed, WorkerPc.getattrFailed, WorkerPc.setattrOk]

/-- A step of `MainPc.next` keeps the invariant. -/
theorem Inv.setMain_next (h : Inv s) {ok : Bool} {pc : MainPc}
    (hnext : s.main.next s.shutdown s.cycle ok = some pc) : Inv (s.setMain pc) := by
  obtain ⟨harr, hwait, hfree, hcreate, hpassed⟩ := MainPc.next_spec hnext
  refine h.setMain harr hwait hfree
    (h.phases.setMain (fun i' hpc ↦ absurd hpc (hcreate i')) fun hpc ↦ ?_)
  rcases hpassed hpc with hold | ⟨hmain, hsh⟩
  exacts [.inl hold, .inr (h.getattr_ok_of_checkStep1 hmain hsh)]

/-- `pthread_create` keeps the invariant, whether it fails or starts thread `k`. -/
theorem Inv.create (h : Inv s) {k : Nat} (hmain : s.main = .create k) (hk : k < N) (ok : Bool) :
    Inv (if ok then (s.setMain (.create (k + 1))).setWorker ⟨k, hk⟩ .getattr
      else s.setMain (.create (k + 1))) := by
  have h1 : Inv (s.setMain (.create (k + 1))) :=
    h.setMain (by simp [hmain, MainPc.arrivals]) rfl (by simp [hmain, MainPc.waiting])
      (h.phases.setMain (fun i' hpc ↦ ⟨k, by cases hpc; omega, hmain⟩)
        (by simp [MainPc.passedStep1]))
  have hunborn : s.worker ⟨k, hk⟩ = .unborn := h.phases.unborn k ⟨k, hk⟩ hmain le_rfl
  cases ok
  · exact h1
  · rw [if_pos rfl]
    refine h1.setWorker (by simp [hunborn, WorkerPc.arrivals]) rfl
      (by simp [hunborn, WorkerPc.waiting]) (h1.phases.setWorker (fun i' hmain' hle ↦ ?_)
        (fun hf ↦ by cases hf) (fun hf ↦ by cases hf) (fun hrun ↦ by cases hrun) (fun hok ↦ ?_))
    · simp only [Proc.setMain_main, MainPc.create.injEq] at hmain'
      simp at hle
      omega
    · simp [hunborn, WorkerPc.setattrOk] at hok

/-- `join_thread` and `return 0` keep the invariant. -/
theorem Inv.join (h : Inv s) {k : Nat} (hmain : s.main = .join k) {pc : MainPc}
    (hpc : pc = .join (k + 1) ∨ pc = .returned) : Inv (s.setMain pc) := by
  rcases hpc with rfl | rfl <;>
    exact h.setMain (by simp [hmain, MainPc.arrivals]) rfl (by simp [hmain, MainPc.waiting])
      (h.phases.setMain (fun _ hpc ↦ by cases hpc) fun _ ↦ .inl (by simp [hmain, MainPc.passedStep1]))

/-- `main`'s call of `pthread_barrier_wait` keeps the invariant. -/
theorem Inv.mainArrive (h : Inv s) {resume : MainResume} (hmain : s.main = .arrive resume) :
    Inv (s.setMain (.blocked resume s.cycle)).arrive := by
  refine ⟨?_, (h.phases.setMain (fun i' hpc ↦ by cases hpc) fun hpc ↦ .inl ?_).arrive⟩
  · have hb := h.barrier.arrive none (by simp [hmain, MainPc.party, MainPc.waiting])
    rw [Fintype.card_option, Fintype.card_fin] at hb
    rw [Proc.party_arrive, Proc.arrive_arrived, Proc.arrive_cycle, Proc.party_setMain]
    convert hb using 2
    simp [hmain, MainPc.party, MainPc.arrivals, MainPc.waiting]
  · cases resume <;> simp_all [MainPc.passedStep1]

/-- Every step keeps the invariant. -/
theorem Inv.step (h : Inv s) {e : Event N} {s' : Proc N} (hstep : s.step e = some s') : Inv s' := by
  cases e with
  | signal =>
    simp only [Proc.step] at hstep
    split at hstep
    · cases hstep; exact h.setShutdown
    · cases hstep
  | worker i ok =>
    simp only [Proc.step] at hstep
    split at hstep
    · simp only [Proc.workerStep] at hstep
      split at hstep
      · cases hstep; exact h.workerWrite ‹_›
      · cases hstep; exact h.workerArrive ‹_›
      · obtain ⟨pc, hnext, rfl⟩ := Option.map_eq_some'.1 hstep
        exact h.setWorker_next hnext
    · cases hstep
  | main ok =>
    simp only [Proc.step, Proc.mainStep] at hstep
    split at hstep
    · split at hstep
      · cases hstep; exact h.create ‹_› ‹_› ok
      · cases hstep
        exact h.setMain (by simp [‹s.main = _›, MainPc.arrivals, MainResume.calls]) rfl
          (by simp [‹s.main = _›, MainPc.waiting])
          (h.phases.setMain (fun _ hpc ↦ by cases hpc) (by simp [MainPc.passedStep1]))
    · cases hstep; exact h.mainArrive ‹_›
    · split at hstep
      · split at hstep
        · cases hstep; exact h.join ‹_› (.inl rfl)
        · cases hstep
      · cases hstep; exact h.join ‹_› (.inr rfl)
    · obtain ⟨pc, hnext, rfl⟩ := Option.map_eq_some'.1 hstep
      exact h.setMain_next hnext

/-- Every reachable state satisfies the invariant. -/
theorem reachable_inv {s : Proc N} (hs : Reachable s) : Inv s := by
  induction hs with
  | init => exact Inv.init
  | step _ _ hstep ih => exact ih.step hstep

end CyclicDeadline
