import CyclicDeadline.Startup.Barrier
import Mathlib.Logic.Function.Basic

/-!
# The startup protocol of `main` and the `run_deadline` threads

`main` creates `nr_threads` threads running `run_deadline` and meets them at a barrier of
`nr_threads + 1` parties three times: after each thread's first `sched_getattr`, after `main`
has made the cpusets, and after each thread's `sched_setattr`. A thread whose call fails sets
`shutdown`, calls `pthread_barrier_wait` once more and exits. `main` checks `shutdown` after the
first two meetings and calls `fatal` when it is set; after the third it installs the signal
handlers and polls `shutdown` in `loop`, then joins the threads and returns 0. The threads run
`do_runtime` until `shutdown` is set.

`Proc N` is the process with `N` threads: the statement `main` and each thread is at,
`shutdown`, and the barrier's count and completed cycles. `Proc.step` is one step of one party;
the event gives the result of the call it makes (`pthread_create`, `sched_getattr`,
`sched_setattr`, the `make_cpuset` calls), and `none` is a party that cannot move. A thread's
step that touches neither `shutdown` nor the barrier is `WorkerPc.next`, and likewise
`MainPc.next` for `main`. The process ends when `main` returns or calls `fatal`. `Reachable`
holds of every state of every interleaving, and `Proc.run` replays one interleaving.
-/

set_option autoImplicit false
set_option relaxedAutoImplicit false

namespace CyclicDeadline

/-! ### The threads -/

/-- Where a thread goes when its call of `pthread_barrier_wait` returns. -/
inductive WorkerResume
  /-- After the first meeting: fill in `attr`, print it and meet again. -/
  | fillAttr
  /-- After the second meeting: `sched_setattr`. -/
  | setattr
  /-- After the third meeting: `sched_yield`, read the clock and enter the loop. -/
  | loop
  /-- `pthread_exit("Failed sched_getattr")`. -/
  | getattrFailed
  /-- `pthread_exit("Failed sched_setattr")`. -/
  | setattrFailed
deriving DecidableEq, Repr

/-- How a thread ended. -/
inductive WorkerExit
  /-- `return NULL`, after the second `sched_getattr` succeeded. -/
  | done
  /-- `pthread_exit("Failed sched_getattr")`. -/
  | getattrFailed
  /-- `pthread_exit("Failed sched_setattr")`. -/
  | setattrFailed
  /-- `pthread_exit("Failed second sched_getattr")`. -/
  | getattrAgainFailed
deriving DecidableEq, Repr

/-- The statement of `run_deadline` a thread is at. -/
inductive WorkerPc
  /-- Not started: `main` has not created it, or `pthread_create` failed. -/
  | unborn
  /-- The first `sched_getattr`. -/
  | getattr
  /-- `shutdown = 1` after a failed call, before the barrier call that leads to `resume`. -/
  | setShutdown (resume : WorkerResume)
  /-- Calls `pthread_barrier_wait`. -/
  | arrive (resume : WorkerResume)
  /-- Inside `pthread_barrier_wait`, called in the barrier's cycle `cycle`. -/
  | blocked (resume : WorkerResume) (cycle : Nat)
  /-- `sched_setattr`. -/
  | setattr
  /-- The test of `while (!shutdown)`. -/
  | loopTest
  /-- The loop body: `do_runtime`, then `sched_yield`. -/
  | runtime
  /-- The second `sched_getattr`, after the loop. -/
  | getattrAgain
  /-- Returned, or called `pthread_exit`. -/
  | exited (how : WorkerExit)
deriving DecidableEq, Repr

/-- The statement a thread goes on to when its barrier call returns. -/
def WorkerResume.next : WorkerResume → WorkerPc
  | .fillAttr => .arrive .setattr
  | .setattr => .setattr
  | .loop => .loopTest
  | .getattrFailed => .exited .getattrFailed
  | .setattrFailed => .exited .setattrFailed

/-- How many of the thread's barrier calls come before the one that leads to `resume`. -/
def WorkerResume.calls : WorkerResume → Nat
  | .fillAttr | .getattrFailed => 0
  | .setattr => 1
  | .loop | .setattrFailed => 2

/-- A thread's step that touches neither `shutdown` nor the barrier's count: the statement after
`pc`, where `ok` is the result of the call made at `pc`; `none` when the thread cannot take
such a step. -/
def WorkerPc.next (shutdown : Bool) (cycle : Nat) (ok : Bool) : WorkerPc → Option WorkerPc
  | .getattr => some (if ok then .arrive .fillAttr else .setShutdown .getattrFailed)
  | .blocked resume g => if g < cycle then some resume.next else none
  | .setattr => some (if ok then .arrive .loop else .setShutdown .setattrFailed)
  | .loopTest => some (if shutdown then .getattrAgain else .runtime)
  | .runtime => some .loopTest
  | .getattrAgain => some (.exited (if ok then .done else .getattrAgainFailed))
  | .unborn | .setShutdown _ | .arrive _ | .exited _ => none

/-- `pthread_join` returns for the thread. -/
def WorkerPc.isExited : WorkerPc → Bool
  | .exited _ => true
  | _ => false

/-! ### `main` -/

/-- Where `main` goes when its call of `pthread_barrier_wait` returns. -/
inductive MainResume
  /-- `if (shutdown) fatal("failed to setup child threads at step 1\n")`. -/
  | checkStep1
  /-- `if (shutdown) fatal("failed to setup child threads at step 2")`. -/
  | checkStep2
  /-- Install the signal handlers, arm the alarm and enter `loop`. -/
  | startLoop
deriving DecidableEq, Repr

/-- The `fatal` call that ended the process. -/
inductive FatalSite
  /-- `"failed to setup child threads at step 1\n"`. -/
  | step1
  /-- One of the `fatal` calls of `make_cpuset`. -/
  | cpuset
  /-- `"failed to setup child threads at step 2"`. -/
  | step2
deriving DecidableEq, Repr

/-- The statement of `main` it is at, from thread creation on. -/
inductive MainPc
  /-- `pthread_create(&thread[i], NULL, run_deadline, sd)`, or the barrier call once
  `i = nr_threads`. -/
  | create (i : Nat)
  /-- Calls `pthread_barrier_wait`. -/
  | arrive (resume : MainResume)
  /-- Inside `pthread_barrier_wait`, called in the barrier's cycle `cycle`. -/
  | blocked (resume : MainResume) (cycle : Nat)
  /-- The check of `shutdown` after the first meeting. -/
  | checkStep1
  /-- `make_cpuset` for `my_cpuset_all` and `my_cpuset`, skipped under `all_cpus`. -/
  | cpuset
  /-- The check of `shutdown` after the second meeting. -/
  | checkStep2
  /-- The test of `while (!shutdown)` in `loop`. -/
  | loop
  /-- `join_thread(&thread[i])`, or `return 0` once `i = nr_threads`. -/
  | join (i : Nat)
  /-- `return 0`. -/
  | returned
  /-- `fatal`: the process exits with status 1. -/
  | fatal (site : FatalSite)
deriving DecidableEq, Repr

/-- The statement `main` goes on to when its barrier call returns. -/
def MainResume.next : MainResume → MainPc
  | .checkStep1 => .checkStep1
  | .checkStep2 => .checkStep2
  | .startLoop => .loop

/-- How many of `main`'s barrier calls come before the one that leads to `resume`. -/
def MainResume.calls : MainResume → Nat
  | .checkStep1 => 0
  | .checkStep2 => 1
  | .startLoop => 2

/-- A step of `main` that touches neither the threads, `shutdown` nor the barrier's count; `ok`
is the result of the `make_cpuset` calls. -/
def MainPc.next (shutdown : Bool) (cycle : Nat) (ok : Bool) : MainPc → Option MainPc
  | .blocked resume g => if g < cycle then some resume.next else none
  | .checkStep1 => some (if shutdown then .fatal .step1 else .cpuset)
  | .cpuset => some (if ok then .arrive .checkStep2 else .fatal .cpuset)
  | .checkStep2 => some (if shutdown then .fatal .step2 else .arrive .startLoop)
  | .loop => some (if shutdown then .join 0 else .loop)
  | .create _ | .arrive _ | .join _ | .returned | .fatal _ => none

/-- The process has not exited. -/
def MainPc.live : MainPc → Bool
  | .returned | .fatal _ => false
  | _ => true

/-- `sighand` is installed for `SIGINT`, `SIGTERM` and `SIGALRM`. -/
def MainPc.handlersSet : MainPc → Bool
  | .loop | .join _ => true
  | _ => false

/-! ### The process -/

/-- The process with `N` threads: `main`, the threads, `shutdown`, and the barrier of `N + 1`
parties with its count of callers in the current cycle and its completed cycles. -/
structure Proc (N : Nat) where
  main : MainPc
  worker : Fin N → WorkerPc
  shutdown : Bool
  arrived : Nat
  cycle : Nat

/-- One step of the process: `main` or thread `i` moves, with `ok` the result of the call it
makes, or a signal arrives. -/
inductive Event (N : Nat)
  | main (ok : Bool)
  | worker (i : Fin N) (ok : Bool)
  | signal
deriving DecidableEq, Repr

variable {N : Nat}

/-- `main` about to create the threads, none of them started, `shutdown` clear and the barrier
fresh from `pthread_barrier_init(&barrier, NULL, nr_threads + 1)`. -/
def Proc.init : Proc N :=
  ⟨.create 0, fun _ ↦ .unborn, false, 0, 0⟩

/-- Thread `i` moves to `pc`. -/
def Proc.setWorker (s : Proc N) (i : Fin N) (pc : WorkerPc) : Proc N :=
  { s with worker := Function.update s.worker i pc }

/-- `main` moves to `pc`. -/
def Proc.setMain (s : Proc N) (pc : MainPc) : Proc N :=
  { s with main := pc }

/-- The barrier counts one more caller; the `N + 1`-th completes the cycle and sets the count
back to zero. -/
def Proc.arrive (s : Proc N) : Proc N :=
  if s.arrived + 1 = N + 1 then { s with arrived := 0, cycle := s.cycle + 1 }
  else { s with arrived := s.arrived + 1 }

@[simp] theorem Proc.setWorker_main (s : Proc N) (i : Fin N) (pc : WorkerPc) :
    (s.setWorker i pc).main = s.main := rfl
@[simp] theorem Proc.setWorker_worker (s : Proc N) (i : Fin N) (pc : WorkerPc) :
    (s.setWorker i pc).worker = Function.update s.worker i pc := rfl
@[simp] theorem Proc.setWorker_shutdown (s : Proc N) (i : Fin N) (pc : WorkerPc) :
    (s.setWorker i pc).shutdown = s.shutdown := rfl
@[simp] theorem Proc.setWorker_arrived (s : Proc N) (i : Fin N) (pc : WorkerPc) :
    (s.setWorker i pc).arrived = s.arrived := rfl
@[simp] theorem Proc.setWorker_cycle (s : Proc N) (i : Fin N) (pc : WorkerPc) :
    (s.setWorker i pc).cycle = s.cycle := rfl
@[simp] theorem Proc.setMain_main (s : Proc N) (pc : MainPc) : (s.setMain pc).main = pc := rfl
@[simp] theorem Proc.setMain_worker (s : Proc N) (pc : MainPc) :
    (s.setMain pc).worker = s.worker := rfl
@[simp] theorem Proc.setMain_shutdown (s : Proc N) (pc : MainPc) :
    (s.setMain pc).shutdown = s.shutdown := rfl
@[simp] theorem Proc.setMain_arrived (s : Proc N) (pc : MainPc) :
    (s.setMain pc).arrived = s.arrived := rfl
@[simp] theorem Proc.setMain_cycle (s : Proc N) (pc : MainPc) : (s.setMain pc).cycle = s.cycle :=
  rfl
@[simp] theorem Proc.arrive_main (s : Proc N) : s.arrive.main = s.main := by
  unfold Proc.arrive; split <;> rfl
@[simp] theorem Proc.arrive_worker (s : Proc N) : s.arrive.worker = s.worker := by
  unfold Proc.arrive; split <;> rfl
@[simp] theorem Proc.arrive_shutdown (s : Proc N) : s.arrive.shutdown = s.shutdown := by
  unfold Proc.arrive; split <;> rfl
theorem Proc.arrive_arrived (s : Proc N) :
    s.arrive.arrived = if s.arrived + 1 = N + 1 then 0 else s.arrived + 1 := by
  unfold Proc.arrive; split <;> rfl
theorem Proc.arrive_cycle (s : Proc N) :
    s.arrive.cycle = if s.arrived + 1 = N + 1 then s.cycle + 1 else s.cycle := by
  unfold Proc.arrive; split <;> rfl

/-- A step of thread `i`: its write of `shutdown`, its call of `pthread_barrier_wait`, or a step
of `WorkerPc.next`. -/
def Proc.workerStep (s : Proc N) (i : Fin N) (ok : Bool) : Option (Proc N) :=
  match s.worker i with
  | .setShutdown resume => some ({ s with shutdown := true }.setWorker i (.arrive resume))
  | .arrive resume => some (s.setWorker i (.blocked resume s.cycle)).arrive
  | pc => (pc.next s.shutdown s.cycle ok).map (s.setWorker i)

/-- A step of `main`: `pthread_create` (which starts thread `i` at its first statement when
`ok`), its call of `pthread_barrier_wait`, `join_thread`, which waits until the thread has
exited, or a step of `MainPc.next`. -/
def Proc.mainStep (s : Proc N) (ok : Bool) : Option (Proc N) :=
  match s.main with
  | .create i =>
    if h : i < N then
      some (if ok then (s.setMain (.create (i + 1))).setWorker ⟨i, h⟩ .getattr
        else s.setMain (.create (i + 1)))
    else some (s.setMain (.arrive .checkStep1))
  | .arrive resume => some (s.setMain (.blocked resume s.cycle)).arrive
  | .join i =>
    if h : i < N then
      if (s.worker ⟨i, h⟩).isExited then some (s.setMain (.join (i + 1))) else none
    else some (s.setMain .returned)
  | pc => (pc.next s.shutdown s.cycle ok).map s.setMain

/-- One step of the process. The threads stop with the process; a signal sets `shutdown` once
`sighand` is installed. -/
def Proc.step (s : Proc N) : Event N → Option (Proc N)
  | .main ok => s.mainStep ok
  | .worker i ok => if s.main.live then s.workerStep i ok else none
  | .signal => if s.main.handlersSet then some { s with shutdown := true } else none

/-- The states of every interleaving, with every result of every call. -/
inductive Reachable : Proc N → Prop
  | init : Reachable Proc.init
  | step {s s' : Proc N} (e : Event N) : Reachable s → s.step e = some s' → Reachable s'

/-- The state after the events `events`, when each of them can happen. -/
def Proc.run (s : Proc N) : List (Event N) → Option (Proc N)
  | [] => some s
  | e :: events => (s.step e).bind fun s' ↦ s'.run events

theorem Reachable.run {s s' : Proc N} (hs : Reachable s) :
    ∀ {events : List (Event N)}, s.run events = some s' → Reachable s'
  | [], h => by cases h; exact hs
  | e :: _, h => by
    obtain ⟨t, ht, hrun⟩ := Option.bind_eq_some.1 h
    exact (hs.step e ht).run hrun

/-- When every event of `events` can happen in turn from the start, the state they end in is
reachable. -/
theorem reachable_run_init (events : List (Event N)) (h : (Proc.init.run events).isSome) :
    Reachable ((Proc.init.run events).getD Proc.init) := by
  obtain ⟨s, hs⟩ := Option.isSome_iff_exists.1 h
  rw [hs]
  exact Reachable.init.run hs

/-- No party can move although the process has not exited. -/
def Proc.Deadlocked (s : Proc N) : Prop :=
  s.main.live ∧ ∀ e, s.step e = none

end CyclicDeadline
