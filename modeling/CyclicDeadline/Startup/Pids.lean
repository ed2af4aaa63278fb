import CyclicDeadline.Startup.Invariant
import CyclicDeadline.Cpuset.Tasks

/-!
# The tids `main` moves into `my_cpuset`

Each thread stores its tid in `sched_data[i].stat.tid` as its first statement, before its first
`sched_getattr`. After the first meeting `main` copies the tids into the array `pids`, which
`calloc` ends with a zero, and hands it to `make_cpuset(CPUSET_LOCAL, ...)`, whose loop stops at
the first zero entry (`Cpuset.Tasks`). Only the barrier orders the threads' stores before
`main`'s reads.

`tidStored_of_passedStep1` shows that in every interleaving, once `main` is past its first
barrier call every thread has stored its tid: the barrier's first cycle completes only after
every thread has called it. So the array `main` reads holds each thread's own tid and no zero
before its end (`mainPids_eq`), and `makeCpusetTasks_mainPids` that the `CPUSET_FL_TASKS` step
writes every thread's tid into the tasks file, in thread order, and calls `fatal` exactly when
the last write fails.
-/

set_option autoImplicit false
set_option relaxedAutoImplicit false

namespace CyclicDeadline

variable {N : Nat} {s : Proc N}

/-- The thread has run `stat->tid = tid`: it is past its first statement, which comes before its
first `sched_getattr`. -/
def WorkerPc.tidStored : WorkerPc → Bool
  | .unborn | .getattr => false
  | _ => true

/-- What `main` reads into `pids[i] = sched_data[i].stat.tid` for each thread: `tid i`, the tid
`gettid` gives thread `i`, once the thread has stored it, and the zero `calloc` left before. -/
def Proc.tids (tid : Fin N → Int) (s : Proc N) : List Int :=
  List.ofFn fun i ↦ if (s.worker i).tidStored then tid i else 0

theorem WorkerPc.arrivals_eq_zero_of_not_tidStored {pc : WorkerPc} (h : pc.tidStored = false) :
    pc.arrivals = 0 := by
  cases pc <;> simp_all [WorkerPc.tidStored, WorkerPc.arrivals]

/-- In a reachable state with `main` past its first barrier call, every thread has stored its tid.
-/
theorem tidStored_of_passedStep1 (hs : Reachable s) (hmain : s.main.passedStep1) (j : Fin N) :
    (s.worker j).tidStored := by
  cases htid : (s.worker j).tidStored
  · have hnot := (reachable_inv hs).not_passedStep1
      (WorkerPc.arrivals_eq_zero_of_not_tidStored htid)
    simp [hnot] at hmain
  · rfl

/-- In a reachable state with `main` past its first barrier call, the entries `main` reads are the
threads' tids. -/
theorem mainPids_eq (hs : Reachable s) (hmain : s.main.passedStep1) (tid : Fin N → Int) :
    s.tids tid = List.ofFn tid := by
  simp [Proc.tids, tidStored_of_passedStep1 hs hmain]

/-- In a reachable state with `main` at its `make_cpuset` calls, tids that are not zero, and a tasks
file that opens, in every interleaving the `CPUSET_FL_TASKS` step of
`make_cpuset(CPUSET_LOCAL, ...)` writes every thread's tid as `"%d "`, in thread order, and calls
`fatal` exactly when the last write fails, naming task 0. -/
theorem makeCpusetTasks_mainPids (hs : Reachable s) (hmain : s.main = .cpuset)
    (tid : Fin N → Int) (htid : ∀ i, tid i ≠ 0) (fd : Int) (hfd : 0 ≤ fd)
    (writeRet : Nat → Int) :
    makeCpusetTasks fd (s.tids tid) writeRet =
      ((List.ofFn tid).map fun pid ↦ formatInt pid ++ [' '],
        if 0 < N ∧ writeRet (N - 1) < 0 then some (failedOnTask 0) else none) := by
  have hnz : (0 : Int) ∉ List.ofFn tid := by
    simpa [List.mem_ofFn, eq_comm] using htid
  rw [mainPids_eq hs (by simp [hmain, MainPc.passedStep1]), makeCpusetTasks, if_neg (by omega),
    tasksLoop_eq writeRet _ hnz]
  have hend : (List.ofFn tid)[N]? = none := List.getElem?_eq_none (by simp)
  simp only [zero_add, List.nil_append, List.length_ofFn, List.getD_eq_getElem?_getD, hend,
    Option.getD_none, List.ofFn_eq_nil_iff]
  congr 1
  rcases Nat.eq_zero_or_pos N with rfl | hN
  · simp
  · simp [hN, Nat.pos_iff_ne_zero.mp hN]

/-- One thread, with tid 4242: `main` creates it, both meet, and `main` reaches its
`make_cpuset` calls; the tasks file gets `"4242 "`. -/
theorem makeCpusetTasks_mainPids_one_thread :
    Reachable ((Proc.init.run [.main true, .main true, .main true, .worker 0 true,
        .worker 0 true, .main true, .main true] : Option (Proc 1)).getD Proc.init) ∧
      ((Proc.init.run [.main true, .main true, .main true, .worker 0 true, .worker 0 true,
        .main true, .main true] : Option (Proc 1)).getD Proc.init).main = .cpuset ∧
      makeCpusetTasks 3 (((Proc.init.run [.main true, .main true, .main true, .worker 0 true,
        .worker 0 true, .main true, .main true] : Option (Proc 1)).getD Proc.init).tids
          fun _ ↦ 4242) (fun _ ↦ 5) =
        ((List.ofFn fun _ : Fin 1 ↦ (4242 : Int)).map fun pid ↦ formatInt pid ++ [' '],
          if 0 < 1 ∧ (fun _ ↦ (5 : Int)) (1 - 1) < 0 then some (failedOnTask 0) else none) :=
  have hs := reachable_run_init ([.main true, .main true, .main true, .worker 0 true,
    .worker 0 true, .main true, .main true] : List (Event 1)) rfl
  ⟨hs, rfl, makeCpusetTasks_mainPids hs rfl _ (fun _ ↦ by decide) 3 (by decide) _⟩

end CyclicDeadline
