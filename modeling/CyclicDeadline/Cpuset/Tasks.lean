import CyclicDeadline.CpuList.Text

/-!
# Moving the workers into `my_cpuset`

With `CPUSET_FL_TASKS`, `make_cpuset` opens the cpuset's `tasks` file and writes each tid of the
zero-terminated array `pids` into it as `"%d "`, one `write` per tid. `ret` keeps the result of
the last `write` only, and after the loop `i` is the index of the terminating zero, so the check
`if (ret < 0) fatal("Failed on task %d\n", pids[i])` looks at the last write and prints the
terminator. `makeCpusetTasks` is this step, with the results of the `write` calls as an argument.

`makeCpusetTasks_checks_last_write` states the step for every array of tids and every pattern
of `write` results: it writes every tid, and it calls `fatal` exactly when the last `write`
failed, always naming task 0. `makeCpusetTasks_misses_failure` shows the two consequences: a
failed write followed by a successful one goes unreported, and a reported failure names 0, which
is no tid.
-/

set_option autoImplicit false
set_option relaxedAutoImplicit false

namespace CyclicDeadline

/-- What the loop `for (i = 0; pids[i]; i++)` has done so far: the index `i`, the result `ret` of
the last `write`, and the texts handed to `write`, in order. -/
structure TasksLoop where
  i : Nat
  ret : Int
  written : List (List Char)
deriving DecidableEq, Repr

/-- The loop over the array from `pids[i]` on: `sprintf(buf, "%d ", pids[i])`, then
`ret = write(fd, buf, strlen(buf))`, whose result is `writeRet i`. It stops at a zero entry or
at the end of the list, where the terminating zero sits. -/
def tasksLoop (writeRet : Nat → Int) : List Int → TasksLoop → TasksLoop
  | [], st => st
  | pid :: pids, st =>
    if pid = 0 then st
    else tasksLoop writeRet pids ⟨st.i + 1, writeRet st.i, st.written ++ [formatInt pid ++ [' ']]⟩

/-- The diagnostic `fatal("Failed on task %d\n", pid)`. -/
def failedOnTask (pid : Int) : List Char :=
  "Failed on task ".toList ++ formatInt pid ++ ['\n']

/-- The `CPUSET_FL_TASKS` step of `make_cpuset`: `fd` is what opening the cpuset's `tasks` file
returned, `pids` the entries of the array before its terminating zero and `writeRet k` the result
of the `k`-th `write`. The texts written, and the message `fatal` ends the run with, if any. -/
def makeCpusetTasks (fd : Int) (pids : List Int) (writeRet : Nat → Int) :
    List (List Char) × Option (List Char) :=
  if fd < 0 then ([], some "open tasks".toList)
  else
    let st := tasksLoop writeRet pids ⟨0, 0, []⟩
    (st.written, if st.ret < 0 then some (failedOnTask (pids.getD st.i 0)) else none)

/-- When no tid is zero, the loop writes every tid, ends past the last one, and keeps the result of
the last `write` (or `ret` as it found it when there is none). -/
theorem tasksLoop_eq (writeRet : Nat → Int) :
    ∀ (pids : List Int), 0 ∉ pids → ∀ st : TasksLoop,
      tasksLoop writeRet pids st =
        ⟨st.i + pids.length, if pids = [] then st.ret else writeRet (st.i + pids.length - 1),
          st.written ++ pids.map fun pid ↦ formatInt pid ++ [' ']⟩
  | [], _, st => by simp [tasksLoop]
  | pid :: pids, hpids, st => by
    have hpid : pid ≠ 0 := fun h ↦ hpids (h ▸ List.mem_cons_self _ _)
    rw [tasksLoop, if_neg hpid,
      tasksLoop_eq writeRet pids (fun h ↦ hpids (List.mem_cons_of_mem _ h))]
    cases pids with
    | nil => simp
    | cons next rest =>
      simp only [List.length_cons, List.map_cons, List.append_assoc, List.singleton_append,
        reduceCtorEq, if_false, TasksLoop.mk.injEq, true_and]
      exact ⟨by omega, congrArg writeRet (by omega), trivial⟩

/-- When the `tasks` file opens and no tid is zero, for every pattern of `write` results the step
writes each tid as `"%d "` and calls `fatal` exactly when the last `write` failed, with the
diagnostic naming task 0. -/
theorem makeCpusetTasks_checks_last_write (fd : Int) (hfd : 0 ≤ fd) (pids : List Int)
    (hpids : 0 ∉ pids) (writeRet : Nat → Int) :
    makeCpusetTasks fd pids writeRet =
      (pids.map fun pid ↦ formatInt pid ++ [' '],
        if pids ≠ [] ∧ writeRet (pids.length - 1) < 0 then some (failedOnTask 0) else none) := by
  rw [makeCpusetTasks, if_neg (by omega), tasksLoop_eq writeRet pids hpids]
  simp only [zero_add, List.nil_append, List.getD_eq_getElem?_getD, List.getElem?_eq_none le_rfl,
    Option.getD_none]
  congr 1
  by_cases hnil : pids = [] <;> simp [hnil]

/-- Two tids whose writes both succeed: nothing is reported. -/
theorem makeCpusetTasks_checks_last_write_ok :
    (0 : Int) ≤ 3 ∧ (0 : Int) ∉ [101, 102] ∧
      makeCpusetTasks 3 [101, 102] (fun _ ↦ 4) =
        ([101, 102].map fun pid ↦ formatInt pid ++ [' '],
          if [101, 102] ≠ ([] : List Int) ∧ (fun _ ↦ (4 : Int)) ([101, 102].length - 1) < 0 then
            some (failedOnTask 0) else none) :=
  ⟨by decide, by decide, makeCpusetTasks_checks_last_write 3 (by decide) _ (by decide) _⟩

/-- The write of tid 101 fails and that of tid 102 succeeds: `make_cpuset` returns without
`fatal`. When the only write, that of tid 101, fails, `fatal` names task 0. -/
theorem makeCpusetTasks_misses_failure :
    makeCpusetTasks 3 [101, 102] (fun k ↦ if k = 0 then -1 else 4) =
        (["101 ".toList, "102 ".toList], none) ∧
      makeCpusetTasks 3 [101] (fun _ ↦ -1) =
        (["101 ".toList], some "Failed on task 0\n".toList) := by
  decide

end CyclicDeadline
