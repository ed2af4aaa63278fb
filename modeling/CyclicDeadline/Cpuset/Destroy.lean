import CyclicDeadline.Cpuset.Make

/-!
# `destroy_cpuset` and `teardown`

`teardown`, registered with `atexit` before the threads first meet, undoes the cpusets when
`all_cpus` is clear: it writes 0 to the root's `cpuset.cpu_exclusive` and 1 to its
`cpuset.sched_load_balance` where they open, then destroys `my_cpuset_all` and `my_cpuset`.

`destroy_cpuset(name, print)` moves every task of the cpuset back to the root and removes the
cpuset's directory, going back to the label `again` while `rmdir` fails, at most five times. The
buffer `path` is reused across the retries: `strncat` appends `/tasks` to it, `snprintf`
overwrites it with the root's `tasks` file, and it is reset to the cpuset's directory before
`rmdir`, so each retry appends `/tasks` to the directory again. The `sleep(1)` before `rmdir` is
left out.

`DestroyEnv` gives the system's answers at each attempt, since the cpuset's `tasks` file and
the result of `rmdir` change between attempts, and the run is a list of `DestroyEvent`s.
`destroyCpuset_moves` says what the loop does when the files open: every attempt reads
`CPUSET_PATH/name/tasks` again and writes each task listed there to `CPUSET_PATH/tasks`, then
removes the directory; the run writes exactly the tasks of the attempts up to the first removal
that succeeds, or of all six, and reports the failure only when the last removal failed. The
other results hold whatever the system answers:
`destroyCpuset_rmdirs`, that `rmdir` is called at most six times, the run writes only to the
root's `tasks` file and removes only the cpuset's directory, and the final error comes only after
six removals have failed; and `teardown_within`, that `teardown` touches no file but three of the
root cpuset's and removes no directory but the two cpusets the program makes.
-/

set_option autoImplicit false
set_option relaxedAutoImplicit false

namespace CyclicDeadline

/-- What `destroy_cpuset` does that can be seen: a line printed on `stdout`, a message on
`stderr` (the format `fprintf`, `err_msg` or `err_msg_n` is given, or the argument of `perror`),
the bytes written to a file, and the directory `rmdir` is called on. -/
inductive DestroyEvent
  | print (text : List Char)
  | error (text : List Char)
  | write (file data : List Char)
  | rmdir (path : List Char)
deriving DecidableEq, Repr

/-- Whether the event is a call of `rmdir`. -/
@[simp]
def DestroyEvent.isRmdir : DestroyEvent → Bool
  | .rmdir _ => true
  | _ => false

/-- Whether the event acts only on the files `files` and the directories `dirs`: a `write` to one
of `files`, an `rmdir` of one of `dirs`, or a message. -/
def DestroyEvent.within (files dirs : List (List Char)) : DestroyEvent → Prop
  | .write file _ => file ∈ files
  | .rmdir dir => dir ∈ dirs
  | .print _ | .error _ => True

instance DestroyEvent.instDecidableWithin (files dirs : List (List Char)) :
    ∀ e : DestroyEvent, Decidable (e.within files dirs)
  | .write file _ => inferInstanceAs (Decidable (file ∈ files))
  | .rmdir dir => inferInstanceAs (Decidable (dir ∈ dirs))
  | .print _ | .error _ => instDecidableTrue

/-- What the system answers to `destroy_cpuset`: the paths `stat` finds, and at each attempt the
contents of the file `fopen(path, "r")` opens (`none`: it fails), what `open(path, O_WRONLY)`
returns and what `rmdir` returns. -/
structure DestroyEnv where
  statOk : List Char → Bool
  readFile : Nat → List Char → Option (List Char)
  openRet : Nat → List Char → Int
  rmdirRet : Nat → List Char → Int

/-- The loop of one attempt over the tasks read: for each, `"Moving %d out of %s\n"` when `print`
is set, then the `write` of `sprintf(buf, "%d", pid)` to the root's `tasks` file `root`, whose
result is not looked at. -/
def moveEvents (name root : List Char) (print : Bool) (pids : List Int) : List DestroyEvent :=
  pids.flatMap fun pid ↦
    (if print then [.print ("Moving ".toList ++ formatInt pid ++ " out of ".toList ++ name ++ ['\n'])]
      else []) ++ [.write root (formatInt pid)]

/-- `err_msg_n(errno, "Failed to remove %s\n", path)`. -/
def failedToRemove (path : List Char) : DestroyEvent :=
  .error ("Failed to remove ".toList ++ path ++ ['\n'])

/-- The loop of `destroy_cpuset` from the label `again`, at the attempt `attempt`, with `path`
holding the cpuset's directory and `left` retries left (`5 - retry`). -/
def destroyAgain (env : DestroyEnv) (name : List Char) (print : Bool) (attempt : Nat)
    (path : List Char) (left : Nat) : List DestroyEvent :=
  let tasks := path ++ "/tasks".toList
  match env.readFile attempt tasks with
  | none => [.error ("Failed opening ".toList ++ tasks ++ ['\n']), .error "fopen".toList]
  | some text =>
    let root := joinPath cpusetPath "tasks".toList
    if env.openRet attempt root < 0 then
      [.error ("Failed opening ".toList ++ root ++ ['\n']), .error "open".toList]
    else
      let path := joinPath cpusetPath name
      moveEvents name root print (scanPids text) ++ .rmdir path ::
        if env.rmdirRet attempt path < 0 then
          match left with
          | 0 => [failedToRemove path]
          | left + 1 => .error "Trying again\n".toList ::
            destroyAgain env name print (attempt + 1) path left
        else []

/-- `destroy_cpuset(name, print)`: `none` where `strncat` would write past the end of
`path[MAXPATH]`. -/
def destroyCpuset (env : DestroyEnv) (name : List Char) (print : Bool) :
    Option (List DestroyEvent) :=
  let path := joinPath cpusetPath name
  let removing := DestroyEvent.print ("Removing ".toList ++ name ++ ['\n'])
  if ¬ env.statOk path then some [removing]
  else if maxpath ≤ path.length + "/tasks".length then none
  else some (removing :: destroyAgain env name print 0 path 5)

/-- `teardown()` when `all_cpus` is `allCpus`: the root's two settings from `env`, then
`destroy_cpuset(CPUSET_ALL, 0)` against `allEnv` and `destroy_cpuset(CPUSET_LOCAL, 1)` against
`localEnv`. -/
def teardown (env : CpusetEnv) (allEnv localEnv : DestroyEnv) (allCpus : Bool) :
    Option (List DestroyEvent) :=
  if allCpus then some []
  else
    let exclusive := joinPath cpusetPath "cpuset.cpu_exclusive".toList
    let balance := joinPath cpusetPath "cpuset.sched_load_balance".toList
    let settings :=
      (if 0 ≤ openCpuset env cpusetPath "cpuset.cpu_exclusive".toList then
        [DestroyEvent.write exclusive zeroText] else []) ++
      (if 0 ≤ openCpuset env cpusetPath "cpuset.sched_load_balance".toList then
        [DestroyEvent.write balance oneText] else [])
    (destroyCpuset allEnv cpusetAll false).bind fun all ↦
      (destroyCpuset localEnv cpusetLocal true).map fun loc ↦ settings ++ all ++ loc

/-! ### Moving the tasks -/

/-- The bytes an event writes, as the file and the bytes. -/
def DestroyEvent.written : DestroyEvent → List (List Char × List Char)
  | .write file data => [(file, data)]
  | _ => []

theorem moveEvents_written (name root : List Char) (print : Bool) (pids : List Int) :
    (moveEvents name root print pids).flatMap DestroyEvent.written =
      pids.map fun pid ↦ (root, formatInt pid) := by
  induction pids with
  | nil => rfl
  | cons pid pids ih => cases print <;> simpa [moveEvents, DestroyEvent.written] using ih

/-- A cpuset that task 4242 does not leave: every attempt lists it, and `rmdir` fails. -/
def busyEnv : DestroyEnv :=
  ⟨fun _ ↦ true, fun _ _ ↦ some (tasksText [4242]), fun _ _ ↦ 3, fun _ _ ↦ -1⟩

/-! ### What the runs act on -/

/-- A run of `destroy_cpuset` that keeps within `path[MAXPATH]` prints `Removing`, and then stops
if the directory is not there, or goes through the loop from `again` with five retries. -/
theorem destroyCpuset_cases {env : DestroyEnv} {name : List Char} {print : Bool}
    {events : List DestroyEvent} (h : destroyCpuset env name print = some events) :
    events = [.print ("Removing ".toList ++ name ++ ['\n'])] ∨
      events = .print ("Removing ".toList ++ name ++ ['\n']) ::
        destroyAgain env name print 0 (joinPath cpusetPath name) 5 := by
  rw [destroyCpuset] at h
  split at h
  · exact .inl (Option.some.inj h).symm
  · split at h
    · cases h
    · exact .inr (Option.some.inj h).symm

@[simp]
theorem moveEvents_filter_isRmdir (name root : List Char) (print : Bool) (pids : List Int) :
    (moveEvents name root print pids).filter DestroyEvent.isRmdir = [] := by
  induction pids with
  | nil => rfl
  | cons pid pids ih => cases print <;> simpa [moveEvents] using ih

@[simp]
theorem rmdir_not_mem_moveEvents (path name root : List Char) (print : Bool) (pids : List Int) :
    .rmdir path ∉ moveEvents name root print pids := by
  simp only [moveEvents, List.mem_flatMap, not_exists, not_and]
  intro _ _
  cases print <;> simp

@[simp]
theorem error_not_mem_moveEvents (text name root : List Char) (print : Bool) (pids : List Int) :
    .error text ∉ moveEvents name root print pids := by
  simp only [moveEvents, List.mem_flatMap, not_exists, not_and]
  intro _ _
  cases print <;> simp

section

variable {files dirs : List (List Char)} (hroot : joinPath cpusetPath "tasks".toList ∈ files)

include hroot in
theorem moveEvents_within (name : List Char) (print : Bool) (pids : List Int) :
    ∀ e ∈ moveEvents name (joinPath cpusetPath "tasks".toList) print pids, e.within files dirs := by
  intro e he
  simp only [moveEvents, List.mem_flatMap, List.mem_append, List.mem_singleton] at he
  obtain ⟨_, _, he | rfl⟩ := he
  · split at he
    · rw [List.mem_singleton.mp he]
      trivial
    · cases he
  · exact hroot

include hroot in
/-- Whatever the system answers, the loop from `again` writes only to the root's `tasks` file and
removes only the cpuset's directory. -/
theorem destroyAgain_within (env : DestroyEnv) (name : List Char) (print : Bool)
    (hdir : joinPath cpusetPath name ∈ dirs) (left attempt : Nat) (path : List Char) :
    ∀ e ∈ destroyAgain env name print attempt path left, e.within files dirs := by
  rw [destroyAgain]
  cases env.readFile attempt (path ++ "/tasks".toList) with
  | none => simp [DestroyEvent.within]
  | some text =>
    simp only
    split
    · simp [DestroyEvent.within]
    · rw [List.forall_mem_append, List.forall_mem_cons]
      refine ⟨moveEvents_within hroot name print _, hdir, ?_⟩
      split
      · split
        · simp [DestroyEvent.within, failedToRemove]
        · next left =>
          exact List.forall_mem_cons.mpr
            ⟨trivial, destroyAgain_within env name print hdir left (attempt + 1) _⟩
      · simp

include hroot in
theorem destroyCpuset_within (env : DestroyEnv) (name : List Char) (print : Bool)
    (hdir : joinPath cpusetPath name ∈ dirs) {events : List DestroyEvent}
    (h : destroyCpuset env name print = some events) : ∀ e ∈ events, e.within files dirs := by
  rcases destroyCpuset_cases h with rfl | rfl
  · simp [DestroyEvent.within]
  · exact List.forall_mem_cons.mpr ⟨trivial, destroyAgain_within hroot env name print hdir 5 0 _⟩

end

/-- Whatever the system answers, the loop from `again` with `left` retries left calls `rmdir` at
most `left + 1` times, and reports the failure only after `left + 1` calls of `rmdir` that all
failed. -/
theorem destroyAgain_rmdirs (env : DestroyEnv) (name : List Char) (print : Bool) (left : Nat) :
    ∀ (attempt : Nat) (path : List Char),
      ((destroyAgain env name print attempt path left).filter DestroyEvent.isRmdir).length ≤
          left + 1 ∧
        (failedToRemove (joinPath cpusetPath name) ∈ destroyAgain env name print attempt path left →
          ((destroyAgain env name print attempt path left).filter DestroyEvent.isRmdir).length =
              left + 1 ∧
            ∀ k ≤ left, env.rmdirRet (attempt + k) (joinPath cpusetPath name) < 0) := by
  intro attempt path
  rw [destroyAgain]
  cases env.readFile attempt (path ++ "/tasks".toList) with
  | none => simp [failedToRemove]
  | some text =>
    simp only
    split
    · simp [failedToRemove]
    · split
      · next hrm =>
        split
        · simp [failedToRemove, hrm]
        · next left =>
          obtain ⟨hle, hfail⟩ :=
            destroyAgain_rmdirs env name print left (attempt + 1) (joinPath cpusetPath name)
          simp [failedToRemove] at hfail ⊢
          refine ⟨hle, fun h ↦ ⟨(hfail h).1, fun k hk ↦ ?_⟩⟩
          cases k with
          | zero => exact hrm
          | succ k => simpa [Nat.add_right_comm] using (hfail h).2 k (by omega)
      · simp [failedToRemove]

/-- Whatever the system answers, a run of `destroy_cpuset(name, print)` that keeps within
`path[MAXPATH]` calls `rmdir` at most six times, writes only to the root's `tasks` file and removes
no directory but `CPUSET_PATH/name`; it prints `Failed to remove` only after six calls of `rmdir`,
at the attempts 0 to 5, have all failed. -/
theorem destroyCpuset_rmdirs (env : DestroyEnv) (name : List Char) (print : Bool)
    {events : List DestroyEvent} (h : destroyCpuset env name print = some events) :
    (events.filter DestroyEvent.isRmdir).length ≤ 6 ∧
      (∀ e ∈ events, e.within [joinPath cpusetPath "tasks".toList] [joinPath cpusetPath name]) ∧
      (failedToRemove (joinPath cpusetPath name) ∈ events →
        (events.filter DestroyEvent.isRmdir).length = 6 ∧
          ∀ k < 6, env.rmdirRet k (joinPath cpusetPath name) < 0) := by
  have hrun : (events.filter DestroyEvent.isRmdir).length ≤ 6 ∧
      (failedToRemove (joinPath cpusetPath name) ∈ events →
        (events.filter DestroyEvent.isRmdir).length = 6 ∧
          ∀ k < 6, env.rmdirRet k (joinPath cpusetPath name) < 0) := by
    rcases destroyCpuset_cases h with rfl | rfl
    · simp [failedToRemove]
    · obtain ⟨hle, hfail⟩ := destroyAgain_rmdirs env name print 5 0 (joinPath cpusetPath name)
      simp [failedToRemove] at hfail ⊢
      exact ⟨hle, fun h ↦ ⟨(hfail h).1, fun k hk ↦ by simpa using (hfail h).2 k (by omega)⟩⟩
  exact ⟨hrun.1, destroyCpuset_within (List.mem_singleton_self _) env name print
    (List.mem_singleton_self _) h, hrun.2⟩

theorem destroyCpuset_rmdirs_busy :
    let events := .print ("Removing ".toList ++ cpusetLocal ++ ['\n']) ::
      destroyAgain busyEnv cpusetLocal true 0 (joinPath cpusetPath cpusetLocal) 5
    (events.filter DestroyEvent.isRmdir).length ≤ 6 ∧
      (∀ e ∈ events,
        e.within [joinPath cpusetPath "tasks".toList] [joinPath cpusetPath cpusetLocal]) ∧
      (failedToRemove (joinPath cpusetPath cpusetLocal) ∈ events →
        (events.filter DestroyEvent.isRmdir).length = 6 ∧
          ∀ k < 6, busyEnv.rmdirRet k (joinPath cpusetPath cpusetLocal) < 0) :=
  destroyCpuset_rmdirs busyEnv cpusetLocal true
    (by rw [destroyCpuset, if_neg (by decide), if_neg (by decide)])

/-- Whatever the system answers, `teardown` writes only to the root cpuset's
`cpuset.cpu_exclusive`, `cpuset.sched_load_balance` and `tasks` files, and removes no directory
but the two cpusets the program makes, `CPUSET_PATH/my_cpuset_all` and `CPUSET_PATH/my_cpuset`. -/
theorem teardown_within (env : CpusetEnv) (allEnv localEnv : DestroyEnv) (allCpus : Bool)
    {events : List DestroyEvent} (h : teardown env allEnv localEnv allCpus = some events) :
    ∀ e ∈ events, e.within
      [joinPath cpusetPath "cpuset.cpu_exclusive".toList,
        joinPath cpusetPath "cpuset.sched_load_balance".toList, joinPath cpusetPath "tasks".toList]
      [joinPath cpusetPath cpusetAll, joinPath cpusetPath cpusetLocal] := by
  rw [teardown] at h
  split at h
  · cases h
    simp
  · simp only [Option.bind_eq_some, Option.map_eq_some'] at h
    obtain ⟨all, hall, loc, hloc, rfl⟩ := h
    simp only [List.forall_mem_append]
    refine ⟨⟨⟨?_, ?_⟩, destroyCpuset_within (by simp) allEnv cpusetAll false (by simp) hall⟩,
      destroyCpuset_within (by simp) localEnv cpusetLocal true (by simp) hloc⟩ <;>
    split <;> simp [DestroyEvent.within]

theorem teardown_within_busy :
    (DestroyEvent.write (joinPath cpusetPath "cpuset.cpu_exclusive".toList) zeroText).within
      [joinPath cpusetPath "cpuset.cpu_exclusive".toList,
        joinPath cpusetPath "cpuset.sched_load_balance".toList, joinPath cpusetPath "tasks".toList]
      [joinPath cpusetPath cpusetAll, joinPath cpusetPath cpusetLocal] :=
  teardown_within enospcEnv busyEnv busyEnv false rfl _
    (List.mem_append_left _ (List.mem_append_left _ (List.mem_cons_self _ _)))

/-! ### Moving the tasks back -/

section

variable {env : DestroyEnv} {name : List Char} {print : Bool}

/-- An attempt of the loop from `again` at which both `tasks` files open: the moves of the tasks
listed, the `rmdir`, and then the retry, the report of the failure, or nothing. -/
theorem destroyAgain_open {attempt : Nat} {pids : List Int}
    (hread : env.readFile attempt (joinPath cpusetPath name ++ "/tasks".toList) =
      some (tasksText pids))
    (hopen : 0 ≤ env.openRet attempt (joinPath cpusetPath "tasks".toList)) (left : Nat) :
    destroyAgain env name print attempt (joinPath cpusetPath name) left =
      moveEvents name (joinPath cpusetPath "tasks".toList) print pids ++
        .rmdir (joinPath cpusetPath name) ::
          if env.rmdirRet attempt (joinPath cpusetPath name) < 0 then
            match left with
            | 0 => [failedToRemove (joinPath cpusetPath name)]
            | left + 1 => .error "Trying again\n".toList ::
              destroyAgain env name print (attempt + 1) (joinPath cpusetPath name) left
          else [] := by
  rw [destroyAgain]
  simp only [hread, scanPids_tasksText, if_neg (not_lt.mpr hopen)]

variable {listed : Nat → List Int}
  (hread : ∀ k, env.readFile k (joinPath cpusetPath name ++ "/tasks".toList) =
    some (tasksText (listed k)))
  (hopen : ∀ k, 0 ≤ env.openRet k (joinPath cpusetPath "tasks".toList))

include hread hopen in
/-- When at every attempt the cpuset's `tasks` file opens and lists `listed k` and the root's
opens, and `rmdir` fails at the `k` attempts from `attempt` on and then succeeds or the retries
run out, the loop from `again` writes to the root's `tasks` file the tasks listed at those
`k + 1` attempts, in order, calls `rmdir` `k + 1` times, and reports the failure exactly when
the last `rmdir` failed. -/
theorem destroyAgain_moves :
    ∀ (left attempt k : Nat), k ≤ left →
      (∀ j < k, env.rmdirRet (attempt + j) (joinPath cpusetPath name) < 0) →
      (0 ≤ env.rmdirRet (attempt + k) (joinPath cpusetPath name) ∨ k = left) →
      (destroyAgain env name print attempt (joinPath cpusetPath name) left).flatMap
          DestroyEvent.written =
        (List.range (k + 1)).flatMap (fun j ↦
          (listed (attempt + j)).map fun pid ↦ (joinPath cpusetPath "tasks".toList, formatInt pid)) ∧
      ((destroyAgain env name print attempt (joinPath cpusetPath name) left).filter
          DestroyEvent.isRmdir).length = k + 1 ∧
      (failedToRemove (joinPath cpusetPath name) ∈
          destroyAgain env name print attempt (joinPath cpusetPath name) left ↔
        env.rmdirRet (attempt + k) (joinPath cpusetPath name) < 0)
  | left, attempt, 0, _, _, hend => by
    rw [Nat.add_zero] at hend
    simp only [destroyAgain_open (hread attempt) (hopen attempt), List.range_succ_eq_map,
      List.range_zero, List.map_nil, List.flatMap_cons, List.flatMap_nil, List.append_nil,
      List.flatMap_append, moveEvents_written, Nat.add_zero, List.filter_append,
      moveEvents_filter_isRmdir, List.mem_append, List.mem_cons]
    by_cases hrm : env.rmdirRet attempt (joinPath cpusetPath name) < 0
    · obtain rfl : left = 0 := by omega
      simp [hrm, DestroyEvent.written, failedToRemove]
    · simp [hrm, DestroyEvent.written, failedToRemove]
  | 0, _, _ + 1, hk, _, _ => absurd hk (by omega)
  | left + 1, attempt, k + 1, hk, hfail, hend => by
    have hshift : ∀ j, attempt + (j + 1) = attempt + 1 + j := fun j ↦ by omega
    obtain ⟨hwritten, hrmdirs, hfailed⟩ := destroyAgain_moves left (attempt + 1) k (by omega)
      (fun j hj ↦ hshift j ▸ hfail (j + 1) (by omega)) (by rw [← hshift]; omega)
    have hrm : env.rmdirRet attempt (joinPath cpusetPath name) < 0 := hfail 0 (by omega)
    rw [destroyAgain_open (hread attempt) (hopen attempt), if_pos hrm]
    refine ⟨?_, ?_, ?_⟩
    · rw [List.flatMap_append, List.flatMap_cons, List.flatMap_cons, moveEvents_written, hwritten,
        List.range_succ_eq_map (k + 1), List.flatMap_cons, List.flatMap_map]
      simp only [DestroyEvent.written, List.nil_append, Nat.add_zero, Nat.succ_eq_add_one,
        ← Nat.add_assoc, Nat.add_right_comm attempt 1]
    · rw [List.filter_append, moveEvents_filter_isRmdir, List.filter_cons_of_pos rfl,
        List.filter_cons_of_neg (by simp), List.nil_append, List.length_cons, hrmdirs]
    · rw [List.mem_append, List.mem_cons, List.mem_cons, hfailed, ← hshift]
      simp [failedToRemove]

include hread hopen in
/-- When the cpuset's directory exists and its path leaves room for `/tasks` in `path`, at every
attempt its `tasks` file opens and lists `listed k` and the root's opens, and `rmdir` fails at
the attempts before `k ≤ 5` and then succeeds or the retries run out, `destroy_cpuset` prints
`Removing` first, writes to `CPUSET_PATH/tasks` the tasks listed at the attempts 0 to `k`, in
order, calls `rmdir` `k + 1` times, and prints `Failed to remove` exactly when the last `rmdir`
failed. -/
theorem destroyCpuset_moves (hstat : env.statOk (joinPath cpusetPath name) = true)
    (hroom : (joinPath cpusetPath name).length + "/tasks".length < maxpath) {k : Nat} (hk : k ≤ 5)
    (hfail : ∀ j < k, env.rmdirRet j (joinPath cpusetPath name) < 0)
    (hend : 0 ≤ env.rmdirRet k (joinPath cpusetPath name) ∨ k = 5) :
    ∃ events, destroyCpuset env name print = some events ∧
      events.head? = some (.print ("Removing ".toList ++ name ++ ['\n'])) ∧
      events.flatMap DestroyEvent.written = (List.range (k + 1)).flatMap (fun j ↦
        (listed j).map fun pid ↦ (joinPath cpusetPath "tasks".toList, formatInt pid)) ∧
      (events.filter DestroyEvent.isRmdir).length = k + 1 ∧
      (failedToRemove (joinPath cpusetPath name) ∈ events ↔
        env.rmdirRet k (joinPath cpusetPath name) < 0) := by
  obtain ⟨hwritten, hrmdirs, hfailed⟩ := @destroyAgain_moves env name print listed hread hopen 5 0 k hk
    (by simpa using hfail) (by simpa using hend)
  refine ⟨.print ("Removing ".toList ++ name ++ ['\n']) ::
      destroyAgain env name print 0 (joinPath cpusetPath name) 5,
    by rw [destroyCpuset, if_neg (by simp [hstat]), if_neg (by omega)], rfl, ?_, ?_, ?_⟩
  · simpa [DestroyEvent.written] using hwritten
  · simpa using hrmdirs
  · simpa [failedToRemove] using hfailed

end

/-- Six attempts, each moving task 4242 back to the root, then `Failed to remove`. -/
theorem destroyCpuset_moves_busy :
    ∃ events, destroyCpuset busyEnv cpusetLocal true = some events ∧
      events.head? = some (.print ("Removing ".toList ++ cpusetLocal ++ ['\n'])) ∧
      events.flatMap DestroyEvent.written = (List.range (5 + 1)).flatMap (fun j ↦
        ((fun _ ↦ [4242]) j : List Int).map fun pid ↦
          (joinPath cpusetPath "tasks".toList, formatInt pid)) ∧
      (events.filter DestroyEvent.isRmdir).length = 5 + 1 ∧
      (failedToRemove (joinPath cpusetPath cpusetLocal) ∈ events ↔
        busyEnv.rmdirRet 5 (joinPath cpusetPath cpusetLocal) < 0) :=
  destroyCpuset_moves (fun _ ↦ rfl) (fun _ ↦ (by decide : (0 : Int) ≤ 3)) rfl (by decide) le_rfl
    (fun _ _ ↦ show (-1 : Int) < 0 by decide) (.inr rfl)

end CyclicDeadline
