import CyclicDeadline.Trace.Mounts
import CyclicDeadline.Cpuset.Tasks

/-!
# `make_cpuset`: the cpusets of the run

`main` makes two cpusets under `CPUSET_PATH`, `/sys/fs/cgroup/cpuset`: `my_cpuset_all`, with the
CPUs the threads do not use, into which `CPUSET_FL_ALL_TASKS` moves every task of the root
cpuset; and `my_cpuset`, with the CPUs of the threads, into which `CPUSET_FL_TASKS` moves the
threads. `make_cpuset` first calls `mount_cpuset`, which mounts the hierarchy where it is not
mounted and sets the root's `cpuset.cpu_exclusive` to 1 and `cpuset.sched_load_balance` to 0.
It then makes the directory and sets the cpuset's files, one block per file: `open_cpuset`,
`write`, `close`, and `fatal` when the open or the write fails.

The model runs the code against `CpusetEnv`, what the system answers to each call, and returns
the writes, as the file and the bytes, with the message of the `fatal` that ends the run
(`CpusetRun`). The blocks are joined by `CpusetRun.andThen`, which stops at the first `fatal`.
`write(fd, "1", 2)` writes the `1` and the NUL after it. The progress lines `make_cpuset`
prints, and the arguments of `mount` other than the mount point, are left out.

`scanPids` is the loop `while (fscanf(fp, "%d", &pid) == 1)` over a `tasks` file, and
`scanPids_tasksText` reads back every listing the kernel writes. The `CPUSET_FL_ALL_TASKS` block
does not check the `open_cpuset` of the new cpuset's `tasks` file, and stops only on `ENOSPC`:
`allTasksRun_tasksText` shows that when the file opens it writes the listed tasks in order up to
the first write that fails with `ENOSPC`, and that when it does not open, no task moves and
nothing is reported. `makeCpuset_writes` shows that every file `make_cpuset` writes is one of the
six files of the new cpuset it sets, or one of the two root files `mount_cpuset` sets.
-/

set_option autoImplicit false
set_option relaxedAutoImplicit false

namespace CyclicDeadline

/-! ### The system and the paths -/

/-- What the system answers to the calls of the cpuset code. -/
structure CpusetEnv where
  /-- The `f_type` `statfs` reports at a path; `none` when `statfs` fails. -/
  fsType : List Char → Option Int
  /-- What `mount` returns for a mount point. -/
  mountRet : List Char → Int
  /-- The paths `stat` finds. -/
  statOk : List Char → Bool
  /-- What `mkdir` returns for a path. -/
  mkdirRet : List Char → Int
  /-- What `open(path, O_WRONLY)` returns for a path. -/
  openRet : List Char → Int
  /-- The contents of the file `fopen(path, "r")` opens; `none` when it fails. -/
  readFile : List Char → Option (List Char)
  /-- What `write` returns for bytes written to the file at a path. -/
  writeRet : List Char → List Char → Int
  /-- Whether a failed `write` of the bytes to the file sets `errno` to `ENOSPC`. -/
  enospc : List Char → List Char → Bool

/-- `CGROUP_PATH`. -/
def cgroupPath : List Char :=
  "/sys/fs/cgroup".toList

/-- `CPUSET_PATH`, `CGROUP_PATH "/cpuset"`. -/
def cpusetPath : List Char :=
  "/sys/fs/cgroup/cpuset".toList

/-- `CPUSET_ALL`. -/
def cpusetAll : List Char :=
  "my_cpuset_all".toList

/-- `CPUSET_LOCAL`. -/
def cpusetLocal : List Char :=
  "my_cpuset".toList

/-- `TMPFS_MAGIC` of `linux/magic.h`. -/
def tmpfsMagic : Int :=
  0x01021994

/-- `CGROUP_SUPER_MAGIC` of `linux/magic.h`. -/
def cgroupSuperMagic : Int :=
  0x27e0eb

/-- `CPUSET_FL_CPU_EXCLUSIVE`. -/
def cpusetFlCpuExclusive : Nat := 1
/-- `CPUSET_FL_MEM_EXCLUSIVE`. -/
def cpusetFlMemExclusive : Nat := 2
/-- `CPUSET_FL_ALL_TASKS`. -/
def cpusetFlAllTasks : Nat := 4
/-- `CPUSET_FL_TASKS`. -/
def cpusetFlTasks : Nat := 8
/-- `CPUSET_FL_CLEAR_LOADBALANCE`. -/
def cpusetFlClearLoadbalance : Nat := 16
/-- `CPUSET_FL_SET_LOADBALANCE`. -/
def cpusetFlSetLoadbalance : Nat := 32
/-- `CPUSET_FL_CLONE_CHILDREN`. -/
def cpusetFlCloneChildren : Nat := 64

/-- `snprintf(buf, MAXPATH - 1, "%s/%s", path, name)`: the text, cut to `MAXPATH - 2`
characters. -/
def joinPath (path name : List Char) : List Char :=
  (path ++ '/' :: name).take (maxpath - 2)

/-- `open_cpuset(path, name)`: `open(buf, O_WRONLY)` of `buf = path/name` when `stat` finds it,
and the -1 of `stat` otherwise. -/
def openCpuset (env : CpusetEnv) (path name : List Char) : Int :=
  if env.statOk (joinPath path name) then env.openRet (joinPath path name) else -1

/-- `mounted(path, magic)`: -1 when `statfs` fails, 0 when another file system is mounted there,
1 when the one of type `magic` is. -/
def mounted (env : CpusetEnv) (path : List Char) (magic : Int) : Int :=
  match env.fsType path with
  | none => -1
  | some fType => if fType ≠ magic then 0 else 1

/-! ### Runs -/

/-- What a run of the cpuset code does: the writes, as the file and the bytes, in order, and the
message of the `fatal` that ends it, if any. -/
structure CpusetRun where
  writes : List (List Char × List Char)
  fatal : Option (List Char)
deriving DecidableEq, Repr

/-- A block that does nothing. -/
def CpusetRun.ok : CpusetRun :=
  ⟨[], none⟩

/-- The run `run`, then `next` unless `run` ended in `fatal`. -/
def CpusetRun.andThen (run next : CpusetRun) : CpusetRun :=
  if run.fatal.isSome then run else ⟨run.writes ++ next.writes, next.fatal⟩

@[simp] theorem CpusetRun.ok_andThen (next : CpusetRun) : CpusetRun.ok.andThen next = next := by
  simp [CpusetRun.andThen, CpusetRun.ok]

@[simp] theorem CpusetRun.andThen_ok (run : CpusetRun) : run.andThen .ok = run := by
  cases run with
  | mk writes fatal => cases fatal <;> simp [CpusetRun.andThen, CpusetRun.ok]

theorem CpusetRun.writes_andThen (run next : CpusetRun) :
    (run.andThen next).writes = run.writes ++ if run.fatal.isSome then [] else next.writes := by
  unfold CpusetRun.andThen
  split <;> simp [*]

/-- Every write of a joined run is a write of one of its parts. -/
theorem CpusetRun.mem_writes_andThen {run next : CpusetRun} {w : List Char × List Char}
    (h : w ∈ (run.andThen next).writes) : w ∈ run.writes ∨ w ∈ next.writes := by
  rw [CpusetRun.writes_andThen, List.mem_append] at h
  rcases h with h | h
  · exact .inl h
  · split at h
    · cases h
    · exact .inr h

/-! ### `mount_cpuset` and the blocks of `make_cpuset` -/

/-- The `"1"` that `write(fd, "1", 2)` writes, with its NUL. -/
def oneText : List Char :=
  ['1', '\x00']

/-- The `"0"` that `write(fd, "0", 2)` writes, with its NUL. -/
def zeroText : List Char :=
  ['0', '\x00']

/-- `mount_cpuset()`: the writes it makes and what it returns. It mounts a `tmpfs` at
`CGROUP_PATH` and the `cpuset` hierarchy at `CPUSET_PATH` where they are not mounted, makes
`CPUSET_PATH` when `stat` does not find it, and writes `"1"` to the root's
`cpuset.cpu_exclusive` and `"0"` to its `cpuset.sched_load_balance` without looking at what the
writes return. -/
def mountCpuset (env : CpusetEnv) : List (List Char × List Char) × Int :=
  let ret := mounted env cgroupPath tmpfsMagic
  if ret < 0 then ([], ret)
  else if ret = 0 ∧ env.mountRet cgroupPath < 0 then ([], env.mountRet cgroupPath)
  else if ¬ env.statOk cpusetPath ∧ env.mkdirRet cpusetPath < 0 then ([], env.mkdirRet cpusetPath)
  else
    let ret := mounted env cpusetPath cgroupSuperMagic
    if ret < 0 then ([], ret)
    else if ret = 0 ∧ env.mountRet cpusetPath < 0 then ([], env.mountRet cpusetPath)
    else if openCpuset env cpusetPath "cpuset.cpu_exclusive".toList < 0 then
      ([], openCpuset env cpusetPath "cpuset.cpu_exclusive".toList)
    else
      let exclusive := (joinPath cpusetPath "cpuset.cpu_exclusive".toList, oneText)
      if openCpuset env cpusetPath "cpuset.sched_load_balance".toList < 0 then
        ([exclusive], openCpuset env cpusetPath "cpuset.sched_load_balance".toList)
      else ([exclusive, (joinPath cpusetPath "cpuset.sched_load_balance".toList, zeroText)], 0)

/-- The block of `make_cpuset` that sets the file `name` of the cpuset at `path` to `data`:
`fd = open_cpuset(path, name); if (fd < 0) fatal(openMsg); ret = write(fd, data, ...);
close(fd); if (ret < 0) fatal(writeMsg);`. -/
def setCpusetFile (env : CpusetEnv) (path name data openMsg writeMsg : List Char) : CpusetRun :=
  if openCpuset env path name < 0 then ⟨[], some openMsg⟩
  else
    ⟨[(joinPath path name, data)],
      if env.writeRet (joinPath path name) data < 0 then some writeMsg else none⟩

/-- The `CPUSET_FL_TASKS` block: `makeCpusetTasks` on the `tasks` file of the cpuset at `path`,
each `write` answered by the system. -/
def tasksRun (env : CpusetEnv) (path : List Char) (pids : List Int) : CpusetRun :=
  let tasks := joinPath path "tasks".toList
  let step := makeCpusetTasks (openCpuset env path "tasks".toList) pids
    fun k ↦ env.writeRet tasks (formatInt (pids.getD k 0) ++ [' '])
  ⟨step.1.map (tasks, ·), step.2⟩

/-- The values the loop `while (fscanf(fp, "%d", &pid) == 1)` reads from a file's text, in
order, up to the first conversion that fails. -/
def scanPids (input : List Char) : List Int :=
  match _hscan : (scanInt input).1 with
  | some pid => pid :: scanPids (scanInt input).2
  | none => []
termination_by input.length
decreasing_by exact scanInt_lt _hscan

/-- Whether the `write` of `pid` to the file `tasks` fails with `ENOSPC`. -/
def failsEnospc (env : CpusetEnv) (tasks : List Char) (pid : Int) : Bool :=
  env.writeRet tasks (formatInt pid) < 0 ∧ env.enospc tasks (formatInt pid)

/-- The loop of `CPUSET_FL_ALL_TASKS` over the pids read: `sprintf(buf, "%d", pid)`, then
`write(fd, buf, strlen(buf))` to the file `tasks` opened as `fd`, and
`fatal("Can not move tasks")` when the write fails with `ENOSPC`. A write to a descriptor that
did not open fails with `EBADF`, writes nothing and is not reported. -/
def moveAllTasks (env : CpusetEnv) (fd : Int) (tasks : List Char) : List Int → CpusetRun
  | [] => .ok
  | pid :: pids =>
    if fd < 0 then moveAllTasks env fd tasks pids
    else
      (⟨[(tasks, formatInt pid)],
        if failsEnospc env tasks pid then some "Can not move tasks".toList else none⟩ :
          CpusetRun).andThen (moveAllTasks env fd tasks pids)

/-- The `CPUSET_FL_ALL_TASKS` block for the cpuset at `path`: `open_cpuset(path, "tasks")`, not
checked, then the tasks of the root's `tasks` file, read with `fopen`, moved one by one. -/
def allTasksRun (env : CpusetEnv) (path : List Char) : CpusetRun :=
  match env.readFile (joinPath cpusetPath "tasks".toList) with
  | none => ⟨[], some "opening cpuset tasks".toList⟩
  | some text =>
    moveAllTasks env (openCpuset env path "tasks".toList) (joinPath path "tasks".toList)
      (scanPids text)

/-- `make_cpuset(name, cpus, mems, flags, pids)`: the cpuset at `CPUSET_PATH/name`, made with
the CPUs `cpus`, the memory nodes `mems` when there are (`NULL` is `none`), the settings the
flags ask for, and the tasks moved into it. -/
def makeCpuset (env : CpusetEnv) (name cpus : List Char) (mems : Option (List Char))
    (flags : Nat) (pids : List Int) : CpusetRun :=
  let path := joinPath cpusetPath name
  let mount := mountCpuset env
  (⟨mount.1, if mount.2 < 0 then some "mount_cpuset".toList else none⟩ : CpusetRun)
  |>.andThen (if ¬ env.statOk path ∧ env.mkdirRet path < 0 then ⟨[], some "mkdir".toList⟩
    else .ok)
  |>.andThen (setCpusetFile env path "cpuset.cpus".toList (cstr cpus) "cset".toList
    "write cpus".toList)
  |>.andThen (match mems with
    | some mems => setCpusetFile env path "cpuset.mems".toList (cstr mems) "open mems".toList
      "write mems".toList
    | none => .ok)
  |>.andThen (if flags &&& cpusetFlCpuExclusive ≠ 0 then
      setCpusetFile env path "cpuset.cpu_exclusive".toList oneText "open cpu_exclusive".toList
        "write cpu_exclusive".toList
    else .ok)
  |>.andThen (if flags &&& (cpusetFlClearLoadbalance ||| cpusetFlSetLoadbalance) ≠ 0 then
      setCpusetFile env path "cpuset.sched_load_balance".toList
        (if flags &&& cpusetFlSetLoadbalance ≠ 0 then oneText else zeroText)
        "open sched_load_balance".toList "write sched_load_balance".toList
    else .ok)
  |>.andThen (if flags &&& cpusetFlCloneChildren ≠ 0 then
      setCpusetFile env path "cgroup.clone_children".toList oneText "open clone_children".toList
        "write clone_children".toList
    else .ok)
  |>.andThen (if flags &&& cpusetFlTasks ≠ 0 then tasksRun env path pids else .ok)
  |>.andThen (if flags &&& cpusetFlAllTasks ≠ 0 then allTasksRun env path else .ok)

/-! ### Reading a `tasks` file -/

/-- The text of a `tasks` file: each pid in decimal on a line of its own. -/
def tasksText (pids : List Int) : List Char :=
  pids.flatMap fun pid ↦ formatInt pid ++ ['\n']

theorem scanPids_blank {c : Char} (hc : isSpace c = true) (input : List Char) :
    scanPids (c :: input) = scanPids input := by
  rw [scanPids, scanPids.eq_1 input]
  have hblank := scanInt_blank hc input
  split <;> split <;> simp_all

/-- The loop reads back every listing the kernel writes. -/
theorem scanPids_tasksText : ∀ pids : List Int, scanPids (tasksText pids) = pids
  | [] => by simp [tasksText, scanPids, scanInt, scanDigits, takeSign]
  | pid :: pids => by
    have hscan := scanInt_formatInt pid (stopsDigits_newline (tasksText pids))
    rw [tasksText, List.flatMap_cons, ← tasksText, List.append_assoc, List.singleton_append,
      scanPids]
    simp only [hscan, scanPids_blank isSpace_newline, scanPids_tasksText pids]
    split <;> simp_all

/-! ### The `CPUSET_FL_ALL_TASKS` loop -/

/-- What the `CPUSET_FL_ALL_TASKS` loop is for: move every task listed, in order, and stop with
`fatal("Can not move tasks")` at the first write that fails with `ENOSPC`. -/
def moveSpec (env : CpusetEnv) (tasks : List Char) (pids : List Int) : CpusetRun :=
  match pids.dropWhile fun pid ↦ !failsEnospc env tasks pid with
  | [] => ⟨pids.map fun pid ↦ (tasks, formatInt pid), none⟩
  | bad :: _ =>
    ⟨(pids.takeWhile (fun pid ↦ !failsEnospc env tasks pid) ++ [bad]).map
      fun pid ↦ (tasks, formatInt pid), some "Can not move tasks".toList⟩

/-- When the `tasks` file did not open, the loop writes nothing and reports nothing. -/
theorem moveAllTasks_of_neg {env : CpusetEnv} {fd : Int} (hfd : fd < 0) (tasks : List Char) :
    ∀ pids : List Int, moveAllTasks env fd tasks pids = .ok
  | [] => rfl
  | pid :: pids => by rw [moveAllTasks, if_pos hfd, moveAllTasks_of_neg hfd tasks pids]

/-- When the `tasks` file opened, the loop does what `moveSpec` says. -/
theorem moveAllTasks_eq_moveSpec {env : CpusetEnv} {fd : Int} (hfd : 0 ≤ fd) (tasks : List Char) :
    ∀ pids : List Int, moveAllTasks env fd tasks pids = moveSpec env tasks pids
  | [] => rfl
  | pid :: pids => by
    rw [moveAllTasks, if_neg (by omega), moveAllTasks_eq_moveSpec hfd tasks pids]
    by_cases hfail : failsEnospc env tasks pid = true
    · simp [moveSpec, CpusetRun.andThen, hfail]
    · unfold moveSpec
      rcases hrest : pids.dropWhile fun pid ↦ !failsEnospc env tasks pid with _ | ⟨bad, _⟩ <;>
        simp [CpusetRun.andThen, hfail, hrest]

/-- When the root's `tasks` file opens and lists `pids`, as the kernel writes it, and the new
cpuset's `tasks` file opens, the `CPUSET_FL_ALL_TASKS` block writes every listed task to it in
order, up to and including the first write that fails with `ENOSPC`, where it calls `fatal`; when
the new file does not open, the block moves no task and reports nothing. -/
theorem allTasksRun_tasksText (env : CpusetEnv) (path : List Char) (pids : List Int)
    (hread : env.readFile (joinPath cpusetPath "tasks".toList) = some (tasksText pids)) :
    allTasksRun env path =
      if openCpuset env path "tasks".toList < 0 then CpusetRun.ok
      else moveSpec env (joinPath path "tasks".toList) pids := by
  rw [allTasksRun, hread]
  dsimp only
  rw [scanPids_tasksText]
  split
  · exact moveAllTasks_of_neg ‹_› _ pids
  · exact moveAllTasks_eq_moveSpec (by omega) _ pids

/-- The root lists tasks 1 and 42, every file opens as descriptor 5, and the write of 42 fails
with `ENOSPC`. -/
def enospcEnv : CpusetEnv :=
  ⟨fun _ ↦ none, fun _ ↦ 0, fun _ ↦ true, fun _ ↦ 0, fun _ ↦ 5, fun _ ↦ some (tasksText [1, 42]),
    fun _ text ↦ if text = formatInt 42 then -1 else 1, fun _ _ ↦ true⟩

theorem allTasksRun_tasksText_enospc :
    allTasksRun enospcEnv (joinPath cpusetPath cpusetAll) =
      if openCpuset enospcEnv (joinPath cpusetPath cpusetAll) "tasks".toList < 0 then CpusetRun.ok
      else moveSpec enospcEnv (joinPath (joinPath cpusetPath cpusetAll) "tasks".toList) [1, 42] :=
  allTasksRun_tasksText _ _ _ rfl

/-! ### What `make_cpuset` never does -/

theorem CpusetRun.forall_writes_andThen {P : List Char × List Char → Prop} {run next : CpusetRun}
    (hrun : ∀ w ∈ run.writes, P w) (hnext : ∀ w ∈ next.writes, P w) :
    ∀ w ∈ (run.andThen next).writes, P w :=
  fun w hw ↦ (CpusetRun.mem_writes_andThen hw).elim (hrun w) (hnext w)

/-- A block run only when `c` holds writes what the block writes, or nothing. -/
theorem CpusetRun.forall_writes_ite {P : List Char × List Char → Prop} (c : Prop) [Decidable c]
    {run : CpusetRun} (hrun : ∀ w ∈ run.writes, P w) :
    ∀ w ∈ (if c then run else CpusetRun.ok).writes, P w := by
  split
  · exact hrun
  · simp [CpusetRun.ok]

/-- The files of a cpuset that `make_cpuset` sets. -/
def cpusetFiles : List (List Char) :=
  ["cpuset.cpus".toList, "cpuset.mems".toList, "cpuset.cpu_exclusive".toList,
    "cpuset.sched_load_balance".toList, "cgroup.clone_children".toList, "tasks".toList]

/-- A file `make_cpuset` may write for the cpuset `name`: one of the two root settings of
`mount_cpuset`, or one of `cpusetFiles` in the cpuset's own directory. -/
def MakeCpusetFile (name : List Char) (w : List Char × List Char) : Prop :=
  w.1 = joinPath cpusetPath "cpuset.cpu_exclusive".toList ∨
    w.1 = joinPath cpusetPath "cpuset.sched_load_balance".toList ∨
    ∃ file ∈ cpusetFiles, w.1 = joinPath (joinPath cpusetPath name) file

/-- `mount_cpuset` writes the root's `cpuset.cpu_exclusive` and then its
`cpuset.sched_load_balance`, or the first of them, or neither. -/
theorem mountCpuset_writes_initSegment (env : CpusetEnv) :
    (mountCpuset env).1 <+: [(joinPath cpusetPath "cpuset.cpu_exclusive".toList, oneText),
      (joinPath cpusetPath "cpuset.sched_load_balance".toList, zeroText)] := by
  unfold mountCpuset
  dsimp only
  split_ifs <;> simp

theorem mountCpuset_writes (env : CpusetEnv) (name : List Char) :
    ∀ w ∈ (mountCpuset env).1, MakeCpusetFile name w := by
  intro w hw
  have hmem := (mountCpuset_writes_initSegment env).subset hw
  simp only [List.mem_cons, List.mem_singleton, List.not_mem_nil, or_false] at hmem
  rcases hmem with rfl | rfl
  · exact .inl rfl
  · exact .inr (.inl rfl)

theorem setCpusetFile_writes (env : CpusetEnv) (name : List Char) {file : List Char}
    (hfile : file ∈ cpusetFiles) (data openMsg writeMsg : List Char) :
    ∀ w ∈ (setCpusetFile env (joinPath cpusetPath name) file data openMsg writeMsg).writes,
      MakeCpusetFile name w := by
  intro w hw
  unfold setCpusetFile at hw
  split at hw
  · cases hw
  · simp only [List.mem_singleton] at hw
    exact .inr (.inr ⟨file, hfile, by rw [hw]⟩)

theorem moveAllTasks_writes (env : CpusetEnv) (fd : Int) (name : List Char) :
    ∀ (pids : List Int), ∀ w ∈ (moveAllTasks env fd (joinPath (joinPath cpusetPath name)
      "tasks".toList) pids).writes, MakeCpusetFile name w
  | [] => by simp [moveAllTasks, CpusetRun.ok]
  | pid :: pids => by
    rw [moveAllTasks]
    split
    · exact moveAllTasks_writes env fd name pids
    · refine CpusetRun.forall_writes_andThen ?_ (moveAllTasks_writes env fd name pids)
      simp only [List.mem_singleton, forall_eq]
      exact .inr (.inr ⟨_, by decide, rfl⟩)

theorem tasksRun_writes (env : CpusetEnv) (name : List Char) (pids : List Int) :
    ∀ w ∈ (tasksRun env (joinPath cpusetPath name) pids).writes, MakeCpusetFile name w := by
  intro w hw
  simp only [tasksRun, List.mem_map] at hw
  obtain ⟨_, _, rfl⟩ := hw
  exact .inr (.inr ⟨_, by decide, rfl⟩)

theorem allTasksRun_writes (env : CpusetEnv) (name : List Char) :
    ∀ w ∈ (allTasksRun env (joinPath cpusetPath name)).writes, MakeCpusetFile name w := by
  unfold allTasksRun
  split
  · simp
  · exact moveAllTasks_writes env _ name _

/-- Whatever the system answers, every file `make_cpuset` writes is one of the six files it sets
in the new cpuset's directory or one of the two root settings `mount_cpuset` makes: the root's
`tasks` file, from which `CPUSET_FL_ALL_TASKS` takes the tasks, is only read. -/
theorem makeCpuset_writes (env : CpusetEnv) (name cpus : List Char) (mems : Option (List Char))
    (flags : Nat) (pids : List Int) :
    ∀ w ∈ (makeCpuset env name cpus mems flags pids).writes, MakeCpusetFile name w := by
  unfold makeCpuset
  repeat' apply CpusetRun.forall_writes_andThen
  · exact mountCpuset_writes env name
  · split <;> simp [CpusetRun.ok]
  · exact setCpusetFile_writes env name (by decide) _ _ _
  · split
    · exact setCpusetFile_writes env name (by decide) _ _ _
    · simp [CpusetRun.ok]
  · exact CpusetRun.forall_writes_ite _ (setCpusetFile_writes env name (by decide) _ _ _)
  · exact CpusetRun.forall_writes_ite _ (setCpusetFile_writes env name (by decide) _ _ _)
  · exact CpusetRun.forall_writes_ite _ (setCpusetFile_writes env name (by decide) _ _ _)
  · exact CpusetRun.forall_writes_ite _ (tasksRun_writes env name pids)
  · exact CpusetRun.forall_writes_ite _ (allTasksRun_writes env name)

/-- A system on which every call succeeds and no file system is mounted yet, and whose root lists
tasks 1 and 42. -/
def freshEnv : CpusetEnv :=
  ⟨fun _ ↦ some 0, fun _ ↦ 0, fun _ ↦ true, fun _ ↦ 0, fun _ ↦ 3, fun _ ↦ some (tasksText [1, 42]),
    fun _ _ ↦ 1, fun _ _ ↦ false⟩

theorem makeCpuset_writes_cpus :
    MakeCpusetFile cpusetLocal
      (joinPath (joinPath cpusetPath cpusetLocal) "cpuset.cpus".toList, "3".toList) :=
  makeCpuset_writes freshEnv cpusetLocal "3".toList none cpusetFlCpuExclusive [] _ (by decide)

end CyclicDeadline
