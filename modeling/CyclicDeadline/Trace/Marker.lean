import CyclicDeadline.Trace.Mounts

/-!
# The trace marker: `find_debugfs`, `setup_ftrace_marker` and `ftrace_write`

`find_debugfs` looks `debugfs` up in `/proc/mounts` with `find_mount` and keeps the mount point in
the static buffer `debugfs[MAXPATH+1]`; once `debugfs_found` is set it returns the buffer without
reading the file again. `main` calls it through `setup_ftrace_marker`, and `setup_hr_tick` calls
it again through `fill_sched_features`. `findDebugfsRun_mountsText` shows what the cache does
over every run of calls: the empty string until a call finds a `debugfs` entry, and that entry's
mount point from then on, whatever the mount table then holds.

`setup_ftrace_marker` opens `<debugfs>/tracing/trace_marker` into `mark_fd` when `stat` finds
it, and otherwise leaves `mark_fd` alone. `mark_fd` is a static `int` that starts at 0 and is set
nowhere else, and `ftrace_write` skips the write only when `mark_fd < 0`.
`markFdAtStart_mountsText` gives `mark_fd` after `main`'s call for every mount table: the
descriptor `open` returns when the first `debugfs` entry has a trace marker, and 0 otherwise, so
that without one every trace line goes to descriptor 0, the standard input.
-/

set_option autoImplicit false
set_option relaxedAutoImplicit false

namespace CyclicDeadline

/-! ### `find_debugfs` -/

/-- The statics of `find_debugfs`: `debugfs_found`, and the contents of `debugfs[MAXPATH+1]`. -/
structure DebugfsCache where
  debugfsFound : Bool
  debugfs : List Char
deriving DecidableEq, Repr

/-- The statics as the program starts: zero. -/
def DebugfsCache.init : DebugfsCache :=
  ⟨false, []⟩

/-- The type `find_debugfs` looks for. -/
def debugfsType : List Char :=
  "debugfs".toList

/-- `find_debugfs()` when `/proc/mounts` holds `mounts` (`none`: `fopen` fails): the C string it
returns and the statics after; `none` where `find_mount` is undefined. -/
def findDebugfs (mounts : Option (List Char)) (cache : DebugfsCache) :
    Option (List Char × DebugfsCache) :=
  if cache.debugfsFound then some (cstr cache.debugfs, cache)
  else
    (findMount debugfsType mounts cache.debugfs).map fun found ↦
      if found.1 then (cstr found.2, ⟨true, found.2⟩) else ([], ⟨false, found.2⟩)

/-- The calls of `find_debugfs` over a run of the program, `/proc/mounts` holding `mounts` at
each: the strings they return, from the statics `cache`. -/
def findDebugfsRun : List (Option (List Char)) → DebugfsCache → Option (List (List Char))
  | [], _ => some []
  | mounts :: later, cache =>
    (findDebugfs mounts cache).bind fun found ↦ (findDebugfsRun later found.2).map (found.1 :: ·)

/-- What the cache of `find_debugfs` is for, over mount tables (`none`: `/proc/mounts` does not
open): the empty string while no table read has a `debugfs` entry; the mount point of the first
one found, at that call and at every later one. `none` when a call reads an empty table. -/
def debugfsRunSpec : List (Option (List MountEntry)) → Option (List (List Char))
  | [] => some []
  | table :: later =>
    match table.map (mountLookup debugfsType) with
    | some none => none
    | some (some (true, dir)) => some (List.replicate (later.length + 1) (cstr dir))
    | _ => (debugfsRunSpec later).map ([] :: ·)

theorem findDebugfs_found {cache : DebugfsCache} (h : cache.debugfsFound = true)
    (mounts : Option (List Char)) : findDebugfs mounts cache = some (cstr cache.debugfs, cache) :=
  if_pos h

/-- Once `debugfs_found` is set, every later call returns the buffer. -/
theorem findDebugfsRun_found (cache : DebugfsCache) (h : cache.debugfsFound = true) :
    ∀ mounts : List (Option (List Char)),
      findDebugfsRun mounts cache = some (List.replicate mounts.length (cstr cache.debugfs))
  | [] => rfl
  | m :: ms => by
    simp [findDebugfsRun, findDebugfs_found h, findDebugfsRun_found cache h ms, List.replicate_succ]

/-- While `debugfs_found` is clear, one call reads the table: it finds its first `debugfs` entry, or
returns the empty string with `debugfs_found` still clear. -/
theorem findDebugfs_mountsText {cache : DebugfsCache} (h : cache.debugfsFound = false)
    {table : Option (List MountEntry)} (hvalid : ∀ t ∈ table, ∀ e ∈ t, e.Valid) :
    findDebugfs (table.map mountsText) cache =
      match table.map (mountLookup debugfsType) with
      | some none => none
      | some (some (true, dir)) => some (cstr dir, ⟨true, dir⟩)
      | some (some (false, dir)) => some ([], ⟨false, dir⟩)
      | none => some ([], ⟨false, cache.debugfs⟩) := by
  rw [findDebugfs, if_neg (by simp [h])]
  cases table with
  | none => rfl
  | some t =>
    simp only [Option.map_some', findMount_mountsText debugfsType (hvalid t rfl)]
    rcases mountLookup debugfsType t with _ | ⟨_ | _, dir⟩ <;> rfl

/-- When every table read is well formed, over every run of calls from the statics at the start,
`find_debugfs` returns the empty string until a call finds a `debugfs` entry, then that entry's
mount point at every later call, without reading `/proc/mounts` again. -/
theorem findDebugfsRun_mountsText :
    ∀ {tables : List (Option (List MountEntry))}, (∀ table ∈ tables, ∀ t ∈ table, ∀ e ∈ t, e.Valid) →
      ∀ (cache : DebugfsCache), cache.debugfsFound = false →
      findDebugfsRun (tables.map (Option.map mountsText)) cache = debugfsRunSpec tables
  | [], _, _, _ => rfl
  | table :: later, hvalid, cache, h => by
    have hlater : ∀ table ∈ later, ∀ t ∈ table, ∀ e ∈ t, e.Valid :=
      fun table' hmem ↦ hvalid table' (List.mem_cons_of_mem table hmem)
    rw [List.map_cons, findDebugfsRun, findDebugfs_mountsText h (hvalid table (List.mem_cons_self _ _)),
      debugfsRunSpec]
    rcases table.map (mountLookup debugfsType) with _ | _ | ⟨_ | _, dir⟩
    · simp [findDebugfsRun_mountsText hlater ⟨false, cache.debugfs⟩ rfl]
    · rfl
    · simp [findDebugfsRun_mountsText hlater ⟨false, dir⟩ rfl]
    · simp [findDebugfsRun_found ⟨true, dir⟩ rfl, List.replicate_succ]

/-- `/proc/mounts` does not open at the first call; the second finds `debugfs` at
`/sys/kernel/debug`, and the third returns it again although the table is then empty. -/
theorem findDebugfsRun_mountsText_cached :
    (∀ table ∈ [none, some [MountEntry.mk "debugfs".toList "/sys/kernel/debug".toList
        "debugfs".toList "rw".toList 0 0], some []], ∀ t ∈ table, ∀ e ∈ t, e.Valid) ∧
      findDebugfsRun ([none, some [MountEntry.mk "debugfs".toList "/sys/kernel/debug".toList
          "debugfs".toList "rw".toList 0 0], some []].map (Option.map mountsText))
          DebugfsCache.init =
        debugfsRunSpec [none, some [MountEntry.mk "debugfs".toList "/sys/kernel/debug".toList
          "debugfs".toList "rw".toList 0 0], some []] :=
  have hvalid : ∀ table ∈ [none, some [MountEntry.mk "debugfs".toList "/sys/kernel/debug".toList
      "debugfs".toList "rw".toList 0 0], some []], ∀ t ∈ table, ∀ e ∈ t, e.Valid := by decide
  ⟨hvalid, findDebugfsRun_mountsText hvalid DebugfsCache.init rfl⟩

/-! ### `setup_ftrace_marker` and `ftrace_write` -/

/-- `"%s/tracing/trace_marker"` with the mount point `debugfs`. -/
def traceMarkerPath (debugfs : List Char) : List Char :=
  debugfs ++ "/tracing/trace_marker".toList

/-- `setup_ftrace_marker()` when `find_debugfs` returns `debugfs`, `stat` succeeds on the paths
`statOk` holds and `open(files, O_WRONLY)` returns `openRet files`, with `mark_fd` holding
`markFd` before: `mark_fd` after. -/
def setupFtraceMarker (debugfs : List Char) (statOk : List Char → Bool)
    (openRet : List Char → Int) (markFd : Int) : Int :=
  if debugfs.length = 0 then markFd
  else if statOk (traceMarkerPath debugfs) then openRet (traceMarkerPath debugfs)
  else markFd

/-- `ftrace_write(buf, fmt, ...)` with `mark_fd` holding `markFd`: `none` when it returns at once;
otherwise the descriptor it writes to and how `my_vsprintf(buf, BUFSIZ, fmt, ap)` ends, whose
count `n` and stores give the bytes `write(mark_fd, buf, n)` hands on. -/
def ftraceWrite (dm : DataModel) (bufsiz markFd : Int) (fmt : List Char) (args : List VaArg) :
    Option (Int × PrintOutcome) :=
  if markFd < 0 then none else some (markFd, myVsprintf dm bufsiz fmt args)

/-- What `setup_ftrace_marker` finds on the system: the contents of `/proc/mounts` (`none`:
`fopen` fails), the paths `stat` finds, and what `open` returns for each path. -/
structure TraceEnv where
  mounts : Option (List Char)
  statOk : List Char → Bool
  openRet : List Char → Int

/-- `mark_fd` and the statics of `find_debugfs` after `main` calls `setup_ftrace_marker()`, the
first call of `find_debugfs`, with every static still zero; `none` where `find_mount` is
undefined. -/
def markFdAtStart (env : TraceEnv) : Option (Int × DebugfsCache) :=
  (findDebugfs env.mounts DebugfsCache.init).map fun found ↦
    (setupFtraceMarker found.1 env.statOk env.openRet 0, found.2)

/-- What `mark_fd` holds after the setup, over mount tables (`none`: `/proc/mounts` does not
open): the descriptor `open` returns for the trace marker of the first `debugfs` entry when
`stat` finds it; otherwise the initial 0. `none` for an empty table. -/
def markerSpec (table : Option (List MountEntry)) (statOk : List Char → Bool)
    (openRet : List Char → Int) : Option Int :=
  match table.map (mountLookup debugfsType) with
  | some none => none
  | some (some (true, dir)) =>
    if cstr dir ≠ [] ∧ statOk (traceMarkerPath (cstr dir)) = true then
      some (openRet (traceMarkerPath (cstr dir)))
    else some 0
  | _ => some 0

/-- On a well-formed mount table, after `main`'s `setup_ftrace_marker()`, `mark_fd` holds the trace
marker's descriptor when the first `debugfs` entry has one, and 0 otherwise: without `debugfs`,
without `/proc/mounts`, or without the trace marker, `ftrace_write` writes every trace line to
descriptor 0. -/
theorem markFdAtStart_mountsText {table : Option (List MountEntry)}
    (hvalid : ∀ t ∈ table, ∀ e ∈ t, e.Valid) (statOk : List Char → Bool)
    (openRet : List Char → Int) :
    (markFdAtStart ⟨table.map mountsText, statOk, openRet⟩).map Prod.fst =
      markerSpec table statOk openRet := by
  rw [markFdAtStart, findDebugfs_mountsText rfl hvalid, markerSpec]
  rcases table.map (mountLookup debugfsType) with _ | _ | ⟨_ | _, dir⟩
  · rfl
  · rfl
  · rfl
  · by_cases hdir : cstr dir = []
    · simp [setupFtraceMarker, hdir]
    · by_cases hstat : statOk (traceMarkerPath (cstr dir)) = true <;>
        simp [setupFtraceMarker, hdir, hstat]

/-- `debugfs` at `/sys/kernel/debug` with a trace marker that opens as descriptor 3. -/
theorem markFdAtStart_mountsText_opened :
    (∀ t ∈ some [MountEntry.mk "debugfs".toList "/sys/kernel/debug".toList "debugfs".toList
        "rw".toList 0 0], ∀ e ∈ t, e.Valid) ∧
      (markFdAtStart ⟨(some [MountEntry.mk "debugfs".toList "/sys/kernel/debug".toList
          "debugfs".toList "rw".toList 0 0]).map mountsText, fun _ ↦ true, fun _ ↦ 3⟩).map
          Prod.fst =
        markerSpec (some [MountEntry.mk "debugfs".toList "/sys/kernel/debug".toList
          "debugfs".toList "rw".toList 0 0]) (fun _ ↦ true) (fun _ ↦ 3) :=
  have hvalid : ∀ t ∈ some [MountEntry.mk "debugfs".toList "/sys/kernel/debug".toList
      "debugfs".toList "rw".toList 0 0], ∀ e ∈ t, e.Valid := by decide
  ⟨hvalid, markFdAtStart_mountsText hvalid _ _⟩

end CyclicDeadline
