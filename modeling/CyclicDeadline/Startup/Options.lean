import CyclicDeadline.Trace.Vsprintf
import CyclicDeadline.CpuList.Affinity

/-!
# The option loop of `main`

`main` reads its command line with `getopt_long(argc, argv, "a::c:D:hi:s:t:q", options, NULL)`
until it returns -1, and runs the body of a `switch` on each option. `getopt_long` belongs to the
C library: the model takes what it returns, one `Getopt` per call in order, and `optionStep` is
the body of the `switch`. `parseOptions` is the whole loop followed by
`if (!nr_threads) nr_threads = 1`; `usage` ends the program with its argument as exit status.
`MAX_PATH` comes from a header outside the program and `parse_time_string` from the rt-tests
library, and both are parameters.

`jsonfile` is `static char jsonfile[MAX_PATH]`, all NUL at start, and `--json` copies its
argument with `strncpy(jsonfile, optarg, strnlen(optarg, MAX_PATH-1))`. The count given to
`strncpy` never exceeds the argument's length, so it copies the argument's characters and no NUL:
a second `--json` shorter than the first leaves the end of the first name behind it.
`overlayName` says what one `--json` does to the name, and `foldlM_jsonfile` that the buffer of
every run holds the names folded that way, followed by NULs. `parseOptions_jsonfile_last` is what
follows for the file `main` writes its results to: it is the one the last `--json` names exactly
when no earlier `--json` named a longer one.

`nr_threads` is set by `-t`, and by `-a` only while it is 0: `parseOptions_nrThreads_last` shows
that the last `-t` with a count other than 0 fixes the thread count, wherever `-a` stands.

`-a`, `-c` and `--affinity` set `setcpu` to their argument or the word after them, and
`all_cpus` when they have neither. `parseOptions_affinitySetup` follows the loop into the affinity
handling of `main` (`affinitySetup`): without an affinity option that gives a word, `setcpu`
stays `NULL`, so `nr_cpus` is `cpu_count`, `all_cpus` ends up set, and the branch that would
default `setcpu_buf` to the last CPU never runs.
-/

set_option autoImplicit false
set_option relaxedAutoImplicit false

namespace CyclicDeadline

/-- What one call of `getopt_long` returns, as the `switch` of `main` reads it: the option and
`optarg`. For `-a`, `-c` and `--affinity` also `argv[optind]`, the word after the option, when
`optind < argc`. `other` is any value the `switch` sends to `default`. -/
inductive Getopt
  | affinity (optarg next : Option (List Char))
  | interval (optarg : List Char)
  | json (optarg : List Char)
  | step (optarg : List Char)
  | threads (optarg : List Char)
  | duration (optarg : List Char)
  | quiet
  | help
  | other
deriving DecidableEq, Repr

/-- The argument of a `--json` option. -/
def Getopt.jsonArg : Getopt → Option (List Char)
  | .json optarg => some optarg
  | _ => none

/-- The word an affinity option gives `setcpu`: its argument, or else the word after it. -/
def Getopt.affinityWord : Getopt → Option (List Char)
  | .affinity optarg next => optarg.or next
  | _ => none

/-- The variables the option loop sets: the statics `nr_threads`, `all_cpus`, `quiet` and
`jsonfile`, and the locals `setcpu`, `interval`, `step` and `duration` of `main`. -/
structure Options where
  nrThreads : Int
  allCpus : Bool
  quiet : Bool
  jsonfile : List Char
  setcpu : Option (List Char)
  interval : BitVec 32
  step : BitVec 32
  duration : Int
deriving DecidableEq, Repr

/-- The values before the loop: the statics are zero, `setcpu` is `NULL`, `interval` is 1000,
`step` 500 and `duration` 0. -/
def Options.init (maxPath : Nat) : Options :=
  ⟨0, false, false, List.replicate maxPath '\x00', none, 1000, 500, 0⟩

/-- `strnlen(s, maxlen)`. -/
def strnlen (s : List Char) (maxlen : Nat) : Nat :=
  min (cstr s).length maxlen

/-- `strncpy(dest, src, n)`: the first `n` bytes of `dest` become those of the string `src`,
padded with NULs when it is shorter than `n`; the rest of `dest` is left as it was. -/
def strncpy (dest src : List Char) (n : Nat) : List Char :=
  (cstr src ++ List.replicate n '\x00').take n ++ dest.drop n

/-- The body of the `switch` of the option loop on what `getopt_long` returned: the variables
after it, or the exit status when it calls `usage`. The `int` `atoi` returns is converted to the
`unsigned int` of `interval` and `step`. -/
def optionStep (maxPath : Nat) (cpuCount : Int) (parseTimeString : List Char → Int)
    (o : Options) : Getopt → Except Int Options
  | .affinity optarg next =>
    let o := if o.nrThreads = 0 then { o with nrThreads := cpuCount } else o
    match optarg, next with
    | some arg, _ => .ok { o with setcpu := some arg }
    | none, some word => .ok { o with setcpu := some word }
    | none, none => .ok { o with allCpus := true }
  | .interval optarg => .ok { o with interval := BitVec.ofInt 32 (atoi optarg) }
  | .json optarg =>
    .ok { o with jsonfile := strncpy o.jsonfile optarg (strnlen optarg (maxPath - 1)) }
  | .step optarg => .ok { o with step := BitVec.ofInt 32 (atoi optarg) }
  | .threads optarg => .ok { o with nrThreads := atoi optarg }
  | .duration optarg => .ok { o with duration := parseTimeString optarg }
  | .quiet => .ok { o with quiet := true }
  | .help => .error 0
  | .other => .error 1

/-- The option loop of `main` over the options `getopt_long` returns, then
`if (!nr_threads) nr_threads = 1`. -/
def parseOptions (maxPath : Nat) (cpuCount : Int) (parseTimeString : List Char → Int)
    (opts : List Getopt) : Except Int Options :=
  (opts.foldlM (optionStep maxPath cpuCount parseTimeString) (Options.init maxPath)).map fun o ↦
    if o.nrThreads = 0 then { o with nrThreads := 1 } else o

/-- The name `jsonfile` holds after a `--json` with argument `arg`, over the name `name` it held:
the argument's characters, at most `MAX_PATH - 1` of them, over the start of `name`. -/
def overlayName (maxPath : Nat) (name arg : List Char) : List Char :=
  (cstr arg).take (maxPath - 1) ++ name.drop ((cstr arg).take (maxPath - 1)).length

/-! ### One pass of the loop -/

section

variable {maxPath : Nat} {cpuCount : Int} {parseTimeString : List Char → Int}
  {o o' : Options} {g : Getopt}

/-- A pass of the loop that does not end the program changes `jsonfile` only on `--json`. -/
theorem optionStep_jsonfile (h : optionStep maxPath cpuCount parseTimeString o g = .ok o') :
    o'.jsonfile = match g.jsonArg with
      | some arg => strncpy o.jsonfile arg (strnlen arg (maxPath - 1))
      | none => o.jsonfile := by
  cases g with
  | affinity optarg next =>
    rcases optarg with _ | arg <;> rcases next with _ | word <;>
      simp only [optionStep, Except.ok.injEq] at h <;> subst h <;> split <;> rfl
  | help | other => cases h
  | _ => cases h; rfl

/-- A pass of the loop that does not end the program sets `setcpu` to the word of an affinity
option that has one, sets `all_cpus` on an affinity option that has none, and leaves both
otherwise. -/
theorem optionStep_affinity (h : optionStep maxPath cpuCount parseTimeString o g = .ok o') :
    o'.setcpu = g.affinityWord.or o.setcpu ∧
      (o'.allCpus = true ↔ o.allCpus = true ∨ g = .affinity none none) := by
  cases g with
  | affinity optarg next =>
    rcases optarg with _ | arg <;> rcases next with _ | word <;>
      simp only [optionStep, Except.ok.injEq] at h <;> subst h <;> split <;> simp [Getopt.affinityWord]
  | help | other => cases h
  | _ => cases h; simp [Getopt.affinityWord]

end

/-! ### The name in `jsonfile` -/

theorem nul_not_mem_cstr (s : List Char) : '\x00' ∉ cstr s := fun h ↦ by
  simpa using List.mem_takeWhile_imp h

theorem cstr_append_replicate {name : List Char} (hname : '\x00' ∉ name) (k : Nat) :
    cstr (name ++ List.replicate k '\x00') = name := by
  rw [cstr, List.takeWhile_append_of_pos (fun c hc ↦ by simpa using ne_of_mem_of_not_mem hc hname)]
  cases k <;> simp

theorem length_take_cstr (arg : List Char) (maxPath : Nat) :
    ((cstr arg).take (maxPath - 1)).length = strnlen arg (maxPath - 1) := by
  simp [strnlen, Nat.min_comm]

theorem nul_not_mem_overlayName {maxPath : Nat} {name : List Char} (hname : '\x00' ∉ name)
    (arg : List Char) : '\x00' ∉ overlayName maxPath name arg := by
  rw [overlayName, List.mem_append, not_or]
  exact ⟨fun h ↦ nul_not_mem_cstr arg (List.mem_of_mem_take h),
    fun h ↦ hname (List.mem_of_mem_drop h)⟩

theorem length_overlayName (maxPath : Nat) (name arg : List Char) :
    (overlayName maxPath name arg).length = max (strnlen arg (maxPath - 1)) name.length := by
  rw [overlayName, List.length_append, List.length_drop, length_take_cstr]
  omega

/-- When `jsonfile` holds a name without NUL, shorter than `MAX_PATH`, and then NULs to the end, the
`strncpy` of `--json` leaves it holding `overlayName` of the name, and then NULs. -/
theorem strncpy_padded {maxPath : Nat} {name : List Char} (hlen : name.length < maxPath)
    (arg : List Char) :
    strncpy (name ++ List.replicate (maxPath - name.length) '\x00') arg
        (strnlen arg (maxPath - 1)) =
      overlayName maxPath name arg ++
        List.replicate (maxPath - (overlayName maxPath name arg).length) '\x00' := by
  have hcopy : (cstr arg ++ List.replicate (strnlen arg (maxPath - 1)) '\x00').take
      (strnlen arg (maxPath - 1)) = (cstr arg).take (maxPath - 1) := by
    rw [List.take_append_of_le_length (by simp [strnlen]), List.take_eq_take]
    simp [strnlen]
    omega
  have hdrop : (name ++ List.replicate (maxPath - name.length) '\x00').drop
      (strnlen arg (maxPath - 1)) = name.drop (strnlen arg (maxPath - 1)) ++
        List.replicate (maxPath - max (strnlen arg (maxPath - 1)) name.length) '\x00' := by
    rw [List.drop_append_eq_append_drop, List.drop_replicate]
    congr 2
    omega
  rw [strncpy, hcopy, hdrop, length_overlayName, overlayName, length_take_cstr, List.append_assoc]

/-- When `jsonfile` holds a name without NUL, shorter than `MAX_PATH`, and then NULs, every run of
the loop that does not end the program leaves it holding the names of the `--json` options folded
over that name by `overlayName`, and then NULs. -/
theorem foldlM_jsonfile {maxPath : Nat} {cpuCount : Int} {parseTimeString : List Char → Int} :
    ∀ (opts : List Getopt) {o o' : Options} {name : List Char}, '\x00' ∉ name →
      name.length < maxPath → o.jsonfile = name ++ List.replicate (maxPath - name.length) '\x00' →
      opts.foldlM (optionStep maxPath cpuCount parseTimeString) o = .ok o' →
      o'.jsonfile = (opts.filterMap Getopt.jsonArg).foldl (overlayName maxPath) name ++
        List.replicate
          (maxPath - ((opts.filterMap Getopt.jsonArg).foldl (overlayName maxPath) name).length)
          '\x00'
  | [], o, o', name, _, _, hbuf, h => by
    cases h
    exact hbuf
  | g :: opts, o, o', name, hname, hlen, hbuf, h => by
    rw [List.foldlM_cons] at h
    cases hstep : optionStep maxPath cpuCount parseTimeString o g with
    | error status => rw [hstep] at h; cases h
    | ok o₁ =>
      rw [hstep] at h
      have hjson := optionStep_jsonfile hstep
      cases harg : g.jsonArg with
      | none =>
        simp only [harg] at hjson
        simpa [List.filterMap_cons, harg] using
          foldlM_jsonfile opts hname hlen (hjson.trans hbuf) h
      | some arg =>
        simp only [harg, hbuf, strncpy_padded hlen] at hjson
        have hlen' : (overlayName maxPath name arg).length < maxPath := by
          rw [length_overlayName, strnlen]
          omega
        simpa [List.filterMap_cons, harg] using
          foldlM_jsonfile opts (nul_not_mem_overlayName hname arg) hlen' hjson h

theorem nul_not_mem_foldl_overlayName (maxPath : Nat) :
    ∀ (args : List (List Char)) {name : List Char}, '\x00' ∉ name →
      '\x00' ∉ args.foldl (overlayName maxPath) name
  | [], _, hname => hname
  | arg :: args, _, hname =>
    nul_not_mem_foldl_overlayName maxPath args (nul_not_mem_overlayName hname arg)

/-- The name the `--json` options leave is at most `n` long exactly when the name before them is
and each of their arguments, cut to `MAX_PATH - 1` characters, is. -/
theorem length_foldl_overlayName_le (maxPath n : Nat) :
    ∀ (args : List (List Char)) (name : List Char),
      (args.foldl (overlayName maxPath) name).length ≤ n ↔
        name.length ≤ n ∧ ∀ arg ∈ args, strnlen arg (maxPath - 1) ≤ n
  | [], name => by simp
  | arg :: args, name => by
    rw [List.foldl_cons, length_foldl_overlayName_le maxPath n args, length_overlayName,
      max_le_iff, List.forall_mem_cons]
    tauto

/-- Every run of the loop that does not end the program leaves in `setcpu` the word of the last
affinity option that has one, or the `setcpu` it started from, and sets `all_cpus` exactly when
it was set or an affinity option has no word. -/
theorem foldlM_affinity {maxPath : Nat} {cpuCount : Int} {parseTimeString : List Char → Int} :
    ∀ (opts : List Getopt) {o o' : Options},
      opts.foldlM (optionStep maxPath cpuCount parseTimeString) o = .ok o' →
      o'.setcpu = (opts.filterMap Getopt.affinityWord).getLast?.or o.setcpu ∧
        (o'.allCpus = true ↔ o.allCpus = true ∨ Getopt.affinity none none ∈ opts)
  | [], o, o', h => by
    cases h
    simp
  | g :: opts, o, o', h => by
    rw [List.foldlM_cons] at h
    cases hstep : optionStep maxPath cpuCount parseTimeString o g with
    | error status => rw [hstep] at h; cases h
    | ok o₁ =>
      rw [hstep] at h
      obtain ⟨hset, hall⟩ := optionStep_affinity hstep
      obtain ⟨hset', hall'⟩ := foldlM_affinity opts h
      refine ⟨?_, by rw [hall', hall, List.mem_cons, or_assoc, @eq_comm _ g]⟩
      rw [hset', hset, List.filterMap_cons]
      cases g.affinityWord with
      | none => rfl
      | some word =>
        rw [List.getLast?_cons]
        cases (opts.filterMap Getopt.affinityWord).getLast? <;> rfl

/-! ### The whole loop -/

section

variable {maxPath : Nat} {cpuCount : Int} {parseTimeString : List Char → Int}
  {opts : List Getopt} {o : Options}

theorem parseOptions_eq_ok :
    parseOptions maxPath cpuCount parseTimeString opts = .ok o ↔
      ∃ o', opts.foldlM (optionStep maxPath cpuCount parseTimeString) (Options.init maxPath) =
        .ok o' ∧ o = if o'.nrThreads = 0 then { o' with nrThreads := 1 } else o' := by
  rw [parseOptions]
  cases opts.foldlM (optionStep maxPath cpuCount parseTimeString) (Options.init maxPath) <;>
    simp [Except.map, eq_comm]

/-- When `MAX_PATH` is positive, every run of the option loop that does not end in `usage` leaves in
`jsonfile` the name the `--json` options make, one over the other, by `overlayName`. -/
theorem parseOptions_jsonfile (hmax : 0 < maxPath)
    (h : parseOptions maxPath cpuCount parseTimeString opts = .ok o) :
    cstr o.jsonfile = (opts.filterMap Getopt.jsonArg).foldl (overlayName maxPath) [] := by
  obtain ⟨o', hrun, rfl⟩ := parseOptions_eq_ok.mp h
  have hbuf := foldlM_jsonfile opts (List.not_mem_nil _) hmax (by simp [Options.init]) hrun
  have hfix : (if o'.nrThreads = 0 then { o' with nrThreads := 1 } else o').jsonfile =
      o'.jsonfile := by
    split <;> rfl
  rw [hfix, hbuf, cstr_append_replicate
    (nul_not_mem_foldl_overlayName maxPath _ (List.not_mem_nil _))]

/-- When `MAX_PATH` is positive and no `--json` follows the one with argument `name`, the file
`main` writes its results to is the one that `--json` names, cut to `MAX_PATH - 1` characters,
exactly when no earlier `--json` names a longer one: otherwise the end of the longest earlier name
stays after it. -/
theorem parseOptions_jsonfile_last {pre post : List Getopt} {name : List Char} (hmax : 0 < maxPath)
    (hpost : post.filterMap Getopt.jsonArg = [])
    (h : parseOptions maxPath cpuCount parseTimeString (pre ++ .json name :: post) = .ok o) :
    cstr o.jsonfile = (cstr name).take (maxPath - 1) ↔
      ∀ arg ∈ pre.filterMap Getopt.jsonArg, strnlen arg (maxPath - 1) ≤ strnlen name (maxPath - 1) := by
  rw [parseOptions_jsonfile hmax h, List.filterMap_append, List.filterMap_cons, hpost]
  simp only [Getopt.jsonArg, List.foldl_append, List.foldl_cons, List.foldl_nil]
  rw [overlayName, List.append_right_eq_self, List.drop_eq_nil_iff, length_take_cstr,
    length_foldl_overlayName_le]
  simp

/-- For every command line the option loop accepts, `setcpu` is the word of the last `-a`, `-c`
or `--affinity` that has one, and `all_cpus` is set exactly when one of them has none. When no
affinity option gives a word, the affinity handling of `main` that follows leaves `setcpu` and
`allcpu_buf` `NULL` with `nr_cpus = cpu_count` and sets `all_cpus`: the branch that would write
the last CPU into `setcpu_buf` ("Default cpu to use is the last one") never runs. -/
theorem parseOptions_affinitySetup (h : parseOptions maxPath cpuCount parseTimeString opts = .ok o)
    (fuel : Nat) :
    o.setcpu = (opts.filterMap Getopt.affinityWord).getLast? ∧
      (o.allCpus = true ↔ Getopt.affinity none none ∈ opts) ∧
      (opts.filterMap Getopt.affinityWord = [] →
        affinitySetup fuel cpuCount o.setcpu o.allCpus = some (.ok ⟨true, cpuCount, none, none⟩)) := by
  obtain ⟨o', hrun, rfl⟩ := parseOptions_eq_ok.mp h
  obtain ⟨hset, hall⟩ := foldlM_affinity opts hrun
  have hfix : (if o'.nrThreads = 0 then { o' with nrThreads := 1 } else o').setcpu = o'.setcpu ∧
      (if o'.nrThreads = 0 then { o' with nrThreads := 1 } else o').allCpus = o'.allCpus := by
    split <;> exact ⟨rfl, rfl⟩
  rw [hfix.1, hfix.2, hset, hall]
  refine ⟨by simp [Options.init], by simp [Options.init], fun hnone ↦ ?_⟩
  simp [hnone, Options.init, affinitySetup]

/-- `-q` alone, with four CPUs: no affinity option, so `main` uses all four CPUs and makes no
cpuset text. -/
theorem parseOptions_affinitySetup_quiet :
    parseOptions 16 4 (fun _ ↦ 0) [.quiet] =
        .ok ⟨1, false, true, List.replicate 16 '\x00', none, 1000, 500, 0⟩ ∧
      (⟨1, false, true, List.replicate 16 '\x00', none, 1000, 500, 0⟩ : Options).setcpu =
        ([Getopt.quiet].filterMap Getopt.affinityWord).getLast? ∧
      ((⟨1, false, true, List.replicate 16 '\x00', none, 1000, 500, 0⟩ : Options).allCpus = true ↔
        Getopt.affinity none none ∈ [Getopt.quiet]) ∧
      ([Getopt.quiet].filterMap Getopt.affinityWord = [] →
        affinitySetup 1 4 (⟨1, false, true, List.replicate 16 '\x00', none, 1000, 500, 0⟩ : Options).setcpu
          (⟨1, false, true, List.replicate 16 '\x00', none, 1000, 500, 0⟩ : Options).allCpus =
          some (.ok ⟨true, 4, none, none⟩)) :=
  have hrun : parseOptions 16 4 (fun _ ↦ 0) [.quiet] =
      .ok ⟨1, false, true, List.replicate 16 '\x00', none, 1000, 500, 0⟩ :=
    rfl
  ⟨hrun, parseOptions_affinitySetup hrun 1⟩

/-- `--json results.json --json x`, with a `MAX_PATH` of 16: the results go to `xesults.json`. -/
theorem parseOptions_jsonfile_last_overlaid :
    (cstr ("xesults.json".toList ++ List.replicate 4 '\x00') = (cstr "x".toList).take (16 - 1) ↔
      ∀ arg ∈ [Getopt.json "results.json".toList].filterMap Getopt.jsonArg,
        strnlen arg (16 - 1) ≤ strnlen "x".toList (16 - 1)) :=
  @parseOptions_jsonfile_last 16 4 (fun _ ↦ 0)
    ⟨1, false, false, "xesults.json".toList ++ List.replicate 4 '\x00', none, 1000, 500, 0⟩
    [.json "results.json".toList] [] "x".toList (by decide) rfl rfl

end

end CyclicDeadline
