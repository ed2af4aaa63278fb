import CyclicDeadline.Deadline.Schedule
import CyclicDeadline.Trace.Vsprintf

/-!
# `setup_hr_tick`: HRTICK for runtimes below 2 ms

While it fills in `sched_data`, `main` calls `setup_hr_tick` for every worker whose runtime is
below 2000 µs and ends the program with `fatal` when it returns 0; then it makes a test run of
`do_runtime` and ends the program when the run took longer than the runtime (`setupChecks`).
`setup_hr_tick` finds the scheduler's feature file (`fillSchedFeatures`), reads at most 499 of
its bytes, and looks for `HRTICK_DL`, or for `HRTICK` on kernels without it, with `strstr`: when
the name it finds has `NO_` in front, it writes the name back to turn the feature on
(`enableFeature`, `hrTickUpdate`). A static flag makes every later call return 1 at once.

`setupChecks_eq_spec` shows that the flag changes nothing: the loop ends as it would if every
worker below 2 ms ran the body of `setup_hr_tick` itself, since a first call that fails ends the
program. `setupHrTick_featuresText` shows that the byte search does what it is for. The kernel
shows its features as words, `NO_` in front of those that are off (`featuresText`). For every
such list that fits the buffer, and in which no feature but `HRTICK` and `HRTICK_DL` has
`HRTICK` in its name, `setup_hr_tick` turns `HRTICK_DL` on if the kernel has it and `HRTICK`
otherwise, writes only when that feature is off, and returns 1 unless the write fails
(`hrTickSpec`).

`MAX_PATH` comes from a header outside the program and is a parameter.
-/

set_option autoImplicit false
set_option relaxedAutoImplicit false

namespace CyclicDeadline

/-! ### The C string functions -/

/-- `strstr(hay, needle)`: the offset of the first occurrence of `needle` in the C string
`hay`. -/
def strstr : List Char → List Char → Option Nat
  | [], needle => if needle.isPrefixOf [] then some 0 else none
  | c :: hay, needle =>
    if needle.isPrefixOf (c :: hay) then some 0 else (strstr hay needle).map (· + 1)

/-- `strncmp(a, b, n) == 0` for the C strings `a` and `b`: they agree on their first `n`
characters, or both end at the same place before. -/
def strncmpEq (a b : List Char) (n : Nat) : Bool :=
  a.take n == b.take n

/-! ### `setup_hr_tick` -/

/-- `fill_sched_features(path)`: its result, and the path it leaves in `path`. With `debugfs`
mounted it tries `<debugfs>/sched/features`, then `<debugfs>/sched_features`, each printed with
`snprintf` into `MAX_PATH` bytes; when neither exists it clears `path` and returns the 0 of the
last `check_file_exists`. Without `debugfs` it returns -1, and the caller does not read `path`. -/
def fillSchedFeatures (maxPath : Nat) (debugfs : List Char) (fileExists : List Char → Bool) :
    Int × List Char :=
  if debugfs = [] then (-1, [])
  else
    let features := (debugfs ++ "/sched/features".toList).take (maxPath - 1)
    if fileExists features then (0, features)
    else
      let schedFeatures := (debugfs ++ "/sched_features".toList).take (maxPath - 1)
      if fileExists schedFeatures then (0, schedFeatures) else (0, [])

/-- What `setup_hr_tick` finds on the system: the mount point `find_debugfs` returns (empty
without `debugfs`), the paths `stat` finds, the paths `open(path, O_RDWR)` opens, the bytes the
`read` of the feature file returns (`none` for an error), and what `write` returns for a text. -/
structure HrTickEnv where
  debugfs : List Char
  fileExists : List Char → Bool
  opens : List Char → Bool
  read : Option (List Char)
  writeRet : List Char → Int

/-- One of the two blocks of `setup_hr_tick`, for the feature `name`: `p = strstr(buf, name)`.
When `p` is found at least three bytes into `buf` the block applies, and when `p - 3` starts
`NO_name` it writes `name` and sets `ret` by whether the whole name was written. `none` when the
block does not apply. -/
def enableFeature (buf name : List Char) (writeRet : List Char → Int) :
    Option (Int × Option (List Char)) :=
  match strstr buf name with
  | some p =>
    if 3 ≤ p then
      if strncmpEq (buf.drop (p - 3)) ("NO_".toList ++ name) (name.length + 3) then
        some (if writeRet name = name.length then 1 else 0, some name)
      else some (1, none)
    else none
  | none => none

/-- `setup_hr_tick` after the `read`, on the C string `buf`: the `HRTICK_DL` block, then the
`HRTICK` block when the first does not apply (`!hrtick_dl`). `ret`, and the text written. -/
def hrTickUpdate (buf : List Char) (writeRet : List Char → Int) : Int × Option (List Char) :=
  match enableFeature buf "HRTICK_DL".toList writeRet with
  | some result => result
  | none => (enableFeature buf "HRTICK".toList writeRet).getD (1, none)

/-- `setup_hr_tick()` with its static flag `set`: what it returns, and the text it writes into
the feature file. What `read(fd, buf, 500)` returns is cut to 499 bytes and ended with a NUL. -/
def setupHrTick (maxPath : Nat) (env : HrTickEnv) (set : Bool) : Int × Option (List Char) :=
  if set then (1, none)
  else
    let filled := fillSchedFeatures maxPath env.debugfs env.fileExists
    if filled.1 ≠ 0 then (0, none)
    else if !env.opens filled.2 then (0, none)
    else
      match env.read with
      | none => (0, none)
      | some bytes => hrTickUpdate (cstr (bytes.take 499)) env.writeRet

/-! ### The setup loop -/

/-- The message of `fatal` when `setup_hr_tick` returns 0. -/
def hrTickNeeded : List Char :=
  "For less than 2ms run times, you need to\nhave HRTICK enabled in debugfs/sched_features\n".toList

/-- The message of `fatal` when a test run takes `missed` µs longer than the runtime, which
`%lld` prints as a signed number. -/
def missedRuntime (missed : BitVec 64) : List Char :=
  "Failed to perform task within runtime: Missed by ".toList ++ formatInt missed.toInt ++
    " us\n".toList

/-- The checks of `main`'s setup loop from worker `i` on, with `setup_hr_tick`'s flag `set`: for a
runtime below 2000 µs `setup_hr_tick` must not return 0, and the test run, which took `elapsed i`
µs (`end_period - start_period`), must take no longer than the runtime. The message `fatal` ends
the program with, if any. -/
def setupChecks (maxPath : Nat) (env : HrTickEnv) (elapsed : Nat → BitVec 64) :
    Bool → Nat → List SchedParams → Option (List Char)
  | _, _, [] => none
  | set, i, params :: rest =>
    if params.runtimeUs < 2000 ∧ (setupHrTick maxPath env set).1 = 0 then some hrTickNeeded
    else if elapsed i > params.runtimeUs then some (missedRuntime (elapsed i - params.runtimeUs))
    else setupChecks maxPath env elapsed (set || decide (params.runtimeUs < 2000)) (i + 1) rest

/-- The same checks without the flag: every worker below 2000 µs gets `ret`, the result of the
body of `setup_hr_tick`. -/
def setupChecksSpec (ret : Int) (elapsed : Nat → BitVec 64) :
    Nat → List SchedParams → Option (List Char)
  | _, [] => none
  | i, params :: rest =>
    if params.runtimeUs < 2000 ∧ ret = 0 then some hrTickNeeded
    else if elapsed i > params.runtimeUs then some (missedRuntime (elapsed i - params.runtimeUs))
    else setupChecksSpec ret elapsed (i + 1) rest

/-! ### What `setup_hr_tick` is for -/

/-- A feature as the kernel shows it in `sched_features`: its name, `NO_` in front when it is
off. -/
def featureWord (name : List Char) (enabled : Bool) : List Char :=
  (if enabled then [] else "NO_".toList) ++ name

/-- The words of a feature list, each followed by a blank. -/
def featureWords : List (List Char × Bool) → List Char
  | [] => []
  | (name, enabled) :: features => featureWord name enabled ++ ' ' :: featureWords features

/-- The text of `sched_features` for a list of features and whether each is on. -/
def featuresText (features : List (List Char × Bool)) : List Char :=
  featureWords features ++ ['\n']

/-- Turning the feature `name` on: nothing to do when it is on; otherwise write `name`, with 1
exactly when the whole name is written. -/
def turnOn (name : List Char) (enabled : Bool) (writeRet : List Char → Int) :
    Int × Option (List Char) :=
  if enabled then (1, none) else (if writeRet name = name.length then 1 else 0, some name)

/-- What `setup_hr_tick` does with the kernel's features: turn `HRTICK_DL` on if the kernel has
it, and `HRTICK` otherwise. -/
def hrTickSpec (features : List (List Char × Bool)) (writeRet : List Char → Int) :
    Int × Option (List Char) :=
  match features.lookup "HRTICK_DL".toList with
  | some enabled => turnOn "HRTICK_DL".toList enabled writeRet
  | none =>
    match features.lookup "HRTICK".toList with
    | some enabled => turnOn "HRTICK".toList enabled writeRet
    | none => (1, none)

/-- A kernel with both features off: `HRTICK_DL` is written. -/
example :
    hrTickSpec [("HRTICK".toList, false), ("HRTICK_DL".toList, false)] (fun _ ↦ 9) =
      (1, some "HRTICK_DL".toList) := by
  decide

/-! ### Searching C strings -/

/-- When `needle` has no blank, `a`, a blank and `b` start with `needle` exactly when `a` does: it
cannot reach over the blank. -/
theorem isPrefixOf_append_blank : ∀ {needle : List Char}, ' ' ∉ needle →
    ∀ a b : List Char, needle.isPrefixOf (a ++ ' ' :: b) = needle.isPrefixOf a
  | [], _, _, _ => by simp [List.isPrefixOf]
  | x :: needle, hblank, [], b => by
    have hx : x ≠ ' ' := fun h ↦ hblank (h ▸ List.mem_cons_self _ _)
    simp [List.isPrefixOf, hx]
  | x :: needle, hblank, c :: a, b => by
    simp only [List.cons_append, List.isPrefixOf, List.append_eq,
      isPrefixOf_append_blank (fun h ↦ hblank (List.mem_cons_of_mem _ h)) a b]

theorem strstr_of_isPrefixOf {hay needle : List Char} (h : needle.isPrefixOf hay) :
    strstr hay needle = some 0 := by
  cases hay <;> simp [strstr, h]

/-- When `needle` is no infix of `hay`, `strstr` finds nothing. -/
theorem strstr_eq_none {needle : List Char} :
    ∀ {hay : List Char}, ¬ needle <:+: hay → strstr hay needle = none
  | [], h => by
    have hp : ¬ needle.isPrefixOf [] := fun hp ↦ h (List.isPrefixOf_iff_prefix.mp hp).isInfix
    simp [strstr, hp]
  | c :: hay, h => by
    have hp : ¬ needle.isPrefixOf (c :: hay) :=
      fun hp ↦ h (List.isPrefixOf_iff_prefix.mp hp).isInfix
    simp [strstr, hp, strstr_eq_none fun hi ↦ h (List.infix_cons hi)]

theorem strstr_cons_of_ne {c x : Char} (hne : c ≠ x) (hay rest : List Char) :
    strstr (c :: hay) (x :: rest) = (strstr hay (x :: rest)).map (· + 1) := by
  simp [strstr, List.isPrefixOf, Ne.symm hne]

/-- When `needle` is not empty and has no blank, an occurrence in `a`, a blank and `b` lies in `a`
or in `b`. -/
theorem strstr_append_blank {needle : List Char} (hne : needle ≠ []) (hblank : ' ' ∉ needle)
    (b : List Char) : ∀ a : List Char,
      strstr (a ++ ' ' :: b) needle =
        (strstr a needle).or ((strstr b needle).map (· + (a.length + 1)))
  | [] => by
    obtain ⟨x, rest, rfl⟩ := List.exists_cons_of_ne_nil hne
    have hx : x ≠ ' ' := fun h ↦ hblank (h ▸ List.mem_cons_self _ _)
    rw [List.nil_append, strstr_cons_of_ne (Ne.symm hx)]
    simp [strstr, List.isPrefixOf]
  | c :: a => by
    have hprefix := isPrefixOf_append_blank hblank (c :: a) b
    rw [List.cons_append] at hprefix ⊢
    simp only [strstr, hprefix, strstr_append_blank hne hblank b a]
    split_ifs
    · rfl
    · cases strstr a needle <;> simp [Option.map_map, Function.comp_def, Nat.add_assoc]

/-- When `short` is a prefix of `needle`, wherever `strstr` finds `needle` it finds `short` there or
earlier. -/
theorem strstr_prefix_le {short needle : List Char} (hshort : short <+: needle) :
    ∀ {hay : List Char} {p : Nat}, strstr hay needle = some p →
      ∃ q ≤ p, strstr hay short = some q
  | [], p, h => by
    simp only [strstr] at h
    split_ifs at h with hn
    cases h
    have hs : short.isPrefixOf [] :=
      List.isPrefixOf_iff_prefix.mpr (hshort.trans (List.isPrefixOf_iff_prefix.mp hn))
    exact ⟨0, le_rfl, strstr_of_isPrefixOf hs⟩
  | c :: hay, p, h => by
    by_cases hs : short.isPrefixOf (c :: hay)
    · exact ⟨0, Nat.zero_le _, strstr_of_isPrefixOf hs⟩
    have hn : ¬ needle.isPrefixOf (c :: hay) := fun hn ↦
      hs (List.isPrefixOf_iff_prefix.mpr (hshort.trans (List.isPrefixOf_iff_prefix.mp hn)))
    simp only [strstr, hn] at h
    obtain ⟨p', hp', rfl⟩ := Option.map_eq_some'.mp h
    obtain ⟨q, hq, hfound⟩ := strstr_prefix_le hshort hp'
    exact ⟨q + 1, by omega, by simp [strstr, hs, hfound]⟩

/-- When `i < n` and `a` and `b` differ at `i`, `strncmp(a, b, n)` is not 0. -/
theorem strncmpEq_eq_false {a b : List Char} {n i : Nat} (hi : i < n) (hne : a[i]? ≠ b[i]?) :
    strncmpEq a b n = false := by
  simp only [strncmpEq, beq_eq_false_iff_ne]
  intro h
  apply hne
  simpa [List.getElem?_take, hi] using congrArg (·[i]?) h

/-! ### The feature text -/

theorem featureWords_append (pre post : List (List Char × Bool)) :
    featureWords (pre ++ post) = featureWords pre ++ featureWords post := by
  induction pre with
  | nil => rfl
  | cons feature pre ih =>
    obtain ⟨name, enabled⟩ := feature
    simp [featureWords, ih]

/-- The words of at least one feature end with a blank. -/
theorem featureWords_eq_append_blank :
    ∀ {features : List (List Char × Bool)}, features ≠ [] →
      ∃ front, featureWords features = front ++ [' ']
  | [], h => absurd rfl h
  | [(name, enabled)], _ => ⟨featureWord name enabled, by simp [featureWords]⟩
  | (name, enabled) :: feature :: features, _ => by
    obtain ⟨front, hfront⟩ := featureWords_eq_append_blank (List.cons_ne_nil feature features)
    exact ⟨featureWord name enabled ++ ' ' :: front, by rw [featureWords, hfront]; simp⟩

theorem featuresText_entry (pre post : List (List Char × Bool)) (name : List Char)
    (enabled : Bool) :
    featuresText (pre ++ (name, enabled) :: post) =
      featureWords pre ++ (featureWord name enabled ++ ' ' :: featuresText post) := by
  simp [featuresText, featureWords_append, featureWords]

/-- When no name has a NUL, the text has no NUL. -/
theorem nul_not_mem_featuresText :
    ∀ {features : List (List Char × Bool)}, (∀ feature ∈ features, '\x00' ∉ feature.1) →
      '\x00' ∉ featuresText features
  | [], _ => by decide
  | (name, enabled) :: features, hnul => by
    have hname := hnul _ (List.mem_cons_self _ _)
    have hrest := nul_not_mem_featuresText fun feature hfeature ↦
      hnul feature (List.mem_cons_of_mem _ hfeature)
    simp only [featuresText, featureWords, featureWord, List.append_assoc, List.cons_append,
      List.mem_append, List.mem_cons] at hrest ⊢
    cases enabled <;> simp_all

theorem enableFeature_of_found {buf name : List Char} {writeRet : List Char → Int} {p : Nat}
    (h : strstr buf name = some p) (hp : 3 ≤ p) :
    enableFeature buf name writeRet =
      if strncmpEq (buf.drop (p - 3)) ("NO_".toList ++ name) (name.length + 3) then
        some (if writeRet name = name.length then 1 else 0, some name)
      else some (1, none) := by
  simp only [enableFeature, h, if_pos hp]

theorem enableFeature_of_none {buf name : List Char} (writeRet : List Char → Int)
    (h : strstr buf name = none) : enableFeature buf name writeRet = none := by
  simp [enableFeature, h]

theorem enableFeature_of_lt {buf name : List Char} (writeRet : List Char → Int) {p : Nat}
    (h : strstr buf name = some p) (hp : p < 3) : enableFeature buf name writeRet = none := by
  simp [enableFeature, h, Nat.not_le.mpr hp]

section Search

variable {needle : List Char} (hhead : needle.head? = some 'H') (hblank : ' ' ∉ needle)
include hhead

theorem ne_nil_of_head : needle ≠ [] := by
  rintro rfl
  cases hhead

/-- When `needle` starts with `H`, in the word of a feature `strstr` finds `needle` where it finds
it in the name, three bytes later behind `NO_`. -/
theorem strstr_featureWord (name : List Char) (enabled : Bool) :
    strstr (featureWord name enabled) needle =
      (strstr name needle).map (· + if enabled then 0 else 3) := by
  obtain ⟨x, rest, rfl⟩ := List.exists_cons_of_ne_nil (ne_nil_of_head hhead)
  cases hhead
  cases enabled
  · rw [featureWord, if_neg (by decide), show "NO_".toList ++ name = 'N' :: 'O' :: '_' :: name from
      rfl, strstr_cons_of_ne (by decide), strstr_cons_of_ne (by decide),
      strstr_cons_of_ne (by decide)]
    simp [Option.map_map, Function.comp_def, Nat.add_assoc]
  · simp [featureWord]

include hblank

/-- When `needle` starts with `H` and has no blank, and no feature of `pre` has it in its name,
`strstr` finds `needle` past the words of `pre` where it finds it in what follows. -/
theorem strstr_featureWords_append (rest : List Char) :
    ∀ {pre : List (List Char × Bool)}, (∀ feature ∈ pre, ¬ needle <:+: feature.1) →
      strstr (featureWords pre ++ rest) needle =
        (strstr rest needle).map (· + (featureWords pre).length)
  | [], _ => by simp [featureWords]
  | (name, enabled) :: pre, hpre => by
    rw [featureWords, List.append_assoc, List.cons_append,
      strstr_append_blank (ne_nil_of_head hhead) hblank, strstr_featureWord hhead,
      strstr_eq_none (hpre _ (List.mem_cons_self _ _)),
      strstr_featureWords_append rest fun feature hfeature ↦
        hpre feature (List.mem_cons_of_mem _ hfeature)]
    cases strstr rest needle <;> simp
    omega

/-- When `needle` starts with `H` and has no blank, and no feature has it in its name, `strstr` does
not find it in the feature text. -/
theorem strstr_featuresText_none {features : List (List Char × Bool)}
    (hfree : ∀ feature ∈ features, ¬ needle <:+: feature.1) :
    strstr (featuresText features) needle = none := by
  rw [featuresText, strstr_featureWords_append hhead hblank _ hfree]
  obtain ⟨x, rest, rfl⟩ := List.exists_cons_of_ne_nil (ne_nil_of_head hhead)
  cases hhead
  rw [strstr_cons_of_ne (by decide)]
  simp [strstr, List.isPrefixOf]

/-- When `needle` starts with `H` and has no blank, and no feature of `pre` has it in its name,
`strstr` finds the name in the words of `pre` and then the word of the feature `needle`: right after
the words of `pre` when it is on, three bytes later when it is off. -/
theorem strstr_entry (enabled : Bool) (rest : List Char) {pre : List (List Char × Bool)}
    (hpre : ∀ feature ∈ pre, ¬ needle <:+: feature.1) :
    strstr (featureWords pre ++ (featureWord needle enabled ++ ' ' :: rest)) needle =
      some ((featureWords pre).length + if enabled then 0 else 3) := by
  rw [strstr_featureWords_append hhead hblank _ hpre,
    strstr_append_blank (ne_nil_of_head hhead) hblank, strstr_featureWord hhead,
    strstr_of_isPrefixOf (List.isPrefixOf_iff_prefix.mpr (List.prefix_refl _))]
  simp [Nat.add_comm]

/-- When `needle` starts with `H` and has no blank, and no feature of `pre` has it in its name, the
block of `setup_hr_tick` for `needle` turns the feature on, except when it is on and its word starts
within the first three bytes, where the block does not apply. -/
theorem enableFeature_entry (enabled : Bool) (writeRet : List Char → Int) (rest : List Char)
    {pre : List (List Char × Bool)} (hpre : ∀ feature ∈ pre, ¬ needle <:+: feature.1) :
    enableFeature (featureWords pre ++ (featureWord needle enabled ++ ' ' :: rest)) needle
        writeRet =
      if enabled ∧ (featureWords pre).length < 3 then none
      else some (turnOn needle enabled writeRet) := by
  have hfound := strstr_entry hhead hblank enabled rest hpre
  cases enabled with
  | false =>
    -- off: `NO_` stands right before the name
    rw [if_neg (by decide)] at hfound
    have hlen : ("NO_".toList ++ needle).length = needle.length + 3 := by simp
    have hcmp : strncmpEq ((featureWords pre ++ (featureWord needle false ++ ' ' :: rest)).drop
        (featureWords pre).length) ("NO_".toList ++ needle) (needle.length + 3) := by
      rw [List.drop_left, show featureWord needle false = "NO_".toList ++ needle from rfl,
        strncmpEq, List.take_left' hlen, List.take_of_length_le hlen.le]
      exact beq_self_eq_true _
    rw [enableFeature_of_found hfound (by omega), Nat.add_sub_cancel, if_pos hcmp]
    simp [turnOn]
  | true =>
    rw [if_pos rfl, Nat.add_zero] at hfound
    by_cases hlt : (featureWords pre).length < 3
    · rw [enableFeature_of_lt writeRet hfound hlt, if_pos ⟨rfl, hlt⟩]
    -- on, further in: a blank stands right before the name, where `NO_` has its `_`
    have hpreNe : pre ≠ [] := by rintro rfl; simp [featureWords] at hlt
    obtain ⟨front, hfront⟩ := featureWords_eq_append_blank hpreNe
    have hlen : (featureWords pre).length = front.length + 1 := by simp [hfront]
    have hbuf : featureWords pre ++ (featureWord needle true ++ ' ' :: rest) =
        front ++ ' ' :: (needle ++ ' ' :: rest) := by
      simp [hfront, featureWord]
    have hcmp : strncmpEq ((featureWords pre ++ (featureWord needle true ++ ' ' :: rest)).drop
        ((featureWords pre).length - 3)) ("NO_".toList ++ needle) (needle.length + 3) = false := by
      refine strncmpEq_eq_false (i := 2) (by omega) ?_
      rw [List.getElem?_drop, hbuf, show (featureWords pre).length - 3 + 2 = front.length by omega,
        List.getElem?_append_right le_rfl, Nat.sub_self]
      simp
    rw [enableFeature_of_found hfound (by omega), if_neg (Bool.eq_false_iff.mp hcmp),
      if_neg fun h ↦ hlt h.2]
    rfl

end Search

/-! ### Looking a feature up -/

/-- When the list has the feature `name`, `enabled` at its first entry, the list splits at that
entry, with no entry of that name before it. -/
theorem lookup_eq_some {name : List Char} {enabled : Bool} :
    ∀ {features : List (List Char × Bool)}, features.lookup name = some enabled →
      ∃ pre post, features = pre ++ (name, enabled) :: post ∧
        ∀ feature ∈ pre, feature.1 ≠ name
  | [], h => by cases h
  | (key, value) :: features, h => by
    by_cases hkey : name = key
    · subst hkey
      simp only [List.lookup_cons, beq_self_eq_true, Option.some.injEq] at h
      exact ⟨[], features, by rw [h]; rfl, by simp⟩
    · simp only [List.lookup_cons, (beq_eq_false_iff_ne).mpr hkey] at h
      obtain ⟨pre, post, rfl, hpre⟩ := lookup_eq_some h
      exact ⟨(key, value) :: pre, post, rfl, by simpa [Ne.symm hkey] using hpre⟩

/-- When the list does not have the feature `name`, no entry has that name. -/
theorem lookup_eq_none {name : List Char} :
    ∀ {features : List (List Char × Bool)}, features.lookup name = none →
      ∀ feature ∈ features, feature.1 ≠ name
  | [], _ => by simp
  | (key, value) :: features, h => by
    by_cases hkey : name = key
    · subst hkey
      simp [List.lookup_cons] at h
    · simp only [List.lookup_cons, (beq_eq_false_iff_ne).mpr hkey] at h
      simpa [Ne.symm hkey] using lookup_eq_none h

/-! ### The search does what it is for -/

/-- When no feature but `HRTICK` and `HRTICK_DL` has `HRTICK` in its name, on the feature text the
two blocks of `setup_hr_tick` turn `HRTICK_DL` on if the kernel has it and `HRTICK` otherwise. -/
theorem hrTickUpdate_featuresText (features : List (List Char × Bool))
    (writeRet : List Char → Int)
    (hfree : ∀ feature ∈ features, feature.1 ≠ "HRTICK".toList →
      feature.1 ≠ "HRTICK_DL".toList → ¬ "HRTICK".toList <:+: feature.1) :
    hrTickUpdate (featuresText features) writeRet = hrTickSpec features writeRet := by
  have hdlHead : ("HRTICK_DL".toList).head? = some 'H' := rfl
  have hdlBlank : ' ' ∉ "HRTICK_DL".toList := by decide
  have hHead : ("HRTICK".toList).head? = some 'H' := rfl
  have hBlank : ' ' ∉ "HRTICK".toList := by decide
  -- only the `HRTICK_DL` entry has `HRTICK_DL` in its name
  have hdl : ∀ feature ∈ features, feature.1 ≠ "HRTICK_DL".toList →
      ¬ "HRTICK_DL".toList <:+: feature.1 := fun feature hfeature hne hinfix ↦ by
    by_cases hshort : feature.1 = "HRTICK".toList
    · rw [hshort] at hinfix
      exact absurd hinfix (by decide)
    · exact hfree feature hfeature hshort hne
        ((by decide : "HRTICK".toList <:+: "HRTICK_DL".toList).trans hinfix)
  unfold hrTickUpdate hrTickSpec
  cases hlookup : features.lookup "HRTICK_DL".toList with
  | some enabled =>
    obtain ⟨pre, post, rfl, hpre⟩ := lookup_eq_some hlookup
    have hpreFree : ∀ feature ∈ pre, ¬ "HRTICK_DL".toList <:+: feature.1 :=
      fun feature hfeature ↦ hdl feature (List.mem_append_left _ hfeature) (hpre feature hfeature)
    rw [featuresText_entry, enableFeature_entry hdlHead hdlBlank enabled writeRet _ hpreFree]
    split_ifs with hnear
    · -- on, within the first three bytes: the search for `HRTICK` stops there or earlier
      have hfound := strstr_entry hdlHead hdlBlank enabled (featuresText post) hpreFree
      obtain ⟨q, hq, hshortFound⟩ :=
        strstr_prefix_le (by decide : "HRTICK".toList <+: "HRTICK_DL".toList) hfound
      rw [if_pos hnear.1, Nat.add_zero] at hq
      rw [enableFeature_of_lt writeRet hshortFound (by omega)]
      simp [turnOn, hnear.1]
    · rfl
  | none =>
    have hnone := lookup_eq_none hlookup
    rw [enableFeature_of_none writeRet (strstr_featuresText_none hdlHead hdlBlank
      fun feature hfeature ↦ hdl feature hfeature (hnone feature hfeature))]
    cases hshortLookup : features.lookup "HRTICK".toList with
    | some enabled =>
      obtain ⟨pre, post, rfl, hpre⟩ := lookup_eq_some hshortLookup
      have hpreFree : ∀ feature ∈ pre, ¬ "HRTICK".toList <:+: feature.1 :=
        fun feature hfeature ↦ hfree feature (List.mem_append_left _ hfeature)
          (hpre feature hfeature) (hnone feature (List.mem_append_left _ hfeature))
      rw [featuresText_entry, enableFeature_entry hHead hBlank enabled writeRet _ hpreFree]
      split_ifs with hnear
      · simp [turnOn, hnear.1]
      · rfl
    | none =>
      rw [enableFeature_of_none writeRet (strstr_featuresText_none hHead hBlank
        fun feature hfeature ↦
          hfree feature hfeature (lookup_eq_none hshortLookup feature hfeature)
          (hnone feature hfeature))]
      rfl

/-- When the feature file is found and opens, and the `read` gives the kernel's feature text, which
fits the buffer, has no NUL, and has `HRTICK` in no name but `HRTICK` and `HRTICK_DL`, the first
call of `setup_hr_tick` turns `HRTICK_DL` on if the kernel has it and `HRTICK` otherwise, writing
only when that feature is off, and returns 1 unless the write fails. -/
theorem setupHrTick_featuresText (maxPath : Nat) (env : HrTickEnv)
    (features : List (List Char × Bool))
    (hfill : (fillSchedFeatures maxPath env.debugfs env.fileExists).1 = 0)
    (hopen : env.opens (fillSchedFeatures maxPath env.debugfs env.fileExists).2 = true)
    (hread : env.read = some (featuresText features))
    (hfit : (featuresText features).length ≤ 499)
    (hnul : ∀ feature ∈ features, '\x00' ∉ feature.1)
    (hfree : ∀ feature ∈ features, feature.1 ≠ "HRTICK".toList →
      feature.1 ≠ "HRTICK_DL".toList → ¬ "HRTICK".toList <:+: feature.1) :
    setupHrTick maxPath env false = hrTickSpec features env.writeRet := by
  have hbuf : cstr ((featuresText features).take 499) = featuresText features := by
    rw [List.take_of_length_le hfit, cstr, List.takeWhile_eq_self_iff]
    intro c hc
    have hc' : c ≠ '\x00' := fun h ↦ nul_not_mem_featuresText hnul (h ▸ hc)
    simpa using hc'
  simp [setupHrTick, hfill, hopen, hread, hbuf,
    hrTickUpdate_featuresText features env.writeRet hfree]

/-- A kernel with `HRTICK` and `HRTICK_DL` both off, its features under `/sys/kernel/debug`:
`HRTICK_DL` is written. -/
theorem setupHrTick_featuresText_both_off :
    (fillSchedFeatures 256 "/sys/kernel/debug".toList fun _ ↦ true).1 = 0 ∧
      (featuresText [("HRTICK".toList, false), ("HRTICK_DL".toList, false)]).length ≤ 499 ∧
      (∀ feature ∈ [("HRTICK".toList, false), ("HRTICK_DL".toList, false)],
        '\x00' ∉ feature.1) ∧
      setupHrTick 256 ⟨"/sys/kernel/debug".toList, fun _ ↦ true, fun _ ↦ true,
          some (featuresText [("HRTICK".toList, false), ("HRTICK_DL".toList, false)]),
          fun _ ↦ 9⟩ false =
        hrTickSpec [("HRTICK".toList, false), ("HRTICK_DL".toList, false)] fun _ ↦ 9 :=
  ⟨by decide, by decide, by decide,
    setupHrTick_featuresText 256 _ _ (by decide) rfl rfl (by decide) (by decide) (by decide)⟩

/-! ### The static flag -/

theorem enableFeature_ret {buf name : List Char} {writeRet : List Char → Int}
    {result : Int × Option (List Char)} (h : enableFeature buf name writeRet = some result) :
    result.1 = 0 ∨ result.1 = 1 := by
  unfold enableFeature at h
  split at h
  · split_ifs at h <;> cases h <;> simp
  · cases h

theorem setupHrTick_ret (maxPath : Nat) (env : HrTickEnv) (set : Bool) :
    (setupHrTick maxPath env set).1 = 0 ∨ (setupHrTick maxPath env set).1 = 1 := by
  have hupdate : ∀ buf, (hrTickUpdate buf env.writeRet).1 = 0 ∨
      (hrTickUpdate buf env.writeRet).1 = 1 := fun buf ↦ by
    unfold hrTickUpdate
    split
    · exact enableFeature_ret (by assumption)
    · cases henable : enableFeature buf "HRTICK".toList env.writeRet with
      | none => simp
      | some result => simpa using enableFeature_ret henable
  unfold setupHrTick
  split
  · simp
  dsimp only
  split
  · simp
  split
  · simp
  split
  · simp
  · exact hupdate _

/-- The static flag of `setup_hr_tick` changes nothing: from any worker and either value of the
flag, the setup loop ends as the checks where every worker below 2000 µs gets the result of the
body of `setup_hr_tick`, and 1 once the flag is set. -/
theorem setupChecks_eq_spec (maxPath : Nat) (env : HrTickEnv) (elapsed : Nat → BitVec 64) :
    ∀ (set : Bool) (i : Nat) (sched : List SchedParams),
      setupChecks maxPath env elapsed set i sched =
        setupChecksSpec (if set then 1 else (setupHrTick maxPath env false).1) elapsed i sched
  | _, _, [] => rfl
  | true, i, params :: rest => by
    simp only [setupChecks, setupChecksSpec, Bool.true_or, if_true,
      show (setupHrTick maxPath env true).1 = 1 from rfl,
      setupChecks_eq_spec maxPath env elapsed true (i + 1) rest]
  | false, i, params :: rest => by
    simp only [setupChecks, setupChecksSpec, Bool.false_or, Bool.false_eq_true, if_false,
      decide_eq_true_eq, setupChecks_eq_spec maxPath env elapsed _ (i + 1) rest]
    -- the flag is set after this worker exactly when it called `setup_hr_tick` and passed
    by_cases hsmall : params.runtimeUs < 2000
    · rcases setupHrTick_ret maxPath env false with hret | hret
      · simp only [hsmall, hret, and_self, if_true]
      · simp only [hsmall, hret, true_and, one_ne_zero, if_true, if_false]
    · simp only [hsmall, false_and, if_false]

end CyclicDeadline
