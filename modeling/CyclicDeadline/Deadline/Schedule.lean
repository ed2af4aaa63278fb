import CyclicDeadline.Arith.Signed
import CyclicDeadline.CpuList.Affinity
import Mathlib.Data.BitVec
import Mathlib.Algebra.Order.Field.Rat
import Mathlib.Algebra.Order.Field.Basic
import Mathlib.Algebra.Order.BigOperators.Group.List
import Mathlib.Tactic.Linarith
import Mathlib.Tactic.Positivity

/-!
# The schedule `main` gives the workers

Before it starts the threads, `main` fixes each worker's `runtime_us` and `deadline_us`. The
duty `percent` is 60, or `nr_cpus * 80 / nr_threads` in `int` when there are more threads than
CPUs (`schedulePercent`). The loop then gives worker `i` the deadline `interval` and the runtime
`interval * percent / 100`, computed in `unsigned int`, and adds `step` to `interval`, again in
`unsigned int` (`scheduleLoop`). `schedule` is the whole computation for `nr_threads` workers.

`schedule_within_utilization` is the bound the schedule keeps: whenever `nr_cpus * 80` fits in
an `int` or is not computed (no more threads than CPUs, where `percent` is 60), every worker gets `runtime_us * 100 ≤ deadline_us * percent`, so never more runtime than
deadline, and the runtimes add up to at most 80% of `nr_cpus` CPUs. The wraparound of
`interval * percent` and of `interval += step` only lowers runtimes or moves deadlines, so the
bound holds for every interval and step. `schedulePercent_overflows` is the first CPU count past
that: with 26843546 CPUs and one more thread, `nr_cpus * 80` leaves `int` and the schedule is
undefined. `schedule_of_affinitySetup` joins the bound to the affinity handling of `main`:
whatever the `-a` option, once `main` is past it `nr_cpus` is at most `cpu_count`, so the
schedule is defined and within 80% of `nr_cpus` CPUs on every machine with `cpu_count * 80` an
`int`.

The checks the loop makes on each worker (HRTICK for runtimes below 2 ms, and a test run of
`do_runtime` against the runtime) can end the program with `fatal`; they change no value the
loop assigns, and are modelled over the finished schedule in `Deadline.HrTick`.
-/

set_option autoImplicit false
set_option relaxedAutoImplicit false

namespace CyclicDeadline

/-- `percent`: 60, and `nr_cpus * 80 / nr_threads` when there are more threads than CPUs; `none`
where the `int` arithmetic is undefined. -/
def schedulePercent (nrCpus nrThreads : Int) : Option Int :=
  if nrThreads > nrCpus then
    (signedResult intBits (nrCpus * 80)).bind fun product ↦ signedDiv intBits product nrThreads
  else some 60

/-- What the setup loop stores in one worker's `sched_data`. -/
structure SchedParams where
  runtimeUs : BitVec 64
  deadlineUs : BitVec 64
deriving DecidableEq, Repr

/-- `runtime = interval * percent / 100`: `percent` is converted to `unsigned int`, the product
and the quotient are `unsigned int`, and the result is widened to the `u64` `runtime`. -/
def workerRuntime (interval : BitVec 32) (percent : Int) : BitVec 64 :=
  ((interval * BitVec.ofInt 32 percent) / 100).setWidth 64

/-- The setup loop from `interval` for `count` more workers: `sd->runtime_us = runtime`,
`sd->deadline_us = interval`, then `interval += step`. -/
def scheduleLoop (percent : Int) (step : BitVec 32) : Nat → BitVec 32 → List SchedParams
  | 0, _ => []
  | count + 1, interval =>
    ⟨workerRuntime interval percent, interval.setWidth 64⟩ ::
      scheduleLoop percent step count (interval + step)

/-- The `sched_data` of the workers, for the options `-i interval`, `-s step` and
`-t nr_threads` and `nr_cpus` CPUs; `none` when computing `percent` is undefined. -/
def schedule (interval step : BitVec 32) (nrThreads nrCpus : Int) : Option (List SchedParams) :=
  (schedulePercent nrCpus nrThreads).map fun percent ↦
    scheduleLoop percent step nrThreads.toNat interval

/-- The share of a CPU a worker asks for, `runtime_us / deadline_us`. -/
def SchedParams.utilization (params : SchedParams) : ℚ :=
  (params.runtimeUs.toNat : ℚ) / params.deadlineUs.toNat

/-- The total utilization the workers request: the sum of `runtime_us / deadline_us` over the
workers with a nonzero deadline. -/
def totalUtilization (sched : List SchedParams) : ℚ :=
  ((sched.filter fun params ↦ params.deadlineUs ≠ 0).map SchedParams.utilization).sum

/-! ### The duty percentage -/

/-- With at least one thread and no negative CPU count, and with `nr_cpus * 80` an `int` whenever
there are more threads than CPUs (the only case that computes it), `percent` is defined, at most
100, and `nr_threads` workers at `percent` ask for at most 80% of `nr_cpus`. -/
theorem schedulePercent_spec {nrCpus nrThreads : Int} (hthreads : 1 ≤ nrThreads)
    (hcpus : 0 ≤ nrCpus) (hfit : nrCpus < nrThreads → nrCpus * 80 < 2 ^ 31) :
    ∃ percent, schedulePercent nrCpus nrThreads = some percent ∧ 0 ≤ percent ∧ percent ≤ 100 ∧
      nrThreads * percent ≤ 80 * nrCpus := by
  unfold schedulePercent
  split_ifs with hmore
  · have hbound := hfit hmore
    have hquot : (nrCpus * 80).tdiv nrThreads = nrCpus * 80 / nrThreads :=
      Int.tdiv_eq_ediv (by omega) (by omega)
    have hle : nrThreads * (nrCpus * 80 / nrThreads) ≤ nrCpus * 80 := Int.mul_ediv_self_le (by omega)
    have hlt : nrCpus * 80 / nrThreads < 80 :=
      Int.ediv_lt_of_lt_mul (by omega) (by omega)
    have hnonneg : 0 ≤ nrCpus * 80 / nrThreads := Int.ediv_nonneg (by omega) (by omega)
    refine ⟨nrCpus * 80 / nrThreads, ?_, hnonneg, by omega, by linarith⟩
    simp only [signedDiv, signedResult, InSigned, intBits]
    rw [if_pos ⟨by omega, by omega⟩, Option.some_bind, if_neg (by omega), hquot,
      if_pos ⟨by omega, by omega⟩]
  · exact ⟨60, rfl, by norm_num, by norm_num, by omega⟩

/-- With 26843546 CPUs and one thread more, `nr_cpus * 80 = 2147483680` leaves `int`: computing
`percent`, and with it the schedule, is undefined. -/
theorem schedulePercent_overflows :
    schedulePercent 26843546 26843547 = none ∧ schedule 1000 500 26843547 26843546 = none := by
  decide

/-! ### One worker -/

/-- For `0 ≤ percent ≤ 100` the runtime is at most `interval * percent / 100`, whatever the
wraparound of the product. -/
theorem workerRuntime_mul_le (interval : BitVec 32) {percent : Int} (hnonneg : 0 ≤ percent)
    (hle : percent ≤ 100) :
    (workerRuntime interval percent).toNat * 100 ≤ interval.toNat * percent.toNat := by
  have hpercent : (BitVec.ofInt 32 percent).toNat = percent.toNat := by
    rw [BitVec.toNat_ofInt, Int.emod_eq_of_lt hnonneg (by omega)]
  have hquot : (interval.toNat * percent.toNat % 2 ^ 32 / 100) % 2 ^ 64 =
      interval.toNat * percent.toNat % 2 ^ 32 / 100 := Nat.mod_eq_of_lt (by omega)
  simp only [workerRuntime, BitVec.toNat_setWidth, BitVec.toNat_udiv, BitVec.toNat_mul, hpercent]
  rw [show (100 : BitVec 32).toNat = 100 from rfl, hquot]
  calc interval.toNat * percent.toNat % 2 ^ 32 / 100 * 100
      ≤ interval.toNat * percent.toNat % 2 ^ 32 := Nat.div_mul_le_self _ _
    _ ≤ interval.toNat * percent.toNat := Nat.mod_le _ _

@[simp] theorem toNat_setWidth_64 (x : BitVec 32) : (x.setWidth 64).toNat = x.toNat := by
  simp only [BitVec.toNat_setWidth]
  exact Nat.mod_eq_of_lt (by omega)

/-- For `0 ≤ percent ≤ 100`, a worker the loop gives the deadline `interval` gets
`runtime_us * 100 ≤ deadline_us * percent`, and so no more runtime than deadline. -/
theorem workerRuntime_le (interval : BitVec 32) {percent : Int} (hnonneg : 0 ≤ percent)
    (hle : percent ≤ 100) :
    ((workerRuntime interval percent).toNat : Int) * 100 ≤ (interval.setWidth 64).toNat * percent ∧
      workerRuntime interval percent ≤ interval.setWidth 64 := by
  have hmul := workerRuntime_mul_le interval hnonneg hle
  have hpercent : (percent.toNat : Int) = percent := Int.toNat_of_nonneg hnonneg
  rw [BitVec.le_def, toNat_setWidth_64]
  constructor
  · have hmulInt : ((workerRuntime interval percent).toNat : Int) * 100 ≤
        interval.toNat * (percent.toNat : Int) := by exact_mod_cast hmul
    rwa [hpercent] at hmulInt
  · have : interval.toNat * percent.toNat ≤ interval.toNat * 100 :=
      Nat.mul_le_mul_left _ (by omega)
    omega

/-- For `0 ≤ percent ≤ 100`, a worker of the loop asks for at most `percent / 100` of a CPU. -/
theorem SchedParams.utilization_le {interval : BitVec 32} {percent : Int} (hnonneg : 0 ≤ percent)
    (hle : percent ≤ 100) :
    (⟨workerRuntime interval percent, interval.setWidth 64⟩ : SchedParams).utilization ≤
      percent / 100 := by
  have hmul := (workerRuntime_le interval hnonneg hle).1
  simp only [utilization, toNat_setWidth_64] at hmul ⊢
  rcases Nat.eq_zero_or_pos interval.toNat with hzero | hpos
  · simp only [hzero, Nat.cast_zero, div_zero]
    exact div_nonneg (by exact_mod_cast hnonneg) (by norm_num)
  · rw [div_le_div_iff₀ (by exact_mod_cast hpos) (by norm_num)]
    exact_mod_cast (by linarith : ((workerRuntime interval percent).toNat : Int) * 100 ≤
      percent * interval.toNat)

/-! ### The loop -/

@[simp] theorem length_scheduleLoop (percent : Int) (step : BitVec 32) :
    ∀ (count : Nat) (interval : BitVec 32), (scheduleLoop percent step count interval).length = count
  | 0, _ => rfl
  | count + 1, interval => by
    simp [scheduleLoop, length_scheduleLoop percent step count]

/-- Every worker of the loop has the deadline of some `interval` the loop reaches and the runtime
`interval * percent / 100`. -/
theorem mem_scheduleLoop {percent : Int} {step : BitVec 32} {params : SchedParams} :
    ∀ {count : Nat} {interval : BitVec 32}, params ∈ scheduleLoop percent step count interval →
      ∃ reached : BitVec 32, params = ⟨workerRuntime reached percent, reached.setWidth 64⟩
  | 0, _, h => by cases h
  | count + 1, interval, h => by
    rcases List.mem_cons.mp h with rfl | h
    · exact ⟨interval, rfl⟩
    · exact mem_scheduleLoop h

/-- When every worker with a nonzero deadline asks for at most `bound` of a CPU, the workers
together ask for at most `bound` times their number. -/
theorem totalUtilization_le (sched : List SchedParams) (bound : ℚ) (hbound : 0 ≤ bound)
    (hworker : ∀ params ∈ sched, params.deadlineUs ≠ 0 → params.utilization ≤ bound) :
    totalUtilization sched ≤ sched.length * bound := by
  have hshare : ∀ share ∈ (sched.filter fun params ↦ params.deadlineUs ≠ 0).map
      SchedParams.utilization, share ≤ bound := by
    simp only [List.mem_map, List.mem_filter, decide_eq_true_eq]
    rintro _ ⟨params, ⟨hparams, hne⟩, rfl⟩
    exact hworker params hparams hne
  calc totalUtilization sched
      ≤ (sched.filter fun params ↦ params.deadlineUs ≠ 0).length • bound := by
        simpa [totalUtilization] using List.sum_le_card_nsmul _ _ hshare
    _ ≤ sched.length * bound := by
        rw [nsmul_eq_mul]
        exact mul_le_mul_of_nonneg_right (by exact_mod_cast List.length_filter_le _ _) hbound

/-- For `0 ≤ percent ≤ 100`, at least one thread and `nr_threads * percent ≤ 80 * nr_cpus`, the
workers of the loop ask for at most 80% of `nr_cpus` CPUs. -/
theorem totalUtilization_scheduleLoop_le {percent nrThreads nrCpus : Int} (hnonneg : 0 ≤ percent)
    (hle : percent ≤ 100) (hthreads : 1 ≤ nrThreads) (hshare : nrThreads * percent ≤ 80 * nrCpus)
    (step interval : BitVec 32) :
    totalUtilization (scheduleLoop percent step nrThreads.toNat interval) ≤ 4 / 5 * nrCpus := by
  have hcast : ((nrThreads.toNat : Nat) : ℚ) = nrThreads := by
    exact_mod_cast Int.toNat_of_nonneg (by omega)
  have hutil := totalUtilization_le (scheduleLoop percent step nrThreads.toNat interval)
    ((percent : ℚ) / 100) (div_nonneg (by exact_mod_cast hnonneg) (by norm_num))
    fun params hparams _ ↦ by
      obtain ⟨reached, rfl⟩ := mem_scheduleLoop hparams
      exact SchedParams.utilization_le hnonneg hle
  rw [length_scheduleLoop, hcast] at hutil
  have hshareQ : (nrThreads : ℚ) * percent ≤ 80 * nrCpus := by exact_mod_cast hshare
  calc totalUtilization (scheduleLoop percent step nrThreads.toNat interval)
      ≤ nrThreads * (percent / 100) := hutil
    _ ≤ 4 / 5 * nrCpus := by linarith

/-- With at least one thread, no negative CPU count, and `nr_cpus * 80` an `int` whenever there
are more threads than CPUs, for every interval and step the schedule is defined, has a worker
per thread, each worker gets `runtime_us * 100 ≤ deadline_us * percent` and so no more runtime
than deadline, and the total utilization is at most `0.8 * nr_cpus`. -/
theorem schedule_within_utilization (interval step : BitVec 32) (nrThreads nrCpus : Int)
    (hthreads : 1 ≤ nrThreads) (hcpus : 0 ≤ nrCpus)
    (hfit : nrCpus < nrThreads → nrCpus * 80 < 2 ^ 31) :
    ∃ percent sched, schedulePercent nrCpus nrThreads = some percent ∧
      schedule interval step nrThreads nrCpus = some sched ∧ sched.length = nrThreads.toNat ∧
      (∀ params ∈ sched, (params.runtimeUs.toNat : Int) * 100 ≤ params.deadlineUs.toNat * percent ∧
        params.runtimeUs ≤ params.deadlineUs) ∧
      totalUtilization sched ≤ 4 / 5 * nrCpus := by
  obtain ⟨percent, hpercent, hnonneg, hle, hshare⟩ := schedulePercent_spec hthreads hcpus hfit
  refine ⟨percent, scheduleLoop percent step nrThreads.toNat interval, hpercent,
    by simp [schedule, hpercent], length_scheduleLoop _ _ _ _,
    fun params hparams ↦ ?_, ?_⟩
  · obtain ⟨reached, rfl⟩ := mem_scheduleLoop hparams
    exact workerRuntime_le reached hnonneg hle
  · exact totalUtilization_scheduleLoop_le hnonneg hle hthreads hshare step interval

/-- Five threads on two CPUs run at `percent = 160 / 5 = 32`. -/
theorem schedule_within_utilization_five_threads :
    (1 : Int) ≤ 5 ∧ (0 : Int) ≤ 2 ∧ ((2 : Int) < 5 → (2 : Int) * 80 < 2 ^ 31) ∧
      ∃ percent sched, schedulePercent 2 5 = some percent ∧ schedule 1000 500 5 2 = some sched ∧
        sched.length = (5 : Int).toNat ∧
        (∀ params ∈ sched, (params.runtimeUs.toNat : Int) * 100 ≤ params.deadlineUs.toNat * percent ∧
          params.runtimeUs ≤ params.deadlineUs) ∧
        totalUtilization sched ≤ 4 / 5 * (2 : Int) :=
  ⟨by decide, by decide, fun _ ↦ by decide,
    schedule_within_utilization 1000 500 5 2 (by decide) (by decide) fun _ ↦ by decide⟩

/-- The default options with three threads on four CPUs: 60% of 1000, 1500 and 2000 µs. -/
example : schedule 1000 500 3 4 = some [⟨600, 1000⟩, ⟨900, 1500⟩, ⟨1200, 2000⟩] := by
  decide

/-! ### The CPUs the schedule is for -/

/-- With at least one CPU, once `main` is past the affinity option, `nr_cpus` is between 0 and
`cpu_count`: it is `cpu_count` without `-a`, and `main` stops on any other count. -/
theorem affinitySetup_nrCpus {fuel : Nat} {cpuCount : Int} {setcpu : Option (List Char)}
    {allCpus : Bool} {result : Affinity} (hcount : 1 ≤ cpuCount)
    (h : affinitySetup fuel cpuCount setcpu allCpus = some (.ok result)) :
    0 ≤ result.nrCpus ∧ result.nrCpus ≤ cpuCount := by
  unfold affinitySetup at h
  obtain ⟨⟨nrCpus, setcpuBuf⟩, hcounted, hresult⟩ := Option.map_eq_some'.mp h
  dsimp only at hresult
  have hvalid : result.nrCpus = nrCpus ∧ ¬ (setcpu.isSome ∧ (nrCpus < 0 ∨ nrCpus > cpuCount)) := by
    split_ifs at hresult with hinvalid <;> cases hresult <;> exact ⟨rfl, hinvalid⟩
  rw [hvalid.1]
  cases setcpu with
  | none =>
    cases hcounted
    exact ⟨by omega, le_rfl⟩
  | some text =>
    have := hvalid.2
    simp only [Option.isSome_some, true_and, not_or, not_lt] at this
    exact this

/-- With at least one CPU and `cpu_count * 80` an `int`, whatever the affinity option, once `main`
is past it `nr_cpus` is between 0 and `cpu_count`, and for every interval, step and number of
threads the schedule is defined, has a worker per thread, and asks for at most 80% of `nr_cpus`
CPUs. -/
theorem schedule_of_affinitySetup {fuel : Nat} {cpuCount : Int} {setcpu : Option (List Char)}
    {allCpus : Bool} {result : Affinity} (hcount : 1 ≤ cpuCount) (hfit : cpuCount * 80 < 2 ^ 31)
    (h : affinitySetup fuel cpuCount setcpu allCpus = some (.ok result))
    (interval step : BitVec 32) (nrThreads : Int) (hthreads : 1 ≤ nrThreads) :
    0 ≤ result.nrCpus ∧ result.nrCpus ≤ cpuCount ∧
      ∃ sched, schedule interval step nrThreads result.nrCpus = some sched ∧
        sched.length = nrThreads.toNat ∧ totalUtilization sched ≤ 4 / 5 * result.nrCpus := by
  obtain ⟨hlo, hhi⟩ := affinitySetup_nrCpus hcount h
  obtain ⟨percent, hpercent, hnonneg, hle, hshare⟩ :=
    schedulePercent_spec hthreads hlo fun _ ↦ by omega
  exact ⟨hlo, hhi, _, by simp [schedule, hpercent], length_scheduleLoop _ _ _ _,
    totalUtilization_scheduleLoop_le hnonneg hle hthreads hshare step interval⟩

/-- Ten CPUs, `-a 0-3` and six threads: the six workers share four CPUs. -/
theorem schedule_of_affinitySetup_four_cpus :
    (1 : Int) ≤ 10 ∧ (10 : Int) * 80 < 2 ^ 31 ∧
      affinitySetup 3 10 (some "0-3".toList) false =
        some (.ok ⟨false, 4, some "0-3".toList, some "4-9".toList⟩) ∧ (1 : Int) ≤ 6 ∧
      0 ≤ (4 : Int) ∧ (4 : Int) ≤ 10 ∧
      ∃ sched, schedule 1000 500 6 4 = some sched ∧ sched.length = (6 : Int).toNat ∧
        totalUtilization sched ≤ 4 / 5 * (4 : Int) :=
  have h : affinitySetup 3 10 (some "0-3".toList) false =
      some (.ok ⟨false, 4, some "0-3".toList, some "4-9".toList⟩) := rfl
  ⟨by decide, by decide, h, by decide,
    schedule_of_affinitySetup (by decide) (by decide) h 1000 500 6 (by decide)⟩

end CyclicDeadline
