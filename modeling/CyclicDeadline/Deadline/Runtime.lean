import Mathlib.Data.BitVec

/-!
# `do_runtime`: one cycle of a deadline thread

`doRuntime` is `do_runtime`: it reads the clock, resyncs the period to the clock reading when the
thread woke before its period started, records the latency `now - period` in the thread's
statistics and returns the start of the next period. The clock reading is an argument; the
trace-marker writes are left out, as they change nothing `do_runtime` returns or records.

`struct thread_stat` keeps `min`, `max` and `act` as `long` and `cycles` as `unsigned long`.
The model is the LP64 data model, where all four have 64 bits and C converts a `long` to an
`unsigned long long` for the comparisons with `diff` without changing its bits, so each is a
64-bit word here and the comparisons are unsigned. On ILP32 they have 32 bits, `cycles` wraps
modulo 2³² and a latency is truncated when stored; that layout is not modelled, and every result
of this module is about LP64. `avg` is a `double` accumulator and is left out.

A `min` of zero doubles as "not set yet": `doRuntime_min_forgets_zero` shows that a zero latency
followed by a latency of 5 leaves `min` at 5.

`doRuntime_eq` splits `do_runtime` into the latency it records, the update of the statistics
(`ThreadStat.record`) and the next period. Over the loop of `run_deadline` (`runtimeLoop`),
`runtimeLoop_stats` shows that `cycles` counts the calls, `act` is the last latency and `max`
the greatest, and `runtimeLoop_min` that `min` is the least latency when none is zero.
-/

set_option autoImplicit false
set_option relaxedAutoImplicit false

namespace CyclicDeadline

/-- The statistics `do_runtime` updates in `struct thread_stat`, laid out as on LP64, where
`long` and `unsigned long` have 64 bits. -/
structure ThreadStat where
  cycles : BitVec 64
  min : BitVec 64
  max : BitVec 64
  act : BitVec 64
deriving DecidableEq, Repr

/-- The statistics `calloc` gives a thread. -/
def ThreadStat.zero : ThreadStat :=
  ⟨0, 0, 0, 0⟩

/-- `do_runtime(tid, sd, period)` with the clock at `now` and `sd->deadline_us` at
`deadlineUs`: the new statistics and the returned `next_period`. -/
def doRuntime (deadlineUs : BitVec 64) (stat : ThreadStat) (period now : BitVec 64) :
    ThreadStat × BitVec 64 :=
  let nextPeriod := period + deadlineUs
  let (period, nextPeriod) := if now < period then (now, now + deadlineUs) else (period, nextPeriod)
  let diff := now - period
  let max := if diff > stat.max then diff else stat.max
  let min := if stat.min = 0 ∨ diff < stat.min then diff else stat.min
  (⟨stat.cycles + 1, min, max, diff⟩, nextPeriod)

/-- A cycle that starts on time records a latency of 0, after which `min` is 0, the value that
marks it unset: the next cycle, 5 µs late, sets `min` to 5 although 0 was recorded. -/
theorem doRuntime_min_forgets_zero :
    (doRuntime 1000 ThreadStat.zero 5 5).1.act = 0 ∧
      (doRuntime 1000 (doRuntime 1000 ThreadStat.zero 5 5).1 5 10).1.act = 5 ∧
      (doRuntime 1000 (doRuntime 1000 ThreadStat.zero 5 5).1 5 10).1.min = 5 := by
  decide

/-! ### The measuring loop of `run_deadline` -/

/-- The latency `do_runtime` records for a wake-up at `now` in the period that starts at
`period`: zero when the thread woke before the period started, since the period then moves to
`now`. -/
def latency (period now : BitVec 64) : BitVec 64 :=
  if now < period then 0 else now - period

/-- The `next_period` that `do_runtime` returns. -/
def nextPeriod (deadlineUs period now : BitVec 64) : BitVec 64 :=
  if now < period then now + deadlineUs else period + deadlineUs

/-- The statistics after `do_runtime` records the latency `diff`. -/
def ThreadStat.record (stat : ThreadStat) (diff : BitVec 64) : ThreadStat :=
  ⟨stat.cycles + 1, if stat.min = 0 ∨ diff < stat.min then diff else stat.min,
    if diff > stat.max then diff else stat.max, diff⟩

theorem doRuntime_eq (deadlineUs : BitVec 64) (stat : ThreadStat) (period now : BitVec 64) :
    doRuntime deadlineUs stat period now =
      (stat.record (latency period now), nextPeriod deadlineUs period now) := by
  unfold doRuntime latency nextPeriod ThreadStat.record
  split <;> simp [*]

/-- The loop of `run_deadline` while `shutdown` stays clear: `period` is the clock reading taken
before the loop and `nows` the readings of the successive calls of `do_runtime`, each made with
the period the previous call returned. -/
def runtimeLoop (deadlineUs : BitVec 64) :
    ThreadStat → BitVec 64 → List (BitVec 64) → ThreadStat × BitVec 64
  | stat, period, [] => (stat, period)
  | stat, period, now :: nows =>
    let (stat, period) := doRuntime deadlineUs stat period now
    runtimeLoop deadlineUs stat period nows

/-- The latencies recorded by the loop. -/
def loopLatencies (deadlineUs : BitVec 64) : BitVec 64 → List (BitVec 64) → List (BitVec 64)
  | _, [] => []
  | period, now :: nows =>
    latency period now :: loopLatencies deadlineUs (nextPeriod deadlineUs period now) nows

theorem length_loopLatencies (deadlineUs : BitVec 64) :
    ∀ (period : BitVec 64) (nows : List (BitVec 64)),
      (loopLatencies deadlineUs period nows).length = nows.length
  | _, [] => rfl
  | period, _ :: nows => by
    simp [loopLatencies, length_loopLatencies deadlineUs _ nows]

/-- The loop records its latencies one after the other. -/
theorem runtimeLoop_fst (deadlineUs : BitVec 64) :
    ∀ (stat : ThreadStat) (period : BitVec 64) (nows : List (BitVec 64)),
      (runtimeLoop deadlineUs stat period nows).1 =
        (loopLatencies deadlineUs period nows).foldl ThreadStat.record stat
  | _, _, [] => rfl
  | stat, period, now :: nows => by
    simp only [runtimeLoop, doRuntime_eq, loopLatencies, List.foldl_cons]
    exact runtimeLoop_fst deadlineUs _ _ nows

/-- `cycles` counts the recorded latencies, modulo 2⁶⁴, and `act` is the last of them. -/
theorem foldl_record_cycles_act :
    ∀ (stat : ThreadStat) (lats : List (BitVec 64)),
      (lats.foldl ThreadStat.record stat).cycles.toNat = (stat.cycles.toNat + lats.length) % 2 ^ 64 ∧
        (lats.foldl ThreadStat.record stat).act = lats.getLast?.getD stat.act
  | stat, [] => ⟨by simp [Nat.mod_eq_of_lt stat.cycles.isLt], rfl⟩
  | stat, x :: lats => by
    obtain ⟨hcycles, hact⟩ := foldl_record_cycles_act (stat.record x) lats
    have hone : (1 : BitVec 64).toNat = 1 := rfl
    refine ⟨?_, ?_⟩
    · rw [List.foldl_cons, hcycles]
      simp only [ThreadStat.record, BitVec.toNat_add, hone, List.length_cons]
      omega
    · rw [List.foldl_cons, hact]
      cases lats with
      | nil => rfl
      | cons y ys => simp [List.getLast?_eq_getLast]

/-- `max` is the greatest of the recorded latencies and the `max` the loop started from. -/
theorem foldl_record_max :
    ∀ (stat : ThreadStat) (lats : List (BitVec 64)),
      (∀ x ∈ stat.max :: lats, x ≤ (lats.foldl ThreadStat.record stat).max) ∧
        (lats.foldl ThreadStat.record stat).max ∈ stat.max :: lats
  | stat, [] => ⟨by simp [BitVec.le_refl], by simp⟩
  | stat, x :: lats => by
    obtain ⟨hle, hmem⟩ := foldl_record_max (stat.record x) lats
    have hstep : (stat.max ≤ (stat.record x).max ∧ x ≤ (stat.record x).max) ∧
        ((stat.record x).max = stat.max ∨ (stat.record x).max = x) := by
      simp only [ThreadStat.record]; split <;> refine ⟨⟨?_, ?_⟩, by simp⟩ <;> bv_omega
    simp only [List.foldl_cons, List.mem_cons, forall_eq_or_imp] at hle hmem ⊢
    refine ⟨⟨BitVec.le_trans hstep.1.1 hle.1, BitVec.le_trans hstep.1.2 hle.1, hle.2⟩, ?_⟩
    rcases hmem with hm | hm
    · rcases hstep.2 with h | h <;> simp [hm, h]
    · exact .inr (.inr hm)

/-- The latencies `min` holds as set: the `min` the loop started from, unless it is zero, and
the recorded ones. -/
def minCandidates (stat : ThreadStat) (lats : List (BitVec 64)) : List (BitVec 64) :=
  (if stat.min = 0 then [] else [stat.min]) ++ lats

/-- Recording a nonzero latency `x` sets `min` to a candidate that is at most `x` and at most the
`min` before, if that was set. -/
theorem minCandidates_record (stat : ThreadStat) {x : BitVec 64} (hx : x ≠ 0)
    (lats : List (BitVec 64)) :
    minCandidates (stat.record x) lats = (stat.record x).min :: lats ∧
      (stat.record x).min ∈ minCandidates stat (x :: lats) ∧
      ∀ y ∈ minCandidates stat (x :: lats), (stat.record x).min ≤ y ∨ y ∈ lats := by
  unfold minCandidates ThreadStat.record
  by_cases h0 : stat.min = 0
  · simp only [h0, true_or, if_true, hx, if_false, List.nil_append, List.singleton_append,
      List.mem_cons, forall_eq_or_imp, true_and, BitVec.le_refl]
    exact fun _ h ↦ .inr h
  · by_cases hlt : x < stat.min
    · simp only [h0, hlt, or_true, if_true, hx, if_false, List.singleton_append, List.mem_cons,
        forall_eq_or_imp, true_or, BitVec.le_refl, true_and]
      exact ⟨.inl (by bv_omega), fun _ h ↦ .inr h⟩
    · simp only [h0, hlt, or_self, if_false, List.singleton_append, List.mem_cons,
        forall_eq_or_imp, true_or, BitVec.le_refl, true_and]
      exact ⟨.inl (by bv_omega), fun _ h ↦ .inr h⟩

/-- When no recorded latency is zero, `min` is the least of `minCandidates`, or zero when there is
none. -/
theorem foldl_record_min :
    ∀ (stat : ThreadStat) (lats : List (BitVec 64)), (∀ x ∈ lats, x ≠ 0) →
      (∀ x ∈ minCandidates stat lats, (lats.foldl ThreadStat.record stat).min ≤ x) ∧
        (minCandidates stat lats = [] ∧ (lats.foldl ThreadStat.record stat).min = 0 ∨
          (lats.foldl ThreadStat.record stat).min ∈ minCandidates stat lats)
  | stat, [], _ => by
    by_cases h0 : stat.min = 0 <;> simp [minCandidates, h0, BitVec.le_refl, em]
  | stat, x :: lats, hzero => by
    obtain ⟨hcand, hin, hbelow⟩ := minCandidates_record stat (hzero x (List.mem_cons_self x lats)) lats
    obtain ⟨hle, hmem⟩ := foldl_record_min (stat.record x) lats
      fun y hy ↦ hzero y (List.mem_cons_of_mem x hy)
    rw [hcand] at hle hmem
    rw [List.foldl_cons]
    refine ⟨fun y hy ↦ ?_, .inr ?_⟩
    · rcases hbelow y hy with h | h
      · exact BitVec.le_trans (hle _ (List.mem_cons_self _ _)) h
      · exact hle y (List.mem_cons_of_mem _ h)
    · rcases hmem with ⟨hnil, -⟩ | hm
      · cases hnil
      rcases List.mem_cons.1 hm with h | h
      · exact h ▸ hin
      · exact List.mem_append_right _ (List.mem_cons_of_mem x h)

/-- Over every run of the loop of `run_deadline`, `cycles` counts the calls of `do_runtime`
modulo 2⁶⁴, `act` is the last recorded latency, and `max` is the greatest of the recorded
latencies and the `max` the run started from. -/
theorem runtimeLoop_stats (deadlineUs : BitVec 64) (stat : ThreadStat) (period : BitVec 64)
    (nows : List (BitVec 64)) :
    (runtimeLoop deadlineUs stat period nows).1.cycles.toNat =
        (stat.cycles.toNat + nows.length) % 2 ^ 64 ∧
      (runtimeLoop deadlineUs stat period nows).1.act =
        (loopLatencies deadlineUs period nows).getLast?.getD stat.act ∧
      (∀ x ∈ stat.max :: loopLatencies deadlineUs period nows,
        x ≤ (runtimeLoop deadlineUs stat period nows).1.max) ∧
      (runtimeLoop deadlineUs stat period nows).1.max ∈ stat.max :: loopLatencies deadlineUs period nows := by
  have hcount := foldl_record_cycles_act stat (loopLatencies deadlineUs period nows)
  rw [length_loopLatencies] at hcount
  rw [runtimeLoop_fst]
  exact ⟨hcount.1, hcount.2, foldl_record_max stat _⟩

/-- When no call of the run records a zero latency, `min` is the least of the recorded latencies and
the `min` the run started from, if that is set. A zero latency would be forgotten
(`doRuntime_min_forgets_zero`). -/
theorem runtimeLoop_min (deadlineUs : BitVec 64) (stat : ThreadStat) (period : BitVec 64)
    (nows : List (BitVec 64)) (hzero : ∀ x ∈ loopLatencies deadlineUs period nows, x ≠ 0) :
    (∀ x ∈ minCandidates stat (loopLatencies deadlineUs period nows),
        (runtimeLoop deadlineUs stat period nows).1.min ≤ x) ∧
      (minCandidates stat (loopLatencies deadlineUs period nows) = [] ∧
          (runtimeLoop deadlineUs stat period nows).1.min = 0 ∨
        (runtimeLoop deadlineUs stat period nows).1.min ∈
          minCandidates stat (loopLatencies deadlineUs period nows)) := by
  rw [runtimeLoop_fst]
  exact foldl_record_min stat _ hzero

/-- Two wake-ups 5 µs and 3 µs late leave `min` at 3. -/
theorem runtimeLoop_min_late_wakeups :
    (∀ x ∈ loopLatencies 1000 100 [105, 1103], x ≠ 0) ∧
      (runtimeLoop 1000 ThreadStat.zero 100 [105, 1103]).1.min = 3 ∧
      ((∀ x ∈ minCandidates ThreadStat.zero (loopLatencies 1000 100 [105, 1103]),
          (runtimeLoop 1000 ThreadStat.zero 100 [105, 1103]).1.min ≤ x) ∧
        (minCandidates ThreadStat.zero (loopLatencies 1000 100 [105, 1103]) = [] ∧
            (runtimeLoop 1000 ThreadStat.zero 100 [105, 1103]).1.min = 0 ∨
          (runtimeLoop 1000 ThreadStat.zero 100 [105, 1103]).1.min ∈
            minCandidates ThreadStat.zero (loopLatencies 1000 100 [105, 1103]))) := by
  have hlats : loopLatencies 1000 100 [105, 1103] = [5, 3] := rfl
  have hzero : ∀ x ∈ loopLatencies 1000 100 [105, 1103], x ≠ 0 := by rw [hlats]; simp
  exact ⟨hzero, rfl, runtimeLoop_min 1000 ThreadStat.zero 100 [105, 1103] hzero⟩

end CyclicDeadline
