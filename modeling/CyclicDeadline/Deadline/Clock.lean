import CyclicDeadline.Arith.Signed
import CyclicDeadline.Deadline.Runtime

/-!
# `get_time_us`: the clock in microseconds

`get_time_us` reads `CLOCK_MONOTONIC_RAW` into a `struct timespec` and returns
`ts.tv_sec * 1000000 + ts.tv_nsec / 1000` as a `u64`. The product is taken in `time_t`, which is
`long`: 64 bits on `LP64`, and 32 bits on `ILP32` (with a 32-bit `time_t`). `getTimeUs` is the
function under both data models, `none` where the `long` arithmetic overflows.

`getTimeUs_eq` is the exact value: whenever `tv_sec * 1000000` fits in a `long`, the result is
`tv_sec * 10⁶ + ⌊tv_nsec / 1000⌋`. On `LP64` that covers every reading with `tv_sec < 2³¹`
(`getTimeUs_lp64`), so the clock is monotone in the reading and every latency `do_runtime`
records between two readings is their difference in microseconds (`latency_getTimeUs`). On
`ILP32` the product leaves `long` once the clock passes 2148 seconds, about 36 minutes after
boot: `getTimeUs_overflows_ilp32`.
-/

set_option autoImplicit false
set_option relaxedAutoImplicit false

namespace CyclicDeadline

/-- A reading of the clock, `struct timespec`: `tv_sec` is a `time_t`, `tv_nsec` a `long`. -/
structure Timespec where
  tvSec : Int
  tvNsec : Int
deriving DecidableEq, Repr

/-- `get_time_us()` when `clock_gettime` gives `ts`: `time = ts.tv_sec * 1000000` in `long`,
converted to `u64`, then `time += ts.tv_nsec / 1000`; `none` when the `long` arithmetic is
undefined. -/
def getTimeUs (dm : DataModel) (ts : Timespec) : Option (BitVec 64) :=
  (signedResult dm.longBits (ts.tvSec * 1000000)).bind fun time ↦
    (signedDiv dm.longBits ts.tvNsec 1000).map fun usec ↦ BitVec.ofInt 64 time + BitVec.ofInt 64 usec

/-- The time of a reading in whole microseconds. -/
def Timespec.micros (ts : Timespec) : Int :=
  ts.tvSec * 1000000 + ts.tvNsec / 1000

/-- A reading the clock can give: `0 ≤ tv_sec < 2³¹` and `0 ≤ tv_nsec < 10⁹`. -/
def Timespec.Valid (ts : Timespec) : Prop :=
  0 ≤ ts.tvSec ∧ ts.tvSec < 2 ^ 31 ∧ 0 ≤ ts.tvNsec ∧ ts.tvNsec < 1000000000

instance (ts : Timespec) : Decidable ts.Valid :=
  inferInstanceAs (Decidable (_ ∧ _))

/-- `first` is no later than `second`. -/
def Timespec.Le (first second : Timespec) : Prop :=
  first.tvSec < second.tvSec ∨ (first.tvSec = second.tvSec ∧ first.tvNsec ≤ second.tvNsec)

instance (first second : Timespec) : Decidable (first.Le second) :=
  inferInstanceAs (Decidable (_ ∨ _))

/-- A `long` holds every value below `2³¹` and none from `2⁶³` on. -/
theorem longBits_pow (dm : DataModel) :
    (2 : Int) ^ 31 ≤ 2 ^ (dm.longBits - 1) ∧ (2 : Int) ^ (dm.longBits - 1) ≤ 2 ^ 63 := by
  cases dm <;> decide

/-- For `0 ≤ x < 2⁶⁴`, converting `x` to a `u64` keeps its value. -/
theorem toNat_ofInt_eq {x : Int} (hnonneg : 0 ≤ x) (hlt : x < 2 ^ 64) :
    ((BitVec.ofInt 64 x).toNat : Int) = x := by
  rw [BitVec.toNat_ofInt, Int.toNat_of_nonneg (Int.emod_nonneg _ (by decide)),
    Int.emod_eq_of_lt hnonneg (by exact_mod_cast hlt)]

/-- When `0 ≤ tv_sec`, `0 ≤ tv_nsec < 10⁹` and `tv_sec * 1000000` is a `long`, the result is
`tv_sec * 10⁶ + ⌊tv_nsec / 1000⌋`, exactly. -/
theorem getTimeUs_eq (dm : DataModel) (ts : Timespec) (hsec : 0 ≤ ts.tvSec)
    (hfit : ts.tvSec * 1000000 < 2 ^ (dm.longBits - 1)) (hnsec : 0 ≤ ts.tvNsec)
    (hnsecLt : ts.tvNsec < 1000000000) :
    ∃ time, getTimeUs dm ts = some time ∧ (time.toNat : Int) = ts.micros := by
  have hpow := longBits_pow dm
  have hquot : ts.tvNsec.tdiv 1000 = ts.tvNsec / 1000 := Int.tdiv_eq_ediv hnsec (by decide)
  refine ⟨BitVec.ofInt 64 (ts.tvSec * 1000000) + BitVec.ofInt 64 (ts.tvNsec / 1000), ?_, ?_⟩
  · simp only [getTimeUs, signedDiv, signedResult, InSigned]
    rw [if_pos ⟨by omega, hfit⟩, Option.some_bind, if_neg (by decide), hquot,
      if_pos ⟨by omega, by omega⟩]
    rfl
  · have hnsecQuot : 0 ≤ ts.tvNsec / 1000 ∧ ts.tvNsec / 1000 < 1000000 := by omega
    have htime := toNat_ofInt_eq (x := ts.tvSec * 1000000) (by omega) (by omega)
    have husec := toNat_ofInt_eq (x := ts.tvNsec / 1000) (by omega) (by omega)
    rw [BitVec.toNat_add, Nat.mod_eq_of_lt (by omega), Timespec.micros]
    push_cast
    omega

/-- For a valid reading, whose `tv_sec` is below 2³¹, `get_time_us` on `LP64` returns
`tv_sec * 10⁶ + ⌊tv_nsec / 1000⌋`. -/
theorem getTimeUs_lp64 (ts : Timespec) (hts : ts.Valid) :
    ∃ time, getTimeUs .lp64 ts = some time ∧ (time.toNat : Int) = ts.micros := by
  have hsec := hts.2.1
  exact getTimeUs_eq .lp64 ts hts.1 (by simp only [DataModel.longBits, DataModel.sizeofLong]; omega)
    hts.2.2.1 hts.2.2.2

/-- On `ILP32` the reading at 2147 s is still exact, and at 2148 s `tv_sec * 1000000 =
2148000000` is past `LONG_MAX = 2147483647`: `get_time_us` overflows. -/
theorem getTimeUs_overflows_ilp32 :
    getTimeUs .ilp32 ⟨2147, 0⟩ = some 2147000000 ∧ getTimeUs .ilp32 ⟨2148, 0⟩ = none := by
  decide

/-! ### Latencies from two readings -/

/-- Of two valid readings, the later one is no earlier in microseconds. -/
theorem Timespec.micros_le {first second : Timespec} (hfirst : first.Valid) (hsecond : second.Valid)
    (hle : first.Le second) : first.micros ≤ second.micros := by
  unfold Timespec.micros Timespec.Valid Timespec.Le at *
  omega

/-- For valid readings with `start` no later than `now`, on `LP64` both readings give their exact
time in microseconds, the clock is monotone, and the latency `do_runtime` records for a period that
starts at the reading `start` and a wake-up at the reading `now` is their difference in
microseconds. -/
theorem latency_getTimeUs {start now : Timespec} (hstart : start.Valid) (hnow : now.Valid)
    (hle : start.Le now) :
    ∃ period time, getTimeUs .lp64 start = some period ∧ getTimeUs .lp64 now = some time ∧
      (period.toNat : Int) = start.micros ∧ (time.toNat : Int) = now.micros ∧
      period ≤ time ∧ ((latency period time).toNat : Int) = now.micros - start.micros := by
  obtain ⟨period, hperiod, hperiodNat⟩ := getTimeUs_lp64 start hstart
  obtain ⟨time, htime, htimeNat⟩ := getTimeUs_lp64 now hnow
  have hmicros := Timespec.micros_le hstart hnow hle
  have hleNat : period.toNat ≤ time.toNat := by omega
  refine ⟨period, time, hperiod, htime, hperiodNat, htimeNat, BitVec.le_def.mpr hleNat, ?_⟩
  rw [latency, if_neg (by rw [BitVec.lt_def]; omega), BitVec.toNat_sub]
  omega

/-- A period that starts at 1.5 s and a wake-up at 2.00025 s are 500250 µs apart. -/
theorem latency_getTimeUs_half_second :
    Timespec.Valid ⟨1, 500000000⟩ ∧ Timespec.Valid ⟨2, 250000⟩ ∧
      Timespec.Le ⟨1, 500000000⟩ ⟨2, 250000⟩ ∧
      ∃ period time, getTimeUs .lp64 ⟨1, 500000000⟩ = some period ∧
        getTimeUs .lp64 ⟨2, 250000⟩ = some time ∧
        (period.toNat : Int) = Timespec.micros ⟨1, 500000000⟩ ∧
        (time.toNat : Int) = Timespec.micros ⟨2, 250000⟩ ∧ period ≤ time ∧
        ((latency period time).toNat : Int) =
          Timespec.micros ⟨2, 250000⟩ - Timespec.micros ⟨1, 500000000⟩ :=
  ⟨by decide, by decide, by decide, latency_getTimeUs (by decide) (by decide) (by decide)⟩

end CyclicDeadline
