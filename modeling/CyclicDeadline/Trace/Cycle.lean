import CyclicDeadline.Trace.Marker
import CyclicDeadline.Trace.Printf
import CyclicDeadline.Deadline.Runtime

/-!
# The trace lines of a cycle

Each call of `do_runtime` writes one or two lines to the trace marker through `ftrace_write`:
`"Adjusting period: ..."` when the thread woke before its period started, then
`"start at %lld off=%lld (period=%lld next=%lld)\n"`. The values are `u64`, and
`va_arg(ap, long long)` reads them back as signed 64-bit integers. `doRuntimeTrace` lists the
calls.

`ftraceWrite_doRuntimeTrace` composes `do_runtime`, `ftrace_write` and `my_vsprintf`. On every
cycle whose clock values and deadline lie below 2⁶², with the trace marker open and `BUFSIZ` at
least 128, each line `ftrace_write` hands to `write` is exactly the text `vsnprintf` prints for
it, at most 128 characters long, and the `start at` line reports as `off=` the latency
`do_runtime` records and as `next=` the period it returns.

`ftrace_write` is static, and these two lines are all it is ever given, always with `BUFSIZ`.
`ftraceWrite_stays_in_buffer` shows that the overruns of `my_vsprintf` (`Trace.Printf`) never
happen on them, for every value: a `u64` at or past 2⁶³ reads back as a negative `long long` and
is printed as `0`, so no line is longer than 113 characters, and with `BUFSIZ` at least 128
`my_vsprintf` returns at most `BUFSIZ` and stores only inside the buffer.
-/

set_option autoImplicit false
set_option relaxedAutoImplicit false

namespace CyclicDeadline

/-- The format of the line `do_runtime` writes when it moves the period. -/
def adjustingFormat : List Char :=
  "Adjusting period: now: %lld period: %lld delta:%lld%s\n".toList

/-- The format of the line `do_runtime` writes at every cycle. -/
def startFormat : List Char :=
  "start at %lld off=%lld (period=%lld next=%lld)\n".toList

/-- The `ftrace_write` calls of `do_runtime(tid, sd, period)` with the clock at `now` and
`sd->deadline_us` at `deadlineUs`: each format with its arguments. -/
def doRuntimeTrace (deadlineUs period now : BitVec 64) : List (List Char × List VaArg) :=
  let adjusting :=
    if now < period then
      let delta := period - now
      [(adjustingFormat, [.longLong now.toInt, .longLong period.toInt, .longLong delta.toInt,
        .str (if delta > deadlineUs / 2 then " HUGE ADJUSTMENT".toList else [])])]
    else []
  let period := if now < period then now else period
  adjusting ++ [(startFormat, [.longLong now.toInt, .longLong (now - period).toInt,
    .longLong period.toInt, .longLong (period + deadlineUs).toInt])]

/-! ### The text of each line -/

theorem vsnprintfText_adjustingFormat (a b c : Int) (huge : List Char) :
    vsnprintfText adjustingFormat [.longLong a, .longLong b, .longLong c, .str huge] =
      some ("Adjusting period: now: ".toList ++ formatInt a ++ " period: ".toList ++ formatInt b ++
        " delta:".toList ++ formatInt c ++ cstr huge ++ ['\n']) := by
  simp [vsnprintfText, printfText, adjustingFormat, cstr]

theorem vsnprintfText_startFormat (a b c d : Int) :
    vsnprintfText startFormat [.longLong a, .longLong b, .longLong c, .longLong d] =
      some ("start at ".toList ++ formatInt a ++ " off=".toList ++ formatInt b ++
        " (period=".toList ++ formatInt c ++ " next=".toList ++ formatInt d ++ ")\n".toList) := by
  simp [vsnprintfText, printfText, startFormat, cstr]

/-- A number below `10 ^ k` has at most `k` decimal digits. -/
theorem length_toDigits_le : ∀ (k n : Nat), 0 < k → n < 10 ^ k → (Nat.toDigits 10 n).length ≤ k
  | 0, _, hk, _ => absurd hk (Nat.lt_irrefl 0)
  | k + 1, n, _, hn => by
    rw [toDigits_eq]
    split
    · simp
    · have hdiv : n / 10 < 10 ^ k := by rw [Nat.pow_succ] at hn; omega
      have hk : 0 < k := by
        rcases Nat.eq_zero_or_pos k with rfl | hk
        · omega
        · exact hk
      simpa using length_toDigits_le k (n / 10) hk hdiv

/-- A `u64` below 2⁶³ is read by `va_arg(ap, long long)` as itself, non-negative, and `%lld` prints
it in at most 19 digits. -/
theorem longLong_toInt {x : BitVec 64} (hx : x.toNat < 2 ^ 63) :
    (VaArg.longLong x.toInt).Nonneg ∧ (formatInt x.toInt).length ≤ 19 := by
  have htoInt : x.toInt = x.toNat := by
    rw [BitVec.toInt_eq_toNat_cond, if_pos (by omega)]
  rw [htoInt]
  exact ⟨Int.natCast_nonneg _, length_toDigits_le 19 x.toNat (by decide) (by omega)⟩

/-! ### `ftrace_write` -/

/-- When the trace marker is open and the line has a `vsnprintf` text that fits `BUFSIZ`, with
non-negative integers, `ftrace_write` hands exactly that text to `write`. -/
theorem ftraceWrite_vsnprintfText (dm : DataModel) {bufsiz markFd : Int} (hfd : 0 ≤ markFd)
    {fmt out : List Char} {args : List VaArg} (hout : vsnprintfText fmt args = some out)
    (hnonneg : ∀ arg ∈ args, arg.Nonneg) (hfit : out.length ≤ bufsiz) :
    ∃ stores, ftraceWrite dm bufsiz markFd fmt args = some (markFd, .done stores out.length) ∧
      ∀ k < out.length, written k stores = out[k]? := by
  obtain ⟨stores, hrun, hrend⟩ :=
    vsprintfLoop_printfText dm bufsiz (cstr fmt) args out 0 hout hnonneg (by omega)
  refine ⟨(bufsiz - 1, '\x00') :: stores, ?_, fun k hk ↦ ?_⟩
  · rw [ftraceWrite, if_neg (by omega), myVsprintf, hrun, zero_add]
    rfl
  · have hk' := hrend.2 k hk
    rw [zero_add] at hk'
    rw [written, hk', List.getElem?_eq_getElem hk, Option.or_some]

/-- What `ftrace_write` does with a trace line when all goes well: it writes the line's
`vsnprintf` text, of at most 128 characters, whole. -/
def WritesLine (dm : DataModel) (bufsiz markFd : Int) (call : List Char × List VaArg) : Prop :=
  ∃ out stores, vsnprintfText call.1 call.2 = some out ∧ out.length ≤ 128 ∧
    ftraceWrite dm bufsiz markFd call.1 call.2 = some (markFd, .done stores out.length) ∧
    ∀ k < out.length, written k stores = out[k]?

theorem writesLine_of_text (dm : DataModel) {bufsiz markFd : Int} (hbuf : 128 ≤ bufsiz)
    (hfd : 0 ≤ markFd) {call : List Char × List VaArg} {out : List Char}
    (hout : vsnprintfText call.1 call.2 = some out) (hnonneg : ∀ arg ∈ call.2, arg.Nonneg)
    (hlen : out.length ≤ 128) : WritesLine dm bufsiz markFd call := by
  obtain ⟨stores, hwrite, hstores⟩ :=
    ftraceWrite_vsnprintfText dm hfd hout hnonneg (show (out.length : Int) ≤ bufsiz by omega)
  exact ⟨out, stores, hout, hlen, hwrite, hstores⟩

section

variable {deadlineUs period now : BitVec 64}

/-- When the values are below 2⁶², the start line of a cycle with the period `start`, which
`do_runtime` has moved to `now` when the thread woke early, goes whole to the trace marker. -/
theorem writesLine_start (dm : DataModel) {bufsiz markFd : Int} (hbuf : 128 ≤ bufsiz)
    (hfd : 0 ≤ markFd) {start : BitVec 64} (hdeadline : deadlineUs.toNat < 2 ^ 62)
    (hstart : start.toNat < 2 ^ 62) (hnow : now.toNat < 2 ^ 62) (hle : start ≤ now) :
    WritesLine dm bufsiz markFd (startFormat, [.longLong now.toInt, .longLong (now - start).toInt,
      .longLong start.toInt, .longLong (start + deadlineUs).toInt]) := by
  have hleNat : start.toNat ≤ now.toNat := BitVec.le_def.mp hle
  obtain ⟨h1, l1⟩ := longLong_toInt (x := now) (by omega)
  obtain ⟨h2, l2⟩ := longLong_toInt (x := now - start) (by rw [BitVec.toNat_sub]; omega)
  obtain ⟨h3, l3⟩ := longLong_toInt (x := start) (by omega)
  obtain ⟨h4, l4⟩ := longLong_toInt (x := start + deadlineUs) (by rw [BitVec.toNat_add]; omega)
  refine writesLine_of_text dm hbuf hfd (vsnprintfText_startFormat _ _ _ _) ?_ ?_
  · intro arg harg
    simp only [List.mem_cons, List.mem_singleton, List.not_mem_nil, or_false] at harg
    rcases harg with rfl | rfl | rfl | rfl <;> assumption
  · generalize formatInt now.toInt = f1 at l1 ⊢
    generalize formatInt (now - start).toInt = f2 at l2 ⊢
    generalize formatInt start.toInt = f3 at l3 ⊢
    generalize formatInt (start + deadlineUs).toInt = f4 at l4 ⊢
    simp
    omega

/-- When the values are below 2⁶² and the thread woke before its period, the line that reports the
move of the period goes whole to the trace marker. -/
theorem writesLine_adjusting (dm : DataModel) {bufsiz markFd : Int} (hbuf : 128 ≤ bufsiz)
    (hfd : 0 ≤ markFd) (hperiod : period.toNat < 2 ^ 62) (hnow : now.toNat < 2 ^ 62)
    (hlt : now < period) (huge : List Char) (hhuge : huge.length ≤ 16) :
    WritesLine dm bufsiz markFd (adjustingFormat, [.longLong now.toInt, .longLong period.toInt,
      .longLong (period - now).toInt, .str huge]) := by
  have hltNat : now.toNat < period.toNat := BitVec.lt_def.mp hlt
  obtain ⟨h1, l1⟩ := longLong_toInt (x := now) (by omega)
  obtain ⟨h2, l2⟩ := longLong_toInt (x := period) (by omega)
  obtain ⟨h3, l3⟩ := longLong_toInt (x := period - now) (by rw [BitVec.toNat_sub]; omega)
  have l4 : (cstr huge).length ≤ 16 := (List.takeWhile_prefix _).length_le.trans hhuge
  refine writesLine_of_text dm hbuf hfd (vsnprintfText_adjustingFormat _ _ _ _) ?_ ?_
  · intro arg harg
    simp only [List.mem_cons, List.mem_singleton, List.not_mem_nil, or_false] at harg
    rcases harg with rfl | rfl | rfl | rfl <;> first | assumption | trivial
  · generalize formatInt now.toInt = f1 at l1 ⊢
    generalize formatInt period.toInt = f2 at l2 ⊢
    generalize formatInt (period - now).toInt = f3 at l3 ⊢
    generalize cstr huge = f4 at l4 ⊢
    simp
    omega

/-- When the values are below 2⁶², the trace marker is open and `BUFSIZ` is at least 128, every line
`do_runtime` writes goes whole to the trace marker as `vsnprintf` prints it, and the last one
reports the latency `do_runtime` records and the period it returns. -/
theorem ftraceWrite_doRuntimeTrace (dm : DataModel) {bufsiz markFd : Int} (hbuf : 128 ≤ bufsiz)
    (hfd : 0 ≤ markFd) (hdeadline : deadlineUs.toNat < 2 ^ 62) (hperiod : period.toNat < 2 ^ 62)
    (hnow : now.toNat < 2 ^ 62) :
    (∀ call ∈ doRuntimeTrace deadlineUs period now, WritesLine dm bufsiz markFd call) ∧
      (doRuntimeTrace deadlineUs period now).getLast? =
        some (startFormat, [.longLong now.toInt, .longLong (latency period now).toInt,
          .longLong (if now < period then now else period).toInt,
          .longLong (nextPeriod deadlineUs period now).toInt]) := by
  by_cases hlt : now < period
  · have hcalls : doRuntimeTrace deadlineUs period now =
        [(adjustingFormat, [.longLong now.toInt, .longLong period.toInt,
          .longLong (period - now).toInt,
          .str (if period - now > deadlineUs / 2 then " HUGE ADJUSTMENT".toList else [])]),
         (startFormat, [.longLong now.toInt, .longLong (now - now).toInt, .longLong now.toInt,
          .longLong (now + deadlineUs).toInt])] := by
      simp [doRuntimeTrace, hlt]
    refine ⟨fun call hcall ↦ ?_, by simp [hcalls, latency, nextPeriod, hlt]⟩
    rw [hcalls, List.mem_cons, List.mem_singleton] at hcall
    rcases hcall with rfl | rfl
    · exact writesLine_adjusting dm hbuf hfd hperiod hnow hlt _ (by split <;> decide)
    · exact writesLine_start dm hbuf hfd hdeadline hnow hnow (BitVec.le_refl now)
  · have hcalls : doRuntimeTrace deadlineUs period now =
        [(startFormat, [.longLong now.toInt, .longLong (now - period).toInt,
          .longLong period.toInt, .longLong (period + deadlineUs).toInt])] := by
      simp [doRuntimeTrace, hlt]
    refine ⟨fun call hcall ↦ ?_, by simp [hcalls, latency, nextPeriod, hlt]⟩
    rw [hcalls, List.mem_singleton] at hcall
    subst hcall
    exact writesLine_start dm hbuf hfd hdeadline hperiod hnow (BitVec.not_lt.mp hlt)

/-! ### The buffer, for every value -/

/-- Every call `do_runtime` makes is the adjusting line, with three `u64` values and a suffix of
at most 16 characters, or the start line with four `u64` values. -/
theorem mem_doRuntimeTrace {call : List Char × List VaArg}
    (h : call ∈ doRuntimeTrace deadlineUs period now) :
    (∃ a b c : BitVec 64, ∃ huge : List Char, huge.length ≤ 16 ∧
        call = (adjustingFormat, [.longLong a.toInt, .longLong b.toInt, .longLong c.toInt, .str huge])) ∨
      ∃ a b c d : BitVec 64,
        call = (startFormat, [.longLong a.toInt, .longLong b.toInt, .longLong c.toInt, .longLong d.toInt]) := by
  simp only [doRuntimeTrace, List.mem_append, List.mem_singleton] at h
  rcases h with h | rfl
  · by_cases hlt : now < period
    · rw [if_pos hlt, List.mem_singleton] at h
      exact .inl ⟨_, _, _, _, by split <;> decide, h⟩
    · rw [if_neg hlt] at h
      cases h
  · exact .inr ⟨_, _, _, _, rfl⟩

/-- `%lld` of a `u64` read as a `long long`, with a negative value read as zero, has at most 19
digits. -/
theorem length_formatInt_max_toInt (x : BitVec 64) : (formatInt (max x.toInt 0)).length ≤ 19 := by
  have hx := BitVec.toInt_eq_toNat_cond x
  obtain ⟨n, hn, hlt⟩ : ∃ n : Nat, max x.toInt 0 = n ∧ n < 10 ^ 19 :=
    ⟨(max x.toInt 0).toNat, by omega, by split at hx <;> omega⟩
  rw [hn]
  exact length_toDigits_le 19 n (by decide) hlt

/-- With the trace marker open and `BUFSIZ` at least 128, a line whose text, with negative
integers read as zero, has at most 128 characters goes to `write` with a count of at most
`BUFSIZ`, after stores that all lie inside the buffer. -/
theorem ftraceWrite_within (dm : DataModel) {bufsiz markFd : Int} (hbuf : 128 ≤ bufsiz)
    (hfd : 0 ≤ markFd) {fmt out : List Char} {args : List VaArg}
    (hout : vsnprintfText fmt (args.map VaArg.clamp) = some out) (hlen : out.length ≤ 128) :
    ∃ stores n, ftraceWrite dm bufsiz markFd fmt args = some (markFd, .done stores n) ∧
      0 ≤ n ∧ n ≤ bufsiz ∧ ∀ st ∈ stores, 0 ≤ st.1 ∧ st.1 < bufsiz := by
  obtain ⟨stores, hrun, hstores⟩ :=
    myVsprintf_within dm hout (show (out.length : Int) ≤ bufsiz by omega) (by omega)
  exact ⟨stores, out.length, by rw [ftraceWrite, if_neg (by omega), hrun], by omega, by omega,
    hstores⟩

/-- On both data models, for every deadline, period and clock reading, with the trace marker
open and `BUFSIZ` at least 128, `my_vsprintf` formats every line `do_runtime` hands to
`ftrace_write` completely: it returns a count `n` with `0 ≤ n ≤ BUFSIZ` and stores every byte
inside `buf[0..BUFSIZ)`. A `u64` at or past 2⁶³ reads back as a negative `long long`, which
`%lld` prints as `0`, so the longest line has 113 characters. -/
theorem ftraceWrite_stays_in_buffer (dm : DataModel) {bufsiz markFd : Int} (hbuf : 128 ≤ bufsiz)
    (hfd : 0 ≤ markFd) (deadlineUs period now : BitVec 64) :
    ∀ call ∈ doRuntimeTrace deadlineUs period now, ∃ stores n,
      ftraceWrite dm bufsiz markFd call.1 call.2 = some (markFd, .done stores n) ∧
        0 ≤ n ∧ n ≤ bufsiz ∧ ∀ st ∈ stores, 0 ≤ st.1 ∧ st.1 < bufsiz := by
  intro call hcall
  rcases mem_doRuntimeTrace hcall with ⟨a, b, c, huge, hhuge, rfl⟩ | ⟨a, b, c, d, rfl⟩
  · refine ftraceWrite_within dm hbuf hfd (vsnprintfText_adjustingFormat _ _ _ huge) ?_
    have l4 : (cstr huge).length ≤ 16 := (List.takeWhile_prefix _).length_le.trans hhuge
    have l1 := length_formatInt_max_toInt a
    have l2 := length_formatInt_max_toInt b
    have l3 := length_formatInt_max_toInt c
    simp at l1 l2 l3 ⊢
    omega
  · refine ftraceWrite_within dm hbuf hfd (vsnprintfText_startFormat _ _ _ _) ?_
    have l1 := length_formatInt_max_toInt a
    have l2 := length_formatInt_max_toInt b
    have l3 := length_formatInt_max_toInt c
    have l4 := length_formatInt_max_toInt d
    simp at l1 l2 l3 l4 ⊢
    omega

/-- A clock reading of `2⁶⁴ - 1` for the period that starts at 5000 µs: `now` and `off` read
back as the negative `long long`s -1 and -5001, and the start line stays inside the buffer. -/
theorem ftraceWrite_stays_in_buffer_wrapped :
    (128 : Int) ≤ 8192 ∧ (0 : Int) ≤ 3 ∧
      ∃ stores n, ftraceWrite .lp64 8192 3 startFormat
          [.longLong (-1), .longLong (-5001), .longLong 5000, .longLong 6000] =
          some (3, .done stores n) ∧ 0 ≤ n ∧ n ≤ 8192 ∧ ∀ st ∈ stores, 0 ≤ st.1 ∧ st.1 < 8192 :=
  have hmem : (startFormat, [.longLong (-1), .longLong (-5001), .longLong 5000, .longLong 6000]) ∈
      doRuntimeTrace 1000 5000 (-1) := by
    decide
  ⟨by decide, by decide, ftraceWrite_stays_in_buffer .lp64 (by decide) (by decide) 1000 5000 (-1) _ hmem⟩

/-- A thread with a deadline of 1000 µs that wakes at 4000 µs for the period that starts at
5000 µs: both lines reach the trace marker whole, and the last reports a latency of 0. -/
theorem ftraceWrite_doRuntimeTrace_early :
    (128 : Int) ≤ 8192 ∧ (0 : Int) ≤ 3 ∧ (1000 : BitVec 64).toNat < 2 ^ 62 ∧
      (5000 : BitVec 64).toNat < 2 ^ 62 ∧ (4000 : BitVec 64).toNat < 2 ^ 62 ∧
      (∀ call ∈ doRuntimeTrace 1000 5000 4000, WritesLine .lp64 8192 3 call) ∧
      (doRuntimeTrace 1000 5000 4000).getLast? =
        some (startFormat, [.longLong (4000 : BitVec 64).toInt,
          .longLong (latency 5000 4000).toInt,
          .longLong (if (4000 : BitVec 64) < 5000 then (4000 : BitVec 64) else 5000).toInt,
          .longLong (nextPeriod 1000 5000 4000).toInt]) :=
  ⟨by decide, by decide, by decide, by decide, by decide,
    ftraceWrite_doRuntimeTrace .lp64 (by decide) (by decide) (by decide) (by decide) (by decide)⟩

end

end CyclicDeadline
