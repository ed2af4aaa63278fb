import CyclicDeadline.Arith.Signed
import CyclicDeadline.CpuList.Text

/-!
# `my_vsprintf`: the formatter of the trace marker

`ftrace_write` formats its message into `sd->buff` with `my_vsprintf(buf, BUFSIZ, fmt, ap)` and
hands the `n` bytes it returns to `write`. `my_vsprintf` knows `%s`, `%d`, `%ld` and `%lld`. It
first stores a NUL at `end[-1]`, then copies the format, checking `s < end` before each format
character: a plain character is stored at `s`; `%s` copies the string with
`strncpy(s, str, end - s)` and advances `s` by its full length; `%d` collects the digits of the
value into `tmp`, least significant first, and stores them at `s` in the right order without
looking at `end`. `sizeof(long) == 8` makes `%ld` read a `long long`.

The model keeps the stores: `vsprintfLoop` returns the stores it makes, in order, as pairs of an
offset from `buf` and a character, and the value `s - buf` it returns; `written` reads the buffer
back as the last store at an offset. `myVsprintf` adds the first store and runs the loop over the
format up to its NUL. The arguments are the caller's (`VaArg`): `va_arg` of an integer type takes
an integer argument of the same size, as the calling conventions of both data models pass it,
and anything else is undefined.

`decimalText_eq` shows that the digit loop prints a non-negative value as `%d` does, and
`written_storeRun` and `written_append` read back a run of stores and a later run over an earlier.
-/

set_option autoImplicit false
set_option relaxedAutoImplicit false

namespace CyclicDeadline

/-- One argument of a variadic call, with the C type the caller passes it as. -/
inductive VaArg
  | int (value : Int)
  | long (value : Int)
  | longLong (value : Int)
  | str (text : List Char)
deriving DecidableEq, Repr

/-- `va_arg(ap, T)` for an integer type `T` of `bytes` bytes: the value of an integer argument of
that size; `none`, undefined, for any other argument. -/
def VaArg.integer (dm : DataModel) (bytes : Nat) : VaArg → Option Int
  | .int value => if bytes = 4 then some value else none
  | .long value => if bytes = dm.sizeofLong then some value else none
  | .longLong value => if bytes = 8 then some value else none
  | .str _ => none

/-- The C string held in `text`: its characters up to the first NUL. -/
def cstr (text : List Char) : List Char :=
  text.takeWhile (· ≠ '\x00')

/-- How a call of `my_vsprintf` ends. -/
inductive PrintOutcome
  /-- It returns `n` after the stores `stores`, in order. -/
  | done (stores : List (Int × Char)) (n : Int)
  /-- It calls `fatal` with the message `msg`. -/
  | fatal (msg : List Char)
  /-- `va_arg` reads an argument that is missing or of another type: undefined. -/
  | undefined
deriving DecidableEq, Repr

/-- The outcome after the stores `first` have been made before it. -/
def PrintOutcome.after (first : List (Int × Char)) : PrintOutcome → PrintOutcome
  | .done stores n => .done (first ++ stores) n
  | outcome => outcome

/-- The stores of the characters `cs` at `s`, `s + 1`, and so on. -/
def storeRun : Int → List Char → List (Int × Char)
  | _, [] => []
  | s, c :: cs => (s, c) :: storeRun (s + 1) cs

/-- The digit loop of `%d`: `while (lng > 0) { tmp[i++] = (lng % 10) + '0'; lng /= 10; }`, the
digits of `lng` least significant first, none when `lng ≤ 0`; `fuel` bounds the passes. -/
def tmpDigits : Nat → Int → List Char
  | 0, _ => []
  | fuel + 1, lng =>
    if lng > 0 then Char.ofNat ((lng % 10).toNat + '0'.toNat) :: tmpDigits fuel (lng / 10) else []

/-- What `%d` stores: `'0'` when `tmp` is empty, otherwise `tmp` from its last digit back. The
loop makes at most `lng` passes. -/
def decimalText (lng : Int) : List Char :=
  let tmp := tmpDigits lng.toNat lng
  if tmp = [] then ['0'] else tmp.reverse

/-- `fatal("Illegal print format '%c'\n", c)`. -/
def illegalFormat (c : Char) : List Char :=
  "Illegal print format '".toList ++ [c] ++ "'\n".toList

/-- The directive `%d` after `l` letters `l`: the size of the integer `va_arg` reads, or the
message of `fatal("Illegal print format l=%d\n", l)`. With `sizeof(long) == 8`, `%ld` reads a
`long long`. -/
def intDirective (dm : DataModel) (l : Nat) : Except (List Char) Nat :=
  let l := if l = 1 ∧ dm.sizeofLong = 8 then 2 else l
  if l = 2 then .ok 8
  else if l > 2 then .error ("Illegal print format l=".toList ++ formatInt l ++ ['\n'])
  else .ok 4

/-- The `switch` of `my_vsprintf` on the conversion character `c` of a directive with `l` letters
`l` before it, with the next store at offset `s` and `end` at offset `size`: the stores it makes,
the offset after them and the arguments left, or how the call ends. `%s` copies the string with
`strncpy(s, str, end - s)` and moves `s` past all of it; `%d` stores the digits of the value. -/
def formatDirective (dm : DataModel) (size : Int) (l : Nat) (c : Char) (ap : List VaArg) (s : Int) :
    Except PrintOutcome (List (Int × Char) × Int × List VaArg) :=
  if c = 's' then
    if l ≠ 0 then .error (.fatal "Illegal print format l used with %s\n".toList)
    else
      match ap with
      | .str text :: ap =>
        let n := (size - s).toNat
        .ok (storeRun s ((cstr text ++ List.replicate n '\x00').take n), s + (cstr text).length, ap)
      | _ => .error .undefined
  else if c = 'd' then
    match intDirective dm l with
    | .error msg => .error (.fatal msg)
    | .ok bytes =>
      match ap with
      | arg :: ap =>
        match arg.integer dm bytes with
        | some lng => .ok (storeRun s (decimalText lng), s + (decimalText lng).length, ap)
        | none => .error .undefined
      | [] => .error .undefined
  else .error (.fatal (illegalFormat c))

/-- The loop of `my_vsprintf` with `end` at offset `size` and the next store at offset `s`.
`none` is the `for` loop over the format; `some l` is inside a directive after `%` and `l` letters
`l` (the label `again`). The stores it makes and how it ends. -/
def vsprintfLoop (dm : DataModel) (size : Int) :
    Option Nat → List Char → List VaArg → Int → PrintOutcome
  | none, [], _, s => .done [] s
  | none, c :: p, ap, s =>
    if s < size then
      if c = '%' then vsprintfLoop dm size (some 0) p ap s
      else (vsprintfLoop dm size none p ap (s + 1)).after [(s, c)]
    else .done [] s
  | some _, [], _, _ => .fatal (illegalFormat '\x00')
  | some l, c :: p, ap, s =>
    if c = 'l' then vsprintfLoop dm size (some (l + 1)) p ap s
    else
      match formatDirective dm size l c ap s with
      | .ok (stores, s, ap) => (vsprintfLoop dm size none p ap s).after stores
      | .error outcome => outcome

/-- `my_vsprintf(buf, size, fmt, ap)` with the arguments `args`: `end[-1] = 0`, then the loop
over the format up to its NUL from `s = buf`. -/
def myVsprintf (dm : DataModel) (size : Int) (fmt : List Char) (args : List VaArg) :
    PrintOutcome :=
  (vsprintfLoop dm size none (cstr fmt) args 0).after [(size - 1, '\x00')]

/-- The character the stores leave at offset `i`: the last one stored there. -/
def written (i : Int) : List (Int × Char) → Option Char
  | [] => none
  | st :: stores => (written i stores).or (if st.1 = i then some st.2 else none)

/-! ### Reading the buffer back -/

/-- A later run of stores wins over an earlier one. -/
theorem written_append (i : Int) (first second : List (Int × Char)) :
    written i (first ++ second) = (written i second).or (written i first) := by
  induction first with
  | nil => simp [written]
  | cons st first ih => rw [List.cons_append, written, ih, written, Option.or_assoc]

/-- Stores that all miss `i` leave nothing there. -/
theorem written_eq_none {i : Int} {stores : List (Int × Char)} (h : ∀ st ∈ stores, st.1 ≠ i) :
    written i stores = none := by
  induction stores with
  | nil => rfl
  | cons st stores ih =>
    rw [written, ih fun other hother ↦ h other (List.mem_cons_of_mem _ hother),
      if_neg (h st (List.mem_cons_self _ _)), Option.none_or]

theorem mem_storeRun {s : Int} {cs : List Char} {st : Int × Char} (h : st ∈ storeRun s cs) :
    s ≤ st.1 ∧ st.1 < s + cs.length := by
  induction cs generalizing s with
  | nil => cases h
  | cons c cs ih =>
    rcases List.mem_cons.mp h with rfl | h
    · simp
    · have := ih h
      simp only [List.length_cons, Nat.cast_add, Nat.cast_one]
      omega

/-- A run of stores from `s` leaves its `k`-th character at `s + k`. -/
theorem written_storeRun (s : Int) (cs : List Char) (k : Nat) (hk : k < cs.length) :
    written (s + k) (storeRun s cs) = cs[k]? := by
  induction cs generalizing s k with
  | nil => cases hk
  | cons c cs ih =>
    cases k with
    | zero =>
      rw [storeRun, written, written_eq_none fun st hst ↦ by have := mem_storeRun hst; omega]
      simp
    | succ k =>
      rw [storeRun, written, show s + ↑(k + 1) = s + 1 + k by push_cast; ring,
        ih (s + 1) k (by simpa using hk), if_neg (by omega)]
      simp

/-! ### One pass of the loop -/

theorem PrintOutcome.after_eq_done {first stores : List (Int × Char)} {n : Int}
    {outcome : PrintOutcome} :
    outcome.after first = .done stores n ↔ ∃ second, outcome = .done second n ∧ stores = first ++ second := by
  cases outcome with
  | done second n' =>
    simp only [PrintOutcome.after, PrintOutcome.done.injEq]
    constructor
    · rintro ⟨rfl, rfl⟩
      exact ⟨second, ⟨rfl, rfl⟩, rfl⟩
    · rintro ⟨_, ⟨rfl, rfl⟩, rfl⟩
      exact ⟨rfl, rfl⟩
  | fatal msg => simp [PrintOutcome.after]
  | undefined => simp [PrintOutcome.after]

section Steps

variable {dm : DataModel} {size s : Int} {p : List Char} {ap : List VaArg}

theorem vsprintfLoop_stop (c : Char) (hge : ¬ s < size) :
    vsprintfLoop dm size none (c :: p) ap s = .done [] s := by
  rw [vsprintfLoop, if_neg hge]

theorem vsprintfLoop_char {c : Char} (hc : c ≠ '%') (hlt : s < size) :
    vsprintfLoop dm size none (c :: p) ap s =
      (vsprintfLoop dm size none p ap (s + ([c] : List Char).length)).after (storeRun s [c]) := by
  rw [vsprintfLoop, if_pos hlt, if_neg hc]
  rfl

theorem vsprintfLoop_percent (hlt : s < size) :
    vsprintfLoop dm size none ('%' :: p) ap s = vsprintfLoop dm size (some 0) p ap s := by
  rw [vsprintfLoop, if_pos hlt, if_pos rfl]

theorem vsprintfLoop_ell (l : Nat) :
    vsprintfLoop dm size (some l) ('l' :: p) ap s = vsprintfLoop dm size (some (l + 1)) p ap s := by
  rw [vsprintfLoop, if_pos rfl]

/-- For a conversion character other than `l` whose directive stores `stores` and moves to `s'` with
the arguments `ap'`, the loop goes on from there. -/
theorem vsprintfLoop_directive {l : Nat} {c : Char} (hc : c ≠ 'l')
    {stores : List (Int × Char)} {s' : Int} {ap' : List VaArg}
    (hdir : formatDirective dm size l c ap s = .ok (stores, s', ap')) :
    vsprintfLoop dm size (some l) (c :: p) ap s = (vsprintfLoop dm size none p ap' s').after stores := by
  rw [vsprintfLoop, if_neg hc, hdir]

theorem formatDirective_str (text : List Char) :
    formatDirective dm size 0 's' (.str text :: ap) s =
      .ok (storeRun s ((cstr text ++ List.replicate (size - s).toNat '\x00').take (size - s).toNat),
        s + (cstr text).length, ap) := by
  rw [formatDirective, if_pos rfl, if_neg (by decide)]

/-- When `va_arg` of the directive's size reads the value `lng`, the integer directives store the
digits of the value they read. -/
theorem formatDirective_int {l : Nat} {arg : VaArg} {lng : Int} {bytes : Nat}
    (hdir : intDirective dm l = .ok bytes) (harg : arg.integer dm bytes = some lng) :
    formatDirective dm size l 'd' (arg :: ap) s =
      .ok (storeRun s (decimalText lng), s + (decimalText lng).length, ap) := by
  unfold formatDirective
  simp only [hdir, harg, if_neg (show 'd' ≠ 's' by decide), if_true]

end Steps

theorem intDirective_d (dm : DataModel) : intDirective dm 0 = .ok 4 := rfl

theorem intDirective_lld (dm : DataModel) : intDirective dm 2 = .ok 8 := rfl

/-- `%ld` reads a `long`: a `long` argument, of `sizeof(long)` bytes, on both data models. -/
theorem intDirective_ld (dm : DataModel) : intDirective dm 1 = .ok dm.sizeofLong := by
  cases dm <;> rfl

/-- When `s < end`, a directive that completes moves `s` forward and stores only from `s` up to
`end` or to its new `s`, whichever is further. -/
theorem formatDirective_bounds {dm : DataModel} {size s s' : Int} {l : Nat} {c : Char}
    {ap ap' : List VaArg} {stores : List (Int × Char)} (hlt : s < size)
    (h : formatDirective dm size l c ap s = .ok (stores, s', ap')) :
    s ≤ s' ∧ ∀ st ∈ stores, s ≤ st.1 ∧ st.1 < max size s' := by
  unfold formatDirective at h
  split_ifs at h
  · split at h
    · cases h
      refine ⟨by omega, fun st hst ↦ ?_⟩
      have := mem_storeRun hst
      simp only [List.length_take, List.length_append, List.length_replicate] at this
      omega
    · cases h
  · split at h
    · cases h
    · split at h
      · split at h
        · cases h
          exact ⟨by omega, fun st hst ↦ by have := mem_storeRun hst; omega⟩
        · cases h
      · cases h

/-- A directive that does not complete ends the call with `fatal` or undefined behaviour. -/
theorem formatDirective_error {dm : DataModel} {size s : Int} {l : Nat} {c : Char}
    {ap : List VaArg} {outcome : PrintOutcome}
    (h : formatDirective dm size l c ap s = .error outcome) (stores : List (Int × Char)) (n : Int) :
    outcome ≠ .done stores n := by
  unfold formatDirective at h
  split_ifs at h <;> (repeat' split at h) <;> cases h <;> simp

/-! ### The digit loop -/

theorem digitChar_ofNat : ∀ k : Fin 10, Char.ofNat (k + '0'.toNat) = Nat.digitChar k := by
  decide

theorem tmpDigits_nonpos (fuel : Nat) {lng : Int} (hlng : lng ≤ 0) : tmpDigits fuel lng = [] := by
  cases fuel <;> simp [tmpDigits, not_lt.mpr hlng]

/-- For `0 < n ≤ fuel`, the digit loop stores the digits of `n` from the last. -/
theorem tmpDigits_eq : ∀ (fuel n : Nat), 0 < n → n ≤ fuel →
    tmpDigits fuel n = (Nat.toDigits 10 n).reverse
  | 0, _, hpos, hle => by omega
  | fuel + 1, n, hpos, hle => by
    have hdigit := digitChar_ofNat ⟨n % 10, Nat.mod_lt _ (by omega)⟩
    have hmod : ((n : Int) % 10).toNat = n % 10 := by omega
    rw [tmpDigits, if_pos (by omega), toDigits_eq, hmod, hdigit]
    split_ifs with hsmall
    · rw [show (n : Int) / 10 = 0 by omega, tmpDigits_nonpos fuel le_rfl]
      rfl
    · rw [show (n : Int) / 10 = ((n / 10 : Nat) : Int) by omega,
        tmpDigits_eq fuel (n / 10) (by omega) (by omega)]
      simp

/-- For `0 ≤ lng`, `%d` stores the value as `printf` prints it. -/
theorem decimalText_eq {lng : Int} (hlng : 0 ≤ lng) : decimalText lng = formatInt lng := by
  obtain ⟨n, rfl⟩ := Int.eq_ofNat_of_zero_le hlng
  rcases Nat.eq_zero_or_pos n with rfl | hpos
  · rfl
  · rw [decimalText, Int.toNat_ofNat, tmpDigits_eq n n hpos le_rfl]
    obtain ⟨k, ds, hds⟩ := toDigits_head n
    simp [hds, formatInt]

/-- `%d` stores `0` for every value that is not positive, as for zero. -/
theorem decimalText_max (lng : Int) : decimalText (max lng 0) = decimalText lng := by
  rcases le_or_lt lng 0 with hle | hpos
  · simp only [decimalText, max_eq_right hle, tmpDigits_nonpos _ hle, tmpDigits_nonpos _ le_rfl]
  · rw [max_eq_left hpos.le]

end CyclicDeadline
