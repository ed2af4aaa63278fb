import Mathlib.Algebra.Group.Int
import Mathlib.Tactic.Common

/-!
# Signed C arithmetic and the two data models

The program does its arithmetic in C's `int`, `long` and `long long`, where a result that
leaves the type is undefined behaviour. `signedResult bits x` is the value of an operation whose
exact result is `x` in a signed type of `bits` bits: `some x` when `x` is a value of the type and
`none` when the operation overflows. `signedResult_eq_some` is the one lemma callers use;
`signedDiv` is C's `/`, which rounds toward zero.

`DataModel` names the two data models the code is written for: `ILP32`, with 32-bit `long`
(and `time_t`), and `LP64`, with 64-bit `long`. `my_vsprintf` asks `sizeof(long) == 8` to choose
between them, and `get_time_us` multiplies a `time_t`.
-/

set_option autoImplicit false
set_option relaxedAutoImplicit false

namespace CyclicDeadline

/-- The data models of the targets: `ilp32` with 32-bit `int`, `long` and pointers, `lp64` with
32-bit `int` and 64-bit `long` and pointers. -/
inductive DataModel
  | ilp32
  | lp64
deriving DecidableEq, Repr

/-- `sizeof(long)`. -/
def DataModel.sizeofLong : DataModel → Nat
  | .ilp32 => 4
  | .lp64 => 8

/-- The width of `long`, and of `time_t`, in bits. -/
def DataModel.longBits (dm : DataModel) : Nat :=
  8 * dm.sizeofLong

/-- The width of `int` on both data models. -/
def intBits : Nat := 32

/-- The values of a signed C integer type of `bits` bits. -/
def InSigned (bits : Nat) (x : Int) : Prop :=
  -2 ^ (bits - 1) ≤ x ∧ x < 2 ^ (bits - 1)

instance (bits : Nat) (x : Int) : Decidable (InSigned bits x) :=
  inferInstanceAs (Decidable (_ ∧ _))

/-- The value of a signed operation whose exact result is `x`, in a type of `bits` bits: `none`
when `x` is not a value of the type, where C leaves the behaviour undefined. -/
def signedResult (bits : Nat) (x : Int) : Option Int :=
  if InSigned bits x then some x else none

@[simp] theorem signedResult_eq_some {bits : Nat} {x y : Int} :
    signedResult bits x = some y ↔ InSigned bits x ∧ x = y := by
  unfold signedResult
  split_ifs with h <;> simp [h]

@[simp] theorem signedResult_eq_none {bits : Nat} {x : Int} :
    signedResult bits x = none ↔ ¬ InSigned bits x := by
  unfold signedResult
  split_ifs with h <;> simp [h]

/-- An `int` result: `-2³¹ ≤ x < 2³¹`. -/
theorem signedResult_intBits {x : Int} (hlo : -2147483648 ≤ x) (hhi : x < 2147483648) :
    signedResult intBits x = some x :=
  if_pos ⟨hlo, hhi⟩

/-- C's `/` on signed operands of `bits` bits: the quotient rounded toward zero, undefined when
the divisor is zero or the quotient leaves the type (`INT_MIN / -1`). -/
def signedDiv (bits : Nat) (x y : Int) : Option Int :=
  if y = 0 then none else signedResult bits (x.tdiv y)

end CyclicDeadline
