import CyclicDeadline.CpuList.Text

/-!
# `fscanf`: the conversions the program reads files with

`find_mount` reads `/proc/mounts` with `%s` conversions, and `make_cpuset` and `destroy_cpuset`
read the `tasks` files of the cpusets with `%d`. Both follow the C library. A conversion first
skips white space; `%s` then reads the longest run of non-blank characters, at most the field
width when there is one, and `%d` an optional sign and the run of decimal digits after it. A
conversion that meets the end of the file before its field is an input failure; `%d` with no
digit after the sign is a matching failure, which consumes the sign and leaves the character
that stopped it unread.

`scanString_word` and `scanInt_formatInt` are the round trips: a field without blanks followed by
a blank reads back as itself, and so does every value `%d` prints, followed by a non-digit.
`scanString_suffix` and `scanInt_suffix` show that a conversion only consumes input, and
`scanString_lt` and `scanInt_lt` that `%s` without a width and a `%d` that stores consume at
least one character, which bounds the reading loops.
-/

set_option autoImplicit false
set_option relaxedAutoImplicit false

namespace CyclicDeadline

/-- The characters a `%s` conversion reads from `start`, the input after the white space: the
longest run of non-blank characters, cut to the field width when the conversion has one. -/
def stringField (width : Option Nat) (start : List Char) : List Char :=
  match width with
  | some w => (start.takeWhile fun c ↦ !isSpace c).take w
  | none => start.takeWhile fun c ↦ !isSpace c

/-- A `%s` conversion with the field width `width`: the field it stores and the input after it,
or `none`, an input failure, when the file ends before the field. -/
def scanString (width : Option Nat) (input : List Char) : Option (List Char × List Char) :=
  let start := input.dropWhile isSpace
  if start = [] then none
  else some (stringField width start, start.drop (stringField width start).length)

/-- The sign a `%d` conversion reads at `start`, and the input after it. -/
def takeSign : List Char → Int × List Char
  | '-' :: rest => (-1, rest)
  | '+' :: rest => (1, rest)
  | start => (1, start)

/-- The digits of a `%d` conversion after the sign `sign`: the value it stores, `none` when no
digit follows (the end of the file, or another character), and the input after the digits. -/
def scanDigits (sign : Int) (afterSign : List Char) : Option Int × List Char :=
  (if afterSign.takeWhile Char.isDigit = [] then none else some (sign * digitsValue afterSign),
    afterSign.dropWhile Char.isDigit)

/-- A `%d` conversion: the value it stores, or `none`, and the input after what it consumed. A
value outside `int` is undefined in C; the model keeps the value of the digits. -/
def scanInt (input : List Char) : Option Int × List Char :=
  let signed := takeSign (input.dropWhile isSpace)
  scanDigits signed.1 signed.2

/-- A field `%s` reads whole: not empty, and without white space. -/
def Word (w : List Char) : Prop :=
  w ≠ [] ∧ ∀ c ∈ w, isSpace c = false

instance (w : List Char) : Decidable (Word w) :=
  inferInstanceAs (Decidable (_ ∧ _))

theorem isSpace_blank : isSpace ' ' = true := rfl

theorem isSpace_newline : isSpace '\n' = true := rfl

/-! ### What a conversion consumes -/

section

variable {width : Option Nat} {input field rest : List Char}

theorem scanString_suffix (h : scanString width input = some (field, rest)) : rest <:+ input := by
  dsimp only [scanString] at h
  split_ifs at h
  cases h
  exact (List.drop_suffix _ _).trans (List.dropWhile_suffix _)

/-- `%s` without a width reads at least the first non-blank character. -/
theorem scanString_lt (h : scanString none input = some (field, rest)) :
    rest.length < input.length := by
  dsimp only [scanString] at h
  split_ifs at h with hstart
  cases h
  have hhead := List.head_dropWhile_not isSpace input hstart
  have hle := (List.dropWhile_suffix isSpace (l := input)).length_le
  obtain ⟨c, cs, hcs⟩ := List.exists_cons_of_ne_nil hstart
  simp only [hcs, List.head_cons] at hhead hle ⊢
  simp only [stringField, List.takeWhile_cons, hhead, Bool.not_false, ↓reduceIte, List.length_cons,
    List.drop_succ_cons, List.length_drop, List.length_cons] at hle ⊢
  omega

theorem takeSign_suffix (start : List Char) : (takeSign start).2 <:+ start := by
  unfold takeSign
  split
  · exact List.suffix_cons _ _
  · exact List.suffix_cons _ _
  · exact List.suffix_refl _

theorem scanInt_suffix (input : List Char) : (scanInt input).2 <:+ input :=
  (List.dropWhile_suffix _).trans ((takeSign_suffix _).trans (List.dropWhile_suffix _))

/-- A `%d` conversion that stores a value has read at least one digit. -/
theorem scanDigits_lt {sign value : Int} {afterSign : List Char}
    (h : (scanDigits sign afterSign).1 = some value) :
    (scanDigits sign afterSign).2.length < afterSign.length := by
  unfold scanDigits at h ⊢
  cases afterSign with
  | nil => simp at h
  | cons c cs =>
    by_cases hc : c.isDigit = true
    · have hle := (List.dropWhile_suffix Char.isDigit (l := cs)).length_le
      simp only [List.dropWhile_cons_of_pos hc, List.length_cons]
      omega
    · simp [List.takeWhile_cons_of_neg hc] at h

theorem scanInt_lt {input : List Char} {value : Int} (h : (scanInt input).1 = some value) :
    (scanInt input).2.length < input.length :=
  lt_of_lt_of_le (scanDigits_lt h) ((takeSign_suffix _).trans (List.dropWhile_suffix _)).length_le

end

/-! ### Round trips -/

section

variable {w : List Char} {c : Char}

theorem scanString_blank (width : Option Nat) (hc : isSpace c = true) (input : List Char) :
    scanString width (c :: input) = scanString width input := by
  simp only [scanString, List.dropWhile_cons_of_pos hc]

theorem scanInt_blank (hc : isSpace c = true) (input : List Char) :
    scanInt (c :: input) = scanInt input := by
  simp only [scanInt, List.dropWhile_cons_of_pos hc]

theorem Word.dropWhile_append (hw : Word w) (rest : List Char) :
    (w ++ rest).dropWhile isSpace = w ++ rest := by
  obtain ⟨d, ds, rfl⟩ := List.exists_cons_of_ne_nil hw.1
  rw [List.cons_append, List.dropWhile_cons_of_neg (by simp [hw.2 d (List.mem_cons_self d ds)])]

theorem Word.takeWhile_append (hw : Word w) (hc : isSpace c = true) (rest : List Char) :
    (w ++ c :: rest).takeWhile (fun x ↦ !isSpace x) = w := by
  rw [List.takeWhile_append_of_pos (by simpa using hw.2), List.takeWhile_cons_of_neg (by simp [hc]),
    List.append_nil]

/-- On a word that fits the width followed by a blank, `%s` reads the word and stops at the blank.
-/
theorem scanString_word {width : Option Nat} (hw : Word w) (hfit : ∀ n ∈ width, w.length ≤ n)
    (hc : isSpace c = true) (rest : List Char) :
    scanString width (w ++ c :: rest) = some (w, c :: rest) := by
  have hfield : stringField width (w ++ c :: rest) = w := by
    cases width with
    | none => exact hw.takeWhile_append hc rest
    | some n => rw [stringField, hw.takeWhile_append hc rest, List.take_of_length_le (hfit n rfl)]
  rw [scanString, hw.dropWhile_append, if_neg (by simp [hw.1]), hfield, List.drop_left]

theorem takeSign_digit (hc : c.isDigit = true) (rest : List Char) :
    takeSign (c :: rest) = (1, c :: rest) := by
  obtain ⟨-, hminus, hplus, -⟩ := digit_ne hc
  unfold takeSign
  split <;> simp_all

theorem scanDigits_append {ds rest : List Char} (sign : Int) (hne : ds ≠ [])
    (hds : ∀ d ∈ ds, d.isDigit = true) (hrest : StopsDigits rest) :
    scanDigits sign (ds ++ rest) = (some (sign * digitsValue ds), rest) := by
  rw [scanDigits, takeWhile_digits_append hds hrest, dropWhile_digits_append hds hrest,
    digitsValue_digits_append hds hrest, if_neg hne]

/-- When the text after the value does not start with a digit, `%d` reads back every value `%d`
prints, negative ones included. -/
theorem scanInt_formatInt (value : Int) {rest : List Char} (hrest : StopsDigits rest) :
    scanInt (formatInt value ++ rest) = (some value, rest) := by
  have hdigits (n : Nat) :
      scanDigits 1 (Nat.toDigits 10 n ++ rest) = (some (n : Int), rest) ∧ Nat.toDigits 10 n ≠ [] := by
    obtain ⟨k, ds, hds⟩ := toDigits_head n
    have hvalue := digitsValue_toDigits_append n stopsDigits_nil
    rw [List.append_nil] at hvalue
    rw [scanDigits_append 1 (by simp [hds]) (isDigit_of_mem_toDigits n) hrest, hvalue, one_mul]
    exact ⟨rfl, by simp [hds]⟩
  cases value with
  | ofNat n =>
    obtain ⟨hscan, hne⟩ := hdigits n
    obtain ⟨d, ds, hds⟩ := List.exists_cons_of_ne_nil hne
    have hd := isDigit_of_mem_toDigits n d (by simp [hds])
    change scanInt (Nat.toDigits 10 n ++ rest) = _
    rw [scanInt, hds, List.cons_append, List.dropWhile_cons_of_neg (by simp [(digit_ne hd).1]),
      takeSign_digit hd, ← List.cons_append, ← hds, hscan]
    rfl
  | negSucc n =>
    have hscan := scanDigits_append (-1) (hdigits (n + 1)).2 (isDigit_of_mem_toDigits (n + 1)) hrest
    have hvalue := digitsValue_toDigits_append (n + 1) stopsDigits_nil
    rw [List.append_nil] at hvalue
    rw [formatInt, List.cons_append, scanInt, List.dropWhile_cons_of_neg (by decide), takeSign,
      hscan, hvalue, Int.negSucc_eq]
    simp

end

end CyclicDeadline
