import CyclicDeadline.CpuList.Basic
import Mathlib.Data.Nat.Digits

/-!
# CPU lists as text

The C strings of the affinity code are lists of characters, the characters before the NUL;
`*p` is the head of the list (a NUL when it is empty) and `p++` its tail. `atoi` reads white
space, an optional sign and a run of decimal digits. It is exact on every run whose value fits
in an `int`; past that C's `atoi` is undefined, and `calcTokenChecked` in `CpuList.Overflow`
checks that every `atoi` of `calc_nr_cpus` stays below it.
`formatInt` is what `snprintf` writes for `%d`.

`appendCpus` is `append_cpus`: the range's text goes at offset `total` of the buffer, after
what `realloc` kept. `makeNewList` is `make_new_list`, and `makeNewList_eq` shows it writes
`renderCpus`, the texts `a` or `a-b` of the ranges joined by commas.

The round trip of `%d` and `atoi` is `atoi_formatInt_append`: a non-negative value printed and
followed by anything that does not start with a digit reads back as itself, and
`dropWhile_formatInt_append` shows that the `isdigit` loop then stops right after it.
-/

set_option autoImplicit false
set_option relaxedAutoImplicit false

namespace CyclicDeadline

/-! ### Characters and `atoi` -/

/-- `isspace` in the C locale: space, `\t`, `\n`, `\v`, `\f` and `\r`. -/
def isSpace (c : Char) : Bool :=
  c = ' ' || c = '\t' || c = '\n' || c = '\x0b' || c = '\x0c' || c = '\r'

/-- The value of the run of decimal digits at the start of `p`. -/
def digitsValue (p : List Char) : Nat :=
  (p.takeWhile Char.isDigit).foldl (fun value c ↦ 10 * value + (c.toNat - '0'.toNat)) 0

/-- `atoi(p)`: white space, an optional sign, then the run of digits. -/
def atoi (p : List Char) : Int :=
  match p.dropWhile isSpace with
  | '-' :: q => -(digitsValue q : Int)
  | '+' :: q => digitsValue q
  | q => digitsValue q

/-- `p` does not start with a decimal digit; a NUL is not one. -/
def StopsDigits (p : List Char) : Prop :=
  ∀ c ∈ p.head?, c.isDigit = false

theorem stopsDigits_nil : StopsDigits [] := by
  simp [StopsDigits]

theorem stopsDigits_cons {c : Char} {p : List Char} (hc : c.isDigit = false) :
    StopsDigits (c :: p) := by
  simpa [StopsDigits] using hc

/-- The text after a token: the NUL or a comma. It starts with neither a digit nor a `-`. -/
theorem stopsDigits_of_nil_or_comma {rest : List Char} (hrest : rest = [] ∨ rest.head? = some ',') :
    StopsDigits rest ∧ rest.head? ≠ some '-' := by
  rcases hrest with rfl | hrest
  · exact ⟨stopsDigits_nil, by simp⟩
  · refine ⟨fun c hc ↦ ?_, by simp [hrest]⟩
    rw [hrest, Option.mem_some_iff] at hc
    rw [← hc]
    rfl

/-! ### `%d` -/

/-- The text `snprintf` writes for `%d`. -/
def formatInt : Int → List Char
  | .ofNat n => Nat.toDigits 10 n
  | .negSucc n => '-' :: Nat.toDigits 10 (n + 1)

theorem toDigitsCore_append (fuel n : Nat) (ds : List Char) :
    Nat.toDigitsCore 10 fuel n ds = Nat.toDigitsCore 10 fuel n [] ++ ds := by
  induction fuel generalizing n ds with
  | zero => rfl
  | succ fuel ih =>
    simp only [Nat.toDigitsCore]
    split
    · rfl
    · rw [ih, ih (n / 10) [_], List.append_assoc, List.singleton_append]

theorem toDigitsCore_fuel {fuel fuel' n : Nat} (ds : List Char) (hfuel : n < fuel)
    (hfuel' : n < fuel') : Nat.toDigitsCore 10 fuel n ds = Nat.toDigitsCore 10 fuel' n ds := by
  induction fuel generalizing fuel' n ds with
  | zero => omega
  | succ fuel ih =>
    obtain ⟨fuel', rfl⟩ : ∃ k, fuel' = k + 1 := ⟨fuel' - 1, by omega⟩
    simp only [Nat.toDigitsCore]
    split
    · rfl
    · exact ih _ (by omega) (by omega)

/-- The printer one digit at a time: the digits of `n / 10`, then the last digit. -/
theorem toDigits_eq (n : Nat) :
    Nat.toDigits 10 n =
      (if n < 10 then [] else Nat.toDigits 10 (n / 10)) ++ [Nat.digitChar (n % 10)] := by
  rw [Nat.toDigits, Nat.toDigitsCore]
  split
  · rw [if_pos (by omega)]
    rfl
  · rw [if_neg (by omega), toDigitsCore_append, Nat.toDigits,
      toDigitsCore_fuel [] (show n / 10 < n by omega) (show n / 10 < n / 10 + 1 by omega)]

theorem digitChar_facts : ∀ k : Fin 10, (Nat.digitChar k).isDigit = true ∧
    (Nat.digitChar k).toNat - '0'.toNat = k := by
  decide

theorem isDigit_of_mem_toDigits (n : Nat) : ∀ c ∈ Nat.toDigits 10 n, c.isDigit = true := by
  induction n using Nat.strong_induction_on with
  | _ n ih =>
    rw [toDigits_eq]
    intro c hc
    rcases List.mem_append.mp hc with hc | hc
    · split at hc
      · cases hc
      · exact ih (n / 10) (by omega) c hc
    · rw [List.mem_singleton.mp hc]
      exact (digitChar_facts ⟨n % 10, Nat.mod_lt _ (by omega)⟩).1

/-- The printed digits start with a digit character. -/
theorem toDigits_head (n : Nat) : ∃ (k : Fin 10) (ds : List Char),
    Nat.toDigits 10 n = Nat.digitChar k :: ds := by
  induction n using Nat.strong_induction_on with
  | _ n ih =>
    rw [toDigits_eq]
    split
    · exact ⟨⟨n % 10, Nat.mod_lt _ (by omega)⟩, [], rfl⟩
    · obtain ⟨k, ds, hds⟩ := ih (n / 10) (by omega)
      exact ⟨k, ds ++ _, by rw [hds, List.cons_append]⟩

theorem foldl_toDigits (n : Nat) :
    (Nat.toDigits 10 n).foldl (fun value c ↦ 10 * value + (c.toNat - '0'.toNat)) 0 = n := by
  induction n using Nat.strong_induction_on with
  | _ n ih =>
    have hdigit := (digitChar_facts ⟨n % 10, Nat.mod_lt _ (by omega)⟩).2
    rw [toDigits_eq, List.foldl_append]
    split
    · simp only [List.foldl_cons, List.foldl_nil, hdigit]
      omega
    · simp only [List.foldl_cons, List.foldl_nil, hdigit, ih (n / 10) (by omega)]
      omega

theorem isDigit_iff_toNat (c : Char) : c.isDigit = true ↔ 48 ≤ c.toNat ∧ c.toNat ≤ 57 := by
  simp [Char.isDigit, UInt32.le_def, BitVec.le_def, Char.toNat, UInt32.toNat]

/-- A digit is neither white space, a sign nor a comma. -/
theorem digit_ne {c : Char} (h : c.isDigit = true) :
    isSpace c = false ∧ c ≠ '-' ∧ c ≠ '+' ∧ c ≠ ',' := by
  have hc := (isDigit_iff_toNat c).1 h
  refine ⟨?_, ?_, ?_, ?_⟩
  · simp only [isSpace, Bool.or_eq_false_iff, decide_eq_false_iff_not]
    refine ⟨⟨⟨⟨⟨?_, ?_⟩, ?_⟩, ?_⟩, ?_⟩, ?_⟩ <;> rintro rfl <;> simp at hc
  all_goals rintro rfl; simp at hc

section

variable {ds rest : List Char}

theorem takeWhile_digits_append (hds : ∀ c ∈ ds, c.isDigit = true) (hrest : StopsDigits rest) :
    (ds ++ rest).takeWhile Char.isDigit = ds := by
  rw [List.takeWhile_append_of_pos hds]
  cases rest with
  | nil => simp
  | cons c rest => simp [List.takeWhile_cons, hrest c rfl]

theorem dropWhile_digits_append (hds : ∀ c ∈ ds, c.isDigit = true) (hrest : StopsDigits rest) :
    (ds ++ rest).dropWhile Char.isDigit = rest := by
  rw [List.dropWhile_append_of_pos hds]
  cases rest with
  | nil => rfl
  | cons c rest => simp [List.dropWhile_cons, hrest c rfl]

theorem digitsValue_digits_append (hds : ∀ c ∈ ds, c.isDigit = true) (hrest : StopsDigits rest) :
    digitsValue (ds ++ rest) = digitsValue ds := by
  have hself := takeWhile_digits_append hds stopsDigits_nil
  rw [List.append_nil] at hself
  rw [digitsValue, digitsValue, takeWhile_digits_append hds hrest, hself]

/-- On a nonempty run of digits followed by text that does not start with a digit, `atoi` reads the
value of the run. -/
theorem atoi_digits_append (hne : ds ≠ []) (hds : ∀ c ∈ ds, c.isDigit = true)
    (hrest : StopsDigits rest) : atoi (ds ++ rest) = digitsValue ds := by
  obtain ⟨c, cs, rfl⟩ := List.exists_cons_of_ne_nil hne
  obtain ⟨hspace, hminus, hplus, -⟩ := digit_ne (hds c (List.mem_cons_self c cs))
  rw [atoi, List.cons_append, List.dropWhile_cons_of_neg (by simp [hspace])]
  split
  · rename_i hcons
    exact absurd (List.cons.inj hcons).1 hminus
  · rename_i hcons
    exact absurd (List.cons.inj hcons).1 hplus
  · rw [← List.cons_append, digitsValue_digits_append hds hrest]

end

theorem digitsValue_toDigits_append (n : Nat) {rest : List Char} (hrest : StopsDigits rest) :
    digitsValue (Nat.toDigits 10 n ++ rest) = n := by
  rw [digitsValue, takeWhile_digits_append (isDigit_of_mem_toDigits n) hrest, foldl_toDigits]

/-- On a non-negative value followed by text that does not start with a digit, `atoi` reads back the
value `%d` printed. -/
theorem atoi_formatInt_append {value : Int} (hvalue : 0 ≤ value) {rest : List Char}
    (hrest : StopsDigits rest) : atoi (formatInt value ++ rest) = value := by
  obtain ⟨n, rfl⟩ := Int.eq_ofNat_of_zero_le hvalue
  obtain ⟨k, ds, hds⟩ := toDigits_head n
  change atoi (Nat.toDigits 10 n ++ rest) = n
  have hvalue := digitsValue_toDigits_append n stopsDigits_nil
  rw [List.append_nil] at hvalue
  rw [atoi_digits_append (by simp [hds]) (isDigit_of_mem_toDigits n) hrest, hvalue]

/-- On a non-negative value followed by text that does not start with a digit, the `isdigit` loop
stops right after the printed value. -/
theorem dropWhile_formatInt_append {value : Int} (hvalue : 0 ≤ value) {rest : List Char}
    (hrest : StopsDigits rest) : (formatInt value ++ rest).dropWhile Char.isDigit = rest := by
  obtain ⟨n, rfl⟩ := Int.eq_ofNat_of_zero_le hvalue
  exact dropWhile_digits_append (isDigit_of_mem_toDigits n) hrest

theorem formatInt_ne_nil {value : Int} (hvalue : 0 ≤ value) : formatInt value ≠ [] := by
  obtain ⟨n, rfl⟩ := Int.eq_ofNat_of_zero_le hvalue
  obtain ⟨k, ds, hds⟩ := toDigits_head n
  change Nat.toDigits 10 n ≠ []
  simp [hds]

theorem formatInt_zero : formatInt 0 = ['0'] := rfl

theorem isDigit_of_mem_formatInt {value : Int} (hvalue : 0 ≤ value) :
    ∀ c ∈ formatInt value, c.isDigit = true := by
  obtain ⟨n, rfl⟩ := Int.eq_ofNat_of_zero_le hvalue
  exact isDigit_of_mem_toDigits n

/-! ### `append_cpus` and `make_new_list` -/

/-- The text of one range, `a` or `a-b`, as `append_cpus` prints it. -/
def rangeText (startCpu endCpu : Int) : List Char :=
  if startCpu = endCpu then formatInt startCpu else formatInt startCpu ++ '-' :: formatInt endCpu

/-- `append_cpus(buf, start, end, comma, &total)`: `snprintf` writes `comma` and the range's
text at offset `total` of the buffer `realloc` kept. Returns the buffer and the new `total`. -/
def appendCpus (buf : Option (List Char)) (start endCpu : Int) (comma : List Char)
    (total : Nat) : List Char × Nat :=
  ((buf.getD []).take total ++ (comma ++ rangeText start endCpu),
    total + (comma ++ rangeText start endCpu).length)

/-- The loop of `make_new_list` from the buffer, the separator and `total` so far. -/
def makeNewListFrom : List CpuList → Option (List Char) → List Char → Nat → Option (List Char)
  | [], buf, _, _ => buf
  | node :: rest, buf, comma, total =>
    makeNewListFrom rest (some (appendCpus buf node.startCpu node.endCpu comma total).1) [',']
      (appendCpus buf node.startCpu node.endCpu comma total).2

/-- `make_new_list(cpu_list, &buf)`: the new `buf`, `none` for `NULL`. -/
def makeNewList (cpuList : List CpuList) (buf : Option (List Char)) : Option (List Char) :=
  makeNewListFrom cpuList buf [] 0

/-- The canonical rendering of a list of ranges: their texts joined by commas. -/
def renderCpus : List CpuList → List Char
  | [] => []
  | [node] => rangeText node.startCpu node.endCpu
  | node :: next :: rest => rangeText node.startCpu node.endCpu ++ ',' :: renderCpus (next :: rest)

theorem renderCpus_append_singleton (node : CpuList) : ∀ {cpuList : List CpuList}, cpuList ≠ [] →
    renderCpus (cpuList ++ [node]) =
      renderCpus cpuList ++ ',' :: rangeText node.startCpu node.endCpu
  | [first], _ => rfl
  | first :: second :: rest, _ => by
    rw [List.cons_append, List.cons_append, renderCpus, ← List.cons_append,
      renderCpus_append_singleton node (List.cons_ne_nil second rest), renderCpus]
    simp

theorem makeNewListFrom_eq : ∀ {cpuList : List CpuList}, cpuList ≠ [] →
    ∀ (buf : Option (List Char)) (comma : List Char) (total : Nat),
      makeNewListFrom cpuList buf comma total =
        some ((buf.getD []).take total ++ comma ++ renderCpus cpuList)
  | [node], _, buf, comma, total => by
    simp [makeNewListFrom, appendCpus, renderCpus]
  | node :: next :: rest, _, buf, comma, total => by
    rw [makeNewListFrom, makeNewListFrom_eq (List.cons_ne_nil next rest), appendCpus,
      Option.getD_some, List.take_of_length_le (by simp)]
    simp [renderCpus]

/-- `make_new_list` leaves `buf` alone on an empty list and otherwise writes the rendering of
the list, whatever `buf` held. -/
theorem makeNewList_eq {cpuList : List CpuList} (hne : cpuList ≠ []) (buf : Option (List Char)) :
    makeNewList cpuList buf = some (renderCpus cpuList) := by
  simp [makeNewList, makeNewListFrom_eq hne]

end CyclicDeadline
