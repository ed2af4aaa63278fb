import CyclicDeadline.CpuList.Text
import CyclicDeadline.CpuList.Insert

/-!
# `calc_nr_cpus`: parsing an affinity expression

`CpuListText` is the grammar of CPU lists: tokens `a` or `a-b` with `a ≤ b`, separated by
commas, with an optional comma after the last; it relates a text to the ranges it names.

`calcStep` is one pass of the token loop of `calc_nr_cpus`, `calcLoop` the loop run for a number
of passes (it may not finish) and `calcNrCpus` the function: the count `count_cpus` returns and
the buffer `make_new_list` writes, once the loop has finished.

On a text of the grammar each pass reads one token as the range it names (`calcToken_token`)
and the comma after it (`calcStep_token`), so the loop reads the text to the NUL and holds
`add_cpus` folded over its ranges, `addRanges` (`calcLoop_cpuListText`). The rendering of valid
ranges is in the grammar (`cpuListText_renderCpus`); that parsing it gives the list back, with
the `int` arithmetic of the code checked, is `calcNrCpusChecked_renderCpus` (`CpuList.Overflow`).
On text where a space or a `+` stands before a positive number, `atoi` reads
the number but the `isdigit` loop does not move, and the pass ends where it began:
`calcNrCpus_never_returns` shows that `calc_nr_cpus("1, 2")` never returns. The range check is
made on the list the insertions leave, and `calcNrCpus_accepts_out_of_range` shows that the
misordered insertion of `add_cpus` lets `5-9,1,6` through with eight CPUs, as the list `5-6`.
-/

set_option autoImplicit false
set_option relaxedAutoImplicit false

namespace CyclicDeadline

/-! ### The grammar of CPU lists -/

/-- A run of decimal digits whose value is `value`. -/
def DigitRun (ds : List Char) (value : Nat) : Prop :=
  ds ≠ [] ∧ (∀ c ∈ ds, c.isDigit = true) ∧ digitsValue ds = value

/-- A token of a CPU list, `a` or `a-b` with `a ≤ b`, and the range it names. -/
inductive CpuToken : List Char → Nat → Nat → Prop
  | single {ds : List Char} {a : Nat} : DigitRun ds a → CpuToken ds a a
  | range {ds ds' : List Char} {a b : Nat} :
      DigitRun ds a → DigitRun ds' b → a ≤ b → CpuToken (ds ++ '-' :: ds') a b

/-- The grammar of CPU lists: tokens separated by commas, with an optional comma after the
last, and the ranges they name in order. -/
inductive CpuListText : List Char → List (Nat × Nat) → Prop
  | empty : CpuListText [] []
  | last {t : List Char} {a b : Nat} : CpuToken t a b → CpuListText t [(a, b)]
  | cons {t rest : List Char} {a b : Nat} {ranges : List (Nat × Nat)} :
      CpuToken t a b → CpuListText rest ranges → CpuListText (t ++ ',' :: rest) ((a, b) :: ranges)

/-- The CPUs a list of ranges names. -/
def namedBy (ranges : List (Nat × Nat)) (cpu : Nat) : Prop :=
  ∃ range ∈ ranges, range.1 ≤ cpu ∧ cpu ≤ range.2

instance (ranges : List (Nat × Nat)) (cpu : Nat) : Decidable (namedBy ranges cpu) :=
  inferInstanceAs (Decidable (∃ range ∈ ranges, _ ∧ _))

theorem digitRun_singleton {c : Char} {value : Nat} (hc : c.isDigit = true)
    (hvalue : digitsValue [c] = value) : DigitRun [c] value :=
  ⟨List.cons_ne_nil _ _, by simpa using hc, hvalue⟩

theorem digitRun_formatInt {value : Int} (hvalue : 0 ≤ value) :
    DigitRun (formatInt value) value.toNat := by
  refine ⟨formatInt_ne_nil hvalue, isDigit_of_mem_formatInt hvalue, ?_⟩
  obtain ⟨n, rfl⟩ := Int.eq_ofNat_of_zero_le hvalue
  simpa using digitsValue_toDigits_append n stopsDigits_nil

/-- The text of a valid range is a token naming it. -/
theorem cpuToken_rangeText {node : CpuList} (hnode : node.Valid) :
    CpuToken (rangeText node.startCpu node.endCpu) node.startCpu.toNat node.endCpu.toNat := by
  unfold rangeText
  split
  · rename_i heq
    rw [← heq]
    exact CpuToken.single (digitRun_formatInt hnode.1)
  · exact CpuToken.range (digitRun_formatInt hnode.1) (digitRun_formatInt (hnode.1.trans hnode.2))
      (Int.toNat_le_toNat hnode.2)

theorem rangeText_ne_nil {node : CpuList} (hnode : node.Valid) :
    rangeText node.startCpu node.endCpu ≠ [] := by
  unfold rangeText
  split
  · exact formatInt_ne_nil hnode.1
  · simp [formatInt_ne_nil hnode.1]

/-- The rendering of valid ranges is in the grammar and names them. -/
theorem cpuListText_renderCpus : ∀ {cpuList : List CpuList}, (∀ node ∈ cpuList, node.Valid) →
    CpuListText (renderCpus cpuList) (cpuList.map fun node ↦ (node.startCpu.toNat, node.endCpu.toNat))
  | [], _ => CpuListText.empty
  | [node], hvalid => CpuListText.last (cpuToken_rangeText (hvalid node (List.mem_singleton_self _)))
  | node :: _ :: _, hvalid =>
    CpuListText.cons (cpuToken_rangeText (hvalid node (List.mem_cons_self _ _)))
      (cpuListText_renderCpus fun other hother ↦ hvalid other (List.mem_cons_of_mem _ hother))

/-! ### The token loop -/

/-- `if (*p == ',') p++`. -/
def skipComma (p : List Char) : List Char :=
  if p.head? = some ',' then p.tail else p

/-- The `-` branch of a token, at the text after the `-`: `end_cpu = atoi(p)` checked against
`cpu`, and the text after its digits; `none` is `goto err`. -/
def calcEnd (cpu : Int) (p : List Char) : Option (Int × List Char) :=
  if atoi p < cpu ∨ (atoi p = 0 ∧ p.head? ≠ some '0') then none
  else some (atoi p, p.dropWhile Char.isDigit)

/-- One pass of the token loop of `calc_nr_cpus`: the text after the token and the list after
`add_cpus`; `none` is `goto err`. -/
def calcStep (p : List Char) (cpuList : List CpuList) : Option (List Char × List CpuList) :=
  let cpu := atoi p
  if cpu < 0 ∨ (cpu = 0 ∧ p.head? ≠ some '0') then none
  else
    let rest := p.dropWhile Char.isDigit
    (if rest.head? = some '-' then calcEnd cpu rest.tail else some (cpu, rest)).map
      fun token ↦ (skipComma token.2, addCpus cpuList cpu token.1)

/-- The token loop of `calc_nr_cpus` run for `fuel` passes: `none` while it has not finished,
`some none` at `goto err`, and `some (some cpu_list)` when `*p` is the NUL. -/
def calcLoop : Nat → List Char → List CpuList → Option (Option (List CpuList))
  | 0, _, _ => none
  | fuel + 1, p, cpuList =>
    if p = [] then some (some cpuList)
    else match calcStep p cpuList with
      | none => some none
      | some (q, cpuList) => calcLoop fuel q cpuList

/-- `calc_nr_cpus(setcpu, &buf)` given `fuel` passes of its loop: `none` if it has not returned
by then, otherwise the value it returns and the new `buf`. -/
def calcNrCpus (fuel : Nat) (cpuCount : Int) (setcpu : List Char) (buf : Option (List Char)) :
    Option (Int × Option (List Char)) :=
  (calcLoop fuel setcpu []).map fun
    | some cpuList => (countCpus cpuCount cpuList, makeNewList cpuList buf)
    | none => (-1, buf)

/-- A loop that has finished gives the same result with one more pass to spare. -/
theorem calcLoop_succ {result : Option (List CpuList)} :
    ∀ {fuel : Nat} {p : List Char} {cpuList : List CpuList},
      calcLoop fuel p cpuList = some result → calcLoop (fuel + 1) p cpuList = some result
  | 0, _, _, h => by cases h
  | fuel + 1, p, cpuList, h => by
    rw [calcLoop] at h ⊢
    by_cases hp : p = []
    · rwa [if_pos hp] at h ⊢
    · rw [if_neg hp] at h ⊢
      rcases hstep : calcStep p cpuList with _ | ⟨q, next⟩
      · rwa [hstep] at h
      · rw [hstep] at h
        exact calcLoop_succ h

/-! ### One pass over a token -/

/-- The value of a run of digits is at least its first digit's. -/
theorem le_foldl_digits (cs : List Char) (value : Nat) :
    value ≤ cs.foldl (fun value c ↦ 10 * value + (c.toNat - '0'.toNat)) value := by
  induction cs generalizing value with
  | nil => exact le_rfl
  | cons c cs ih => exact le_trans (by dsimp only; omega) (ih _)

/-- A run of digits of value zero starts with `0`. -/
theorem DigitRun.head_zero {ds : List Char} (h : DigitRun ds 0) : ds.head? = some '0' := by
  obtain ⟨hne, hds, hvalue⟩ := h
  obtain ⟨c, cs, rfl⟩ := List.exists_cons_of_ne_nil hne
  have hrange := (isDigit_iff_toNat c).1 (hds c (List.mem_cons_self c cs))
  have hle := le_foldl_digits cs (10 * 0 + (c.toNat - '0'.toNat))
  have htake : (c :: cs).takeWhile Char.isDigit = c :: cs := by
    simpa using takeWhile_digits_append hds stopsDigits_nil
  rw [digitsValue, htake, List.foldl_cons] at hvalue
  have h48 : c.toNat = 48 := by simp at hvalue hle; omega
  rw [List.head?_cons, ← Char.ofNat_toNat c, h48]

/-- On a run of digits `calc_nr_cpus` takes its value as a CPU number. -/
theorem DigitRun.not_err {ds : List Char} {value : Nat} (h : DigitRun ds value) (rest : List Char) :
    ¬ ((value : Int) < 0 ∨ ((value : Int) = 0 ∧ (ds ++ rest).head? ≠ some '0')) := by
  rintro (hneg | ⟨hzero, hhead⟩)
  · omega
  · have h0 : value = 0 := by omega
    subst h0
    obtain ⟨c, cs, rfl⟩ := List.exists_cons_of_ne_nil h.1
    have hc := h.head_zero
    rw [List.head?_cons] at hc
    rw [List.cons_append, List.head?_cons] at hhead
    exact hhead hc

/-- The token a pass of `calc_nr_cpus` reads at `p`: `cpu`, `end_cpu` and the text after the
token's digits; `none` is `goto err`. -/
def calcToken (p : List Char) : Option (Int × Int × List Char) :=
  let cpu := atoi p
  if cpu < 0 ∨ (cpu = 0 ∧ p.head? ≠ some '0') then none
  else
    let rest := p.dropWhile Char.isDigit
    (if rest.head? = some '-' then calcEnd cpu rest.tail else some (cpu, rest)).map (cpu, ·)

/-- A pass reads a token and adds its range. -/
theorem calcStep_eq (p : List Char) (cpuList : List CpuList) :
    calcStep p cpuList =
      (calcToken p).map fun token ↦ (skipComma token.2.2, addCpus cpuList token.1 token.2.1) := by
  simp only [calcStep, calcToken]
  split_ifs <;> simp [Option.map_map, Function.comp_def]

/-- A token followed by the NUL or a comma is read as the range it names. -/
theorem calcToken_token {tok : List Char} {a b : Nat} (htok : CpuToken tok a b) {rest : List Char}
    (hrest : rest = [] ∨ rest.head? = some ',') :
    calcToken (tok ++ rest) = some ((a : Int), (b : Int), rest) := by
  obtain ⟨hstops, hnodash⟩ := stopsDigits_of_nil_or_comma hrest
  cases htok with
  | single hds =>
    rw [calcToken, atoi_digits_append hds.1 hds.2.1 hstops, hds.2.2, if_neg (hds.not_err rest)]
    simp [dropWhile_digits_append hds.2.1 hstops, hnodash]
  | range hds hds' hab =>
    rename_i ds ds'
    have hdash : StopsDigits ('-' :: (ds' ++ rest)) := stopsDigits_cons rfl
    rw [List.append_assoc, List.cons_append, calcToken, atoi_digits_append hds.1 hds.2.1 hdash,
      hds.2.2, if_neg (hds.not_err _)]
    simp only [dropWhile_digits_append hds.2.1 hdash, List.head?_cons, if_true, List.tail_cons,
      calcEnd, atoi_digits_append hds'.1 hds'.2.1 hstops, hds'.2.2,
      dropWhile_digits_append hds'.2.1 hstops]
    rw [if_neg]
    · rfl
    · rintro (hlt | hzero)
      · omega
      · exact hds'.not_err rest (.inr hzero)

/-- A token followed by the NUL or a comma: one pass reads it and adds its range. -/
theorem calcStep_token {tok : List Char} {a b : Nat} (htok : CpuToken tok a b) {rest : List Char}
    (hrest : rest = [] ∨ rest.head? = some ',') (cpuList : List CpuList) :
    calcStep (tok ++ rest) cpuList = some (skipComma rest, addCpus cpuList a b) := by
  rw [calcStep_eq, calcToken_token htok hrest]
  rfl

/-! ### Reading a text of the grammar -/

/-- The `cpu_list` after `add_cpus` of each range in turn. -/
def addRanges (cpuList : List CpuList) (ranges : List (Nat × Nat)) : List CpuList :=
  ranges.foldl (fun cpuList range ↦ addCpus cpuList range.1 range.2) cpuList

@[simp] theorem addRanges_nil (cpuList : List CpuList) : addRanges cpuList [] = cpuList := rfl

@[simp] theorem addRanges_cons (cpuList : List CpuList) (range : Nat × Nat)
    (ranges : List (Nat × Nat)) :
    addRanges cpuList (range :: ranges) = addRanges (addCpus cpuList range.1 range.2) ranges :=
  rfl

theorem CpuToken.exists_cons {tok : List Char} {a b : Nat} (h : CpuToken tok a b) :
    ∃ c cs, tok = c :: cs ∧ c.isDigit = true := by
  have hrun : ∀ {ds : List Char} {value : Nat} (rest : List Char), DigitRun ds value →
      ∃ c cs, ds ++ rest = c :: cs ∧ c.isDigit = true := fun rest ⟨hne, hds, _⟩ ↦ by
    obtain ⟨c, cs, rfl⟩ := List.exists_cons_of_ne_nil hne
    exact ⟨c, cs ++ rest, rfl, hds c (List.mem_cons_self c cs)⟩
  cases h with
  | single hds => simpa using hrun [] hds
  | range hds _ _ => exact hrun _ hds

theorem CpuToken.le {tok : List Char} {a b : Nat} (h : CpuToken tok a b) : a ≤ b := by
  cases h with
  | single _ => exact le_rfl
  | range _ _ hab => exact hab

/-- The ranges of a text of the grammar are ranges: each starts at or below its end. -/
theorem CpuListText.range_le {p : List Char} {ranges : List (Nat × Nat)}
    (h : CpuListText p ranges) : ∀ range ∈ ranges, range.1 ≤ range.2 := by
  induction h with
  | empty => exact fun _ h ↦ nomatch h
  | last htok => simpa using htok.le
  | cons htok _ ih => exact List.forall_mem_cons.2 ⟨htok.le, ih⟩

/-- On a text of the grammar, with a pass per range and one more, the loop reads it to the NUL and
adds its ranges in order. -/
theorem calcLoop_cpuListText {p : List Char} {ranges : List (Nat × Nat)} (h : CpuListText p ranges) :
    ∀ fuel, ranges.length < fuel → ∀ cpuList,
      calcLoop fuel p cpuList = some (some (addRanges cpuList ranges)) := by
  induction h with
  | empty =>
    rintro (_ | fuel) hfuel cpuList
    · cases hfuel
    · rfl
  | last htok =>
    rintro (_ | _ | fuel) hfuel cpuList
    · cases hfuel
    · simp at hfuel
    · obtain ⟨c, cs, rfl, -⟩ := htok.exists_cons
      have hstep := calcStep_token htok (Or.inl rfl) cpuList
      rw [List.append_nil] at hstep
      rw [calcLoop, if_neg (List.cons_ne_nil c cs), hstep]
      rfl
  | @cons t rest a b ranges htok _ ih =>
    rintro (_ | fuel) hfuel cpuList
    · cases hfuel
    · rw [calcLoop, if_neg (by simp), @calcStep_token t a b htok (',' :: rest) (Or.inr rfl)]
      exact ih fuel (by simp at hfuel; omega) _

/-! ### Text the loop does not move past -/

/-- At a space before a positive number the pass accepts the number but stays where it is:
`atoi` skips the space and `isdigit` stops at it. -/
theorem calcStep_space (cpuList : List CpuList) :
    calcStep [' ', '2'] cpuList = some ([' ', '2'], addCpus cpuList 2 2) := by
  rfl

theorem calcLoop_space (fuel : Nat) (cpuList : List CpuList) :
    calcLoop fuel [' ', '2'] cpuList = none := by
  induction fuel generalizing cpuList with
  | zero => rfl
  | succ fuel ih =>
    rw [calcLoop, if_neg (List.cons_ne_nil _ _), calcStep_space]
    exact ih _

/-- `calc_nr_cpus("1, 2")` never returns, whatever `cpu_count` and `buf`: after `1,` its loop
reads ` 2` again and again. -/
theorem calcNrCpus_never_returns (fuel : Nat) (cpuCount : Int) (buf : Option (List Char)) :
    calcNrCpus fuel cpuCount "1, 2".toList buf = none := by
  cases fuel with
  | zero => rfl
  | succ fuel =>
    have hloop : calcLoop (fuel + 1) "1, 2".toList [] = calcLoop fuel [' ', '2'] [⟨1, 1⟩] := rfl
    rw [calcNrCpus, hloop, calcLoop_space, Option.map_none']

/-! ### The range check after a misordered insertion -/

/-- With eight CPUs, `5-9,1,6` is in the grammar and names CPU 9, yet `calc_nr_cpus` returns 2 and
writes `5-6`: inserting `1` links it in after `5-9`, and inserting `6` then merges `5-9` forward
over it and ends it at 6. -/
theorem calcNrCpus_accepts_out_of_range :
    CpuListText "5-9,1,6".toList [(5, 9), (1, 1), (6, 6)] ∧
      calcNrCpus 4 8 "5-9,1,6".toList none = some (2, some "5-6".toList) := by
  refine ⟨?_, by decide⟩
  have htext : "5-9,1,6".toList = (['5'] ++ '-' :: ['9']) ++ ',' :: (['1'] ++ ',' :: ['6']) := rfl
  rw [htext]
  exact CpuListText.cons
    (CpuToken.range (digitRun_singleton rfl rfl) (digitRun_singleton rfl rfl) (by omega))
    (CpuListText.cons (CpuToken.single (digitRun_singleton rfl rfl))
      (CpuListText.last (CpuToken.single (digitRun_singleton rfl rfl))))

end CyclicDeadline
