import CyclicDeadline.CpuList.Overflow
import Mathlib.Order.Interval.Finset.Nat

/-!
# The strings `calc_nr_cpus` accepts

`calcLoop_accepts_cpuListText`: the token loop of `calc_nr_cpus` finishes without `goto err`,
within one pass per character and one more, exactly on the strings of the grammar `CpuListText`;
it then holds the `cpu_list` that `add_cpus` builds from their ranges in the order they are
written (`addRanges`). On any other string the loop ends at `goto err` or never finishes
(`calcNrCpus_never_returns`). The loop with its `int` arithmetic checked finishes only on the
same strings, and on every one whose numbers are below `INT_MAX` it finishes with the same list.

Completeness is `calcLoop_cpuListText` of `Parse`. Soundness is `cpuListText_of_calcLoop`,
from `calcStep_eq_some`: a pass
either reads a token that ends at a comma or the NUL, or leaves text that does not start with a
digit, as no nonempty string of the grammar does.

When the ranges of the text come in increasing order of start, every insertion touches a node
or lies past all of them, so `add_cpus` keeps the list canonical (`addRanges_sorted`), and
`calcNrCpus_sorted` shows that `calc_nr_cpus` then does what it is for: it builds the canonical
list of the CPUs the text names, writes its rendering, and returns their number
(`sum_width_eq_card`), or `-1` when one is not below `cpu_count`. When the numbers of the text are below `INT_MAX` as well,
`calcNrCpusChecked_sorted` shows that no `atoi` and no `int` expression of the code is undefined
on the way.
-/

set_option autoImplicit false
set_option relaxedAutoImplicit false

namespace CyclicDeadline

/-! ### Digits and `atoi` -/

theorem stopsDigits_dropWhile : ∀ p : List Char, StopsDigits (p.dropWhile Char.isDigit)
  | [] => stopsDigits_nil
  | c :: p => by
    by_cases hc : c.isDigit = true
    · rw [List.dropWhile_cons_of_pos hc]
      exact stopsDigits_dropWhile p
    · rw [List.dropWhile_cons_of_neg hc]
      exact stopsDigits_cons (by simpa using hc)

/-- Text that starts with a digit is a nonempty run of digits followed by text that does not. -/
theorem exists_digits_append {p : List Char} (hp : ¬ StopsDigits p) :
    ∃ ds rest, ds ≠ [] ∧ (∀ c ∈ ds, c.isDigit = true) ∧ StopsDigits rest ∧ p = ds ++ rest := by
  obtain ⟨c, q, rfl, hc⟩ : ∃ c q, p = c :: q ∧ c.isDigit = true := by
    rcases p with _ | ⟨c, q⟩
    · exact absurd stopsDigits_nil hp
    · exact ⟨c, q, rfl, by simpa [StopsDigits] using hp⟩
  exact ⟨(c :: q).takeWhile Char.isDigit, (c :: q).dropWhile Char.isDigit,
    by simp [List.takeWhile_cons, hc], fun _ hx ↦ List.mem_takeWhile_imp hx,
    stopsDigits_dropWhile _, (List.takeWhile_append_dropWhile _ _).symm⟩

/-- On text that does not start with a digit but on which `atoi` is positive, the text starts with
white space or a plus sign. -/
theorem isSpace_or_plus_of_atoi_pos {p : List Char} (hp : StopsDigits p) (hpos : 0 < atoi p) :
    ∃ c q, p = c :: q ∧ (isSpace c = true ∨ c = '+') := by
  rcases p with _ | ⟨c, q⟩
  · simp [atoi, digitsValue] at hpos
  · refine ⟨c, q, rfl, ?_⟩
    by_cases hspace : isSpace c = true
    · exact .inl hspace
    · rw [atoi, List.dropWhile_cons_of_neg (by simpa using hspace)] at hpos
      split at hpos
      · omega
      · rename_i hcons
        exact .inr (List.cons.inj hcons).1
      · simp [digitsValue, List.takeWhile_cons, hp c rfl] at hpos

/-- On text that does not start with a digit, when the number `atoi` reads there, which is at least
`cpu ≥ 0`, causes no `goto err`, that number is positive. -/
theorem atoi_pos_of_stopsDigits {p : List Char} (hp : StopsDigits p) {cpu : Int} (hcpu : 0 ≤ cpu)
    (hok : ¬ (atoi p < cpu ∨ (atoi p = 0 ∧ p.head? ≠ some '0'))) : 0 < atoi p := by
  have hzero : p.head? ≠ some '0' := fun h ↦ absurd (hp '0' h) (by decide)
  push_neg at hok
  exact lt_of_le_of_ne (hcpu.trans hok.1) fun h ↦ hzero (hok.2 h.symm)

/-- On text that does not start with a digit but on which `atoi` is positive, a pass that reads the
number there stays where it is. -/
theorem stuck_of_atoi_pos {p : List Char} (hp : StopsDigits p) (hpos : 0 < atoi p) :
    p.dropWhile Char.isDigit = p ∧ p.head? ≠ some '-' ∧ p ≠ [] ∧ skipComma p = p := by
  obtain ⟨c, q, rfl, hc⟩ := isSpace_or_plus_of_atoi_pos hp hpos
  have hsign : c ≠ '-' ∧ c ≠ ',' := by
    rcases hc with hc | rfl
    · constructor <;> rintro rfl <;> simp [isSpace] at hc
    · decide
  refine ⟨List.dropWhile_cons_of_neg (by simpa using hp c rfl), by simpa using hsign.1,
    List.cons_ne_nil c q, ?_⟩
  simp [skipComma, hsign.2]

/-- Where a pass ends after a token: at the NUL, or at a comma it skips, or at text that does
not start with a digit. -/
theorem skipComma_cases {tok rest q : List Char} (hrest : StopsDigits rest)
    (hq : skipComma rest = q) :
    (tok ++ rest = tok ∧ q = [] ∨ tok ++ rest = tok ++ ',' :: q) ∨ (q ≠ [] ∧ StopsDigits q) := by
  subst hq
  rcases rest with _ | ⟨c, rest⟩
  · simp [skipComma]
  · by_cases hc : c = ','
    · subst hc
      simp [skipComma]
    · simp only [skipComma, List.head?_cons, Option.some.injEq, hc, if_false]
      exact .inr ⟨List.cons_ne_nil c rest, hrest⟩

/-! ### The grammar -/

theorem CpuListText.not_stopsDigits {p : List Char} {ranges : List (Nat × Nat)}
    (h : CpuListText p ranges) (hne : p ≠ []) : ¬ StopsDigits p := by
  cases h with
  | empty => exact absurd rfl hne
  | last htok =>
    obtain ⟨c, cs, rfl, hc⟩ := htok.exists_cons
    simp [StopsDigits, hc]
  | cons htok _ =>
    obtain ⟨c, cs, rfl, hc⟩ := htok.exists_cons
    simp [StopsDigits, hc]

/-- A text of the grammar names at most one range per character. -/
theorem CpuListText.length_le {p : List Char} {ranges : List (Nat × Nat)}
    (h : CpuListText p ranges) : ranges.length ≤ p.length := by
  induction h with
  | empty => exact le_rfl
  | last htok =>
    obtain ⟨c, cs, rfl, -⟩ := htok.exists_cons
    simp
  | cons htok _ ih =>
    obtain ⟨c, cs, rfl, -⟩ := htok.exists_cons
    simp
    omega

/-! ### One pass -/

/-- What a pass that does not end at `goto err` has read: a token followed by the NUL or a
comma, or it leaves text that does not start with a digit. -/
theorem calcStep_eq_some {p q : List Char} {cpuList cpuList' : List CpuList}
    (h : calcStep p cpuList = some (q, cpuList')) :
    (∃ tok a b, CpuToken tok a b ∧ cpuList' = addCpus cpuList a b ∧
        (p = tok ∧ q = [] ∨ p = tok ++ ',' :: q)) ∨ (q ≠ [] ∧ StopsDigits q) := by
  dsimp only [calcStep] at h
  split at h
  · cases h
  rename_i hok
  by_cases hp : StopsDigits p
  · -- a space or a plus sign before a number: the pass does not move
    obtain ⟨hdrop, hdash, hne, hskip⟩ := stuck_of_atoi_pos hp (atoi_pos_of_stopsDigits hp le_rfl hok)
    simp only [hdrop, hdash, if_false, Option.map_some', Option.some.injEq, Prod.mk.injEq] at h
    rw [← h.1, hskip]
    exact .inr ⟨hne, hp⟩
  obtain ⟨ds, rest, hne, hds, hrest, rfl⟩ := exists_digits_append hp
  have hrun : DigitRun ds (digitsValue ds) := ⟨hne, hds, rfl⟩
  rw [atoi_digits_append hne hds hrest, dropWhile_digits_append hds hrest] at h
  split at h
  · -- `a-b`
    rename_i hdash
    obtain ⟨t, rfl⟩ : ∃ t, rest = '-' :: t := by
      rcases rest with _ | ⟨c, t⟩
      · cases hdash
      · exact ⟨t, by simpa using hdash⟩
    rw [List.tail_cons, calcEnd] at h
    split at h
    · cases h
    rename_i hok'
    by_cases ht : StopsDigits t
    · obtain ⟨hdrop, -, hne', hskip⟩ :=
        stuck_of_atoi_pos ht (atoi_pos_of_stopsDigits ht (Int.natCast_nonneg _) hok')
      simp only [hdrop, Option.map_some', Option.some.injEq, Prod.mk.injEq] at h
      rw [← h.1, hskip]
      exact .inr ⟨hne', ht⟩
    obtain ⟨ds', r, hne', hds', hr, rfl⟩ := exists_digits_append ht
    rw [atoi_digits_append hne' hds' hr, dropWhile_digits_append hds' hr] at h
    simp only [Option.map_some', Option.some.injEq, Prod.mk.injEq] at h
    rw [atoi_digits_append hne' hds' hr] at hok'
    push_neg at hok'
    have htok : CpuToken (ds ++ '-' :: ds') (digitsValue ds) (digitsValue ds') :=
      .range hrun ⟨hne', hds', rfl⟩ (by exact_mod_cast hok'.1)
    rw [show ds ++ '-' :: (ds' ++ r) = (ds ++ '-' :: ds') ++ r by simp]
    rcases skipComma_cases hr h.1 with hend | hstuck
    · exact .inl ⟨_, _, _, htok, h.2.symm, hend⟩
    · exact .inr hstuck
  · -- a single CPU
    simp only [Option.map_some', Option.some.injEq, Prod.mk.injEq] at h
    rcases skipComma_cases hrest h.1 with hend | hstuck
    · exact .inl ⟨_, _, _, .single hrun, h.2.symm, hend⟩
    · exact .inr hstuck

/-! ### The loop -/

/-- A loop that finishes without `goto err` has read a text of the grammar and added its ranges
in order. -/
theorem cpuListText_of_calcLoop : ∀ {fuel : Nat} {p : List Char} {cpuList cpuList' : List CpuList},
    calcLoop fuel p cpuList = some (some cpuList') →
      ∃ ranges, CpuListText p ranges ∧ cpuList' = addRanges cpuList ranges
  | 0, _, _, _, h => by cases h
  | fuel + 1, p, cpuList, cpuList', h => by
    rw [calcLoop] at h
    split at h
    · rename_i hp
      cases h
      exact ⟨[], hp ▸ .empty, rfl⟩
    split at h
    · cases h
    rename_i q next hstep
    obtain ⟨ranges, hq, rfl⟩ := cpuListText_of_calcLoop h
    rcases calcStep_eq_some hstep with ⟨tok, a, b, htok, rfl, ⟨rfl, rfl⟩ | rfl⟩ | ⟨hne, hstops⟩
    · have hnil : ranges = [] := List.length_eq_zero.1 (Nat.le_zero.1 hq.length_le)
      subst hnil
      exact ⟨[(a, b)], .last htok, rfl⟩
    · exact ⟨(a, b) :: ranges, .cons htok hq, rfl⟩
    · exact absurd hstops (hq.not_stopsDigits hne)

/-- On a text of the grammar whose ranges end below `INT_MAX`, the checked loop reads the text to
the NUL within one pass per character and one more, and holds the list `add_cpus` builds from its
ranges. -/
theorem calcLoopChecked_addRanges (cpuCount : Int) {p : List Char} {ranges : List (Nat × Nat)}
    (hp : CpuListText p ranges) (hint : ∀ range ∈ ranges, (range.2 : Int) < 2147483647) :
    calcLoopChecked cpuCount (p.length + 1) p [] = some (some (some (addRanges [] ranges))) := by
  rw [calcLoopChecked_cpuListText cpuCount hp (fun range hrange ↦ (hint range hrange).le) _
      (Nat.lt_succ_of_le hp.length_le) [], addRangesChecked_eq_some
      (fun range hrange ↦ ⟨hp.range_le range hrange, hint range hrange⟩) (List.forall_mem_nil _)]
  rfl

/-- The token loop of `calc_nr_cpus` finishes without `goto err`, with its `int` arithmetic
checked or not, only on texts of the grammar, and then holds the list `add_cpus` builds from
their ranges in the order they are written. On every text of the grammar it finishes, within a
pass per character and one more, with that list; when every number of the text is below
`INT_MAX`, so does the checked loop, with no undefined `atoi` or `int` expression. -/
theorem calcLoop_accepts_cpuListText (p : List Char) (cpuCount : Int) :
    (∀ cpuList, ((∃ fuel, calcLoop fuel p [] = some (some cpuList)) ∨
        ∃ fuel, calcLoopChecked cpuCount fuel p [] = some (some (some cpuList))) →
      ∃ ranges, CpuListText p ranges ∧ cpuList = addRanges [] ranges) ∧
    ∀ ranges, CpuListText p ranges →
      calcLoop (p.length + 1) p [] = some (some (addRanges [] ranges)) ∧
      ((∀ range ∈ ranges, (range.2 : Int) < 2147483647) →
        calcLoopChecked cpuCount (p.length + 1) p [] = some (some (some (addRanges [] ranges)))) := by
  refine ⟨fun cpuList h ↦ ?_, fun ranges hp ↦
    ⟨calcLoop_cpuListText hp _ (Nat.lt_succ_of_le hp.length_le) [], calcLoopChecked_addRanges cpuCount hp⟩⟩
  rcases h with ⟨fuel, h⟩ | ⟨fuel, h⟩
  · exact cpuListText_of_calcLoop h
  · exact cpuListText_of_calcLoop (calcLoopChecked_eq cpuCount fuel p [] _ h).symm

/-- `0-3,7` with eight CPUs: both loops read it to the NUL and hold the list of its ranges. -/
theorem calcLoop_accepts_cpuListText_two_ranges :
    CpuListText "0-3,7".toList [(0, 3), (7, 7)] ∧
      (∀ range ∈ [((0 : Nat), (3 : Nat)), (7, 7)], (range.2 : Int) < 2147483647) ∧
      calcLoop ("0-3,7".toList.length + 1) "0-3,7".toList [] =
        some (some (addRanges [] [(0, 3), (7, 7)])) ∧
      calcLoopChecked 8 ("0-3,7".toList.length + 1) "0-3,7".toList [] =
        some (some (some (addRanges [] [(0, 3), (7, 7)]))) := by
  have htext : CpuListText "0-3,7".toList [(0, 3), (7, 7)] := by
    have hsplit : "0-3,7".toList = (['0'] ++ '-' :: ['3']) ++ ',' :: ['7'] := rfl
    rw [hsplit]
    exact .cons (.range (digitRun_singleton rfl rfl) (digitRun_singleton rfl rfl) (by omega))
      (.last (.single (digitRun_singleton rfl rfl)))
  have hint : ∀ range ∈ [((0 : Nat), (3 : Nat)), (7, 7)], (range.2 : Int) < 2147483647 := by decide
  obtain ⟨hloop, hchecked⟩ := (calcLoop_accepts_cpuListText "0-3,7".toList 8).2 _ htext
  exact ⟨htext, hint, hloop, hchecked hint⟩

/-! ### Ranges in increasing order -/

/-- For a canonical list whose nodes start at or below the start of every range, and valid ranges in
increasing order of start, each insertion touches a node or lies past all of them, so the list stays
canonical, and it gains exactly the CPUs of the ranges. -/
theorem addRanges_sorted : ∀ {ranges : List (Nat × Nat)} {cpuList : List CpuList},
    Canonical cpuList → (∀ range ∈ ranges, range.1 ≤ range.2) →
    ranges.Sorted (fun range range' ↦ range.1 ≤ range'.1) →
    (∀ node ∈ cpuList, ∀ range ∈ ranges, node.startCpu ≤ range.1) →
    Canonical (addRanges cpuList ranges) ∧ ∀ cpu, covers (addRanges cpuList ranges) cpu ↔
      covers cpuList cpu ∨ ∃ range ∈ ranges, (range.1 : Int) ≤ cpu ∧ cpu ≤ range.2
  | [], _, hcanon, _, _, _ => ⟨hcanon, by simp⟩
  | (a, b) :: ranges, cpuList, hcanon, hvalid, hsorted, hstarts => by
    have hab : (a : Int) ≤ b := by exact_mod_cast hvalid (a, b) (List.mem_cons_self _ _)
    have hstart : ∀ node ∈ cpuList, node.startCpu ≤ a := fun node hnode ↦
      hstarts node hnode (a, b) (List.mem_cons_self _ _)
    have hnext : Canonical (addCpus cpuList a b) := by
      refine canonical_addCpus (Int.natCast_nonneg a) hab hcanon ?_
      by_cases hreach : ∃ node ∈ cpuList, (a : Int) ≤ node.endCpu + 1
      · obtain ⟨node, hnode, hreach⟩ := hreach
        have := hstart node hnode
        exact .inl ⟨node, hnode, by omega, hreach⟩
      · push_neg at hreach
        exact .inr fun node hnode ↦ by have := hreach node hnode; omega
    obtain ⟨hcanon', hcovers⟩ := addRanges_sorted hnext
      (fun range hrange ↦ hvalid range (List.mem_cons_of_mem _ hrange)) hsorted.of_cons
      fun node hnode range hrange ↦ by
        have hle : a ≤ range.1 := List.rel_of_sorted_cons hsorted range hrange
        rcases start_mem_addCpus node hnode with h | ⟨other, hother, h⟩
        · rw [h]
          exact_mod_cast hle
        · exact h ▸ hstarts other hother range (List.mem_cons_of_mem _ hrange)
    refine ⟨hcanon', fun cpu ↦ ?_⟩
    rw [addRanges_cons, hcovers, covers_addCpus (Int.natCast_nonneg a) hab hcanon]
    simp only [List.mem_cons, exists_eq_or_imp, or_assoc]

/-! ### Counting the CPUs -/

/-- The CPUs below `bound` that a list covers. -/
def coveredBelow (bound : Nat) (cpuList : List CpuList) : Finset Nat :=
  (Finset.range bound).filter fun cpu ↦ covers cpuList cpu

/-- For a canonical list that ends below `bound`, the widths `count_cpus` adds up are the number of
CPUs it covers. -/
theorem sum_width_eq_card (bound : Nat) : ∀ {cpuList : List CpuList}, Canonical cpuList →
    (∀ node ∈ cpuList, node.endCpu < bound) →
    (cpuList.map CpuList.width).sum = (coveredBelow bound cpuList).card
  | [], _, _ => by simp [coveredBelow]
  | node :: rest, hcanon, hbound => by
    have hvalid := hcanon.valid
    have hend := hbound node (List.mem_cons_self node rest)
    unfold CpuList.Valid at hvalid
    have hnode : (Finset.range bound).filter (fun cpu : Nat ↦
        node.startCpu ≤ cpu ∧ (cpu : Int) ≤ node.endCpu) =
          Finset.Icc node.startCpu.toNat node.endCpu.toNat := by
      ext cpu
      simp only [Finset.mem_filter, Finset.mem_range, Finset.mem_Icc]
      omega
    have hdisjoint : Disjoint ((Finset.range bound).filter fun cpu : Nat ↦
        node.startCpu ≤ cpu ∧ (cpu : Int) ≤ node.endCpu) (coveredBelow bound rest) :=
      Finset.disjoint_filter.2 fun cpu _ hcpu hrest ↦ by
        have := hcanon.lt_of_covers_tail hrest
        omega
    have hsplit : coveredBelow bound (node :: rest) =
        (Finset.range bound).filter (fun cpu : Nat ↦
          node.startCpu ≤ cpu ∧ (cpu : Int) ≤ node.endCpu) ∪ coveredBelow bound rest := by
      rw [coveredBelow, coveredBelow, ← Finset.filter_or]
      simp only [covers_cons]
    rw [List.map_cons, List.sum_cons, sum_width_eq_card bound hcanon.tail
        fun other hother ↦ hbound other (List.mem_cons_of_mem _ hother),
      hsplit, Finset.card_union_of_disjoint hdisjoint, hnode, Nat.card_Icc, CpuList.width]
    omega

/-- For a canonical list that covers exactly the CPUs valid ranges name, the list ends below `bound`
exactly when every range does. -/
theorem ends_lt_iff {cpuList : List CpuList} {ranges : List (Nat × Nat)} (hcanon : Canonical cpuList)
    (hnamed : ∀ cpu : Nat, covers cpuList cpu ↔ namedBy ranges cpu)
    (hvalid : ∀ range ∈ ranges, range.1 ≤ range.2) (bound : Int) :
    (∀ node ∈ cpuList, node.endCpu < bound) ↔ ∀ range ∈ ranges, (range.2 : Int) < bound := by
  constructor
  · intro h range hrange
    obtain ⟨node, hnode, -, hle⟩ := (hnamed range.2).2 ⟨range, hrange, hvalid range hrange, le_rfl⟩
    have := h node hnode
    omega
  · intro h node hnode
    have hnode' := hcanon.1 node hnode
    unfold CpuList.Valid at hnode'
    have hend : ((node.endCpu.toNat : Nat) : Int) = node.endCpu := Int.toNat_of_nonneg (by omega)
    obtain ⟨range, hrange, -, hle⟩ := (hnamed node.endCpu.toNat).1 ⟨node, hnode, by omega, by omega⟩
    have := h range hrange
    omega

/-- For a nonempty text of the grammar whose ranges come in increasing order of start,
`calc_nr_cpus` returns; its list is the canonical list of the CPUs the text names, it writes that
list's rendering, and it returns the number of those CPUs, or `-1` when the text names a CPU that is
not below `cpu_count`. -/
theorem calcNrCpus_sorted {p : List Char} {ranges : List (Nat × Nat)} (hp : CpuListText p ranges)
    (hsorted : ranges.Sorted fun range range' ↦ range.1 ≤ range'.1) (hne : ranges ≠ [])
    (cpuCount : Int) (buf : Option (List Char)) :
    ∃ cpuList, Canonical cpuList ∧ cpuList ≠ [] ∧
      (∀ cpu : Nat, covers cpuList cpu ↔ namedBy ranges cpu) ∧
      calcNrCpus (p.length + 1) cpuCount p buf =
        some (if ∀ range ∈ ranges, (range.2 : Int) < cpuCount then
            ((coveredBelow cpuCount.toNat cpuList).card : Int) else -1,
          some (renderCpus cpuList)) := by
  obtain ⟨hcanon, hcovers⟩ := addRanges_sorted canonical_nil hp.range_le hsorted fun _ h ↦ nomatch h
  have hnamed : ∀ cpu : Nat, covers (addRanges [] ranges) cpu ↔ namedBy ranges cpu := fun cpu ↦ by
    simp [hcovers, namedBy]
  have hlist : addRanges [] ranges ≠ [] := fun hnil ↦ by
    obtain ⟨range, rest, rfl⟩ := List.exists_cons_of_ne_nil hne
    have hfirst := (hnamed range.1).2
      ⟨range, List.mem_cons_self _ _, le_rfl, hp.range_le range (List.mem_cons_self _ _)⟩
    rw [hnil] at hfirst
    exact covers_nil _ hfirst
  have hends := ends_lt_iff hcanon hnamed hp.range_le cpuCount
  refine ⟨_, hcanon, hlist, hnamed, ?_⟩
  rw [calcNrCpus, calcLoop_cpuListText hp _ (Nat.lt_succ_of_le hp.length_le) [], Option.map_some']
  dsimp only
  rw [countCpus_eq, makeNewList_eq hlist]
  by_cases hin : ∀ range ∈ ranges, (range.2 : Int) < cpuCount
  · rw [if_pos (hends.2 hin), if_pos hin, sum_width_eq_card cpuCount.toNat hcanon
      fun node hnode ↦ by have := hends.2 hin node hnode; omega]
  · rw [if_neg (mt hends.1 hin), if_neg hin]

/-- On a text of the grammar whose ranges come in increasing order of start and whose numbers
are below `INT_MAX`, `calc_nr_cpus` evaluates no undefined `atoi` or `int` expression and
returns what the model over unbounded integers computes: the list stays canonical and below
`INT_MAX`, so `count_cpus` adds up at most `INT_MAX` CPUs. -/
theorem calcNrCpusChecked_sorted {p : List Char} {ranges : List (Nat × Nat)}
    (hp : CpuListText p ranges) (hsorted : ranges.Sorted fun range range' ↦ range.1 ≤ range'.1)
    (hint : ∀ range ∈ ranges, (range.2 : Int) < 2147483647) (cpuCount : Int)
    (buf : Option (List Char)) :
    calcNrCpusChecked (p.length + 1) cpuCount p buf = some (calcNrCpus (p.length + 1) cpuCount p buf) := by
  obtain ⟨hcanon, hcovers⟩ := addRanges_sorted canonical_nil hp.range_le hsorted fun _ h ↦ nomatch h
  have hnamed : ∀ cpu : Nat, covers (addRanges [] ranges) cpu ↔ namedBy ranges cpu := fun cpu ↦ by
    simp [hcovers, namedBy]
  have hends := (ends_lt_iff hcanon hnamed hp.range_le ((2147483647 : Nat) : Int)).2 hint
  have hsum : ((addRanges [] ranges).map CpuList.width).sum ≤ 2147483647 := by
    rw [sum_width_eq_card 2147483647 hcanon hends]
    exact_mod_cast (Finset.card_filter_le _ _).trans (Finset.card_range _).le
  rw [calcNrCpusChecked, calcLoopChecked_addRanges cpuCount hp hint, Option.some_bind, calcNrCpus,
    calcLoop_cpuListText hp _ (Nat.lt_succ_of_le hp.length_le) [], Option.map_some']
  dsimp only
  rw [countCpusChecked_eq_some cpuCount hcanon.1 hsum, Option.map_some']

example : calcNrCpus 10 8 "0-3,2-5,7".toList none = some (7, some "0-5,7".toList) := by decide

end CyclicDeadline
