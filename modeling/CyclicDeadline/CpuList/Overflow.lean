import CyclicDeadline.Arith.Signed
import CyclicDeadline.CpuList.Parse
import Mathlib.Algebra.Order.BigOperators.Group.List

/-!
# `int` overflow in `add_cpus`, `count_cpus` and `calc_nr_cpus`

The rest of the model computes `add_cpus`, `count_cpus` and `calc_nr_cpus` over unbounded
integers. Here every `int` expression they evaluate is checked (`signedResult`): `end_cpu + 1` in
the search and merge-forward loops of `add_cpus`, `start_cpu - 1` in its overlap check, and the
three operations of `cpus += (end_cpu - start_cpu) + 1` in `count_cpus`, which `calc_nr_cpus` also
runs on its way out through `err`. So is each `atoi` of `calc_nr_cpus`, whose result is undefined
when the number it reads is not an `int` (`calcTokenChecked`). `addCpusChecked`,
`countCpusChecked` and `calcNrCpusChecked` return `none` where one of them leaves `int`, and the
behaviour is undefined.

`calcNrCpusChecked_eq` connects the two levels: whenever nothing overflows, the checked run gives
what `calcNrCpus` gives. The lemmas that follow say when nothing overflows. A list whose values
lie in `0 .. INT_MAX - 1` (`CpuList.BelowIntMax`) keeps them through `add_cpus`
(`addCpus_belowIntMax`), and `add_cpus` evaluates no overflowing expression on it
(`addCpusChecked_eq_some`); `addCpus_covers_canonical_iff` states what it does to a canonical
list there. On a text of the grammar whose numbers are `int`s, the checked loop is the checked
`add_cpus` folded over the ranges (`calcLoopChecked_cpuListText`).

`calcNrCpusChecked_renderCpus` is parsing inverting rendering: on a canonical list of `int`s
whose widths add up to an `int`, `calc_nr_cpus` on the text `make_new_list` writes evaluates
nothing undefined, rebuilds the list, writes the same text and returns the number of CPUs or
`-1`. The bound on the widths is needed even where the count is `-1`:
`calcNrCpus_renderCpus_overflows` shows the canonical list `0-2147483647`, whose one range has
`2³¹` CPUs. `calcNrCpus_overflows` shows that `int` values alone are not enough for other texts:
after `2147483647`, the search for the place of `0` evaluates `2147483647 + 1`.
-/

set_option autoImplicit false
set_option relaxedAutoImplicit false

namespace CyclicDeadline

/-! ### `add_cpus` and `count_cpus` -/

/-- `mergeNext` with `end_cpu + 1` checked each time the loop tests a following node. -/
def mergeNextChecked (endCpu : Int) (node : CpuList) : List CpuList → Option (List CpuList)
  | next :: rest =>
    (signedResult intBits (endCpu + 1)).bind fun endNext ↦
      if next.startCpu ≤ endNext then mergeNextChecked endCpu { node with endCpu := next.endCpu } rest
      else some ((if node.endCpu < endCpu then { node with endCpu := endCpu } else node) :: next :: rest)
  | [] => some [if node.endCpu < endCpu then { node with endCpu := endCpu } else node]

/-- `addCpus` with its `int` expressions checked: `(*cpu_list)->end_cpu + 1` at every node the
search tests (the concatenation test reuses the value at the node where it stops) and
`(*cpu_list)->start_cpu - 1` in the overlap check. -/
def addCpusChecked : List CpuList → Int → Int → Option (List CpuList)
  | [], startCpu, endCpu => some [⟨startCpu, endCpu⟩]
  | node :: rest, startCpu, endCpu =>
    (signedResult intBits (node.endCpu + 1)).bind fun nodeNext ↦
      if nodeNext < startCpu then (addCpusChecked rest startCpu endCpu).map (node :: ·)
      else if endCpu > node.startCpu ∧ startCpu ≤ nodeNext then
        mergeNextChecked endCpu
          (if startCpu < node.startCpu then { node with startCpu := startCpu } else node) rest
      else
        (signedResult intBits (node.startCpu - 1)).map fun nodePrev ↦
          if endCpu ≥ nodePrev then { node with startCpu := startCpu } :: rest
          else node :: ⟨startCpu, endCpu⟩ :: rest

/-- The loop of `count_cpus` with `end_cpu - start_cpu`, its `+ 1` and the sum checked. -/
def countCpusFromChecked (cpuCount : Int) : List CpuList → Int → Bool → Option Int
  | [], cpus, fail => some (if fail then -1 else cpus)
  | node :: rest, cpus, fail =>
    (signedResult intBits (node.endCpu - node.startCpu)).bind fun diff ↦
      (signedResult intBits (diff + 1)).bind fun width ↦
        (signedResult intBits (cpus + width)).bind fun cpus ↦
          countCpusFromChecked cpuCount rest cpus (fail || decide (node.endCpu ≥ cpuCount))

/-- `count_cpus(cpu_list)` with its sums checked. -/
def countCpusChecked (cpuCount : Int) (cpuList : List CpuList) : Option Int :=
  countCpusFromChecked cpuCount cpuList 0 false

theorem mergeNextChecked_eq (endCpu : Int) :
    ∀ (node : CpuList) (rest cpuList : List CpuList),
      mergeNextChecked endCpu node rest = some cpuList → cpuList = mergeNext endCpu node rest
  | node, next :: rest, cpuList, h => by
    obtain ⟨endNext, hnext, h⟩ := Option.bind_eq_some.mp h
    obtain ⟨-, rfl⟩ := signedResult_eq_some.mp hnext
    rw [mergeNext]
    by_cases hle : next.startCpu ≤ endCpu + 1
    · rw [if_pos hle] at h ⊢
      exact mergeNextChecked_eq endCpu _ rest cpuList h
    · rw [if_neg hle] at h ⊢
      exact (Option.some.inj h).symm
  | node, [], cpuList, h => (Option.some.inj h).symm

/-- Whatever the checked `add_cpus` returns is what `add_cpus` computes. -/
theorem addCpusChecked_eq :
    ∀ (cpuList : List CpuList) (startCpu endCpu : Int) (result : List CpuList),
      addCpusChecked cpuList startCpu endCpu = some result →
        result = addCpus cpuList startCpu endCpu
  | [], _, _, _, h => (Option.some.inj h).symm
  | node :: rest, startCpu, endCpu, result, h => by
    obtain ⟨nodeNext, hnext, h⟩ := Option.bind_eq_some.mp h
    obtain ⟨-, rfl⟩ := signedResult_eq_some.mp hnext
    rw [addCpus]
    by_cases hsearch : node.endCpu + 1 < startCpu
    · rw [if_pos hsearch] at h ⊢
      obtain ⟨tail, htail, rfl⟩ := Option.map_eq_some'.mp h
      rw [addCpusChecked_eq rest startCpu endCpu tail htail]
    · rw [if_neg hsearch] at h ⊢
      by_cases hmerge : endCpu > node.startCpu ∧ startCpu ≤ node.endCpu + 1
      · rw [if_pos hmerge] at h ⊢
        exact mergeNextChecked_eq endCpu _ rest result h
      · rw [if_neg hmerge] at h ⊢
        obtain ⟨nodePrev, hprev, rfl⟩ := Option.map_eq_some'.mp h
        obtain ⟨-, rfl⟩ := signedResult_eq_some.mp hprev
        rfl

theorem countCpusFromChecked_eq (cpuCount : Int) :
    ∀ (cpuList : List CpuList) (cpus : Int) (fail : Bool) (result : Int),
      countCpusFromChecked cpuCount cpuList cpus fail = some result →
        result = countCpusFrom cpuCount cpuList cpus fail
  | [], _, _, _, h => (Option.some.inj h).symm
  | node :: rest, cpus, fail, result, h => by
    obtain ⟨diff, hdiff, h⟩ := Option.bind_eq_some.mp h
    obtain ⟨width, hwidth, h⟩ := Option.bind_eq_some.mp h
    obtain ⟨sum, hsum, h⟩ := Option.bind_eq_some.mp h
    obtain ⟨-, rfl⟩ := signedResult_eq_some.mp hdiff
    obtain ⟨-, rfl⟩ := signedResult_eq_some.mp hwidth
    obtain ⟨-, rfl⟩ := signedResult_eq_some.mp hsum
    rw [countCpusFromChecked_eq cpuCount rest _ _ result h, countCpusFrom, add_assoc]

/-! ### Lists on which nothing overflows -/

/-- A node whose start and end lie in `0 .. INT_MAX - 1`: `add_cpus` can compute `end_cpu + 1`
and `start_cpu - 1` of it. -/
def CpuList.BelowIntMax (node : CpuList) : Prop :=
  0 ≤ node.startCpu ∧ node.startCpu < 2147483647 ∧ 0 ≤ node.endCpu ∧ node.endCpu < 2147483647

/-- `add_cpus` of a range of such values keeps every node of such a list within them. -/
theorem addCpus_belowIntMax {startCpu endCpu : Int} (hrange : CpuList.BelowIntMax ⟨startCpu, endCpu⟩)
    {cpuList : List CpuList} (hbound : ∀ node ∈ cpuList, node.BelowIntMax) :
    ∀ other ∈ addCpus cpuList startCpu endCpu, other.BelowIntMax := by
  intro other hother
  obtain ⟨hs0, hs1, he0, he1⟩ :
    0 ≤ startCpu ∧ startCpu < 2147483647 ∧ 0 ≤ endCpu ∧ endCpu < 2147483647 := hrange
  have hstart : 0 ≤ other.startCpu ∧ other.startCpu < 2147483647 := by
    rcases start_mem_addCpus other hother with h | ⟨node, hnode, h⟩
    · omega
    · obtain ⟨h0, h1, -, -⟩ := hbound node hnode
      omega
  have hend : 0 ≤ other.endCpu ∧ other.endCpu < 2147483647 := by
    rcases end_mem_addCpus other hother with h | ⟨node, hnode, h⟩
    · omega
    · obtain ⟨-, -, h0, h1⟩ := hbound node hnode
      omega
  exact ⟨hstart.1, hstart.2, hend.1, hend.2⟩

theorem mergeNextChecked_eq_some {endCpu : Int} (hlo : 0 ≤ endCpu) (hhi : endCpu < 2147483647) :
    ∀ (node : CpuList) (rest : List CpuList),
      mergeNextChecked endCpu node rest = some (mergeNext endCpu node rest)
  | node, next :: rest => by
    rw [mergeNextChecked, signedResult_intBits (by omega) (by omega), Option.some_bind, mergeNext]
    by_cases hnext : next.startCpu ≤ endCpu + 1
    · rw [if_pos hnext, if_pos hnext]
      exact mergeNextChecked_eq_some hlo hhi _ rest
    · rw [if_neg hnext, if_neg hnext]
  | _, [] => rfl

/-- On a list of values in `0 .. INT_MAX - 1`, `add_cpus` of a range that ends below `INT_MAX`
evaluates no expression that overflows. -/
theorem addCpusChecked_eq_some (startCpu : Int) {endCpu : Int} (hlo : 0 ≤ endCpu)
    (hhi : endCpu < 2147483647) : ∀ {cpuList : List CpuList}, (∀ node ∈ cpuList, node.BelowIntMax) →
      addCpusChecked cpuList startCpu endCpu = some (addCpus cpuList startCpu endCpu)
  | [], _ => rfl
  | node :: rest, hbound => by
    obtain ⟨hs0, hs1, he0, he1⟩ := hbound node (List.mem_cons_self _ _)
    rw [addCpusChecked, signedResult_intBits (by omega) (by omega), Option.some_bind, addCpus]
    by_cases hsearch : node.endCpu + 1 < startCpu
    · rw [if_pos hsearch, if_pos hsearch, addCpusChecked_eq_some startCpu hlo hhi fun other hother ↦
        hbound other (List.mem_cons_of_mem _ hother)]
      rfl
    rw [if_neg hsearch, if_neg hsearch]
    by_cases hmerge : endCpu > node.startCpu ∧ startCpu ≤ node.endCpu + 1
    · rw [if_pos hmerge, if_pos hmerge]
      exact mergeNextChecked_eq_some hlo hhi _ rest
    · rw [if_neg hmerge, if_neg hmerge, signedResult_intBits (by omega) (by omega), Option.map_some']

/-- A range that starts at most at `INT_MAX` and at least two past the end of every node of a
list of non-negative ends is appended with no overflow: the search computes `end_cpu + 1` only
of those nodes. -/
theorem addCpusChecked_of_forall_before (startCpu endCpu : Int) (hstart : startCpu ≤ 2147483647) :
    ∀ {cpuList : List CpuList}, (∀ node ∈ cpuList, 0 ≤ node.endCpu ∧ node.endCpu + 1 < startCpu) →
      addCpusChecked cpuList startCpu endCpu = some (cpuList ++ [⟨startCpu, endCpu⟩])
  | [], _ => rfl
  | node :: rest, hbefore => by
    obtain ⟨h0, hlt⟩ := hbefore node (List.mem_cons_self _ _)
    rw [addCpusChecked, signedResult_intBits (by omega) (by omega), Option.some_bind, if_pos hlt,
      addCpusChecked_of_forall_before startCpu endCpu hstart fun other hother ↦
        hbefore other (List.mem_cons_of_mem _ hother)]
    rfl

/-- `count_cpus` of valid ranges whose widths add up to an `int` overflows nowhere: every partial
sum is at most the total. -/
theorem countCpusFromChecked_eq_some (cpuCount : Int) : ∀ {cpuList : List CpuList} {cpus : Int}
    (fail : Bool), (∀ node ∈ cpuList, node.Valid) → 0 ≤ cpus →
      cpus + (cpuList.map CpuList.width).sum ≤ 2147483647 →
      countCpusFromChecked cpuCount cpuList cpus fail = some (countCpusFrom cpuCount cpuList cpus fail)
  | [], _, _, _, _, _ => rfl
  | node :: rest, cpus, fail, hvalid, hcpus, hsum => by
    have hnode := hvalid node (List.mem_cons_self _ _)
    have hrest : ∀ other ∈ rest, other.Valid := fun other hother ↦
      hvalid other (List.mem_cons_of_mem _ hother)
    have hwidths : 0 ≤ (rest.map CpuList.width).sum := List.sum_nonneg fun width hwidth ↦ by
      obtain ⟨other, hother, rfl⟩ := List.mem_map.1 hwidth
      have := hrest other hother
      unfold CpuList.Valid at this
      unfold CpuList.width
      omega
    unfold CpuList.Valid at hnode
    simp only [List.map_cons, List.sum_cons, CpuList.width] at hsum
    rw [countCpusFromChecked, signedResult_intBits (by omega) (by omega), Option.some_bind,
      signedResult_intBits (by omega) (by omega), Option.some_bind,
      signedResult_intBits (by omega) (by omega), Option.some_bind,
      countCpusFromChecked_eq_some cpuCount _ hrest (by omega) (by omega), countCpusFrom, add_assoc]

theorem countCpusChecked_eq_some (cpuCount : Int) {cpuList : List CpuList}
    (hvalid : ∀ node ∈ cpuList, node.Valid) (hsum : (cpuList.map CpuList.width).sum ≤ 2147483647) :
    countCpusChecked cpuCount cpuList = some (countCpus cpuCount cpuList) :=
  countCpusFromChecked_eq_some cpuCount false hvalid le_rfl (by omega)

/-- On a canonical list whose nodes end below `INT_MAX` and a range with
`0 ≤ startCpu ≤ endCpu < INT_MAX`, `add_cpus` evaluates no expression that overflows, covers
exactly the CPUs of the list and of the range, and leaves a canonical list exactly when the range
touches a node of the list or lies past all of them. -/
theorem addCpus_covers_canonical_iff {startCpu endCpu : Int} (hstart : 0 ≤ startCpu)
    (hle : startCpu ≤ endCpu) (hend : endCpu < 2147483647) {cpuList : List CpuList}
    (hcanon : Canonical cpuList) (hint : ∀ node ∈ cpuList, node.endCpu < 2147483647) :
    addCpusChecked cpuList startCpu endCpu = some (addCpus cpuList startCpu endCpu) ∧
      (∀ cpu, covers (addCpus cpuList startCpu endCpu) cpu ↔
        covers cpuList cpu ∨ (startCpu ≤ cpu ∧ cpu ≤ endCpu)) ∧
      (Canonical (addCpus cpuList startCpu endCpu) ↔
        (∃ node ∈ cpuList, node.startCpu ≤ endCpu + 1 ∧ startCpu ≤ node.endCpu + 1) ∨
          ∀ node ∈ cpuList, node.endCpu + 1 < startCpu) := by
  have hbound : ∀ node ∈ cpuList, node.BelowIntMax := fun node hnode ↦ by
    have hvalid := hcanon.1 node hnode
    have := hint node hnode
    unfold CpuList.Valid at hvalid
    exact ⟨hvalid.1, by omega, by omega, this⟩
  exact ⟨addCpusChecked_eq_some startCpu (by omega) hend hbound, covers_addCpus hstart hle hcanon,
    fun h ↦ by_contra fun hplace ↦ not_canonical_addCpus hplace h, canonical_addCpus hstart hle hcanon⟩

/-- Inserting `1` into `5-9` evaluates nothing undefined and loses no CPU, and the list is no
longer canonical: `1` lies in the gap below `5-9` and does not touch it. -/
theorem addCpus_covers_canonical_iff_gap :
    (0 : Int) ≤ 1 ∧ (1 : Int) ≤ 1 ∧ (1 : Int) < 2147483647 ∧ Canonical [⟨5, 9⟩] ∧
      (∀ node ∈ [(⟨5, 9⟩ : CpuList)], node.endCpu < 2147483647) ∧
      (addCpusChecked [⟨5, 9⟩] 1 1 = some (addCpus [⟨5, 9⟩] 1 1) ∧
        (∀ cpu, covers (addCpus [⟨5, 9⟩] 1 1) cpu ↔ covers [⟨5, 9⟩] cpu ∨ (1 ≤ cpu ∧ cpu ≤ 1)) ∧
        (Canonical (addCpus [⟨5, 9⟩] 1 1) ↔
          (∃ node ∈ [(⟨5, 9⟩ : CpuList)], node.startCpu ≤ 1 + 1 ∧ 1 ≤ node.endCpu + 1) ∨
            ∀ node ∈ [(⟨5, 9⟩ : CpuList)], node.endCpu + 1 < 1)) :=
  have hint : ∀ node ∈ [(⟨5, 9⟩ : CpuList)], node.endCpu < 2147483647 := by decide
  ⟨by decide, by decide, by decide, by decide, hint,
    addCpus_covers_canonical_iff (by decide) (by decide) (by decide) (by decide) hint⟩

/-! ### `calc_nr_cpus` -/

/-- The token a pass of `calc_nr_cpus` reads at `p`, with both `atoi`s checked: `none` when the
number `atoi` reads is not an `int`, `some none` at `goto err`, and otherwise `cpu`, `end_cpu`
and the text after the token's digits. -/
def calcTokenChecked (p : List Char) : Option (Option (Int × Int × List Char)) :=
  (signedResult intBits (atoi p)).bind fun cpu ↦
    if cpu < 0 ∨ (cpu = 0 ∧ p.head? ≠ some '0') then some none
    else
      let rest := p.dropWhile Char.isDigit
      if rest.head? = some '-' then
        (signedResult intBits (atoi rest.tail)).map fun _ ↦ (calcEnd cpu rest.tail).map (cpu, ·)
      else some (some (cpu, cpu, rest))

/-- Whatever the checked token gives is what `calcToken` gives. -/
theorem calcTokenChecked_eq {p : List Char} {token : Option (Int × Int × List Char)}
    (h : calcTokenChecked p = some token) : token = calcToken p := by
  obtain ⟨cpu, hcpu, h⟩ := Option.bind_eq_some.mp h
  obtain ⟨-, rfl⟩ := signedResult_eq_some.mp hcpu
  dsimp only at h
  simp only [calcToken]
  split_ifs at h ⊢ with herr hdash
  · exact (Option.some.inj h).symm
  · obtain ⟨_, -, rfl⟩ := Option.map_eq_some'.mp h
    rfl
  · exact (Option.some.inj h).symm

theorem calcEnd_eq_some {cpu endCpu : Int} {p q : List Char} (h : calcEnd cpu p = some (endCpu, q)) :
    atoi p = endCpu ∧ cpu ≤ endCpu := by
  unfold calcEnd at h
  split_ifs at h with herr
  obtain ⟨rfl, -⟩ := Prod.mk.inj (Option.some.inj h)
  exact ⟨rfl, not_lt.1 fun hlt ↦ herr (.inl hlt)⟩

/-- A token whose two numbers are `int`s is read with no undefined `atoi`. -/
theorem calcTokenChecked_of_calcToken {p q : List Char} {cpu endCpu : Int}
    (h : calcToken p = some (cpu, endCpu, q)) (hcpu : cpu ≤ 2147483647) (hend : endCpu ≤ 2147483647) :
    calcTokenChecked p = some (some (cpu, endCpu, q)) := by
  unfold calcToken at h
  dsimp only at h
  by_cases herr : atoi p < 0 ∨ (atoi p = 0 ∧ p.head? ≠ some '0')
  · rw [if_pos herr] at h
    cases h
  rw [if_neg herr] at h
  obtain ⟨⟨endCpu', q'⟩, hread, heq⟩ := Option.map_eq_some'.mp h
  cases heq
  have hnonneg : 0 ≤ atoi p := not_lt.1 fun hlt ↦ herr (.inl hlt)
  rw [calcTokenChecked, signedResult_intBits (by omega) (by omega), Option.some_bind, if_neg herr]
  dsimp only
  by_cases hdash : (p.dropWhile Char.isDigit).head? = some '-'
  · rw [if_pos hdash] at hread ⊢
    obtain ⟨hatoi, hle⟩ := calcEnd_eq_some hread
    rw [hatoi, signedResult_intBits (by omega) (by omega), Option.map_some', hread]
    rfl
  · rw [if_neg hdash] at hread ⊢
    cases hread
    rfl

theorem calcTokenChecked_token {tok : List Char} {a b : Nat} (htok : CpuToken tok a b)
    {rest : List Char} (hrest : rest = [] ∨ rest.head? = some ',') (hb : (b : Int) ≤ 2147483647) :
    calcTokenChecked (tok ++ rest) = some (some ((a : Int), (b : Int), rest)) :=
  calcTokenChecked_of_calcToken (calcToken_token htok hrest) (by have := htok.le; omega) hb

/-- The token loop of `calc_nr_cpus` with its `atoi`s and `add_cpus` checked, and with the
`count_cpus` of the `err` path checked too: `none` when an `int` expression is undefined,
otherwise what `calcLoop` gives. -/
def calcLoopChecked (cpuCount : Int) :
    Nat → List Char → List CpuList → Option (Option (Option (List CpuList)))
  | 0, _, _ => some none
  | fuel + 1, p, cpuList =>
    if p = [] then some (some (some cpuList))
    else
      (calcTokenChecked p).bind fun
        | none => (countCpusChecked cpuCount cpuList).map fun _ ↦ some none
        | some (cpu, endCpu, q) =>
          (addCpusChecked cpuList cpu endCpu).bind fun cpuList ↦
            calcLoopChecked cpuCount fuel (skipComma q) cpuList

/-- `calc_nr_cpus(setcpu, &buf)` with every `atoi` and every `int` expression of
`calc_nr_cpus`, `add_cpus` and `count_cpus` checked: `none` when one is undefined, otherwise
what `calcNrCpus` gives. -/
def calcNrCpusChecked (fuel : Nat) (cpuCount : Int) (setcpu : List Char) (buf : Option (List Char)) :
    Option (Option (Int × Option (List Char))) :=
  (calcLoopChecked cpuCount fuel setcpu []).bind fun
    | none => some none
    | some none => some (some (-1, buf))
    | some (some cpuList) =>
      (countCpusChecked cpuCount cpuList).map fun cpus ↦ some (cpus, makeNewList cpuList buf)

theorem calcLoopChecked_eq (cpuCount : Int) :
    ∀ (fuel : Nat) (p : List Char) (cpuList : List CpuList) (result : Option (Option (List CpuList))),
      calcLoopChecked cpuCount fuel p cpuList = some result → result = calcLoop fuel p cpuList
  | 0, _, _, _, h => (Option.some.inj h).symm
  | fuel + 1, p, cpuList, result, h => by
    rw [calcLoop, calcStep_eq]
    rw [calcLoopChecked] at h
    split_ifs at h ⊢
    · exact (Option.some.inj h).symm
    · obtain ⟨token, htoken, h⟩ := Option.bind_eq_some.mp h
      rw [← calcTokenChecked_eq htoken]
      rcases token with _ | ⟨cpu, endCpu, q⟩
      · obtain ⟨_, -, rfl⟩ := Option.map_eq_some'.mp h
        rfl
      · obtain ⟨next, hnext, h⟩ := Option.bind_eq_some.mp h
        rw [Option.map_some', addCpusChecked_eq cpuList cpu endCpu next hnext] at *
        exact calcLoopChecked_eq cpuCount fuel _ _ result h

/-- Whenever every `atoi` of `calc_nr_cpus` reads an `int` and no `int` expression of
`calc_nr_cpus`, `add_cpus` and `count_cpus` overflows, the program returns what the model over
unbounded integers computes. -/
theorem calcNrCpusChecked_eq (fuel : Nat) (cpuCount : Int) (setcpu : List Char)
    (buf : Option (List Char)) (result : Option (Int × Option (List Char)))
    (h : calcNrCpusChecked fuel cpuCount setcpu buf = some result) :
    result = calcNrCpus fuel cpuCount setcpu buf := by
  obtain ⟨loop, hloop, h⟩ := Option.bind_eq_some.mp h
  rw [calcNrCpus, ← calcLoopChecked_eq cpuCount fuel setcpu [] loop hloop]
  rcases loop with _ | _ | cpuList
  · exact (Option.some.inj h).symm
  · exact (Option.some.inj h).symm
  · obtain ⟨cpus, hcpus, rfl⟩ := Option.map_eq_some'.mp h
    rw [countCpusFromChecked_eq cpuCount cpuList 0 false cpus hcpus]
    rfl

/-- `0-3` with eight CPUs: nothing overflows, and the checked run gives four CPUs and the text
`0-3`, as `calcNrCpus` does. -/
theorem calcNrCpusChecked_eq_range :
    calcNrCpusChecked 2 8 "0-3".toList none = some (some (4, some "0-3".toList)) ∧
      some (4, some "0-3".toList) = calcNrCpus 2 8 "0-3".toList none :=
  have hchecked : calcNrCpusChecked 2 8 "0-3".toList none = some (some (4, some "0-3".toList)) := by
    decide
  ⟨hchecked, calcNrCpusChecked_eq 2 8 _ none _ hchecked⟩

/-! ### Reading a text of the grammar -/

/-- `addRanges` with `add_cpus` checked: `none` when an insertion overflows. -/
def addRangesChecked : List CpuList → List (Nat × Nat) → Option (List CpuList)
  | cpuList, [] => some cpuList
  | cpuList, range :: ranges =>
    (addCpusChecked cpuList range.1 range.2).bind fun cpuList ↦ addRangesChecked cpuList ranges

/-- On a text of the grammar whose numbers are `int`s, with a pass per range and one more, the
checked loop reads the text to the NUL and does what the checked `add_cpus` does over its
ranges. -/
theorem calcLoopChecked_cpuListText (cpuCount : Int) {p : List Char} {ranges : List (Nat × Nat)}
    (h : CpuListText p ranges) (hint : ∀ range ∈ ranges, (range.2 : Int) ≤ 2147483647) :
    ∀ fuel, ranges.length < fuel → ∀ cpuList, calcLoopChecked cpuCount fuel p cpuList =
      (addRangesChecked cpuList ranges).map fun cpuList ↦ some (some cpuList) := by
  induction h with
  | empty =>
    rintro (_ | fuel) hfuel cpuList
    · cases hfuel
    · rfl
  | last htok =>
    rintro (_ | _ | fuel) hfuel cpuList
    · cases hfuel
    · simp at hfuel
    · obtain ⟨c, cs, rfl, -⟩ := htok.exists_cons
      have htoken := calcTokenChecked_token htok (Or.inl rfl) (hint _ (List.mem_singleton_self _))
      rw [List.append_nil] at htoken
      rw [calcLoopChecked, if_neg (List.cons_ne_nil c cs), htoken, Option.some_bind, addRangesChecked]
      dsimp only
      cases addCpusChecked cpuList _ _ <;> rfl
  | @cons t rest a b ranges htok _ ih =>
    rintro (_ | fuel) hfuel cpuList
    · cases hfuel
    · rw [calcLoopChecked, if_neg (by simp), @calcTokenChecked_token t a b htok (',' :: rest)
        (Or.inr rfl) (hint _ (List.mem_cons_self _ _)), Option.some_bind,
        addRangesChecked]
      dsimp only
      cases addCpusChecked cpuList _ _ with
      | none => rfl
      | some next =>
        exact ih (fun range hrange ↦ hint range (List.mem_cons_of_mem _ hrange)) fuel
          (by simp at hfuel; omega) next

/-- Ranges that end below `INT_MAX`, added to a list of values in `0 .. INT_MAX - 1`, overflow
nowhere. -/
theorem addRangesChecked_eq_some : ∀ {ranges : List (Nat × Nat)} {cpuList : List CpuList},
    (∀ range ∈ ranges, range.1 ≤ range.2 ∧ (range.2 : Int) < 2147483647) →
    (∀ node ∈ cpuList, node.BelowIntMax) → addRangesChecked cpuList ranges = some (addRanges cpuList ranges)
  | [], _, _, _ => rfl
  | (a, b) :: ranges, cpuList, hranges, hbound => by
    obtain ⟨hab, hb⟩ := hranges (a, b) (List.mem_cons_self _ _)
    have hrange : CpuList.BelowIntMax ⟨a, b⟩ := by refine ⟨?_, ?_, ?_, ?_⟩ <;> dsimp only <;> omega
    rw [addRangesChecked, addCpusChecked_eq_some a (by omega) hb hbound, Option.some_bind,
      addRanges_cons, addRangesChecked_eq_some (fun range hrange ↦ hranges range
        (List.mem_cons_of_mem _ hrange)) (addCpus_belowIntMax hrange hbound)]

/-- When `done ++ cpuList` is canonical and starts at most at `INT_MAX`, the checked `add_cpus`
of the ranges of `cpuList`, one after the other, appends each at the end of `done`. -/
theorem addRangesChecked_renderCpus : ∀ {cpuList : List CpuList} (done : List CpuList),
    Canonical (done ++ cpuList) → (∀ node ∈ cpuList, node.startCpu ≤ 2147483647) →
      addRangesChecked done (cpuList.map fun node ↦ (node.startCpu.toNat, node.endCpu.toNat)) =
        some (done ++ cpuList)
  | [], done, _, _ => by simp [addRangesChecked]
  | node :: rest, done, hcanon, hint => by
    have hnode := hcanon.1 node (by simp)
    have hbefore : ∀ other ∈ done, 0 ≤ other.endCpu ∧ other.endCpu + 1 < node.startCpu :=
      fun other hother ↦
        have hvalid := hcanon.1 other (List.mem_append_left _ hother)
        ⟨hvalid.1.trans hvalid.2,
          (List.pairwise_append.mp hcanon.pairwise).2.2 other hother node (List.mem_cons_self _ _)⟩
    rw [List.map_cons, addRangesChecked, Int.toNat_of_nonneg hnode.1,
      Int.toNat_of_nonneg (hnode.1.trans hnode.2),
      addCpusChecked_of_forall_before _ _ (hint node (List.mem_cons_self _ _)) hbefore, Option.some_bind,
      addRangesChecked_renderCpus (done ++ [node]) (by simpa using hcanon)
        fun other hother ↦ hint other (List.mem_cons_of_mem _ hother),
      List.append_assoc, List.singleton_append]

/-- Parsing inverts rendering on canonical lists of `int`s whose widths add up to an `int`: the
text `make_new_list` writes for such a nonempty list is in the grammar, and `calc_nr_cpus` on it
evaluates no undefined `atoi` or `int` expression, rebuilds the list, writes the same text again
and returns the number of CPUs, or `-1` when a range reaches `cpu_count`. -/
theorem calcNrCpusChecked_renderCpus {cpuList : List CpuList} (hcanon : Canonical cpuList)
    (hne : cpuList ≠ []) (hint : ∀ node ∈ cpuList, node.endCpu ≤ 2147483647)
    (hsum : (cpuList.map CpuList.width).sum ≤ 2147483647) (cpuCount : Int) (buf : Option (List Char)) :
    makeNewList cpuList none = some (renderCpus cpuList) ∧
      CpuListText (renderCpus cpuList)
        (cpuList.map fun node ↦ (node.startCpu.toNat, node.endCpu.toNat)) ∧
      calcLoopChecked cpuCount (cpuList.length + 1) (renderCpus cpuList) [] =
        some (some (some cpuList)) ∧
      calcNrCpusChecked (cpuList.length + 1) cpuCount (renderCpus cpuList) buf =
        some (some (if ∀ node ∈ cpuList, node.endCpu < cpuCount then (cpuList.map CpuList.width).sum
          else -1, some (renderCpus cpuList))) := by
  have htext := cpuListText_renderCpus hcanon.1
  have hends : ∀ range ∈ cpuList.map (fun node ↦ ((node.startCpu.toNat, node.endCpu.toNat) : Nat × Nat)),
      (range.2 : Int) ≤ 2147483647 := by
    simp only [List.mem_map]
    rintro _ ⟨node, hnode, rfl⟩
    have := hint node hnode
    dsimp only
    omega
  have hloop : calcLoopChecked cpuCount (cpuList.length + 1) (renderCpus cpuList) [] =
      some (some (some cpuList)) := by
    rw [calcLoopChecked_cpuListText cpuCount htext hends _ (by simp) [],
      addRangesChecked_renderCpus [] (by simpa using hcanon)
        fun node hnode ↦ (hcanon.1 node hnode).2.trans (hint node hnode)]
    rfl
  refine ⟨makeNewList_eq hne none, htext, hloop, ?_⟩
  rw [calcNrCpusChecked, hloop, Option.some_bind]
  dsimp only
  rw [countCpusChecked_eq_some cpuCount hcanon.1 hsum, Option.map_some', countCpus_eq,
    makeNewList_eq hne]

theorem calcNrCpusChecked_renderCpus_gap :
    Canonical [⟨0, 0⟩, ⟨2, 5⟩] ∧ [(⟨0, 0⟩ : CpuList), ⟨2, 5⟩] ≠ [] ∧
      (∀ node ∈ [(⟨0, 0⟩ : CpuList), ⟨2, 5⟩], node.endCpu ≤ 2147483647) ∧
      ([(⟨0, 0⟩ : CpuList), ⟨2, 5⟩].map CpuList.width).sum ≤ 2147483647 ∧
      (makeNewList [⟨0, 0⟩, ⟨2, 5⟩] none = some (renderCpus [⟨0, 0⟩, ⟨2, 5⟩]) ∧
        CpuListText (renderCpus [⟨0, 0⟩, ⟨2, 5⟩])
          ([(⟨0, 0⟩ : CpuList), ⟨2, 5⟩].map fun node ↦ (node.startCpu.toNat, node.endCpu.toNat)) ∧
        calcLoopChecked 8 3 (renderCpus [⟨0, 0⟩, ⟨2, 5⟩]) [] = some (some (some [⟨0, 0⟩, ⟨2, 5⟩])) ∧
        calcNrCpusChecked 3 8 (renderCpus [⟨0, 0⟩, ⟨2, 5⟩]) none =
          some (some (if ∀ node ∈ [(⟨0, 0⟩ : CpuList), ⟨2, 5⟩], node.endCpu < 8 then
            ([(⟨0, 0⟩ : CpuList), ⟨2, 5⟩].map CpuList.width).sum else -1,
            some (renderCpus [⟨0, 0⟩, ⟨2, 5⟩])))) :=
  have hint : ∀ node ∈ [(⟨0, 0⟩ : CpuList), ⟨2, 5⟩], node.endCpu ≤ 2147483647 := by decide
  ⟨by decide, by decide, hint, by decide,
    calcNrCpusChecked_renderCpus (by decide) (by decide) hint (by decide) 8 none⟩

/-- The canonical list `0-2147483647` of `int`s renders as a text of the grammar, and the checked
loop rebuilds it; but its one range has `2³¹` CPUs, and `count_cpus` overflows on it where the
model over unbounded integers returns `-1` with eight CPUs. -/
theorem calcNrCpus_renderCpus_overflows :
    Canonical [⟨0, 2147483647⟩] ∧ renderCpus [⟨0, 2147483647⟩] = "0-2147483647".toList ∧
      ([(⟨0, 2147483647⟩ : CpuList)].map CpuList.width).sum = 2147483648 ∧
      calcLoopChecked 8 2 (renderCpus [⟨0, 2147483647⟩]) [] =
        some (some (some [⟨0, 2147483647⟩])) ∧
      calcNrCpus 2 8 (renderCpus [⟨0, 2147483647⟩]) none = some (-1, some "0-2147483647".toList) ∧
      calcNrCpusChecked 2 8 (renderCpus [⟨0, 2147483647⟩]) none = none := by
  decide

/-- With eight CPUs: `2147483647,0` is in the grammar with every digit run an `int`, yet after
adding `2147483647` the search for the place of `0` evaluates `2147483647 + 1`; and
`0-2147483647` is added without overflow, but `count_cpus` then computes
`(2147483647 - 0) + 1`. Both are undefined before `main` can reject the input. -/
theorem calcNrCpus_overflows :
    CpuListText "2147483647,0".toList [(2147483647, 2147483647), (0, 0)] ∧
      calcNrCpusChecked 3 8 "2147483647,0".toList none = none ∧
    CpuListText "0-2147483647".toList [(0, 2147483647)] ∧
      calcLoopChecked 8 2 "0-2147483647".toList [] = some (some (some [⟨0, 2147483647⟩])) ∧
      calcNrCpusChecked 2 8 "0-2147483647".toList none = none := by
  have hmax : DigitRun "2147483647".toList 2147483647 := ⟨by simp, by decide, by decide⟩
  have hzero : DigitRun ['0'] 0 := digitRun_singleton rfl rfl
  refine ⟨?_, by decide, ?_, by decide, by decide⟩
  · exact CpuListText.cons (CpuToken.single hmax) (CpuListText.last (CpuToken.single hzero))
  · exact CpuListText.last (CpuToken.range hzero hmax (by omega))

end CyclicDeadline
