import CyclicDeadline.CpuList.Parse

/-!
# `make_other_cpu_list`: the CPUs left out

`make_other_cpu_list` reads the text `make_new_list` wrote and appends, with `append_cpus`, the
gap before each range it reads and, at the end, the gap up to `cpu_count - 1`. `otherStep` is
one pass of its loop and `makeOtherCpuList` the function; the loop reads at least one character
a pass (`otherStep_length_lt`), so `strlen + 1` passes always let it finish
(`otherLoop_fuel`).

`gapsFrom` is the spec's complement: the gap before each range, walking the list in order, then
the gap after the last one. On a canonical list inside `[0, cpu_count)` it is canonical
(`canonical_gapsFrom`) and covers exactly the CPUs the list leaves out (`covers_gapsFrom`).
`makeOtherCpuList_renderCpus` shows that `make_other_cpu_list` on the rendering of such a list
writes the rendering of its complement, leaves the buffer unset exactly when the list covers
every CPU, and, applied to its own output, gives the rendering of the list back.
-/

set_option autoImplicit false
set_option relaxedAutoImplicit false

namespace CyclicDeadline

/-! ### The loop of `make_other_cpu_list` -/

/-- The locals of `make_other_cpu_list` its loop carries: `comma`, `curr_cpu`, `total` and the
buffer `*cpus`. -/
structure OtherList where
  comma : List Char
  currCpu : Int
  total : Nat
  cpus : Option (List Char)

/-- `*cpus = append_cpus(*cpus, start, end, comma, &total); comma = ","`. -/
def OtherList.append (s : OtherList) (start endCpu : Int) : OtherList :=
  { s with
    comma := [',']
    total := (appendCpus s.cpus start endCpu s.comma s.total).2
    cpus := some (appendCpus s.cpus start endCpu s.comma s.total).1 }

/-- One pass of the loop of `make_other_cpu_list` at text `p`: the gap before the range it
reads, if any, is appended, and `curr_cpu` moves past the range. -/
def otherStep (p : List Char) (s : OtherList) : List Char × OtherList :=
  let cpu := atoi p
  let s := if cpu > s.currCpu then s.append s.currCpu (cpu - 1) else s
  let rest := p.dropWhile Char.isDigit
  let cpu := if rest.head? = some '-' then atoi rest.tail else cpu
  let rest := if rest.head? = some '-' then rest.tail.dropWhile Char.isDigit else rest
  (rest.tail, { s with currCpu := cpu + 1 })

/-- The loop `while (*p && curr_cpu < cpu_count)` of `make_other_cpu_list`, for `fuel` passes. -/
def otherLoop (cpuCount : Int) : Nat → List Char → OtherList → OtherList
  | 0, _, s => s
  | fuel + 1, p, s =>
    if p ≠ [] ∧ s.currCpu < cpuCount then otherLoop cpuCount fuel (otherStep p s).1 (otherStep p s).2
    else s

/-- The gap after the loop: `if (curr_cpu < cpu_count)` append `curr_cpu..cpu_count - 1`. -/
def OtherList.finish (cpuCount : Int) (s : OtherList) : Option (List Char) :=
  if s.currCpu < cpuCount then (s.append s.currCpu (cpuCount - 1)).cpus else s.cpus

/-- `make_other_cpu_list(setcpu, &cpus)`: the new `*cpus`, with the global `cpu_count` as a
parameter. -/
def makeOtherCpuList (cpuCount : Int) (setcpu : List Char) (cpus : Option (List Char)) :
    Option (List Char) :=
  (otherLoop cpuCount (setcpu.length + 1) setcpu ⟨[], 0, 0, cpus⟩).finish cpuCount

theorem otherStep_length_lt {p : List Char} (hp : p ≠ []) (s : OtherList) :
    (otherStep p s).1.length < p.length := by
  have hdrop (q : List Char) : (q.dropWhile Char.isDigit).length ≤ q.length :=
    (List.dropWhile_suffix _).length_le
  obtain ⟨c, p, rfl⟩ := List.exists_cons_of_ne_nil hp
  simp only [otherStep]
  split
  · rename_i hdash
    have htail := hdrop (List.tail (List.dropWhile Char.isDigit (c :: p)))
    have hrest := hdrop (c :: p)
    simp only [List.length_tail] at htail ⊢
    have hpos : 0 < (List.dropWhile Char.isDigit (c :: p)).length := by
      cases h : List.dropWhile Char.isDigit (c :: p) <;> simp_all
    omega
  · rename_i hdash
    by_cases hdigit : c.isDigit
    · have hrest := hdrop p
      simp only [List.dropWhile_cons, hdigit, if_true, List.length_tail, List.length_cons]
      omega
    · simp [List.dropWhile_cons, hdigit]

/-- The loop reads at least one character a pass, so it has stopped before it would run out of
fuel: any two amounts of fuel past the length of the text give the same locals. -/
theorem otherLoop_fuel (cpuCount : Int) :
    ∀ {fuel fuel' : Nat} (p : List Char) (s : OtherList), p.length < fuel → p.length < fuel' →
      otherLoop cpuCount fuel p s = otherLoop cpuCount fuel' p s
  | fuel + 1, fuel' + 1, p, s, hfuel, hfuel' => by
    rw [otherLoop, otherLoop]
    split
    · rename_i hgo
      have hlt := otherStep_length_lt hgo.1 s
      exact otherLoop_fuel cpuCount (otherStep p s).1 (otherStep p s).2 (show _ < fuel by omega)
        (show _ < fuel' by omega)
    · rfl

/-! ### One range per pass -/

/-- The locals once the gaps `written` have been appended to a buffer that held `cpus`, with
`curr_cpu` at `currCpu`. -/
def OtherList.after (cpus : Option (List Char)) (currCpu : Int) : List CpuList → OtherList
  | [] => ⟨[], currCpu, 0, cpus⟩
  | written => ⟨[','], currCpu, (renderCpus written).length, some (renderCpus written)⟩

@[simp] theorem OtherList.after_currCpu (cpus : Option (List Char)) (currCpu : Int)
    (written : List CpuList) : (OtherList.after cpus currCpu written).currCpu = currCpu := by
  cases written <;> rfl

theorem OtherList.after_setCurrCpu (cpus : Option (List Char)) (currCpu next : Int)
    (written : List CpuList) :
    ({ comma := (OtherList.after cpus currCpu written).comma, currCpu := next,
        total := (OtherList.after cpus currCpu written).total,
        cpus := (OtherList.after cpus currCpu written).cpus } : OtherList) =
      OtherList.after cpus next written := by
  cases written <;> rfl

@[simp] theorem OtherList.after_cpus (cpus : Option (List Char)) (currCpu : Int)
    (written : List CpuList) :
    (OtherList.after cpus currCpu written).cpus =
      if written = [] then cpus else some (renderCpus written) := by
  cases written <;> simp [OtherList.after]

theorem OtherList.after_append (cpus : Option (List Char)) (currCpu : Int)
    (written : List CpuList) (start endCpu : Int) :
    (OtherList.after cpus currCpu written).append start endCpu =
      OtherList.after cpus currCpu (written ++ [⟨start, endCpu⟩]) := by
  rcases written with _ | ⟨first, rest⟩
  · simp [OtherList.after, OtherList.append, appendCpus, renderCpus]
  · have hne : first :: rest ++ [(⟨start, endCpu⟩ : CpuList)] ≠ [] := by simp
    rw [OtherList.after.eq_2 _ _ _ hne,
      renderCpus_append_singleton ⟨start, endCpu⟩ (List.cons_ne_nil first rest)]
    simp [OtherList.after, OtherList.append, appendCpus]

/-- `finish` appends the gap from `curr_cpu` to `cpu_count - 1` when there is one. -/
theorem OtherList.finish_after (cpuCount : Int) (cpus : Option (List Char)) (currCpu : Int)
    (written : List CpuList) :
    (OtherList.after cpus currCpu written).finish cpuCount =
      (OtherList.after cpus currCpu
        (written ++ if currCpu < cpuCount then [⟨currCpu, cpuCount - 1⟩] else [])).cpus := by
  rw [OtherList.finish, OtherList.after_currCpu]
  split
  · rw [OtherList.after_append]
  · rw [List.append_nil]

theorem otherLoop_nil (cpuCount : Int) (fuel : Nat) (s : OtherList) :
    otherLoop cpuCount fuel [] s = s := by
  cases fuel <;> simp [otherLoop]

/-- The gap `make_other_cpu_list` appends before a range starting at `startCpu`. -/
def gapBefore (currCpu startCpu : Int) : List CpuList :=
  if currCpu < startCpu then [⟨currCpu, startCpu - 1⟩] else []

/-- On a valid range followed by the NUL or a comma, one pass appends the gap before the range and
moves `curr_cpu` past it. -/
theorem otherStep_rangeText {node : CpuList} (hnode : node.Valid) (rest : List Char)
    (hrest : rest = [] ∨ rest.head? = some ',') (cpus : Option (List Char)) (currCpu : Int)
    (written : List CpuList) :
    otherStep (rangeText node.startCpu node.endCpu ++ rest) (OtherList.after cpus currCpu written) =
      (rest.tail, OtherList.after cpus (node.endCpu + 1)
        (written ++ gapBefore currCpu node.startCpu)) := by
  obtain ⟨hstart, hle⟩ := hnode
  have hend : 0 ≤ node.endCpu := hstart.trans hle
  obtain ⟨hstops, hnodash⟩ := stopsDigits_of_nil_or_comma hrest
  have hgap : (if node.startCpu > currCpu then
        (OtherList.after cpus currCpu written).append currCpu (node.startCpu - 1)
      else OtherList.after cpus currCpu written) =
      OtherList.after cpus currCpu (written ++ gapBefore currCpu node.startCpu) := by
    unfold gapBefore
    split
    · rw [OtherList.after_append]
    · rw [List.append_nil]
  unfold rangeText otherStep
  split
  · rename_i heq
    simp only [atoi_formatInt_append hstart hstops, dropWhile_formatInt_append hstart hstops,
      if_neg hnodash, OtherList.after_currCpu, hgap, OtherList.after_setCurrCpu]
    rw [heq]
  · have hdash : StopsDigits ('-' :: (formatInt node.endCpu ++ rest)) := stopsDigits_cons rfl
    simp only [List.append_assoc, List.cons_append, atoi_formatInt_append hstart hdash,
      dropWhile_formatInt_append hstart hdash, List.head?_cons, if_true, List.tail_cons,
      atoi_formatInt_append hend hstops, dropWhile_formatInt_append hend hstops,
      OtherList.after_currCpu, hgap, OtherList.after_setCurrCpu]

/-! ### The complement -/

/-- The CPUs of `[currCpu, cpu_count)` a list leaves out, as the spec computes them: walking the
list in order, the gap before each range, then the gap after the last one up to
`cpu_count - 1`. -/
def gapsFrom (cpuCount currCpu : Int) : List CpuList → List CpuList
  | [] => if currCpu < cpuCount then [⟨currCpu, cpuCount - 1⟩] else []
  | node :: rest => gapBefore currCpu node.startCpu ++ gapsFrom cpuCount (node.endCpu + 1) rest

/-- For a canonical list of ranges that start at or after `currCpu` and end below `cpu_count`, each
pass appends the gap before the next range; at the NUL the loop stops and `finish` appends the last
gap. -/
theorem finish_otherLoop_renderCpus {cpuCount : Int} (cpus : Option (List Char)) :
    ∀ {cpuList : List CpuList} (currCpu : Int) (written : List CpuList) (fuel : Nat),
      Canonical cpuList → cpuList ≠ [] → (∀ node ∈ cpuList, currCpu ≤ node.startCpu) →
      (∀ node ∈ cpuList, node.endCpu < cpuCount) → currCpu < cpuCount → cpuList.length < fuel →
      (otherLoop cpuCount fuel (renderCpus cpuList) (OtherList.after cpus currCpu written)).finish
        cpuCount = (OtherList.after cpus currCpu (written ++ gapsFrom cpuCount currCpu cpuList)).cpus
  | [node], currCpu, written, fuel + 1, hcanon, _, _, _, hcurr, _ => by
    have hnode := hcanon.valid
    have hstep := otherStep_rangeText hnode [] (Or.inl rfl) cpus currCpu written
    rw [List.append_nil] at hstep
    rw [renderCpus, otherLoop, if_pos ⟨rangeText_ne_nil hnode, by simpa using hcurr⟩, hstep,
      List.tail_nil, otherLoop_nil, OtherList.finish_after]
    simp only [gapsFrom, List.append_assoc, OtherList.after_cpus]
  | node :: next :: rest, currCpu, written, fuel + 1, hcanon, _, hstart, hlt, hcurr, hfuel => by
    have hnode := hcanon.valid
    have hnext := hcanon.before_of_mem (List.mem_cons_self next rest)
    have hnextlt := hlt next (by simp)
    have hnextvalid := hcanon.tail.valid
    unfold CpuList.Valid at hnextvalid
    rw [renderCpus, otherLoop, if_pos ⟨by simp [rangeText_ne_nil hnode], by simpa using hcurr⟩,
      otherStep_rangeText hnode (',' :: renderCpus (next :: rest)) (Or.inr rfl), List.tail_cons,
      finish_otherLoop_renderCpus cpus (node.endCpu + 1) _ fuel hcanon.tail (List.cons_ne_nil _ _)
        (fun other hother ↦ by have := hcanon.before_of_mem hother; omega)
        (fun other hother ↦ hlt other (List.mem_cons_of_mem _ hother)) (by omega)
        (by simp at hfuel ⊢; omega)]
    simp only [gapsFrom, List.append_assoc, OtherList.after_cpus]

theorem length_le_renderCpus : ∀ {cpuList : List CpuList}, (∀ node ∈ cpuList, node.Valid) →
    cpuList.length ≤ (renderCpus cpuList).length
  | [], _ => le_rfl
  | [node], hvalid => by
    have := rangeText_ne_nil (hvalid node (List.mem_singleton_self _))
    rw [renderCpus, List.length_singleton, Nat.one_le_iff_ne_zero, ne_eq, List.length_eq_zero]
    exact this
  | node :: next :: rest, hvalid => by
    have := @length_le_renderCpus (next :: rest) fun other hother ↦
      hvalid other (List.mem_cons_of_mem _ hother)
    simp only [renderCpus, List.length_append, List.length_cons] at this ⊢
    omega

/-- On the rendering of a nonempty canonical list inside `[0, cpu_count)`, `make_other_cpu_list`
writes the rendering of `gapsFrom`, into whatever buffer it was given. -/
theorem makeOtherCpuList_eq {cpuCount : Int} (hcount : 1 ≤ cpuCount) {cpuList : List CpuList}
    (hcanon : Canonical cpuList) (hne : cpuList ≠ [])
    (hlt : ∀ node ∈ cpuList, node.endCpu < cpuCount) (cpus : Option (List Char)) :
    makeOtherCpuList cpuCount (renderCpus cpuList) cpus =
      if gapsFrom cpuCount 0 cpuList = [] then cpus
      else some (renderCpus (gapsFrom cpuCount 0 cpuList)) := by
  have hrun := finish_otherLoop_renderCpus cpus 0 [] _ hcanon hne
    (fun node hnode ↦ (hcanon.1 node hnode).1) hlt (by omega)
    (Nat.lt_succ_of_le (length_le_renderCpus hcanon.1))
  rw [List.nil_append, OtherList.after_cpus] at hrun
  exact hrun

/-! ### The complement -/

theorem start_le_of_mem_gapsFrom {cpuCount : Int} : ∀ {cpuList : List CpuList} {currCpu : Int},
    Canonical cpuList → (∀ node ∈ cpuList, currCpu ≤ node.startCpu) →
      ∀ gap ∈ gapsFrom cpuCount currCpu cpuList, currCpu ≤ gap.startCpu
  | [], currCpu, _, _, gap, hgap => by
    unfold gapsFrom at hgap
    split at hgap <;> simp_all
  | node :: rest, currCpu, hcanon, hstart, gap, hgap => by
    have hvalid := hcanon.valid
    have hnode := hstart node (List.mem_cons_self _ _)
    unfold CpuList.Valid at hvalid
    rw [gapsFrom, List.mem_append, gapBefore] at hgap
    rcases hgap with hgap | hgap
    · split at hgap <;> simp_all
    · have := start_le_of_mem_gapsFrom hcanon.tail
        (fun other hother ↦ by have := hcanon.before_of_mem hother; omega) gap hgap
      omega

/-- When `0 ≤ currCpu` and the ranges of a canonical list start at or after it, the gaps form a
canonical list. -/
theorem canonical_gapsFrom {cpuCount : Int} : ∀ {cpuList : List CpuList} {currCpu : Int},
    0 ≤ currCpu → Canonical cpuList → (∀ node ∈ cpuList, currCpu ≤ node.startCpu) →
      Canonical (gapsFrom cpuCount currCpu cpuList)
  | [], currCpu, hcurr, _, _ => by
    unfold gapsFrom
    split
    · exact ⟨by simp [CpuList.Valid]; omega, List.chain'_singleton _⟩
    · exact ⟨by simp, List.chain'_nil⟩
  | node :: rest, currCpu, hcurr, hcanon, hstart => by
    have hvalid := hcanon.valid
    have hnode := hstart node (List.mem_cons_self _ _)
    unfold CpuList.Valid at hvalid
    have hafter : ∀ other ∈ rest, node.endCpu + 1 ≤ other.startCpu := fun other hother ↦ by
      have := hcanon.before_of_mem hother
      omega
    have hrest : Canonical (gapsFrom cpuCount (node.endCpu + 1) rest) :=
      canonical_gapsFrom (by omega) hcanon.tail hafter
    rw [gapsFrom, gapBefore]
    split
    · refine ⟨?_, List.Chain'.cons' hrest.2 fun gap hgap ↦ ?_⟩
      · simp only [List.singleton_append, List.mem_cons, forall_eq_or_imp]
        exact ⟨⟨hcurr, by dsimp only; omega⟩, hrest.1⟩
      · have := start_le_of_mem_gapsFrom hcanon.tail hafter gap (List.mem_of_mem_head? hgap)
        unfold CpuList.Before
        dsimp only
        omega
    · simpa using hrest

/-- For a canonical list of ranges inside `[currCpu, cpu_count)`, the gaps cover exactly the CPUs of
`[currCpu, cpu_count)` the list leaves out. -/
theorem covers_gapsFrom {cpuCount : Int} : ∀ {cpuList : List CpuList} {currCpu : Int},
    Canonical cpuList → (∀ node ∈ cpuList, currCpu ≤ node.startCpu) →
      (∀ node ∈ cpuList, node.endCpu < cpuCount) → ∀ cpu,
        covers (gapsFrom cpuCount currCpu cpuList) cpu ↔
          currCpu ≤ cpu ∧ cpu < cpuCount ∧ ¬ covers cpuList cpu
  | [], currCpu, _, _, _, cpu => by
    unfold gapsFrom
    split <;> simp [covers_cons] <;> omega
  | node :: rest, currCpu, hcanon, hstart, hlt, cpu => by
    have hvalid := hcanon.valid
    have hnode := hstart node (List.mem_cons_self _ _)
    have hend := hlt node (List.mem_cons_self _ _)
    unfold CpuList.Valid at hvalid
    have hrest := @covers_gapsFrom cpuCount rest (node.endCpu + 1) hcanon.tail
      (fun other hother ↦ by have := hcanon.before_of_mem hother; omega)
      (fun other hother ↦ hlt other (List.mem_cons_of_mem _ hother)) cpu
    rw [gapsFrom, covers_append, hrest, covers_cons, gapBefore]
    by_cases hcovered : covers rest cpu
    · have := hcanon.lt_of_covers_tail hcovered
      split <;> simp [covers_cons, hcovered]
      all_goals omega
    · split <;> simp [covers_cons, hcovered] <;> omega

theorem eq_nil_iff_not_covers {cpuList : List CpuList} (hcanon : Canonical cpuList) :
    cpuList = [] ↔ ∀ cpu, ¬ covers cpuList cpu := by
  constructor
  · rintro rfl cpu
    exact covers_nil cpu
  · intro hnone
    cases cpuList with
    | nil => rfl
    | cons node rest =>
      exact absurd (covers_cons.mpr (Or.inl ⟨le_rfl, hcanon.valid.2⟩)) (hnone node.startCpu)

section

variable {cpuCount : Int} {cpuList : List CpuList} (hcanon : Canonical cpuList)
  (hstart : ∀ node ∈ cpuList, 0 ≤ node.startCpu) (hlt : ∀ node ∈ cpuList, node.endCpu < cpuCount)
include hcanon hstart hlt

/-- The gaps of a canonical list inside `[0, cpu_count)` end below `cpu_count`. -/
theorem end_lt_of_mem_gapsFrom : ∀ gap ∈ gapsFrom cpuCount 0 cpuList, gap.endCpu < cpuCount :=
  fun gap hgap ↦ ((covers_gapsFrom hcanon hstart hlt gap.endCpu).mp
    ⟨gap, hgap, ((canonical_gapsFrom le_rfl hcanon hstart).1 gap hgap).2, le_rfl⟩).2.1

/-- A canonical list inside `[0, cpu_count)` has no gaps exactly when it covers every CPU. -/
theorem gapsFrom_eq_nil_iff :
    gapsFrom cpuCount 0 cpuList = [] ↔ ∀ cpu, 0 ≤ cpu → cpu < cpuCount → covers cpuList cpu := by
  rw [eq_nil_iff_not_covers (canonical_gapsFrom le_rfl hcanon hstart)]
  simp only [covers_gapsFrom hcanon hstart hlt, not_and, not_not]

/-- The gaps of the gaps of a canonical list inside `[0, cpu_count)` are the list. -/
theorem gapsFrom_gapsFrom : gapsFrom cpuCount 0 (gapsFrom cpuCount 0 cpuList) = cpuList := by
  have hothers : Canonical (gapsFrom cpuCount 0 cpuList) := canonical_gapsFrom le_rfl hcanon hstart
  have hgapstart : ∀ gap ∈ gapsFrom cpuCount 0 cpuList, 0 ≤ gap.startCpu := fun gap hgap ↦
    (hothers.1 gap hgap).1
  refine eq_of_covers_iff (canonical_gapsFrom le_rfl hothers hgapstart) hcanon fun cpu ↦ ?_
  rw [covers_gapsFrom hothers hgapstart (end_lt_of_mem_gapsFrom hcanon hstart hlt),
    covers_gapsFrom hcanon hstart hlt]
  constructor
  · rintro ⟨hlow, hhigh, hin⟩
    by_contra hout
    exact hin ⟨hlow, hhigh, hout⟩
  · rintro ⟨node, hnode, hlow, hhigh⟩
    have := hstart node hnode
    have := hlt node hnode
    exact ⟨by omega, by omega, fun h ↦ h.2.2 ⟨node, hnode, hlow, hhigh⟩⟩

end

/-- `make_other_cpu_list` writes the complement. For a nonempty canonical list inside
`[0, cpu_count)`, the text `make_new_list` writes for it is turned into the rendering of the
canonical list of the CPUs it leaves out, the buffer stays unset exactly when it leaves none
out, and the output turned around again gives the rendering of the list back. -/
theorem makeOtherCpuList_renderCpus {cpuCount : Int} (hcount : 1 ≤ cpuCount)
    {cpuList : List CpuList} (hcanon : Canonical cpuList) (hne : cpuList ≠ [])
    (hlt : ∀ node ∈ cpuList, node.endCpu < cpuCount) :
    makeNewList cpuList none = some (renderCpus cpuList) ∧
      (∃ others, Canonical others ∧
        (∀ cpu, covers others cpu ↔ 0 ≤ cpu ∧ cpu < cpuCount ∧ ¬ covers cpuList cpu) ∧
        makeOtherCpuList cpuCount (renderCpus cpuList) none =
          if others = [] then none else some (renderCpus others)) ∧
      (makeOtherCpuList cpuCount (renderCpus cpuList) none = none ↔
        ∀ cpu, 0 ≤ cpu → cpu < cpuCount → covers cpuList cpu) ∧
      ∀ text, makeOtherCpuList cpuCount (renderCpus cpuList) none = some text →
        makeOtherCpuList cpuCount text none = some (renderCpus cpuList) := by
  have hstart : ∀ node ∈ cpuList, 0 ≤ node.startCpu := fun node hnode ↦ (hcanon.1 node hnode).1
  have hothers : Canonical (gapsFrom cpuCount 0 cpuList) := canonical_gapsFrom le_rfl hcanon hstart
  have heq := makeOtherCpuList_eq hcount hcanon hne hlt none
  refine ⟨makeNewList_eq hne none, ⟨_, hothers, covers_gapsFrom hcanon hstart hlt, heq⟩, ?_,
    fun text htext ↦ ?_⟩
  · rw [heq, ← gapsFrom_eq_nil_iff hcanon hstart hlt]
    split <;> simp [*]
  · -- the output is the rendering of the gaps, whose gaps are the list
    rw [heq] at htext
    split at htext
    · cases htext
    · rename_i hnil
      obtain rfl := Option.some.inj htext
      rw [makeOtherCpuList_eq hcount hothers hnil (end_lt_of_mem_gapsFrom hcanon hstart hlt) none,
        gapsFrom_gapsFrom hcanon hstart hlt, if_neg hne]

theorem makeOtherCpuList_renderCpus_example :
    (1 : Int) ≤ 8 ∧ Canonical [⟨0, 0⟩, ⟨2, 5⟩] ∧ [(⟨0, 0⟩ : CpuList), ⟨2, 5⟩] ≠ [] ∧
      (∀ node ∈ [(⟨0, 0⟩ : CpuList), ⟨2, 5⟩], node.endCpu < 8) ∧
      (makeNewList [⟨0, 0⟩, ⟨2, 5⟩] none = some (renderCpus [⟨0, 0⟩, ⟨2, 5⟩]) ∧
        (∃ others, Canonical others ∧
          (∀ cpu, covers others cpu ↔ 0 ≤ cpu ∧ cpu < 8 ∧ ¬ covers [⟨0, 0⟩, ⟨2, 5⟩] cpu) ∧
          makeOtherCpuList 8 (renderCpus [⟨0, 0⟩, ⟨2, 5⟩]) none =
            if others = [] then none else some (renderCpus others)) ∧
        (makeOtherCpuList 8 (renderCpus [⟨0, 0⟩, ⟨2, 5⟩]) none = none ↔
          ∀ cpu, 0 ≤ cpu → cpu < 8 → covers [⟨0, 0⟩, ⟨2, 5⟩] cpu) ∧
        ∀ text, makeOtherCpuList 8 (renderCpus [⟨0, 0⟩, ⟨2, 5⟩]) none = some text →
          makeOtherCpuList 8 text none = some (renderCpus [⟨0, 0⟩, ⟨2, 5⟩])) :=
  ⟨by decide, by decide, by decide, by decide,
    makeOtherCpuList_renderCpus (by decide) (by decide) (by decide) (by decide)⟩

end CyclicDeadline
