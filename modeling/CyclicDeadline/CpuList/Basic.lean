import Mathlib.Data.List.Chain
import Mathlib.Data.Int.Order.Basic
import Mathlib.Tactic.Ring
import Mathlib.Tactic.Common

/-!
# The `cpu_list` of `calc_nr_cpus`

`calc_nr_cpus` collects the ranges of an affinity expression in a singly linked list of
`struct cpu_list` nodes, each the inclusive range `start_cpu..end_cpu`, and `add_cpus`
inserts one range into it. The list is a Lean list of `CpuList` nodes; `addCpus` is
`add_cpus`, with its search loop as the recursion and its merge-forward loop as
`mergeNext`, and `countCpus` is `count_cpus`. A C `int` is an `Int`; whether the sums
overflow an `int` is a separate question.

`covers` is the set of CPUs a list names and `Canonical` the form the spec gives a CPU
interval set: valid ranges in increasing order, each ending at least two below the start of
the next. `eq_of_covers_iff` shows that a canonical list is determined by the CPUs it covers,
so the canonical list of a set is well defined. `countCpus_eq` states `count_cpus` without its
running totals: the sum of the widths, or `-1` when a range reaches `cpu_count`.
-/

set_option autoImplicit false
set_option relaxedAutoImplicit false

namespace CyclicDeadline

/-- A node of `struct cpu_list`: the inclusive range `start_cpu..end_cpu`. The `next` pointer
is the node's position in the list. -/
@[ext]
structure CpuList where
  startCpu : Int
  endCpu : Int
deriving DecidableEq, Repr

namespace CpuList

/-- A node that is a range of CPUs: `0 ≤ start_cpu ≤ end_cpu`. -/
def Valid (node : CpuList) : Prop :=
  0 ≤ node.startCpu ∧ node.startCpu ≤ node.endCpu

instance (node : CpuList) : Decidable node.Valid :=
  inferInstanceAs (Decidable (_ ∧ _))

/-- `node` ends at least two below the start of `next`: the ranges neither overlap nor touch. -/
def Before (node next : CpuList) : Prop :=
  node.endCpu + 1 < next.startCpu

instance : DecidableRel Before :=
  fun node next ↦ inferInstanceAs (Decidable (node.endCpu + 1 < next.startCpu))

/-- The number of CPUs of a range, `end_cpu - start_cpu + 1` as `count_cpus` adds it. -/
def width (node : CpuList) : Int :=
  node.endCpu - node.startCpu + 1

end CpuList

/-! ### Covered CPUs and the canonical form -/

/-- The CPUs a list of ranges names. -/
def covers (cpuList : List CpuList) (cpu : Int) : Prop :=
  ∃ node ∈ cpuList, node.startCpu ≤ cpu ∧ cpu ≤ node.endCpu

instance (cpuList : List CpuList) (cpu : Int) : Decidable (covers cpuList cpu) :=
  inferInstanceAs (Decidable (∃ node ∈ cpuList, _ ∧ _))

@[simp] theorem covers_nil (cpu : Int) : ¬ covers [] cpu := by
  simp [covers]

theorem covers_cons {node : CpuList} {rest : List CpuList} {cpu : Int} :
    covers (node :: rest) cpu ↔ (node.startCpu ≤ cpu ∧ cpu ≤ node.endCpu) ∨ covers rest cpu := by
  simp [covers]

theorem covers_append {first second : List CpuList} {cpu : Int} :
    covers (first ++ second) cpu ↔ covers first cpu ∨ covers second cpu := by
  simp only [covers, List.mem_append, or_and_right, exists_or]

/-- The canonical form of a CPU interval set: valid ranges, each ending at least two below
the start of the next. -/
def Canonical (cpuList : List CpuList) : Prop :=
  (∀ node ∈ cpuList, node.Valid) ∧ cpuList.Chain' CpuList.Before

/-- The check of consecutive nodes in `Canonical`, as a computation. -/
def chainBefore : List CpuList → Bool
  | node :: next :: rest => decide (node.Before next) && chainBefore (next :: rest)
  | _ => true

theorem chainBefore_iff : ∀ {cpuList : List CpuList},
    chainBefore cpuList = true ↔ cpuList.Chain' CpuList.Before
  | [] => by simp [chainBefore]
  | [_] => by simp [chainBefore]
  | _ :: next :: rest => by
    simp [chainBefore, List.chain'_cons, @chainBefore_iff (next :: rest)]

instance (cpuList : List CpuList) : Decidable (Canonical cpuList) :=
  decidable_of_iff ((∀ node ∈ cpuList, node.Valid) ∧ chainBefore cpuList = true)
    (and_congr_right fun _ ↦ chainBefore_iff)

theorem canonical_nil : Canonical [] :=
  ⟨List.forall_mem_nil _, List.chain'_nil⟩

theorem Canonical.tail {node : CpuList} {rest : List CpuList} (h : Canonical (node :: rest)) :
    Canonical rest :=
  ⟨fun other hother ↦ h.1 other (List.mem_cons_of_mem _ hother), h.2.tail⟩

theorem Canonical.valid {node : CpuList} {rest : List CpuList} (h : Canonical (node :: rest)) :
    node.Valid :=
  h.1 node (List.mem_cons_self _ _)

/-- In a canonical list every later node starts at least two past the end of the first. -/
theorem Canonical.before_of_mem {node next : CpuList} {rest : List CpuList}
    (h : Canonical (node :: rest)) (hnext : next ∈ rest) : node.endCpu + 1 < next.startCpu := by
  induction rest generalizing node with
  | nil => cases hnext
  | cons head rest ih =>
    have hhead : node.Before head := (List.chain'_cons.mp h.2).1
    rcases List.mem_cons.mp hnext with rfl | hnext
    · exact hhead
    · have hlater := ih h.tail hnext
      have hvalid := h.tail.valid
      unfold CpuList.Before at hhead
      unfold CpuList.Valid at hvalid
      omega

/-- In a canonical list every node ends at least two below the start of every later one. -/
theorem Canonical.pairwise {cpuList : List CpuList} (h : Canonical cpuList) :
    cpuList.Pairwise CpuList.Before := by
  induction cpuList with
  | nil => exact List.Pairwise.nil
  | cons node rest ih => exact List.Pairwise.cons (fun _ hnext ↦ h.before_of_mem hnext) (ih h.tail)

/-- In a canonical list a CPU the later nodes cover lies at least two past the end of the first
node. -/
theorem Canonical.lt_of_covers_tail {node : CpuList} {rest : List CpuList} {cpu : Int}
    (h : Canonical (node :: rest)) (hcpu : covers rest cpu) : node.endCpu + 1 < cpu := by
  obtain ⟨next, hnext, hstart, -⟩ := hcpu
  have := h.before_of_mem hnext
  omega

/-- A canonical list covers nothing below the start of its first node. -/
theorem Canonical.not_covers_of_lt {node : CpuList} {rest : List CpuList} {cpu : Int}
    (h : Canonical (node :: rest)) (hcpu : cpu < node.startCpu) : ¬ covers (node :: rest) cpu := by
  rw [covers_cons]
  rintro (⟨hstart, -⟩ | hrest)
  · omega
  · have := h.lt_of_covers_tail hrest
    have := h.valid
    unfold CpuList.Valid at this
    omega

theorem start_le_of_covers {first second : CpuList} {firstRest secondRest : List CpuList}
    (hfirst : Canonical (first :: firstRest)) (hsecond : second.Valid)
    (hsub : ∀ cpu, covers (second :: secondRest) cpu → covers (first :: firstRest) cpu) :
    first.startCpu ≤ second.startCpu :=
  not_lt.mp fun hlt ↦ hfirst.not_covers_of_lt hlt
    (hsub _ (covers_cons.mpr (Or.inl ⟨le_rfl, hsecond.2⟩)))

theorem end_le_of_covers {first second : CpuList} {firstRest secondRest : List CpuList}
    (hsecond : Canonical (second :: secondRest)) (hstart : first.startCpu ≤ second.endCpu)
    (hsub : ∀ cpu, covers (first :: firstRest) cpu → covers (second :: secondRest) cpu) :
    first.endCpu ≤ second.endCpu := by
  by_contra hlt
  rcases covers_cons.mp (hsub (second.endCpu + 1) (covers_cons.mpr (Or.inl ⟨by omega, by omega⟩)))
    with ⟨-, hend⟩ | hrest
  · omega
  · have := hsecond.lt_of_covers_tail hrest
    omega

/-- A canonical list is determined by the CPUs it covers. -/
theorem eq_of_covers_iff : ∀ {first second : List CpuList}, Canonical first → Canonical second →
    (∀ cpu, covers first cpu ↔ covers second cpu) → first = second
  | [], [], _, _, _ => rfl
  | [], node :: _, _, hsecond, hcovers =>
    absurd ((hcovers node.startCpu).mpr (covers_cons.mpr (Or.inl ⟨le_rfl, hsecond.valid.2⟩)))
      (covers_nil _)
  | node :: _, [], hfirst, _, hcovers =>
    absurd ((hcovers node.startCpu).mp (covers_cons.mpr (Or.inl ⟨le_rfl, hfirst.valid.2⟩)))
      (covers_nil _)
  | first :: firstRest, second :: secondRest, hfirst, hsecond, hcovers => by
    have hstart : first.startCpu = second.startCpu :=
      le_antisymm (start_le_of_covers hfirst hsecond.valid fun cpu ↦ (hcovers cpu).mpr)
        (start_le_of_covers hsecond hfirst.valid fun cpu ↦ (hcovers cpu).mp)
    have hend : first.endCpu = second.endCpu :=
      le_antisymm
        (end_le_of_covers hsecond (hstart ▸ hsecond.valid.2) fun cpu ↦ (hcovers cpu).mp)
        (end_le_of_covers hfirst (hstart ▸ hfirst.valid.2) fun cpu ↦ (hcovers cpu).mpr)
    have hrest : ∀ cpu, covers firstRest cpu ↔ covers secondRest cpu := by
      intro cpu
      constructor
      · intro hcpu
        have hlt := hfirst.lt_of_covers_tail hcpu
        exact (covers_cons.mp ((hcovers cpu).mp (covers_cons.mpr (Or.inr hcpu)))).resolve_left
          (by omega)
      · intro hcpu
        have hlt := hsecond.lt_of_covers_tail hcpu
        exact (covers_cons.mp ((hcovers cpu).mpr (covers_cons.mpr (Or.inr hcpu)))).resolve_left
          (by omega)
    rw [CpuList.ext hstart hend, eq_of_covers_iff hfirst.tail hsecond.tail hrest]

/-! ### `add_cpus` -/

/-- The merge-forward loop of `add_cpus`: `node` takes the `end_cpu` of each following node
that starts at most one past `endCpu`, and is then extended to `endCpu` if it ends below it. -/
def mergeNext (endCpu : Int) (node : CpuList) : List CpuList → List CpuList
  | next :: rest =>
    if next.startCpu ≤ endCpu + 1 then mergeNext endCpu { node with endCpu := next.endCpu } rest
    else (if node.endCpu < endCpu then { node with endCpu := endCpu } else node) :: next :: rest
  | [] => [if node.endCpu < endCpu then { node with endCpu := endCpu } else node]

/-- `add_cpus(&cpu_list, start_cpu, end_cpu)`. The search skips every node that ends more than
one below `startCpu`; at the node where it stops, the range is merged into it ("look to
concatenate"), stretches its start ("check for overlaps"), or is linked in after it. -/
def addCpus : List CpuList → Int → Int → List CpuList
  | [], startCpu, endCpu => [⟨startCpu, endCpu⟩]
  | node :: rest, startCpu, endCpu =>
    if node.endCpu + 1 < startCpu then node :: addCpus rest startCpu endCpu
    else if endCpu > node.startCpu ∧ startCpu ≤ node.endCpu + 1 then
      mergeNext endCpu (if startCpu < node.startCpu then { node with startCpu := startCpu } else node)
        rest
    else if endCpu ≥ node.startCpu - 1 then { node with startCpu := startCpu } :: rest
    else node :: ⟨startCpu, endCpu⟩ :: rest

/-! ### `count_cpus` -/

/-- The loop of `count_cpus` from the running totals `cpus` and `fail`. -/
def countCpusFrom (cpuCount : Int) : List CpuList → Int → Bool → Int
  | [], cpus, fail => if fail then -1 else cpus
  | node :: rest, cpus, fail =>
    countCpusFrom cpuCount rest (cpus + (node.endCpu - node.startCpu) + 1)
      (fail || decide (node.endCpu ≥ cpuCount))

/-- `count_cpus(cpu_list)`, with the global `cpu_count` as a parameter. -/
def countCpus (cpuCount : Int) (cpuList : List CpuList) : Int :=
  countCpusFrom cpuCount cpuList 0 false

theorem countCpusFrom_eq (cpuCount : Int) : ∀ (cpuList : List CpuList) (cpus : Int) (fail : Bool),
    countCpusFrom cpuCount cpuList cpus fail =
      if fail ∨ ∃ node ∈ cpuList, cpuCount ≤ node.endCpu then -1
      else cpus + (cpuList.map CpuList.width).sum
  | [], cpus, fail => by simp [countCpusFrom]
  | node :: rest, cpus, fail => by
    rw [countCpusFrom, countCpusFrom_eq cpuCount rest]
    simp only [Bool.or_eq_true, decide_eq_true_eq, ge_iff_le, or_assoc, List.mem_cons,
      exists_eq_or_imp, List.map_cons, List.sum_cons, CpuList.width]
    split_ifs
    · rfl
    · ring

/-- `count_cpus` returns the number of CPUs the ranges add up to, or `-1` when a range ends at
or past `cpu_count`. -/
theorem countCpus_eq (cpuCount : Int) (cpuList : List CpuList) :
    countCpus cpuCount cpuList =
      if ∀ node ∈ cpuList, node.endCpu < cpuCount then (cpuList.map CpuList.width).sum else -1 := by
  rw [countCpus, countCpusFrom_eq]
  simp only [Bool.false_eq_true, false_or, zero_add]
  by_cases hall : ∀ node ∈ cpuList, node.endCpu < cpuCount
  · rw [if_neg fun ⟨node, hnode, hle⟩ ↦ absurd (hall node hnode) (not_lt.mpr hle), if_pos hall]
  · obtain ⟨node, hnode, hle⟩ := not_forall₂.mp hall
    rw [if_pos ⟨node, hnode, not_lt.mp hle⟩, if_neg hall]

end CyclicDeadline
