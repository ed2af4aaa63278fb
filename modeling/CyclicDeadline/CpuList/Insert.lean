import CyclicDeadline.CpuList.Basic

/-!
# Inserting a range with `add_cpus`

`addCpus_of_forall_before` is the append branch: a range that starts at least two past the
end of every node goes at the end of the list, so ranges given in increasing order, with gaps
between them, rebuild the list they came from.

The branch that links a new node in after the node where the search stops is not an insertion
in order: the search stops at the first node that does not end more than one below the new
range, and when the new range ends more than one below that node's start it belongs before
it. `addCpus_links_below_after` shows the list `5-9` with the range `1` inserted: the result,
`5-9,1`, still covers the right CPUs but is out of order, and a later insertion that merges
forward from `5-9` then drops ranges (inserting `6` leaves `5-6`).

On a canonical list nothing is lost yet: `covers_addCpus` shows that `add_cpus` covers exactly
the CPUs of the list and of the range in every branch, the merge-forward loop included
(`covers_mergeNext`). CPUs are lost only once later insertions work on the misordered list.

`canonical_addCpus` and `not_canonical_addCpus` say exactly when that happens: the list stays
canonical when the range touches a node of the list or lies past all of them, and otherwise the
range lies in a gap below some node and is linked in after it. `addCpus_covers_canonical_iff`
(`CpuList.Overflow`) puts the three facts together with the `int` arithmetic of `add_cpus`.

Every node `add_cpus` leaves starts and ends where the range or a node of the list does
(`start_mem_addCpus`, `end_mem_addCpus`), so the values of the list stay among those the
ranges inserted into it name.
-/

set_option autoImplicit false
set_option relaxedAutoImplicit false

namespace CyclicDeadline

/-- When every node ends more than one below `startCpu`, `add_cpus` appends the range. -/
theorem addCpus_of_forall_before (startCpu endCpu : Int) :
    ∀ {cpuList : List CpuList}, (∀ node ∈ cpuList, node.endCpu + 1 < startCpu) →
      addCpus cpuList startCpu endCpu = cpuList ++ [⟨startCpu, endCpu⟩]
  | [], _ => rfl
  | node :: rest, hbefore => by
    rw [addCpus, if_pos (hbefore node (List.mem_cons_self _ _)),
      addCpus_of_forall_before startCpu endCpu fun other hother ↦
        hbefore other (List.mem_cons_of_mem _ hother), List.cons_append]

/-! ### The nodes `add_cpus` rewrites -/

/-- In a canonical list, `node` may take the end of the node after it, which it then replaces. -/
theorem Canonical.absorbNext {node next : CpuList} {rest : List CpuList}
    (h : Canonical (node :: next :: rest)) : Canonical ({ node with endCpu := next.endCpu } :: rest) := by
  have hvalid := h.valid
  have hnext := h.tail.valid
  have hbefore := h.before_of_mem (List.mem_cons_self next rest)
  unfold CpuList.Valid at hvalid hnext
  exact ⟨List.forall_mem_cons.2 ⟨⟨hvalid.1, by simp only; omega⟩, h.tail.tail.1⟩,
    List.Chain'.imp_head (x := next) (y := { node with endCpu := next.endCpu }) (fun h ↦ h) h.tail.2⟩

/-- In a canonical list with `0 ≤ startCpu`, the first node may start at `startCpu` when that is
lower. -/
theorem Canonical.lowerStart {node : CpuList} {rest : List CpuList} {startCpu : Int}
    (h : Canonical (node :: rest)) (hstart : 0 ≤ startCpu) :
    Canonical ((if startCpu < node.startCpu then { node with startCpu := startCpu } else node) :: rest) := by
  have hvalid := h.valid
  unfold CpuList.Valid at hvalid
  refine ⟨List.forall_mem_cons.2 ⟨?_, h.tail.1⟩, h.2.imp_head fun h ↦ ?_⟩
  · split
    · exact ⟨hstart, by simp only; omega⟩
    · exact ⟨hvalid.1, hvalid.2⟩
  · split <;> exact h

/-- When `node` followed by `rest` is canonical, the merge-forward loop covers the CPUs of the list
and those between the end of `node` and `endCpu`. -/
theorem covers_mergeNext (endCpu : Int) : ∀ {node : CpuList} {rest : List CpuList},
    Canonical (node :: rest) → ∀ cpu, covers (mergeNext endCpu node rest) cpu ↔
      covers (node :: rest) cpu ∨ (node.endCpu < cpu ∧ cpu ≤ endCpu)
  | node, [], hcanon, cpu => by
    have hvalid := hcanon.valid
    unfold CpuList.Valid at hvalid
    simp only [mergeNext, covers_cons, covers_nil, or_false]
    by_cases hend : node.endCpu < endCpu <;> simp only [hend, ↓reduceIte] <;> omega
  | node, next :: rest, hcanon, cpu => by
    have hvalid := hcanon.valid
    have hnext := hcanon.tail.valid
    have hbefore := hcanon.before_of_mem (List.mem_cons_self next rest)
    unfold CpuList.Valid at hvalid hnext
    simp only [mergeNext]
    split
    · rw [covers_mergeNext endCpu hcanon.absorbNext cpu]
      simp only [covers_cons]
      by_cases hrest : covers rest cpu <;> simp only [hrest, or_true, true_or, or_false]
      all_goals omega
    · simp only [covers_cons]
      split <;> by_cases hrest : covers rest cpu <;>
        simp only [hrest, or_true, true_or, or_false] <;> omega

/-- For a canonical list and a range with `0 ≤ startCpu ≤ endCpu`, `add_cpus` covers exactly the
CPUs of the list and of the range, also where it links the range in out of order. -/
theorem covers_addCpus {startCpu endCpu : Int} (hstart : 0 ≤ startCpu)
    (hle : startCpu ≤ endCpu) : ∀ {cpuList : List CpuList}, Canonical cpuList → ∀ cpu,
      covers (addCpus cpuList startCpu endCpu) cpu ↔
        covers cpuList cpu ∨ (startCpu ≤ cpu ∧ cpu ≤ endCpu)
  | [], _, cpu => by simp [addCpus, covers_cons]
  | node :: rest, hcanon, cpu => by
    have hvalid := hcanon.valid
    unfold CpuList.Valid at hvalid
    simp only [addCpus]
    split
    · -- the search goes past `node`
      simp only [covers_cons, covers_addCpus hstart hle hcanon.tail cpu, or_assoc]
    split
    · -- the range is merged into `node`, which then merges forward
      rw [covers_mergeNext endCpu (hcanon.lowerStart hstart) cpu]
      simp only [covers_cons]
      split <;> by_cases hrest : covers rest cpu <;>
        simp only [hrest, or_true, true_or, or_false] <;> omega
    split
    · -- the range stretches the start of `node`
      simp only [covers_cons]
      by_cases hrest : covers rest cpu <;> simp only [hrest, or_true, true_or, or_false]
      all_goals omega
    · -- the range is linked in after `node`
      by_cases hrest : covers rest cpu <;> simp [covers_cons, hrest]

/-- A range that lies below the node where the search stops is linked in after that node: the
canonical list `5-9` with `1` inserted is `5-9,1`, which is not canonical. -/
theorem addCpus_links_below_after :
    Canonical [⟨5, 9⟩] ∧ addCpus [⟨5, 9⟩] 1 1 = [⟨5, 9⟩, ⟨1, 1⟩] ∧
      ¬ Canonical [⟨5, 9⟩, ⟨1, 1⟩] := by
  decide

/-- After the misordered insertion, inserting `6` merges `5-9` forward over the node `1`, which
starts below `6 + 1`, and takes its end: the list becomes `5-6`, losing `1` and `7-9`. -/
example : addCpus [⟨5, 9⟩, ⟨1, 1⟩] 6 6 = [⟨5, 6⟩] := by
  decide

/-! ### When `add_cpus` keeps the list canonical -/

/-- Every node the merge-forward loop leaves starts where `node` does, or is a node of `rest`. -/
theorem start_mem_mergeNext (endCpu : Int) : ∀ {node : CpuList} {rest : List CpuList},
    ∀ other ∈ mergeNext endCpu node rest, other.startCpu = node.startCpu ∨ other ∈ rest
  | node, [], other, hother => by
    rw [mergeNext, List.mem_singleton] at hother
    subst hother
    left
    split <;> rfl
  | node, next :: rest, other, hother => by
    rw [mergeNext] at hother
    split at hother
    · exact (start_mem_mergeNext endCpu other hother).imp id (List.mem_cons_of_mem next)
    · rcases List.mem_cons.1 hother with rfl | hother
      · left
        split <;> rfl
      · exact .inr hother

/-- Every node `add_cpus` leaves starts at `startCpu` or where a node of the list starts. -/
theorem start_mem_addCpus {startCpu endCpu : Int} : ∀ {cpuList : List CpuList},
    ∀ other ∈ addCpus cpuList startCpu endCpu,
      other.startCpu = startCpu ∨ ∃ node ∈ cpuList, node.startCpu = other.startCpu
  | [], other, hother => by
    rw [addCpus, List.mem_singleton] at hother
    exact .inl (hother ▸ rfl)
  | node :: rest, other, hother => by
    have hnode : node ∈ node :: rest := List.mem_cons_self node rest
    have hrest : ∀ {n}, n ∈ rest → n ∈ node :: rest := List.mem_cons_of_mem node
    rw [addCpus] at hother
    split at hother
    · rcases List.mem_cons.1 hother with rfl | hother
      · exact .inr ⟨_, hnode, rfl⟩
      · exact (start_mem_addCpus other hother).imp_right fun ⟨n, hn, h⟩ ↦ ⟨n, hrest hn, h⟩
    split at hother
    · rcases start_mem_mergeNext endCpu other hother with h | h
      · rw [h]
        split
        · exact .inl rfl
        · exact .inr ⟨_, hnode, rfl⟩
      · exact .inr ⟨other, hrest h, rfl⟩
    split at hother
    · rcases List.mem_cons.1 hother with rfl | hother
      · exact .inl rfl
      · exact .inr ⟨other, hrest hother, rfl⟩
    · simp only [List.mem_cons] at hother
      rcases hother with rfl | rfl | hother
      · exact .inr ⟨_, hnode, rfl⟩
      · exact .inl rfl
      · exact .inr ⟨other, hrest hother, rfl⟩

/-- Every node the merge-forward loop leaves ends at `endCpu` or where a node of `node :: rest`
ends. -/
theorem end_mem_mergeNext (endCpu : Int) : ∀ {node : CpuList} {rest : List CpuList},
    ∀ other ∈ mergeNext endCpu node rest,
      other.endCpu = endCpu ∨ ∃ n ∈ node :: rest, n.endCpu = other.endCpu
  | node, [], other, hother => by
    rw [mergeNext, List.mem_singleton] at hother
    subst hother
    split
    · exact .inl rfl
    · exact .inr ⟨node, List.mem_singleton_self _, rfl⟩
  | node, next :: rest, other, hother => by
    rw [mergeNext] at hother
    split at hother
    · rcases end_mem_mergeNext endCpu other hother with h | ⟨n, hn, h⟩
      · exact .inl h
      · rcases List.mem_cons.1 hn with rfl | hn
        · exact .inr ⟨next, List.mem_cons_of_mem _ (List.mem_cons_self _ _), h⟩
        · exact .inr ⟨n, List.mem_cons_of_mem _ (List.mem_cons_of_mem _ hn), h⟩
    · rcases List.mem_cons.1 hother with rfl | hother
      · split
        · exact .inl rfl
        · exact .inr ⟨node, List.mem_cons_self _ _, rfl⟩
      · exact .inr ⟨other, List.mem_cons_of_mem _ hother, rfl⟩

/-- Every node `add_cpus` leaves ends at `endCpu` or where a node of the list ends. -/
theorem end_mem_addCpus {startCpu endCpu : Int} : ∀ {cpuList : List CpuList},
    ∀ other ∈ addCpus cpuList startCpu endCpu,
      other.endCpu = endCpu ∨ ∃ node ∈ cpuList, node.endCpu = other.endCpu
  | [], other, hother => by
    rw [addCpus, List.mem_singleton] at hother
    exact .inl (hother ▸ rfl)
  | node :: rest, other, hother => by
    have hnode : node ∈ node :: rest := List.mem_cons_self node rest
    have hrest : ∀ {n}, n ∈ rest → n ∈ node :: rest := List.mem_cons_of_mem node
    rw [addCpus] at hother
    split at hother
    · rcases List.mem_cons.1 hother with rfl | hother
      · exact .inr ⟨_, hnode, rfl⟩
      · exact (end_mem_addCpus other hother).imp_right fun ⟨n, hn, h⟩ ↦ ⟨n, hrest hn, h⟩
    split at hother
    · rcases end_mem_mergeNext endCpu other hother with h | ⟨n, hn, h⟩
      · exact .inl h
      · rcases List.mem_cons.1 hn with rfl | hn
        · exact .inr ⟨node, hnode, by rw [← h]; split <;> rfl⟩
        · exact .inr ⟨n, hrest hn, h⟩
    split at hother
    · rcases List.mem_cons.1 hother with rfl | hother
      · exact .inr ⟨_, hnode, rfl⟩
      · exact .inr ⟨other, hrest hother, rfl⟩
    · simp only [List.mem_cons] at hother
      rcases hother with rfl | rfl | hother
      · exact .inr ⟨_, hnode, rfl⟩
      · exact .inl rfl
      · exact .inr ⟨other, hrest hother, rfl⟩

/-- When `node` followed by `rest` is canonical, the merge-forward loop leaves it canonical. -/
theorem canonical_mergeNext (endCpu : Int) : ∀ {node : CpuList} {rest : List CpuList},
    Canonical (node :: rest) → Canonical (mergeNext endCpu node rest)
  | node, [], hcanon => by
    have hvalid := hcanon.valid
    unfold CpuList.Valid at hvalid
    refine ⟨fun other hother ↦ ?_, List.chain'_singleton _⟩
    rw [mergeNext, List.mem_singleton] at hother
    subst hother
    split <;> simp only [CpuList.Valid] <;> omega
  | node, next :: rest, hcanon => by
    rw [mergeNext]
    split
    · exact canonical_mergeNext endCpu hcanon.absorbNext
    · have hvalid := hcanon.valid
      have hbefore : node.Before next := (List.chain'_cons.1 hcanon.2).1
      unfold CpuList.Valid at hvalid
      unfold CpuList.Before at hbefore
      refine ⟨List.forall_mem_cons.2 ⟨?_, hcanon.tail.1⟩, List.chain'_cons.2 ⟨?_, hcanon.2.tail⟩⟩
      all_goals split <;> simp only [CpuList.Valid, CpuList.Before] <;> omega

/-- For a canonical list and a range with `0 ≤ startCpu ≤ endCpu` that touches a node of the list or
lies past all of them, `add_cpus` keeps the list canonical. -/
theorem canonical_addCpus {startCpu endCpu : Int} (hstart : 0 ≤ startCpu) (hle : startCpu ≤ endCpu) :
    ∀ {cpuList : List CpuList}, Canonical cpuList →
      ((∃ node ∈ cpuList, node.startCpu ≤ endCpu + 1 ∧ startCpu ≤ node.endCpu + 1) ∨
        ∀ node ∈ cpuList, node.endCpu + 1 < startCpu) →
      Canonical (addCpus cpuList startCpu endCpu)
  | [], _, _ => ⟨by simp [addCpus, CpuList.Valid, hstart, hle], List.chain'_singleton _⟩
  | node :: rest, hcanon, hplace => by
    have hvalid := hcanon.valid
    unfold CpuList.Valid at hvalid
    rw [addCpus]
    split
    · -- the search goes past `node`; everything after it starts past its end
      rename_i hpast
      have hrest := canonical_addCpus hstart hle hcanon.tail (by
        rcases hplace with ⟨other, hother, htouch⟩ | hall
        · rcases List.mem_cons.1 hother with rfl | hother
          · omega
          · exact .inl ⟨other, hother, htouch⟩
        · exact .inr fun other hother ↦ hall other (List.mem_cons_of_mem _ hother))
      refine ⟨List.forall_mem_cons.2 ⟨hcanon.valid, hrest.1⟩, List.chain'_cons'.2 ⟨?_, hrest.2⟩⟩
      intro next hnext
      show node.endCpu + 1 < next.startCpu
      rcases start_mem_addCpus next (List.mem_of_mem_head? hnext) with h | ⟨other, hother, h⟩
      · omega
      · exact h ▸ hcanon.before_of_mem hother
    split
    · exact canonical_mergeNext endCpu (hcanon.lowerStart hstart)
    split
    · -- the range stretches the start of `node`, which it reaches
      exact ⟨List.forall_mem_cons.2 ⟨⟨hstart, by simp only; omega⟩, hcanon.tail.1⟩,
        List.Chain'.imp_head (x := node) (y := { node with startCpu := startCpu }) (fun h ↦ h)
          hcanon.2⟩
    · -- linking the range in after `node` would need a range that touches no node
      exfalso
      rcases hplace with ⟨other, hother, htouch⟩ | hall
      · rcases List.mem_cons.1 hother with rfl | hother
        · omega
        · have := hcanon.before_of_mem hother
          omega
      · have := hall node (List.mem_cons_self node rest)
        omega

/-- When the range touches no node of the list and some node does not end before it, the search
stops at a node that starts more than one past the range, and the range is linked in after that
node: the list `add_cpus` leaves is not canonical. -/
theorem not_canonical_addCpus {startCpu endCpu : Int} : ∀ {cpuList : List CpuList},
    ¬ ((∃ node ∈ cpuList, node.startCpu ≤ endCpu + 1 ∧ startCpu ≤ node.endCpu + 1) ∨
      ∀ node ∈ cpuList, node.endCpu + 1 < startCpu) →
    ¬ Canonical (addCpus cpuList startCpu endCpu)
  | [], hplace => absurd (.inr fun _ h ↦ nomatch h) hplace
  | node :: rest, hplace => by
    push_neg at hplace
    obtain ⟨hapart, other, hother, hreach⟩ := hplace
    have hnode := hapart node (List.mem_cons_self node rest)
    rw [addCpus]
    split
    · rename_i hpast
      refine fun hcanon ↦ not_canonical_addCpus ?_ hcanon.tail
      push_neg
      refine ⟨fun n hn ↦ hapart n (List.mem_cons_of_mem _ hn), ?_⟩
      rcases List.mem_cons.1 hother with rfl | hother
      · omega
      · exact ⟨other, hother, hreach⟩
    split
    · omega
    split
    · omega
    · exact fun hcanon ↦ absurd (List.chain'_cons.1 hcanon.2).1 (by show ¬ node.endCpu + 1 < startCpu; omega)

end CyclicDeadline
