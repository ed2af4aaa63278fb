import CyclicDeadline.CpuList.Complement
import CyclicDeadline.CpuList.Accept

/-!
# The affinity handling of `main`

`affinitySetup` is the part of `main` between option parsing and thread creation that turns
the affinity expression into the two texts the cpusets are made from: `calc_nr_cpus` checks
the expression and renders it into `setcpu_buf`, `all_cpus` is set when the count equals
`cpu_count`, and `make_other_cpu_list` writes the other CPUs into `allcpu_buf`. `my_cpuset` is
made from `setcpu_buf` and `my_cpuset_all` from `allcpu_buf` when `all_cpus` is unset.

When the expression is a canonical rendering, `calcNrCpusChecked_renderCpus` and
`makeOtherCpuList_renderCpus` make the two texts complementary. The misordered insertion of
`add_cpus` breaks this for expressions that are not written in increasing order:
`affinitySetup_overlapping_cpusets` shows that with ten CPUs `-a 5-9,1` gives `my_cpuset` the
text `5-9,1` and `my_cpuset_all` the text `0-4`, so CPU 1 is in both; with `-a 5-9,1,1,1,1,1`
every repeated `1` is counted again, and `main` counts ten CPUs and sets `all_cpus` although the
expression names six.

Without an affinity expression `nr_cpus` is `cpu_count`, so `all_cpus` is always set and the
default of the last CPU is never used (`parseOptions_affinitySetup`, `Startup.Options`).

An expression whose ranges come in increasing order of start never reaches that insertion:
`affinitySetup_sorted` shows that for it, when its numbers are below `INT_MAX`, `calc_nr_cpus`
evaluates nothing undefined, and `main` makes the two cpusets from the canonical renderings of
the CPUs it names and of the others, sets `all_cpus` exactly when it names every CPU, and stops
with `fatal` when it names a CPU that does not exist.
-/

set_option autoImplicit false
set_option relaxedAutoImplicit false

namespace CyclicDeadline

/-- What `main` has set up from the affinity option once `make_other_cpu_list` has run:
`all_cpus`, `nr_cpus`, `setcpu` (which now points at `setcpu_buf`) and `allcpu_buf`. -/
structure Affinity where
  allCpus : Bool
  nrCpus : Int
  setcpu : Option (List Char)
  allcpuBuf : Option (List Char)

/-- The affinity handling of `main`, from the option's `setcpu` and `all_cpus`; `fuel` is the
number of passes `calc_nr_cpus` gets. `none` is a `calc_nr_cpus` that has not returned and
`some (.error msg)` a `fatal`. -/
def affinitySetup (fuel : Nat) (cpuCount : Int) (setcpu : Option (List Char)) (allCpus : Bool) :
    Option (Except String Affinity) :=
  let counted : Option (Int × Option (List Char)) :=
    match setcpu with
    | some text => calcNrCpus fuel cpuCount text none
    | none => some (cpuCount, none)
  counted.map fun (nrCpus, setcpuBuf) ↦
    if setcpu.isSome ∧ (nrCpus < 0 ∨ nrCpus > cpuCount) then .error "Invalid cpu input '%s'\n"
    else
      let allCpus := allCpus || decide (cpuCount = nrCpus)
      let setcpuBuf :=
        if !allCpus && setcpu.isNone then some (formatInt (cpuCount - 1)) else setcpuBuf
      .ok ⟨allCpus, nrCpus, setcpuBuf, setcpuBuf.bind fun text ↦ makeOtherCpuList cpuCount text none⟩

/-- With ten CPUs, `-a 5-9,1` is in the grammar and names CPUs 1 and 5 to 9, yet `main` makes
`my_cpuset` from `5-9,1` and `my_cpuset_all` from `0-4`: CPU 1 is in both. -/
theorem affinitySetup_overlapping_cpusets :
    CpuListText "5-9,1".toList [(5, 9), (1, 1)] ∧
      affinitySetup 3 10 (some "5-9,1".toList) false =
        some (.ok ⟨false, 6, some "5-9,1".toList, some "0-4".toList⟩) ∧
      CpuListText "0-4".toList [(0, 4)] ∧ namedBy [(5, 9), (1, 1)] 1 ∧ namedBy [(0, 4)] 1 := by
  refine ⟨?_, rfl, ?_, by decide, by decide⟩
  · have htext : "5-9,1".toList = (['5'] ++ '-' :: ['9']) ++ ',' :: ['1'] := rfl
    rw [htext]
    exact CpuListText.cons
      (CpuToken.range (digitRun_singleton rfl rfl) (digitRun_singleton rfl rfl) (by omega))
      (CpuListText.last (CpuToken.single (digitRun_singleton rfl rfl)))
  · have htext : "0-4".toList = ['0'] ++ '-' :: ['4'] := rfl
    rw [htext]
    exact CpuListText.last
      (CpuToken.range (digitRun_singleton rfl rfl) (digitRun_singleton rfl rfl) (by omega))

/-- With ten CPUs, `-a 5-9,1,1,1,1,1` names six CPUs, but every repeated `1` is linked in
again after `5-9`, `count_cpus` counts ten and `main` sets `all_cpus`. -/
example : ¬ namedBy [(5, 9), (1, 1), (1, 1), (1, 1), (1, 1), (1, 1)] 0 ∧
    (affinitySetup 7 10 (some "5-9,1,1,1,1,1".toList) false).map
      (fun result ↦ result.toOption.map Affinity.allCpus) = some (some true) :=
  ⟨by decide, rfl⟩

/-- With at least one CPU and an affinity expression in the grammar whose ranges come in
increasing order of start and whose numbers are below `INT_MAX`, `calc_nr_cpus` evaluates no
undefined `atoi` or `int` expression, and `main` makes `my_cpuset` from the canonical rendering
of the CPUs the expression names and `my_cpuset_all` from the canonical rendering of the other
CPUs, or leaves it unset when there are none, and sets `all_cpus` exactly when the count is
`cpu_count`; when the expression names a CPU that does not exist, `main` stops with `fatal`. -/
theorem affinitySetup_sorted {cpuCount : Int} (hcount : 1 ≤ cpuCount) {text : List Char}
    {ranges : List (Nat × Nat)} (htext : CpuListText text ranges)
    (hsorted : ranges.Sorted fun range range' ↦ range.1 ≤ range'.1) (hne : ranges ≠ [])
    (hint : ∀ range ∈ ranges, (range.2 : Int) < 2147483647) :
    calcNrCpusChecked (text.length + 1) cpuCount text none =
      some (calcNrCpus (text.length + 1) cpuCount text none) ∧
    ∃ cpuList, Canonical cpuList ∧ (∀ cpu : Nat, covers cpuList cpu ↔ namedBy ranges cpu) ∧
      ((∀ range ∈ ranges, (range.2 : Int) < cpuCount) → ∃ others, Canonical others ∧
        (∀ cpu, covers others cpu ↔ 0 ≤ cpu ∧ cpu < cpuCount ∧ ¬ covers cpuList cpu) ∧
        affinitySetup (text.length + 1) cpuCount (some text) false =
          some (.ok ⟨decide (cpuCount = (coveredBelow cpuCount.toNat cpuList).card),
            (coveredBelow cpuCount.toNat cpuList).card, some (renderCpus cpuList),
            if others = [] then none else some (renderCpus others)⟩)) ∧
      ((∃ range ∈ ranges, cpuCount ≤ (range.2 : Int)) →
        affinitySetup (text.length + 1) cpuCount (some text) false =
          some (.error "Invalid cpu input '%s'\n")) := by
  obtain ⟨cpuList, hcanon, hlist, hnamed, hcalc⟩ := calcNrCpus_sorted htext hsorted hne cpuCount none
  refine ⟨calcNrCpusChecked_sorted htext hsorted hint cpuCount none, cpuList, hcanon, hnamed,
    fun hin ↦ ?_, fun ⟨range, hrange, hout⟩ ↦ ?_⟩
  · -- every CPU exists: the count is at most `cpu_count`, and the other CPUs are the gaps
    have hlt := (ends_lt_iff hcanon hnamed htext.range_le cpuCount).2 hin
    have hstart : ∀ node ∈ cpuList, 0 ≤ node.startCpu := fun node hnode ↦ (hcanon.1 node hnode).1
    have hcard : (coveredBelow cpuCount.toNat cpuList).card ≤ cpuCount.toNat :=
      (Finset.card_filter_le _ _).trans (Finset.card_range _).le
    refine ⟨_, canonical_gapsFrom le_rfl hcanon hstart, covers_gapsFrom hcanon hstart hlt, ?_⟩
    simp only [affinitySetup, hcalc, if_pos hin, Option.map_some', Option.isSome_some, true_and]
    rw [if_neg (by omega)]
    simp only [Bool.false_or, Option.isNone_some, Bool.and_false, Bool.false_eq_true, ↓reduceIte,
      Option.some_bind, makeOtherCpuList_eq hcount hcanon hlist hlt]
  · -- a CPU past the last: `calc_nr_cpus` returns `-1`
    have hnot : ¬ ∀ range ∈ ranges, (range.2 : Int) < cpuCount := fun hin ↦
      absurd (hin range hrange) (not_lt.2 hout)
    simp only [affinitySetup, hcalc, if_neg hnot, Option.map_some', Option.isSome_some, true_and]
    rw [if_pos (by omega)]

/-- With eight CPUs, `-a 0-3,2-5,7` is in the grammar with its ranges in increasing order of
start. -/
theorem affinitySetup_sorted_overlap :
    (1 : Int) ≤ 8 ∧ CpuListText "0-3,2-5,7".toList [(0, 3), (2, 5), (7, 7)] ∧
      [(0, 3), (2, 5), (7, 7)].Sorted (fun range range' : Nat × Nat ↦ range.1 ≤ range'.1) ∧
      [(0, 3), (2, 5), (7, 7)] ≠ [] ∧
      (∀ range ∈ [((0 : Nat), (3 : Nat)), (2, 5), (7, 7)], (range.2 : Int) < 2147483647) ∧
      calcNrCpusChecked ("0-3,2-5,7".toList.length + 1) 8 "0-3,2-5,7".toList none =
        some (calcNrCpus ("0-3,2-5,7".toList.length + 1) 8 "0-3,2-5,7".toList none) ∧
      ∃ cpuList, Canonical cpuList ∧
        (∀ cpu : Nat, covers cpuList cpu ↔ namedBy [(0, 3), (2, 5), (7, 7)] cpu) ∧
        ((∀ range ∈ [(0, 3), (2, 5), (7, 7)], ((range : Nat × Nat).2 : Int) < 8) →
          ∃ others, Canonical others ∧
            (∀ cpu, covers others cpu ↔ 0 ≤ cpu ∧ cpu < 8 ∧ ¬ covers cpuList cpu) ∧
            affinitySetup ("0-3,2-5,7".toList.length + 1) 8 (some "0-3,2-5,7".toList) false =
              some (.ok ⟨decide ((8 : Int) = (coveredBelow (8 : Int).toNat cpuList).card),
                (coveredBelow (8 : Int).toNat cpuList).card, some (renderCpus cpuList),
                if others = [] then none else some (renderCpus others)⟩)) ∧
        ((∃ range ∈ [(0, 3), (2, 5), (7, 7)], (8 : Int) ≤ ((range : Nat × Nat).2 : Int)) →
          affinitySetup ("0-3,2-5,7".toList.length + 1) 8 (some "0-3,2-5,7".toList) false =
            some (.error "Invalid cpu input '%s'\n")) := by
  have htext : CpuListText "0-3,2-5,7".toList [(0, 3), (2, 5), (7, 7)] := by
    have hsplit : "0-3,2-5,7".toList =
        (['0'] ++ '-' :: ['3']) ++ ',' :: ((['2'] ++ '-' :: ['5']) ++ ',' :: ['7']) := rfl
    rw [hsplit]
    exact .cons (.range (digitRun_singleton rfl rfl) (digitRun_singleton rfl rfl) (by omega))
      (.cons (.range (digitRun_singleton rfl rfl) (digitRun_singleton rfl rfl) (by omega))
        (.last (.single (digitRun_singleton rfl rfl))))
  have hint : ∀ range ∈ [((0 : Nat), (3 : Nat)), (2, 5), (7, 7)], (range.2 : Int) < 2147483647 := by
    decide
  exact ⟨by decide, htext, by decide, by decide, hint,
    affinitySetup_sorted (by decide) htext (by decide) (by decide) hint⟩

example : affinitySetup 10 8 (some "0-3,2-5,7".toList) false =
    some (.ok ⟨false, 7, some "0-5,7".toList, some "6".toList⟩) :=
  rfl

end CyclicDeadline
