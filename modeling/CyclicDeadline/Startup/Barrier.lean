import Mathlib.Data.Fintype.Card
import Mathlib.Tactic.PushNeg

/-!
# A count-based reusable barrier

`pthread_barrier_wait` on a barrier of `n` parties counts the callers of the current cycle; the
`n`-th caller completes the cycle, which releases every waiting party and sets the count back to
zero. `BarrierOk` is what this bookkeeping keeps true over any finite set of parties: each party
is `Party.Ok` for the current cycle (it has called once per completed cycle and, if it has
called once more, it waits in the current cycle), and the count is the number of parties that
have called in the current cycle, below `n`.

`BarrierOk.release` (a party leaves a completed cycle, or moves without calling) and
`BarrierOk.arrive` (a party calls) keep it. What the startup protocol reads off it is
`BarrierOk.cycle_le` (nobody is behind the barrier), `BarrierOk.passed_le` (nobody has got
through a cycle that has not completed) and `BarrierOk.exists_behind` (some party has not called
in the current cycle).
-/

set_option autoImplicit false
set_option relaxedAutoImplicit false

namespace CyclicDeadline

/-- What the barrier sees of one party: how often it has called `pthread_barrier_wait`, and the
cycle it waits in when it is inside the call. -/
structure Party where
  arrivals : Nat
  waiting : Option Nat
deriving DecidableEq, Repr

/-- How many of the party's calls of `pthread_barrier_wait` have returned. -/
def Party.passed (party : Party) : Nat :=
  if party.waiting.isSome then party.arrivals - 1 else party.arrivals

/-- The party while the barrier's cycle `cycle` is under way: it has called once per completed
cycle and waits, if at all, in the last of them; or it has called in the current cycle too and
waits in it. -/
def Party.Ok (cycle : Nat) (party : Party) : Prop :=
  (party.arrivals = cycle ∧ ∀ g, party.waiting = some g → g + 1 = cycle) ∨
    (party.arrivals = cycle + 1 ∧ party.waiting = some cycle)

/-- When party `p` changes to `party`, which is `Ok`, and every other party is `Ok`, every party is
`Ok` after the change. -/
theorem party_ok_update {ι : Type} [DecidableEq ι] {view : ι → Party} {p : ι} {party : Party}
    {cycle : Nat} (hp : party.Ok cycle) (hq : ∀ q, q ≠ p → (view q).Ok cycle) (q : ι) :
    (Function.update view p party q).Ok cycle := by
  rcases eq_or_ne q p with rfl | hne
  · simpa using hp
  · simpa [Function.update_noteq hne] using hq q hne

section

variable {ι : Type} [Fintype ι]

/-- The parties that have called in the current cycle `cycle`. -/
def ahead (view : ι → Party) (cycle : Nat) : Finset ι :=
  Finset.univ.filter fun p ↦ (view p).arrivals = cycle + 1

@[simp]
theorem mem_ahead {view : ι → Party} {cycle : Nat} {p : ι} :
    p ∈ ahead view cycle ↔ (view p).arrivals = cycle + 1 := by
  simp [ahead]

/-- The bookkeeping of a barrier of `Fintype.card ι` parties that has completed `cycle` cycles
and counts `arrived` callers in the current one. -/
structure BarrierOk (view : ι → Party) (arrived cycle : Nat) : Prop where
  party_ok : ∀ p, (view p).Ok cycle
  /-- The count is the number of parties that have called in the current cycle. -/
  arrived_eq : arrived = (ahead view cycle).card
  /-- The last caller of a cycle sets the count back to zero. -/
  arrived_lt : arrived < Fintype.card ι

variable {view : ι → Party} {arrived cycle : Nat}

theorem BarrierOk.init (hcard : 0 < Fintype.card ι) :
    BarrierOk (fun _ : ι ↦ (⟨0, none⟩ : Party)) 0 0 where
  party_ok _ := .inl ⟨rfl, fun _ h ↦ nomatch h⟩
  arrived_eq := by simp [ahead]
  arrived_lt := hcard

/-- Nobody is behind the barrier: every party has called once per completed cycle. -/
theorem BarrierOk.cycle_le (h : BarrierOk view arrived cycle) (p : ι) :
    cycle ≤ (view p).arrivals := by
  rcases h.party_ok p with ⟨hp, -⟩ | ⟨hp, -⟩ <;> omega

/-- A party that is not waiting, or waits in a completed cycle, has not called in the current cycle.
-/
theorem BarrierOk.arrivals_eq_of_free (h : BarrierOk view arrived cycle) {p : ι}
    (hfree : ∀ g, (view p).waiting = some g → g < cycle) : (view p).arrivals = cycle := by
  rcases h.party_ok p with ⟨hp, -⟩ | ⟨-, hw⟩
  · exact hp
  · exact absurd (hfree cycle hw) (lt_irrefl cycle)

/-- A party `p` that waits in a cycle that has not completed waits in the current one. -/
theorem BarrierOk.arrivals_of_waiting (h : BarrierOk view arrived cycle) {p : ι} {g : Nat}
    (hw : (view p).waiting = some g) (hg : cycle ≤ g) : (view p).arrivals = cycle + 1 := by
  rcases h.party_ok p with ⟨-, hlast⟩ | ⟨hp, -⟩
  · have := hlast g hw
    omega
  · exact hp

/-- Nobody has got through a cycle that has not completed. -/
theorem BarrierOk.passed_le (h : BarrierOk view arrived cycle) (p : ι) :
    (view p).passed ≤ cycle := by
  unfold Party.passed
  rcases h.party_ok p with ⟨hp, -⟩ | ⟨hp, hw⟩
  · split <;> omega
  · simp [hw, hp]

/-- Some party has not called in the current cycle: the last caller would have completed it. -/
theorem BarrierOk.exists_behind (h : BarrierOk view arrived cycle) :
    ∃ p, (view p).arrivals = cycle := by
  by_contra hall
  push_neg at hall
  have huniv : ahead view cycle = Finset.univ := Finset.eq_univ_of_forall fun p ↦ by
    rcases h.party_ok p with ⟨hp, -⟩ | ⟨hp, -⟩
    exacts [absurd hp (hall p), mem_ahead.2 hp]
  have hlt := h.arrived_lt
  rw [h.arrived_eq, huniv, Finset.card_univ] at hlt
  exact lt_irrefl _ hlt

variable [DecidableEq ι]

/-- When party `p` is not waiting, or waits in a completed cycle, it may move on, keeping its calls
and waiting in no cycle. -/
theorem BarrierOk.release (h : BarrierOk view arrived cycle) (p : ι)
    (hfree : ∀ g, (view p).waiting = some g → g < cycle) :
    BarrierOk (Function.update view p ⟨(view p).arrivals, none⟩) arrived cycle := by
  have hp := h.arrivals_eq_of_free hfree
  have hahead : ahead (Function.update view p ⟨(view p).arrivals, none⟩) cycle =
      ahead view cycle := by
    ext q
    rcases eq_or_ne q p with rfl | hne
    · simp [hp]
    · simp [Function.update_noteq hne]
  exact ⟨party_ok_update (.inl ⟨hp, fun _ h ↦ nomatch h⟩) (fun q _ ↦ h.party_ok q),
    hahead ▸ h.arrived_eq, h.arrived_lt⟩

/-- When party `p` is not waiting, its call of `pthread_barrier_wait` completes the cycle when it is
the last party to call, and otherwise makes it wait in the current cycle. -/
theorem BarrierOk.arrive (h : BarrierOk view arrived cycle) (p : ι)
    (hfree : (view p).waiting = none) :
    BarrierOk (Function.update view p ⟨(view p).arrivals + 1, some cycle⟩)
      (if arrived + 1 = Fintype.card ι then 0 else arrived + 1)
      (if arrived + 1 = Fintype.card ι then cycle + 1 else cycle) := by
  have hp := h.arrivals_eq_of_free (p := p) (by simp [hfree])
  have hnotin : p ∉ ahead view cycle := by simp [hp]
  split_ifs with hlast
  · -- the last caller: every other party has called already, and the cycle completes
    have hall : ahead view cycle = Finset.univ.erase p :=
      Finset.eq_of_subset_of_card_le (fun q hq ↦ Finset.mem_erase.2
        ⟨by rintro rfl; exact hnotin hq, Finset.mem_univ q⟩)
        (by rw [Finset.card_erase_of_mem (Finset.mem_univ p), Finset.card_univ, ← h.arrived_eq]
            omega)
    have harr : ∀ q, q ≠ p → (view q).arrivals = cycle + 1 := fun q hq ↦
      mem_ahead.1 (hall ▸ Finset.mem_erase.2 ⟨hq, Finset.mem_univ q⟩)
    have hother : ∀ q, q ≠ p → (view q).Ok (cycle + 1) := fun q hq ↦ by
      rcases h.party_ok q with ⟨hq', -⟩ | ⟨-, hw⟩
      · have := harr q hq
        omega
      · exact .inl ⟨harr q hq, fun _ h ↦ by rw [hw] at h; cases h; rfl⟩
    have hcalled : Party.Ok (cycle + 1) ⟨(view p).arrivals + 1, some cycle⟩ :=
      .inl ⟨by rw [hp], fun _ h ↦ by cases h; rfl⟩
    refine ⟨party_ok_update hcalled hother,
      (Finset.card_eq_zero.2 (Finset.filter_eq_empty_iff.2 fun q _ ↦ ?_)).symm, by omega⟩
    rcases eq_or_ne q p with rfl | hne
    · simp [hp]
    · simp [Function.update_noteq hne, harr q hne]
  · -- not the last caller: `p` joins the waiting parties
    have hins : ahead (Function.update view p ⟨(view p).arrivals + 1, some cycle⟩) cycle =
        insert p (ahead view cycle) := by
      ext q
      rcases eq_or_ne q p with rfl | hne
      · simp [hp]
      · simp [Function.update_noteq hne, hne]
    refine ⟨party_ok_update (.inr ⟨by rw [hp], rfl⟩) (fun q _ ↦ h.party_ok q), ?_, ?_⟩
    · rw [hins, Finset.card_insert_of_not_mem hnotin, h.arrived_eq]
    · have := h.arrived_lt
      omega

end

end CyclicDeadline
