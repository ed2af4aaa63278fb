import CyclicDeadline.Startup.Invariant

/-!
# The order of the startup phases

`setattr_after_setup`: in every reachable state of every interleaving, with every result of
every call, a thread that has come to its `sched_setattr` finds every thread's first
`sched_getattr` succeeded, the cpusets made and the barrier's second cycle complete; and a thread
in `do_runtime` finds every thread's `sched_setattr` succeeded.

`main` does not find out about a failed `sched_setattr` in time, though. The thread sets
`shutdown` after its failed call, which comes after the second meeting, and `main` reads
`shutdown` only right after that meeting. `returns_after_setattr_failure` replays an interleaving
in which `main` reads it first: `main` passes its second check, the thread then fails and sets
`shutdown`, both meet a third time, and `main` enters `loop`, sees `shutdown`, joins the thread
and returns 0. `complete_or_shutdown_of_handlersSet` shows what holds instead: by the time `main`
is in `loop`, every `sched_setattr` has succeeded or `shutdown` is set, so `loop` ends at once.
-/

set_option autoImplicit false
set_option relaxedAutoImplicit false

namespace CyclicDeadline

variable {N : Nat} {s : Proc N}

/-- In a reachable state, a thread at or past its `sched_setattr` comes after every thread's
successful `sched_getattr`, after `main` made the cpusets, and after the barrier's second cycle; a
thread in `do_runtime` comes after every thread's successful `sched_setattr`. -/
theorem setattr_after_setup (hs : Reachable s) (j : Fin N) :
    ((s.worker j).reachedSetattr →
        (∀ k, (s.worker k).getattrOk) ∧ s.main.cpusetDone ∧ 2 ≤ s.cycle) ∧
      (s.worker j = .runtime → ∀ k, (s.worker k).setattrOk) := by
  have h := reachable_inv hs
  refine ⟨fun hj ↦ ?_, h.phases.setattr_ok j⟩
  have hcycle : 2 ≤ s.cycle := (WorkerPc.two_le_passed hj).trans (h.barrier.passed_le (some j))
  refine ⟨fun k ↦ WorkerPc.getattrOk_of_two_le ?_, MainPc.cpusetDone_of_two_le ?_, hcycle⟩
  · exact hcycle.trans (h.barrier.cycle_le (some k))
  · exact hcycle.trans (h.barrier.cycle_le none)

/-- With one thread whose calls all succeed, the thread gets to `do_runtime`, after its
successful `sched_setattr`. -/
theorem setattr_after_setup_steady :
    ∃ s : Proc 1, Reachable s ∧ s.worker 0 = .runtime ∧ ∀ k, (s.worker k).setattrOk := by
  have hs := reachable_run_init ([.main true, .main true, .main true, .worker 0 true,
    .worker 0 true, .main true, .main true, .main true, .main true, .worker 0 true, .worker 0 true,
    .main true, .main true, .worker 0 true, .worker 0 true, .worker 0 true, .main true,
    .worker 0 true, .worker 0 true] : List (Event 1)) rfl
  exact ⟨_, hs, rfl, (setattr_after_setup hs 0).2 rfl⟩

/-- In a reachable state, once `main` has installed `sighand`, every thread's `sched_setattr` has
succeeded or `shutdown` is set. -/
theorem complete_or_shutdown_of_handlersSet (hs : Reachable s) (hmain : s.main.handlersSet) :
    (∀ k, (s.worker k).setattrOk) ∨ s.shutdown := by
  have h := reachable_inv hs
  have hcycle : 3 = s.cycle := by
    have hfree : s.main.waiting = none := by
      revert hmain; cases s.main <;> simp [MainPc.handlersSet, MainPc.waiting]
    have h3 : s.main.arrivals = 3 := by
      revert hmain; cases s.main <;> simp [MainPc.handlersSet, MainPc.arrivals]
    simpa [MainPc.party, h3] using
      h.barrier.arrivals_eq_of_free (p := none) (by simp [MainPc.party, hfree])
  by_cases hall : ∀ k, (s.worker k).setattrOk
  · exact .inl hall
  · obtain ⟨k, hk⟩ := not_forall.1 hall
    have := h.barrier.cycle_le (some k)
    rcases WorkerPc.setattrOk_or_failed (by simpa [WorkerPc.party, ← hcycle] using this)
      with hok | hfailed
    · exact absurd hok hk
    · exact .inr (h.phases.shutdown_of_failed k hfailed)

/-- With one thread whose `sched_setattr` fails after `main` passed its second check, `main`
reaches `loop` with `shutdown` set. -/
theorem complete_or_shutdown_of_handlersSet_failed :
    ∃ s : Proc 1, Reachable s ∧ s.main = .loop ∧ (s.worker 0).setattrOk = false ∧ s.shutdown := by
  have hs := reachable_run_init ([.main true, .main true, .main true, .worker 0 true,
    .worker 0 true, .main true, .main true, .main true, .main true, .worker 0 true, .worker 0 true,
    .main true, .main true, .worker 0 true, .worker 0 false, .worker 0 true, .worker 0 true,
    .main true, .main true] : List (Event 1)) rfl
  exact ⟨_, hs, rfl, rfl, (complete_or_shutdown_of_handlersSet hs rfl).resolve_left
    fun hall ↦ absurd (hall 0) (by decide)⟩

/-- With one thread, `main` passes its second check before the thread's `sched_setattr` fails;
the thread sets `shutdown` and meets `main` a third time, and `main` enters `loop`, finds
`shutdown` set, joins the thread and returns 0. -/
theorem returns_after_setattr_failure :
    ∃ s : Proc 1, Reachable s ∧ s.worker 0 = .exited .setattrFailed ∧ s.main = .returned :=
  ⟨_, reachable_run_init [.main true, .main true, .main true, .worker 0 true, .worker 0 true,
    .main true, .main true, .main true, .main true, .worker 0 true, .worker 0 true, .main true,
    .main true, .worker 0 true, .worker 0 false, .worker 0 true, .worker 0 true, .main true,
    .main true, .main true, .worker 0 true, .main true, .main true] rfl, rfl, rfl⟩

end CyclicDeadline
