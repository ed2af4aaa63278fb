import CyclicDeadline.Startup.Invariant

/-!
# Progress of the startup protocol

`main` does not check what `pthread_create` returns. A thread that was not created never calls
`pthread_barrier_wait`, and the barrier waits for `nr_threads + 1` callers, so its first cycle
never completes: `main_blocked_of_unborn` shows that while a thread is not started, `main` has
not got through its first barrier call. With one thread, `deadlock_of_create_failure` replays the
run where `pthread_create` fails: `main` waits in the barrier, no party can move, and the
process has not exited.

This is the only way the protocol deadlocks: `unborn_of_deadlocked` shows that in a reachable
state where nothing can move while the process lives, some thread was not started. A thread
that fails a call still calls `pthread_barrier_wait` once more, which is what lets the others
through.

`exited_of_joined`: `join_thread` waits for the thread to exit and an exited thread takes no
further step, so `main` returns only once every thread has exited.
-/

set_option autoImplicit false
set_option relaxedAutoImplicit false

namespace CyclicDeadline

variable {N : Nat} {s : Proc N}

/-! ### The parties that cannot move -/

theorem WorkerPc.arrivals_le_three (pc : WorkerPc) : pc.arrivals ≤ 3 := by
  rcases pc with _ | _ | (_ | _ | _ | _ | _) | (_ | _ | _ | _ | _) | ⟨(_ | _ | _ | _ | _), g⟩ |
    _ | _ | _ | _ | (_ | _ | _ | _) <;> simp [WorkerPc.arrivals, WorkerResume.calls]

theorem MainPc.arrivals_le_three (pc : MainPc) : pc.arrivals ≤ 3 := by
  rcases pc with _ | (_ | _ | _) | ⟨(_ | _ | _), g⟩ | _ | _ | _ | _ | _ | _ | (_ | _ | _) <;>
    simp [MainPc.arrivals, MainResume.calls]

/-- An exited thread made one barrier call, after a failed `sched_getattr`, or all three. -/
theorem WorkerPc.arrivals_of_isExited {pc : WorkerPc} (h : pc.isExited) :
    pc.arrivals = 1 ∧ pc.getattrFailed ∨ pc.arrivals = 3 := by
  rcases pc with _ | _ | _ | _ | _ | _ | _ | _ | _ | (_ | _ | _ | _) <;>
    simp [WorkerPc.isExited, WorkerPc.arrivals, WorkerPc.getattrFailed] at h ⊢

theorem MainPc.passedStep1_of_two_le {pc : MainPc} (h : 2 ≤ pc.arrivals) : pc.passedStep1 := by
  rcases pc with _ | (_ | _ | _) | ⟨(_ | _ | _), g⟩ | _ | _ | _ | _ | _ | _ | (_ | _ | _) <;>
    simp [MainPc.arrivals, MainPc.passedStep1, MainResume.calls] at h ⊢

/-- A thread that cannot move is not started, has exited, or waits in a cycle that has not
completed. -/
theorem Proc.workerStep_eq_none {i : Fin N} {ok : Bool} (h : s.workerStep i ok = none) :
    s.worker i = .unborn ∨ (s.worker i).isExited ∨
      ∃ resume g, s.worker i = .blocked resume g ∧ s.cycle ≤ g := by
  unfold Proc.workerStep at h
  rcases hpc : s.worker i with _ | _ | r | r | ⟨r, g⟩ | _ | _ | _ | _ | how <;>
    simp only [hpc, WorkerPc.next, Option.map_some', Option.map_none', reduceCtorEq] at h
  · exact .inl rfl
  · split at h
    · simp at h
    · exact .inr (.inr ⟨r, g, rfl, by omega⟩)
  · exact .inr (.inl rfl)

/-- `main` cannot move when it waits in a cycle that has not completed, or joins a thread that
has not exited, or the process has exited. -/
theorem Proc.mainStep_eq_none {ok : Bool} (h : s.mainStep ok = none) :
    (∃ resume g, s.main = .blocked resume g ∧ s.cycle ≤ g) ∨
      (∃ i, ∃ hi : i < N, s.main = .join i ∧ (s.worker ⟨i, hi⟩).isExited = false) ∨
      s.main.live = false := by
  unfold Proc.mainStep at h
  rcases hpc : s.main with k | r | ⟨r, g⟩ | _ | _ | _ | _ | k | _ | site <;>
    simp only [hpc, MainPc.next, Option.map_some', Option.map_none', reduceCtorEq] at h
  · split at h <;> simp at h
  · split at h
    · simp at h
    · exact .inl ⟨r, g, rfl, by omega⟩
  · split at h
    · next hk =>
      split at h
      · simp at h
      · next hexit => exact .inr (.inl ⟨k, hk, rfl, by simpa using hexit⟩)
    · simp at h
  · exact .inr (.inr rfl)
  · exact .inr (.inr rfl)

/-! ### Deadlocks -/

/-- In a reachable state with thread `j` not started, the barrier has not completed a cycle, and
`main` has not got through its first call of `pthread_barrier_wait`. -/
theorem main_blocked_of_unborn (hs : Reachable s) {j : Fin N} (hj : s.worker j = .unborn) :
    s.cycle = 0 ∧ s.main.party.passed = 0 := by
  have h := reachable_inv hs
  have hcycle := h.barrier.cycle_le (some j)
  have hpassed := h.barrier.passed_le none
  simp only [Proc.party_some, Proc.party_none, WorkerPc.party, hj, WorkerPc.arrivals] at *
  omega

/-- With one thread whose `pthread_create` fails, `main` waits inside its first barrier call. -/
theorem main_blocked_of_unborn_create_failure :
    ∃ s : Proc 1, Reachable s ∧ s.worker 0 = .unborn ∧ s.main = .blocked .checkStep1 0 ∧
      s.cycle = 0 ∧ s.main.party.passed = 0 := by
  have hs := reachable_run_init ([.main false, .main true, .main true] : List (Event 1)) rfl
  exact ⟨_, hs, rfl, rfl, main_blocked_of_unborn hs (j := 0) rfl⟩

/-- With one thread whose `pthread_create` fails, `main` waits at the first meeting, no party
can move, and the process has not exited. -/
theorem deadlock_of_create_failure : ∃ s : Proc 1, Reachable s ∧ s.Deadlocked :=
  ⟨_, reachable_run_init [.main false, .main true, .main true] rfl, rfl,
    fun e ↦ by rcases e with ok | ⟨i, ok⟩ | _ <;> rfl⟩

/-- Under the invariant, `main` cannot wait in a cycle that has not completed while every thread has
exited or waits in such a cycle: some thread has not called in the cycle, an exited thread made its
calls, and a waiting thread has called in it. -/
theorem Inv.not_stuck_of_main_waiting (h : Inv s) {r : MainResume} {g : Nat}
    (hmain : s.main = .blocked r g) (hg : s.cycle ≤ g)
    (hstuck : ∀ j, (s.worker j).isExited ∨
      ∃ resume g', s.worker j = .blocked resume g' ∧ s.cycle ≤ g') : False := by
  have hahead := h.barrier.arrivals_of_waiting (p := none)
    (by simp [hmain, MainPc.party, MainPc.waiting]) hg
  obtain ⟨_ | j, hj⟩ := h.barrier.exists_behind
  · omega
  simp only [Proc.party_some, Proc.party_none, MainPc.party, WorkerPc.party] at hahead hj
  rcases hstuck j with hexit | ⟨r', g', hpc, hg'⟩
  · -- an exited thread made one call, so `main` waits at the second meeting, past its check
    have hmain3 := MainPc.arrivals_le_three s.main
    rcases WorkerPc.arrivals_of_isExited hexit with ⟨h1, hfailed⟩ | h3
    · have := h.phases.getattr_ok (MainPc.passedStep1_of_two_le (by omega)) j
      simp [hfailed] at this
    · omega
  · have := h.barrier.arrivals_of_waiting (p := some j)
      (by simp [hpc, WorkerPc.party, WorkerPc.waiting]) hg'
    simp only [Proc.party_some, WorkerPc.party] at this
    omega

/-- Under the invariant, with `main` at `join_thread(&thread[i])`, thread `i` does not wait in a
cycle that has not completed: `main` has made its three calls, and the thread would be waiting after
a fourth. -/
theorem Inv.join_not_waiting (h : Inv s) {i : Nat} (hi : i < N) (hmain : s.main = .join i)
    {r : WorkerResume} {g : Nat} (hpc : s.worker ⟨i, hi⟩ = .blocked r g) (hg : s.cycle ≤ g) :
    False := by
  have hcycle := h.barrier.arrivals_eq_of_free (p := none)
    (by simp [hmain, MainPc.party, MainPc.waiting])
  have := h.barrier.arrivals_of_waiting (p := some ⟨i, hi⟩)
    (by simp [hpc, WorkerPc.party, WorkerPc.waiting]) hg
  have h3 := WorkerPc.arrivals_le_three (s.worker ⟨i, hi⟩)
  simp only [Proc.party_some, Proc.party_none, MainPc.party, WorkerPc.party, hmain,
    MainPc.arrivals] at this hcycle
  omega

/-- In a reachable state in which no party can move, some thread was not started. -/
theorem unborn_of_deadlocked (hs : Reachable s) (hdead : s.Deadlocked) :
    ∃ j, s.worker j = .unborn := by
  have h := reachable_inv hs
  obtain ⟨hlive, hnone⟩ := hdead
  by_contra hborn
  push_neg at hborn
  -- every thread is stuck: exited, or waiting in the current cycle
  have hstuck : ∀ j, (s.worker j).isExited ∨
      ∃ resume g, s.worker j = .blocked resume g ∧ s.cycle ≤ g := fun j ↦ by
    have := hnone (.worker j true)
    simp only [Proc.step, hlive, if_true] at this
    exact (Proc.workerStep_eq_none this).resolve_left (hborn j)
  rcases Proc.mainStep_eq_none (hnone (.main true)) with ⟨r, g, hmain, hg⟩ | ⟨i, hi, hmain, hi'⟩ |
    hdone
  · exact h.not_stuck_of_main_waiting hmain hg hstuck
  · rcases hstuck ⟨i, hi⟩ with hexit | ⟨r, g, hpc, hg⟩
    · simp [hexit] at hi'
    · exact h.join_not_waiting hi hmain hpc hg
  · simp [hdone] at hlive

/-- The deadlock after a failed `pthread_create` of the only thread has that thread unstarted. -/
theorem unborn_of_deadlocked_create_failure :
    ∃ s : Proc 1, Reachable s ∧ s.Deadlocked ∧ ∃ j, s.worker j = .unborn := by
  have hs := reachable_run_init ([.main false, .main true, .main true] : List (Event 1)) rfl
  have hdead : Proc.Deadlocked ((Proc.init.run ([.main false, .main true, .main true] :
      List (Event 1))).getD Proc.init) :=
    ⟨rfl, fun e ↦ by rcases e with ok | ⟨i, ok⟩ | _ <;> rfl⟩
  exact ⟨_, hs, hdead, unborn_of_deadlocked hs hdead⟩

/-! ### Joining the threads -/

/-- How many threads `main` has joined: those below `i` at `join_thread(&thread[i])`, and all
`N` once it has returned. -/
def MainPc.joined (N : Nat) : MainPc → Nat
  | .join i => i
  | .returned => N
  | _ => 0

/-- A step of `MainPc.next` joins no thread. -/
theorem MainPc.joined_next {shutdown : Bool} {cycle : Nat} {ok : Bool} {pc pc' : MainPc}
    (h : pc.next shutdown cycle ok = some pc') : pc'.joined N = 0 := by
  rcases pc with _ | _ | ⟨r, g⟩ | _ | _ | _ | _ | _ | _ | _ <;>
    simp only [MainPc.next, reduceCtorEq] at h
  case blocked =>
    split at h
    · cases h
      cases r <;> rfl
    · cases h
  all_goals
    cases h
    split <;> rfl

/-- The threads `main` has joined have exited. -/
def Proc.Joined (s : Proc N) : Prop :=
  ∀ j : Fin N, j.val < s.main.joined N → (s.worker j).isExited

/-- An exited thread takes no step, and no step of a thread moves `main`. -/
theorem Proc.workerStep_joined {i : Fin N} {ok : Bool} {s' : Proc N} (hs : s.Joined)
    (h : s.workerStep i ok = some s') : s'.Joined := by
  have hexit : (s.worker i).isExited = false := by
    cases hpc : s.worker i <;> simp_all [Proc.workerStep, WorkerPc.next, WorkerPc.isExited]
  have hrest : s'.main = s.main ∧ ∀ j, j ≠ i → s'.worker j = s.worker j := by
    unfold Proc.workerStep at h
    split at h
    · cases h
      exact ⟨rfl, fun j hj ↦ Function.update_noteq hj _ _⟩
    · cases h
      exact ⟨by simp, fun j hj ↦ by simp [Function.update_noteq hj]⟩
    · obtain ⟨pc, -, rfl⟩ := Option.map_eq_some'.1 h
      exact ⟨rfl, fun j hj ↦ Function.update_noteq hj _ _⟩
  intro j hj
  rw [hrest.1] at hj
  rcases eq_or_ne j i with rfl | hji
  · simp [hs j hj] at hexit
  · rw [hrest.2 j hji]
    exact hs j hj

/-- `pthread_create`, the barrier, the checks and `loop` join no thread; `join_thread` joins a
thread once it has exited. -/
theorem Proc.mainStep_joined {ok : Bool} {s' : Proc N} (hs : s.Joined)
    (h : s.mainStep ok = some s') : s'.Joined := by
  unfold Proc.mainStep at h
  split at h
  · split at h <;> cases h
    · cases ok <;> intro j hj <;> simp [MainPc.joined] at hj
    · intro j hj
      simp [MainPc.joined] at hj
  · cases h
    intro j hj
    simp [MainPc.joined] at hj
  · rename_i k hmain
    split at h
    · rename_i hk
      split at h
      · rename_i hexit
        cases h
        intro j hj
        simp only [Proc.setMain_main, Proc.setMain_worker, MainPc.joined] at hj ⊢
        rcases Nat.lt_succ_iff_lt_or_eq.1 hj with hj | hj
        · exact hs j (by simpa [hmain, MainPc.joined] using hj)
        · have hj' : j = ⟨k, hk⟩ := Fin.ext hj
          simpa [hj'] using hexit
      · cases h
    · cases h
      intro j hj
      exact hs j (by simp [hmain, MainPc.joined]; omega)
  · obtain ⟨pc, hnext, rfl⟩ := Option.map_eq_some'.1 h
    intro j hj
    simp [MainPc.joined_next hnext] at hj

theorem Proc.step_joined {e : Event N} {s' : Proc N} (hs : s.Joined) (h : s.step e = some s') :
    s'.Joined := by
  cases e with
  | main ok => exact Proc.mainStep_joined hs h
  | worker i ok =>
    simp only [Proc.step] at h
    split at h
    · exact Proc.workerStep_joined hs h
    · cases h
  | signal =>
    simp only [Proc.step] at h
    split at h
    · cases h
      exact hs
    · cases h

/-- In a reachable state, while `main` is at `join_thread(&thread[k])`, every thread below `k` has
exited, and once `main` has returned, every thread has exited. -/
theorem exited_of_joined (hs : Reachable s) :
    (∀ k (j : Fin N), s.main = .join k → j.val < k → (s.worker j).isExited) ∧
      (s.main = .returned → ∀ j, (s.worker j).isExited) := by
  have hjoined : s.Joined := by
    induction hs with
    | init => exact fun j hj ↦ absurd hj (Nat.not_lt_zero _)
    | step _ _ hstep ih => exact Proc.step_joined ih hstep
  refine ⟨fun k j hmain hj ↦ hjoined j (by simpa [hmain, MainPc.joined] using hj), fun hmain j ↦
    hjoined j (by simp [hmain, MainPc.joined])⟩

/-- With one thread whose calls all succeed, a signal during `loop` makes `main` join the thread
once it has left the measuring loop, and return. -/
theorem exited_of_joined_signal :
    ∃ s : Proc 1, Reachable s ∧ s.main = .returned ∧
      (∀ k (j : Fin 1), s.main = .join k → j.val < k → (s.worker j).isExited) ∧
      (s.main = .returned → ∀ j, (s.worker j).isExited) := by
  have hs := reachable_run_init ([.main true, .main true, .main true, .worker 0 true,
    .worker 0 true, .main true, .main true, .main true, .main true, .worker 0 true, .worker 0 true,
    .main true, .main true, .worker 0 true, .worker 0 true, .worker 0 true, .main true,
    .worker 0 true, .worker 0 true, .main true, .signal, .main true, .worker 0 true,
    .worker 0 true, .worker 0 true, .main true, .main true] : List (Event 1)) rfl
  exact ⟨_, hs, rfl, exited_of_joined hs⟩

end CyclicDeadline
