import Mathlib.Data.Int.Basic
import WServer.Library.Monitors
import WServer.Library.Projections

/-!
# Latches

`CountDownLatch` is a monitor over an `int`: `wait` returns when the count is down, and the call of
`countDown` that brings it to zero wakes all that wait.  Any number of threads may wait and count down, in
any order.

The `int` is not bounded here: it goes down from the number the constructor is given, and would overflow only
after `2 ^ 31` calls of `countDown` beyond the last that matters.
-/

namespace WServer

open Library.Runs Library.Monitors

namespace CountDownLatch

/-- `countDown`, which calls `broadcast` when it reaches zero. -/
def countDown (count : ℤ) : ℤ := count - 1

/-- `wait` sleeps while the count is above zero. -/
def code : Code ℤ Unit where
  blocks count := decide (0 < count)
  change count _ := countDown count
  wakes count _ := decide (countDown count = 0)

/-- The constructor. -/
def make {ι : Type*} (count : ℤ) : Monitor ι ℤ := Monitor.init count

def getCount {ι : Type*} (latch : Monitor ι ℤ) : ℤ := latch.data

/-- The last `countDown` is the one that wakes. -/
theorem notifying : code.Notifying := by
  intro count _ hblocks hfree
  have hpos : 0 < count := of_decide_eq_true hblocks
  have hdown : ¬ 0 < countDown count := of_decide_eq_false hfree
  refine decide_eq_true ?_
  rw [countDown] at hdown ⊢
  omega

theorem lasting : code.Lasting := by
  intro count _ hfree
  have hdown : ¬ 0 < count := of_decide_eq_false hfree
  refine decide_eq_false ?_
  rw [show code.change count () = count - 1 from rfl]
  omega

variable {ι : Type*} [DecidableEq ι] {latch latch' : Monitor ι ℤ} {e : Event ι Unit}

/-- The calls of `countDown`. -/
def downs : Event ι Unit → List Unit
  | .change _ => [()]
  | .wait _ | .spurious _ | .retest _ => []

/-- **One step** counts down by the calls it makes. -/
theorem getCount_step (h : Monitor.step code latch e = .ok latch') :
    getCount latch' = getCount latch - (downs e).length := by
  cases Monitor.step_cases h with
  | wait | spurious | retest => exact (Int.sub_zero _).symm
  | change => exact Monitor.change_data code () latch

theorem getCount_run {count : ℤ} {es : List (Event ι Unit)}
    (hrun : runFrom (Monitor.step code) (make count) es = .ok latch) :
    getCount latch = count - (es.flatMap downs).length := by
  refine related_events downs (R := fun ds (m : Monitor ι ℤ) => getCount m = count - ds.length)
    (fun ds m e m' hm _ hstep => ?_) (Int.sub_zero _).symm (along_true _ es) hrun
  rw [getCount_step hstep, hm, List.length_append]
  omega

/-- **The latch opens** with the last call of `countDown`: whatever the threads do, a call of `wait` has
returned only after as many calls as the count, and from then on every thread that is still in `wait` is
awake, and returns with its next step. -/
theorem latch_opens {count : ℤ} {es : List (Event ι Unit)}
    (hrun : runFrom (Monitor.step code) (make count) es = .ok latch) :
    (∀ i, latch.phase i = .passed → count ≤ (es.flatMap downs).length) ∧
      (count ≤ (es.flatMap downs).length → ∀ i, latch.phase i = .asleep ∨ latch.phase i = .woken →
        Monitor.step code latch (.retest i) = .ok (latch.test code i) ∧
          (latch.test code i).phase i = .passed) := by
  have hcount := getCount_run hrun
  rw [getCount] at hcount
  constructor
  · intro i hi
    have hfree : ¬ 0 < latch.data := of_decide_eq_false (Monitor.passed_run lasting hrun i hi)
    omega
  · intro hdown i hi
    have hfree : code.blocks latch.data = false := decide_eq_false (by omega)
    exact Monitor.retest_passes (Monitor.awake_run notifying hrun) hfree hi

/-- Two threads wait for two others. -/
def twoWaiters : List (Event (Fin 2) Unit) :=
  [.wait 0, .change (), .wait 1, .spurious 0, .retest 0, .change (), .retest 1]

theorem latch_opens_twoWaiters : ∃ latch : Monitor (Fin 2) ℤ,
    runFrom (Monitor.step code) (make 2) twoWaiters = .ok latch ∧ latch.phase 0 = .woken ∧
      latch.phase 1 = .passed ∧
      (∀ i, latch.phase i = .passed → (2 : ℤ) ≤ (twoWaiters.flatMap downs).length) ∧
      ((2 : ℤ) ≤ (twoWaiters.flatMap downs).length →
        ∀ i, latch.phase i = .asleep ∨ latch.phase i = .woken →
          Monitor.step code latch (.retest i) = .ok (latch.test code i) ∧
            (latch.test code i).phase i = .passed) :=
  ⟨_, rfl, rfl, rfl, latch_opens rfl⟩

end CountDownLatch

end WServer
