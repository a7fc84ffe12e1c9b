import Mathlib.Logic.Function.Basic
import WServer.Library.Runs

/-!
# Monitors

Threads share data behind a mutex and wait on a condition variable, in a loop, while a condition on the data
blocks them; other threads change the data, and may wake all that sleep.  A thread may also wake up for no
reason.  Between two steps the mutex is free.

* `Code` — the condition, the changes, and which of them wake the sleepers;
* `Code.Notifying`, `Code.Lasting` — a change that lifts the condition wakes the sleepers, and none brings
  it back;
* `awake_run`, `passed_run` — then no thread sleeps unless it is blocked, and one that has passed the wait
  is not blocked any more;
* `retest_passes` — a thread that is not blocked passes with its next step.
-/

namespace WServer.Library.Monitors

open Runs

variable {ι σ υ : Type*}

/-- Where a thread stands: outside the wait, asleep in it, about to test again, behind it. -/
inductive Phase where
  | outside
  | asleep
  | woken
  | passed
  deriving DecidableEq, Repr

/-- The code of a monitor. -/
structure Code (σ υ : Type*) where
  blocks : σ → Bool
  change : σ → υ → σ
  wakes : σ → υ → Bool

namespace Code

/-- A change that lifts the condition wakes the sleepers. -/
def Notifying (code : Code σ υ) : Prop :=
  ∀ d u, code.blocks d = true → code.blocks (code.change d u) = false → code.wakes d u = true

/-- No change brings the condition back. -/
def Lasting (code : Code σ υ) : Prop :=
  ∀ d u, code.blocks d = false → code.blocks (code.change d u) = false

end Code

/-- The data and the threads. -/
structure Monitor (ι σ : Type*) where
  data : σ
  phase : ι → Phase

/-- A thread enters the wait, wakes up for no reason, or tests the condition again; or a thread changes the
data. -/
inductive Event (ι υ : Type*) where
  | wait (i : ι)
  | spurious (i : ι)
  | retest (i : ι)
  | change (u : υ)

/-- A step that is not taken where its thread stands. -/
inductive Fault where
  | notThere
  deriving DecidableEq, Repr

namespace Monitor

def init (data : σ) : Monitor ι σ := ⟨data, fun _ => .outside⟩

variable [DecidableEq ι]

/-- The loop around the wait: sleep while the condition blocks. -/
def test (code : Code σ υ) (i : ι) (m : Monitor ι σ) : Monitor ι σ :=
  { m with phase := Function.update m.phase i (if code.blocks m.data then .asleep else .passed) }

def wake (i : ι) (m : Monitor ι σ) : Monitor ι σ :=
  { m with phase := Function.update m.phase i .woken }

/-- Those that sleep are woken. -/
def wakeAll (m : Monitor ι σ) : Monitor ι σ :=
  { m with phase := fun i => if m.phase i = .asleep then .woken else m.phase i }

def change (code : Code σ υ) (u : υ) (m : Monitor ι σ) : Monitor ι σ :=
  let changed : Monitor ι σ := { m with data := code.change m.data u }
  if code.wakes m.data u then changed.wakeAll else changed

/-- One step of the threads. -/
def step (code : Code σ υ) (m : Monitor ι σ) : Event ι υ → Except Fault (Monitor ι σ)
  | .wait i => if m.phase i = .outside ∨ m.phase i = .passed then .ok (m.test code i) else .error .notThere
  | .spurious i => if m.phase i = .asleep then .ok (m.wake i) else .error .notThere
  | .retest i => if m.phase i = .woken then .ok (m.test code i) else .error .notThere
  | .change u => .ok (m.change code u)

variable {code : Code σ υ} {m m' : Monitor ι σ} {i : ι} {u : υ} {e : Event ι υ}

theorem test_phase (code : Code σ υ) (i : ι) (m : Monitor ι σ) :
    (m.test code i).phase i = if code.blocks m.data then .asleep else .passed :=
  Function.update_self _ _ _

theorem test_phase_of_ne {j : ι} (h : j ≠ i) : (m.test code i).phase j = m.phase j :=
  Function.update_of_ne h _ _

theorem wake_phase_of_ne {j : ι} (h : j ≠ i) : (m.wake i).phase j = m.phase j :=
  Function.update_of_ne h _ _

theorem wake_phase (i : ι) (m : Monitor ι σ) : (m.wake i).phase i = .woken := Function.update_self _ _ _

omit [DecidableEq ι] in
theorem wakeAll_phase_ne (m : Monitor ι σ) (i : ι) : m.wakeAll.phase i ≠ .asleep := by
  show (if m.phase i = .asleep then Phase.woken else m.phase i) ≠ .asleep
  split
  · exact nofun
  · assumption

omit [DecidableEq ι] in
theorem wakeAll_passed (h : m.wakeAll.phase i = .passed) : m.phase i = .passed := by
  have hphase : (if m.phase i = .asleep then Phase.woken else m.phase i) = .passed := h
  split at hphase
  · cases hphase
  · exact hphase

omit [DecidableEq ι] in
theorem change_data (code : Code σ υ) (u : υ) (m : Monitor ι σ) :
    (m.change code u).data = code.change m.data u := by
  rw [change]
  split <;> rfl

omit [DecidableEq ι] in
theorem change_passed (h : (m.change code u).phase i = .passed) : m.phase i = .passed := by
  rw [change] at h
  split at h
  · exact wakeAll_passed h
  · exact h

/-! ### Steps -/

/-- What a step does to the data and to the thread it is a step of. -/
inductive Step (code : Code σ υ) (m : Monitor ι σ) : Event ι υ → Monitor ι σ → Prop where
  | wait {i : ι} (hphase : m.phase i = .outside ∨ m.phase i = .passed) :
      Step code m (.wait i) (m.test code i)
  | spurious {i : ι} (hphase : m.phase i = .asleep) : Step code m (.spurious i) (m.wake i)
  | retest {i : ι} (hphase : m.phase i = .woken) : Step code m (.retest i) (m.test code i)
  | change {u : υ} : Step code m (.change u) (m.change code u)

theorem step_cases (h : step code m e = .ok m') : Step code m e m' := by
  cases e with
  | wait i =>
      rw [step] at h
      split at h
      · cases h
        exact .wait ‹_›
      · cases h
  | spurious i =>
      rw [step] at h
      split at h
      · cases h
        exact .spurious ‹_›
      · cases h
  | retest i =>
      rw [step] at h
      split at h
      · cases h
        exact .retest ‹_›
      · cases h
  | change u =>
      cases h
      exact .change

/-- A thread sleeps only while the condition blocks it. -/
def Awake (code : Code σ υ) (m : Monitor ι σ) : Prop := ∀ i, m.phase i = .asleep → code.blocks m.data = true

/-- A thread has passed only if the condition did not block it, and does not any more. -/
def Passed (code : Code σ υ) (m : Monitor ι σ) : Prop := ∀ i, m.phase i = .passed → code.blocks m.data = false

omit [DecidableEq ι] in
theorem awake_init (code : Code σ υ) (data : σ) : Awake code (init data : Monitor ι σ) := nofun

omit [DecidableEq ι] in
theorem passed_init (code : Code σ υ) (data : σ) : Passed code (init data : Monitor ι σ) := nofun

/-- **A step** keeps the sleepers blocked, if the changes wake those they do not block any more. -/
theorem awake_step (hcode : code.Notifying) (h : Awake code m) (hstep : step code m e = .ok m') :
    Awake code m' := by
  -- a thread that tests sleeps only if it is blocked, and the others stay where they are
  have htest : ∀ i, Awake code (m.test code i) := by
    intro i j hj
    by_cases hji : j = i
    · subst hji
      rw [test_phase] at hj
      split at hj
      · assumption
      · cases hj
    · rw [test_phase_of_ne hji] at hj
      exact h j hj
  cases step_cases hstep with
  | wait => exact htest _
  | retest => exact htest _
  | @spurious i hphase =>
      intro j hj
      by_cases hji : j = i
      · subst hji
        rw [wake_phase] at hj
        cases hj
      · rw [wake_phase_of_ne hji] at hj
        exact h j hj
  | @change u =>
      intro j hj
      rw [change_data]
      by_contra hfree
      rw [change] at hj
      cases hwakes : code.wakes m.data u with
      | true =>
          rw [hwakes, if_pos rfl] at hj
          exact wakeAll_phase_ne _ _ hj
      | false =>
          rw [hwakes, if_neg Bool.false_ne_true] at hj
          have hwoken := hcode m.data u (h j hj) (Bool.eq_false_iff.mpr hfree)
          rw [hwakes] at hwoken
          cases hwoken

/-- **A step** blocks no thread that has passed, if no change does. -/
theorem passed_step (hcode : code.Lasting) (h : Passed code m) (hstep : step code m e = .ok m') :
    Passed code m' := by
  have htest : ∀ i, Passed code (m.test code i) := by
    intro i j hj
    by_cases hji : j = i
    · subst hji
      rw [test_phase] at hj
      split at hj
      · cases hj
      · exact Bool.eq_false_iff.mpr ‹_›
    · rw [test_phase_of_ne hji] at hj
      exact h j hj
  cases step_cases hstep with
  | wait => exact htest _
  | retest => exact htest _
  | @spurious i hphase =>
      intro j hj
      by_cases hji : j = i
      · subst hji
        rw [wake_phase] at hj
        cases hj
      · rw [wake_phase_of_ne hji] at hj
        exact h j hj
  | @change u =>
      intro j hj
      rw [change_data]
      exact hcode _ _ (h j (change_passed hj))

/-! ### Runs -/

/-- **No thread sleeps unblocked**, in any order of the steps. -/
theorem awake_run (hcode : code.Notifying) {data : σ} {es : List (Event ι υ)}
    (hrun : runFrom (step code) (init data) es = .ok m) : Awake code m :=
  run_invariant (fun _ _ _ h _ hstep => awake_step hcode h hstep) es
    (awake_init code data) (along_true _ es) m (reachedBy_end hrun)

/-- **A thread that has passed** is not blocked, in any order of the steps. -/
theorem passed_run (hcode : code.Lasting) {data : σ} {es : List (Event ι υ)}
    (hrun : runFrom (step code) (init data) es = .ok m) : Passed code m :=
  run_invariant (fun _ _ _ h _ hstep => passed_step hcode h hstep) es
    (passed_init code data) (along_true _ es) m (reachedBy_end hrun)

/-- A thread in the wait that is not blocked is about to test, and passes. -/
theorem retest_passes (h : Awake code m) (hfree : code.blocks m.data = false)
    (hin : m.phase i = .asleep ∨ m.phase i = .woken) :
    step code m (.retest i) = .ok (m.test code i) ∧ (m.test code i).phase i = .passed := by
  have hwoken : m.phase i = .woken := by
    rcases hin with hasleep | hwoken
    · have hblocked := h i hasleep
      rw [hfree] at hblocked
      cases hblocked
    · exact hwoken
  refine ⟨if_pos hwoken, ?_⟩
  rw [test_phase, hfree, if_neg Bool.false_ne_true]

end Monitor

end WServer.Library.Monitors
