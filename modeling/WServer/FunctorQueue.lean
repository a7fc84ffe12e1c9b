import WServer.EventLoop

/-!
# The queue of functors

The functors executed, the rest of the batch and the pending ones are, one behind the other, all that
was ever queued, in its order.  A functor that is queued while a batch runs is in a later one.

* `queuedSoFar` — the three parts;
* `Later k m` — no functor up to the batch `m` has the place `k` in that order;
* `queue_exactly_once` — whole runs.
-/

namespace WServer

namespace EventLoop

open Library.Runs

variable {Functor : Type*} {l l' : EventLoop Functor}

/-- The functors executed, those left of the batch, and those that wait for the next one. -/
def queuedSoFar (l : EventLoop Functor) : List Functor :=
  l.executed.map Prod.snd ++ l.functors ++ l.pendingFunctors

/-- Between two batches no functor of the last one is left. -/
def BatchOver (l : EventLoop Functor) : Prop :=
  l.pc ≠ .batch → l.pc ≠ .functor → l.functors = []

theorem batchOver_init : BatchOver (init : EventLoop Functor) := fun _ _ => rfl

/-! ### Exactly once, in order -/

theorem LoopStep.batchOver (h : LoopStep l l') (hl : BatchOver l) : BatchOver l' := by
  cases h with
  | lowerFlag hpc hnone => exact fun _ _ => hnone
  | swap hpc => exact fun hbatch _ => absurd rfl hbatch
  | call hpc func functors hnext => exact fun _ hfunctor => absurd rfl hfunctor
  | called hpc => exact fun hbatch _ => absurd rfl hbatch
  | enter hpc | testQuit hpc | poll hpc | handled hpc | raiseFlag hpc =>
      exact fun _ _ => hl (by rw [hpc]; decide) (by rw [hpc]; decide)

/-- The loop thread moves functors from one part to the next. -/
theorem LoopStep.queuedSoFar (h : LoopStep l l') (hl : BatchOver l) :
    l'.queuedSoFar = l.queuedSoFar := by
  cases h with
  | swap hpc =>
      have hnone : l.functors = [] := hl (by rw [hpc]; decide) (by rw [hpc]; decide)
      simp only [EventLoop.queuedSoFar, hnone, List.append_nil]
  | call hpc func functors hnext =>
      simp only [EventLoop.queuedSoFar, hnext, List.map_append, List.map_cons, List.map_nil,
        List.append_assoc, List.cons_append, List.nil_append]
  | enter hpc | testQuit hpc | poll hpc | handled hpc | raiseFlag hpc | lowerFlag hpc hnone
  | called hpc => rfl

theorem batchOver_step {e : LoopEvent Functor} (hl : BatchOver l) (h : loopStep l e = .ok l') :
    BatchOver l' := by
  rcases loopStep_cases h with ⟨_, hstep⟩ | ⟨cb, _, _, _, rfl⟩ | ⟨_, _, _, _, _, _, _, rfl⟩
  · exact hstep.batchOver hl
  · exact hl
  · exact hl

/-- **One step** adds what it pushes at the end, and nothing else. -/
theorem queuedSoFar_step {e : LoopEvent Functor} (hl : BatchOver l) (h : loopStep l e = .ok l') :
    l'.queuedSoFar = l.queuedSoFar ++ e.pushed := by
  rcases loopStep_cases h with ⟨rfl, hstep⟩ | ⟨cb, _, _, hpushed, rfl⟩ | ⟨_, _, _, _, _, hpushed, -, rfl⟩
  · rw [hstep.queuedSoFar hl]
    exact (List.append_nil _).symm
  · rw [hpushed]
    simp only [queuedSoFar, pushBack, List.append_assoc]
  · rw [hpushed, List.append_nil]
    rfl

/-- The functors queued by a run, in their order. -/
theorem queuedSoFar_run {es : List (LoopEvent Functor)} (h : runFrom loopStep init es = .ok l) :
    l.queuedSoFar = es.flatMap LoopEvent.pushed :=
  run_accumulates (fun _ _ _ hl _ => batchOver_step hl) (fun _ _ _ hl _ => queuedSoFar_step hl) es
    batchOver_init (along_true _ _) h

/-! ### In a later batch -/

/-- The functor at the place `k` has not been taken into one of the first `m` batches. -/
structure Later (k m : ℕ) (l : EventLoop Functor) : Prop where
  begun : m ≤ l.batches
  taken : k < l.executed.length + l.functors.length → m < l.batches
  executed : ∀ n func, l.executed[k]? = some (n, func) → m < n

/-- A functor queued next is behind everything taken so far. -/
theorem later_next (l : EventLoop Functor) : Later l.queuedSoFar.length l.batches l := by
  have hlen : l.executed.length + l.functors.length ≤ l.queuedSoFar.length := by
    simp only [queuedSoFar, List.length_append, List.length_map]
    omega
  refine ⟨Nat.le_refl _, fun h => absurd h (by omega), fun n func h => ?_⟩
  have := (List.getElem?_eq_some_iff.mp h).1
  omega

theorem LoopStep.later {k m : ℕ} (h : LoopStep l l') (hl : Later k m l) : Later k m l' := by
  cases h with
  | swap hpc =>
      refine ⟨?_, fun _ => ?_, hl.executed⟩
      · exact Nat.le_succ_of_le hl.begun
      · exact Nat.lt_succ_of_le hl.begun
  | call hpc func functors hnext =>
      have hlen : l.executed.length + l.functors.length = l.executed.length + 1 + functors.length := by
        rw [hnext, List.length_cons]
        omega
      refine ⟨hl.begun, fun hk => hl.taken ?_, fun n f hf => ?_⟩
      · simp only [List.length_append, List.length_singleton] at hk
        omega
      · rcases Nat.lt_or_ge k l.executed.length with hk | hk
        · rw [List.getElem?_append_left hk] at hf
          exact hl.executed n f hf
        · rw [List.getElem?_append_right hk] at hf
          obtain ⟨hzero, heq⟩ := List.getElem?_eq_some_iff.mp hf
          rw [List.getElem_singleton] at heq
          cases heq
          rw [List.length_singleton] at hzero
          exact hl.taken (by omega)
  | enter hpc | testQuit hpc | poll hpc | handled hpc | raiseFlag hpc | lowerFlag hpc hnone
  | called hpc => exact ⟨hl.begun, hl.taken, hl.executed⟩

theorem later_step {k m : ℕ} {e : LoopEvent Functor} (hl : Later k m l)
    (h : loopStep l e = .ok l') : Later k m l' := by
  rcases loopStep_cases h with ⟨_, hstep⟩ | ⟨cb, _, _, _, rfl⟩ | ⟨_, _, _, _, _, _, _, rfl⟩
  · exact hstep.later hl
  · exact ⟨hl.begun, hl.taken, hl.executed⟩
  · exact ⟨hl.begun, hl.taken, hl.executed⟩

theorem later_run {k m : ℕ} {es : List (LoopEvent Functor)} (hl : Later k m l)
    (h : runFrom loopStep l es = .ok l') : Later k m l' :=
  run_invariant (fun _ _ _ hs _ => later_step hs) es hl (along_true _ _) _
    (reachedBy_end h)

/-! ### Whole runs -/

/-- **Exactly once and in order.**  Whatever the threads do and in which order, the functors executed, the
rest of the batch and the pending ones are the functors queued, in the order of their `push_back`; and the
functor that an event queues is executed, if it is, at its place in that order and in a batch that begins
after it was queued. -/
theorem queue_exactly_once {es : List (LoopEvent Functor)} (h : runFrom loopStep init es = .ok l) :
    l.executed.map Prod.snd ++ l.functors ++ l.pendingFunctors = es.flatMap LoopEvent.pushed ∧
      ∀ pre e post cb u, es = pre ++ e :: post → e.pushed = [cb] →
        runFrom loopStep init pre = .ok u →
        ∀ n func, l.executed[(pre.flatMap LoopEvent.pushed).length]? = some (n, func) →
          func = cb ∧ u.batches < n := by
  have hall : l.queuedSoFar = es.flatMap LoopEvent.pushed := queuedSoFar_run h
  refine ⟨hall, ?_⟩
  rintro pre e post cb u rfl hpushed hu n func hfunc
  constructor
  · have hplace : (l.queuedSoFar)[(pre.flatMap LoopEvent.pushed).length]? = some func := by
      have hk := (List.getElem?_eq_some_iff.mp hfunc).1
      rw [queuedSoFar, List.append_assoc, List.getElem?_append_left (by rwa [List.length_map]),
        List.getElem?_map, hfunc]
      rfl
    rw [hall, List.flatMap_append, List.flatMap_cons, hpushed,
      List.getElem?_append_right (Nat.le_refl _), Nat.sub_self] at hplace
    exact (Option.some.inj hplace).symm
  · have hrest : runFrom loopStep u (e :: post) = .ok l := by rwa [runFrom_append _ hu] at h
    have hlater := later_next u
    rw [queuedSoFar_run hu] at hlater
    exact (later_run hlater hrest).executed n func hfunc

/-- A functor that queues another one, and one more from another thread: two batches. -/
def twoBatches : List (LoopEvent ℕ) :=
  [.queueInLoop 1, .wakeup] ++ List.replicate 7 .loop ++ [.queueInLoopOwn 2, .queued, .queueInLoop 3] ++
    List.replicate 11 .loop

/-- The two functors queued while the first batch runs are the second one. -/
theorem queue_exactly_once_twoBatches : ∃ l u : EventLoop ℕ,
    runFrom loopStep init twoBatches = .ok l ∧ l.executed = [(1, 1), (2, 2), (2, 3)] ∧
      l.executed.map Prod.snd ++ l.functors ++ l.pendingFunctors =
        twoBatches.flatMap LoopEvent.pushed ∧
      u.pc = .functor ∧ u.batches < 2 :=
  ⟨_, _, rfl, rfl, (queue_exactly_once (show runFrom loopStep init twoBatches = _ from rfl)).1, rfl,
    ((queue_exactly_once (show runFrom loopStep init twoBatches = _ from rfl)).2 (twoBatches.take 9)
      (.queueInLoopOwn 2) (twoBatches.drop 10) 2 _ rfl rfl rfl 2 2 rfl).2⟩

end EventLoop

end WServer
