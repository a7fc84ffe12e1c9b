import WServer.EventLoop

/-!
# No lost wakeup

`poll` blocks while the eventfd reads zero.  A functor is queued without a `wakeup` only by the loop's own
thread outside `doPendingFunctors`; there the loop swaps the queue out before it polls again.

* `BeforeSwap` — the places from which the loop comes to the swap without a `poll`;
* `Woken` — the invariant;
* `no_lost_wakeup` — whole runs.
-/

namespace WServer

namespace EventLoop

open Library.Runs

variable {Functor : Type*} {l l' : EventLoop Functor}

/-- The loop thread handles events, or is in `doPendingFunctors` before its swap. -/
def BeforeSwap (pc : LoopPc) : Prop := pc = .handling ∨ pc = .raiseFlag ∨ pc = .swap

/-- `m_calling_pending_functors` is set at these places. -/
def Calling (pc : LoopPc) : Prop := pc = .swap ∨ pc = .batch ∨ pc = .functor

instance (pc : LoopPc) : Decidable (BeforeSwap pc) := inferInstanceAs (Decidable (_ ∨ _))

instance (pc : LoopPc) : Decidable (Calling pc) := inferInstanceAs (Decidable (_ ∨ _))

/-- The loop's own thread calls `queueInLoop` while it handles events or runs functors only. -/
def CalledInLoop (l : EventLoop Functor) : LoopEvent Functor → Prop
  | .queueInLoopOwn _ => l.pc ≠ .outside
  | _ => True

/-- Behind every pending functor there is a written eventfd, a `wakeup` on its way, or the swap. -/
structure Woken (l : EventLoop Functor) : Prop where
  calling : l.callingPendingFunctors = true ↔ Calling l.pc
  queueing : l.queueing = true → l.pc = .handling ∨ l.pc = .functor
  pending : l.pendingFunctors ≠ [] →
    0 < l.wakeupFd ∨ 0 < l.waking ∨ BeforeSwap l.pc ∨ l.queueing = true

theorem woken_init : Woken (init : EventLoop Functor) :=
  ⟨iff_of_false Bool.false_ne_true (show ¬ Calling .outside by decide),
    fun h => absurd h Bool.false_ne_true, fun h => absurd rfl h⟩

/-- The loop thread comes to `poll` with nothing pending but what it is woken up for. -/
theorem Woken.poll (h : Woken l) (hpc : l.pc = .poll) (hwaking : l.waking = 0) :
    l.pendingFunctors = [] ∨ 0 < l.wakeupFd := by
  by_cases hnone : l.pendingFunctors = []
  · exact Or.inl hnone
  · right
    rcases h.pending hnone with hfd | hw | hswap | hq
    · exact hfd
    · omega
    · rw [hpc] at hswap
      exact absurd hswap (by decide)
    · rcases h.queueing hq with hpc' | hpc' <;> rw [hpc] at hpc' <;> cases hpc'

/-! ### One step -/

/-- A step of the loop thread that leaves the queue alone, between two places of which the second is
before the swap if the first is. -/
theorem Woken.move (h : Woken l) (p p' : LoopPc) (hq : l.queueing = false) (hpc : l.pc = p)
    (hpc' : l'.pc = p')
    (hsame : l'.pendingFunctors = l.pendingFunctors ∧ l'.wakeupFd = l.wakeupFd ∧
      l'.waking = l.waking ∧ l'.queueing = l.queueing)
    (hcalling : l'.callingPendingFunctors = true ↔ Calling p')
    (hswap : BeforeSwap p → BeforeSwap p') : Woken l' := by
  obtain ⟨hpending, hfd, hwaking, hqueueing⟩ := hsame
  refine ⟨hpc' ▸ hcalling, fun htrue => ?_, fun hnone => ?_⟩
  · rw [hqueueing, hq] at htrue
    cases htrue
  · rw [hfd, hwaking, hqueueing, hpc']
    rw [hpending] at hnone
    exact (h.pending hnone).imp_right (Or.imp_right (Or.imp_left (hpc ▸ hswap)))

/-- **The loop thread** leaves the places before the swap by the swap only. -/
theorem LoopStep.woken (hstep : LoopStep l l') (h : Woken l) (hq : l.queueing = false) : Woken l' := by
  have hcalling := h.calling
  cases hstep with
  | enter hpc =>
      rw [hpc] at hcalling
      exact h.move .outside .quitTest hq hpc rfl ⟨rfl, rfl, rfl, rfl⟩
        (hcalling.trans (by decide)) (by decide)
  | testQuit hpc =>
      rw [hpc] at hcalling
      refine h.move .quitTest (if l.quit then .outside else .poll) hq hpc rfl
        ⟨rfl, rfl, rfl, rfl⟩ (hcalling.trans ?_) ?_
      · split <;> decide
      · split <;> decide
  | poll hpc =>
      rw [hpc] at hcalling
      exact h.move .poll .handling hq hpc rfl ⟨rfl, rfl, rfl, rfl⟩
        (hcalling.trans (by decide)) (by decide)
  | handled hpc =>
      rw [hpc] at hcalling
      exact h.move .handling .raiseFlag hq hpc rfl ⟨rfl, rfl, rfl, rfl⟩
        (hcalling.trans (by decide)) (by decide)
  | raiseFlag hpc =>
      exact h.move .raiseFlag .swap hq hpc rfl ⟨rfl, rfl, rfl, rfl⟩
        (iff_of_true rfl (by decide)) (by decide)
  | lowerFlag hpc hnone =>
      exact h.move .batch .quitTest hq hpc rfl ⟨rfl, rfl, rfl, rfl⟩
        (iff_of_false Bool.false_ne_true (by decide)) (by decide)
  | call hpc func functors hnext =>
      rw [hpc] at hcalling
      exact h.move .batch .functor hq hpc rfl ⟨rfl, rfl, rfl, rfl⟩
        (hcalling.trans (by decide)) (by decide)
  | called hpc =>
      rw [hpc] at hcalling
      exact h.move .functor .batch hq hpc rfl ⟨rfl, rfl, rfl, rfl⟩
        (hcalling.trans (by decide)) (by decide)
  | swap hpc =>
      rw [hpc] at hcalling
      refine ⟨hcalling.trans (show Calling .swap ↔ Calling .batch by decide), fun htrue => ?_,
        fun hnone => absurd rfl hnone⟩
      rw [hq] at htrue
      cases htrue

/-- The end of a call of `queueInLoop` in the loop's own thread: a functor writes the eventfd, and behind
a handler comes the swap. -/
theorem Woken.queued (h : Woken l) (hq : l.queueing = true) : Woken l.queued := by
  rcases h.queueing hq with hpc | hpc
  · have hflag : ¬ l.callingPendingFunctors = true := by
      rw [h.calling, hpc]
      decide
    have hqueued : l.queued = { l with queueing := false } := by rw [EventLoop.queued, if_neg hflag]
    rw [hqueued]
    refine ⟨h.calling, fun htrue => absurd htrue Bool.false_ne_true, fun _ => ?_⟩
    exact Or.inr (Or.inr (Or.inl (Or.inl hpc)))
  · have hflag : l.callingPendingFunctors = true := by
      rw [h.calling, hpc]
      decide
    have hqueued : l.queued = { l.wakeup with queueing := false } := by
      rw [EventLoop.queued, if_pos hflag]
    rw [hqueued]
    refine ⟨h.calling, fun htrue => absurd htrue Bool.false_ne_true, fun _ => ?_⟩
    exact Or.inl (Nat.succ_pos _)

/-- **One step** of any thread. -/
theorem woken_step (l : EventLoop Functor) (e : LoopEvent Functor) (l' : EventLoop Functor)
    (h : Woken l) (hgood : CalledInLoop l e) (hstep : loopStep l e = .ok l') : Woken l' := by
  cases e with
  | queueInLoop cb =>
      cases hstep
      exact ⟨h.calling, h.queueing, fun _ => Or.inr (Or.inl (Nat.succ_pos _))⟩
  | wakeup =>
      rw [loopStep] at hstep
      split at hstep
      · cases hstep
        exact ⟨h.calling, h.queueing, fun _ => Or.inl (Nat.succ_pos _)⟩
      · cases hstep
  | quit =>
      cases hstep
      exact ⟨h.calling, h.queueing, h.pending⟩
  | quitWakeup =>
      rw [loopStep] at hstep
      split at hstep
      · cases hstep
        exact ⟨h.calling, h.queueing, fun _ => Or.inl (Nat.succ_pos _)⟩
      · cases hstep
  | queueInLoopOwn cb =>
      rw [loopStep] at hstep
      split at hstep
      · rename_i hcode
        cases hstep
        refine ⟨h.calling, fun _ => ?_, fun _ => Or.inr (Or.inr (Or.inr rfl))⟩
        exact hcode.1.resolve_left hgood
      · cases hstep
  | queued =>
      rw [loopStep] at hstep
      split at hstep
      · cases hstep
        exact h.queued ‹_›
      · cases hstep
  | quitOwn =>
      rw [loopStep] at hstep
      split at hstep
      · cases hstep
        exact ⟨h.calling, h.queueing, h.pending⟩
      · cases hstep
  | handleRead =>
      rw [loopStep] at hstep
      split at hstep
      · rename_i hread
        cases hstep
        exact ⟨h.calling, h.queueing, fun _ => Or.inr (Or.inr (Or.inl (Or.inl hread.1)))⟩
      · cases hstep
  | loop =>
      rw [loopStep] at hstep
      split at hstep
      · cases hstep
        exact (loop_step l).woken h ‹_›
      · cases hstep

/-! ### Whole runs -/

/-- **No lost wakeup.**  In every order of the steps, whenever the loop thread is about to block in `poll`
and no other thread is between its `push_back` and its `wakeup`, no functor is pending or the eventfd is
readable. -/
theorem no_lost_wakeup {es : List (LoopEvent Functor)} (hcalls : Along loopStep CalledInLoop init es)
    {t : EventLoop Functor} (ht : ReachedBy loopStep init es t) (hpc : t.pc = .poll)
    (hwaking : t.waking = 0) : t.pendingFunctors = [] ∨ 0 < t.wakeupFd :=
  (run_invariant woken_step es woken_init hcalls t ht).poll hpc hwaking

/-- Another thread wakes the loop up for a functor that the loop has taken out already; the next functor
is queued by the one that runs. -/
def wakeupBehind : List (LoopEvent ℕ) :=
  List.replicate 5 .loop ++ [.queueInLoop 1] ++ List.replicate 2 .loop ++
    [.wakeup, .queueInLoopOwn 2, .queued] ++ List.replicate 3 .loop

instance (l : EventLoop Functor) : (e : LoopEvent Functor) → Decidable (CalledInLoop l e)
  | .queueInLoopOwn _ => inferInstanceAs (Decidable (_ ≠ _))
  | .queueInLoop _ | .wakeup | .quit | .quitWakeup | .queued | .quitOwn | .handleRead | .loop =>
      isTrue trivial

/-- The loop is back at `poll` with a functor pending, and does not block. -/
theorem no_lost_wakeup_behind : ∃ t : EventLoop ℕ, ReachedBy loopStep init wakeupBehind t ∧
    t.pc = .poll ∧ t.pendingFunctors = [2] ∧ (t.pendingFunctors = [] ∨ 0 < t.wakeupFd) :=
  ⟨_, reachedBy_end rfl, rfl, rfl,
    no_lost_wakeup (show Along loopStep CalledInLoop init wakeupBehind by decide) (reachedBy_end rfl)
      rfl rfl⟩

end EventLoop

end WServer
