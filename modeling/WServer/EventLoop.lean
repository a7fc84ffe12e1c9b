import WServer.Library.Runs

/-!
# The event loop

`EventLoop::loop` polls, runs the handlers of the active channels and then the functors that were queued
for it, by any thread, with `queueInLoop`.  A thread that queues a functor wakes the loop up by writing
to an eventfd, unless it is the loop's own thread outside `doPendingFunctors`.

The loop thread makes one step for each access to shared data (`LoopPc`).  What a handler or a functor
does is left open, up to its calls of `queueInLoop` and `quit`; other threads call these at any time,
and between the two parts of such a call any other step may happen.  The eventfd is a counter.

`executed` records the functors in the order of their execution, each with the number of its batch.
`runInLoop` is a direct call in the loop's own thread and `queueInLoop` in any other.
-/

namespace WServer

/-- Where the loop thread stands: outside `loop`, at the test of `m_quit`, before `poll`, in the handlers
of the active channels, before the three parts of `doPendingFunctors`, in a functor. -/
inductive LoopPc where
  | outside
  | quitTest
  | poll
  | handling
  | raiseFlag
  | swap
  | batch
  | functor
  deriving DecidableEq, Repr

/-- Class `EventLoop`, with the functors that are left of the batch being executed, and the threads that
are inside a call.  `waking` and `quitting` count the other threads between the first part of
`queueInLoop` or `quit` and its `wakeup`; `queueing` tells the same of the loop's own thread. -/
structure EventLoop (Functor : Type*) where
  pc : LoopPc
  quit : Bool
  callingPendingFunctors : Bool
  pendingFunctors : List Functor
  functors : List Functor
  wakeupFd : ℕ
  waking : ℕ
  quitting : ℕ
  queueing : Bool
  batches : ℕ
  executed : List (ℕ × Functor)

/-- A step that cannot be taken where the threads stand. -/
inductive LoopFault where
  | notThere
  deriving DecidableEq, Repr

/-- `queueInLoop` and `quit` are calls of another thread, up to their `wakeup`; `queueInLoopOwn` is a call
of the loop's own thread, up to its test of `m_calling_pending_functors`, and `queued` what follows there;
`loop` is the next step of the loop thread, and `handleRead` one `read` of the eventfd. -/
inductive LoopEvent (Functor : Type*) where
  | queueInLoop (cb : Functor)
  | wakeup
  | quit
  | quitWakeup
  | queueInLoopOwn (cb : Functor)
  | queued
  | quitOwn
  | handleRead
  | loop

namespace LoopEvent

variable {Functor : Type*}

/-- The functor that an event puts on the queue. -/
def pushed : LoopEvent Functor → List Functor
  | .queueInLoop cb | .queueInLoopOwn cb => [cb]
  | _ => []

/-- The event is a step of the loop's own thread. -/
def isOwn : LoopEvent Functor → Bool
  | .queueInLoopOwn _ | .queued | .quitOwn | .handleRead | .loop => true
  | _ => false

/-- The event is a part of a call of `quit`. -/
def quits : LoopEvent Functor → Bool
  | .quit | .quitWakeup | .quitOwn => true
  | _ => false

end LoopEvent

namespace EventLoop

variable {Functor : Type*}

/-- The loop after its construction. -/
def init : EventLoop Functor where
  pc := .outside
  quit := false
  callingPendingFunctors := false
  pendingFunctors := []
  functors := []
  wakeupFd := 0
  waking := 0
  quitting := 0
  queueing := false
  batches := 0
  executed := []

/-- The loop thread runs code of its user: outside `loop`, in a handler or in a functor. -/
def InUserCode (l : EventLoop Functor) : Prop :=
  (l.pc = .outside ∨ l.pc = .handling ∨ l.pc = .functor) ∧ l.queueing = false

instance (l : EventLoop Functor) : Decidable l.InUserCode := inferInstanceAs (Decidable (_ ∧ _))

/-- `m_pending_functors.push_back(std::move(cb))`, under `m_mutex`. -/
def pushBack (cb : Functor) (l : EventLoop Functor) : EventLoop Functor :=
  { l with pendingFunctors := l.pendingFunctors ++ [cb] }

/-- `queueInLoop`, called by another thread, up to its `wakeup`. -/
def queueInLoop (cb : Functor) (l : EventLoop Functor) : EventLoop Functor :=
  { l.pushBack cb with waking := l.waking + 1 }

/-- `wakeup` -/
def wakeup (l : EventLoop Functor) : EventLoop Functor := { l with wakeupFd := l.wakeupFd + 1 }

/-- The rest of `queueInLoop` in the loop's own thread. -/
def queued (l : EventLoop Functor) : EventLoop Functor :=
  let l := if l.callingPendingFunctors then l.wakeup else l
  { l with queueing := false }

/-- One step of the loop thread in `loop`, `m_mutex` being free. -/
def loop (l : EventLoop Functor) : EventLoop Functor :=
  match l.pc with
  | .outside => { l with quit := false, pc := .quitTest }
  | .quitTest => { l with pc := if l.quit then .outside else .poll }
  | .poll => { l with pc := .handling }
  | .handling => { l with pc := .raiseFlag }
  | .raiseFlag => { l with callingPendingFunctors := true, pc := .swap }
  | .swap =>
      { l with
        functors := l.pendingFunctors
        pendingFunctors := []
        batches := l.batches + 1
        pc := .batch }
  | .batch =>
      match l.functors with
      | [] => { l with callingPendingFunctors := false, pc := .quitTest }
      | func :: functors =>
          { l with
            functors := functors
            executed := l.executed ++ [(l.batches, func)]
            pc := .functor }
  | .functor => { l with pc := .batch }

/-- The functor that an event calls. -/
def called (l : EventLoop Functor) : LoopEvent Functor → Option Functor
  | .loop => if l.pc = .batch then l.functors.head? else none
  | _ => none

/-- The functor being executed. -/
def running (l : EventLoop Functor) : Option Functor :=
  if l.pc = .functor then l.executed.getLast?.map Prod.snd else none

/-- The functors that have been executed and still stand in the vector of `doPendingFunctors`. -/
def spent (l : EventLoop Functor) : List Functor :=
  if l.pc = .batch ∨ l.pc = .functor then
    (l.executed.filter fun e => e.1 = l.batches).map Prod.snd
  else []

/-- The functors that have been queued and not been called. -/
def waiting (l : EventLoop Functor) : List Functor := l.functors ++ l.pendingFunctors

end EventLoop

open EventLoop in
/-- One step of the threads. -/
def loopStep {Functor : Type*} (l : EventLoop Functor) :
    LoopEvent Functor → Except LoopFault (EventLoop Functor)
  | .queueInLoop cb => .ok (l.queueInLoop cb)
  | .wakeup =>
      if 0 < l.waking then .ok { l.wakeup with waking := l.waking - 1 } else .error .notThere
  | .quit => .ok { l with quit := true, quitting := l.quitting + 1 }
  | .quitWakeup =>
      if 0 < l.quitting then .ok { l.wakeup with quitting := l.quitting - 1 } else .error .notThere
  | .queueInLoopOwn cb =>
      if l.InUserCode then .ok { l.pushBack cb with queueing := true } else .error .notThere
  | .queued => if l.queueing = true then .ok l.queued else .error .notThere
  | .quitOwn => if l.InUserCode then .ok { l with quit := true } else .error .notThere
  | .handleRead =>
      if l.pc = .handling ∧ l.queueing = false then .ok { l with wakeupFd := 0 } else .error .notThere
  | .loop => if l.queueing = false then .ok l.loop else .error .notThere

namespace EventLoop

variable {Functor : Type*} {l l' : EventLoop Functor}

/-! ### What the steps do -/

/-- One step of the loop thread, by the place where it stands. -/
inductive LoopStep (l : EventLoop Functor) : EventLoop Functor → Prop where
  | enter (hpc : l.pc = .outside) : LoopStep l { l with quit := false, pc := .quitTest }
  | testQuit (hpc : l.pc = .quitTest) : LoopStep l { l with pc := if l.quit then .outside else .poll }
  | poll (hpc : l.pc = .poll) : LoopStep l { l with pc := .handling }
  | handled (hpc : l.pc = .handling) : LoopStep l { l with pc := .raiseFlag }
  | raiseFlag (hpc : l.pc = .raiseFlag) :
      LoopStep l { l with callingPendingFunctors := true, pc := .swap }
  | swap (hpc : l.pc = .swap) :
      LoopStep l { l with
        functors := l.pendingFunctors
        pendingFunctors := []
        batches := l.batches + 1
        pc := .batch }
  | lowerFlag (hpc : l.pc = .batch) (hnone : l.functors = []) :
      LoopStep l { l with callingPendingFunctors := false, pc := .quitTest }
  | call (hpc : l.pc = .batch) (func : Functor) (functors : List Functor)
      (hnext : l.functors = func :: functors) :
      LoopStep l { l with
        functors := functors
        executed := l.executed ++ [(l.batches, func)]
        pc := .functor }
  | called (hpc : l.pc = .functor) : LoopStep l { l with pc := .batch }

theorem loop_step (l : EventLoop Functor) : LoopStep l l.loop := by
  rw [loop]
  cases hpc : l.pc with
  | outside => exact .enter hpc
  | quitTest => exact .testQuit hpc
  | poll => exact .poll hpc
  | handling => exact .handled hpc
  | raiseFlag => exact .raiseFlag hpc
  | swap => exact .swap hpc
  | functor => exact .called hpc
  | batch =>
      simp only
      split
      · exact .lowerFlag hpc ‹_›
      · exact .call hpc _ _ ‹_›

theorem loopStep_loop (h : loopStep l .loop = .ok l') : LoopStep l l' := by
  rw [loopStep] at h
  split at h
  · cases h
    exact loop_step l
  · cases h

/-- `m_quit` is lowered at the entry of `loop` only. -/
theorem quit_step {e : LoopEvent Functor} (h : loopStep l e = .ok l')
    (hentered : e = .loop → l.pc ≠ .outside) (hquit : l.quit = true) : l'.quit = true := by
  cases e with
  | queueInLoop cb =>
      cases h
      exact hquit
  | quit =>
      cases h
      rfl
  | loop =>
      cases loopStep_loop h with
      | enter hpc => exact absurd hpc (hentered rfl)
      | _ => exact hquit
  | quitOwn =>
      rw [loopStep] at h
      split at h
      · cases h
        rfl
      · cases h
  | queued =>
      rw [loopStep] at h
      split at h
      · cases h
        rw [queued]
        cases l.callingPendingFunctors <;> exact hquit
      · cases h
  | _ =>
      rw [loopStep] at h
      split at h
      · cases h
        exact hquit
      · cases h

/-- **What a step does** to the functors: a step of the loop thread, a functor pushed to the queue, or a
step that moves none. -/
theorem loopStep_cases {e : LoopEvent Functor} (h : loopStep l e = .ok l') :
    (e = .loop ∧ LoopStep l l') ∨
      (∃ cb waking queueing, e.pushed = [cb] ∧
        l' = { l.pushBack cb with waking := waking, queueing := queueing }) ∨
      (∃ quit wakeupFd waking quitting queueing, e.pushed = [] ∧ l.called e = none ∧ l' = { l with
        quit := quit
        wakeupFd := wakeupFd
        waking := waking
        quitting := quitting
        queueing := queueing }) := by
  cases e with
  | loop => exact Or.inl ⟨rfl, loopStep_loop h⟩
  | queueInLoop cb =>
      cases h
      exact Or.inr (Or.inl ⟨cb, _, _, rfl, rfl⟩)
  | queueInLoopOwn cb =>
      rw [loopStep] at h
      split at h
      · cases h
        exact Or.inr (Or.inl ⟨cb, _, _, rfl, rfl⟩)
      · cases h
  | quit =>
      cases h
      exact Or.inr (Or.inr ⟨_, _, _, _, _, rfl, rfl, rfl⟩)
  | wakeup | quitWakeup | quitOwn | handleRead =>
      rw [loopStep] at h
      split at h
      · cases h
        exact Or.inr (Or.inr ⟨_, _, _, _, _, rfl, rfl, rfl⟩)
      · cases h
  | queued =>
      rw [loopStep] at h
      split at h
      · cases h
        rw [queued]
        simp only
        split
        · exact Or.inr (Or.inr ⟨_, _, _, _, _, rfl, rfl, rfl⟩)
        · exact Or.inr (Or.inr ⟨_, _, _, _, _, rfl, rfl, rfl⟩)
      · cases h

/-- Only a step of the loop thread moves it. -/
theorem loopStep_pc {e : LoopEvent Functor} (h : loopStep l e = .ok l') (he : e ≠ .loop) :
    l'.pc = l.pc := by
  rcases loopStep_cases h with ⟨hloop, -⟩ | ⟨_, _, _, -, rfl⟩ | ⟨_, _, _, _, _, -, -, rfl⟩
  · exact absurd hloop he
  · rfl
  · rfl

end EventLoop

end WServer
