import WServer.EventLoop

/-!
# The loop of a thread

`EventLoopThread` runs an event loop in a thread of its own.  `threadFunc` publishes its loop before it
calls `loop()`, so `startLoop` can return, and the owner can call `quit`, before `loop()` is entered; and
`loop()` begins by lowering `m_quit`.

The owner and the thread make one step for each access to `m_loop` and to the loop; between two steps of
one any step of the other may happen, and any step of a thread that queues a functor.  A step that uses a
loop or a thread object whose lifetime is over ends the run.

* `threadStep` — one step of any thread;
* `KeepsQuit` — the invariant: a quit that has begun is still told by `m_quit`;
* `quit_kept` — no quit is lost in a run in which `loop()` is entered before the first one begins;
* `entered_late_loses` — every other entry loses the quits completed before it.
-/

namespace WServer

open Library.Runs

/-- Where `threadFunc` stands: before its start, before it publishes its loop, before `loop()`, in `loop()`,
behind `m_loop = nullptr`, at its end. -/
inductive LoopThreadPc where
  | unstarted
  | starting
  | published
  | looping
  | cleared
  | ended
  deriving DecidableEq, Repr

/-- Where the owner stands: before `startLoop`, in its wait, behind the wait, outside the calls after
`startLoop` has returned, in `quit` before `wakeup`, in the destructor before `quit` and before its
`wakeup`, behind the destructor. -/
inductive OwnerPc where
  | fresh
  | waiting
  | woken
  | started
  | quitting
  | destructing
  | destructorQuit
  | destroyed
  deriving DecidableEq, Repr

/-- Class `EventLoopThread`: whether `m_loop` is set, and the loop of `threadFunc`.  `returned` tells whether
`startLoop` has returned a loop, `quits` counts the owner's calls of `quit` that have returned. -/
structure EventLoopThread (Functor : Type*) where
  loop : Bool
  eventLoop : EventLoop Functor
  threadFunc : LoopThreadPc
  owner : OwnerPc
  returned : Bool
  quits : ℕ

/-- Why a run ends: a step that cannot be taken where the threads stand, the `LOG_FATAL` of `startLoop`, a
call through a null `m_loop`, a use of the loop or of the `EventLoopThread` after its lifetime. -/
inductive ThreadFault where
  | notThere
  | startLoop
  | nullLoop
  | endedLoop
  | endedThread
  deriving DecidableEq, Repr

/-- `start`, `waited` and `returns` are the parts of `startLoop`, `quit` and `destroyQuit` the first parts
of the calls of `EventLoop::quit`, by the owner and by its destructor, and `wakeup` the second;
`threadFunc` is a step of the thread outside `loop()`, and `inLoop` one in it or a call of another thread. -/
inductive ThreadEvent (Functor : Type*) where
  | start
  | waited
  | returns
  | quit
  | wakeup
  | destroy
  | destroyQuit
  | threadFunc
  | inLoop (e : LoopEvent Functor)

namespace EventLoopThread

variable {Functor : Type*}

/-- The constructor. -/
def init : EventLoopThread Functor where
  loop := false
  eventLoop := EventLoop.init
  threadFunc := .unstarted
  owner := .fresh
  returned := false
  quits := 0

/-- A step of the loop, or a call of one of its members. -/
def onLoop (e : LoopEvent Functor) (t : EventLoopThread Functor) :
    Except ThreadFault (EventLoopThread Functor) :=
  if t.threadFunc = .ended then .error .endedLoop
  else
    match loopStep t.eventLoop e with
    | .ok l => .ok { t with eventLoop := l }
    | .error _ => .error .notThere

/-- `threadFunc`, outside `loop()`. -/
def threadFuncStep (t : EventLoopThread Functor) : Except ThreadFault (EventLoopThread Functor) :=
  match t.threadFunc with
  | .starting => .ok { t with loop := true, threadFunc := .published }
  | .published => do
      let t ← t.onLoop .loop
      return { t with threadFunc := .looping }
  | .looping =>
      if t.eventLoop.pc ≠ .outside then .error .notThere
      else if t.owner = .destroyed then .error .endedThread
      else .ok { t with loop := false, threadFunc := .cleared }
  | .cleared => .ok { t with threadFunc := .ended }
  | .unstarted | .ended => .error .notThere

end EventLoopThread

open EventLoopThread in
/-- One step of the threads. -/
def threadStep {Functor : Type*} (t : EventLoopThread Functor) :
    ThreadEvent Functor → Except ThreadFault (EventLoopThread Functor)
  | .start =>
      if t.owner = .fresh then .ok { t with owner := .waiting, threadFunc := .starting }
      else if t.owner = .started then .error .startLoop
      else .error .notThere
  | .waited =>
      if t.owner = .waiting ∧ t.loop = true then .ok { t with owner := .woken } else .error .notThere
  | .returns =>
      if t.owner = .woken then .ok { t with owner := .started, returned := t.loop }
      else .error .notThere
  | .quit =>
      if t.owner = .started ∧ t.returned = true then do
        let t ← t.onLoop .quit
        return { t with owner := .quitting }
      else .error .notThere
  | .wakeup =>
      if t.owner = .quitting then do
        let t ← t.onLoop .quitWakeup
        return { t with owner := .started, quits := t.quits + 1 }
      else if t.owner = .destructorQuit then do
        let t ← t.onLoop .quitWakeup
        return { t with owner := .destroyed, quits := t.quits + 1 }
      else .error .notThere
  | .destroy =>
      if t.owner = .fresh ∨ t.owner = .started then
        .ok { t with owner := if t.loop then .destructing else .destroyed }
      else .error .notThere
  | .destroyQuit =>
      if t.owner ≠ .destructing then .error .notThere
      else if t.loop = false then .error .nullLoop
      else do
        let t ← t.onLoop .quit
        return { t with owner := .destructorQuit }
  | .threadFunc => t.threadFuncStep
  | .inLoop e =>
      if e.isOwn then
        if t.threadFunc = .looping ∧ t.eventLoop.pc ≠ .outside then t.onLoop e else .error .notThere
      else if t.returned = true ∧ e.quits = false then t.onLoop e
      else .error .notThere

namespace EventLoopThread

variable {Functor : Type*} {t t' : EventLoopThread Functor}

/-! ### What is asked for -/

/-- The thread is inside the `while` loop. -/
def InLoop (t : EventLoopThread Functor) : Prop :=
  t.threadFunc = .looping ∧ t.eventLoop.pc ≠ .outside

/-- **A lost quit**: a call has returned, and the thread loops on without having been told. -/
def QuitLost (t : EventLoopThread Functor) : Prop :=
  0 < t.quits ∧ t.InLoop ∧ t.eventLoop.quit = false

instance (t : EventLoopThread Functor) : Decidable t.QuitLost :=
  inferInstanceAs (Decidable (_ ∧ (_ ∧ _) ∧ _))

/-- **The condition on a step.**  When `loop()` is entered, no quit has been asked for yet. -/
def EntersFirst (t : EventLoopThread Functor) : ThreadEvent Functor → Prop
  | .threadFunc => t.threadFunc = .published → t.eventLoop.quit = false
  | _ => True

instance (t : EventLoopThread Functor) : (e : ThreadEvent Functor) → Decidable (EntersFirst t e)
  | .threadFunc => inferInstanceAs (Decidable (_ → _))
  | .start | .waited | .returns | .quit | .wakeup | .destroy | .destroyQuit | .inLoop _ => isTrue trivial

/-! ### The invariant -/

/-- The owner has written `m_quit`, in a call that has returned or in the one it is in. -/
def Asked (t : EventLoopThread Functor) : Prop :=
  0 < t.quits ∨ t.owner = .quitting ∨ t.owner = .destructorQuit

/-- What has been asked for is told by `m_quit`. -/
def KeepsQuit (t : EventLoopThread Functor) : Prop := t.Asked → t.eventLoop.quit = true

theorem keepsQuit_init : KeepsQuit (init : EventLoopThread Functor) := by
  rintro (hpos | howner | howner)
  · exact absurd hpos (Nat.lt_irrefl 0)
  · cases howner
  · cases howner

theorem KeepsQuit.not_lost (h : KeepsQuit t) : ¬ t.QuitLost := by
  rintro ⟨hpos, -, hquit⟩
  rw [h (Or.inl hpos)] at hquit
  cases hquit

/-! ### One step -/

/-- What a step on the loop leaves. -/
theorem onLoop_ok {e : LoopEvent Functor} (h : t.onLoop e = .ok t') :
    ∃ l, loopStep t.eventLoop e = .ok l ∧ t' = { t with eventLoop := l } := by
  rw [onLoop] at h
  split at h
  · cases h
  · cases hl : loopStep t.eventLoop e with
    | error f =>
        rw [hl] at h
        cases h
    | ok l =>
        rw [hl] at h
        cases h
        exact ⟨l, rfl, rfl⟩

theorem onLoop_then {e : LoopEvent Functor} {f : EventLoopThread Functor → EventLoopThread Functor}
    (h : (do
      let t ← t.onLoop e
      return f t) = .ok t') :
    ∃ l, loopStep t.eventLoop e = .ok l ∧ t' = f { t with eventLoop := l } := by
  obtain ⟨u, hu, hok⟩ := ok_of_bind h
  obtain ⟨l, hstep, rfl⟩ := onLoop_ok hu
  cases hok
  exact ⟨l, hstep, rfl⟩

/-- The first part of `quit` leaves `m_quit` raised. -/
theorem quit_raises {l l' : EventLoop Functor} (h : loopStep l .quit = .ok l') : l'.quit = true := by
  cases h
  rfl

/-- **A step of `threadFunc`** that meets the condition keeps the invariant. -/
theorem KeepsQuit.threadFuncStep (h : KeepsQuit t) (hgood : EntersFirst t .threadFunc)
    (hok : t.threadFuncStep = .ok t') : KeepsQuit t' := by
  rw [EventLoopThread.threadFuncStep] at hok
  cases hpc : t.threadFunc with
  | unstarted =>
      rw [hpc] at hok
      cases hok
  | starting =>
      rw [hpc] at hok
      cases hok
      exact h
  | published =>
      rw [hpc] at hok
      obtain ⟨l, -, rfl⟩ := onLoop_then (f := fun t => { t with threadFunc := .looping }) hok
      -- nothing has been asked for, so nothing is forgotten
      intro hasked
      have hquit := h hasked
      rw [hgood hpc] at hquit
      cases hquit
  | looping =>
      rw [hpc] at hok
      simp only at hok
      split_ifs at hok
      cases hok
      exact h
  | cleared =>
      rw [hpc] at hok
      cases hok
      exact h
  | ended =>
      rw [hpc] at hok
      cases hok

/-- **A step in the loop**, or of another thread. -/
theorem KeepsQuit.inLoop {e : LoopEvent Functor} (h : KeepsQuit t)
    (hentered : e = .loop → t.eventLoop.pc ≠ .outside) (hok : t.onLoop e = .ok t') : KeepsQuit t' := by
  obtain ⟨l, hstep, rfl⟩ := onLoop_ok hok
  exact fun hasked => EventLoop.quit_step hstep hentered (h hasked)

/-- A step of the owner that leaves the loop alone, and leads into no call of `quit`. -/
theorem KeepsQuit.move (h : KeepsQuit t) (hloop : t'.eventLoop = t.eventLoop) (hquits : t'.quits = t.quits)
    (howner : t'.owner ≠ .quitting ∧ t'.owner ≠ .destructorQuit) : KeepsQuit t' := by
  rintro (hpos | hquitting | hquitting)
  · rw [hloop]
    rw [hquits] at hpos
    exact h (Or.inl hpos)
  · exact absurd hquitting howner.1
  · exact absurd hquitting howner.2

/-- **One step** that meets the condition. -/
theorem keepsQuit_step (t : EventLoopThread Functor) (e : ThreadEvent Functor)
    (t' : EventLoopThread Functor) (h : KeepsQuit t) (hgood : EntersFirst t e)
    (hok : threadStep t e = .ok t') : KeepsQuit t' := by
  cases e with
  | start =>
      rw [threadStep] at hok
      split_ifs at hok
      cases hok
      exact h.move rfl rfl (by simp)
  | waited =>
      rw [threadStep] at hok
      split_ifs at hok
      cases hok
      exact h.move rfl rfl (by simp)
  | returns =>
      rw [threadStep] at hok
      split_ifs at hok
      cases hok
      exact h.move rfl rfl (by simp)
  | quit =>
      rw [threadStep] at hok
      split_ifs at hok
      obtain ⟨l, hstep, rfl⟩ := onLoop_then (f := fun t => { t with owner := .quitting }) hok
      exact fun _ => quit_raises hstep
  | wakeup =>
      rw [threadStep] at hok
      split_ifs at hok with hquitting hdestructor
      · obtain ⟨l, hstep, rfl⟩ := onLoop_then
          (f := fun t => { t with owner := .started, quits := t.quits + 1 }) hok
        exact fun _ => EventLoop.quit_step hstep nofun (h (Or.inr (Or.inl hquitting)))
      · obtain ⟨l, hstep, rfl⟩ := onLoop_then
          (f := fun t => { t with owner := .destroyed, quits := t.quits + 1 }) hok
        exact fun _ => EventLoop.quit_step hstep nofun (h (Or.inr (Or.inr hdestructor)))
  | destroy =>
      rw [threadStep] at hok
      split_ifs at hok with _ hset
      · cases hok
        exact h.move rfl rfl (by simp)
      · cases hok
        exact h.move rfl rfl (by simp)
  | destroyQuit =>
      rw [threadStep] at hok
      split_ifs at hok
      obtain ⟨l, hstep, rfl⟩ := onLoop_then (f := fun t => { t with owner := .destructorQuit }) hok
      exact fun _ => quit_raises hstep
  | threadFunc => exact h.threadFuncStep hgood hok
  | inLoop e =>
      rw [threadStep] at hok
      split_ifs at hok with hown hthere hother
      · exact h.inLoop (fun _ => hthere.2) hok
      · refine h.inLoop (fun he => ?_) hok
        rw [he] at hown
        exact absurd rfl hown

/-! ### Whole runs -/

/-- **No quit is lost** in any order of the steps, as long as `loop()` is entered before the first quit
begins. -/
theorem quit_kept (events : List (ThreadEvent Functor)) (h : Along threadStep EntersFirst init events) :
    ∀ t, ReachedBy threadStep init events t → ¬ t.QuitLost := by
  intro t ht
  exact (run_invariant keepsQuit_step events keepsQuit_init h t ht).not_lost

/-- **Every other entry** loses the quits completed before it. -/
theorem entered_late_loses (hpub : t.threadFunc = .published) (hquits : 0 < t.quits)
    (hpc : t.eventLoop.pc = .outside) (hok : threadStep t .threadFunc = .ok t') : t'.QuitLost := by
  rw [threadStep, threadFuncStep, hpub] at hok
  obtain ⟨l, hstep, rfl⟩ := onLoop_then (f := fun t => { t with threadFunc := .looping }) hok
  rw [loopStep] at hstep
  split at hstep
  · have hloop : l = { t.eventLoop with quit := false, pc := .quitTest } := by
      rw [← Except.ok.inj hstep, EventLoop.loop, hpc]
    rw [hloop]
    exact ⟨hquits, ⟨rfl, show LoopPc.quitTest ≠ .outside by decide⟩, rfl⟩
  · cases hstep

/-- The owner waits until the loop is entered, quits, and the thread ends. -/
def quitInTime : List (ThreadEvent ℕ) :=
  [.start, .threadFunc, .waited, .returns, .threadFunc, .inLoop .loop, .quit, .wakeup, .inLoop .loop,
    .inLoop .loop, .inLoop .loop, .inLoop .loop, .inLoop .loop, .inLoop .loop, .threadFunc, .threadFunc]

theorem quit_kept_in_time :
    ∃ t, runFrom threadStep init quitInTime = .ok t ∧ t.threadFunc = .ended ∧
      ∀ u, ReachedBy threadStep init quitInTime u → ¬ u.QuitLost :=
  ⟨_, rfl, rfl, quit_kept quitInTime (by decide)⟩

/-- The owner quits as soon as `startLoop` has returned; the thread enters `loop()`, and polls. -/
def quitAtOnce : List (ThreadEvent ℕ) :=
  [.start, .threadFunc, .waited, .returns, .quit, .wakeup, .threadFunc, .inLoop .loop]

/-- The quit is lost. -/
theorem quit_lost : ∃ t, runFrom threadStep init quitAtOnce = .ok t ∧ t.QuitLost ∧
    t.eventLoop.pc = .poll :=
  ⟨_, rfl, by decide, rfl⟩

end EventLoopThread

end WServer
