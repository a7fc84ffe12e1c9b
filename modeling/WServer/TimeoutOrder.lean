import WServer.EventLoop

/-!
# Timeouts and the events of an iteration

The loop thread, with what it calls: the handlers of the channels that `poll` has reported, in any order,
the functors, and the callbacks of timers.  `TimerHeap::handleRead` does not run the timers that are due
but queues `handleTimeoutEvents`, which no other code can name; so the callbacks run behind all handlers
of the iteration.

The code of handlers, functors and callbacks is left open, up to its calls of members of the loop: in the
thread of the loop `runInLoop` calls its functor at once (`Frame`), and `runAfter` comes down to such a
call of `addTimerInLoop`.  Which timers are due does not matter here.

* `timedStep` — one step of the loop thread, or a call of another thread;
* `trace` — what was polled, handled and called back, with the number of the iteration;
* `Ordered` — the invariant;
* `timeouts_after_data` — whole runs.
-/

namespace WServer

open Library.Runs

/-- A channel of a loop: that of its timers, that of its eventfd, or any other one. -/
inductive LoopChannel (ι : Type*) where
  | timer
  | wakeup
  | io (ch : ι)

/-- A functor that is queued: one of a user of the loop, or the one that `TimerHeap` binds. -/
inductive TimedFunctor (F : Type*) where
  | user (f : F)
  | handleTimeoutEvents

/-- A call that the loop thread is in. -/
inductive Frame (ι F κ : Type*) where
  | handler (ch : LoopChannel ι)
  | functor (f : F)
  | addTimerInLoop (cb : κ)
  | handleTimeoutEvents
  | timerCallback (cb : κ)

/-- What is recorded. -/
inductive Mark (ι κ : Type*) where
  | polled (active : List (LoopChannel ι))
  | handler (ch : LoopChannel ι)
  | timerCallback (cb : κ)

/-- A loop with its timers.  `active` are the channels whose handlers are still to be called in this
iteration, and `stack` the calls that the loop thread is in, the innermost first. -/
structure TimedLoop (ι F κ : Type*) where
  loop : EventLoop (TimedFunctor F)
  active : List (LoopChannel ι)
  stack : List (Frame ι F κ)
  timers : List κ
  iterations : ℕ
  trace : List (ℕ × Mark ι κ)

/-- `call` is a call of a member of the loop by another thread, or by code of a user in the thread of the
loop; `loop` is a step of `EventLoop::loop`, with the channels that `poll` reports; `handle` calls the
handler of the next channel; `runInLoop` and `runAfter` are calls in the thread of the loop, and
`addTimer` the body of `addTimerInLoop`; `timerRead` is `TimerHeap::handleRead`, `expire` calls a timer
back, and `return` is the end of a call. -/
inductive TimedEvent (ι F κ : Type*) where
  | call (e : LoopEvent F)
  | loop (active : List (LoopChannel ι))
  | handle
  | runInLoop (f : F)
  | runAfter (cb : κ)
  | addTimer
  | timerRead
  | expire (cb : κ)
  | return

variable {ι F κ : Type*}

/-- A functor of a user, queued for the loop. -/
def LoopEvent.user : LoopEvent F → LoopEvent (TimedFunctor F)
  | .queueInLoop f => .queueInLoop (.user f)
  | .wakeup => .wakeup
  | .quit => .quit
  | .quitWakeup => .quitWakeup
  | .queueInLoopOwn f => .queueInLoopOwn (.user f)
  | .queued => .queued
  | .quitOwn => .quitOwn
  | .handleRead => .handleRead
  | .loop => .loop

namespace Frame

/-- The call is one of code that a user of the loop has written. -/
def IsUser : Frame ι F κ → Prop
  | .handler (.io _) | .functor _ | .timerCallback _ => True
  | _ => False

/-- The call is one that the expiry of timers makes. -/
def IsTimeout : Frame ι F κ → Prop
  | .handleTimeoutEvents | .timerCallback _ => True
  | _ => False

instance : (f : Frame ι F κ) → Decidable f.IsUser
  | .handler (.io _) | .functor _ | .timerCallback _ => isTrue trivial
  | .handler .timer | .handler .wakeup | .addTimerInLoop _ | .handleTimeoutEvents => isFalse id

end Frame

namespace TimedLoop

/-- The loop after its construction. -/
def init : TimedLoop ι F κ where
  loop := EventLoop.init
  active := []
  stack := []
  timers := []
  iterations := 0
  trace := []

/-- With these calls, at this place, the loop thread is in code of a user. -/
def UserCalls (pc : LoopPc) : List (Frame ι F κ) → Prop
  | [] => pc = .outside
  | f :: _ => f.IsUser

instance (pc : LoopPc) : (stack : List (Frame ι F κ)) → Decidable (UserCalls pc stack)
  | [] => inferInstanceAs (Decidable (_ = _))
  | f :: _ => inferInstanceAs (Decidable f.IsUser)

/-- The loop thread is in code of a user. -/
def InUserCode (s : TimedLoop ι F κ) : Prop :=
  s.loop.queueing = false ∧ UserCalls s.loop.pc s.stack

instance (s : TimedLoop ι F κ) : Decidable s.InUserCode := inferInstanceAs (Decidable (_ ∧ _))

/-- The loop thread may make its next step in `loop`: it is in no call, and all handlers have been
called. -/
def MayGoOn (s : TimedLoop ι F κ) : Prop := s.stack.isEmpty = true ∧ s.active.isEmpty = true

instance (s : TimedLoop ι F κ) : Decidable s.MayGoOn := inferInstanceAs (Decidable (_ ∧ _))

def record (mark : Mark ι κ) (s : TimedLoop ι F κ) : TimedLoop ι F κ :=
  { s with trace := s.trace ++ [(s.iterations, mark)] }

def push (f : Frame ι F κ) (s : TimedLoop ι F κ) : TimedLoop ι F κ := { s with stack := f :: s.stack }

/-- A call of a member of the loop. -/
def onLoop (e : LoopEvent (TimedFunctor F)) (s : TimedLoop ι F κ) :
    Except LoopFault (TimedLoop ι F κ) :=
  match loopStep s.loop e with
  | .ok l => .ok { s with loop := l }
  | .error fault => .error fault

/-- What the loop has polled. -/
def poll (active : List (LoopChannel ι)) (s : TimedLoop ι F κ) : TimedLoop ι F κ :=
  ({ s with active := active, iterations := s.iterations + 1 } : TimedLoop ι F κ).record
    (.polled active)

/-- The functor that `doPendingFunctors` calls. -/
def pushFunctor : Option (TimedFunctor F) → TimedLoop ι F κ → TimedLoop ι F κ
  | some (.user f), s => s.push (.functor f)
  | some .handleTimeoutEvents, s => s.push .handleTimeoutEvents
  | none, s => s

end TimedLoop

variable [DecidableEq κ]

open TimedLoop in
/-- One step. -/
def timedStep (s : TimedLoop ι F κ) : TimedEvent ι F κ → Except LoopFault (TimedLoop ι F κ)
  | .call e =>
      match e with
      | .loop | .handleRead => .error .notThere
      | .queueInLoopOwn _ | .quitOwn => if s.InUserCode then s.onLoop e.user else .error .notThere
      | _ => s.onLoop e.user
  | .loop active =>
      if s.MayGoOn then
        match s.onLoop .loop with
        | .error fault => .error fault
        | .ok t =>
            .ok ((if s.loop.pc = .poll then t.poll active else t).pushFunctor (s.loop.called .loop))
      else .error .notThere
  | .handle =>
      match s.active, s.stack with
      | ch :: active, [] =>
          if s.loop.pc = .handling ∧ s.loop.queueing = false then
            .ok ((({ s with active := active } : TimedLoop ι F κ).push (.handler ch)).record (.handler ch))
          else .error .notThere
      | _, _ => .error .notThere
  | .runInLoop f => if s.InUserCode then .ok (s.push (.functor f)) else .error .notThere
  | .runAfter cb => if s.InUserCode then .ok (s.push (.addTimerInLoop cb)) else .error .notThere
  | .addTimer =>
      match s.stack with
      | .addTimerInLoop cb :: stack => .ok { s with stack := stack, timers := cb :: s.timers }
      | _ => .error .notThere
  | .timerRead =>
      match s.stack with
      | .handler .timer :: stack =>
          ({ s with stack := stack } : TimedLoop ι F κ).onLoop (.queueInLoopOwn .handleTimeoutEvents)
      | _ => .error .notThere
  | .expire cb =>
      match s.stack with
      | .handleTimeoutEvents :: _ =>
          if cb ∈ s.timers ∧ s.loop.queueing = false then
            .ok ((s.push (.timerCallback cb)).record (.timerCallback cb))
          else .error .notThere
      | _ => .error .notThere
  | .return =>
      match s.stack with
      | [] => .error .notThere
      | f :: stack =>
          if s.loop.queueing = true then .error .notThere
          else
            match f with
            | .handler .wakeup =>
                ({ s with stack := stack } : TimedLoop ι F κ).onLoop .handleRead
            | .timerCallback cb => .ok { s with stack := stack, timers := s.timers.erase cb }
            | _ => .ok { s with stack := stack }

namespace TimedLoop

variable {s s' : TimedLoop ι F κ}

/-! ### What is asked of a trace -/

/-- The handler that a mark stands for, if it is one of the iteration `k`. -/
def handlerOf (k : ℕ) : ℕ × Mark ι κ → Option (LoopChannel ι)
  | (j, .handler ch) => if j = k then some ch else none
  | _ => none

/-- The handlers called in the iteration `k`, in their order. -/
def handlersIn (k : ℕ) (trace : List (ℕ × Mark ι κ)) : List (LoopChannel ι) :=
  trace.filterMap (handlerOf k)

/-- A timer is called back in an iteration behind the handlers of all channels that were polled in it, and
none of them is called later. -/
def HandledFirst (trace : List (ℕ × Mark ι κ)) : Prop :=
  ∀ pre post k cb, trace = pre ++ (k, .timerCallback cb) :: post →
    (∃ active, (k, .polled active) ∈ pre) ∧
      (∀ active, (k, .polled active) ∈ trace → handlersIn k pre = active) ∧ handlersIn k post = []

/-- No timer is called back between two handlers of one iteration. -/
def Uninterrupted (trace : List (ℕ × Mark ι κ)) : Prop :=
  ∀ pre post k cb j ch ch', trace = pre ++ (k, .timerCallback cb) :: post →
    (j, .handler ch) ∈ pre → (j, .handler ch') ∉ post

/-- The loop thread has polled in this iteration, and is not back at the test of `m_quit`. -/
def InIteration (pc : LoopPc) : Prop :=
  pc = .handling ∨ pc = .raiseFlag ∨ pc = .swap ∨ pc = .batch ∨ pc = .functor

/-- What holds between two steps. -/
structure Ordered (s : TimedLoop ι F κ) : Prop where
  active : s.loop.pc ≠ .handling → s.active = []
  frames : ∀ f ∈ s.stack, f.IsTimeout → s.loop.pc = .functor
  numbers : ∀ m ∈ s.trace, m.1 ≤ s.iterations
  sorted : s.trace.Pairwise fun m m' => m.1 ≤ m'.1
  polled : ∀ active, (s.iterations, .polled active) ∈ s.trace →
    handlersIn s.iterations s.trace ++ s.active = active
  has_polled : InIteration s.loop.pc → ∃ active, (s.iterations, .polled active) ∈ s.trace
  quiet : s.loop.pc = .handling → ∀ cb, (s.iterations, .timerCallback cb) ∉ s.trace
  first : HandledFirst s.trace

omit [DecidableEq κ] in
theorem ordered_init : Ordered (init : TimedLoop ι F κ) where
  active := fun _ => rfl
  frames := fun _ hf => absurd hf List.not_mem_nil
  numbers := fun _ hm => absurd hm List.not_mem_nil
  sorted := List.Pairwise.nil
  polled := fun _ hm => absurd hm List.not_mem_nil
  has_polled := fun h => absurd h (by simp [InIteration, init, EventLoop.init])
  quiet := fun _ _ => List.not_mem_nil
  first := fun pre post k cb h => absurd h.symm (by simp [init])

/-! ### One more mark -/

omit [DecidableEq κ] in
theorem handlersIn_append (k : ℕ) (trace : List (ℕ × Mark ι κ)) (m : ℕ × Mark ι κ) :
    handlersIn k (trace ++ [m]) = handlersIn k trace ++ (handlerOf k m).toList := by
  rw [handlersIn, List.filterMap_append, ← handlersIn, List.filterMap_cons]
  cases handlerOf k m with
  | none => rfl
  | some ch => rfl

omit [DecidableEq κ] in
theorem numbers_append {trace : List (ℕ × Mark ι κ)} {n : ℕ} (h : ∀ m ∈ trace, m.1 ≤ n) (mark : Mark ι κ) :
    ∀ m ∈ trace ++ [(n, mark)], m.1 ≤ n := by
  intro m hm
  rcases List.mem_append.mp hm with hm | hm
  · exact h m hm
  · exact Nat.le_of_eq (congrArg Prod.fst (List.mem_singleton.mp hm))

omit [DecidableEq κ] in
theorem sorted_append {trace : List (ℕ × Mark ι κ)} {n : ℕ} (h : trace.Pairwise fun m m' => m.1 ≤ m'.1)
    (hn : ∀ m ∈ trace, m.1 ≤ n) (mark : Mark ι κ) :
    (trace ++ [(n, mark)]).Pairwise fun m m' => m.1 ≤ m'.1 := by
  refine List.pairwise_append.mpr ⟨h, List.pairwise_singleton _ _, fun m hm m' hm' => ?_⟩
  rw [List.mem_singleton.mp hm']
  exact hn m hm

omit [DecidableEq κ] in
/-- A mark of another iteration, or one that no timer of its iteration has preceded, leaves the order. -/
theorem HandledFirst.append {trace : List (ℕ × Mark ι κ)} (h : HandledFirst trace) (m : ℕ × Mark ι κ)
    (hcallback : ∀ cb, m ≠ (m.1, .timerCallback cb))
    (hpolled : ∀ k cb active, (k, .timerCallback cb) ∈ trace → m ≠ (k, .polled active))
    (hhandler : ∀ k cb, (k, .timerCallback cb) ∈ trace → handlerOf k m = none) :
    HandledFirst (trace ++ [m]) := by
  intro pre post k cb heq
  rcases List.eq_nil_or_concat post with rfl | ⟨post, last, rfl⟩
  · obtain ⟨-, hlast⟩ := List.append_inj' heq rfl
    have hm := List.singleton_inj.mp hlast
    exact absurd (by rw [hm]) (hcallback cb)
  · rw [List.concat_eq_append, ← List.cons_append, ← List.append_assoc] at heq
    obtain ⟨htrace, hlast⟩ := List.append_inj' heq rfl
    obtain rfl := List.singleton_inj.mp hlast
    have hmem : (k, .timerCallback cb) ∈ trace := by
      rw [htrace]
      exact List.mem_append_right _ List.mem_cons_self
    obtain ⟨hex, hall, hnone⟩ := h pre post k cb htrace
    refine ⟨hex, fun active hactive => hall active ?_, ?_⟩
    · rcases List.mem_append.mp hactive with hactive | hactive
      · exact hactive
      · exact absurd (List.mem_singleton.mp hactive).symm (hpolled k cb active hmem)
    · rw [List.concat_eq_append, handlersIn_append, hnone, hhandler k cb hmem]
      rfl

omit [DecidableEq κ] in
/-- A step that moves the loop thread at most among calls of its user. -/
theorem Ordered.frame (h : Ordered s) (hpc : s'.loop.pc = s.loop.pc) (hactive : s'.active = s.active)
    (hiterations : s'.iterations = s.iterations) (htrace : s'.trace = s.trace)
    (hstack : ∀ f ∈ s'.stack, f.IsTimeout → f ∈ s.stack) : Ordered s' := by
  refine ⟨?_, ?_, ?_, ?_, ?_, ?_, ?_, ?_⟩
  · rw [hpc, hactive]
    exact h.active
  · rw [hpc]
    exact fun f hf ht => h.frames f (hstack f hf ht) ht
  · rw [htrace, hiterations]
    exact h.numbers
  · rw [htrace]
    exact h.sorted
  · rw [htrace, hiterations, hactive]
    exact h.polled
  · rw [hpc, hiterations, htrace]
    exact h.has_polled
  · rw [hpc, hiterations, htrace]
    exact h.quiet
  · rw [htrace]
    exact h.first

omit [DecidableEq κ] in
/-- A call that no expiry of timers makes. -/
theorem Ordered.call (h : Ordered s) {f : Frame ι F κ} (hf : ¬ f.IsTimeout) : Ordered (s.push f) := by
  refine h.frame rfl rfl rfl rfl fun g hg ht => ?_
  rcases List.mem_cons.mp hg with rfl | hg
  · exact absurd ht hf
  · exact hg

omit [DecidableEq κ] in
/-- The end of a call. -/
theorem Ordered.done (h : Ordered s) {f : Frame ι F κ} {stack : List (Frame ι F κ)}
    (hstack : s.stack = f :: stack) (timers : List κ) :
    Ordered { s with stack := stack, timers := timers } := by
  refine h.frame rfl rfl rfl rfl fun g hg _ => ?_
  rw [hstack]
  exact List.mem_cons_of_mem _ hg

/-! ### One step -/

omit [DecidableEq κ] in
theorem onLoop_ok {e : LoopEvent (TimedFunctor F)} (h : s.onLoop e = .ok s') :
    ∃ l, loopStep s.loop e = .ok l ∧ s' = { s with loop := l } := by
  rw [onLoop] at h
  split at h
  · cases h
    exact ⟨_, ‹_›, rfl⟩
  · cases h

omit [DecidableEq κ] in
/-- A member of the loop, called by anyone. -/
theorem Ordered.onLoop (h : Ordered s) {e : LoopEvent (TimedFunctor F)} (he : e ≠ .loop)
    (hok : s.onLoop e = .ok s') : Ordered s' := by
  obtain ⟨l, hl, rfl⟩ := onLoop_ok hok
  exact h.frame (EventLoop.loopStep_pc hl he) rfl rfl rfl fun f hf _ => hf

omit [DecidableEq κ] in
/-- The loop thread goes on from where it is in no call, without polling. -/
theorem Ordered.move (h : Ordered s) (hactive : s.active = []) {l : EventLoop (TimedFunctor F)}
    {stack : List (Frame ι F κ)} (hpc : l.pc ≠ .handling) (hin : InIteration l.pc → InIteration s.loop.pc)
    (hstack : ∀ f ∈ stack, f.IsTimeout → l.pc = .functor) :
    Ordered { s with loop := l, stack := stack } :=
  ⟨fun _ => hactive, hstack, h.numbers, h.sorted, h.polled, fun hl => h.has_polled (hin hl),
    fun hl => absurd hl hpc, h.first⟩

omit [DecidableEq κ] in
/-- **A poll** begins an iteration. -/
theorem Ordered.poll (h : Ordered s) (hstack : s.stack = []) {l : EventLoop (TimedFunctor F)}
    (active : List (LoopChannel ι)) :
    Ordered (({ s with loop := { l with pc := .handling } } : TimedLoop ι F κ).poll active) := by
  have hold : ∀ mark : Mark ι κ, (s.iterations + 1, mark) ∉ s.trace := fun mark hmem =>
    absurd (h.numbers _ hmem) (Nat.not_succ_le_self _)
  have hnone : handlersIn (s.iterations + 1) s.trace = [] := by
    refine List.filterMap_eq_nil_iff.mpr fun m hm => ?_
    obtain ⟨k, mark⟩ := m
    cases mark with
    | handler ch =>
        refine if_neg fun heq => ?_
        rw [heq] at hm
        exact hold _ hm
    | polled active => rfl
    | timerCallback cb => rfl
  have hlast : ∀ mark : Mark ι κ, (s.iterations + 1, mark) ∈
      s.trace ++ [(s.iterations + 1, .polled active)] → mark = .polled active := by
    intro mark hmem
    rcases List.mem_append.mp hmem with hmem | hmem
    · exact absurd hmem (hold mark)
    · exact congrArg Prod.snd (List.mem_singleton.mp hmem)
  have hnumbers : ∀ m ∈ s.trace, m.1 ≤ s.iterations + 1 := fun m hm => Nat.le_succ_of_le (h.numbers m hm)
  refine ⟨fun hpc => absurd rfl hpc, fun f hf => ?_, numbers_append hnumbers _,
    sorted_append h.sorted hnumbers _, fun active' hmem => ?_,
    fun _ => ⟨active, List.mem_append_right _ (List.mem_singleton_self _)⟩, fun _ cb hmem => ?_, ?_⟩
  · rw [show (TimedLoop.poll active { s with loop := { l with pc := .handling } }).stack = s.stack from rfl,
      hstack] at hf
    exact absurd hf List.not_mem_nil
  · cases hlast _ hmem
    show handlersIn (s.iterations + 1) (s.trace ++ [(s.iterations + 1, .polled active)]) ++ active = active
    rw [handlersIn_append, hnone]
    rfl
  · cases hlast _ hmem
  · refine h.first.append _ (fun cb heq => by cases heq) (fun k cb active' hmem heq => ?_)
      fun k cb _ => rfl
    have hk : s.iterations + 1 = k := congrArg Prod.fst heq
    rw [← hk] at hmem
    exact hold _ hmem

omit [DecidableEq κ] in
/-- **A handler** is called: one more of those that were polled. -/
theorem Ordered.handle (h : Ordered s) (hpc : s.loop.pc = .handling) {ch : LoopChannel ι}
    {active : List (LoopChannel ι)} (hactive : s.active = ch :: active) (hstack : s.stack = []) :
    Ordered ((({ s with active := active } : TimedLoop ι F κ).push (.handler ch)).record
      (.handler ch)) := by
  have hmark : ∀ (k : ℕ) (mark : Mark ι κ), mark ≠ .handler ch →
      ((k, mark) ∈ s.trace ++ [(s.iterations, .handler ch)] ↔ (k, mark) ∈ s.trace) := by
    intro k mark hne
    rw [List.mem_append, List.mem_singleton]
    exact or_iff_left fun heq => hne (congrArg Prod.snd heq)
  refine ⟨fun hne => absurd hpc hne, fun f hf ht => ?_, numbers_append h.numbers _,
    sorted_append h.sorted h.numbers _, fun active' hmem => ?_,
    fun hin => ?_, fun _ cb hmem => ?_, ?_⟩
  · have hf' : f ∈ Frame.handler ch :: s.stack := hf
    rw [hstack, List.mem_singleton] at hf'
    rw [hf'] at ht
    exact absurd ht id
  · have hpolled := h.polled active' ((hmark _ _ (by simp)).mp hmem)
    show handlersIn s.iterations (s.trace ++ [(s.iterations, .handler ch)]) ++ active = active'
    rw [handlersIn_append, handlerOf, if_pos rfl, ← hpolled, hactive, List.append_assoc]
    rfl
  · obtain ⟨active', hmem⟩ := h.has_polled hin
    exact ⟨active', (hmark _ _ (by simp)).mpr hmem⟩
  · exact h.quiet hpc cb ((hmark _ _ (by simp)).mp hmem)
  · refine h.first.append _ (fun cb heq => by cases heq) (fun k cb active' _ heq => by cases heq)
      fun k cb hmem => if_neg fun heq => ?_
    rw [← heq] at hmem
    exact h.quiet hpc cb hmem

omit [DecidableEq κ] in
/-- **A timer** is called back: everything that was polled has been handled. -/
theorem Ordered.expire (h : Ordered s) {stack : List (Frame ι F κ)}
    (hstack : s.stack = .handleTimeoutEvents :: stack) (cb : κ) :
    Ordered ((s.push (.timerCallback cb)).record (.timerCallback cb)) := by
  have hpc : s.loop.pc = .functor :=
    h.frames .handleTimeoutEvents (by rw [hstack]; exact List.mem_cons_self) trivial
  have hactive : s.active = [] := h.active (by rw [hpc]; decide)
  have hpolled := h.polled
  rw [hactive] at hpolled
  simp only [List.append_nil] at hpolled
  have hmark : ∀ (k : ℕ) (active : List (LoopChannel ι)),
      (k, .polled active) ∈ s.trace ++ [(s.iterations, .timerCallback cb)] ↔
        (k, .polled active) ∈ s.trace := by
    intro k active
    rw [List.mem_append, List.mem_singleton]
    exact or_iff_left fun heq => by cases heq
  refine ⟨fun _ => hactive, fun f hf ht => ?_, numbers_append h.numbers _,
    sorted_append h.sorted h.numbers _, fun active hmem => ?_, fun hin => ?_, fun hhandling => ?_, ?_⟩
  · rcases List.mem_cons.mp hf with rfl | hf
    · exact hpc
    · exact h.frames f hf ht
  · show handlersIn s.iterations (s.trace ++ [(s.iterations, .timerCallback cb)]) ++ s.active = active
    rw [handlersIn_append, hactive, hpolled active ((hmark _ _).mp hmem)]
    simp [handlerOf]
  · obtain ⟨active, hmem⟩ := h.has_polled hin
    exact ⟨active, (hmark _ _).mpr hmem⟩
  · rw [show s.loop.pc = .handling from hhandling] at hpc
    cases hpc
  · intro pre post k cb' heq
    rcases List.eq_nil_or_concat post with rfl | ⟨post, last, rfl⟩
    · -- the mark itself: the iteration is the present one
      obtain ⟨rfl, hlast⟩ := List.append_inj' heq rfl
      cases List.singleton_inj.mp hlast
      exact ⟨h.has_polled (by rw [hpc]; simp [InIteration]),
        fun active hmem => hpolled active ((hmark _ _).mp hmem), rfl⟩
    · -- an earlier one
      rw [List.concat_eq_append, ← List.cons_append, ← List.append_assoc] at heq
      obtain ⟨htrace, hlast⟩ := List.append_inj' heq rfl
      obtain rfl := List.singleton_inj.mp hlast
      obtain ⟨hex, hall, hnone⟩ := h.first pre post k cb' htrace
      refine ⟨hex, fun active hmem => hall active ((hmark _ _).mp hmem), ?_⟩
      rw [List.concat_eq_append, handlersIn_append, hnone]
      rfl

omit [DecidableEq κ] in
theorem user_ne_loop {e : LoopEvent F} (h : e ≠ .loop) : e.user ≠ .loop := by
  cases e <;> first | exact absurd rfl h | exact fun heq => by cases heq

/-- **A step of the loop thread in `loop`**, by the place where it stands. -/
theorem Ordered.loop (h : Ordered s) {active : List (LoopChannel ι)}
    (hok : timedStep s (.loop active) = .ok s') : Ordered s' := by
  rw [timedStep] at hok
  split at hok
  swap
  · cases hok
  rename_i hmay
  have hstack : s.stack = [] := List.isEmpty_iff.mp hmay.1
  have hactive : s.active = [] := List.isEmpty_iff.mp hmay.2
  split at hok
  · cases hok
  rename_i t ht
  obtain ⟨l, hl, rfl⟩ := onLoop_ok ht
  have hmoves : ∀ {l : EventLoop (TimedFunctor F)}, l.pc ≠ .handling →
      (InIteration l.pc → InIteration s.loop.pc) → Ordered { s with loop := l } := fun hpc hin =>
    h.move hactive hpc hin fun f hf => absurd (hstack ▸ hf) List.not_mem_nil
  -- elsewhere the step polls nothing, and calls nothing
  have hplain : s.loop.pc ≠ .poll → s.loop.called .loop = none → s' = { s with loop := l } := by
    intro hpc hnone
    rw [if_neg hpc, hnone] at hok
    exact (Except.ok.inj hok).symm
  have hnone : s.loop.pc ≠ .batch → s.loop.called .loop = none := fun hpc => if_neg hpc
  cases EventLoop.loopStep_loop hl with
  | poll hpc =>
      rw [if_pos hpc, hnone (by rw [hpc]; decide)] at hok
      cases hok
      exact h.poll hstack active
  | call hpc func functors hnext =>
      rw [if_neg (by rw [hpc]; decide), EventLoop.called, if_pos hpc, hnext] at hok
      have hbatch : InIteration s.loop.pc := by simp [InIteration, hpc]
      cases func with
      | user f =>
          cases hok
          exact h.move hactive (by simp) (fun _ => hbatch) fun _ _ _ => rfl
      | handleTimeoutEvents =>
          cases hok
          exact h.move hactive (by simp) (fun _ => hbatch) fun _ _ _ => rfl
  | lowerFlag hpc hempty =>
      have hlast : s.loop.called .loop = none := by rw [EventLoop.called, if_pos hpc, hempty]; rfl
      rw [hplain (by rw [hpc]; decide) hlast]
      exact hmoves (by simp) (by simp [InIteration])
  | testQuit hpc =>
      rw [hplain (by rw [hpc]; decide) (hnone (by rw [hpc]; decide))]
      cases s.loop.quit
      · exact hmoves (by simp) (by simp [InIteration])
      · exact hmoves (by simp) (by simp [InIteration])
  | enter hpc | handled hpc | raiseFlag hpc | swap hpc | called hpc =>
      rw [hplain (by rw [hpc]; decide) (hnone (by rw [hpc]; decide))]
      exact hmoves (by simp) (by simp [InIteration, hpc])

/-- **One step** keeps the order. -/
theorem ordered_step {e : TimedEvent ι F κ} (h : Ordered s) (hok : timedStep s e = .ok s') :
    Ordered s' := by
  cases e with
  | loop active => exact h.loop hok
  | call e =>
      have hcall : e ≠ .loop → s.onLoop e.user = .ok s' → Ordered s' := fun he => h.onLoop (user_ne_loop he)
      cases e with
      | loop | handleRead => cases hok
      | queueInLoopOwn _ | quitOwn =>
          rw [timedStep] at hok
          split at hok
          · exact hcall (by simp) hok
          · cases hok
      | queueInLoop _ | wakeup | quit | quitWakeup | queued => exact hcall (by simp) hok
  | handle =>
      rw [timedStep] at hok
      split at hok
      · split at hok
        · cases hok
          exact h.handle (And.left ‹_›) ‹_› ‹_›
        · cases hok
      · cases hok
  | runInLoop f =>
      rw [timedStep] at hok
      split at hok
      · cases hok
        exact h.call id
      · cases hok
  | runAfter cb =>
      rw [timedStep] at hok
      split at hok
      · cases hok
        exact h.call id
      · cases hok
  | addTimer =>
      rw [timedStep] at hok
      split at hok
      · cases hok
        exact h.done ‹_› _
      · cases hok
  | timerRead =>
      rw [timedStep] at hok
      split at hok
      · exact (h.done ‹_› s.timers).onLoop (fun heq => by cases heq) hok
      · cases hok
  | expire cb =>
      rw [timedStep] at hok
      split at hok
      · split at hok
        · cases hok
          exact h.expire ‹_› cb
        · cases hok
      · cases hok
  | «return» =>
      rw [timedStep] at hok
      split at hok
      · cases hok
      · rename_i f stack hstack
        split at hok
        · cases hok
        · split at hok
          · exact (h.done hstack s.timers).onLoop (fun heq => by cases heq) hok
          · cases hok
            exact h.done hstack _
          · cases hok
            exact h.done hstack s.timers

/-! ### Whole runs -/

omit [DecidableEq κ] in
/-- A callback between two handlers of one iteration would be one of the same iteration. -/
theorem Ordered.uninterrupted (h : Ordered s) : Uninterrupted s.trace := by
  intro pre post k cb j ch ch' htrace hpre hpost
  have hsorted := h.sorted
  rw [htrace, List.pairwise_append, List.pairwise_cons] at hsorted
  obtain ⟨-, ⟨hafter, -⟩, hbefore⟩ := hsorted
  have hle : j ≤ k := hbefore _ hpre _ List.mem_cons_self
  have hge : k ≤ j := hafter _ hpost
  obtain rfl := Nat.le_antisymm hle hge
  have hnone := (h.first pre post j cb htrace).2.2
  rw [handlersIn, List.filterMap_eq_nil_iff] at hnone
  exact absurd (hnone _ hpost) (by simp [handlerOf])

theorem ordered_run {events : List (TimedEvent ι F κ)} (h : runFrom timedStep init events = .ok s) :
    Ordered s :=
  run_invariant (fun _ _ _ hs _ => ordered_step hs) events ordered_init (along_true _ _) _
    (reachedBy_end h)

/-- **Timeouts come behind the data of the same iteration.**  In every run, with the timer channel at any
place among the channels of an iteration and any functors queued, a timer is called back behind the
handlers of all channels that were polled in its iteration, and never between two handlers of one. -/
theorem timeouts_after_data (events : List (TimedEvent ι F κ))
    (hrun : runFrom timedStep init events = .ok s) : HandledFirst s.trace ∧ Uninterrupted s.trace :=
  ⟨(ordered_run hrun).first, (ordered_run hrun).uninterrupted⟩

/-- A run in which `poll` reports the channel of the timers before that of a connection. -/
def timerPolledFirst : List (TimedEvent Unit Unit Unit) :=
  [.runAfter (), .addTimer, .loop [], .loop [], .loop [.timer, .io ()], .handle, .timerRead, .call .queued,
    .handle, .return, .loop [], .loop [], .loop [], .loop [], .expire ()]

theorem timeouts_after_data_timer_first : ∃ s, runFrom timedStep init timerPolledFirst = .ok s ∧
    s.trace = [(1, .polled [.timer, .io ()]), (1, .handler .timer), (1, .handler (.io ())),
      (1, .timerCallback ())] ∧ HandledFirst s.trace ∧ Uninterrupted s.trace :=
  ⟨_, rfl, rfl, timeouts_after_data timerPolledFirst rfl⟩

end TimedLoop

end WServer
