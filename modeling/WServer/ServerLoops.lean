import WServer.Library.Projections
import WServer.NoLostWakeup
import WServer.ServerSteps

/-!
# The loops of the server are event loops

Every step of the server moves each of its loops by steps of an event loop, in whatever order the threads
go on.  So the queue of every loop is first in, first out, each functor is executed once, and no loop sleeps
over a functor that another thread has queued for it.

* `mainEvents`, `ioEvents` — the steps of the main loop and of an I/O loop in a step of the server;
* `Step.moves` — these are the steps they take;
* `server_queues` — the queues of the loops, in whole runs;
* `server_no_lost_wakeup` — the loops that are about to block.
-/

namespace WServer

open Library.Runs TcpConnection

namespace TcpServer

variable {n : ℕ} {s s' : TcpServer n} {l : Fin (n + 1)} {id : ℕ} {conn : Connection n}

/-! ### The steps of a loop -/

/-- The calls of `removeConnection` that a member of a connection makes. -/
def reports (s : TcpServer n) (id : ℕ) (f : TcpConnection → Except Stop TcpConnection) :
    List (LoopEvent MainFunctor) :=
  match s.objects id with
  | none => []
  | some conn =>
      match f (s.loaded conn) with
      | .error _ => []
      | .ok c =>
          List.replicate (c.closeCallbacks - conn.tcp.closeCallbacks)
            (.queueInLoop (.removeConnectionInLoop id))

/-- The steps of the main loop. -/
def mainEvents (s : TcpServer n) : ServerEvent n → List (LoopEvent MainFunctor)
  | .main e => [e]
  | .handler l rs ws now =>
      match (s.io l).handling with
      | none => []
      | some (id, h) => s.reports id fun c => h.handle rs (c.writes ws) now c
  | .expire _ id => s.reports id fun c => closeLongConnection { c with timers := c.timers - 1 }
  | .accept _ _ | .destroy | .release _ | .io _ _ | .poll _ _ _ | .timerRead _ | .destruct _ => []

/-- `connectDestroyed` of a connection, queued for its loop. -/
def destroysOn (l : Fin (n + 1)) (s : TcpServer n) (id : ℕ) : List (LoopEvent IoFunctor) :=
  match s.objects id with
  | none => []
  | some conn => if conn.loop = l then [.queueInLoop (.connectDestroyed id)] else []

/-- The steps of an I/O loop. -/
def ioEvents (l : Fin (n + 1)) (s : TcpServer n) : ServerEvent n → List (LoopEvent IoFunctor)
  | .main e =>
      match s.main.called e with
      | none => []
      | some (.removeConnectionInLoop id) => s.destroysOn l id
  | .accept fd _ =>
      if fd ≤ MAXFD ∧ s.nextLoop = l then [.queueInLoop (.connectEstablished s.nextConnId)] else []
  | .release entry => s.destroysOn l entry.2
  | .io l' e => if l' = l then [e] else []
  | .timerRead l' => if l' = l then [.queueInLoopOwn .handleTimeoutEvents] else []
  | .destroy | .poll _ _ _ | .handler _ _ _ _ | .expire _ _ | .destruct _ => []

/-! ### One step -/

/-- The loops take these steps. -/
structure Moves (s s' : TcpServer n) (mainEs : List (LoopEvent MainFunctor))
    (ioEs : Fin (n + 1) → List (LoopEvent IoFunctor)) : Prop where
  main : runFrom loopStep s.main mainEs = .ok s'.main
  io : ∀ l, runFrom loopStep (s.io l).loop (ioEs l) = .ok (s'.io l).loop

/-- Functors that another thread queues, one after the other. -/
theorem run_queueInLoop {F : Type*} (cb : F) (k : ℕ) (loop : EventLoop F) :
    runFrom loopStep loop (List.replicate k (.queueInLoop cb)) =
      .ok ((EventLoop.queueInLoop cb)^[k] loop) :=
  runFrom_replicate (d := LoopEvent.queueInLoop cb) (f := EventLoop.queueInLoop cb) (fun _ => rfl) k loop

/-- A functor queued for an I/O loop. -/
theorem moves_queueInLoop (s : TcpServer n) (l : Fin (n + 1)) (cb : IoFunctor) (k : Fin (n + 1)) :
    runFrom loopStep (s.io k).loop (if l = k then [.queueInLoop cb] else []) =
      .ok ((s.queueInLoop l cb).io k).loop := by
  by_cases hl : l = k
  · subst hl
    rw [if_pos rfl, queueInLoop_io_self]
    rfl
  · rw [if_neg hl, queueInLoop_io_of_ne _ _ _ (Ne.symm hl)]
    rfl

/-- A step of one I/O loop. -/
theorem moves_setIo {e : LoopEvent IoFunctor} {thread : IoThread}
    (hstep : loopStep (s.io l).loop e = .ok thread.loop) (k : Fin (n + 1)) :
    runFrom loopStep (s.io k).loop (if l = k then [e] else []) = .ok ((s.setIo l thread).io k).loop := by
  by_cases hl : l = k
  · subst hl
    rw [if_pos rfl, setIo_self]
    exact runFrom_single hstep
  · rw [if_neg hl, setIo_of_ne _ _ (Ne.symm hl)]
    rfl

/-- An I/O thread goes on, and its loop stands still. -/
theorem still_setIo {thread : IoThread} (hstill : thread.loop = (s.io l).loop) (k : Fin (n + 1)) :
    ((s.setIo l thread).io k).loop = (s.io k).loop := by
  by_cases hl : k = l
  · rw [hl, setIo_self, hstill]
  · rw [setIo_of_ne _ _ hl]

/-- A member of a connection has been called. -/
theorem still_afterCall (s : TcpServer n) (id : ℕ) (conn : Connection n)
    (handling : Option (ℕ × Handler)) (call : Call) (c : TcpConnection) (k : Fin (n + 1)) :
    ((s.afterCall id conn (s.io conn.loop).loop handling call c).io k).loop = (s.io k).loop := by
  by_cases hl : k = conn.loop
  · rw [hl, afterCall_io]
  · show (Function.update s.io conn.loop _ k).loop = _
    rw [Function.update_of_ne hl]

/-- The functors of a loop do not report their connection. -/
theorem CallsMember.closeCallbacks {f : IoFunctor} {call : Call}
    {member : TcpConnection → Except Stop TcpConnection} {c c' : TcpConnection}
    (hmember : CallsMember id f call member) (hok : member c = .ok c') :
    c'.closeCallbacks = c.closeCallbacks := by
  cases hmember with
  | established =>
      obtain ⟨ch, ep, -, rfl⟩ := onChannel_ok hok
      rfl
  | destroyed =>
      obtain ⟨d, hd, hc⟩ := ok_of_bind hok
      obtain ⟨ch, ep, -, rfl⟩ := onChannel_ok hc
      split at hd
      · obtain ⟨ch, ep, -, rfl⟩ := onChannel_ok hd
        rfl
      · cases hd
        rfl

theorem reports_eq {f : TcpConnection → Except Stop TcpConnection} {c : TcpConnection}
    (hconn : s.objects id = some conn) (hok : f (s.loaded conn) = .ok c) :
    s.reports id f = List.replicate (c.closeCallbacks - conn.tcp.closeCallbacks)
      (.queueInLoop (.removeConnectionInLoop id)) := by
  simp only [reports, hconn, hok]

theorem destroysOn_eq (hconn : s.objects id = some conn) (l : Fin (n + 1)) :
    s.destroysOn l id = if conn.loop = l then [.queueInLoop (.connectDestroyed id)] else [] := by
  simp only [destroysOn, hconn]

/-- **One step** of the server moves the loops by the steps told. -/
theorem Step.moves {e : ServerEvent n} (h : Step s e s') :
    Moves s s' (s.mainEvents e) fun l => s.ioEvents l e := by
  cases h with
  | main hpushed hstep hcalled =>
      refine ⟨runFrom_single hstep, fun l => ?_⟩
      simp only [ioEvents, hcalled]
      rfl
  | @removed e main id conn hpushed hstep hcalled hconn =>
      refine ⟨runFrom_single hstep, fun l => ?_⟩
      simp only [ioEvents, hcalled, destroysOn_eq hconn]
      exact moves_queueInLoop _ conn.loop _ l
  | refused hfd =>
      refine ⟨rfl, fun l => ?_⟩
      simp only [ioEvents, if_neg fun h : _ ∧ _ => absurd h.1 (not_le.mpr hfd)]
      rfl
  | @accepted fd self hfd =>
      refine ⟨rfl, fun l => ?_⟩
      simp only [ioEvents, hfd, true_and]
      exact moves_queueInLoop (s.insert fd self) s.nextLoop _ l
  | destroyed => exact ⟨rfl, fun _ => rfl⟩
  | @released entry conn hentry hconn =>
      refine ⟨rfl, fun l => ?_⟩
      simp only [ioEvents, destroysOn_eq hconn]
      exact moves_queueInLoop (s.erase entry.1) conn.loop _ l
  | io hpushed hstep hcalled => exact ⟨rfl, moves_setIo hstep⟩
  | @called e loop id conn f call member c hpushed hstep hcalled hmember hconn hok =>
      constructor
      · show _ = Except.ok ((EventLoop.queueInLoop _)^[c.closeCallbacks - conn.tcp.closeCallbacks] s.main)
        rw [hmember.closeCallbacks hok, show (s.loaded conn).closeCallbacks = conn.tcp.closeCallbacks from
          rfl, Nat.sub_self]
        rfl
      · exact moves_setIo
          (show loopStep (s.io conn.loop).loop e = .ok { s.io conn.loop with
            loop := loop, epoll := c.epoll }.loop from hstep)
  | polled hconn hreports =>
      exact ⟨rfl, fun l => congrArg Except.ok (still_setIo (s := s) (by rfl) l).symm⟩
  | @handled rs ws now id h conn c hhandling hconn hcalled hok =>
      refine ⟨?_, fun l => congrArg Except.ok (still_afterCall s id conn _ _ c l).symm⟩
      have hhandle : h.handle rs ((s.loaded conn).writes ws) now (s.loaded conn) = .ok c := by
        rw [Handler.handle, if_pos (show h.Called (s.loaded conn).channel.revents from hcalled), hok]
      simp only [mainEvents, hhandling]
      rw [reports_eq (f := fun c => h.handle rs (c.writes ws) now c) hconn hhandle]
      exact run_queueInLoop _ _ _
  | @skipped l rs ws now id h conn hhandling hconn hcalled =>
      refine ⟨?_, fun k => congrArg Except.ok (still_setIo (s := s) (by rfl) k).symm⟩
      have hhandle : h.handle rs ((s.loaded conn).writes ws) now (s.loaded conn) = .ok (s.loaded conn) := by
        rw [Handler.handle, if_neg (show ¬ h.Called (s.loaded conn).channel.revents from hcalled)]
      have hnone : (s.loaded conn).closeCallbacks - conn.tcp.closeCallbacks = 0 := Nat.sub_self _
      simp only [mainEvents, hhandling]
      rw [reports_eq (f := fun c => h.handle rs (c.writes ws) now c) hconn hhandle, hnone]
      rfl
  | @stuck rs ws now id h conn hhandling hconn hcalled hstop =>
      refine ⟨?_, fun k => congrArg Except.ok (still_setIo (s := s) (by rfl) k).symm⟩
      have hhandle : h.handle rs ((s.loaded conn).writes ws) now (s.loaded conn) = .error .parserLoop := by
        rw [Handler.handle, if_pos (show h.Called (s.loaded conn).channel.revents from hcalled), hstop]
      simp only [mainEvents, hhandling, reports, hconn, hhandle]
      rfl
  | timerRead hstep hpc => exact ⟨rfl, moves_setIo hstep⟩
  | @expired id conn c hconn htimers hok =>
      refine ⟨?_, fun l => congrArg Except.ok (still_afterCall s id conn _ _ c l).symm⟩
      have hcall : closeLongConnection
          { s.loaded conn with timers := (s.loaded conn).timers - 1 } = .ok c := hok
      simp only [mainEvents]
      rw [reports_eq (f := fun c => closeLongConnection { c with timers := c.timers - 1 }) hconn hcall]
      exact run_queueInLoop _ _ _
  | freed hconn hstate hunreferenced => exact ⟨rfl, fun _ => rfl⟩

/-! ### Whole runs -/

/-- The server contains its main loop. -/
theorem contains_main :
    Contains serverStep (fun _ : TcpServer n => True) loopStep TcpServer.main mainEvents where
  kept _ _ _ _ _ := trivial
  step _ _ _ _ h := (serverStep_cases h).moves.main

/-- It contains each of its I/O loops. -/
theorem contains_io (l : Fin (n + 1)) :
    Contains serverStep (fun _ : TcpServer n => True) loopStep (fun s => (s.io l).loop) (ioEvents l) where
  kept _ _ _ _ _ := trivial
  step _ _ _ _ h := (serverStep_cases h).moves.io l

/-- The functors queued for the main loop in a run, in their order. -/
def queuedForMain (s : TcpServer n) (es : List (ServerEvent n)) : List MainFunctor :=
  (traceOf serverStep mainEvents s es).flatMap LoopEvent.pushed

/-- The functors queued for an I/O loop in a run, in their order. -/
def queuedForIo (l : Fin (n + 1)) (s : TcpServer n) (es : List (ServerEvent n)) : List IoFunctor :=
  (traceOf serverStep (ioEvents l) s es).flatMap LoopEvent.pushed

/-- **The queues of the server.**  In every interleaving of its threads, for the main loop and for every
I/O loop: the functors executed, those left of the batch and the pending ones are all that were queued for
it, in the order of their queueing; none is lost, executed twice or overtaken. -/
theorem server_queues {name : List Char} {es : List (ServerEvent n)}
    (hrun : runFrom serverStep (init name) es = .ok s) :
    s.main.executed.map Prod.snd ++ s.main.functors ++ s.main.pendingFunctors =
        queuedForMain (init name) es ∧
      ∀ l, (s.io l).loop.executed.map Prod.snd ++ (s.io l).loop.functors ++
        (s.io l).loop.pendingFunctors = queuedForIo l (init name) es :=
  ⟨EventLoop.queuedSoFar_run (runFrom_traceOf contains_main trivial hrun),
    fun l => EventLoop.queuedSoFar_run (runFrom_traceOf (contains_io l) trivial hrun)⟩

/-- A connection comes and goes: each of its functors is executed once. -/
theorem server_queues_closedByPeer : ∃ s : TcpServer 0,
    runFrom serverStep (init []) closedByPeer = .ok s ∧
      s.main.executed.map Prod.snd = [.removeConnectionInLoop 1] ∧
      (s.main.executed.map Prod.snd ++ s.main.functors ++ s.main.pendingFunctors =
          queuedForMain (init []) closedByPeer ∧
        ∀ l, (s.io l).loop.executed.map Prod.snd ++ (s.io l).loop.functors ++
          (s.io l).loop.pendingFunctors = queuedForIo l (init []) closedByPeer) :=
  ⟨_, rfl, rfl, server_queues rfl⟩

/-! ### Wakeups -/

/-- A thread that is about to block has nothing to execute, or is woken up at once. -/
def SleepsSafely {F : Type*} (loop : EventLoop F) : Prop :=
  loop.pc = .poll → loop.waking = 0 → loop.pendingFunctors = [] ∨ 0 < loop.wakeupFd

/-- Steps that are no calls of `queueInLoop` in the thread of the loop. -/
theorem along_calledInLoop {F : Type*} {loop : EventLoop F} {es : List (LoopEvent F)}
    (h : ∀ e ∈ es, ∀ cb, e ≠ .queueInLoopOwn cb) : Along loopStep EventLoop.CalledInLoop loop es := by
  refine along_iff.mpr fun pre e post heq u _ => ?_
  have hmem : e ∈ es := by
    rw [heq]
    exact List.mem_append_right pre List.mem_cons_self
  cases e with
  | queueInLoopOwn cb => exact absurd rfl (h _ hmem cb)
  | queueInLoop | wakeup | quit | quitWakeup | queued | quitOwn | handleRead | loop => exact trivial

/-- A step that queues nothing is no such call. -/
theorem ne_queueInLoopOwn {F : Type*} {e : LoopEvent F} (h : e.pushed = []) (cb : F) :
    e ≠ .queueInLoopOwn cb := by
  rintro rfl
  cases h

/-- The members of a connection queue functors for the main loop from another thread. -/
theorem calledInLoop_reports (loop : EventLoop MainFunctor) (s : TcpServer n) (id : ℕ)
    (f : TcpConnection → Except Stop TcpConnection) :
    Along loopStep EventLoop.CalledInLoop loop (s.reports id f) := by
  refine along_calledInLoop fun d hd cb => ?_
  rw [reports] at hd
  split at hd
  · cases hd
  · split at hd
    · cases hd
    · rw [List.eq_of_mem_replicate hd]
      exact nofun

/-- **The main thread** queues nothing for its own loop. -/
theorem Step.calledInMain {e : ServerEvent n} (h : Step s e s') :
    Along loopStep EventLoop.CalledInLoop s.main (s.mainEvents e) := by
  have hloop : ∀ d : LoopEvent MainFunctor, d.pushed = [] →
      Along loopStep EventLoop.CalledInLoop s.main [d] := fun d hd =>
    along_calledInLoop fun d' hd' cb => by
      rw [List.mem_singleton.mp hd']
      exact ne_queueInLoopOwn hd cb
  cases h with
  | main hpushed hstep hcalled => exact hloop _ hpushed
  | removed hpushed hstep hcalled hconn => exact hloop _ hpushed
  | handled hhandling hconn hcalled hok | skipped hhandling hconn hcalled
  | stuck hhandling hconn hcalled hstop =>
      simp only [mainEvents, hhandling]
      exact calledInLoop_reports _ _ _ _
  | expired hconn htimers hok =>
      simp only [mainEvents]
      exact calledInLoop_reports _ _ _ _
  | refused | accepted | destroyed | released | io | called | polled | timerRead | freed => exact trivial

/-- **An I/O thread** queues `handleTimeoutEvents` for its own loop, while it handles events. -/
theorem Step.calledInIo {e : ServerEvent n} (h : Step s e s') (l : Fin (n + 1)) :
    Along loopStep EventLoop.CalledInLoop (s.io l).loop (s.ioEvents l e) := by
  have hdestroys : ∀ id, Along loopStep EventLoop.CalledInLoop (s.io l).loop (s.destroysOn l id) := by
    intro id
    refine along_calledInLoop fun d hd cb => ?_
    rw [destroysOn] at hd
    split at hd
    · cases hd
    · split at hd
      · rw [List.mem_singleton.mp hd]
        exact nofun
      · cases hd
  have hloop : ∀ (k : Fin (n + 1)) (d : LoopEvent IoFunctor), d.pushed = [] →
      Along loopStep EventLoop.CalledInLoop (s.io l).loop (if k = l then [d] else []) := by
    intro k d hd
    refine along_calledInLoop fun d' hd' cb => ?_
    split at hd'
    · rw [List.mem_singleton.mp hd']
      exact ne_queueInLoopOwn hd cb
    · cases hd'
  cases h with
  | main hpushed hstep hcalled =>
      simp only [ioEvents, hcalled]
      exact trivial
  | removed hpushed hstep hcalled hconn =>
      simp only [ioEvents, hcalled]
      exact hdestroys _
  | accepted hfd =>
      refine along_calledInLoop fun d hd cb => ?_
      rw [ioEvents] at hd
      split at hd
      · rw [List.mem_singleton.mp hd]
        exact nofun
      · cases hd
  | refused hfd =>
      simp only [ioEvents, if_neg fun h : _ ∧ _ => absurd h.1 (not_le.mpr hfd)]
      exact trivial
  | released hentry hconn => exact hdestroys _
  | io hpushed hstep hcalled => exact hloop _ _ hpushed
  | called hpushed hstep hcalled hmember hconn hok => exact hloop _ _ hpushed
  | @timerRead k loop hstep hpc =>
      rw [ioEvents]
      by_cases hk : k = l
      · subst hk
        rw [if_pos rfl]
        refine ⟨?_, fun _ _ => trivial⟩
        show (s.io k).loop.pc ≠ .outside
        rw [hpc]
        decide
      · rw [if_neg hk]
        exact trivial
  | destroyed | polled | handled | skipped | stuck | expired | freed => exact trivial

/-- **No loop of the server sleeps over a functor.**  In every interleaving, when the main loop or an I/O
loop is about to block and no other thread is between queueing a functor for it and waking it up, nothing
is pending for it or its eventfd is readable. -/
theorem server_no_lost_wakeup (name : List Char) (es : List (ServerEvent n)) (s : TcpServer n)
    (hs : ReachedBy serverStep (init name) es s) :
    SleepsSafely s.main ∧ ∀ l, SleepsSafely (s.io l).loop := by
  obtain ⟨pre, -, hrun⟩ := hs
  constructor
  · have hgood : Along loopStep EventLoop.CalledInLoop EventLoop.init
        (traceOf serverStep mainEvents (init name) pre) :=
      along_traceOf contains_main (fun _ _ _ _ _ h => (serverStep_cases h).calledInMain) trivial
        (along_true _ pre) hrun
    exact (run_invariant EventLoop.woken_step _ EventLoop.woken_init hgood _
      (reachedBy_end (runFrom_traceOf contains_main trivial hrun))).poll
  · intro l
    have hgood : Along loopStep EventLoop.CalledInLoop EventLoop.init
        (traceOf serverStep (ioEvents l) (init name) pre) :=
      along_traceOf (contains_io l) (fun _ _ _ _ _ h => (serverStep_cases h).calledInIo l) trivial
        (along_true _ pre) hrun
    exact (run_invariant EventLoop.woken_step _ EventLoop.woken_init hgood _
      (reachedBy_end (runFrom_traceOf (contains_io l) trivial hrun))).poll

/-- A connection for a loop that is about to block. -/
def acceptedBeforePoll : List (ServerEvent 0) :=
  List.replicate 2 (.io (Fin.last 0) .loop) ++ List.replicate 3 (.main .loop) ++
    [.accept 5 7, .io (Fin.last 0) .wakeup]

/-- Its functor is pending, and the eventfd is readable. -/
theorem server_no_lost_wakeup_accepted : ∃ s : TcpServer 0,
    runFrom serverStep (init []) acceptedBeforePoll = .ok s ∧
      (s.io 0).loop.pc = .poll ∧ (s.io 0).loop.pendingFunctors = [.connectEstablished 1] ∧
      SleepsSafely s.main ∧ ∀ l, SleepsSafely (s.io l).loop :=
  ⟨_, rfl, rfl, rfl, server_no_lost_wakeup [] acceptedBeforePoll _
    ⟨acceptedBeforePoll, List.prefix_refl _, rfl⟩⟩

end TcpServer

end WServer
