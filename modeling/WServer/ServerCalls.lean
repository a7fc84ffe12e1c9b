import WServer.ServerInvariant

/-!
# Calls of members of a connection

A member that is called in the thread of an I/O loop changes its connection, the epoll of that loop and,
by the close callback, the queue of the main loop (`afterCall`).  Each of them keeps the invariant:
`connectEstablished` and `connectDestroyed` when they are called from the queue, a handler in its event,
and a timer that expires.
-/

namespace WServer

open TcpConnection

namespace TcpServer

variable {n : ℕ} {s s' : TcpServer n} {l : Fin (n + 1)} {id : ℕ} {conn : Connection n}
  {c c' : TcpConnection}

/-! ### Calls -/

/-- The server after a call of a member of one connection, which has left `c`; its loop is now `loop`. -/
def afterCall (s : TcpServer n) (id : ℕ) (conn : Connection n) (loop : EventLoop IoFunctor)
    (handling : Option (ℕ × Handler)) (call : Call) (c : TcpConnection) : TcpServer n :=
  { s with
    main := (EventLoop.queueInLoop (.removeConnectionInLoop id))^[c.closeCallbacks -
      conn.tcp.closeCallbacks] s.main
    io := Function.update s.io conn.loop { s.io conn.loop with
      loop := loop
      epoll := c.epoll
      handling := handling }
    objects := Function.update s.objects id (some { conn with tcp := c })
    calls := s.calls ++ [call] }

theorem afterCall_io (s : TcpServer n) (id : ℕ) (conn : Connection n) (loop : EventLoop IoFunctor)
    (handling : Option (ℕ × Handler)) (call : Call) (c : TcpConnection) :
    (s.afterCall id conn loop handling call c).io conn.loop =
      { s.io conn.loop with loop := loop, epoll := c.epoll, handling := handling } :=
  Function.update_self _ _ _

theorem afterCall_queue (s : TcpServer n) (id : ℕ) (conn : Connection n) (loop : EventLoop IoFunctor)
    (handling : Option (ℕ × Handler)) (call : Call) (c : TcpConnection) :
    (s.afterCall id conn loop handling call c).queue conn.loop = loop.waiting := by
  rw [queue, afterCall_io]

theorem touches_afterCall (hinv : Inv s) {loop : EventLoop IoFunctor}
    (handling : Option (ℕ × Handler)) {call : Call} (c : TcpConnection) (hcall : call.conn = id)
    (hbatch : loop.BatchOver) (hqueue : ∃ called, s.queue conn.loop = called ++ loop.waiting ∧
      ∀ f ∈ called, f.conn = some id ∨ f.conn = none) :
    Touches s (s.afterCall id conn loop handling call c) id conn c where
  name := rfl
  nextConnId := rfl
  connections := rfl
  destroying := rfl
  objects := rfl
  epoll := by rw [afterCall_io]
  io l hl := Function.update_of_ne hl _ _
  mainBatch := EventLoop.batchOver_iterate_queueInLoop _ _ hinv.mainBatch
  removals := ⟨_, EventLoop.waiting_iterate_queueInLoop _ _ _⟩
  ioBatch := by rwa [afterCall_io]
  queue := by rwa [afterCall_queue]
  calls := ⟨[call], rfl, fun call' hmem => by rw [List.mem_singleton.mp hmem, hcall]⟩

theorem progress_afterCall (loop : EventLoop IoFunctor) (handling : Option (ℕ × Handler)) (call : Call)
    (c : TcpConnection) :
    (s.afterCall id conn loop handling call c).progress conn.loop id = { s.progress conn.loop id with
      establishing := loop.waiting.count (.connectEstablished id)
      established := (s.progress conn.loop id).established + [call].count (.connectEstablished id)
      destroying := loop.waiting.count (.connectDestroyed id)
      destroyed := (s.progress conn.loop id).destroyed + [call].count (.connectDestroyed id)
      removing := (s.progress conn.loop id).removing +
        (c.closeCallbacks - conn.tcp.closeCallbacks) } := by
  have hmain : (s.afterCall id conn loop handling call c).main.waiting =
      s.main.waiting ++ List.replicate (c.closeCallbacks - conn.tcp.closeCallbacks)
        (.removeConnectionInLoop id) := EventLoop.waiting_iterate_queueInLoop _ _ _
  have hcalls : (s.afterCall id conn loop handling call c).calls = s.calls ++ [call] := rfl
  rw [progress, afterCall_queue, hmain, hcalls, List.count_append, List.count_append,
    List.count_append, List.count_replicate_self]
  rfl

/-- A handler may report the connection, and changes nothing else of its progress. -/
theorem progress_afterHandler (s : TcpServer n) (id : ℕ) (conn : Connection n)
    (handling : Option (ℕ × Handler)) (c : TcpConnection) :
    (s.afterCall id conn (s.io conn.loop).loop handling (.handler id) c).progress conn.loop id =
      { s.progress conn.loop id with
        removing := (s.progress conn.loop id).removing +
          (c.closeCallbacks - (s.loaded conn).closeCallbacks) } := by
  rw [progress_afterCall, List.count_singleton, List.count_singleton]
  rfl

/-- The functor at the head of the queue is called, which is no handler and does not report its
connection. -/
theorem inv_called (hinv : Inv s) (hconn : s.objects id = some conn) {loop : EventLoop IoFunctor}
    (hbatch : loop.BatchOver) {f : IoFunctor} (hf : f.conn = some id)
    (hqueue : s.queue conn.loop = f :: loop.waiting) (hidle : (s.io conn.loop).handling = none)
    {call : Call} (hcall : call.conn = id) (hhandler : ∀ i, call ≠ .handler i)
    (helse : Elsewhere (s.loaded conn) c) (hcalls : c.closeCallbacks = (s.loaded conn).closeCallbacks)
    (hlawful : Lawful { s.progress conn.loop id with
      establishing := loop.waiting.count (.connectEstablished id)
      established := (s.progress conn.loop id).established + [call].count (.connectEstablished id)
      destroying := loop.waiting.count (.connectDestroyed id)
      destroyed := (s.progress conn.loop id).destroyed + [call].count (.connectDestroyed id) } c) :
    Inv (s.afterCall id conn loop (s.io conn.loop).handling call c) := by
  refine inv_touches hinv hconn (touches_afterCall hinv _ c hcall hbatch ⟨[f], hqueue, ?_⟩) helse ?_ ?_ ?_
  · intro g hg
    rw [List.mem_singleton.mp hg]
    exact Or.inl hf
  · have hnone : c.closeCallbacks - conn.tcp.closeCallbacks = 0 := by
      rw [hcalls]
      exact Nat.sub_self _
    rw [progress_afterCall, hnone]
    exact hlawful
  · intro i h hi
    rw [afterCall_io, hidle] at hi
    cases hi
  · exact hinv.handled.append fun i hi => absurd hi (hhandler i)

/-- **connectEstablished** is called by the loop of the connection. -/
theorem inv_established (hinv : Inv s) (hconn : s.objects id = some conn)
    {loop : EventLoop IoFunctor} (hbatch : loop.BatchOver)
    (hqueue : s.queue conn.loop = .connectEstablished id :: loop.waiting)
    (hidle : (s.io conn.loop).handling = none)
    (hok : (s.loaded conn).connectEstablished = .ok c) :
    Inv (s.afterCall id conn loop (s.io conn.loop).handling (.connectEstablished id) c) := by
  have hlawful := hinv.lawful id conn hconn
  rw [progress, hqueue, List.count_cons_self, List.count_cons_of_ne (fun h => by cases h)] at hlawful
  obtain ⟨hlawful', helse, hcalls⟩ := Lawful.establish
    (p := { s.progress conn.loop id with
      establishing := loop.waiting.count (.connectEstablished id)
      destroying := loop.waiting.count (.connectDestroyed id) }) hlawful hok
  refine inv_called hinv hconn hbatch rfl hqueue hidle rfl (fun i hi => by cases hi) helse hcalls ?_
  rw [List.count_singleton_self, List.count_singleton]
  exact hlawful'

/-- **connectDestroyed** is called by the loop of the connection, behind `connectEstablished`. -/
theorem inv_destroyed (hinv : Inv s) (hconn : s.objects id = some conn)
    {loop : EventLoop IoFunctor} (hbatch : loop.BatchOver)
    (hqueue : s.queue conn.loop = .connectDestroyed id :: loop.waiting)
    (hidle : (s.io conn.loop).handling = none)
    (hok : (s.loaded conn).connectDestroyed = .ok c) :
    Inv (s.afterCall id conn loop (s.io conn.loop).handling (.connectDestroyed id) c) := by
  have hnone : loop.waiting.count (.connectEstablished id) = 0 := by
    have horder := hinv.order conn.loop
    rw [hqueue, List.pairwise_cons] at horder
    exact List.count_eq_zero.mpr fun hmem => horder.1 _ hmem id rfl rfl
  have hlawful := hinv.lawful id conn hconn
  rw [progress, hqueue, List.count_cons_self, List.count_cons_of_ne (fun h => by cases h)] at hlawful
  obtain ⟨hlawful', helse, hcalls⟩ := Lawful.destroy
    (p := { s.progress conn.loop id with
      establishing := loop.waiting.count (.connectEstablished id)
      destroying := loop.waiting.count (.connectDestroyed id) }) hlawful hnone hok
  refine inv_called hinv hconn hbatch rfl hqueue hidle rfl (fun i hi => by cases hi) helse hcalls ?_
  rw [List.count_singleton_self, List.count_singleton]
  exact hlawful'

/-- **A handler** is called in the thread that handles the event. -/
theorem inv_handler (hinv : Inv s) (hconn : s.objects id = some conn) {h : Handler}
    (hhandling : (s.io conn.loop).handling = some (id, h)) (next : Option Handler)
    (he : Effect (s.loaded conn) c) :
    Inv (s.afterCall id conn (s.io conn.loop).loop (next.map fun h => (id, h)) (.handler id) c) := by
  obtain ⟨hpc, ⟨conn', hconn', -, hserves⟩, hdestroyed⟩ := hinv.handling _ _ _ hhandling
  rw [hconn] at hconn'
  cases hconn'
  have hlawful := hinv.lawful id conn hconn
  obtain ⟨hlawful', hserves', helse⟩ := hlawful.handle hserves hdestroyed he
  have hestablished := hlawful.stage.of_serves hserves hdestroyed
  have htouches : Touches s (s.afterCall id conn (s.io conn.loop).loop (next.map fun h => (id, h))
      (.handler id) c) id conn c :=
    touches_afterCall hinv _ c rfl (hinv.ioBatch conn.loop) ⟨[], rfl, fun f hf => by cases hf⟩
  have hprogress := progress_afterHandler s id conn (next.map fun h => (id, h)) c
  refine inv_touches hinv hconn htouches helse ?_ ?_ ?_
  · rw [hprogress]
    exact hlawful'
  · intro i h' hi
    rw [afterCall_io] at hi
    obtain ⟨_, -, heq⟩ := Option.map_eq_some_iff.mp hi
    cases heq
    refine ⟨?_, ⟨_, htouches.object, rfl, ?_⟩, ?_⟩
    · rw [afterCall_io]
      exact hpc
    · rw [htouches.loaded]
      exact hserves'
    · exact (congrArg Progress.destroyed hprogress).trans hdestroyed
  · refine hinv.handled.append fun i hi => ?_
    cases hi
    exact established_mem hestablished

/-- **A timer** of a connection expires in its loop, which handles no event meanwhile. -/
theorem inv_expired (hinv : Inv s) (hconn : s.objects id = some conn) {timers : ℕ}
    (hpc : (s.io conn.loop).loop.pc = .functor)
    (hok : ({ s.loaded conn with timers := timers } : TcpConnection).closeLongConnection = .ok c) :
    Inv (s.afterCall id conn (s.io conn.loop).loop (s.io conn.loop).handling (.handler id) c) := by
  obtain ⟨hlawful, helse, hestablished⟩ := (hinv.lawful id conn hconn).expire hok
  refine inv_touches hinv hconn (touches_afterCall hinv _ c rfl (hinv.ioBatch conn.loop)
    ⟨[], rfl, fun f hf => by cases hf⟩) helse ?_ ?_ ?_
  · rw [progress_afterHandler]
    exact hlawful
  · intro i h hi
    rw [afterCall_io] at hi
    have hpc' := (hinv.handling conn.loop i h hi).pc
    rw [hpc] at hpc'
    cases hpc'
  · refine hinv.handled.append fun i hi => ?_
    cases hi
    exact established_mem hestablished

theorem handleEvent_io (s : TcpServer n) (id : ℕ) (conn : Connection n) (revents : Events) :
    (s.handleEvent id conn revents).io conn.loop =
      { s.io conn.loop with handling := some (id, .close) } := Function.update_self _ _ _

theorem handleEvent_queue (s : TcpServer n) (id : ℕ) (conn : Connection n) (revents : Events) :
    (s.handleEvent id conn revents).queue conn.loop = s.queue conn.loop := by
  rw [queue, queue, handleEvent_io]

theorem touches_handleEvent (hinv : Inv s) (revents : Events) :
    Touches s (s.handleEvent id conn revents) id conn
      { s.loaded conn with channel := conn.tcp.channel.setRevents revents } where
  name := rfl
  nextConnId := rfl
  connections := rfl
  destroying := rfl
  objects := rfl
  epoll := by rw [handleEvent_io]; rfl
  io l hl := Function.update_of_ne hl _ _
  mainBatch := hinv.mainBatch
  removals := ⟨0, (List.append_nil _).symm⟩
  ioBatch := by rw [handleEvent_io]; exact hinv.ioBatch conn.loop
  queue := ⟨[], by rw [handleEvent_queue, List.nil_append], fun f hf => by cases hf⟩
  calls := ⟨[], (List.append_nil _).symm, fun call hcall => by cases hcall⟩

/-- **An event** of a connection is reported, and its handling begins. -/
theorem inv_polled (hinv : Inv s) (hconn : s.objects id = some conn) {revents : Events}
    (hpc : (s.io conn.loop).loop.pc = .handling) (hreports : (s.loaded conn).Reports revents) :
    Inv (s.handleEvent id conn revents) := by
  have hlawful := hinv.lawful id conn hconn
  obtain ⟨hconnected, hdestroyed⟩ := hlawful.stage.connected_of_registered hreports.1
  have hestablished := (hlawful.stage.of_connected hconnected).1
  have hconnected' := hconnected.setRevents revents
  have htouches : Touches s (s.handleEvent id conn revents) id conn _ :=
    touches_handleEvent hinv revents
  have hprogress : (s.handleEvent id conn revents).progress conn.loop id =
      s.progress conn.loop id := by
    rw [progress, handleEvent_queue]
    rfl
  refine inv_touches hinv hconn htouches ⟨rfl, rfl, fun _ _ => ⟨rfl, rfl⟩⟩ ?_ ?_ hinv.handled
  · rw [hprogress]
    refine ⟨?_, hlawful.established, hlawful.destroyed, hlawful.removing, hlawful.serving⟩
    rw [hestablished, hdestroyed]
    exact .connected (Or.inl hconnected')
  · intro i h hi
    rw [handleEvent_io] at hi
    cases hi
    refine ⟨?_, ⟨_, htouches.object, rfl, ?_⟩, hdestroyed⟩
    · rw [handleEvent_io]
      exact hpc
    · rw [htouches.loaded]
      exact Or.inl hconnected'

end TcpServer

end WServer
