import WServer.ServerCalls
import WServer.ServerConnections

/-!
# Setup and teardown across the loops

For any number of connections and any order of the steps: `connectEstablished` is called once and before
any handler, `connectDestroyed` once and when the connection has left `m_connections`; after that no epoll
has an entry for its channel; a connection is destroyed disconnected; and a new connection finds no entry
for its descriptor.

* `ends_step` — a step ends in the invariant, or it is not taken, for no fault of a connection;
* `Lifecycle`, `connection_lifecycle` — what that means in a state, and whole runs.
-/

namespace WServer

open Library.Runs TcpConnection

namespace TcpServer

variable {n : ℕ} {s s' : TcpServer n} {l : Fin (n + 1)} {id : ℕ} {conn : Connection n}
  {c c' : TcpConnection}

/-! ### One step -/

/-- A step ends in the invariant, or it is not taken: no connection is destroyed connected, and none is
used that is gone, or in a foreign thread. -/
def Ends : Except ServerFault (TcpServer n) → Prop
  | .ok s => Inv s
  | .error fault => fault ≠ .destructor ∧ fault ≠ .dangling ∧ fault ≠ .abortNotInLoopThread

theorem ends_notThere : Ends (.error .notThere : Except ServerFault (TcpServer n)) :=
  ⟨nofun, nofun, nofun⟩

theorem setIo_self (s : TcpServer n) (l : Fin (n + 1)) (thread : IoThread) :
    (s.setIo l thread).io l = thread := Function.update_self _ _ _

theorem setIo_of_ne (s : TcpServer n) {l l' : Fin (n + 1)} (thread : IoThread) (h : l' ≠ l) :
    (s.setIo l thread).io l' = s.io l' := Function.update_of_ne h _ _

/-- An I/O thread has moved on, with the functors of connections it had before. -/
theorem inv_setIo (hinv : Inv s) {thread : IoThread} (hepoll : thread.epoll = (s.io l).epoll)
    (hbatch : thread.loop.BatchOver)
    (hqueue : ∀ f : IoFunctor, f.conn ≠ none → thread.loop.waiting.count f = (s.queue l).count f)
    (horder : thread.loop.waiting.Pairwise IoFunctor.InOrder)
    (hhandling : ∀ i h, thread.handling = some (i, h) →
      (∃ h', (s.io l).handling = some (i, h')) ∧ thread.loop.pc = (s.io l).loop.pc) :
    Inv (s.setIo l thread) := by
  have hcases : ∀ {P : Fin (n + 1) → IoThread → Prop}, P l thread →
      (∀ l', P l' (s.io l')) → ∀ l', P l' ((s.setIo l thread).io l') := by
    intro P hself hother l'
    by_cases hl : l' = l
    · rw [hl, setIo_self]
      exact hself
    · rw [setIo_of_ne s thread hl]
      exact hother l'
  refine inv_frame hinv {
    mainBatch := hinv.mainBatch
    main := rfl
    epoll := hcases (P := fun l' t => t.epoll = (s.io l').epoll) hepoll fun _ => rfl
    ioBatch := hcases (P := fun _ t => t.loop.BatchOver) hbatch hinv.ioBatch
    queue := fun l' f hf => hcases (P := fun l' t => t.loop.waiting.count f = (s.queue l').count f)
      (hqueue f hf) (fun _ => rfl) l'
    order := hcases (P := fun _ t => t.loop.waiting.Pairwise IoFunctor.InOrder) horder hinv.order
    handling := hcases (P := fun l' t => ∀ i h, t.handling = some (i, h) →
      (∃ h', (s.io l').handling = some (i, h')) ∧ t.loop.pc = (s.io l').loop.pc) hhandling
      fun _ _ h hl => ⟨⟨h, hl⟩, rfl⟩
    calls := ⟨[], (List.append_nil _).symm, fun _ h => by cases h⟩
    handled := hinv.handled }

/-- The main thread has moved on, with the functors it had before, or the destructor of the server has
begun. -/
theorem inv_main (hinv : Inv s) {main : EventLoop MainFunctor} {destroying : Bool}
    (hbatch : main.BatchOver) (hmain : main.waiting = s.main.waiting)
    (hdestroying : destroying = s.destroying ∨ destroying = true) :
    Inv { s with main := main, destroying := destroying } :=
  inv_frame hinv {
    destroying := hdestroying
    mainBatch := hbatch
    main := hmain
    epoll := fun _ => rfl
    ioBatch := hinv.ioBatch
    queue := fun _ _ _ => rfl
    order := hinv.order
    handling := fun _ _ h hl => ⟨⟨h, hl⟩, rfl⟩
    calls := ⟨[], (List.append_nil _).symm, fun _ h => by cases h⟩
    handled := hinv.handled }

/-- A handler of an established connection is recorded. -/
theorem inv_record (hinv : Inv s) (hconn : s.objects id = some conn)
    (hestablished : (s.progress conn.loop id).established = 1) : Inv (s.record (.handler id)) := by
  refine inv_frame hinv {
    mainBatch := hinv.mainBatch
    main := rfl
    epoll := fun _ => rfl
    ioBatch := hinv.ioBatch
    queue := fun _ _ _ => rfl
    order := hinv.order
    handling := fun _ _ h hl => ⟨⟨h, hl⟩, rfl⟩
    calls := ⟨[.handler id], rfl, ?_⟩
    handled := hinv.handled.append ?_ }
  · intro call hcall
    exact ⟨id, List.mem_singleton.mp hcall, by rw [hconn]; exact Option.some_ne_none conn⟩
  · intro i hi
    cases hi
    exact established_mem hestablished

/-- **A step of the main thread** in its loop. -/
theorem ends_main (hinv : Inv s) {e : LoopEvent MainFunctor} {main : EventLoop MainFunctor}
    (hpushed : e.pushed = []) (hserving : e.isOwn = true → s.destroying = false)
    (hstep : loopStep s.main e = .ok main) :
    Ends (runMain (s.main.called e) { s with main := main }) := by
  have hbatch : main.BatchOver := EventLoop.batchOver_step hinv.mainBatch hstep
  have hwaiting := EventLoop.loopStep_waiting hstep hpushed hinv.mainBatch
  cases hcalled : s.main.called e with
  | none =>
      rw [hcalled] at hwaiting
      exact inv_main hinv hbatch hwaiting.symm (Or.inl rfl)
  | some f =>
      obtain ⟨id⟩ := f
      rw [hcalled] at hwaiting
      have hwaiting' : s.main.waiting = .removeConnectionInLoop id :: main.waiting := hwaiting
      have hown : s.destroying = false := by
        refine hserving ?_
        by_contra hown
        rw [(EventLoop.loopStep_other hstep (Bool.eq_false_of_not_eq_true hown)).2] at hcalled
        cases hcalled
      obtain ⟨conn, hconn⟩ := Option.ne_none_iff_exists'.mp (hinv.removable id
        (hwaiting' ▸ List.mem_cons_self))
      have hlawful := hinv.lawful id conn hconn
      have hprogress : s.progress conn.loop id = { s.progress conn.loop id with
          removing := main.waiting.count (.removeConnectionInLoop id) + 1 } := by
        rw [progress, hwaiting', List.count_cons_self]
      rw [hprogress] at hlawful
      have hremoved := (Lawful.remove (p := { s.progress conn.loop id with
        removing := main.waiting.count (.removeConnectionInLoop id) }) hlawful (by
          show (!s.destroying) = true
          rw [hown]
          rfl)).2
      have hrun : runMain (some (.removeConnectionInLoop id)) { s with main := main } =
          .ok (s.unlisted id conn main) := by
        simp only [runMain, removeConnectionInLoop, hconn]
        rfl
      rw [hrun]
      refine inv_unlisted hinv hconn hbatch ?_ ?_ hremoved
      · intro f hf
        rw [hwaiting']
        exact List.mem_cons_of_mem _ hf
      · intro i hi
        rw [hwaiting', List.count_cons_of_ne]
        exact fun h => hi (MainFunctor.removeConnectionInLoop.inj h).symm

/-- **A call** of a member in the thread of an I/O loop, which has moved on to `loop`. -/
theorem onConnection_eq (hconn : s.objects id = some conn) (loop : EventLoop IoFunctor) (call : Call)
    (f : TcpConnection → Except Stop TcpConnection) :
    ((s.setIo conn.loop { s.io conn.loop with loop := loop }).record call).onConnection conn.loop id f =
      match f (s.loaded conn) with
      | .error stop => .error (.stop stop)
      | .ok c => .ok (s.afterCall id conn loop (s.io conn.loop).handling call c) := by
  have hobject : ((s.setIo conn.loop { s.io conn.loop with loop := loop }).record call).objects id =
      some conn := hconn
  have hloaded : ((s.setIo conn.loop { s.io conn.loop with loop := loop }).record call).loaded conn =
      s.loaded conn := by
    have hself := setIo_self s conn.loop { s.io conn.loop with loop := loop }
    rw [loaded, loaded]
    exact congrArg (fun thread => ({ conn.tcp with epoll := thread.epoll } : TcpConnection)) hself
  rw [onConnection, hobject]
  simp only [if_true, hloaded]
  cases f (s.loaded conn) with
  | error stop => rfl
  | ok c =>
      simp only [store, afterCall, record, setIo, Function.update_idem, Function.update_self]

/-- A call that leaves the loop where it stands. -/
theorem onConnection_still (hconn : s.objects id = some conn) (call : Call)
    (f : TcpConnection → Except Stop TcpConnection) :
    (s.record call).onConnection conn.loop id f =
      match f (s.loaded conn) with
      | .error stop => .error (.stop stop)
      | .ok c => .ok (s.afterCall id conn (s.io conn.loop).loop (s.io conn.loop).handling call c) := by
  have hstill : s.setIo conn.loop { s.io conn.loop with loop := (s.io conn.loop).loop } = s := by
    rw [setIo, Function.update_eq_self]
  have hcall := onConnection_eq hconn (s.io conn.loop).loop call f
  rwa [hstill] at hcall

/-- A functor that an I/O loop calls is at the head of its queue, and its connection is there. -/
theorem ends_io (hinv : Inv s) {e : LoopEvent IoFunctor} {loop : EventLoop IoFunctor}
    (hpushed : e.pushed = []) (hidle : e.isOwn = true → (s.io l).handling = none)
    (hstep : loopStep (s.io l).loop e = .ok loop) :
    Ends (runIo l ((s.io l).loop.called e) (s.setIo l { s.io l with loop := loop })) := by
  have hbatch : loop.BatchOver := EventLoop.batchOver_step (hinv.ioBatch l) hstep
  have hwaiting : s.queue l = ((s.io l).loop.called e).toList ++ loop.waiting :=
    EventLoop.loopStep_waiting hstep hpushed (hinv.ioBatch l)
  have horder := hinv.order l
  rw [hwaiting, List.pairwise_append] at horder
  have hidle' : e.isOwn = true ∨ (loop.pc = (s.io l).loop.pc ∧ (s.io l).loop.called e = none) := by
    by_cases hown : e.isOwn = true
    · exact Or.inl hown
    · exact Or.inr (EventLoop.loopStep_other hstep (Bool.eq_false_of_not_eq_true hown))
  -- no functor of a connection is called
  have hmoved : (∀ f ∈ (s.io l).loop.called e, f = .handleTimeoutEvents) →
      Inv (s.setIo l { s.io l with loop := loop }) := by
    intro hcalled
    refine inv_setIo hinv rfl hbatch ?_ horder.2.1 ?_
    · intro f hf
      have hnone : ((s.io l).loop.called e).toList.count f = 0 := by
        refine List.count_eq_zero.mpr fun hmem => hf ?_
        rw [hcalled f (Option.mem_toList.mp hmem)]
        rfl
      rw [hwaiting, List.count_append, hnone, Nat.zero_add]
    · intro i h hl
      refine ⟨⟨h, hl⟩, ?_⟩
      rcases hidle' with hown | ⟨hpc, -⟩
      · rw [hidle hown] at hl
        cases hl
      · exact hpc
  cases hcalled : (s.io l).loop.called e with
  | none => exact hmoved fun f hf => by rw [hcalled] at hf; cases hf
  | some f =>
      have hnone : (s.io l).handling = none := by
        rcases hidle' with hown | ⟨-, hnone⟩
        · exact hidle hown
        · rw [hcalled] at hnone
          cases hnone
      rw [hcalled] at hwaiting
      have hhead : f ∈ s.queue l := by
        rw [hwaiting]
        exact List.mem_cons_self
      cases f with
      | handleTimeoutEvents =>
          exact hmoved fun f hf => by rw [hcalled] at hf; exact (Option.some.inj hf).symm
      | connectEstablished id =>
          obtain ⟨conn, hconn, rfl⟩ := hinv.owned l _ hhead id rfl
          rw [runIo, onConnection_eq hconn]
          cases hok : (s.loaded conn).connectEstablished with
          | error stop => exact ⟨nofun, nofun, nofun⟩
          | ok c => exact inv_established hinv hconn hbatch hwaiting hnone hok
      | connectDestroyed id =>
          obtain ⟨conn, hconn, rfl⟩ := hinv.owned l _ hhead id rfl
          rw [runIo, onConnection_eq hconn]
          cases hok : (s.loaded conn).connectDestroyed with
          | error stop => exact ⟨nofun, nofun, nofun⟩
          | ok c => exact inv_destroyed hinv hconn hbatch hwaiting hnone hok

/-- **newConnection** -/
theorem ends_newConnection (hinv : Inv s) {fd self : ℕ} (hunused : s.Unused fd self) :
    Ends (s.newConnection fd self) := by
  rw [newConnection]
  split
  · exact ⟨nofun, nofun, nofun⟩
  · exact inv_accepted hinv hunused

/-- **One iteration** of the loop in `~TcpServer`. -/
theorem ends_release (hinv : Inv s) {entry : List Char × ℕ} (hdestroying : s.destroying = true)
    (hentry : entry ∈ s.connections) : Ends (s.release entry) := by
  obtain ⟨hname, hexists⟩ := hinv.listed entry hentry
  obtain ⟨conn, hconn⟩ := Option.ne_none_iff_exists'.mp hexists
  have hsame : entry.1 = conn.name := by rw [hname, hinv.named _ _ hconn]
  have hrun : s.release entry = .ok (s.unlisted entry.2 conn s.main) := by
    simp only [release, hconn, hsame]
    rfl
  have hserving : (s.progress conn.loop entry.2).serving = false := by
    show (!s.destroying) = false
    rw [hdestroying]
    rfl
  have hlisted : (s.progress conn.loop entry.2).listed = true :=
    decide_eq_true (List.mem_map.mpr ⟨entry, hentry, rfl⟩)
  rw [hrun]
  exact inv_unlisted hinv hconn hinv.mainBatch (fun _ h => h) (fun _ _ => rfl)
    ((hinv.lawful _ _ hconn).release hserving hlisted)

theorem setIo_afterCall (s : TcpServer n) (id : ℕ) (conn : Connection n) (loop : EventLoop IoFunctor)
    (handling handling' : Option (ℕ × Handler)) (call : Call) (c : TcpConnection) :
    (s.afterCall id conn loop handling call c).setIo conn.loop
      { (s.afterCall id conn loop handling call c).io conn.loop with handling := handling' } =
        s.afterCall id conn loop handling' call c := by
  rw [afterCall_io]
  simp only [setIo, afterCall, Function.update_idem]

/-- The thread of an I/O loop stands in a handler; where that leads, `thread` tells. -/
theorem inv_handling (hinv : Inv s) {handling : Option (ℕ × Handler)} {parsing : Bool}
    (hhandling : ∀ i h, handling = some (i, h) → ∃ h', (s.io l).handling = some (i, h')) :
    Inv (s.setIo l { s.io l with handling := handling, parsing := parsing }) :=
  inv_setIo hinv rfl (hinv.ioBatch l) (fun _ _ => rfl) (hinv.order l)
    fun i h hl => ⟨hhandling i h hl, rfl⟩

/-- **The next handler** of the event that a thread handles. -/
theorem ends_handleNext (hinv : Inv s) {rs : ReadScript} {ws : WriteScript} {now : List UInt8}
    {h : Handler} (hhandling : (s.io l).handling = some (id, h)) :
    Ends (s.handleNext l rs ws now id h) := by
  obtain ⟨-, ⟨conn, hconn, rfl, hserves⟩, hdestroyed⟩ := hinv.handling l id h hhandling
  have hestablished := (hinv.lawful id conn hconn).stage.of_serves hserves hdestroyed
  have hcall := onConnection_still hconn (.handler id) fun c => h.call rs (c.writes ws) now c
  rw [handleNext]
  simp only [hconn, hcall]
  split
  · cases hok : h.call rs ((s.loaded conn).writes ws) now (s.loaded conn) with
    | error stop =>
        cases stop with
        | parserLoop =>
            exact inv_handling (inv_record hinv hconn hestablished) fun i h' hl => ⟨h', hl⟩
        | epollUpdate | handleClose => exact ⟨nofun, nofun, nofun⟩
    | ok c =>
        simp only [setIo_afterCall]
        exact inv_handler hinv hconn hhandling h.next (call_effect h hok)
  · refine inv_handling hinv fun i h' hl => ?_
    obtain ⟨_, -, heq⟩ := Option.map_eq_some_iff.mp hl
    cases heq
    exact ⟨h, hhandling⟩

/-- **The timer descriptor** of a loop queues `handleTimeoutEvents`. -/
theorem ends_timerRead (hinv : Inv s) {loop : EventLoop IoFunctor} (hidle : (s.io l).handling = none)
    (hstep : loopStep (s.io l).loop (.queueInLoopOwn .handleTimeoutEvents) = .ok loop) :
    Inv (s.setIo l { s.io l with loop := loop }) := by
  have hbatch : loop.BatchOver := EventLoop.batchOver_step (hinv.ioBatch l) hstep
  have hwaiting : loop.waiting = s.queue l ++ [.handleTimeoutEvents] := by
    rw [loopStep] at hstep
    split at hstep
    · cases hstep
      exact (List.append_assoc _ _ _).symm
    · cases hstep
  refine inv_setIo hinv rfl hbatch ?_ ?_ ?_
  · intro f hf
    have hnone : [IoFunctor.handleTimeoutEvents].count f = 0 := by
      refine List.count_eq_zero.mpr fun hmem => hf ?_
      rw [List.mem_singleton.mp hmem]
      rfl
    rw [hwaiting, List.count_append, hnone, Nat.add_zero]
  · rw [hwaiting, List.pairwise_append]
    refine ⟨hinv.order l, List.pairwise_singleton _ _, fun f _ g hg i _ heq => ?_⟩
    rw [List.mem_singleton.mp hg] at heq
    cases heq
  · intro i h hl
    rw [show (s.io l).handling = some (i, h) from hl] at hidle
    cases hidle

/-- **A timer** of a connection expires. -/
theorem ends_expire (hinv : Inv s) (hconn : s.objects id = some conn) {timers : TcpConnection → ℕ}
    (hrunning : (s.io conn.loop).loop.running = some .handleTimeoutEvents) :
    Ends ((s.record (.handler id)).onConnection conn.loop id fun c =>
      TcpConnection.closeLongConnection { c with timers := timers c }) := by
  have hpc : (s.io conn.loop).loop.pc = .functor := by
    rw [EventLoop.running] at hrunning
    split at hrunning
    · assumption
    · cases hrunning
  rw [onConnection_still hconn]
  cases hok : TcpConnection.closeLongConnection
      { s.loaded conn with timers := timers (s.loaded conn) } with
  | error stop => exact ⟨nofun, nofun, nofun⟩
  | ok c => exact inv_expired hinv hconn hpc hok

/-- **The destructor** of a connection finds it disconnected. -/
theorem ends_destruct (hinv : Inv s) (hconn : s.objects id = some conn) (h : ¬ s.Referenced id) :
    Ends (s.destruct id conn) := by
  rw [destruct, if_neg (not_not.mpr (hinv.unreferenced_state hconn h))]
  exact inv_free hinv hconn h

/-- **Every step** ends in the invariant, or is not taken. -/
theorem ends_step (hinv : Inv s) (e : ServerEvent n) : Ends (serverStep s e) := by
  cases e with
  | main e =>
      rw [serverStep]
      split
      · rename_i hmay
        cases hstep : loopStep s.main e with
        | error _ => exact ends_notThere
        | ok main => exact ends_main hinv (List.isEmpty_iff.mp hmay.1) hmay.2 hstep
      · exact ends_notThere
  | accept fd self =>
      rw [serverStep]
      split
      · rename_i hmay
        split
        · exact hinv
        · exact ends_newConnection hinv hmay.2.2.2
      · exact ends_notThere
  | destroy =>
      rw [serverStep]
      split
      · exact inv_main hinv hinv.mainBatch rfl (Or.inr rfl)
      · exact ends_notThere
  | release entry =>
      rw [serverStep]
      split
      · rename_i hmay
        exact ends_release hinv hmay.1 hmay.2
      · exact ends_notThere
  | io l e =>
      rw [serverStep]
      split
      · rename_i hmay
        cases hstep : loopStep (s.io l).loop e with
        | error _ => exact ends_notThere
        | ok loop => exact ends_io hinv (List.isEmpty_iff.mp hmay.1) hmay.2.2 hstep
      · exact ends_notThere
  | poll l id revents =>
      rw [serverStep]
      cases hconn : s.objects id with
      | none => exact ends_notThere
      | some conn =>
          simp only
          split
          · rename_i hmay
            obtain ⟨hpc, -, -, rfl, hreports⟩ := hmay
            exact inv_polled hinv hconn hpc hreports
          · exact ends_notThere
  | handler l rs ws now =>
      rw [serverStep]
      cases hhandling : (s.io l).handling with
      | none => exact ends_notThere
      | some next =>
          obtain ⟨id, h⟩ := next
          simp only
          split
          · exact ends_handleNext hinv hhandling
          · exact ends_notThere
  | timerRead l =>
      rw [serverStep]
      split
      · rename_i hmay
        cases hstep : loopStep (s.io l).loop (.queueInLoopOwn .handleTimeoutEvents) with
        | error _ => exact ends_notThere
        | ok loop => exact ends_timerRead hinv hmay.2 hstep
      · exact ends_notThere
  | expire l id =>
      rw [serverStep]
      cases hconn : s.objects id with
      | none => exact ends_notThere
      | some conn =>
          simp only
          split
          · rename_i hmay
            obtain ⟨hrunning, rfl, -⟩ := hmay
            exact ends_expire hinv hconn hrunning
          · exact ends_notThere
  | destruct id =>
      rw [serverStep]
      cases hconn : s.objects id with
      | none => exact ends_notThere
      | some conn =>
          simp only
          split
          · exact ends_notThere
          · exact ends_destruct hinv hconn ‹_›

theorem inv_step {e : ServerEvent n} (hinv : Inv s) (h : serverStep s e = .ok s') : Inv s' := by
  have hends := ends_step hinv e
  rwa [h] at hends

/-! ### Whole runs -/

/-- The calls of members of the connections so far, and what the epolls hold for their channels.  A
connection is destroyed when no `shared_ptr` holds it, and a channel whose index is `kNew` is one that
`updateChannel` would put into `m_channels`. -/
structure Lifecycle (s : TcpServer n) : Prop where
  established : ∀ id, s.calls.count (.connectEstablished id) ≤ 1
  handled : HandledAfter s.calls
  destroyed : ∀ id, s.calls.count (.connectDestroyed id) ≤ 1
  left : ∀ id, .connectDestroyed id ∈ s.calls → id < s.nextConnId ∧ ¬ s.Listed id
  entries : ∀ l fd self, (s.io l).epoll.Holds fd self → ∃ id conn, s.objects id = some conn ∧
    conn.loop = l ∧ conn.tcp.channel.fd = fd ∧ conn.tcp.channel.self = self ∧
      .connectDestroyed id ∉ s.calls
  removed : ∀ id conn, s.objects id = some conn → .connectDestroyed id ∈ s.calls →
    ∀ l fd, ¬ (s.io l).epoll.Holds fd conn.tcp.channel.self
  disconnected : ∀ id conn, s.objects id = some conn → ¬ s.Referenced id →
    conn.tcp.state = .kDisconnected
  fresh : ∀ id conn, s.objects id = some conn → conn.tcp.channel.index = kNew →
    (s.io conn.loop).epoll.channels conn.tcp.channel.fd = none

/-- The number of calls of `connectDestroyed` is one, if there is one. -/
theorem Inv.destroyed_eq (hinv : Inv s) (hconn : s.objects id = some conn)
    (h : .connectDestroyed id ∈ s.calls) : (s.progress conn.loop id).destroyed = 1 := by
  have hpos : 0 < (s.progress conn.loop id).destroyed := List.count_pos_iff.mpr h
  have hcounts := (hinv.lawful id conn hconn).stage.counts
  omega

/-- **Every entry** of an epoll is that of a connection on its loop which `connectDestroyed` has not been
called for. -/
theorem Inv.holds (hinv : Inv s) {fd self : ℕ} (h : (s.io l).epoll.Holds fd self) :
    ∃ id conn, s.objects id = some conn ∧ conn.loop = l ∧ conn.tcp.channel.fd = fd ∧
      conn.tcp.channel.self = self ∧ .connectDestroyed id ∉ s.calls := by
  obtain ⟨id, conn, hconn, rfl, rfl⟩ := hinv.entries l fd h.ne_none
  have hlawful := hinv.lawful id conn hconn
  refine ⟨id, conn, hconn, rfl, rfl, hlawful.stage.tracked.self_of_holds h, fun hcall => ?_⟩
  obtain ⟨hchannels, hkernel⟩ := hlawful.stage.entry (Or.inr (hinv.destroyed_eq hconn hcall))
  exact h.ne_none.elim (fun hne => hne hchannels) fun hne => hne hkernel

theorem Inv.lifecycle (hinv : Inv s) : Lifecycle s where
  established id := by
    cases hobject : s.objects id with
    | none => exact (hinv.gone id hobject).1
    | some conn => exact (hinv.lawful id conn hobject).stage.counts.1
  handled := hinv.handled
  destroyed id := by
    cases hobject : s.objects id with
    | none => exact (hinv.gone id hobject).2
    | some conn =>
        have hcounts := (hinv.lawful id conn hobject).stage.counts
        exact hcounts.2.trans hcounts.1
  left id hcall := by
    constructor
    · by_contra hid
      exact (hinv.unborn id (Nat.le_of_not_lt hid)).2 _ hcall rfl
    · intro hlisted
      obtain ⟨entry, hentry, rfl⟩ := List.mem_map.mp hlisted
      obtain ⟨conn, hconn⟩ := Option.ne_none_iff_exists'.mp (hinv.listed entry hentry).2
      have hone := (hinv.lawful _ conn hconn).destroyed
      rw [hinv.destroyed_eq hconn hcall, show (s.progress conn.loop entry.2).listed = true from
        decide_eq_true hlisted, Bool.toNat_true] at hone
      omega
  entries l fd self h := hinv.holds h
  removed id conn hconn hcall l fd h := by
    obtain ⟨i, ci, hci, -, -, hself, hnot⟩ := hinv.holds h
    have heq := hinv.distinct i id ci conn hci hconn (Or.inr hself)
    subst heq
    exact hnot hcall
  disconnected id conn hconn h := hinv.unreferenced_state hconn h
  fresh id conn hconn hnew := (hinv.lawful id conn hconn).stage.entry_of_new hnew

/-- **The lifecycle** of the connections holds in every state that any interleaving reaches; and no step
destroys a connection that is not disconnected, uses one that is gone, or is made in a foreign thread. -/
theorem connection_lifecycle (name : List Char) (es : List (ServerEvent n)) :
    (∀ s, ReachedBy serverStep (init name) es s → s.Lifecycle) ∧
      ∀ fault ∈ [ServerFault.destructor, .dangling, .abortNotInLoopThread],
        runFrom serverStep (init name : TcpServer n) es ≠ .error fault := by
  have hkept : ∀ (s : TcpServer n) e s', Inv s → True → serverStep s e = .ok s' → Inv s' :=
    fun _ _ _ hinv _ hstep => inv_step hinv hstep
  constructor
  · intro s hs
    exact (run_invariant hkept es (inv_init name) (along_true _ es) s hs).lifecycle
  · intro fault hfault
    refine run_no_failure hkept (fun s e hinv _ hstep => ?_) es (inv_init name) (along_true _ es)
    have hends := ends_step hinv e
    rw [hstep] at hends
    obtain ⟨hdestructor, hdangling, habort⟩ := hends
    simp only [List.mem_cons, List.not_mem_nil, or_false] at hfault
    tauto

/-- A connection that its peer closes, from `newConnection` to its destructor. -/
def closedByPeer : List (ServerEvent 0) :=
  [List.replicate 3 (.main .loop), [.accept 5 7], List.replicate 11 (.io 0 .loop),
    [.poll 0 1 EPOLLIN], List.replicate 4 (.handler 0 [.eof] [] []),
      List.replicate 6 (.main .loop), List.replicate 6 (.io 0 .loop), [.destruct 1]].flatten

/-- It is established, read from once and destroyed. -/
theorem connection_lifecycle_closedByPeer : ∃ s : TcpServer 0,
    runFrom serverStep (init []) closedByPeer = .ok s ∧ s.Lifecycle ∧ s.objects 1 = none ∧
      s.calls = [.connectEstablished 1, .handler 1, .connectDestroyed 1] :=
  ⟨_, rfl, (connection_lifecycle [] closedByPeer).1 _ ⟨closedByPeer, List.prefix_refl _, rfl⟩, rfl, rfl⟩

end TcpServer

end WServer
