import WServer.ServerLifecycle

/-!
# What a step of the server does

One lemma says for each event everything its step can do, guards included; what is proved about whole runs
of the server by cases on the step starts from it.
-/

namespace WServer

open TcpConnection

namespace TcpServer

variable {n : ℕ} {s s' : TcpServer n} {l : Fin (n + 1)} {id : ℕ} {conn : Connection n}

/-- The members of a connection that its loop calls as functors. -/
inductive CallsMember (id : ℕ) : IoFunctor → Call → (TcpConnection → Except Stop TcpConnection) → Prop where
  | established :
      CallsMember id (.connectEstablished id) (.connectEstablished id) TcpConnection.connectEstablished
  | destroyed : CallsMember id (.connectDestroyed id) (.connectDestroyed id) TcpConnection.connectDestroyed

/-- What becomes of the server in a step. -/
inductive Step (s : TcpServer n) : ServerEvent n → TcpServer n → Prop where
  | main {e : LoopEvent MainFunctor} {main : EventLoop MainFunctor} (hpushed : e.pushed = [])
      (hstep : loopStep s.main e = .ok main) (hcalled : s.main.called e = none) :
      Step s (.main e) { s with main := main }
  | removed {e : LoopEvent MainFunctor} {main : EventLoop MainFunctor} {id : ℕ} {conn : Connection n}
      (hpushed : e.pushed = []) (hstep : loopStep s.main e = .ok main)
      (hcalled : s.main.called e = some (.removeConnectionInLoop id)) (hconn : s.objects id = some conn) :
      Step s (.main e)
        ((({ s with main := main } : TcpServer n).erase conn.name).queueInLoop conn.loop (.connectDestroyed id))
  | refused {fd self : ℕ} (hfd : MAXFD < fd) : Step s (.accept fd self) s
  | accepted {fd self : ℕ} (hfd : fd ≤ MAXFD) (hunused : s.Unused fd self)
      (hserving : s.destroying = false) :
      Step s (.accept fd self)
        ((s.insert fd self).queueInLoop s.nextLoop (.connectEstablished s.nextConnId))
  | destroyed : Step s .destroy { s with destroying := true }
  | released {entry : List Char × ℕ} {conn : Connection n} (hentry : entry ∈ s.connections)
      (hconn : s.objects entry.2 = some conn) :
      Step s (.release entry)
        ((s.erase entry.1).queueInLoop conn.loop (.connectDestroyed entry.2))
  | io {l : Fin (n + 1)} {e : LoopEvent IoFunctor} {loop : EventLoop IoFunctor} (hpushed : e.pushed = [])
      (hstep : loopStep (s.io l).loop e = .ok loop)
      (hcalled : ∀ f, (s.io l).loop.called e = some f → f = .handleTimeoutEvents) :
      Step s (.io l e) (s.setIo l { s.io l with loop := loop })
  | called {e : LoopEvent IoFunctor} {loop : EventLoop IoFunctor} {id : ℕ} {conn : Connection n}
      {f : IoFunctor} {call : Call} {member : TcpConnection → Except Stop TcpConnection} {c : TcpConnection}
      (hpushed : e.pushed = []) (hstep : loopStep (s.io conn.loop).loop e = .ok loop)
      (hcalled : (s.io conn.loop).loop.called e = some f) (hmember : CallsMember id f call member)
      (hconn : s.objects id = some conn) (hok : member (s.loaded conn) = .ok c) :
      Step s (.io conn.loop e) (s.afterCall id conn loop (s.io conn.loop).handling call c)
  | polled {id : ℕ} {conn : Connection n} {revents : Events} (hconn : s.objects id = some conn)
      (hreports : (s.loaded conn).Reports revents) :
      Step s (.poll conn.loop id revents) (s.handleEvent id conn revents)
  | handled {rs : ReadScript} {ws : WriteScript} {now : List UInt8} {id : ℕ} {h : Handler}
      {conn : Connection n} {c : TcpConnection} (hhandling : (s.io conn.loop).handling = some (id, h))
      (hconn : s.objects id = some conn) (hcalled : h.Called conn.tcp.channel.revents)
      (hok : h.call rs ((s.loaded conn).writes ws) now (s.loaded conn) = .ok c) :
      Step s (.handler conn.loop rs ws now) (s.afterCall id conn (s.io conn.loop).loop
        (h.next.map fun h => (id, h)) (.handler id) c)
  | skipped {l : Fin (n + 1)} {rs : ReadScript} {ws : WriteScript} {now : List UInt8} {id : ℕ} {h : Handler}
      {conn : Connection n} (hhandling : (s.io l).handling = some (id, h))
      (hconn : s.objects id = some conn) (hcalled : ¬ h.Called conn.tcp.channel.revents) :
      Step s (.handler l rs ws now)
        (s.setIo l { s.io l with handling := h.next.map fun h => (id, h) })
  | stuck {rs : ReadScript} {ws : WriteScript} {now : List UInt8} {id : ℕ} {h : Handler}
      {conn : Connection n} (hhandling : (s.io conn.loop).handling = some (id, h))
      (hconn : s.objects id = some conn) (hcalled : h.Called conn.tcp.channel.revents)
      (hstop : h.call rs ((s.loaded conn).writes ws) now (s.loaded conn) = .error .parserLoop) :
      Step s (.handler conn.loop rs ws now)
        ((s.record (.handler id)).setIo conn.loop { s.io conn.loop with parsing := true })
  | timerRead {l : Fin (n + 1)} {loop : EventLoop IoFunctor}
      (hstep : loopStep (s.io l).loop (.queueInLoopOwn .handleTimeoutEvents) = .ok loop)
      (hpc : (s.io l).loop.pc = .handling) :
      Step s (.timerRead l) (s.setIo l { s.io l with loop := loop })
  | expired {id : ℕ} {conn : Connection n} {c : TcpConnection} (hconn : s.objects id = some conn)
      (htimers : 0 < conn.tcp.timers)
      (hok : closeLongConnection { s.loaded conn with timers := conn.tcp.timers - 1 } = .ok c) :
      Step s (.expire conn.loop id)
        (s.afterCall id conn (s.io conn.loop).loop (s.io conn.loop).handling (.handler id) c)
  | freed {id : ℕ} {conn : Connection n} (hconn : s.objects id = some conn)
      (hstate : conn.tcp.state = .kDisconnected) (hunreferenced : ¬ s.Referenced id) :
      Step s (.destruct id) (s.free id conn.tcp.channel.fd)

/-! ### The inversion -/

/-- A member called by a functor of the loop. -/
theorem runIo_member {e : LoopEvent IoFunctor} {loop : EventLoop IoFunctor} {f : IoFunctor} {call : Call}
    {member : TcpConnection → Except Stop TcpConnection} (hpushed : e.pushed = [])
    (hstep : loopStep (s.io l).loop e = .ok loop) (hcalled : (s.io l).loop.called e = some f)
    (hmember : CallsMember id f call member)
    (h : ((s.setIo l { s.io l with loop := loop }).record call).onConnection l id member = .ok s') :
    Step s (.io l e) s' := by
  cases hconn : s.objects id with
  | none =>
      have hnone : ((s.setIo l { s.io l with loop := loop }).record call).objects id = none := hconn
      rw [onConnection, hnone] at h
      cases h
  | some conn =>
      by_cases hl : conn.loop = l
      · subst hl
        rw [onConnection_eq hconn] at h
        cases hok : member (s.loaded conn) with
        | error stop =>
            rw [hok] at h
            cases h
        | ok c =>
            rw [hok] at h
            cases h
            exact .called hpushed hstep hcalled hmember hconn hok
      · have hsome : ((s.setIo l { s.io l with loop := loop }).record call).objects id = some conn := hconn
        rw [onConnection, hsome] at h
        simp only [if_neg hl, reduceCtorEq] at h

/-- A step of an I/O loop. -/
theorem step_io {e : LoopEvent IoFunctor} {loop : EventLoop IoFunctor} (hpushed : e.pushed = [])
    (hstep : loopStep (s.io l).loop e = .ok loop)
    (h : runIo l ((s.io l).loop.called e) (s.setIo l { s.io l with loop := loop }) = .ok s') :
    Step s (.io l e) s' := by
  cases hcalled : (s.io l).loop.called e with
  | none =>
      rw [hcalled] at h
      cases h
      exact .io hpushed hstep fun f hf => by rw [hcalled] at hf; cases hf
  | some f =>
      rw [hcalled] at h
      cases f with
      | handleTimeoutEvents =>
          cases h
          exact .io hpushed hstep fun f hf => by rw [hcalled] at hf; exact (Option.some.inj hf).symm
      | connectEstablished id => exact runIo_member hpushed hstep hcalled .established h
      | connectDestroyed id => exact runIo_member hpushed hstep hcalled .destroyed h

/-- A step of the main loop. -/
theorem step_main {e : LoopEvent MainFunctor} {main : EventLoop MainFunctor} (hpushed : e.pushed = [])
    (hstep : loopStep s.main e = .ok main)
    (h : runMain (s.main.called e) { s with main := main } = .ok s') : Step s (.main e) s' := by
  cases hcalled : s.main.called e with
  | none =>
      rw [hcalled] at h
      cases h
      exact .main hpushed hstep hcalled
  | some f =>
      obtain ⟨id⟩ := f
      rw [hcalled] at h
      cases hconn : s.objects id with
      | none =>
          simp only [runMain, removeConnectionInLoop, hconn, reduceCtorEq] at h
      | some conn =>
          simp only [runMain, removeConnectionInLoop, hconn] at h
          cases h
          exact .removed hpushed hstep hcalled hconn

/-- A handler, called or not. -/
theorem step_handleNext {rs : ReadScript} {ws : WriteScript} {now : List UInt8} {h : Handler}
    (hhandling : (s.io l).handling = some (id, h)) (hok : s.handleNext l rs ws now id h = .ok s') :
    Step s (.handler l rs ws now) s' := by
  cases hconn : s.objects id with
  | none => simp only [handleNext, hconn, reduceCtorEq] at hok
  | some conn =>
      by_cases hcalled : h.Called conn.tcp.channel.revents
      · by_cases hl : conn.loop = l
        · subst hl
          have hcall := onConnection_still hconn (.handler id)
            fun c => h.call rs (c.writes ws) now c
          simp only [handleNext, hconn, if_pos hcalled, hcall] at hok
          cases hc : h.call rs ((s.loaded conn).writes ws) now (s.loaded conn) with
          | ok c =>
              rw [hc] at hok
              simp only [setIo_afterCall] at hok
              cases hok
              exact .handled hhandling hconn hcalled hc
          | error stop =>
              rw [hc] at hok
              cases stop with
              | parserLoop =>
                  cases hok
                  exact .stuck hhandling hconn hcalled hc
              | epollUpdate | handleClose => cases hok
        · have hsome : (s.record (.handler id)).objects id = some conn := hconn
          simp only [handleNext, hconn, if_pos hcalled, onConnection, hsome, if_neg hl, reduceCtorEq] at hok
      · simp only [handleNext, hconn, if_neg hcalled] at hok
        cases hok
        exact .skipped hhandling hconn hcalled

/-- A new connection, refused or not. -/
theorem step_accept {fd self : ℕ} (hunused : s.Unused fd self) (hserving : s.destroying = false)
    (h : (if MAXFD < fd then .ok s else s.newConnection fd self) = .ok s') : Step s (.accept fd self) s' := by
  split at h
  · cases h
    exact .refused ‹_›
  · rename_i hfd
    rw [newConnection] at h
    split at h
    · cases h
    · cases h
      exact .accepted (not_lt.mp hfd) hunused hserving

/-- The end of an expired connection. -/
theorem step_expire {conn : Connection n} (hconn : s.objects id = some conn) (htimers : 0 < conn.tcp.timers)
    (h : (s.record (.handler id)).onConnection conn.loop id (fun c =>
      closeLongConnection { c with timers := c.timers - 1 }) = .ok s') : Step s (.expire conn.loop id) s' := by
  rw [onConnection_still hconn] at h
  cases hok : closeLongConnection { s.loaded conn with timers := (s.loaded conn).timers - 1 } with
  | error stop =>
      rw [hok] at h
      cases h
  | ok c =>
      rw [hok] at h
      cases h
      exact .expired hconn htimers hok

/-- **Every step** is one of these. -/
theorem serverStep_cases {e : ServerEvent n} (h : serverStep s e = .ok s') : Step s e s' := by
  cases e with
  | main e =>
      rw [serverStep] at h
      split at h
      · rename_i hmay
        cases hstep : loopStep s.main e with
        | error fault =>
            rw [hstep] at h
            cases h
        | ok main =>
            rw [hstep] at h
            exact step_main (List.isEmpty_iff.mp hmay.1) hstep h
      · cases h
  | accept fd self =>
      rw [serverStep] at h
      split at h
      · rename_i hmay
        exact step_accept hmay.2.2.2 hmay.2.2.1 h
      · cases h
  | destroy =>
      rw [serverStep] at h
      split at h
      · cases h
        exact .destroyed
      · cases h
  | release entry =>
      rw [serverStep] at h
      split at h
      · rename_i hmay
        rw [release] at h
        cases hconn : s.objects entry.2 with
        | none =>
            rw [hconn] at h
            cases h
        | some conn =>
            rw [hconn] at h
            cases h
            exact .released hmay.2 hconn
      · cases h
  | io l e =>
      rw [serverStep] at h
      split at h
      · rename_i hmay
        cases hstep : loopStep (s.io l).loop e with
        | error fault =>
            rw [hstep] at h
            cases h
        | ok loop =>
            rw [hstep] at h
            exact step_io (List.isEmpty_iff.mp hmay.1) hstep h
      · cases h
  | poll l id revents =>
      rw [serverStep] at h
      cases hconn : s.objects id with
      | none =>
          rw [hconn] at h
          cases h
      | some conn =>
          rw [hconn] at h
          simp only at h
          split at h
          · rename_i hmay
            obtain ⟨-, -, -, rfl, hreports⟩ := hmay
            cases h
            exact .polled hconn hreports
          · cases h
  | handler l rs ws now =>
      rw [serverStep] at h
      cases hhandling : (s.io l).handling with
      | none =>
          rw [hhandling] at h
          cases h
      | some next =>
          obtain ⟨id, next⟩ := next
          rw [hhandling] at h
          simp only at h
          split at h
          · exact step_handleNext hhandling h
          · cases h
  | timerRead l =>
      rw [serverStep] at h
      split at h
      · rename_i hmay
        cases hstep : loopStep (s.io l).loop (.queueInLoopOwn .handleTimeoutEvents) with
        | error fault =>
            rw [hstep] at h
            cases h
        | ok loop =>
            rw [hstep] at h
            cases h
            exact .timerRead hstep hmay.1
      · cases h
  | expire l id =>
      rw [serverStep] at h
      cases hconn : s.objects id with
      | none =>
          rw [hconn] at h
          cases h
      | some conn =>
          rw [hconn] at h
          simp only at h
          split at h
          · rename_i hmay
            obtain ⟨-, rfl, htimers⟩ := hmay
            exact step_expire hconn htimers h
          · cases h
  | destruct id =>
      rw [serverStep] at h
      cases hconn : s.objects id with
      | none =>
          rw [hconn] at h
          cases h
      | some conn =>
          rw [hconn] at h
          simp only at h
          split at h
          · cases h
          · rename_i hunreferenced
            rw [destruct] at h
            split at h
            · cases h
            · rename_i hstate
              cases h
              exact .freed hconn (not_not.mp hstate) hunreferenced

end TcpServer

end WServer
