import WServer.EpollMirror
import WServer.TalkingConnection

/-!
# The write interest of a channel

`kReadEvent` and `kWriteEvent` share the bit EPOLLET.  `isWriting` asks for any bit of `kWriteEvent`, and
so answers yes on a channel that only reads; `disableReading` takes EPOLLET away from a channel that
writes; and `disableWriting` masks nothing out.

* `Faithful` — what is asked of a call, and of `isWriting` after it;
* `faithful_iff` — one call;
* `shutdown_iff` — `TcpConnection::shutdown`, which asks `isWriting` whether the socket may be half-closed;
* `write_interest_iff` — whole runs.
-/

namespace WServer

open Library.Runs

/-- One call. -/
def interestStep (s : Channel × Epoll) (call : InterestCall) : Except Stop (Channel × Epoll) :=
  call.1.apply s.1 s.2

namespace Channel

/-- What `isWriting` should tell. -/
def HasWriteInterest (ch : Channel) : Prop := ch.events.has EPOLLOUT

instance (ch : Channel) : Decidable ch.HasWriteInterest := inferInstanceAs (Decidable (Events.has _ _))

instance (ch : Channel) : Decidable ch.isWriting := inferInstanceAs (Decidable (Events.has _ _))

/-- `isWriting` tells it. -/
def TellsWriting (ch : Channel) : Prop := ch.isWriting ↔ ch.HasWriteInterest

/-- The events read. -/
def readInterest (ch : Channel) : Events := ch.events &&& (EPOLLIN ||| EPOLLPRI)

/-- The channel waits for room to write, edge-triggered. -/
def Writes (ch : Channel) : Prop := ch.events &&& kWriteEvent = kWriteEvent

/-- What is asked of a call: `isWriting` tells the truth after it; `disableWriting` ends the write interest
and keeps the read interest; `disableReading` keeps a write interest. -/
def Faithful (s : Channel × Epoll) (call : InterestCall) : Prop :=
  ∀ s', interestStep s call = .ok s' →
    s'.1.TellsWriting ∧
      (call.1 = .disableWriting →
        ¬ s'.1.HasWriteInterest ∧ s'.1.readInterest = s.1.readInterest) ∧
      (call.1 = .disableReading → s.1.Writes → s'.1.Writes)

/-- Reading is never enabled, and reading and writing are disabled on a channel without write interest
only. -/
def NoReading (s : Channel × Epoll) (call : InterestCall) : Prop :=
  call.1 ≠ .enableReading ∧
    (call.1 = .disableReading ∨ call.1 = .disableWriting → ¬ s.1.HasWriteInterest)

/-- No interest, or that of a channel that writes. -/
structure WritesOnly (s : Channel × Epoll) : Prop where
  mirrored : Mirrored s.1 s.2
  events : s.1.events = 0 ∨ s.1.events = kWriteEvent

variable {s s' : Channel × Epoll}

/-- **A call** that changes the interest succeeds. -/
theorem interestStep_spec (h : Mirrored s.1 s.2) (call : InterestCall) :
    ∃ events s', call.1.interest s.1 = some events ∧ interestStep s call = .ok s' ∧
      Mirrored s'.1 s'.2 ∧ s'.1.events = events := by
  obtain ⟨events, hevents, happly⟩ := (call.1.apply_cases s.1).resolve_right call.2
  obtain ⟨ch, ep, hset, hupd⟩ := setEvents_spec h events
  exact ⟨events, (ch, ep), hevents, (happly s.2).trans hset, hupd.mirrored, hupd.events⟩

/-- **One call** is faithful exactly if it meets the condition. -/
theorem faithful_iff (h : WritesOnly s) (call : InterestCall) : Faithful s call ↔ NoReading s call := by
  obtain ⟨events, s', hevents, hok, -, hev⟩ := interestStep_spec h.mirrored call
  have hiff : Faithful s call ↔ (s'.1.TellsWriting ∧
      (call.1 = .disableWriting → ¬ s'.1.HasWriteInterest ∧ s'.1.readInterest = s.1.readInterest) ∧
      (call.1 = .disableReading → s.1.Writes → s'.1.Writes)) := by
    refine ⟨fun hf => hf s' hok, fun hf t ht => ?_⟩
    rw [hok] at ht
    cases ht
    exact hf
  rw [hiff]
  obtain ⟨call, hcall⟩ := call
  simp only [TellsWriting, isWriting, HasWriteInterest, readInterest, Writes, NoReading, hev]
  cases call with
  | remove => exact absurd rfl hcall
  | enableReading | enableWriting | disableReading | disableWriting | disableAll =>
      cases hevents
      rcases h.events with h0 | hw
      · rw [h0]
        decide
      · rw [hw]
        decide

theorem writesOnly_step (s : Channel × Epoll) (call : InterestCall) (s' : Channel × Epoll)
    (h : WritesOnly s) (hno : NoReading s call) (hok : interestStep s call = .ok s') :
    WritesOnly s' := by
  obtain ⟨events, t, hevents, ht, hmirrored, hev⟩ := interestStep_spec h.mirrored call
  rw [hok] at ht
  cases ht
  refine ⟨hmirrored, ?_⟩
  rw [hev]
  obtain ⟨call, hcall⟩ := call
  simp only [NoReading, HasWriteInterest] at hno
  cases call with
  | remove => exact absurd rfl hcall
  | enableReading => exact absurd rfl hno.1
  | enableWriting =>
      cases hevents
      exact Or.inr rfl
  | disableAll =>
      cases hevents
      exact Or.inl rfl
  | disableReading | disableWriting =>
      cases hevents
      have hnone := hno.2 (by decide)
      rcases h.events with h0 | hw
      · rw [h0]
        decide
      · rw [hw] at hnone
        exact absurd hnone (by decide)

end Channel

/-! ### The half-close -/

namespace TcpConnection

/-- A socket that is to be half-closed is, unless the channel seems to write. -/
def shutdownInLoop (c : TcpConnection) : TcpConnection :=
  if ¬ c.channel.isWriting then { c with writeShut := true } else c

/-- `shutdown`, called in the thread of the loop. -/
def shutdown (c : TcpConnection) : TcpConnection :=
  if c.state = .kConnected then ({ c with state := .kDisconnecting } : TcpConnection).shutdownInLoop
  else c

end TcpConnection

/-- A connection, and the calls of `shutdownInLoop` that other threads have queued for it. -/
structure ClosingConnection where
  conn : TcpConnection
  queued : ℕ

/-- What happens to it: an event of the loop, a call of `shutdown` in the loop's thread or in another one,
or a queued call of `shutdownInLoop`. -/
inductive ClosingEvent where
  | conn (e : ConnEvent)
  | shutdown
  | queueShutdown
  | shutdownInLoop

open TcpConnection in
/-- One event.  A call that is not queued is passed over. -/
def closingStep (s : ClosingConnection) : ClosingEvent → Except Stop ClosingConnection
  | .conn e =>
      match connStep s.conn e with
      | .ok c => .ok { s with conn := c }
      | .error stop => .error stop
  | .shutdown => .ok { s with conn := s.conn.shutdown }
  | .queueShutdown =>
      if s.conn.state = .kConnected then
        .ok { conn := { s.conn with state := .kDisconnecting }, queued := s.queued + 1 }
      else .ok s
  | .shutdownInLoop =>
      if 0 < s.queued then .ok { conn := s.conn.shutdownInLoop, queued := s.queued - 1 } else .ok s

namespace TcpConnection

variable {c : TcpConnection} {s s' : ClosingConnection}

/-- What holds as long as a connection is connected. -/
structure Unclosed (s : ClosingConnection) : Prop where
  talks : Talks s.conn
  writeShut : s.conn.state = .kConnected → s.conn.writeShut = false
  queued : 0 < s.queued → s.conn.state ≠ .kConnected

/-- A connection that is not connected any more meets all of it. -/
theorem Unclosed.of_disconnected (h : s.conn.state ≠ .kConnected) : Unclosed s :=
  ⟨Talks.of_disconnected h, fun hs => absurd hs h, fun _ => h⟩

theorem shutdownInLoop_state (c : TcpConnection) : c.shutdownInLoop.state = c.state := by
  rw [shutdownInLoop]
  split <;> rfl

/-- After a shutdown a connection is not connected. -/
theorem shutdown_state (c : TcpConnection) : c.shutdown.state ≠ .kConnected := by
  rw [shutdown]
  split
  · rw [shutdownInLoop_state]
    exact show StateE.kDisconnecting ≠ .kConnected by decide
  · assumption

theorem unclosed_step (s : ClosingConnection) (e : ClosingEvent) (s' : ClosingConnection)
    (h : Unclosed s) (hok : closingStep s e = .ok s') : Unclosed s' := by
  cases e with
  | conn e =>
      rw [closingStep] at hok
      cases hstep : connStep s.conn e with
      | error stop =>
          rw [hstep] at hok
          cases hok
      | ok c =>
          rw [hstep] at hok
          cases hok
          refine ⟨talks_step e h.talks hstep, fun hs => ?_, fun hq hs => ?_⟩
          · rcases connStep_stays e hstep with ⟨hstate, hshut⟩ | hclosed
            · exact hshut.trans (h.writeShut (hstate.symm.trans hs))
            · exact absurd (hclosed.symm.trans hs) (by decide)
          · rcases connStep_stays e hstep with ⟨hstate, -⟩ | hclosed
            · exact h.queued hq (hstate.symm.trans hs)
            · exact absurd (hclosed.symm.trans hs) (by decide)
  | shutdown =>
      cases hok
      exact Unclosed.of_disconnected (shutdown_state s.conn)
  | queueShutdown =>
      rw [closingStep] at hok
      split at hok
      · cases hok
        exact Unclosed.of_disconnected (show StateE.kDisconnecting ≠ .kConnected by decide)
      · cases hok
        exact h
  | shutdownInLoop =>
      rw [closingStep] at hok
      split at hok
      · rename_i hq
        cases hok
        refine Unclosed.of_disconnected ?_
        show s.conn.shutdownInLoop.state ≠ .kConnected
        rw [shutdownInLoop_state]
        exact h.queued hq
      · cases hok
        exact h

/-- **A shutdown** half-closes the socket of a connected connection. -/
def ShutdownFaithful (c : TcpConnection) : Prop :=
  c.shutdown.writeShut = true ↔ ¬ c.channel.HasWriteInterest

/-- It does exactly if the channel has a write interest, for then it does nothing. -/
theorem shutdown_iff (h : Unclosed s) (hs : s.conn.state = .kConnected) :
    ShutdownFaithful s.conn ↔ s.conn.channel.HasWriteInterest := by
  have hwriting : s.conn.channel.isWriting := by
    rcases (h.talks hs).interest with hev | hev
    · rw [Channel.isWriting, hev]
      decide
    · rw [Channel.isWriting, hev]
      decide
  have hkept : s.conn.shutdown.writeShut = false := by
    rw [shutdown, if_pos hs, shutdownInLoop, if_neg (not_not_intro hwriting)]
    exact h.writeShut hs
  rw [ShutdownFaithful, hkept]
  simp only [Bool.false_eq_true, false_iff, not_not]

end TcpConnection

/-! ### Whole runs -/

/-- A new channel, whose descriptor the kernel does not watch. -/
theorem Channel.writesOnly_init (self fd : ℕ) {ep : Epoll} (h : ep.kernel fd = none) :
    WritesOnly (Channel.init self fd, ep) := by
  refine ⟨⟨Or.inl rfl, ?_⟩, Or.inl rfl⟩
  show ep.kernel fd = if kNew = kAdded then some (self, 0) else none
  rw [h, if_neg (show kNew ≠ kAdded by decide)]

/-- A connection just established. -/
theorem TcpConnection.unclosed_established {socket : TcpConnection.NewSocket} {c : TcpConnection}
    (h : socket.connection.connectEstablished = .ok c) : Unclosed ⟨c, 0⟩ := by
  obtain ⟨d, hd, hest⟩ := connectEstablished_spec socket
  rw [h] at hd
  cases hd
  refine ⟨fun _ => hest.talking, fun _ => ?_, fun hq => absurd hq (Nat.lt_irrefl 0)⟩
  obtain ⟨ch, ep, -, rfl⟩ := onChannel_ok h
  rfl

/-- **Write interest.**  For every sequence of calls on a new channel: each is faithful exactly if each meets
the condition.  And in every state that a new connection reaches while it is connected, a shutdown is
faithful exactly if the channel has a write interest. -/
theorem write_interest_iff (calls : List InterestCall) (events : List ClosingEvent) :
    (∀ (self fd : ℕ) (ep : Epoll), ep.kernel fd = none →
      (Along interestStep Channel.Faithful (Channel.init self fd, ep) calls ↔
        Along interestStep Channel.NoReading (Channel.init self fd, ep) calls)) ∧
    ∀ (socket : TcpConnection.NewSocket) (c : TcpConnection) (s : ClosingConnection),
      socket.connection.connectEstablished = .ok c → runFrom closingStep ⟨c, 0⟩ events = .ok s →
      s.conn.state = .kConnected →
        (TcpConnection.ShutdownFaithful s.conn ↔ s.conn.channel.HasWriteInterest) := by
  refine ⟨fun self fd ep hkernel => ?_, fun socket c s hc hrun hs => ?_⟩
  · exact along_congr (fun _ call h => Channel.faithful_iff h call) Channel.writesOnly_step calls
      (Channel.writesOnly_init self fd hkernel)
  · refine TcpConnection.shutdown_iff ?_ hs
    exact run_invariant (fun s e s' h _ => TcpConnection.unclosed_step s e s' h) events
      (TcpConnection.unclosed_established hc) (along_true _ events) s (reachedBy_end hrun)

/-- Writing is enabled, and everything disabled. -/
def writeCalls : List InterestCall := [⟨.enableWriting, by decide⟩, ⟨.disableAll, by decide⟩]

/-- Reading is enabled. -/
def readCalls : List InterestCall := [⟨.enableReading, by decide⟩]

theorem write_interest_iff_first :
    (Along interestStep Channel.Faithful (Channel.init 0 7, Epoll.init) writeCalls ↔
      Along interestStep Channel.NoReading (Channel.init 0 7, Epoll.init) writeCalls) ∧
    ∃ c, TcpConnection.NewSocket.first.connection.connectEstablished = .ok c ∧
      (TcpConnection.ShutdownFaithful c ↔ c.channel.HasWriteInterest) := by
  obtain ⟨c, hc, hest⟩ := TcpConnection.connectEstablished_spec TcpConnection.NewSocket.first
  exact ⟨(write_interest_iff writeCalls []).1 0 7 Epoll.init rfl, c, hc,
    (write_interest_iff writeCalls []).2 TcpConnection.NewSocket.first c ⟨c, 0⟩ hc rfl hest.state⟩

/-- A channel that only reads seems to write, and so the socket of a connection that waits for a request is
not half-closed. -/
theorem reading_seems_writing :
    ¬ Along interestStep Channel.Faithful (Channel.init 0 7, Epoll.init) readCalls ∧
      ∃ c, TcpConnection.NewSocket.first.connection.connectEstablished = .ok c ∧
        c.state = .kConnected ∧ ¬ TcpConnection.ShutdownFaithful c := by
  constructor
  · intro h
    have hno := (Channel.faithful_iff (Channel.writesOnly_init 0 7 rfl) _).mp h.1
    exact hno.1 rfl
  · obtain ⟨c, hc, hest⟩ := TcpConnection.connectEstablished_spec TcpConnection.NewSocket.first
    refine ⟨c, hc, hest.state, ?_⟩
    have hiff := TcpConnection.shutdown_iff (TcpConnection.unclosed_established hc) hest.state
    rw [hiff, Channel.HasWriteInterest, hest.interest]
    decide

end WServer
