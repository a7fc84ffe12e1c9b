import WServer.ConnectionHandlers
import WServer.EpollMirror
import WServer.TcpServer

/-!
# The lifecycle of one connection

What the members of a connection do to it and to the epoll of its loop, as far as other connections can
tell: the kinds of states it goes through, and for each member the states it leads to.  A member that
ends in a `LOG_FATAL` leads nowhere.

* `Effect` — what a handler does: nothing, a change of interest, or a close;
* `Connecting`, `Connected`, `Disconnected`, `Removed` — the states;
* `Elsewhere` — only the entries of its own descriptor change.
-/

namespace WServer

namespace TcpConnection

open Library.Runs

variable {c c' d : TcpConnection}

/-! ### Effects -/

/-- Two states of a connection that differ in its buffers, its parser and its timers only. -/
structure Alike (c c' : TcpConnection) : Prop where
  state : c'.state = c.state
  channel : c'.channel = c.channel
  epoll : c'.epoll = c.epoll
  timeout : c'.timeout = c.timeout
  writeShut : c'.writeShut = c.writeShut
  closeCallbacks : c'.closeCallbacks = c.closeCallbacks

/-- What a handler does to a connection: nothing, a change of interest while its write side is open, or a
close. -/
inductive Effect (c c' : TcpConnection) : Prop where
  | kept (h : Alike c c')
  | interest (interest : Events) (hne : interest ≠ 0) (hopen : c.writeShut = false)
      (hset : c.channel.setEvents interest c.epoll = .ok (c'.channel, c'.epoll))
      (h : Alike { c with channel := c'.channel, epoll := c'.epoll } c')
  | closed (hstate : c.state = .kConnected ∨ c.state = .kDisconnecting)
      (hset : c.channel.setEvents 0 c.epoll = .ok (c'.channel, c'.epoll))
      (hshut : c'.writeShut = true ∨ c.timeout = true)
      (hstate' : c'.state = .kDisconnected) (htimeout : c'.timeout = c.timeout)
      (hcalls : c'.closeCallbacks = c.closeCallbacks + 1)

theorem Alike.refl (c : TcpConnection) : Alike c c := ⟨rfl, rfl, rfl, rfl, rfl, rfl⟩

/-- A handler that starts from a like state has the same effect. -/
theorem Effect.of_alike (h : Alike c d) (he : Effect d c') : Effect c c' := by
  obtain ⟨hstate, hchannel, hepoll, htimeout, hshut, hcalls⟩ := h
  cases he with
  | kept h =>
      exact .kept ⟨h.state.trans hstate, h.channel.trans hchannel, h.epoll.trans hepoll,
        h.timeout.trans htimeout, h.writeShut.trans hshut, h.closeCallbacks.trans hcalls⟩
  | interest interest hne hopen hset h =>
      rw [hchannel, hepoll] at hset
      refine .interest interest hne (hshut ▸ hopen) hset ?_
      exact ⟨h.state.trans hstate, rfl, rfl, h.timeout.trans htimeout, h.writeShut.trans hshut,
        h.closeCallbacks.trans hcalls⟩
  | closed hst hset hsh hstate' hto hca =>
      rw [hchannel, hepoll] at hset
      refine .closed (hstate ▸ hst) hset ?_ hstate' (hto.trans htimeout) (by rw [hca, hcalls])
      rwa [htimeout] at hsh

theorem handleClose_effect (h : c.handleClose = .ok c') : Effect c c' := by
  rcases handleClose_ok h with ⟨-, rfl⟩ | ⟨hstate, hwhy, ch, ep, hset, rfl⟩
  · exact .kept (Alike.refl _)
  · refine .closed hstate hset ?_ rfl rfl rfl
    rcases hwhy with halive | htimeout
    · left
      show (c.writeShut || !c.alive) = true
      rw [halive, Bool.not_false, Bool.or_true]
    · exact Or.inr htimeout

/-- A change of interest is an effect of the handler that makes it. -/
theorem onChannel_effect {events : Events} (h : c.onChannel (Channel.setEvents events) = .ok c')
    (hne : events ≠ 0) (hopen : c.writeShut = false) : Effect c c' := by
  obtain ⟨ch, ep, hset, rfl⟩ := onChannel_ok h
  exact .interest events hne hopen hset (Alike.refl _)

theorem written_alike (ws : WriteScript) (c : TcpConnection) : Alike c (c.written ws) :=
  ⟨rfl, rfl, rfl, rfl, rfl, rfl⟩

theorem written_reset_alike (ws : WriteScript) (c : TcpConnection) :
    Alike c { c.written ws with context := (c.written ws).context.reset } :=
  ⟨rfl, rfl, rfl, rfl, rfl, rfl⟩

theorem drained_alike (rs : ReadScript) (c : TcpConnection) : Alike c (c.drained rs) :=
  ⟨rfl, rfl, rfl, rfl, rfl, rfl⟩

/-- **handleWrite**: as long as the write side is open it may change the interest. -/
theorem handleWrite_effect {ws : WriteScript} (h : c.handleWrite (c.writes ws) = .ok c') :
    Effect c c' := by
  rw [handleWrite] at h
  have hclose : (c.written (c.writes ws)).handleClose = .ok c' → Effect c c' := fun h =>
    (handleClose_effect h).of_alike (written_alike _ c)
  by_cases hfails : (c.context.outputBuffer.writeToFd (c.writes ws)).1 < 0
  · rw [if_pos hfails] at h
    exact hclose h
  · have hopen : c.writeShut = false := by
      cases hshut : c.writeShut with
      | false => rfl
      | true =>
          refine absurd ?_ hfails
          rw [writes, if_pos hshut, Buffer.writeToFd_returned]
          exact Int.negSucc_lt_zero 0
    rw [if_neg hfails] at h
    split at h
    · exact hclose h
    split at h
    · exact hclose h
    split at h
    · exact (onChannel_effect h kWriteEvent_ne_zero hopen).of_alike (written_alike _ c)
    split at h
    · exact (onChannel_effect h kReadEvent_ne_zero hopen).of_alike (written_reset_alike _ c)
    · exact hclose h

theorem answered_alike (rs : ReadScript) (context : HttpContext) (c : TcpConnection) :
    Alike c (c.answered rs context) := by
  rw [answered]
  rcases startKeepAlive_cases { c.drained rs with context := context } with heq | ⟨-, heq⟩
  · rw [heq]
    exact ⟨rfl, rfl, rfl, rfl, rfl, rfl⟩
  · rw [heq]
    exact ⟨rfl, rfl, rfl, rfl, rfl, rfl⟩

/-- **handleRead** ends in a write or in a close. -/
theorem handleRead_effect {rs : ReadScript} {ws : WriteScript} {now : List UInt8}
    (h : c.handleRead rs (c.writes ws) now = .ok c') : Effect c c' := by
  have hclose : (c.drained rs).handleClose = .ok c' → Effect c c' := fun h =>
    (handleClose_effect h).of_alike (drained_alike rs c)
  rw [handleRead] at h
  split at h
  · cases hwork : (c.drained rs).context.work now with
    | none =>
        rw [hwork] at h
        cases h
    | some context =>
        rw [hwork] at h
        have halike := answered_alike rs context c
        have hwrite : (c.answered rs context).handleWrite ((c.answered rs context).writes ws) =
            .ok c' := by
          rwa [writes, halike.writeShut]
        exact (handleWrite_effect hwrite).of_alike halike
  · split at h
    · exact hclose h
    · exact hclose h

/-- **Every handler** has such an effect. -/
theorem call_effect {rs : ReadScript} {ws : WriteScript} {now : List UInt8} (handler : Handler)
    (h : handler.call rs (c.writes ws) now c = .ok c') : Effect c c' := by
  cases handler with
  | close => exact handleClose_effect h
  | error => exact handleClose_effect h
  | read => exact handleRead_effect h
  | write => exact handleWrite_effect h

/-! ### The entries of one descriptor -/

/-- The channel has kept its name and its descriptor, and nothing has changed under other descriptors. -/
structure Elsewhere (c c' : TcpConnection) : Prop where
  self : c'.channel.self = c.channel.self
  fd : c'.channel.fd = c.channel.fd
  same : SameElsewhere c.channel.fd c.epoll c'.epoll

theorem Elsewhere.refl (c : TcpConnection) : Elsewhere c c := ⟨rfl, rfl, fun _ _ => ⟨rfl, rfl⟩⟩

/-- What a change of interest leaves of a tracked channel. -/
theorem setEvents_tracked {ch ch' : Channel} {ep ep' : Epoll} {events : Events} (h : Tracked ch ep)
    (hset : ch.setEvents events ep = .ok (ch', ep')) :
    Tracked ch' ep' ∧ Updated ch events ch' ep' ∧ SameElsewhere ch.fd ep ep' := by
  obtain ⟨-, ch₁, ep₁, hset₁, hcalled⟩ := h.setEvents events
  obtain ⟨ch₂, ep₂, hset₂, hupd⟩ := setEvents_spec h.toMirrored events
  rw [hset] at hset₁ hset₂
  cases hset₁
  cases hset₂
  exact ⟨hcalled.tracked, hupd, hcalled.elsewhere⟩

/-- What the removal leaves of a tracked channel that the kernel does not watch. -/
theorem remove_tracked {ch ch' : Channel} {ep ep' : Epoll} (h : Tracked ch ep)
    (hi : ch.index ≠ kAdded) (hremove : ch.remove ep = .ok (ch', ep')) :
    Tracked ch' ep' ∧ ch'.self = ch.self ∧ ch'.fd = ch.fd ∧ SameElsewhere ch.fd ep ep' ∧
      ch'.index ≠ kAdded ∧ ep'.channels ch.fd = none := by
  obtain ⟨-, ch₁, ep₁, hremove₁, hcalled, hchannels, hkernel⟩ := h.remove hi
  rw [hremove] at hremove₁
  cases hremove₁
  refine ⟨hcalled.tracked, ?_, hcalled.fd, hcalled.elsewhere, fun hadd => ?_, hchannels⟩
  · rw [Channel.remove, Epoll.removeChannel] at hremove
    split at hremove
    · cases hremove
      rfl
    · cases hremove
      rfl
  · have hreg := hcalled.tracked.registered hadd
    rw [Registered, hcalled.fd, hkernel] at hreg
    cases hreg

/-! ### The states of a connection -/

/-- Before `connectEstablished`. -/
structure Connecting (c : TcpConnection) : Prop where
  state : c.state = .kConnecting
  tracked : Tracked c.channel c.epoll
  index : c.channel.index ≠ kAdded
  entry : c.epoll.channels c.channel.fd = none
  timeout : c.timeout = false
  callbacks : c.closeCallbacks = 0

/-- A new connection, whose descriptor is known to no epoll. -/
theorem connecting_init {self fd : ℕ} {ep : Epoll} (hchannels : ep.channels fd = none)
    (hkernel : ep.kernel fd = none) : Connecting (init self fd ep) := by
  have hindex : kNew ≠ kAdded := by decide
  refine ⟨rfl, ⟨⟨Or.inl rfl, ?_⟩, fun _ => rfl, Or.inl hchannels⟩, hindex, hchannels, rfl, rfl⟩
  show ep.kernel fd = if kNew = kAdded then _ else none
  rw [if_neg hindex, hkernel]

/-- Connected, watched by the kernel, and not yet reported. -/
structure Connected (c : TcpConnection) : Prop where
  state : c.state = .kConnected
  tracked : Tracked c.channel c.epoll
  index : c.channel.index = kAdded
  timeout : c.timeout = false
  callbacks : c.closeCallbacks = 0

/-- Closed by `handleClose`, which has reported it. -/
structure Disconnected (c : TcpConnection) : Prop where
  state : c.state = .kDisconnected
  tracked : Tracked c.channel c.epoll
  index : c.channel.index = kDeleted
  callbacks : c.closeCallbacks = 1

theorem Disconnected.not_added (h : Disconnected c) : c.channel.index ≠ kAdded := by
  rw [h.index]
  decide

/-- After `connectDestroyed`. -/
structure Removed (c : TcpConnection) : Prop where
  state : c.state = .kDisconnected
  tracked : Tracked c.channel c.epoll
  index : c.channel.index ≠ kAdded
  entry : c.epoll.channels c.channel.fd = none
  callbacks : c.closeCallbacks ≤ 1

/-- Its events may be being handled: it is connected, or closed by an earlier handler of the same event,
which has shut down the write side. -/
def Serves (c : TcpConnection) : Prop := Connected c ∨ (Disconnected c ∧ c.writeShut = true)

theorem Connected.disconnected (h : Connected c) {ch : Channel} {ep : Epoll}
    (hset : c.channel.setEvents 0 c.epoll = .ok (ch, ep)) {c' : TcpConnection}
    (hchannel : c'.channel = ch) (hepoll : c'.epoll = ep) (hstate : c'.state = .kDisconnected)
    (hcalls : c'.closeCallbacks = c.closeCallbacks + 1) : Disconnected c' ∧ Elsewhere c c' := by
  subst hchannel hepoll
  obtain ⟨htracked, hupd, hsame⟩ := setEvents_tracked h.tracked hset
  exact ⟨⟨hstate, htracked, by rw [hupd.index, if_pos ⟨h.index, rfl⟩], by rw [hcalls, h.callbacks]⟩,
    hupd.self, hupd.fd, hsame⟩

/-- **A handler** leaves a connection that serves serving. -/
theorem Serves.effect (h : Serves c) (he : Effect c c') :
    Serves c' ∧ Elsewhere c c' := by
  cases he with
  | kept halike =>
      obtain ⟨hstate, hchannel, hepoll, htimeout, hshut, hcalls⟩ := halike
      refine ⟨?_, by rw [hchannel], by rw [hchannel], by rw [hepoll]; exact fun _ _ => ⟨rfl, rfl⟩⟩
      rcases h with h | ⟨h, hs⟩
      · left
        exact ⟨hstate ▸ h.state, by rw [hchannel, hepoll]; exact h.tracked, hchannel ▸ h.index,
          htimeout ▸ h.timeout, hcalls ▸ h.callbacks⟩
      · right
        exact ⟨⟨hstate ▸ h.state, by rw [hchannel, hepoll]; exact h.tracked, hchannel ▸ h.index,
          hcalls ▸ h.callbacks⟩, hshut ▸ hs⟩
  | interest events hne hopen hset halike =>
      rcases h with h | ⟨h, hs⟩
      · obtain ⟨htracked, hupd, hsame⟩ := setEvents_tracked h.tracked hset
        refine ⟨Or.inl ?_, hupd.self, hupd.fd, hsame⟩
        exact ⟨halike.state.trans h.state, htracked, hupd.added hne, halike.timeout.trans h.timeout,
          halike.closeCallbacks.trans h.callbacks⟩
      · rw [hopen] at hs
        cases hs
  | closed hst hset hshut hstate htimeout hcalls =>
      rcases h with h | ⟨h, hs⟩
      · obtain ⟨hdis, helse⟩ := h.disconnected hset rfl rfl hstate hcalls
        refine ⟨Or.inr ⟨hdis, hshut.resolve_right ?_⟩, helse⟩
        rw [h.timeout]
        exact Bool.false_ne_true
      · rw [h.state] at hst
        rcases hst with hst | hst <;> cases hst

/-- **The timer** closes a connection that is connected, and ends in a `LOG_FATAL` for any other one. -/
theorem closeLongConnection_ok (h : Connecting c ∨ Connected c ∨ c.state = .kDisconnected)
    (hok : c.closeLongConnection = .ok c') :
    Connected c ∧ Disconnected c' ∧ Elsewhere c c' := by
  rcases handleClose_ok hok with ⟨hlong, -⟩ | ⟨hstate, -, ch, ep, hset, rfl⟩
  · cases hlong
  · rcases h with h | h | h
    · rw [h.state] at hstate
      rcases hstate with hstate | hstate <;> cases hstate
    · exact ⟨h, h.disconnected hset rfl rfl rfl rfl⟩
    · rw [h] at hstate
      rcases hstate with hstate | hstate <;> cases hstate

/-- **connectEstablished** -/
theorem Connecting.established (h : Connecting c) (hok : c.connectEstablished = .ok c') :
    Connected c' ∧ Elsewhere c c' := by
  obtain ⟨ch, ep, hset, rfl⟩ := onChannel_ok hok
  obtain ⟨htracked, hupd, hsame⟩ := setEvents_tracked h.tracked hset
  exact ⟨⟨rfl, htracked, hupd.added kReadEvent_ne_zero, h.timeout, h.callbacks⟩,
    hupd.self, hupd.fd, hsame⟩

/-- **connectDestroyed** -/
theorem connectDestroyed_ok (h : Connected c ∨ Disconnected c) (hok : c.connectDestroyed = .ok c') :
    Removed c' ∧ Elsewhere c c' ∧ c'.closeCallbacks = c.closeCallbacks := by
  rw [connectDestroyed] at hok
  obtain ⟨d, hd, hok⟩ := ok_of_bind hok
  obtain ⟨ch, ep, hremove, rfl⟩ := onChannel_ok hok
  -- the connection that the removal starts from
  have hdis : d.state = .kDisconnected ∧ Tracked d.channel d.epoll ∧ d.channel.index ≠ kAdded ∧
      Elsewhere c d ∧ d.closeCallbacks = c.closeCallbacks := by
    rcases h with h | h
    · rw [if_pos h.state] at hd
      obtain ⟨ch, ep, hset, rfl⟩ := onChannel_ok hd
      obtain ⟨htracked, hupd, hsame⟩ := setEvents_tracked h.tracked hset
      exact ⟨rfl, htracked, hupd.not_added h.index, ⟨hupd.self, hupd.fd, hsame⟩, rfl⟩
    · rw [if_neg (by rw [h.state]; decide)] at hd
      cases hd
      exact ⟨h.state, h.tracked, h.not_added, Elsewhere.refl c, rfl⟩
  obtain ⟨hstate, htracked, hindex, helse, hcalls⟩ := hdis
  obtain ⟨htracked', hself, hfd, hsame, hindex', hentry⟩ := remove_tracked htracked hindex hremove
  refine ⟨⟨hstate, htracked', hindex', ?_, ?_⟩, ⟨hself.trans helse.self, hfd.trans helse.fd, ?_⟩, hcalls⟩
  · show ep.channels ch.fd = none
    rw [hfd, hentry]
  · show d.closeCallbacks ≤ 1
    rw [hcalls]
    rcases h with h | h
    · rw [h.callbacks]
      exact Nat.zero_le 1
    · rw [h.callbacks]
  · intro g hg
    rw [helse.fd] at hsame
    exact ⟨(hsame g hg).1.trans (helse.same g hg).1, (hsame g hg).2.trans (helse.same g hg).2⟩

end TcpConnection

end WServer
