import WServer.ConnectionHandlers
import WServer.Library.Runs

/-!
# A connection is closed once

`handleEvent` calls up to four handlers for one event, and each of them can end in `handleClose`; the
second effective call finds the connection disconnected and aborts the process.  It is enough that every
dispatch to a connection that is not kept alive calls one handler at most, and that no timer expires for
a connection the loop has destroyed.

* `Open`, `Closed` — the two kinds of states of such a run;
* `handleEvent_alive`, `handleEvent_single` — one dispatch;
* `closesOnce_step` — one event keeps the invariant, and does not abort in `handleClose`;
* `close_once` — whole runs.
-/

namespace WServer

namespace TcpConnection

open Library.Runs

/-! ### How a handler ends -/

/-- A handler ends in a connection with `P`, or the parser does not come to an end. -/
def Ends (P : TcpConnection → Prop) (r : Except Stop TcpConnection) : Prop :=
  (∃ c, r = .ok c ∧ P c) ∨ r = .error .parserLoop

variable {P Q : TcpConnection → Prop} {r : Except Stop TcpConnection}

theorem Ends.ok {c : TcpConnection} (h : P c) : Ends P (.ok c) := Or.inl ⟨c, rfl, h⟩

theorem Ends.mono (h : Ends P r) (hPQ : ∀ c, P c → Q c) : Ends Q r := by
  rcases h with ⟨c, hc, hP⟩ | hloop
  · exact Or.inl ⟨c, hc, hPQ c hP⟩
  · exact Or.inr hloop

/-- Handlers called one after the other. -/
theorem Ends.bind {f : TcpConnection → Except Stop TcpConnection} (h : Ends P r)
    (hf : ∀ c, P c → Ends Q (f c)) : Ends Q (r >>= f) := by
  rcases h with ⟨c, rfl, hP⟩ | rfl
  · exact hf c hP
  · exact Or.inr rfl

theorem Ends.ne_handleClose (h : Ends P r) : r ≠ .error .handleClose := by
  rcases h with ⟨c, rfl, _⟩ | rfl
  · exact nofun
  · exact nofun

theorem Ends.of_ok {c : TcpConnection} (h : Ends P r) (hr : r = .ok c) : P c := by
  rcases h with ⟨d, hd, hP⟩ | hloop
  · rw [hr] at hd
    cases hd
    exact hP
  · rw [hr] at hloop
    cases hloop

/-! ### The invariant -/

/-- An open connection: its timer has not expired, its close callback has not been called. -/
structure Open (c : TcpConnection) : Prop extends Watched c where
  timeout : c.timeout = false
  callbacks : c.closeCallbacks = 0
  timers : c.alive = false → c.timers = 0

/-- A connection that is closed, and that the kernel does not watch. -/
structure Closed (c : TcpConnection) : Prop where
  state : c.state = .kDisconnected
  mirrored : Mirrored c.channel c.epoll
  index : c.channel.index ≠ kAdded
  callbacks : c.closeCallbacks ≤ 1

variable {c c' : TcpConnection} {ws ws' : WriteScript} {rs : ReadScript} {now : List UInt8}
  {revents : Events}

theorem Open.written (h : Open c) : Open (c.written ws) :=
  ⟨h.toWatched.written, h.timeout, h.callbacks, h.timers⟩

theorem Open.drained (h : Open c) : Open (c.drained rs) :=
  ⟨h.toWatched.drained, h.timeout, h.callbacks, h.timers⟩

theorem Open.answered (h : Open c) (context : HttpContext) : Open (c.answered rs context) := by
  refine ⟨h.toWatched.answered context, ?_, ?_, ?_⟩
  · rw [answered_timeout]
    exact h.timeout
  · rw [answered_closeCallbacks]
    exact h.callbacks
  · exact startKeepAlive_timers h.timers

/-- A change of interest to a set of events keeps a connection open. -/
theorem Open.updated {ch : Channel} {ep : Epoll} {interest : Events} (h : Open c)
    (hne : interest ≠ 0) (hupd : Updated c.channel interest ch ep) :
    Open { c with channel := ch, epoll := ep } :=
  ⟨⟨h.state, hupd.mirrored, hupd.added hne⟩, h.timeout, h.callbacks, h.timers⟩

theorem Open.closed {ch : Channel} {ep : Epoll} (h : Watched c) (h0 : c.closeCallbacks = 0)
    (hupd : Updated c.channel 0 ch ep) : Closed (c.closed ch ep) :=
  ⟨rfl, hupd.mirrored, hupd.not_added h.index, show c.closeCallbacks + 1 ≤ 1 by omega⟩

/-- The events of the dispatch under way are `revents`. -/
def Dispatching (revents : Events) (c : TcpConnection) : Prop := c.channel.revents = revents

/-- What a handler leaves of an open connection. -/
def OpenOrClosed (revents : Events) (c : TcpConnection) : Prop :=
  Dispatching revents c ∧ (Open c ∨ Closed c)

/-- What a handler leaves of an open connection that is kept alive. -/
def OpenAlive (revents : Events) (c : TcpConnection) : Prop :=
  Dispatching revents c ∧ Open c ∧ c.alive = true

theorem OpenAlive.openOrClosed (h : OpenAlive revents c) : OpenOrClosed revents c :=
  ⟨h.1, Or.inl h.2.1⟩

/-! ### One handler -/

theorem handleClose_ends (h : Open c) (hr : Dispatching revents c) :
    Ends (OpenOrClosed revents) c.handleClose := by
  rcases handleClose_cases h.toWatched h.timeout with ⟨_, hok⟩ | ⟨_, ch, ep, hok, hupd⟩
  · exact hok ▸ .ok ⟨hr, Or.inl h⟩
  · exact hok ▸ .ok ⟨hupd.revents.trans hr, Or.inr (Open.closed h.toWatched h.callbacks hupd)⟩

theorem handleClose_alive (h : OpenAlive revents c) : Ends (OpenAlive revents) c.handleClose := by
  rw [handleClose_kept h.2.2 h.2.1.timeout]
  exact .ok h

theorem WriteOutcome.openOrClosed (h : Open c) (hr : Dispatching revents c)
    (hout : WriteOutcome ws c c') : OpenOrClosed revents c' := by
  cases hout with
  | partly ch ep _ _ _ hupd =>
      exact ⟨hupd.revents.trans hr, Or.inl (h.written.updated kWriteEvent_ne_zero hupd)⟩
  | wholly ch ep _ _ _ _ hupd =>
      have hopen : Open { c.written ws with channel := ch, epoll := ep } :=
        h.written.updated kReadEvent_ne_zero hupd
      exact ⟨hupd.revents.trans hr, Or.inl ⟨⟨hopen.state, hopen.mirrored, hopen.index⟩, hopen.timeout,
        hopen.callbacks, hopen.timers⟩⟩
  | kept _ _ => exact ⟨hr, Or.inl h.written⟩
  | closed ch ep _ _ hupd =>
      exact ⟨hupd.revents.trans hr, Or.inr (Open.closed h.toWatched.written h.callbacks hupd)⟩

theorem WriteOutcome.openAlive (h : OpenAlive revents c) (hout : WriteOutcome ws c c') :
    OpenAlive revents c' := by
  obtain ⟨hr, hopen, halive⟩ := h
  have hends := hout.openOrClosed hopen hr
  have hnot : c.state ≠ .kDisconnected := by
    rw [hopen.state]
    decide
  cases hout with
  | partly ch ep _ _ _ _ =>
      exact ⟨hends.1, hends.2.resolve_right fun hc => hnot hc.state, halive⟩
  | wholly ch ep _ _ _ _ _ =>
      exact ⟨hends.1, hends.2.resolve_right fun hc => hnot hc.state, halive⟩
  | kept _ _ => exact ⟨hr, hopen.written, halive⟩
  | closed ch ep _ hn _ =>
      rw [halive] at hn
      cases hn

theorem handleWrite_ends (h : Open c) (hr : Dispatching revents c) :
    Ends (OpenOrClosed revents) (c.handleWrite ws) := by
  obtain ⟨c', hok, hout⟩ := handleWrite_spec ws h.toWatched h.timeout
  exact hok ▸ .ok (hout.openOrClosed h hr)

theorem handleWrite_alive (h : OpenAlive revents c) :
    Ends (OpenAlive revents) (c.handleWrite ws) := by
  obtain ⟨c', hok, hout⟩ := handleWrite_spec ws h.2.1.toWatched h.2.1.timeout
  exact hok ▸ .ok (hout.openAlive h)

theorem Dispatching.answered {context : HttpContext} (hr : Dispatching revents c) :
    Dispatching revents (c.answered rs context) := by
  rw [Dispatching, answered_channel]
  exact hr

theorem handleRead_ends (h : Open c) (hr : Dispatching revents c) :
    Ends (OpenOrClosed revents) (c.handleRead rs ws now) := by
  have hspec := handleRead_spec rs ws now h.toWatched h.timeout
  generalize c.handleRead rs ws now = r at hspec
  cases hspec with
  | loops _ _ => exact Or.inr rfl
  | answers _ _ hout => exact .ok (hout.openOrClosed (h.answered _) hr.answered)
  | kept _ _ => exact .ok ⟨hr, Or.inl h.drained⟩
  | closed ch ep _ _ hupd =>
      exact .ok ⟨hupd.revents.trans hr, Or.inr (Open.closed h.toWatched.drained h.callbacks hupd)⟩

theorem handleRead_alive (h : OpenAlive revents c) :
    Ends (OpenAlive revents) (c.handleRead rs ws now) := by
  obtain ⟨hr, hopen, halive⟩ := h
  have hspec := handleRead_spec rs ws now hopen.toWatched hopen.timeout
  generalize c.handleRead rs ws now = r at hspec
  cases hspec with
  | loops _ _ => exact Or.inr rfl
  | @answers context _ _ _ hout =>
      refine .ok (hout.openAlive ⟨hr.answered, hopen.answered context, ?_⟩)
      rw [answered_alive]
      exact Bool.or_eq_true_iff.mpr (Or.inl halive)
  | kept _ _ => exact .ok ⟨hr, hopen.drained, halive⟩
  | closed ch ep _ hn _ =>
      rw [halive] at hn
      cases hn

/-! ### One dispatch -/

/-- The number of handlers `handleEvent` calls. -/
def handlersCalled (revents : Events) : ℕ :=
  (if revents.has EPOLLHUP ∧ ¬ revents.has EPOLLIN then 1 else 0)
    + (if revents.has EPOLLERR then 1 else 0)
    + (if revents.has (EPOLLIN ||| EPOLLPRI ||| EPOLLRDHUP) then 1 else 0)
    + (if revents.has EPOLLOUT then 1 else 0)

/-- While a connection is kept alive, no dispatch closes it. -/
theorem handleEvent_alive (h : OpenAlive revents c) :
    Ends (OpenAlive revents) (c.handleEvent rs ws ws' now) := by
  rw [handleEvent]
  refine Ends.bind (P := OpenAlive revents) ?_ fun c₁ h₁ => ?_
  · split
    · exact handleClose_alive h
    · exact .ok h
  refine Ends.bind (P := OpenAlive revents) ?_ fun c₂ h₂ => ?_
  · split
    · exact handleClose_alive h₁
    · exact .ok h₁
  refine Ends.bind (P := OpenAlive revents) ?_ fun c₃ h₃ => ?_
  · split
    · exact handleRead_alive h₂
    · exact .ok h₂
  split
  · exact handleWrite_alive h₃
  · exact .ok h₃

/-- A connection before a handler of a dispatch: open, or closed by an earlier one. -/
def ClosedIf (called : Prop) (revents : Events) (c : TcpConnection) : Prop :=
  Dispatching revents c ∧ (Open c ∨ (called ∧ Closed c))

/-- One of the conditional calls of `handleEvent`: it is not made after an earlier one. -/
theorem call_ends (called : Prop) (calls : Events → Prop) [DecidablePred calls]
    {handler : TcpConnection → Except Stop TcpConnection}
    (hhandler : ∀ c, Open c → Dispatching revents c → Ends (OpenOrClosed revents) (handler c))
    (hfirst : calls revents → ¬ called) (h : ClosedIf called revents c) :
    Ends (ClosedIf (called ∨ calls revents) revents)
      (if calls c.channel.revents then handler c else .ok c) := by
  obtain ⟨hr, hinv⟩ := h
  rw [show c.channel.revents = revents from hr]
  split
  · rename_i hcalls
    rcases hinv with hopen | ⟨hcalled, _⟩
    · refine (hhandler c hopen hr).mono fun c' hc' => ⟨hc'.1, ?_⟩
      exact hc'.2.imp_right fun hclosed => ⟨Or.inr hcalls, hclosed⟩
    · exact absurd hcalled (hfirst hcalls)
  · exact .ok ⟨hr, hinv.imp_right fun hclosed => ⟨Or.inl hclosed.1, hclosed.2⟩⟩

/-- A dispatch that calls one handler at most closes the connection once at most. -/
theorem handleEvent_single (h : Open c) (hr : Dispatching revents c)
    (hone : handlersCalled revents ≤ 1) :
    Ends (OpenOrClosed revents) (c.handleEvent rs ws ws' now) := by
  have hexcl : ∀ p q : Prop, [Decidable p] → [Decidable q] →
      (if p then 1 else 0) + (if q then 1 else 0) ≤ 1 → q → ¬ p := by
    intro p q _ _ hle hq hp
    rw [if_pos hp, if_pos hq] at hle
    omega
  rw [handlersCalled] at hone
  rw [handleEvent]
  refine Ends.bind (call_ends False (fun v => v.has EPOLLHUP ∧ ¬ v.has EPOLLIN)
    (fun _ ho hd => handleClose_ends ho hd) (fun _ => id) ⟨hr, Or.inl h⟩) fun c₁ h₁ => ?_
  refine Ends.bind (call_ends _ (fun v => v.has EPOLLERR)
    (fun _ ho hd => handleClose_ends ho hd) ?_ h₁) fun c₂ h₂ => ?_
  · rw [false_or]
    exact hexcl _ _ (by omega)
  refine Ends.bind (call_ends _ (fun v => v.has (EPOLLIN ||| EPOLLPRI ||| EPOLLRDHUP))
    (fun _ ho hd => handleRead_ends ho hd) ?_ h₂) fun c₃ h₃ => ?_
  · rw [false_or]
    exact fun hq hp => hp.elim (hexcl _ _ (by omega) hq) (hexcl _ _ (by omega) hq)
  refine (call_ends _ (fun v => v.has EPOLLOUT)
    (fun _ ho hd => handleWrite_ends ho hd) ?_ h₃).mono fun c' hc' => ⟨hc'.1, ?_⟩
  · rw [false_or]
    rintro hq ((hp | hp) | hp)
    · exact hexcl _ _ (by omega) hq hp
    · exact hexcl _ _ (by omega) hq hp
    · exact hexcl _ _ (by omega) hq hp
  · exact hc'.2.imp_right And.right

/-! ### One event -/

/-- `connectDestroyed` closes the connection if nothing else has. -/
theorem connectDestroyed_ends (h : Open c ∨ Closed c) : Ends Closed c.connectDestroyed := by
  rcases h with hopen | hclosed
  · obtain ⟨ch, ep, hok, hm, hi⟩ := connectDestroyed_spec hopen.mirrored (Or.inl hopen.toWatched)
    exact hok ▸ .ok ⟨rfl, hm, hi, show c.closeCallbacks ≤ 1 by rw [hopen.callbacks]; omega⟩
  · obtain ⟨ch, ep, hok, hm, hi⟩ := connectDestroyed_spec hclosed.mirrored
      (Or.inr ⟨hclosed.state, hclosed.index⟩)
    exact hok ▸ .ok ⟨rfl, hm, hi, hclosed.callbacks⟩

/-- The timer closes an open connection. -/
theorem closeLongConnection_ends (h : Open c) : Ends Closed c.closeLongConnection := by
  obtain ⟨ch, ep, hok, hupd⟩ := closeLongConnection_spec h.toWatched
  exact hok ▸ .ok (Open.closed (c := { c with timeout := true }) ⟨h.state, h.mirrored, h.index⟩
    h.callbacks hupd)

/-- **The condition on an event.**  A dispatch to a connection that is not kept alive calls one handler
at most, and no timer expires for a connection already disconnected. -/
def ClosesOnce (c : TcpConnection) : ConnEvent → Prop
  | .dispatch revents _ _ _ _ => c.Reports revents → c.alive = true ∨ handlersCalled revents ≤ 1
  | .expire => 0 < c.timers → c.state ≠ .kDisconnected
  | .destroyed => True

/-- **One event** under the condition. -/
theorem closesOnce_step (e : ConnEvent) (h : Open c ∨ Closed c) (hgood : ClosesOnce c e) :
    Ends (fun c' => Open c' ∨ Closed c') (connStep c e) := by
  cases e with
  | dispatch revents rs ws ws' now =>
      rw [connStep]
      split
      · rename_i hrep
        have hopen : Open c :=
          h.resolve_right fun hc => hc.mirrored.not_registered hc.index hrep.1
        have hopen' : Open { c with channel := c.channel.setRevents revents } :=
          ⟨⟨hopen.state, ⟨hopen.mirrored.index_cases, hopen.mirrored.kernel⟩, hopen.index⟩,
            hopen.timeout, hopen.callbacks, hopen.timers⟩
        rcases hgood hrep with halive | hone
        · exact (handleEvent_alive ⟨rfl, hopen', halive⟩).mono fun c' hc' => Or.inl hc'.2.1
        · exact (handleEvent_single hopen' rfl hone).mono fun c' hc' => hc'.2
      · exact .ok h
  | expire =>
      rw [connStep]
      split
      · rename_i htimer
        have hopen : Open c := h.resolve_right fun hc => hgood htimer hc.state
        refine (closeLongConnection_ends ?_).mono fun c' hc' => Or.inr hc'
        refine ⟨⟨hopen.state, hopen.mirrored, hopen.index⟩, hopen.timeout, hopen.callbacks, ?_⟩
        intro ha
        rw [hopen.timers ha] at htimer
        omega
      · exact .ok h
  | destroyed => exact (connectDestroyed_ends h).mono fun c' hc' => Or.inr hc'

theorem Established.open (h : Established c) : Open c :=
  ⟨h.toWatched, h.timeout, h.closeCallbacks, fun _ => h.timers⟩

/-! ### Whole runs -/

/-- **Closed once.**  In every run whose events meet the condition, `handleClose` does not abort the
process, and the close callback is called once at most. -/
theorem close_once (s : NewSocket) (c : TcpConnection) (events : List ConnEvent)
    (hc : s.connection.connectEstablished = .ok c) (h : Along connStep ClosesOnce c events) :
    runFrom connStep c events ≠ .error .handleClose ∧
      ∀ t, ReachedBy connStep c events t → t.closeCallbacks ≤ 1 := by
  have hinit : Open c ∨ Closed c := by
    obtain ⟨d, hd, hest⟩ := connectEstablished_spec s
    rw [hc] at hd
    cases hd
    exact Or.inl hest.open
  have hstep : ∀ (d : TcpConnection) e d', Open d ∨ Closed d → ClosesOnce d e →
      connStep d e = .ok d' → Open d' ∨ Closed d' :=
    fun _ e _ hd hgood hok => (closesOnce_step e hd hgood).of_ok hok
  refine ⟨run_no_failure hstep ?_ events hinit h, fun t ht => ?_⟩
  · exact fun _ e hd hgood => (closesOnce_step e hd hgood).ne_handleClose
  · rcases run_invariant hstep events hinit h t ht with hopen | hclosed
    · rw [hopen.callbacks]
      omega
    · exact hclosed.callbacks

/-- A hang-up, then the removal by the loop. -/
theorem close_once_hangup :
    ∃ c, NewSocket.first.connection.connectEstablished = .ok c ∧
      runFrom connStep c [.dispatch EPOLLHUP [] [] [] [], .destroyed] ≠ .error .handleClose ∧
      ∀ t, ReachedBy connStep c [.dispatch EPOLLHUP [] [] [] [], .destroyed] t →
        t.closeCallbacks ≤ 1 := by
  obtain ⟨c, hc, -⟩ := connectEstablished_spec NewSocket.first
  refine ⟨c, hc, close_once NewSocket.first c _ hc ⟨fun _ => Or.inr ?_, fun _ _ => ⟨trivial, ?_⟩⟩⟩
  · decide
  · exact fun _ _ => trivial

/-- A hang-up together with an error: the close handler and the error handler both close. -/
theorem closed_twice :
    ∃ c, NewSocket.first.connection.connectEstablished = .ok c ∧
      runFrom connStep c [.dispatch (EPOLLHUP ||| EPOLLERR) [] [] [] []] = .error .handleClose :=
  ⟨_, rfl, rfl⟩

end TcpConnection

end WServer
