import WServer.ServerStreams

/-!
# Connections do not disturb each other

The connections of a server share the threads and the epolls of its loops.  All the same a connection does
what it would do alone: but for its address, its descriptor and its registration, it is a function of the
actions on it, whatever else the server does.

* `solo` — what is a connection's own, and `soloStep` — an action on it;
* `Isolated` — a member that does alone what it does in its loop, with the rules for the members that are made
  of others;
* `server_solo` — in the server a connection runs as it does alone;
* `server_isolated` — so two connections with the same actions are alike, in any two servers.
-/

namespace WServer

open Library.Runs

namespace TcpConnection

variable {c c' d : TcpConnection} {f g : TcpConnection → Except Stop TcpConnection}

/-- A connection alone: without its address, its descriptor and its registration. -/
def solo (c : TcpConnection) : TcpConnection :=
  { c with
    channel := { c.channel with self := 0, fd := 0, index := kNew }
    epoll := Epoll.init }

/-- An action on a connection alone. -/
def soloStep (c : TcpConnection) (a : Action) : Except Stop TcpConnection := (a.run c).map solo

/-- The action, if it comes to an end. -/
def carriedOut (c : TcpConnection) (a : Action) : List Action :=
  match a.run c with
  | .ok _ => [a]
  | .error _ => []

/-! ### Members -/

/-- Where the member succeeds, it does so alone, with the same result. -/
def Isolated (f : TcpConnection → Except Stop TcpConnection) : Prop :=
  ∀ c c', f c = .ok c' → ∃ d, f c.solo = .ok d ∧ d.solo = c'.solo

theorem isolated_ok : Isolated .ok := by
  rintro c c' ⟨⟩
  exact ⟨c.solo, rfl, rfl⟩

theorem isolated_error (stop : Stop) : Isolated fun _ => .error stop := by
  intro c c' h
  cases h

/-- An assignment before the member. -/
theorem Isolated.before {k : TcpConnection → TcpConnection} (hf : Isolated f)
    (hk : ∀ c, k c.solo = (k c).solo) : Isolated fun c => f (k c) := by
  intro c c' h
  obtain ⟨d, hd, hsolo⟩ := hf (k c) c' h
  rw [← hk] at hd
  exact ⟨d, hd, hsolo⟩

/-- An assignment behind the member. -/
theorem Isolated.after {k : TcpConnection → TcpConnection} (hf : Isolated f)
    (hk : ∀ c, (k c).solo = k c.solo) : Isolated fun c => do return k (← f c) := by
  intro c c' h
  obtain ⟨c₁, hc₁, rfl⟩ : ∃ c₁, f c = .ok c₁ ∧ k c₁ = c' := by
    obtain ⟨c₁, hc₁, heq⟩ := ok_of_bind h
    exact ⟨c₁, hc₁, Except.ok.inj heq⟩
  obtain ⟨d, hd, hsolo⟩ := hf c c₁ hc₁
  refine ⟨k d, ?_, by rw [hk, hk, hsolo]⟩
  show (f c.solo >>= fun c => .ok (k c)) = .ok (k d)
  rw [hd]
  rfl

/-- A member that always succeeds, and leaves alone what is the connection's own. -/
theorem Isolated.bind (hf : Isolated f) (hg : ∀ c, ∃ d, g c = .ok d ∧ d.solo = c.solo) :
    Isolated fun c => f c >>= g := by
  intro c c' h
  obtain ⟨c₁, hc₁, hg₁⟩ := ok_of_bind h
  obtain ⟨d₁, hd₁, hsolo₁⟩ := hf c c₁ hc₁
  obtain ⟨c₂, hc₂, hsolo₂⟩ := hg c₁
  obtain ⟨d₂, hd₂, hsolo₃⟩ := hg d₁
  rw [hg₁] at hc₂
  cases hc₂
  refine ⟨d₂, ?_, by rw [hsolo₃, hsolo₁, hsolo₂]⟩
  show (f c.solo >>= g) = .ok d₂
  rw [hd₁]
  exact hd₂

/-- A test of what is the connection's own. -/
theorem Isolated.ite {p : TcpConnection → Prop} [DecidablePred p] (hp : ∀ c, p c.solo ↔ p c)
    (hf : Isolated f) (hg : Isolated g) : Isolated fun c => if p c then f c else g c := by
  intro c c' h
  by_cases hc : p c
  · simp only [if_pos hc] at h
    simp only [if_pos ((hp c).mpr hc)]
    exact hf c c' h
  · simp only [if_neg hc] at h
    simp only [if_neg fun hsolo => hc ((hp c).mp hsolo)]
    exact hg c c' h

/-- An argument that is read off the connection. -/
theorem Isolated.argument {α : Type*} {m : α → TcpConnection → Except Stop TcpConnection}
    {r : TcpConnection → α} (hm : ∀ x, Isolated (m x)) (hr : ∀ c, r c.solo = r c) :
    Isolated fun c => m (r c) c := by
  intro c c' h
  obtain ⟨d, hd, hsolo⟩ := hm (r c) c c' h
  rw [← hr] at hd
  exact ⟨d, hd, hsolo⟩

/-! ### The channel -/

/-- What a change of interest does to the channel. -/
theorem setEvents_channel {events : Events} {ch ch' : Channel} {ep ep' : Epoll}
    (h : ch.setEvents events ep = .ok (ch', ep')) : ∃ index, ch' = { ch with events := events, index := index } := by
  rw [Channel.setEvents, Epoll.updateChannel] at h
  split at h
  · obtain ⟨_, -, hpure⟩ := ok_of_bind h
    cases hpure
    exact ⟨kAdded, rfl⟩
  · split at h
    · split at h
      · obtain ⟨_, -, hpure⟩ := ok_of_bind h
        cases hpure
        exact ⟨kDeleted, rfl⟩
      · obtain ⟨_, -, hpure⟩ := ok_of_bind h
        cases hpure
        exact ⟨ch.index, rfl⟩
    · cases h
      exact ⟨ch.index, rfl⟩

/-- Alone, a change of interest finds a descriptor that nobody watches. -/
theorem isolated_setEvents (events : Events) : Isolated (onChannel (Channel.setEvents events)) := by
  intro c c' h
  obtain ⟨ch, ep, hset, rfl⟩ := onChannel_ok h
  obtain ⟨index, rfl⟩ := setEvents_channel hset
  have hmirrored : Mirrored c.solo.channel c.solo.epoll := by
    refine ⟨Or.inl rfl, ?_⟩
    rw [if_neg (show c.solo.channel.index ≠ kAdded from (show kNew ≠ kAdded by decide))]
    rfl
  obtain ⟨ch, ep', hok, hupdated⟩ := onChannel_setEvents hmirrored events
  refine ⟨_, hok, ?_⟩
  rw [solo, solo]
  simp only [hupdated.events, hupdated.revents]
  rfl

/-- `Channel::remove` touches the registration only. -/
theorem remove_solo (c : TcpConnection) : ∃ d, c.onChannel Channel.remove = .ok d ∧ d.solo = c.solo := by
  rw [onChannel, Channel.remove, Epoll.removeChannel]
  split
  · exact ⟨_, rfl, rfl⟩
  · exact ⟨_, rfl, rfl⟩

/-! ### The handlers -/

theorem isolated_connectEstablished : Isolated connectEstablished :=
  (isolated_setEvents _).before (k := fun c => { c with state := .kConnected }) fun _ => rfl

theorem isolated_connectDestroyed : Isolated connectDestroyed := by
  refine Isolated.bind (Isolated.ite (p := fun c => c.state = .kConnected) (fun _ => Iff.rfl) ?_ isolated_ok)
    remove_solo
  exact (isolated_setEvents _).before (k := fun c => { c with state := .kDisconnected }) fun _ => rfl

/-- What `handleClose` does when its channel is unregistered. -/
def reported (c : TcpConnection) : TcpConnection :=
  let c := if c.alive = false then { c with writeShut := true } else c
  { c with closeCallbacks := c.closeCallbacks + 1 }

theorem reported_solo (c : TcpConnection) : c.reported.solo = c.solo.reported := by
  rw [reported, reported]
  by_cases halive : c.alive = false
  · rw [if_pos halive, if_pos (show c.solo.alive = false from halive)]
    rfl
  · rw [if_neg halive, if_neg (show ¬ c.solo.alive = false from halive)]
    rfl

theorem isolated_handleClose : Isolated handleClose := by
  refine Isolated.ite (p := fun c => c.alive = true ∧ c.timeout = false) (fun _ => Iff.rfl) isolated_ok ?_
  refine Isolated.ite (p := fun c => c.state ≠ .kConnected ∧ c.state ≠ .kDisconnecting) (fun _ => Iff.rfl)
    (isolated_error _) ?_
  exact ((isolated_setEvents Channel.kNoneEvent).before (k := fun c => { c with state := .kDisconnected })
    fun _ => rfl).after reported_solo

theorem isolated_handleWrite (ws : WriteScript) : Isolated (handleWrite ws) := by
  have hclose : Isolated fun c => (c.written ws).handleClose := isolated_handleClose.before fun _ => rfl
  refine Isolated.ite (p := fun c => (c.context.outputBuffer.writeToFd ws).1 < 0) (fun _ => Iff.rfl) hclose ?_
  refine Isolated.ite (p := fun c => (c.context.outputBuffer.writeToFd ws).1 = 0 ∧
    (c.written ws).context.outputBuffer.readableBytes = 0) (fun _ => Iff.rfl) hclose ?_
  refine Isolated.ite (p := fun c => (c.context.outputBuffer.writeToFd ws).1 = 0 ∧
    (c.written ws).context.outputBuffer.readableBytes > 0) (fun _ => Iff.rfl) hclose ?_
  refine Isolated.ite (p := fun c => (c.context.outputBuffer.writeToFd ws).1 > 0 ∧
    (c.written ws).context.outputBuffer.readableBytes > 0) (fun _ => Iff.rfl) ?_ ?_
  · exact (isolated_setEvents _).before fun _ => rfl
  · refine Isolated.ite (p := fun c => (c.context.outputBuffer.writeToFd ws).1 > 0 ∧
      (c.written ws).alive = true ∧ (c.written ws).timeout = false) (fun _ => Iff.rfl) ?_ hclose
    exact (isolated_setEvents _).before
      (k := fun c => { c.written ws with context := (c.written ws).context.reset }) fun _ => rfl

theorem startKeepAlive_solo (c : TcpConnection) : c.solo.startKeepAlive = c.startKeepAlive.solo := by
  rw [startKeepAlive, startKeepAlive]
  split <;> split
  · rfl
  · next h h' => exact absurd h h'
  · next h h' => exact absurd h' h
  · rfl

/-- What `handleRead` does with the context that the parser leaves. -/
def withContext (rs : ReadScript) (ws : WriteScript) (work : Option HttpContext) (c : TcpConnection) :
    Except Stop TcpConnection :=
  match work with
  | none => .error .parserLoop
  | some context => ({ c.drained rs with context := context } : TcpConnection).startKeepAlive.handleWrite ws

theorem isolated_withContext (rs : ReadScript) (ws : WriteScript) (work : Option HttpContext) :
    Isolated (withContext rs ws work) := by
  cases work with
  | none => exact isolated_error _
  | some context =>
      exact (isolated_handleWrite ws).before
        (k := fun c => ({ c.drained rs with context := context } : TcpConnection).startKeepAlive)
        fun c => startKeepAlive_solo ({ c.drained rs with context := context } : TcpConnection)

theorem isolated_handleRead (rs : ReadScript) (ws : WriteScript) (now : List UInt8) :
    Isolated (handleRead rs ws now) := by
  have hclose : Isolated fun c => (c.drained rs).handleClose := isolated_handleClose.before fun _ => rfl
  refine Isolated.ite (p := fun c => (c.context.inputBuffer.readFromFd rs).1 > 0) (fun _ => Iff.rfl) ?_ ?_
  · exact Isolated.argument (r := fun c => (c.drained rs).context.work now)
      (m := withContext rs ws) (isolated_withContext rs ws) fun _ => rfl
  · exact Isolated.ite (p := fun c => (c.context.inputBuffer.readFromFd rs).1 = 0) (fun _ => Iff.rfl) hclose hclose

/-- **Every action is isolated.** -/
theorem isolated_run (a : Action) : Isolated a.run := by
  cases a with
  | reported revents =>
      rintro c c' ⟨⟩
      exact ⟨_, rfl, rfl⟩
  | established => exact isolated_connectEstablished
  | destroyed => exact isolated_connectDestroyed
  | handler h rs ws now =>
      refine Isolated.argument (r := fun c => c.writes ws) (m := fun ws => h.call rs ws now) (fun ws => ?_)
        fun _ => rfl
      cases h with
      | close => exact isolated_handleClose
      | error => exact isolated_handleClose
      | read => exact isolated_handleRead rs ws now
      | write => exact isolated_handleWrite ws
  | expired =>
      exact isolated_handleClose.before (k := fun c => { c with timers := c.timers - 1, timeout := true })
        fun _ => rfl

/-- **An action alone.** -/
theorem soloStep_of_run {a : Action} (h : a.run c = .ok c') : soloStep c.solo a = .ok c'.solo := by
  obtain ⟨d, hd, hsolo⟩ := isolated_run a c c' h
  rw [soloStep, hd, ← hsolo]
  rfl

end TcpConnection

namespace TcpServer

open TcpConnection

variable {n m : ℕ} {s : TcpServer n} {t : TcpServer m} {i j : ℕ} {conn : Connection n} {conn' : Connection m}
  {name name' : List Char} {es : List (ServerEvent n)} {es' : List (ServerEvent m)}

/-- The actions on a connection in a run. -/
def actions (i : ℕ) (name : List Char) (es : List (ServerEvent n)) : List Action :=
  traceOf serverStep (toldBy carriedOut i) (init name) es

theorem keeps_solo : KeptByActions carriedOut fun as c =>
    runFrom soloStep (TcpConnection.init 0 0 Epoll.init) as = .ok c.solo where
  init _ _ _ := rfl
  epoll _ _ _ h := h
  step as c a c' h _ hok := by
    have hone : carriedOut c a = [a] := by rw [carriedOut, hok]
    rw [hone, runFrom_append _ h]
    exact runFrom_single (soloStep_of_run hok)
  stuck as c a h hstop := by
    have hnone : carriedOut c a = [] := by rw [carriedOut, hstop]
    rw [hnone, List.append_nil]
    exact h

/-- **In the server a connection runs as it does alone.** -/
theorem server_solo (hrun : runFrom serverStep (init name) es = .ok s) (hconn : s.objects i = some conn) :
    runFrom soloStep (TcpConnection.init 0 0 Epoll.init) (actions i name es) = .ok conn.tcp.solo :=
  told_object keeps_solo hrun hconn

/-- **Isolation.**  Two connections with the same actions, in any two servers and in any two interleavings,
are alike: what was sent, both buffers, the parser, the state and the timer do not depend on the other
connections, on the loops and on what else the threads have done. -/
theorem server_isolated (hrun : runFrom serverStep (init name) es = .ok s) (hconn : s.objects i = some conn)
    (hrun' : runFrom serverStep (init name') es' = .ok t) (hconn' : t.objects j = some conn')
    (hsame : actions i name es = actions j name' es') : conn.tcp.solo = conn'.tcp.solo := by
  have hsolo := server_solo hrun hconn
  rw [hsame, server_solo hrun' hconn'] at hsolo
  exact (Except.ok.inj hsolo).symm

/-! ### Two servers -/

deriving instance DecidableEq for ReadResult, WriteResult, Action

/-- A server with two loops, where the second connection gets the same byte as the one of `oneByte`. -/
def oneByteOfTwo : List (ServerEvent 1) :=
  [List.replicate 3 (.main .loop), [.accept 5 7, .accept 6 8], List.replicate 11 (.io (Fin.last 1) .loop),
    [.poll (Fin.last 1) 2 EPOLLIN], List.replicate 11 (.io (Fin.last 0).castSucc .loop),
    List.replicate 2 (.handler (Fin.last 1) [] [] []),
    [.handler (Fin.last 1) [oneByteRead] [.count 99] []]].flatten

theorem oneByteOfTwo_ends : endsWith 2 (fun c => !c.sent.isEmpty) oneByteOfTwo = true := by decide +kernel

theorem server_isolated_oneByte : ∃ (s : TcpServer 0) (t : TcpServer 1) (conn : Connection 0)
    (conn' : Connection 1), runFrom serverStep (init []) oneByte = .ok s ∧ s.objects 1 = some conn ∧
      runFrom serverStep (init []) oneByteOfTwo = .ok t ∧ t.objects 2 = some conn' ∧
      conn.tcp.solo = conn'.tcp.solo := by
  obtain ⟨s, conn, hrun, hconn, -⟩ := endsWith_spec oneByte_ends
  obtain ⟨t, conn', hrun', hconn', -⟩ := endsWith_spec oneByteOfTwo_ends
  exact ⟨s, t, conn, conn', hrun, hconn, hrun', hconn',
    server_isolated hrun hconn hrun' hconn' (by decide +kernel)⟩

end TcpServer

end WServer
