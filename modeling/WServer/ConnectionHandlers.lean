import WServer.WellFormedRequest
import WServer.TcpConnection
import WServer.Library.Runs

/-!
# What the handlers of a connection do

For each handler one lemma says everything it can do to a connection that is connected and watched by
the kernel (`Watched`); the results about runs follow from these, and do not look into the handlers.

* `handleClose_kept`, `handleClose_closes` — a long connection is left alone, any other one is closed;
* `handleClose_ok` — what a call that succeeds has done, in any state;
* `handleWrite_spec` — the four outcomes of a write (`WriteOutcome`);
* `handleRead_spec` — the four outcomes of a read (`ReadOutcome`);
* `closeLongConnection_spec`, `connectDestroyed_spec` — the two other ends of a connection;
* `connectEstablished_spec` — where runs start.
-/

namespace WServer

namespace TcpConnection

open Library.Runs

variable {c : TcpConnection} {ws : WriteScript} {rs : ReadScript} {now : List UInt8}

/-- Connected, and watched by the kernel. -/
structure Watched (c : TcpConnection) : Prop where
  state : c.state = .kConnected
  mirrored : Mirrored c.channel c.epoll
  index : c.channel.index = kAdded

/-- A change of interest touches the channel and the epoll only. -/
theorem onChannel_setEvents (h : Mirrored c.channel c.epoll) (interest : Events) :
    ∃ ch ep, c.onChannel (Channel.setEvents interest) = .ok { c with channel := ch, epoll := ep } ∧
      Updated c.channel interest ch ep := by
  obtain ⟨ch, ep, hset, hupd⟩ := setEvents_spec h interest
  refine ⟨ch, ep, ?_, hupd⟩
  rw [onChannel, hset]
  rfl

theorem onChannel_ok {f : Channel → Epoll → Except Stop (Channel × Epoll)}
    (h : c.onChannel f = .ok c') :
    ∃ ch ep, f c.channel c.epoll = .ok (ch, ep) ∧ c' = { c with channel := ch, epoll := ep } := by
  obtain ⟨⟨ch, ep⟩, hf, hc⟩ := ok_of_bind h
  cases hc
  exact ⟨ch, ep, hf, rfl⟩

/-! ### handleClose -/

/-- A connection that `handleClose` has closed, with the channel and the epoll it has left. -/
def closed (ch : Channel) (ep : Epoll) (c : TcpConnection) : TcpConnection :=
  { c with
    state := .kDisconnected
    channel := ch
    epoll := ep
    writeShut := c.writeShut || !c.alive
    closeCallbacks := c.closeCallbacks + 1 }

/-- **A long connection** is not closed before its timer. -/
theorem handleClose_kept (ha : c.alive = true) (ht : c.timeout = false) :
    c.handleClose = .ok c := if_pos ⟨ha, ht⟩

/-- **Any other connection** that is connected is closed, and the kernel stops to watch it. -/
theorem handleClose_closes (h : Watched c) (hshort : ¬ (c.alive = true ∧ c.timeout = false)) :
    ∃ ch ep, c.handleClose = .ok (c.closed ch ep) ∧ Updated c.channel 0 ch ep := by
  obtain ⟨ch, ep, hset, hupd⟩ := onChannel_setEvents
    (c := { c with state := .kDisconnected }) h.mirrored 0
  refine ⟨ch, ep, ?_, hupd⟩
  have hstate : ¬ (c.state ≠ .kConnected ∧ c.state ≠ .kDisconnecting) := fun hs => hs.1 h.state
  rw [handleClose, if_neg hshort, if_neg hstate]
  show (do
    let c' ← onChannel (Channel.setEvents 0) { c with state := .kDisconnected }
    _) = _
  rw [hset]
  cases ha : c.alive <;> simp [closed, ha, bind, Except.bind, pure, Except.pure]

/-- What a call of `handleClose` does before the timer: nothing, or it closes. -/
theorem handleClose_cases (h : Watched c) (ht : c.timeout = false) :
    (c.alive = true ∧ c.handleClose = .ok c) ∨
      (c.alive = false ∧ ∃ ch ep, c.handleClose = .ok (c.closed ch ep) ∧
        Updated c.channel 0 ch ep) := by
  cases ha : c.alive with
  | true => exact Or.inl ⟨rfl, handleClose_kept ha ht⟩
  | false =>
      refine Or.inr ⟨rfl, handleClose_closes h ?_⟩
      rw [ha]
      simp

/-- `handleClose` keeps a long connection, and closes any other one that is connected. -/
theorem handleClose_ok (h : c.handleClose = .ok c') :
    (c.timeout = false ∧ c' = c) ∨ ((c.state = .kConnected ∨ c.state = .kDisconnecting) ∧
      (c.alive = false ∨ c.timeout = true) ∧
        ∃ ch ep, c.channel.setEvents 0 c.epoll = .ok (ch, ep) ∧ c' = c.closed ch ep) := by
  rw [handleClose] at h
  split at h
  · rename_i hlong
    cases h
    exact Or.inl ⟨hlong.2, rfl⟩
  · rename_i hlong
    split at h
    · cases h
    · rename_i hstate
      obtain ⟨d, hd, hc⟩ := ok_of_bind h
      obtain ⟨ch, ep, hset, rfl⟩ := onChannel_ok hd
      refine Or.inr ⟨by tauto, ?_, ch, ep, hset, ?_⟩
      · rw [← Bool.not_eq_false c.timeout, ← Bool.not_eq_true c.alive]
        tauto
      · cases ha : c.alive with
        | true =>
            simp only [ha, Bool.true_eq_false, if_false] at hc
            cases hc
            simp [closed, ha]
        | false =>
            simp only [ha, if_true] at hc
            cases hc
            simp [closed, ha]

/-! ### handleWrite -/

/-- The bytes waiting in the output buffer. -/
def output (c : TcpConnection) : List UInt8 := c.context.outputBuffer.content

@[simp] theorem output_written (ws : WriteScript) (c : TcpConnection) :
    (c.written ws).output = c.output.drop (ws.taken c.output.length) :=
  Buffer.content_writeToFd ws c.context.outputBuffer

@[simp] theorem sent_written (ws : WriteScript) (c : TcpConnection) :
    (c.written ws).sent = c.sent ++ c.output.take (ws.taken c.output.length) :=
  congrArg (c.sent ++ ·) (Buffer.writeToFd_sent ws c.context.outputBuffer)

/-- What `handleWrite` makes of a watched connection whose timer has not expired. -/
inductive WriteOutcome (ws : WriteScript) (c : TcpConnection) : TcpConnection → Prop where
  /-- The kernel took a part; the connection waits for room. -/
  | partly (ch : Channel) (ep : Epoll) : ws.fails c.output.length = false →
      0 < ws.taken c.output.length → ws.taken c.output.length < c.output.length →
      Updated c.channel Channel.kWriteEvent ch ep →
      WriteOutcome ws c { c.written ws with channel := ch, epoll := ep }
  /-- The kernel took everything, and the long connection is ready for the next request. -/
  | wholly (ch : Channel) (ep : Epoll) : ws.fails c.output.length = false →
      0 < ws.taken c.output.length → ws.taken c.output.length = c.output.length →
      c.alive = true → Updated c.channel Channel.kReadEvent ch ep →
      WriteOutcome ws c
        { c.written ws with context := (c.written ws).context.reset, channel := ch, epoll := ep }
  /-- The write came to nothing, and the long connection is left as it is. -/
  | kept : ws.fails c.output.length = true ∨ ws.taken c.output.length = 0 → c.alive = true →
      WriteOutcome ws c (c.written ws)
  /-- The write came to nothing, or is done, and the connection is closed. -/
  | closed (ch : Channel) (ep : Epoll) : ws.fails c.output.length = true ∨
        ws.taken c.output.length = 0 ∨ ws.taken c.output.length = c.output.length →
      c.alive = false → Updated c.channel 0 ch ep →
      WriteOutcome ws c ((c.written ws).closed ch ep)

theorem Watched.written (h : Watched c) : Watched (c.written ws) := ⟨h.state, h.mirrored, h.index⟩

/-- **A write** has one of the four outcomes. -/
theorem handleWrite_spec (ws : WriteScript) (h : Watched c) (ht : c.timeout = false) :
    ∃ c', c.handleWrite ws = .ok c' ∧ WriteOutcome ws c c' := by
  have hret : (c.context.outputBuffer.writeToFd ws).1 = ws.returned c.output.length :=
    Buffer.writeToFd_returned ws c.context.outputBuffer
  have hleft : (c.written ws).context.outputBuffer.readableBytes
      = (c.output.length - ws.taken c.output.length : ℕ) := by
    rw [Buffer.readableBytes_eq_length, ← List.length_drop, ← output_written]
    rfl
  have hle := ws.taken_le c.output.length
  -- what a call of `handleClose` would do here
  have hclose : (ws.fails c.output.length = true ∨ ws.taken c.output.length = 0 ∨
        (ws.taken c.output.length = c.output.length ∧ c.alive = false)) →
      ∃ c', (c.written ws).handleClose = .ok c' ∧ WriteOutcome ws c c' := by
    intro hwhy
    rcases handleClose_cases (c := c.written ws) h.written ht with
      ⟨ha, hok⟩ | ⟨ha, ch, ep, hok, hupd⟩
    · refine ⟨_, hok, .kept ?_ ha⟩
      rcases hwhy with hf | h0 | ⟨_, hn⟩
      · exact Or.inl hf
      · exact Or.inr h0
      · rw [show c.alive = true from ha] at hn
        cases hn
    · refine ⟨_, hok, .closed ch ep ?_ ha hupd⟩
      rcases hwhy with hf | h0 | ⟨hall, _⟩
      · exact Or.inl hf
      · exact Or.inr (Or.inl h0)
      · exact Or.inr (Or.inr hall)
  rw [handleWrite, hret]
  simp only [hleft]
  cases hf : ws.fails c.output.length with
  | true =>
      rw [if_pos (by rw [WriteScript.returned, hf, if_pos rfl]; omega)]
      exact hclose (Or.inl hf)
  | false =>
      have hval : ws.returned c.output.length = (ws.taken c.output.length : ℤ) := by
        rw [WriteScript.returned, hf]
        rfl
      rw [hval, if_neg (by omega)]
      by_cases h0 : ws.taken c.output.length = 0
      · -- nothing was taken: the first two branches both end in `handleClose`
        by_cases hempty : c.output.length = 0
        · rw [if_pos (by omega)]
          exact hclose (Or.inr (Or.inl h0))
        · rw [if_neg (by omega), if_pos (by omega)]
          exact hclose (Or.inr (Or.inl h0))
      · rw [if_neg (by omega), if_neg (by omega)]
        by_cases hall : ws.taken c.output.length = c.output.length
        · rw [if_neg (by omega)]
          cases ha : c.alive with
          | true =>
              rw [if_pos ⟨by omega, ha, ht⟩]
              obtain ⟨ch, ep, hset, hupd⟩ := onChannel_setEvents
                (c := { c.written ws with context := (c.written ws).context.reset })
                h.mirrored Channel.kReadEvent
              exact ⟨_, hset, .wholly ch ep hf (by omega) hall ha hupd⟩
          | false =>
              rw [if_neg (fun hh => by rw [show (c.written ws).alive = false from ha] at hh; cases hh.2.1)]
              exact hclose (Or.inr (Or.inr ⟨hall, ha⟩))
        · rw [if_pos (by omega)]
          obtain ⟨ch, ep, hset, hupd⟩ := onChannel_setEvents (c := c.written ws)
            h.mirrored Channel.kWriteEvent
          exact ⟨_, hset, .partly ch ep hf (by omega) (by omega) hupd⟩

/-! ### handleRead -/

/-- The connection `handleRead` hands to `handleWrite` after `work` has left `context`. -/
def answered (rs : ReadScript) (context : HttpContext) (c : TcpConnection) : TcpConnection :=
  ({ c.drained rs with context := context } : TcpConnection).startKeepAlive

/-- What `handleRead` makes of a watched connection whose timer has not expired. -/
inductive ReadOutcome (rs : ReadScript) (ws : WriteScript) (now : List UInt8) (c : TcpConnection) :
    Except Stop TcpConnection → Prop where
  /-- The parser does not come to an end. -/
  | loops : 0 < rs.returned → (c.drained rs).context.work now = none →
      ReadOutcome rs ws now c (.error .parserLoop)
  /-- The response is generated and written. -/
  | answers {context : HttpContext} {c' : TcpConnection} : 0 < rs.returned →
      (c.drained rs).context.work now = some context →
      WriteOutcome ws (c.answered rs context) c' → ReadOutcome rs ws now c (.ok c')
  /-- Nothing to parse, and the long connection is left as it is. -/
  | kept : ¬ 0 < rs.returned → c.alive = true → ReadOutcome rs ws now c (.ok (c.drained rs))
  /-- Nothing to parse, and the connection is closed. -/
  | closed (ch : Channel) (ep : Epoll) : ¬ 0 < rs.returned → c.alive = false →
      Updated c.channel 0 ch ep → ReadOutcome rs ws now c (.ok ((c.drained rs).closed ch ep))

theorem Watched.drained (h : Watched c) : Watched (c.drained rs) := ⟨h.state, h.mirrored, h.index⟩

/-- The first keep-alive request changes `alive` and the timers only. -/
theorem startKeepAlive_cases (c : TcpConnection) :
    c.startKeepAlive = c ∨
      (c.alive = false ∧ c.startKeepAlive = { c with alive := true, timers := c.timers + 1 }) := by
  rw [startKeepAlive]
  split
  · rename_i hfirst
    exact Or.inr ⟨hfirst.1, rfl⟩
  · exact Or.inl rfl

@[simp] theorem startKeepAlive_context (c : TcpConnection) :
    c.startKeepAlive.context = c.context := by
  rcases startKeepAlive_cases c with h | ⟨_, h⟩ <;> rw [h]

@[simp] theorem startKeepAlive_channel (c : TcpConnection) :
    c.startKeepAlive.channel = c.channel := by
  rcases startKeepAlive_cases c with h | ⟨_, h⟩ <;> rw [h]

@[simp] theorem startKeepAlive_epoll (c : TcpConnection) :
    c.startKeepAlive.epoll = c.epoll := by
  rcases startKeepAlive_cases c with h | ⟨_, h⟩ <;> rw [h]

@[simp] theorem startKeepAlive_state (c : TcpConnection) :
    c.startKeepAlive.state = c.state := by
  rcases startKeepAlive_cases c with h | ⟨_, h⟩ <;> rw [h]

@[simp] theorem startKeepAlive_timeout (c : TcpConnection) :
    c.startKeepAlive.timeout = c.timeout := by
  rcases startKeepAlive_cases c with h | ⟨_, h⟩ <;> rw [h]

@[simp] theorem startKeepAlive_sent (c : TcpConnection) :
    c.startKeepAlive.sent = c.sent := by
  rcases startKeepAlive_cases c with h | ⟨_, h⟩ <;> rw [h]

@[simp] theorem startKeepAlive_closeCallbacks (c : TcpConnection) :
    c.startKeepAlive.closeCallbacks = c.closeCallbacks := by
  rcases startKeepAlive_cases c with h | ⟨_, h⟩ <;> rw [h]

theorem startKeepAlive_alive (c : TcpConnection) :
    c.startKeepAlive.alive = (c.alive || c.context.isKeepAlive) := by
  rw [startKeepAlive]
  cases ha : c.alive
  · cases hk : c.context.isKeepAlive
    · simp [ha]
    · simp
  · simp [ha]

/-- A connection that is not a long one has no timer, before and after. -/
theorem startKeepAlive_timers (h : c.alive = false → c.timers = 0) :
    c.startKeepAlive.alive = false → c.startKeepAlive.timers = 0 := by
  intro ha
  rcases startKeepAlive_cases c with heq | ⟨_, heq⟩
  · rw [heq] at ha ⊢
    exact h ha
  · rw [heq] at ha
    cases ha

section Answered

variable (rs : ReadScript) (context : HttpContext) (c : TcpConnection)

@[simp] theorem answered_context : (c.answered rs context).context = context :=
  startKeepAlive_context _

@[simp] theorem answered_output : (c.answered rs context).output = context.outputBuffer.content := by
  rw [output, answered_context]

@[simp] theorem answered_state : (c.answered rs context).state = c.state := startKeepAlive_state _

@[simp] theorem answered_channel : (c.answered rs context).channel = c.channel :=
  startKeepAlive_channel _

@[simp] theorem answered_epoll : (c.answered rs context).epoll = c.epoll := startKeepAlive_epoll _

@[simp] theorem answered_timeout : (c.answered rs context).timeout = c.timeout :=
  startKeepAlive_timeout _

@[simp] theorem answered_sent : (c.answered rs context).sent = c.sent := startKeepAlive_sent _

@[simp] theorem answered_closeCallbacks : (c.answered rs context).closeCallbacks = c.closeCallbacks :=
  startKeepAlive_closeCallbacks _

/-- The connection is a long one if it was, or if the request has asked for it. -/
theorem answered_alive : (c.answered rs context).alive = (c.alive || context.isKeepAlive) :=
  startKeepAlive_alive _

end Answered

theorem Watched.answered (h : Watched c) (context : HttpContext) :
    Watched (c.answered rs context) := by
  refine ⟨?_, ?_, ?_⟩
  · rw [answered_state]
    exact h.state
  · rw [answered_channel, answered_epoll]
    exact h.mirrored
  · rw [answered_channel]
    exact h.index

/-- **A read** has one of the four outcomes. -/
theorem handleRead_spec (rs : ReadScript) (ws : WriteScript) (now : List UInt8) (h : Watched c)
    (ht : c.timeout = false) :
    ReadOutcome rs ws now c (c.handleRead rs ws now) := by
  have hret : (c.context.inputBuffer.readFromFd rs).1 = rs.returned :=
    Buffer.readFromFd_returned rs c.context.inputBuffer
  rw [handleRead, hret]
  by_cases hpos : rs.returned > 0
  · rw [if_pos hpos]
    cases hwork : (c.drained rs).context.work now with
    | none => exact .loops hpos hwork
    | some context =>
        have ht' : (c.answered rs context).timeout = false := by
          rw [answered_timeout]
          exact ht
        obtain ⟨c', hok, hout⟩ := handleWrite_spec ws (h.answered context) ht'
        have hread := ReadOutcome.answers hpos hwork hout
        rw [← hok] at hread
        exact hread
  · -- end of stream and error both end in `handleClose`
    have hclose : ReadOutcome rs ws now c (c.drained rs).handleClose := by
      rcases handleClose_cases (c := c.drained rs) h.drained ht with
        ⟨ha, hok⟩ | ⟨ha, ch, ep, hok, hupd⟩
      · exact hok ▸ .kept hpos ha
      · exact hok ▸ .closed ch ep hpos ha hupd
    rw [if_neg hpos]
    split
    · exact hclose
    · exact hclose

/-! ### The timer and the loop -/

/-- **The timer** closes any connection. -/
theorem closeLongConnection_spec (h : Watched c) :
    ∃ ch ep, c.closeLongConnection = .ok (closed ch ep { c with timeout := true }) ∧
      Updated c.channel 0 ch ep :=
  handleClose_closes (c := { c with timeout := true }) ⟨h.state, h.mirrored, h.index⟩
    (fun hh => by cases hh.2)

/-- **The loop** disconnects a connection that is still connected, and removes its channel. -/
theorem connectDestroyed_spec (hm : Mirrored c.channel c.epoll)
    (h : Watched c ∨ c.state = .kDisconnected ∧ c.channel.index ≠ kAdded) :
    ∃ ch ep, c.connectDestroyed = .ok { c with state := .kDisconnected, channel := ch, epoll := ep } ∧
      Mirrored ch ep ∧ ch.index ≠ kAdded := by
  have hremove {ch : Channel} {ep : Epoll} (hm : Mirrored ch ep) (hi : ch.index ≠ kAdded) :
      ∃ ch' ep', onChannel Channel.remove
          { c with state := .kDisconnected, channel := ch, epoll := ep } =
        .ok { c with state := .kDisconnected, channel := ch', epoll := ep' } ∧
          Mirrored ch' ep' ∧ ch'.index ≠ kAdded := by
    obtain ⟨ch', ep', hrem, hrest⟩ := remove_spec hm hi
    refine ⟨ch', ep', ?_, hrest⟩
    rw [onChannel, hrem]
    rfl
  rw [connectDestroyed]
  rcases h with hw | ⟨hs, hi⟩
  · obtain ⟨ch, ep, hset, hupd⟩ := onChannel_setEvents
      (c := { c with state := .kDisconnected }) hm 0
    have hset' : onChannel Channel.disableAll { c with state := .kDisconnected }
        = .ok { c with state := .kDisconnected, channel := ch, epoll := ep } := hset
    rw [if_pos hw.state, hset']
    exact hremove hupd.mirrored (hupd.not_added hw.index)
  · obtain ⟨ch, ep, hrem, hrest⟩ := hremove hm hi
    refine ⟨ch, ep, ?_, hrest⟩
    rw [if_neg (by rw [hs]; decide), ← hrem, ← hs]
    rfl

/-! ### A dispatch of one kind of event -/

theorem WriteOutcome.revents {c' : TcpConnection} (h : WriteOutcome ws c c') :
    c'.channel.revents = c.channel.revents := by
  cases h with
  | partly _ _ _ _ _ hupd => exact hupd.revents
  | wholly _ _ _ _ _ _ hupd => exact hupd.revents
  | kept _ _ => rfl
  | closed _ _ _ _ hupd => exact hupd.revents

theorem ReadOutcome.revents {c' : TcpConnection} (h : ReadOutcome rs ws now c (.ok c')) :
    c'.channel.revents = c.channel.revents := by
  cases h with
  | answers _ _ hout =>
      rw [hout.revents, answered_channel]
  | kept _ _ => rfl
  | closed _ _ _ _ hupd => exact hupd.revents

variable {ws' : WriteScript}

/-- A dispatch without error and without a hang-up that ends the reading comes to the last two handlers. -/
theorem handleEvent_reads_writes
    (hclose : ¬ (c.channel.revents.has EPOLLHUP ∧ ¬ c.channel.revents.has EPOLLIN))
    (herr : ¬ c.channel.revents.has EPOLLERR) :
    c.handleEvent rs ws ws' now = (do
      let c ← (if c.channel.revents.has (EPOLLIN ||| EPOLLPRI ||| EPOLLRDHUP) then
          c.handleRead rs ws now
        else .ok c)
      if c.channel.revents.has EPOLLOUT then c.handleWrite ws' else .ok c) := by
  rw [handleEvent, if_neg hclose]
  show (do
    let c ← (if c.channel.revents.has EPOLLERR then c.handleError else .ok c)
    _) = _
  rw [if_neg herr]
  rfl

/-- A dispatch without error, room for writing and a hang-up that ends the reading calls the read handler
only. -/
theorem handleEvent_reads (h : Watched c) (ht : c.timeout = false)
    (hclose : ¬ (c.channel.revents.has EPOLLHUP ∧ ¬ c.channel.revents.has EPOLLIN))
    (herr : ¬ c.channel.revents.has EPOLLERR) (hout : ¬ c.channel.revents.has EPOLLOUT) :
    c.handleEvent rs ws ws' now =
      if c.channel.revents.has (EPOLLIN ||| EPOLLPRI ||| EPOLLRDHUP) then c.handleRead rs ws now
      else .ok c := by
  rw [handleEvent_reads_writes hclose herr]
  split
  · have hspec := handleRead_spec rs ws now h ht
    cases hread : c.handleRead rs ws now with
    | error stop => rfl
    | ok c' =>
        rw [hread] at hspec
        show (if c'.channel.revents.has EPOLLOUT then c'.handleWrite ws' else .ok c') = .ok c'
        rw [hspec.revents, if_neg hout]
  · show (if c.channel.revents.has EPOLLOUT then c.handleWrite ws' else .ok c) = .ok c
    rw [if_neg hout]

/-- A dispatch of room for writing calls the write handler only. -/
theorem handleEvent_writes (hhup : ¬ c.channel.revents.has EPOLLHUP)
    (herr : ¬ c.channel.revents.has EPOLLERR)
    (hin : ¬ c.channel.revents.has (EPOLLIN ||| EPOLLPRI ||| EPOLLRDHUP)) :
    c.handleEvent rs ws ws' now =
      if c.channel.revents.has EPOLLOUT then c.handleWrite ws' else .ok c := by
  rw [handleEvent_reads_writes (fun hh => hhup hh.1) herr, if_neg hin]
  rfl

/-! ### A read of whole requests -/

/-- The reading delivers the bytes, and the peer stays connected. -/
structure Delivers (rs : ReadScript) (bytes : List UInt8) : Prop where
  received : rs.received = bytes
  stop : rs.stop = .eagain

theorem Delivers.returned {bytes : List UInt8} (h : Delivers rs bytes) :
    rs.returned = bytes.length := by
  rw [ReadScript.returned, h.stop, h.received]

theorem Delivers.drained {bytes : List UInt8} (h : Delivers rs bytes)
    (hin : c.context.inputBuffer.content = []) :
    (c.drained rs).context.inputBuffer.content = bytes := by
  show (c.context.inputBuffer.readFromFd rs).2.content = _
  rw [Buffer.content_readFromFd, hin, h.received, List.nil_append]

/-- A keep-alive request that arrives in one piece. -/
def keepAliveRead : ReadScript := [.data ⟨keepAliveRequest.bytes, by decide⟩]

theorem keepAliveRead_delivers : Delivers keepAliveRead keepAliveRequest.bytes :=
  ⟨List.append_nil _, rfl⟩

/-! ### connectEstablished -/

/-- A socket just accepted: the kernel does not watch its descriptor yet. -/
structure NewSocket where
  self : ℕ
  fd : ℕ
  epoll : Epoll
  unwatched : epoll.kernel fd = none

/-- The first socket of a loop. -/
def NewSocket.first : NewSocket := ⟨0, 7, Epoll.init, rfl⟩

/-- The connection the server makes for a new socket. -/
def NewSocket.connection (s : NewSocket) : TcpConnection := init s.self s.fd s.epoll

/-- A connection just established: watched for reading, everything else as constructed. -/
structure Established (c : TcpConnection) : Prop extends Watched c where
  interest : c.channel.events = Channel.kReadEvent
  context : c.context = HttpContext.init Buffer.init Buffer.init
  alive : c.alive = false
  timeout : c.timeout = false
  timers : c.timers = 0
  sent : c.sent = []
  closeCallbacks : c.closeCallbacks = 0

/-- **The start of a run.**  `connectEstablished` succeeds. -/
theorem connectEstablished_spec (s : NewSocket) :
    ∃ c, s.connection.connectEstablished = .ok c ∧ Established c := by
  have hmirror : Mirrored (Channel.init s.self s.fd) s.epoll := by
    refine ⟨Or.inl rfl, ?_⟩
    have hnew : (Channel.init s.self s.fd).index ≠ kAdded := show kNew ≠ kAdded by decide
    rw [if_neg hnew]
    exact s.unwatched
  obtain ⟨ch, ep, hset, hupd⟩ := onChannel_setEvents
    (c := { s.connection with state := .kConnected }) hmirror Channel.kReadEvent
  refine ⟨_, hset, ⟨rfl, hupd.mirrored, ?_⟩, hupd.events, rfl, rfl, rfl, rfl, rfl, rfl⟩
  exact hupd.added kReadEvent_ne_zero

end TcpConnection

end WServer
