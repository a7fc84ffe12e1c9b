import WServer.ParserProgress
import WServer.ResponseForm
import WServer.ServerObjects

/-!
# What a connection sends, and its timer

The server serves many connections in many threads.  What one of them sends is nevertheless what its own
reads have been answered with, one message for each read that returned bytes; and what becomes of it in
time is settled by its own requests.

* `worked` — the requests a connection works on;
* `server_streams` — the bytes sent and those waiting are the texts of the replies, in their order;
* `server_timers` — a connection gets one timer, at the first request to keep it alive, and it expires once.
-/

namespace WServer

open Library.Runs Library.MessageFormat HttpContext

namespace TcpConnection

variable {c c' : TcpConnection} {rs : ReadScript} {ws : WriteScript} {now : List UInt8} {a : Action}

/-! ### Only the parser does not come to an end -/

theorem ne_loop_bind {α β : Type} {x : Except Stop α} {f : α → Except Stop β}
    (hx : x ≠ .error .parserLoop) (hf : ∀ a, f a ≠ .error .parserLoop) :
    (x >>= f) ≠ .error .parserLoop := by
  cases x with
  | ok a => exact hf a
  | error stop => exact fun h => hx (congrArg Except.error (Except.error.inj h))

theorem update_ne_loop (op : EpollOp) (ch : Channel) (ep : Epoll) :
    ep.update op ch ≠ .error .parserLoop := by
  rw [Epoll.update]
  split
  · rintro ⟨⟩
  · split <;> rintro ⟨⟩

theorem setEvents_ne_loop (events : Events) (ch : Channel) (ep : Epoll) :
    ch.setEvents events ep ≠ .error .parserLoop := by
  rw [Channel.setEvents, Epoll.updateChannel]
  split
  · exact ne_loop_bind (update_ne_loop _ _ _) fun _ => by rintro ⟨⟩
  · split
    · split <;> exact ne_loop_bind (update_ne_loop _ _ _) fun _ => by rintro ⟨⟩
    · rintro ⟨⟩

theorem onChannel_ne_loop (events : Events) (c : TcpConnection) :
    c.onChannel (Channel.setEvents events) ≠ .error .parserLoop :=
  ne_loop_bind (setEvents_ne_loop _ _ _) fun _ => by rintro ⟨⟩

theorem handleClose_ne_loop (c : TcpConnection) : c.handleClose ≠ .error .parserLoop := by
  rw [handleClose]
  split
  · rintro ⟨⟩
  · split
    · rintro ⟨⟩
    · exact ne_loop_bind (onChannel_ne_loop _ _) fun _ => by rintro ⟨⟩

theorem handleWrite_ne_loop (ws : WriteScript) (c : TcpConnection) :
    c.handleWrite ws ≠ .error .parserLoop := by
  rw [handleWrite]
  split_ifs
  · exact handleClose_ne_loop _
  · exact handleClose_ne_loop _
  · exact handleClose_ne_loop _
  · exact onChannel_ne_loop _ _
  · exact onChannel_ne_loop _ _
  · exact handleClose_ne_loop _

/-! ### The requests -/

/-- The request that an action works on, as the parser leaves it, with the time of its response. -/
def worked (c : TcpConnection) : Action → List (HttpContext × List UInt8)
  | .handler .read rs _ now =>
      if 0 < (c.context.inputBuffer.readFromFd rs).1 then
        match (c.drained rs).context.handleHttpRequest with
        | none => []
        | some d => [(d, now)]
      else []
  | .handler .close _ _ _ | .handler .error _ _ _ | .handler .write _ _ _ => []
  | .reported _ | .established | .destroyed | .expired => []

/-- A read that returns bytes works on a request; any other one closes the connection. -/
theorem handleRead_cases (h : c.handleRead rs ws now = .ok c') :
    (∃ d, worked c (.handler .read rs ws now) = [(d, now)] ∧
        (c.drained rs).context.handleHttpRequest = some d ∧
        (c.answered rs (d.getHttpResponse now)).handleWrite ws = .ok c') ∨
      (worked c (.handler .read rs ws now) = [] ∧ (c.drained rs).handleClose = .ok c') := by
  rw [handleRead] at h
  by_cases hpos : (c.context.inputBuffer.readFromFd rs).1 > 0
  · rw [if_pos hpos] at h
    split at h
    · cases h
    · rename_i context hwork
      obtain ⟨d, hd, rfl⟩ := work_some hwork
      exact Or.inl ⟨d, by rw [worked, if_pos hpos, hd], hd, h⟩
  · refine Or.inr ⟨by rw [worked, if_neg hpos], ?_⟩
    rw [if_neg hpos] at h
    split at h
    · exact h
    · exact h

/-- The parser has got hold of the thread: no request has been worked on. -/
theorem worked_stuck (h : a.run c = .error .parserLoop) : worked c a = [] := by
  cases a with
  | reported | established | destroyed | expired => rfl
  | handler handler rs ws now =>
      cases handler with
      | close | error | write => rfl
      | read =>
          rw [worked]
          split
          · rename_i hpos
            cases hd : (c.drained rs).context.handleHttpRequest with
            | none => rfl
            | some d =>
                have hread : c.handleRead rs (c.writes ws) now = .error .parserLoop := h
                have hwork : (c.drained rs).context.work now = some (d.getHttpResponse now) := by
                  rw [work, hd]
                  rfl
                rw [handleRead, if_pos hpos, hwork] at hread
                exact absurd hread (handleWrite_ne_loop _ _)
          · rfl

/-! ### What the calls carry on -/

/-- Two connections that differ in their state, their channel and what is known of the request only. -/
structure Carries (c c' : TcpConnection) : Prop where
  sent : c'.sent = c.sent
  output : c'.output = c.output
  alive : c'.alive = c.alive
  timeout : c'.timeout = c.timeout
  timers : c'.timers = c.timers

theorem onChannel_carries {f : Channel → Epoll → Except Stop (Channel × Epoll)}
    (h : c.onChannel f = .ok c') : Carries c c' := by
  obtain ⟨ch, ep, -, rfl⟩ := onChannel_ok h
  exact ⟨rfl, rfl, rfl, rfl, rfl⟩

theorem handleClose_carries (h : c.handleClose = .ok c') : Carries c c' := by
  rcases handleClose_ok h with ⟨-, rfl⟩ | ⟨-, -, ch, ep, -, rfl⟩
  · exact ⟨rfl, rfl, rfl, rfl, rfl⟩
  · exact ⟨rfl, rfl, rfl, rfl, rfl⟩

theorem handleWrite_carries (h : c.handleWrite ws = .ok c') : Carries (c.written ws) c' := by
  rw [handleWrite] at h
  split_ifs at h
  · exact handleClose_carries h
  · exact handleClose_carries h
  · exact handleClose_carries h
  · exact onChannel_carries h
  · have hreset := onChannel_carries h
    exact ⟨hreset.sent, hreset.output, hreset.alive, hreset.timeout, hreset.timers⟩
  · exact handleClose_carries h

theorem connectDestroyed_carries (h : c.connectDestroyed = .ok c') : Carries c c' := by
  obtain ⟨d, hd, hc⟩ := ok_of_bind h
  have hdc := onChannel_carries hc
  split at hd
  · have hcd := onChannel_carries hd
    exact ⟨hdc.sent.trans hcd.sent, hdc.output.trans hcd.output, hdc.alive.trans hcd.alive,
      hdc.timeout.trans hcd.timeout, hdc.timers.trans hcd.timers⟩
  · cases hd
    exact hdc

/-! ### The bytes -/

/-- The bytes that the kernel has accepted for the peer, and those that wait. -/
def stream (c : TcpConnection) : List UInt8 := c.sent ++ c.output

theorem Carries.stream (h : Carries c c') : c'.stream = c.stream := by
  rw [TcpConnection.stream, h.sent, h.output, TcpConnection.stream]

/-- A write moves bytes from the output to the peer. -/
theorem handleWrite_stream (h : c.handleWrite ws = .ok c') : c'.stream = c.stream := by
  rw [(handleWrite_carries h).stream, stream, sent_written, output_written, List.append_assoc,
    List.take_append_drop, stream]

/-- The response is appended to the bytes that wait. -/
theorem stream_answered {d : HttpContext} (hd : (c.drained rs).context.handleHttpRequest = some d) :
    (c.answered rs (d.getHttpResponse now)).stream = c.stream ++ (d.reply now).print := by
  have hsent : (c.answered rs (d.getHttpResponse now)).sent = c.sent := by
    rcases startKeepAlive_cases { c.drained rs with context := d.getHttpResponse now } with h | ⟨-, h⟩
    · rw [answered, h]
      rfl
    · rw [answered, h]
      rfl
  have hout : (c.answered rs (d.getHttpResponse now)).output = c.output ++ (d.reply now).print := by
    rw [output, answered, startKeepAlive_context]
    exact output_work (c := (c.drained rs).context) hd
  rw [stream, hsent, hout, stream, List.append_assoc]

/-- **An action** appends the reply to the request it works on. -/
theorem run_stream (h : a.run c = .ok c') :
    c'.stream = c.stream ++ (worked c a).flatMap fun w => (w.1.reply w.2).print := by
  cases a with
  | reported revents =>
      cases h
      exact (List.append_nil _).symm
  | established =>
      have hcarries : Carries { c with state := .kConnected } c' := onChannel_carries h
      exact hcarries.stream.trans (List.append_nil _).symm
  | destroyed => exact (connectDestroyed_carries h).stream.trans (List.append_nil _).symm
  | expired =>
      have hcarries : Carries { c with timers := c.timers - 1, timeout := true } c' := handleClose_carries h
      exact hcarries.stream.trans (List.append_nil _).symm
  | handler handler rs ws now =>
      cases handler with
      | close => exact (handleClose_carries h).stream.trans (List.append_nil _).symm
      | error => exact (handleClose_carries h).stream.trans (List.append_nil _).symm
      | write => exact (handleWrite_stream h).trans (List.append_nil _).symm
      | read =>
          rcases handleRead_cases h with ⟨d, hworked, hd, hwrite⟩ | ⟨hworked, hclose⟩
          · have htold : worked c (.handler .read rs ws now) = [(d, now)] := hworked
            rw [htold, List.flatMap_singleton, handleWrite_stream hwrite, stream_answered hd]
          · have htold : worked c (.handler .read rs ws now) = [] := hworked
            rw [htold, List.flatMap_nil, List.append_nil, (handleClose_carries hclose).stream]
            rfl

/-! ### The timer -/

/-- An expiry of the timer. -/
def expiry (_ : TcpConnection) : Action → List Unit
  | .expired => [()]
  | .reported _ | .established | .destroyed | .handler _ _ _ _ => []

/-- One of the requests asks to keep the connection alive. -/
def AskedKeepAlive (ds : List (HttpContext × List UInt8)) : Prop := ∃ w ∈ ds, w.1.isKeepAlive = true

theorem askedKeepAlive_append {ds ds' : List (HttpContext × List UInt8)} :
    AskedKeepAlive (ds ++ ds') ↔ AskedKeepAlive ds ∨ AskedKeepAlive ds' := by
  simp only [AskedKeepAlive, List.mem_append, or_and_right, exists_or]

theorem not_askedKeepAlive_nil : ¬ AskedKeepAlive [] := nofun

/-- A long connection has its timer, or the timer has expired; a short one never had one. -/
def Clocked (c : TcpConnection) : Prop := c.timers + c.timeout.toNat = c.alive.toNat

theorem Carries.clocked (h : Carries c c') (hc : Clocked c) : Clocked c' := by
  rw [Clocked, h.timers, h.timeout, h.alive]
  exact hc

/-- The first request that asks to keep the connection alive makes it a long one. -/
theorem answered_clock (rs : ReadScript) (context : HttpContext) (hc : Clocked c) :
    Clocked (c.answered rs context) ∧ (c.answered rs context).timeout = c.timeout ∧
      (c.answered rs context).alive = (c.alive || context.isKeepAlive) := by
  rw [answered, startKeepAlive]
  split
  · rename_i hfirst
    have halive : c.alive = false := hfirst.1
    refine ⟨?_, rfl, by rw [halive]; exact hfirst.2.symm⟩
    have htimers : c.timers + c.timeout.toNat = 0 := by
      rw [show c.timers + c.timeout.toNat = c.alive.toNat from hc, halive]
      rfl
    show c.timers + 1 + c.timeout.toNat = 1
    omega
  · rename_i hnot
    refine ⟨hc, rfl, ?_⟩
    show c.alive = (c.alive || context.isKeepAlive)
    cases halive : c.alive with
    | true => rfl
    | false => exact (Bool.eq_false_iff.mpr fun hkeep => hnot ⟨halive, hkeep⟩).symm

/-- **An action** on a connection and its timer. -/
theorem run_clock (hc : Clocked c) (hmay : a.May c) (h : a.run c = .ok c') :
    Clocked c' ∧ c'.timeout.toNat = c.timeout.toNat + (expiry c a).length ∧
      (c'.alive = true ↔ c.alive = true ∨ AskedKeepAlive (worked c a)) := by
  have hquiet : Carries c c' → worked c a = [] → expiry c a = [] →
      Clocked c' ∧ c'.timeout.toNat = c.timeout.toNat + (expiry c a).length ∧
        (c'.alive = true ↔ c.alive = true ∨ AskedKeepAlive (worked c a)) := by
    intro hcarries hworked hexpiry
    refine ⟨hcarries.clocked hc, ?_, ?_⟩
    · rw [hexpiry, hcarries.timeout]
      rfl
    · rw [hworked, hcarries.alive]
      exact (or_iff_left not_askedKeepAlive_nil).symm
  cases a with
  | reported revents =>
      cases h
      exact hquiet ⟨rfl, rfl, rfl, rfl, rfl⟩ rfl rfl
  | established =>
      have hcarries : Carries { c with state := .kConnected } c' := onChannel_carries h
      exact hquiet ⟨hcarries.sent, hcarries.output, hcarries.alive, hcarries.timeout, hcarries.timers⟩ rfl rfl
  | destroyed => exact hquiet (connectDestroyed_carries h) rfl rfl
  | expired =>
      have hcarries : Carries { c with timers := c.timers - 1, timeout := true } c' := handleClose_carries h
      have hpos : 0 < c.timers := hmay
      have hsum : c.timers + c.timeout.toNat = c.alive.toNat := hc
      have hle := Bool.toNat_le c.alive
      refine ⟨hcarries.clocked ?_, ?_, ?_⟩
      · show c.timers - 1 + 1 = c.alive.toNat
        omega
      · rw [hcarries.timeout]
        show 1 = c.timeout.toNat + 1
        omega
      · rw [hcarries.alive]
        exact (or_iff_left not_askedKeepAlive_nil).symm
  | handler handler rs ws now =>
      cases handler with
      | close => exact hquiet (handleClose_carries h) rfl rfl
      | error => exact hquiet (handleClose_carries h) rfl rfl
      | write =>
          have hcarries : Carries (c.written (c.writes ws)) c' := handleWrite_carries h
          refine ⟨hcarries.clocked hc, ?_, ?_⟩
          · rw [hcarries.timeout]
            rfl
          · rw [hcarries.alive]
            exact (or_iff_left not_askedKeepAlive_nil).symm
      | read =>
          rcases handleRead_cases h with ⟨d, hworked, hd, hwrite⟩ | ⟨hworked, hclose⟩
          · have htold : AskedKeepAlive (worked c (.handler .read rs ws now)) ↔ d.isKeepAlive = true := by
              rw [show worked c (.handler .read rs ws now) = [(d, now)] from hworked]
              exact ⟨fun ⟨w, hw, hkeep⟩ => by rwa [List.mem_singleton.mp hw] at hkeep,
                fun hkeep => ⟨_, List.mem_singleton.mpr rfl, hkeep⟩⟩
            have hcarries := handleWrite_carries hwrite
            obtain ⟨hclocked, htimeout, halive⟩ := answered_clock rs (d.getHttpResponse now) hc
            refine ⟨hcarries.clocked hclocked, ?_, ?_⟩
            · rw [hcarries.timeout]
              exact congrArg Bool.toNat htimeout
            · rw [hcarries.alive, htold, ← Bool.or_eq_true]
              exact Bool.eq_iff_iff.mp halive
          · have hcarries := handleClose_carries hclose
            exact hquiet ⟨hcarries.sent, hcarries.output, hcarries.alive, hcarries.timeout,
              hcarries.timers⟩ hworked rfl

end TcpConnection

namespace TcpServer

variable {n : ℕ} {s : TcpServer n} {i : ℕ} {conn : Connection n} {name : List Char}
  {es : List (ServerEvent n)}

/-! ### Whole runs -/

/-- The requests that a connection has worked on in a run. -/
def requests (i : ℕ) (name : List Char) (es : List (ServerEvent n)) : List (HttpContext × List UInt8) :=
  traceOf serverStep (toldBy TcpConnection.worked i) (init name) es

/-- The expiries of its timer. -/
def expiries (i : ℕ) (name : List Char) (es : List (ServerEvent n)) : List Unit :=
  traceOf serverStep (toldBy TcpConnection.expiry i) (init name) es

theorem keeps_stream : KeptByActions TcpConnection.worked fun ds c =>
    c.stream = ds.flatMap fun w => (w.1.reply w.2).print where
  init _ _ _ := rfl
  epoll _ _ _ h := h
  step ds c a c' h _ hok := by rw [TcpConnection.run_stream hok, h, List.flatMap_append]
  stuck ds c a h hstop := by rw [TcpConnection.worked_stuck hstop, List.append_nil, h]

/-- **What a connection sends.**  In every interleaving the bytes sent to a peer, with those that wait for
it, are texts of messages: the replies to the requests of this connection, in their order. -/
theorem server_streams (hrun : runFrom serverStep (init name) es = .ok s)
    (hconn : s.objects i = some conn) :
    ∃ texts : List (List UInt8), conn.tcp.sent ++ conn.tcp.output = texts.flatten ∧
      texts.map (parse http) = (requests i name es).map fun w => some (w.1.reply w.2) := by
  refine ⟨(requests i name es).map fun w => (w.1.reply w.2).print, ?_, ?_⟩
  · have hstream := told_object keeps_stream hrun hconn
    rw [← List.flatMap_def]
    exact hstream
  · rw [List.map_map]
    exact List.map_congr_left fun w _ => parse_eq_some_iff.mpr rfl

theorem keeps_expiries : KeptByActions TcpConnection.expiry fun ds c =>
    c.Clocked ∧ ds.length = c.timeout.toNat where
  init _ _ _ := ⟨rfl, rfl⟩
  epoll _ _ _ h := h
  step ds c a c' h hmay hok := by
    obtain ⟨hclocked, htimeout, -⟩ := TcpConnection.run_clock h.1 hmay hok
    rw [List.length_append, h.2, htimeout]
    exact ⟨hclocked, rfl⟩
  stuck ds c a h hstop := by
    have hnone : TcpConnection.expiry c a = [] := by
      cases a with
      | expired => exact absurd hstop (TcpConnection.handleClose_ne_loop _)
      | reported | established | destroyed | handler => rfl
    rwa [hnone, List.append_nil]

theorem keeps_alive : KeptByActions TcpConnection.worked fun ds c =>
    c.Clocked ∧ (c.alive = true ↔ TcpConnection.AskedKeepAlive ds) where
  init _ _ _ := ⟨rfl, nofun, nofun⟩
  epoll _ _ _ h := h
  step ds c a c' h hmay hok := by
    obtain ⟨hclocked, -, halive⟩ := TcpConnection.run_clock h.1 hmay hok
    rw [TcpConnection.askedKeepAlive_append, ← h.2]
    exact ⟨hclocked, halive⟩
  stuck ds c a h hstop := by rwa [TcpConnection.worked_stuck hstop, List.append_nil]

/-- **The timer of a connection.**  In every interleaving a connection is a long one exactly if one of its
requests has asked for it.  Then it has got one timer, which expires once: it is still to come, or
`m_timeout` is set. -/
theorem server_timers (hrun : runFrom serverStep (init name) es = .ok s)
    (hconn : s.objects i = some conn) :
    (conn.tcp.alive = true ↔ ∃ w ∈ requests i name es, w.1.isKeepAlive = true) ∧
      conn.tcp.timers + (expiries i name es).length = conn.tcp.alive.toNat ∧
      (conn.tcp.timeout = true ↔ (expiries i name es).length = 1) := by
  obtain ⟨hclocked, hexpiries⟩ := told_object keeps_expiries hrun hconn
  refine ⟨(told_object keeps_alive hrun hconn).2, ?_, ?_⟩
  · rw [expiries, hexpiries]
    exact hclocked
  · rw [expiries, hexpiries, Bool.toNat_eq_one]

/-! ### A run -/

/-- A run comes to an end, with a connection that passes a check. -/
def endsWith (i : ℕ) (check : TcpConnection → Bool) (es : List (ServerEvent n)) : Bool :=
  match runFrom serverStep (init []) es with
  | .ok s => (s.objects i).any fun conn => check conn.tcp
  | .error _ => false

theorem endsWith_spec {check : TcpConnection → Bool} (h : endsWith i check es = true) :
    ∃ s conn, runFrom serverStep (init []) es = .ok s ∧ s.objects i = some conn ∧
      check conn.tcp = true := by
  rw [endsWith] at h
  split at h
  · rename_i s hrun
    obtain ⟨conn, hconn, hcheck⟩ := (Option.any_eq_true _ _).mp h
    exact ⟨s, conn, hrun, hconn, hcheck⟩
  · cases h

/-- One byte, the letter G. -/
def oneByteRead : ReadResult := .data ⟨[71], by decide⟩

/-- A connection whose peer has sent one byte so far. -/
def oneByte : List (ServerEvent 0) :=
  [List.replicate 3 (.main .loop), [.accept 5 7], List.replicate 11 (.io (Fin.last 0) .loop),
    [.poll (Fin.last 0) 1 EPOLLIN], List.replicate 2 (.handler (Fin.last 0) [] [] []),
    [.handler (Fin.last 0) [oneByteRead] [.count 99] []]].flatten

/-- It has been answered. -/
theorem oneByte_ends : endsWith 1 (fun c => !c.sent.isEmpty) oneByte = true := by decide +kernel

theorem server_streams_oneByte : ∃ (s : TcpServer 0) (conn : Connection 0),
    runFrom serverStep (init []) oneByte = .ok s ∧ conn.tcp.sent.isEmpty = false ∧
      ∃ texts : List (List UInt8), conn.tcp.sent ++ conn.tcp.output = texts.flatten ∧
        texts.map (parse http) = (requests 1 [] oneByte).map fun w => some (w.1.reply w.2) := by
  obtain ⟨s, conn, hrun, hconn, hends⟩ := endsWith_spec oneByte_ends
  exact ⟨s, conn, hrun, (Bool.not_eq_true' _).mp hends, server_streams hrun hconn⟩

/-- A connection that asks to be kept alive, until its timer expires. -/
def longConnection : List (ServerEvent 0) :=
  [List.replicate 3 (.main .loop), [.accept 5 7], List.replicate 11 (.io (Fin.last 0) .loop),
    [.poll (Fin.last 0) 1 EPOLLIN], List.replicate 2 (.handler (Fin.last 0) [] [] []),
    [.handler (Fin.last 0) TcpConnection.keepAliveRead [.count 999] [], .handler (Fin.last 0) [] [] []],
    [.timerRead (Fin.last 0), .io (Fin.last 0) .queued], List.replicate 4 (.io (Fin.last 0) .loop),
    [.expire (Fin.last 0) 1]].flatten

theorem longConnection_ends : endsWith 1 (fun c => c.alive && c.timeout) longConnection = true := by
  decide +kernel

/-- It has had its timer, which is gone. -/
theorem server_timers_longConnection : ∃ (s : TcpServer 0) (conn : Connection 0),
    runFrom serverStep (init []) longConnection = .ok s ∧ conn.tcp.alive = true ∧
      conn.tcp.timeout = true ∧
      (conn.tcp.alive = true ↔ ∃ w ∈ requests 1 [] longConnection, w.1.isKeepAlive = true) ∧
      conn.tcp.timers + (expiries 1 [] longConnection).length = conn.tcp.alive.toNat ∧
      (conn.tcp.timeout = true ↔ (expiries 1 [] longConnection).length = 1) := by
  obtain ⟨s, conn, hrun, hconn, hends⟩ := endsWith_spec longConnection_ends
  obtain ⟨halive, htimeout⟩ := (Bool.and_eq_true _ _).mp hends
  exact ⟨s, conn, hrun, halive, htimeout, server_timers hrun hconn⟩

end TcpServer

end WServer
