import WServer.AcceptedRequest
import WServer.ConnectionHandlers
import WServer.Library.Runs

/-!
# The parser is called where it makes progress

The parsing loop does not come to an end in check state END.  Only `reset` leaves that state, and only
one branch of `handleWrite` calls it: the one taken when the whole response of a long connection has gone
out in one call.  So the loop terminates from every state of a run exactly if each read that completes a
request ends in that branch.

* `handleWrite_context` — a write resets the context, or takes the sent bytes out of its output only;
* `handleRead_receiving` — a read under the condition leaves the parser outside BODY and END;
* `parser_terminates` — whole runs of the handlers, in any order;
* `read_unsent` — a request whose response is not sent leaves the parser in END.
-/

namespace WServer

namespace TcpConnection

open Library.Runs HttpContext

variable {c c' : TcpConnection} {ws : WriteScript} {rs : ReadScript} {now : List UInt8}

/-! ### The context behind a handler -/

theorem onChannel_context {f : Channel → Epoll → Except Stop (Channel × Epoll)}
    (h : c.onChannel f = .ok c') : c'.context = c.context ∧ c'.timeout = c.timeout := by
  obtain ⟨ch, ep, -, rfl⟩ := onChannel_ok h
  exact ⟨rfl, rfl⟩

theorem handleClose_context (h : c.handleClose = .ok c') :
    c'.context = c.context ∧ c'.timeout = c.timeout := by
  rcases handleClose_ok h with ⟨-, rfl⟩ | ⟨-, -, ch, ep, -, rfl⟩
  · exact ⟨rfl, rfl⟩
  · exact ⟨rfl, rfl⟩

/-- A write resets the context or takes bytes out of its output only. -/
theorem handleWrite_context (h : c.handleWrite ws = .ok c') :
    (c'.context = (c.written ws).context ∨ c'.context = (c.written ws).context.reset) ∧
      c'.timeout = c.timeout := by
  have hkeep : ∀ {r : Except Stop TcpConnection}, r = .ok c' →
      (r = .ok c' → c'.context = (c.written ws).context ∧ c'.timeout = (c.written ws).timeout) →
      (c'.context = (c.written ws).context ∨ c'.context = (c.written ws).context.reset) ∧
        c'.timeout = c.timeout := fun hr hctx => ⟨Or.inl (hctx hr).1, (hctx hr).2⟩
  rw [handleWrite] at h
  split_ifs at h
  · exact hkeep h handleClose_context
  · exact hkeep h handleClose_context
  · exact hkeep h handleClose_context
  · exact hkeep h onChannel_context
  · obtain ⟨hctx, htime⟩ := onChannel_context h
    exact ⟨Or.inr hctx, htime⟩
  · exact hkeep h handleClose_context

/-- A write that takes the whole output of a long connection resets the context. -/
theorem handleWrite_resets (h : c.handleWrite ws = .ok c') (hpos : 0 < c.output.length)
    (hall : ws.TakesAll c.output.length) (ha : c.alive = true) (ht : c.timeout = false) :
    c'.context = (c.written ws).context.reset := by
  have hret : (c.context.outputBuffer.writeToFd ws).1 = (c.output.length : ℤ) := by
    rw [Buffer.writeToFd_returned, WriteScript.returned]
    show (if ws.fails c.output.length = true then (-1 : ℤ) else ws.taken c.output.length) = _
    rw [hall.1, hall.2]
    rfl
  have hleft : (c.written ws).context.outputBuffer.readableBytes = 0 := by
    have hout := output_written ws c
    rw [hall.2, List.drop_length] at hout
    rw [Buffer.readableBytes_eq_length, show (c.written ws).context.outputBuffer.content = [] from hout]
    rfl
  rw [handleWrite, hret] at h
  simp only [hleft] at h
  rw [if_neg (by omega), if_neg (by omega), if_neg (by omega), if_neg (by omega),
    if_pos ⟨by omega, ha, ht⟩] at h
  exact (onChannel_context h).1

/-! ### The condition -/

/-- A call of a handler. -/
inductive HandlerCall where
  | read (rs : ReadScript) (ws : WriteScript) (now : List UInt8)
  | write (ws : WriteScript)

def handlerStep (c : TcpConnection) : HandlerCall → Except Stop TcpConnection
  | .read rs ws now => c.handleRead rs ws now
  | .write ws => c.handleWrite ws

/-- **The condition on a call.**  If the bytes a read leaves in the input complete a request, the
connection is kept alive, already or by this request, and the kernel takes the whole output, the response
included. -/
def AnswersAtOnce (c : TcpConnection) : HandlerCall → Prop
  | .read rs ws now => 0 < rs.returned → ∀ lines rest d,
      Holds (c.drained rs).context.inputBuffer.content lines rest →
      ReadsRequest (c.drained rs).context lines d →
        (c.alive = true ∨ d.isKeepAlive = true) ∧
          ws.TakesAll (c.output.length + (response d.version .GET_REQUEST d.uri now).length)
  | .write _ => True

/-! ### One call -/

theorem handleWrite_receiving (h : c.handleWrite ws = .ok c') (hc : Receiving c.context) :
    Receiving c'.context := by
  rcases (handleWrite_context h).1 with hctx | hctx
  · rw [hctx]
    exact hc
  · rw [hctx]
    exact Or.inl rfl

/-- **A read** under the condition leaves the parser outside BODY and END. -/
theorem handleRead_receiving (h : c.handleRead rs ws now = .ok c') (hc : Receiving c.context)
    (ht : c.timeout = false) (hgood : AnswersAtOnce c (.read rs ws now)) :
    Receiving c'.context ∧ c'.timeout = false := by
  have hret : (c.context.inputBuffer.readFromFd rs).1 = rs.returned :=
    Buffer.readFromFd_returned rs c.context.inputBuffer
  have hdrained : Receiving (c.drained rs).context := hc
  rw [handleRead, hret] at h
  by_cases hpos : rs.returned > 0
  · rw [if_pos hpos] at h
    obtain ⟨e, he⟩ := handleHttpRequest_total hdrained.ne_END
    have hwork : (c.drained rs).context.work now = some (e.getHttpResponse now) := by
      rw [work, he]
      rfl
    rw [hwork] at h
    replace h : handleWrite ws (c.answered rs (e.getHttpResponse now)) = .ok c' := h
    have htime : (c.answered rs (e.getHttpResponse now)).timeout = false := by
      rw [answered_timeout]
      exact ht
    refine ⟨?_, (handleWrite_context h).2.trans htime⟩
    rcases handleHttpRequest_receiving hdrained he with hrec | hend
    · refine handleWrite_receiving h ?_
      rw [answered_context]
      exact hrec
    · -- the request is complete: the condition makes `handleWrite` reset the context
      obtain ⟨lines, d, hholds, hreads, halike⟩ := complete_sound hdrained he hend
      obtain ⟨halive, hall⟩ := hgood hpos lines _ d hholds hreads
      have hout : (c.answered rs (e.getHttpResponse now)).output.length
          = c.output.length + (response d.version .GET_REQUEST d.uri now).length := by
        rw [answered_output]
        show (e.getHttpResponse now).outputBuffer.content.length = _
        rw [content_getHttpResponse now he, List.length_append, halike.version, halike.requestState,
          halike.uri]
        rfl
      have hlong : (c.answered rs (e.getHttpResponse now)).alive = true := by
        rw [answered_alive]
        rcases halive with halive | hkeep
        · exact Bool.or_eq_true_iff.mpr (Or.inl halive)
        · refine Bool.or_eq_true_iff.mpr (Or.inr ?_)
          rw [show d.isKeepAlive = decide (d.connection = .KEEP_ALIVE) from rfl] at hkeep
          show decide ((e.getHttpResponse now).connection = .KEEP_ALIVE) = true
          rw [getHttpResponse, halike.connection]
          exact hkeep
      have hreset := handleWrite_resets h
        (by rw [hout]; have := response_pos d.version .GET_REQUEST d.uri now; omega)
        (by rw [hout]; exact hall) hlong htime
      rw [hreset]
      exact Or.inl rfl
  · have hclose : (c.drained rs).handleClose = .ok c' := by
      rw [if_neg hpos] at h
      split at h
      · exact h
      · exact h
    obtain ⟨hctx, htime⟩ := handleClose_context hclose
    rw [hctx, htime]
    exact ⟨hdrained, ht⟩

/-- One call under the condition. -/
theorem handlerStep_receiving (call : HandlerCall) (hc : Receiving c.context ∧ c.timeout = false)
    (hgood : AnswersAtOnce c call) (h : handlerStep c call = .ok c') :
    Receiving c'.context ∧ c'.timeout = false := by
  cases call with
  | read rs ws now => exact handleRead_receiving h hc.1 hc.2 hgood
  | write ws => exact ⟨handleWrite_receiving h hc.1, (handleWrite_context h).2.trans hc.2⟩

/-! ### Whole runs -/

/-- **The parser terminates.**  In every run of the handlers whose calls meet the condition, the parsing
loop called from any state reached comes to an end, whatever the input buffer holds. -/
theorem parser_terminates (s : NewSocket) (c : TcpConnection) (calls : List HandlerCall)
    (hc : s.connection.connectEstablished = .ok c) (h : Along handlerStep AnswersAtOnce c calls) :
    ∀ t, ReachedBy handlerStep c calls t →
      ∀ input : Buffer, Terminates { t.context with inputBuffer := input } := by
  intro t ht
  have hinit : Receiving c.context ∧ c.timeout = false := by
    obtain ⟨d, hd, hest⟩ := connectEstablished_spec s
    rw [hc] at hd
    cases hd
    refine ⟨?_, hest.timeout⟩
    rw [hest.context]
    exact Or.inl rfl
  obtain ⟨hrec, -⟩ := run_invariant
    (fun _ call _ hd hgood hstep => handlerStep_receiving call hd hgood hstep) calls hinit h t ht
  exact (terminates_forall_iff t.context).mpr hrec.ne_END

/-- The request is answered at once. -/
theorem parser_terminates_answered :
    ∃ c, NewSocket.first.connection.connectEstablished = .ok c ∧
      ∀ t, ReachedBy handlerStep c [.read keepAliveRead [.count 1000] []] t →
        ∀ input : Buffer, Terminates { t.context with inputBuffer := input } := by
  obtain ⟨c, hc, hest⟩ := connectEstablished_spec NewSocket.first
  have hcs : c.context.checkState = .REQUEST_LINE := by rw [hest.context]; rfl
  have hin : c.context.inputBuffer.content = [] := by rw [hest.context]; exact Buffer.content_init
  have hout : c.output = [] := by rw [output, hest.context]; exact Buffer.content_init
  refine ⟨c, hc, parser_terminates NewSocket.first c _ hc ⟨?_, fun _ _ => trivial⟩⟩
  intro _ lines rest d hholds hreads
  obtain ⟨hv, hu, hk⟩ := ReadsRequest.of_request (c := (c.drained keepAliveRead).context)
    (r := keepAliveRequest) (by decide) hcs (keepAliveRead_delivers.drained hin) hholds hreads
  refine ⟨Or.inr ?_, ?_⟩
  · rw [HttpContext.isKeepAlive, hk, Request.connectionFrom, if_pos (by decide)]
    rfl
  · rw [hv, hu, hout]
    decide +kernel

/-! ### Where the condition fails -/

/-- **An unsent response.**  A read that completes a request while the kernel takes nothing leaves the
parser in END. -/
theorem read_unsent (ws : WriteScript) (now : List UInt8) (hc : Watched c) (ht : c.timeout = false)
    (r : Request) (hcons : r.Consistent) (hcs : c.context.checkState = .REQUEST_LINE)
    (hin : c.context.inputBuffer.content = []) (hrs : Delivers rs r.bytes)
    (hws : ∀ n, ws.taken n = 0) :
    ∃ c', c.handleRead rs ws now = .ok c' ∧ c'.context.checkState = .END := by
  have hspec := handleRead_spec rs ws now hc ht
  have hpos : 0 < rs.returned := by
    rw [hrs.returned]
    have := Request.bytes_pos r
    omega
  obtain ⟨e, he, hread⟩ := parse_request (c := (c.drained rs).context) r [] hcons hcs
    (by rw [hrs.drained hin, List.append_nil])
  generalize c.handleRead rs ws now = res at hspec
  cases hspec with
  | loops _ hwork =>
      rw [work, he] at hwork
      cases hwork
  | @answers context c' _ hwork hout =>
      rw [work, he] at hwork
      cases hwork
      refine ⟨c', rfl, ?_⟩
      have hend : (c.answered rs (e.getHttpResponse now)).context.checkState = .END := by
        rw [answered_context]
        exact hread.checkState
      cases hout with
      | partly _ _ _ htaken _ _ =>
          rw [hws] at htaken
          omega
      | wholly _ _ _ htaken _ _ _ =>
          rw [hws] at htaken
          omega
      | kept _ _ => exact hend
      | closed _ _ _ _ _ => exact hend
  | kept hn _ => exact absurd hpos hn
  | closed _ _ hn _ _ => exact absurd hpos hn

/-- A keep-alive request whose response meets a full socket: from there the loop need not end. -/
theorem parser_stuck :
    ∃ c c', NewSocket.first.connection.connectEstablished = .ok c ∧
      runFrom handlerStep c [.read keepAliveRead [.eagain] []] = .ok c' ∧
      ¬ ∀ input : Buffer, Terminates { c'.context with inputBuffer := input } := by
  obtain ⟨c, hc, hest⟩ := connectEstablished_spec NewSocket.first
  obtain ⟨c', hok, hend⟩ := read_unsent [.eagain] [] hest.toWatched hest.timeout
    keepAliveRequest (by decide) (by rw [hest.context]; rfl)
    (by rw [hest.context]; exact Buffer.content_init) keepAliveRead_delivers (fun _ => rfl)
  refine ⟨c, c', hc, ?_, ?_⟩
  · rw [runFrom_cons_ok [] hok]
    rfl
  · intro h
    exact (terminates_forall_iff c'.context).mp h hend

end TcpConnection

end WServer
