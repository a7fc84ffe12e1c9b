import WServer.ConnectionHandlers
import WServer.Library.Runs

/-!
# The stream of answers on a long connection

Requests that each ask for a long connection arrive in batches, one batch for a read.  A read answers
one request; `reset` then empties the input buffer, and with it the rest of the batch.

* `serve_spec` — a read of a batch sends the answer to its first request, and is ready for the next;
* `serve_run` — so a run sends one answer for a batch;
* `keep_alive_stream_iff` — the peer gets an answer to every request exactly when every batch holds one.
-/

namespace WServer

namespace TcpConnection

open Library.Runs HttpContext

/-- A well-formed request that asks for a long connection. -/
structure KeepAliveRequest extends Request where
  consistent : toRequest.Consistent
  asks : ∃ h ∈ headers, IsKeepAliveHeader h

/-- A request, and the time stamp at which its answer is generated. -/
abbrev TimedRequest := KeepAliveRequest × List UInt8

def answer (q : TimedRequest) : List UInt8 := response q.1.version .GET_REQUEST q.1.uri q.2

def answers (qs : List TimedRequest) : List UInt8 := (qs.map answer).flatten

/-- One or several whole requests that arrive in one read, and a write that accepts whatever part of
their answers it is offered. -/
structure Batch where
  first : TimedRequest
  more : List TimedRequest
  rs : ReadScript
  ws : WriteScript
  delivers : Delivers rs ((first :: more).map fun q => q.1.bytes).flatten
  takes : ∀ n ≤ (answers (first :: more)).length, ws.TakesAll n

def Batch.requests (b : Batch) : List TimedRequest := b.first :: b.more

def serve (c : TcpConnection) (b : Batch) : Except Stop TcpConnection :=
  c.handleRead b.rs b.ws b.first.2

/-- A connection between two batches. -/
structure Ready (c : TcpConnection) : Prop extends Watched c where
  timeout : c.timeout = false
  idle : c.context.checkState = .REQUEST_LINE
  input : c.context.inputBuffer.content = []
  drained : c.output = []

variable {c : TcpConnection}

theorem Established.ready (h : Established c) : Ready c := by
  refine ⟨h.toWatched, h.timeout, ?_, ?_, ?_⟩
  · rw [h.context]
    rfl
  · rw [h.context]
    exact Buffer.content_init
  · rw [output, h.context]
    exact Buffer.content_init

theorem answer_pos (q : TimedRequest) : 0 < (answer q).length := response_pos _ _ _ _

theorem answers_cons (q : TimedRequest) (qs : List TimedRequest) :
    answers (q :: qs) = answer q ++ answers qs := rfl

/-- **One batch.**  The answer to the first request is sent, and the connection is ready again. -/
theorem serve_spec (h : Ready c) (b : Batch) :
    ∃ c', serve c b = .ok c' ∧ Ready c' ∧ c'.sent = c.sent ++ answer b.first := by
  obtain ⟨⟨r, now⟩, more, rs, ws, hrs, hws⟩ := b
  set rest := (more.map fun q : TimedRequest => q.1.bytes).flatten with hrest
  replace hrs : Delivers rs (r.bytes ++ rest) := hrs
  obtain ⟨e, he, hread⟩ := parse_request (c := (c.drained rs).context) r.toRequest rest r.consistent
    h.idle (hrs.drained h.input)
  have hpos : 0 < rs.returned := by
    rw [hrs.returned, List.length_append]
    have := r.toRequest.bytes_pos
    omega
  have hspec := handleRead_spec rs ws now h.toWatched h.timeout
  rw [serve]
  simp only
  generalize c.handleRead rs ws now = res at hspec
  cases hspec with
  | loops _ hwork =>
      rw [work, he] at hwork
      cases hwork
  | kept hn _ => exact absurd hpos hn
  | closed _ _ hn _ _ => exact absurd hpos hn
  | @answers context c' _ hwork hout =>
      rw [work, he] at hwork
      cases hwork
      set d := c.answered rs (e.getHttpResponse now) with hd
      have hctx : d.context = e.getHttpResponse now := by rw [hd, answered_context]
      have hsent : d.sent = c.sent := by rw [hd, answered_sent]
      have hdout : d.output = answer (r, now) := by
        rw [output, hctx, content_getHttpResponse now he, hread.version, hread.complete, hread.uri]
        exact congrArg (· ++ _) h.drained
      have hlong : d.alive = true := by
        rw [hd, answered_alive]
        refine Bool.or_eq_true_iff.mpr (Or.inr ?_)
        show decide (e.connection = .KEEP_ALIVE) = true
        rw [hread.connection, Request.connectionFrom, if_pos r.asks]
        rfl
      obtain ⟨hfails, htaken⟩ : ws.TakesAll d.output.length := by
        rw [hdout]
        refine hws _ ?_
        rw [answers_cons, List.length_append]
        omega
      have hdpos : 0 < d.output.length := by
        rw [hdout]
        exact answer_pos _
      refine ⟨c', rfl, ?_⟩
      cases hout with
      | partly _ _ _ _ hlt _ => omega
      | kept hwhy _ =>
          rcases hwhy with hf | h0
          · rw [hfails] at hf
            cases hf
          · omega
      | closed _ _ _ hn _ =>
          rw [hlong] at hn
          cases hn
      | wholly ch ep _ _ _ _ hupd =>
          have hdw : Watched d := h.toWatched.answered _
          have htime : d.timeout = false := by
            rw [hd, answered_timeout]
            exact h.timeout
          refine ⟨⟨⟨hdw.state, hupd.mirrored, hupd.added kReadEvent_ne_zero⟩, htime, rfl,
            Buffer.content_retrieveAll _, ?_⟩, ?_⟩
          · show (d.written ws).output = []
            rw [output_written, htaken, List.drop_length]
          · show (d.written ws).sent = _
            rw [sent_written, htaken, List.take_length, hsent, hdout]

/-- **A run over batches** sends the answers to their first requests. -/
theorem serve_run (batches : List Batch) :
    ∀ c : TcpConnection, Ready c → ∃ t, runFrom serve c batches = .ok t ∧
      t.sent = c.sent ++ answers (batches.map Batch.first) := by
  induction batches with
  | nil => exact fun c _ => ⟨c, rfl, (List.append_nil _).symm⟩
  | cons b batches ih =>
      intro c h
      obtain ⟨c', hok, hready, hsent⟩ := serve_spec h b
      obtain ⟨t, hrun, ht⟩ := ih c' hready
      refine ⟨t, ?_, ?_⟩
      · rw [runFrom_cons_ok batches hok]
        exact hrun
      · rw [ht, hsent, List.append_assoc]
        rfl

/-- The answers to the first requests are as long as all of them only if there are no others. -/
theorem answers_length (batches : List Batch) :
    (answers (batches.map Batch.first)).length ≤ (answers (batches.flatMap Batch.requests)).length ∧
      ((answers (batches.flatMap Batch.requests)).length
          = (answers (batches.map Batch.first)).length → ∀ b ∈ batches, b.more = []) := by
  induction batches with
  | nil => exact ⟨Nat.le_refl _, fun _ => by simp⟩
  | cons b batches ih =>
      obtain ⟨hle, heq⟩ := ih
      have hall : answers ((b :: batches).flatMap Batch.requests)
          = answer b.first ++ (answers b.more ++ answers (batches.flatMap Batch.requests)) := by
        rw [List.flatMap_cons, Batch.requests, List.cons_append, answers_cons, answers, List.map_append,
          List.flatten_append]
        rfl
      have hfirst : answers ((b :: batches).map Batch.first)
          = answer b.first ++ answers (batches.map Batch.first) := rfl
      rw [hall, hfirst, List.length_append, List.length_append, List.length_append]
      refine ⟨by omega, ?_⟩
      intro hlen
      have hmore : b.more = [] := by
        cases hm : b.more with
        | nil => rfl
        | cons q qs =>
            rw [hm, answers_cons, List.length_append] at hlen
            have := answer_pos q
            omega
      refine List.forall_mem_cons.mpr ⟨hmore, heq ?_⟩
      omega

/-- **The stream of answers.**  A new connection answers every request of the batches, in order, exactly
when every batch holds one request. -/
theorem keep_alive_stream_iff (s : NewSocket) (batches : List Batch) :
    ∃ c t, s.connection.connectEstablished = .ok c ∧ runFrom serve c batches = .ok t ∧
      (t.sent = answers (batches.flatMap Batch.requests) ↔ ∀ b ∈ batches, b.more = []) := by
  obtain ⟨c, hc, hest⟩ := connectEstablished_spec s
  obtain ⟨t, hrun, hsent⟩ := serve_run batches c hest.ready
  rw [hest.sent, List.nil_append] at hsent
  refine ⟨c, t, hc, hrun, ?_, ?_⟩
  · intro heq
    rw [hsent] at heq
    exact (answers_length batches).2 (congrArg List.length heq.symm)
  · intro hone
    have hsame : batches.map Batch.first = batches.flatMap Batch.requests := by
      rw [List.map_eq_flatMap]
      refine List.flatMap_congr fun b hb => ?_
      rw [Batch.requests, hone b hb]
    rw [hsent, hsame]

/-- The keep-alive request for `/`. -/
def timedKeepAlive : TimedRequest :=
  (⟨keepAliveRequest, by decide, ⟨_, List.mem_singleton_self _, by decide⟩⟩, [])

/-- Two requests in one read. -/
def doubleBatch : Batch where
  first := timedKeepAlive
  more := [timedKeepAlive]
  rs := [.data ⟨keepAliveRequest.bytes ++ keepAliveRequest.bytes, by decide⟩]
  ws := [.count (answers [timedKeepAlive, timedKeepAlive]).length]
  delivers := ⟨by simp [ReadScript.received, timedKeepAlive], rfl⟩
  takes := fun _ h => WriteScript.takesAll_count h

/-- Of two requests that arrive in one read, one is not answered. -/
theorem request_dropped :
    ∃ c t, NewSocket.first.connection.connectEstablished = .ok c ∧
      runFrom serve c [doubleBatch] = .ok t ∧
      t.sent ≠ answers ([doubleBatch].flatMap Batch.requests) := by
  obtain ⟨c, hc, hest⟩ := connectEstablished_spec NewSocket.first
  obtain ⟨t, hrun, hsent⟩ := serve_run [doubleBatch] c hest.ready
  rw [hest.sent, List.nil_append] at hsent
  refine ⟨c, t, hc, hrun, ?_⟩
  intro heq
  rw [hsent] at heq
  have hmore := (answers_length [doubleBatch]).2 (congrArg List.length heq.symm) doubleBatch
    (List.mem_singleton_self _)
  cases hmore

end TcpConnection

end WServer
