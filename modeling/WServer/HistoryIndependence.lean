import WServer.Segmentation

/-!
# One request after another

A kept-alive connection uses one context for request after request: the bytes of a request are
appended, `work` runs, the answer is written out, `reset` prepares the context for the next request.
`exchange` is that round, whatever the bytes are and however the kernel divides the writing of the
answer.

* `Reused c d` — the contexts differ at most in their connection mode and in the layout of their
  buffers;
* `reused_simulation` — the parser keeps it, and so reads one request alike from both;
* `exchange_reused` — after any round a context is again a fresh one in this sense, whatever the exit
  the parser took;
* `history_independent` — the answer to a request does not depend on the requests before it.
-/

namespace WServer

namespace HttpContext

/-- One request of a kept-alive connection: its bytes, the time stamp of its answer, and the answers of
the kernel to the calls of `writeToFd` that do not empty the output buffer. -/
structure Exchange where
  request : List UInt8
  now : List UInt8
  writes : List WriteScript

/-- The output buffer is written out: some calls of `writeToFd`, and one that takes what is left. -/
def drain (writes : List WriteScript) (b : Buffer) : Buffer :=
  let left := writes.foldl (fun b ws => (b.writeToFd ws).2.2) b
  (left.writeToFd [.count left.content.length]).2.2

/-- One round: append, `work`, full drain of the output, `reset`. -/
def exchange (c : HttpContext) (x : Exchange) : Option HttpContext :=
  (deliver x.now c x.request).map fun d =>
    reset { d with outputBuffer := drain x.writes d.outputBuffer }

/-! ### Contexts that parse alike -/

/-- The contexts differ at most in the connection mode, and in the layout of their buffers. -/
structure Reused (c d : HttpContext) : Prop where
  method : d.method = c.method
  version : d.version = c.version
  requestState : d.requestState = c.requestState
  checkState : d.checkState = c.checkState
  uri : d.uri = c.uri
  newLine : d.newLine = c.newLine
  input : d.inputBuffer.content = c.inputBuffer.content
  output : d.outputBuffer.content = c.outputBuffer.content

variable {c d : HttpContext}

theorem Reused.parseRequestLine (h : Reused c d) : Reused c.parseRequestLine d.parseRequestLine := by
  obtain ⟨hm, hv, hr, hs, hu, hn, hi, ho⟩ := h
  rw [HttpContext.parseRequestLine, HttpContext.parseRequestLine, hn]
  cases methodOf (substr c.newLine 0 (scanWhile isToken c.newLine 0 - 0)) with
  | none => exact ⟨hm, hv, rfl, hs, hu, rfl, hi, ho⟩
  | some method =>
      simp only
      split
      · exact ⟨rfl, hv, rfl, hs, rfl, rfl, hi, ho⟩
      · exact ⟨rfl, rfl, rfl, rfl, rfl, rfl, hi, ho⟩

/-- The connection mode is written here, but never read. -/
theorem Reused.parseMessageHeader (h : Reused c d) :
    Reused c.parseMessageHeader d.parseMessageHeader := by
  obtain ⟨hm, hv, hr, hs, hu, hn, hi, ho⟩ := h
  rw [HttpContext.parseMessageHeader, HttpContext.parseMessageHeader, hn]
  split
  · exact ⟨hm, hv, rfl, rfl, hu, rfl, hi, ho⟩
  · simp only
    split
    · split
      · exact ⟨hm, hv, rfl, hs, hu, rfl, hi, ho⟩
      · exact ⟨hm, hv, rfl, hs, hu, rfl, hi, ho⟩
    · exact ⟨hm, hv, rfl, hs, hu, rfl, hi, ho⟩

theorem Reused.parseMessageBody (h : Reused c d) : Reused c.parseMessageBody d.parseMessageBody :=
  ⟨h.method, h.version, rfl, rfl, h.uri, h.newLine, h.input, h.output⟩

theorem Reused.afterLoop (h : Reused c d) (line : LINE_STATE) :
    Reused (c.afterLoop line) (d.afterLoop line) := by
  obtain ⟨hm, hv, hr, hs, hu, hn, hi, ho⟩ := h
  cases line
  · exact ⟨hm, hv, hr, hs, hu, hn, hi, ho⟩
  · exact ⟨hm, hv, rfl, hs, hu, hn, hi, ho⟩
  · exact ⟨hm, hv, rfl, hs, hu, hn, hi, ho⟩

theorem Reused.parseLine (h : Reused c d) :
    d.parseLine.1 = c.parseLine.1 ∧ Reused c.parseLine.2 d.parseLine.2 := by
  refine ⟨by rw [parseLine_state, parseLine_state, h.input],
    h.method, h.version, h.requestState, h.checkState, h.uri, ?_, ?_, h.output⟩
  · rw [parseLine_newLine, parseLine_newLine, h.input]
  · rw [parseLine_content, parseLine_content, h.input]

theorem reused_simulation : Simulation True Reused where
  checkState h := h.checkState
  requestState h := h.requestState
  parseRequestLine h := h.parseRequestLine
  parseMessageHeader h := h.parseMessageHeader
  parseMessageBody h := h.parseMessageBody
  afterLoop h := h.afterLoop
  parseLine h _ := h.parseLine

theorem Reused.append (h : Reused c d) (msg : List UInt8) :
    Reused { c with inputBuffer := c.inputBuffer.append msg }
      { d with inputBuffer := d.inputBuffer.append msg } := by
  refine ⟨h.method, h.version, h.requestState, h.checkState, h.uri, h.newLine, ?_, h.output⟩
  rw [Buffer.content_append, Buffer.content_append, h.input]

theorem Reused.getHttpResponse (h : Reused c d) (now : List UInt8) :
    Reused (c.getHttpResponse now) (d.getHttpResponse now) := by
  refine ⟨h.method, h.version, h.requestState, h.checkState, h.uri, h.newLine, h.input, ?_⟩
  rw [HttpContext.getHttpResponse, HttpContext.getHttpResponse, Buffer.content_append,
    Buffer.content_append, h.output, h.version, h.requestState, h.uri]

/-- **One request.**  Outside END both contexts answer it, and they answer it alike. -/
theorem Reused.deliver (h : Reused c d) (hend : c.checkState ≠ .END) (now request : List UInt8) :
    ∃ c' d', c.deliver now request = some c' ∧ d.deliver now request = some d' ∧ Reused c' d' := by
  have happ := h.append request
  obtain ⟨e, he⟩ := handleHttpRequest_total
    (c := { c with inputBuffer := c.inputBuffer.append request }) hend
  obtain ⟨hline, hnext⟩ := happ.parseLine
  obtain ⟨f, hrun, hef⟩ := (handleHttpRequest_sound he).simulate reused_simulation _ hnext
    (Or.inl trivial)
  have hf : ({ d with inputBuffer := d.inputBuffer.append request } :
      HttpContext).handleHttpRequest = some f := by
    refine handleHttpRequest_of_parseRun ?_ ?_
    · rw [happ.checkState]
      exact hend
    · rw [hline]
      exact hrun
  exact ⟨_, _, by rw [HttpContext.deliver, work, he]; rfl, by rw [HttpContext.deliver, work, hf]; rfl,
    hef.getHttpResponse now⟩

/-! ### Rounds -/

/-- A kernel with room for everything takes everything. -/
theorem taken_count (n : ℕ) : WriteScript.taken [.count n] n = n := by
  cases n with
  | zero => rfl
  | succ n => simp [WriteScript.taken]

/-- A full drain leaves nothing. -/
theorem content_drain (writes : List WriteScript) (b : Buffer) : (drain writes b).content = [] := by
  rw [drain, Buffer.content_writeToFd, taken_count, List.drop_length]

/-- **`reset` forgets the request**, whatever the state the parser left the context in. -/
theorem reused_reset (c : HttpContext) (writes : List WriteScript) :
    Reused fresh (reset { c with outputBuffer := drain writes c.outputBuffer }) := by
  refine ⟨rfl, rfl, rfl, rfl, rfl, rfl, ?_, ?_⟩
  · rw [reset, fresh, init, Buffer.content_retrieveAll, Buffer.content_init]
  · rw [reset, fresh, init, Buffer.content_init]
    exact content_drain writes c.outputBuffer

theorem fresh_ne_END : fresh.checkState ≠ .END := by decide

/-- A round takes a context that counts as fresh to one that does. -/
theorem exchange_reused (h : Reused fresh c) (x : Exchange) :
    ∃ d, c.exchange x = some d ∧ Reused fresh d := by
  obtain ⟨-, e, -, he, -⟩ := h.deliver fresh_ne_END x.now x.request
  exact ⟨_, by rw [exchange, he]; rfl, reused_reset e x.writes⟩

theorem exchanges_reused (history : List Exchange) :
    ∀ c, Reused fresh c → ∃ d, history.foldlM exchange c = some d ∧ Reused fresh d := by
  induction history with
  | nil => exact fun c hc => ⟨c, rfl, hc⟩
  | cons x history ih =>
      intro c hc
      obtain ⟨d, hd, hfresh⟩ := exchange_reused hc x
      obtain ⟨e, he, hfresh'⟩ := ih d hfresh
      refine ⟨e, ?_, hfresh'⟩
      rw [List.foldlM_cons, hd]
      exact he

/-- **History independence.**  Whatever requests a context has served, well-formed, malformed or
incomplete, it answers the next one as a context that has served none. -/
theorem history_independent (history : List Exchange) (now request : List UInt8) :
    ∃ used answered answered', history.foldlM exchange fresh = some used ∧
      deliver now used request = some answered ∧ deliver now fresh request = some answered' ∧
      answered.outputBuffer.content = answered'.outputBuffer.content ∧
      answered.requestState = answered'.requestState ∧ answered.method = answered'.method ∧
      answered.version = answered'.version ∧ answered.uri = answered'.uri := by
  obtain ⟨used, hused, hfresh⟩ := exchanges_reused history fresh
    ⟨rfl, rfl, rfl, rfl, rfl, rfl, rfl, rfl⟩
  obtain ⟨d', d, hd', hd, hdd⟩ := hfresh.deliver fresh_ne_END now request
  exact ⟨used, d, d', hused, hd, hd', hdd.output, hdd.requestState, hdd.method, hdd.version, hdd.uri⟩

end HttpContext

end WServer
