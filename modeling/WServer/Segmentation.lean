import WServer.WellFormedRequest

/-!
# A request in pieces

`deliver` appends a chunk to the input buffer and runs `work`, as the connection does for every drain
of its socket.  The parser keeps its state between the calls, so the pieces of a request add up; the
response generator has none, and answers a request of which a part is missing.

* `deliver_incomplete` — a part of a request that is not the whole of it is answered `400 Bad Request`;
* `delivered_ne_of_split` — so a request in several chunks is not answered as one in a single chunk;
* `segmentation_independent_iff` — the division of a request does not show in the output exactly when
  it has one chunk.
-/

namespace WServer

namespace HttpContext

/-- A chunk arrives and `work` runs. -/
def deliver (now : List UInt8) (c : HttpContext) (chunk : List UInt8) : Option HttpContext :=
  work now { c with inputBuffer := c.inputBuffer.append chunk }

/-- The output after the chunks arrived one at a time. -/
def delivered (now : List UInt8) (c : HttpContext) (chunks : List (List UInt8)) :
    Option (List UInt8) :=
  (chunks.foldlM (deliver now) c).map fun d => d.outputBuffer.content

end HttpContext

/-- A context between two requests. -/
structure IdleContext extends HttpContext where
  idle : toHttpContext.checkState = .REQUEST_LINE
  empty : toHttpContext.inputBuffer.content = []

/-- The context of a connection that has received nothing. -/
def IdleContext.fresh : IdleContext := ⟨HttpContext.init Buffer.init Buffer.init, rfl, rfl⟩

/-- A request without `Connection` headers. -/
structure PlainRequest extends Request where
  plain : ∀ h ∈ headers, ¬ IsConnectionHeader h

theorem PlainRequest.consistent (r : PlainRequest) : r.toRequest.Consistent :=
  fun h hh hc => absurd hc (r.plain h hh)

/-- A division of a request into chunks that are not empty. -/
structure Division (r : Request) where
  chunks : List (List UInt8)
  chunk_ne_nil : ∀ x ∈ chunks, x ≠ []
  flatten_eq : chunks.flatten = r.bytes

/-! ### The status code of an answer -/

namespace HttpContext

def badRequestText : List UInt8 :=
  ascii "400 Bad Request\r\n" ++ ascii "Connection: close\r\n" ++ ascii "\r\n"

/-- The three digits behind the version. -/
def statusCode (answer : List UInt8) : List UInt8 := (answer.drop 9).take 3

theorem versionText_length (v : HTTP_VERSION) : (versionText v).length = 9 := by
  cases v <;> decide

theorem statusCode_append (v : HTTP_VERSION) (text : List UInt8) :
    statusCode (versionText v ++ text) = text.take 3 := by
  rw [statusCode, ← versionText_length v, List.drop_left]

/-- A complete request is answered with 200 or 404. -/
theorem answerText_code (uri now : List UInt8) :
    (answerText uri now).take 3 = ascii "200" ∨ (answerText uri now).take 3 = ascii "404" := by
  rw [answerText]
  split
  · exact Or.inl rfl
  · split
    · exact Or.inl rfl
    · split
      · exact Or.inl rfl
      · exact Or.inr rfl

theorem badRequestText_code : badRequestText.take 3 = ascii "400" := rfl

/-- A verdict other than a complete request is answered with 400. -/
theorem response_incomplete {s : REQUEST_STATE} (hs : s = .NO_REQUEST ∨ s = .BAD_REQUEST)
    (v : HTTP_VERSION) (uri now : List UInt8) :
    response v s uri now = versionText v ++ badRequestText := by
  rcases hs with rfl | rfl
  · rfl
  · rfl

/-- Bytes that start with a 400 are not an answer to a complete request. -/
theorem answer_ne_badRequest (v v' : HTTP_VERSION) (uri now more : List UInt8) :
    versionText v ++ answerText uri now ≠ versionText v' ++ (badRequestText ++ more) := by
  intro h
  have hcode := congrArg statusCode h
  rw [statusCode_append, statusCode_append,
    List.take_append_of_le_length (show 3 ≤ badRequestText.length by decide),
    badRequestText_code] at hcode
  rcases answerText_code uri now with h200 | h404
  · rw [h200] at hcode
    revert hcode
    decide
  · rw [h404] at hcode
    revert hcode
    decide

/-! ### One chunk -/

variable {c d : HttpContext} {now : List UInt8}

/-- `work` appends the response to what the parser leaves. -/
theorem work_output (now : List UInt8) {e : HttpContext} (he : c.handleHttpRequest = some e) :
    ∃ d, c.work now = some d ∧
      d.outputBuffer.content
        = c.outputBuffer.content ++ response e.version e.requestState e.uri now :=
  ⟨e.getHttpResponse now, by rw [work, he]; rfl, content_getHttpResponse now he⟩

/-- A delivery only appends to the output. -/
theorem deliver_grows {chunk : List UInt8} (h : deliver now c chunk = some d) :
    c.outputBuffer.content <+: d.outputBuffer.content := by
  obtain ⟨e, he, -⟩ := work_some h
  obtain ⟨d', hd', hout⟩ := work_output now he
  rw [deliver, hd'] at h
  cases h
  exact ⟨_, hout.symm⟩

/-- Deliveries only append to the output. -/
theorem foldlM_deliver_grows (chunks : List (List UInt8)) :
    ∀ c d : HttpContext, chunks.foldlM (deliver now) c = some d →
      c.outputBuffer.content <+: d.outputBuffer.content := by
  induction chunks with
  | nil =>
      intro c d h
      cases h
      exact List.prefix_rfl
  | cons x chunks ih =>
      intro c d h
      rw [List.foldlM_cons] at h
      obtain ⟨e, he, hrest⟩ := Option.bind_eq_some_iff.mp h
      exact (deliver_grows he).trans (ih e d hrest)

/-- **An incomplete request is answered.**  A part of a request that is not the whole of it makes the
response generator append a `400 Bad Request`. -/
theorem deliver_incomplete (now : List UInt8) (i : IdleContext) (r : Request) (hcons : r.Consistent)
    {x t : List UInt8} (ht : t ≠ []) (hx : x ++ t = r.bytes) :
    ∃ d v, deliver now i.toHttpContext x = some d ∧
      d.outputBuffer.content = i.outputBuffer.content ++ (versionText v ++ badRequestText) := by
  set c₁ := { i.toHttpContext with inputBuffer := i.inputBuffer.append x } with hc₁
  set c₂ := { i.toHttpContext with inputBuffer := i.inputBuffer.append r.bytes } with hc₂
  have hin₁ : c₁.inputBuffer.content = x := by rw [hc₁, Buffer.content_append, i.empty]; rfl
  have hin₂ : c₂.inputBuffer.content = r.bytes := by rw [hc₂, Buffer.content_append, i.empty]; rfl
  have hstart : c₁.checkState ≠ .END := by
    rw [show c₁.checkState = .REQUEST_LINE from i.idle]
    decide
  obtain ⟨e, he⟩ := handleHttpRequest_total hstart
  have hout := (handleHttpRequest_sound he).outcome hstart
  have hend : e.checkState ≠ .END := by
    -- were the part a complete request, the whole would leave `t` unread
    intro hend
    have hbehind : Behind t c₁ c₂ :=
      ⟨⟨rfl, rfl, rfl, rfl, rfl, rfl, rfl⟩, by rw [hin₁, hin₂, hx], rfl⟩
    obtain ⟨e', he', hleft⟩ := handleHttpRequest_extend hstart he hend hbehind
    obtain ⟨e'', he'', hread⟩ := parse_request (c := c₂) r [] hcons i.idle
      (by rw [hin₂, List.append_nil])
    rw [he'] at he''
    cases he''
    have hempty := hleft.input
    rw [hread.input] at hempty
    exact ht (List.append_eq_nil_iff.mp hempty.symm).2
  have hverdict : e.requestState = .NO_REQUEST ∨ e.requestState = .BAD_REQUEST := by
    rcases hout.verdict with hget | hrest
    · exact absurd (hout.complete_iff.mp hget) hend
    · exact hrest
  obtain ⟨d, hd, hcontent⟩ := work_output now he
  exact ⟨d, e.version, hd, by rw [hcontent, response_incomplete hverdict]⟩

/-- A whole request in one chunk is answered with 200 or 404. -/
theorem deliver_whole (now : List UInt8) (i : IdleContext) (r : Request) (hcons : r.Consistent) :
    ∃ d, deliver now i.toHttpContext r.bytes = some d ∧
      d.outputBuffer.content
        = i.outputBuffer.content ++ (versionText r.version ++ answerText r.uri now) := by
  set c₂ := { i.toHttpContext with inputBuffer := i.inputBuffer.append r.bytes } with hc₂
  obtain ⟨e, he, hread⟩ := parse_request (c := c₂) r [] hcons i.idle
    (by rw [hc₂, Buffer.content_append, i.empty, List.append_nil, List.nil_append])
  obtain ⟨d, hd, hcontent⟩ := work_output now he
  refine ⟨d, hd, ?_⟩
  rw [hcontent, hread.version, hread.complete, hread.uri]
  rfl

/-! ### All chunks -/

/-- **A division shows.**  A request that arrives in several chunks is not answered as a request that
arrives in one. -/
theorem delivered_ne_of_split (i : IdleContext) (r : Request) (hcons : r.Consistent)
    {x : List UInt8} {rest : List (List UInt8)} (hrest : rest.flatten ≠ [])
    (hflat : (x :: rest).flatten = r.bytes) :
    delivered now i.toHttpContext (x :: rest) ≠ delivered now i.toHttpContext [r.bytes] := by
  intro heq
  obtain ⟨d, v, hd, hdout⟩ := deliver_incomplete now i r hcons hrest hflat
  obtain ⟨e, he, heout⟩ := deliver_whole now i r hcons
  rw [delivered, delivered, List.foldlM_cons, List.foldlM_cons, hd, he] at heq
  obtain ⟨f, hf, hfout⟩ : ∃ f, rest.foldlM (deliver now) d = some f ∧
      f.outputBuffer.content = e.outputBuffer.content := by
    have : (rest.foldlM (deliver now) d).map (fun d => d.outputBuffer.content)
        = some e.outputBuffer.content := heq
    exact Option.map_eq_some_iff.mp this
  -- the later chunks leave the answer to the first one in place
  obtain ⟨more, hmore⟩ := foldlM_deliver_grows rest d f hf
  rw [hdout, hfout, heout, List.append_assoc, List.append_assoc] at hmore
  exact answer_ne_badRequest r.version v r.uri now more (List.append_cancel_left hmore).symm

/-- **Segmentation.**  However a well-formed request is divided into chunks, the output is that of a
single delivery exactly when there is one chunk. -/
theorem segmentation_independent_iff (now : List UInt8) (i : IdleContext) (r : PlainRequest)
    (p : Division r.toRequest) :
    delivered now i.toHttpContext p.chunks = delivered now i.toHttpContext [r.bytes] ↔
      p.chunks.length = 1 := by
  obtain ⟨chunks, hne, hflat⟩ := p
  cases chunks with
  | nil =>
      -- a request is not empty
      have hlen := congrArg List.length hflat
      rw [Request.bytes, wireLines_cons] at hlen
      simp at hlen
  | cons x rest =>
      cases rest with
      | nil =>
          have hx : x = r.bytes := by simpa using hflat
          simp [hx]
      | cons y rest =>
          have hy : y ≠ [] := hne y (by simp)
          refine iff_of_false (delivered_ne_of_split i r.toRequest r.consistent ?_ hflat) ?_
          · rw [List.flatten_cons]
            exact fun h => hy (List.append_eq_nil_iff.mp h).1
          · simp

/-- The request `GET / HTTP/1.1` without headers. -/
def rootRequest : PlainRequest where
  method := .GET
  uri := ascii "/"
  version := .HTTP_1_1
  headers := []
  uri_ne_nil := rootUri_ne_nil
  uri_bytes := rootUri_bytes
  header_ne_nil := List.forall_mem_nil _
  header_bytes := List.forall_mem_nil _
  plain := List.forall_mem_nil _

/-- Its request line and its empty line as two chunks. -/
def rootDivision : Division rootRequest.toRequest where
  chunks := [ascii "GET / HTTP/1.1\r\n", ascii "\r\n"]
  chunk_ne_nil := by decide
  flatten_eq := by decide

/-- The request in two chunks gets another answer than in one. -/
theorem segmentation_dependent :
    delivered [] IdleContext.fresh.toHttpContext rootDivision.chunks
      ≠ delivered [] IdleContext.fresh.toHttpContext [rootRequest.bytes] :=
  delivered_ne_of_split IdleContext.fresh rootRequest.toRequest rootRequest.consistent (by decide)
    rootDivision.flatten_eq

end HttpContext

end WServer
