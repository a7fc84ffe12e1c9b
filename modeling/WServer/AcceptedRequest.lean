import WServer.WellFormedRequest

/-!
# The requests the parser accepts

Which bytes make `handleHttpRequest` end with a complete request, said without its loop: they start with
lines ended by CR LF, each of which the parser's line functions take, and the last of which, and no
other, ends the headers.

* `takeLine` — one line, `ReadsRequest` — the lines of a request;
* `complete_sound` — a call that completes a request has found such lines at the start of its input;
* `complete_iff` — and there is no other way.
-/

namespace WServer

namespace HttpContext

/-- The context after a line has been taken in its check state. -/
def takeLine (c : HttpContext) (line : List UInt8) : HttpContext :=
  if c.checkState = .REQUEST_LINE then
    ({ c with newLine := line ++ [NUL, NUL] } : HttpContext).parseRequestLine
  else ({ c with newLine := line ++ [NUL, NUL] } : HttpContext).parseMessageHeader

/-- The lines take the context `c` to the end of the headers of a request, and leave `d`. -/
inductive ReadsRequest : HttpContext → List (List UInt8) → HttpContext → Prop where
  | last {c : HttpContext} {line : List UInt8} : c.checkState = .HEADER →
      (c.takeLine line).requestState ≠ .BAD_REQUEST → (c.takeLine line).checkState = .BODY →
      ReadsRequest c [line] (c.takeLine line)
  | more {c d : HttpContext} {line : List UInt8} {lines : List (List UInt8)} :
      (c.takeLine line).requestState ≠ .BAD_REQUEST → (c.takeLine line).checkState = .HEADER →
      ReadsRequest (c.takeLine line) lines d → ReadsRequest c (line :: lines) d

/-- The content starts with complete lines, `rest` follows. -/
structure Holds (content : List UInt8) (lines : List (List UInt8)) (rest : List UInt8) : Prop where
  content_eq : content = wireLines lines ++ rest
  line_bytes : ∀ line ∈ lines, CR ∉ line

/-- The check states in which a request may be continued. -/
def Receiving (c : HttpContext) : Prop := c.checkState = .REQUEST_LINE ∨ c.checkState = .HEADER

variable {c d c' : HttpContext} {line content rest : List UInt8} {lines : List (List UInt8)}

theorem Receiving.ne_END (h : Receiving c) : c.checkState ≠ .END := by
  rcases h with h | h <;> rw [h] <;> decide

theorem Holds.nil (rest : List UInt8) : Holds rest [] rest := ⟨rfl, by simp⟩

theorem Holds.cons (h : LineCut content line rest) {rest' : List UInt8} (ht : Holds rest lines rest') :
    Holds content (line :: lines) rest' := by
  refine ⟨?_, List.forall_mem_cons.mpr ⟨h.2, ht.line_bytes⟩⟩
  rw [h.1, ht.content_eq, wireLines_cons, List.append_assoc]
  rfl

theorem Holds.lineCut (h : Holds content (line :: lines) rest) :
    LineCut content line (wireLines lines ++ rest) := by
  rw [h.content_eq]
  exact lineCut_wireLines (h.line_bytes line (by simp)) lines rest

theorem Holds.tail (h : Holds content (line :: lines) rest) :
    Holds (wireLines lines ++ rest) lines rest :=
  ⟨rfl, fun l hl => h.line_bytes l (by simp [hl])⟩

/-- Contexts alike, except that `d` has just extracted a line. -/
theorem Alike.extracted (h : Alike c d) (hline : d.parseLine.2.newLine = line ++ [NUL, NUL]) :
    Alike { c with newLine := line ++ [NUL, NUL] } d.parseLine.2 :=
  ⟨h.method, h.version, h.connection, h.requestState, h.checkState, h.uri, hline⟩

theorem takeLine_requestLine (hs : c.checkState = .REQUEST_LINE)
    (h : Alike { c with newLine := line ++ [NUL, NUL] } d) :
    Alike (c.takeLine line) d.parseRequestLine := by
  rw [takeLine, if_pos hs]
  exact h.parseRequestLine

theorem takeLine_header (hs : c.checkState = .HEADER)
    (h : Alike { c with newLine := line ++ [NUL, NUL] } d) :
    Alike (c.takeLine line) d.parseMessageHeader := by
  rw [takeLine, if_neg (by rw [hs]; decide)]
  exact h.parseMessageHeader

/-- A line whose extraction the parser goes on with after the context was left as `d`. -/
theorem next_line (h : d.parseLine.1 = .OK) :
    ∃ line, LineCut d.inputBuffer.content line d.parseLine.2.inputBuffer.content ∧
      d.parseLine.2.newLine = line ++ [NUL, NUL] := by
  obtain ⟨line, rest, hcut⟩ := (parseLine_ok_iff d).mp h
  obtain ⟨-, hnew, hleft⟩ := parseLine_of_lineCut hcut
  exact ⟨line, by rw [hleft]; exact hcut, hnew⟩

/-- From the line just extracted on, the lines of a request are taken, which leaves `c'`; those that
follow are found at the start of the input of `d`. -/
def ReadsOn (c : HttpContext) (line : List UInt8) (d c' : HttpContext) : Prop :=
  ∃ lines e, ReadsRequest c (line :: lines) e ∧ Alike e.parseMessageBody c' ∧
    Holds d.inputBuffer.content lines c'.inputBuffer.content

/-- A line taken before the end of the headers is one more line of the request that the rest of the run
reads. -/
theorem readsOn_more (htake : Alike (c.takeLine line) d) (hok : d.requestState ≠ .BAD_REQUEST)
    (hhead : d.checkState = .HEADER) (hline : d.parseLine.1 = .OK)
    (ih : ∀ next, Alike { c.takeLine line with newLine := next ++ [NUL, NUL] } d.parseLine.2 →
      ReadsOn (c.takeLine line) next d.parseLine.2 c') : ReadsOn c line d c' := by
  obtain ⟨next, hcut, hnew⟩ := next_line hline
  obtain ⟨lines, e, hreads, he, hholds⟩ := ih next (htake.extracted hnew)
  refine ⟨next :: lines, e, .more ?_ ?_ hreads, he, Holds.cons hcut hholds⟩
  · rw [← htake.requestState]
    exact hok
  · rw [← htake.checkState]
    exact hhead

/-- **Soundness**, from a line just extracted: the run of the loop takes this line and lines found at the
start of the input left. -/
theorem ParseRun.reads {state : LINE_STATE} (h : ParseRun state d c') :
    ∀ (c : HttpContext) (line : List UInt8), Receiving d → c'.checkState = .END →
      Alike { c with newLine := line ++ [NUL, NUL] } d → ReadsOn c line d c' := by
  induction h with
  | @exit state d hline =>
      intro c line hd hend _
      refine absurd hend ?_
      rw [show (d.afterLoop state).checkState = d.checkState by cases state <;> rfl]
      exact hd.ne_END
  | badRequestLine hcs hbad =>
      intro c line hd hend _
      rcases parseRequestLine_cases _ with ⟨_, hsame⟩ | ⟨hno, _⟩
      · rw [hend, hcs] at hsame
        cases hsame
      · rw [hno] at hbad
        cases hbad
  | @requestLine d c' hcs hok hrest ih =>
      intro c line hd hend halike
      have hhead : d.parseRequestLine.checkState = .HEADER := by
        rcases parseRequestLine_cases d with ⟨hb, _⟩ | ⟨_, hh⟩
        · exact absurd hb hok
        · exact hh
      have hhead' : d.parseRequestLine.parseLine.2.checkState = .HEADER := by
        rw [parseLine_checkState, hhead]
      have htake := takeLine_requestLine (by rw [← hcs]; exact halike.checkState.symm) halike
      have hmore := readsOn_more htake hok hhead (hrest.line_ok (by rw [hhead']; decide) hend)
        fun next hnext => ih _ next (Or.inr hhead') hend hnext
      rwa [ReadsOn, parseRequestLine_inputBuffer] at hmore
  | badHeader hcs hbad =>
      intro c line hd hend _
      rcases parseMessageHeader_cases _ with ⟨_, hsame⟩ | ⟨hno, _⟩
      · rw [hend, hcs] at hsame
        cases hsame
      · rw [hno] at hbad
        cases hbad
  | @header d c' hcs hok hbody hrest ih =>
      intro c line hd hend halike
      have hhead : d.parseMessageHeader.checkState = .HEADER := by
        rcases parseMessageHeader_cases d with ⟨hb, _⟩ | ⟨_, hh | hh⟩
        · exact absurd hb hok
        · rw [hh, hcs]
        · exact absurd hh hbody
      have hhead' : d.parseMessageHeader.parseLine.2.checkState = .HEADER := by
        rw [parseLine_checkState, hhead]
      have htake := takeLine_header (by rw [← hcs]; exact halike.checkState.symm) halike
      have hmore := readsOn_more htake hok hhead (hrest.line_ok (by rw [hhead']; decide) hend)
        fun next hnext => ih _ next (Or.inr hhead') hend hnext
      rwa [ReadsOn, parseMessageHeader_inputBuffer] at hmore
  | @lastHeader d hcs hok hbody =>
      intro c line hd hend halike
      have hc : c.checkState = .HEADER := by
        rw [← hcs]
        exact halike.checkState.symm
      have htake := takeLine_header hc halike
      refine ⟨[], _, .last hc ?_ ?_, htake.parseMessageBody, ?_⟩
      · rw [← htake.requestState]
        exact hok
      · rw [← htake.checkState]
        exact hbody
      · rw [show d.parseMessageHeader.parseMessageBody.inputBuffer = d.inputBuffer from
          parseMessageHeader_inputBuffer d]
        exact Holds.nil _
  | body hcs =>
      intro c line hd _ _
      rcases hd with hd | hd
      · rw [hcs] at hd
        cases hd
      · rw [hcs] at hd
        cases hd

/-- **Soundness.**  A call that completes a request has found its lines at the start of the input, and
leaves what follows them. -/
theorem complete_sound (hc : Receiving c) (h : c.handleHttpRequest = some c')
    (hend : c'.checkState = .END) :
    ∃ lines e, Holds c.inputBuffer.content lines c'.inputBuffer.content ∧
      ReadsRequest c lines e ∧ Alike e.parseMessageBody c' := by
  have hrun := handleHttpRequest_sound h
  obtain ⟨line, hcut, hnew⟩ := next_line (hrun.line_ok hc.ne_END hend)
  obtain ⟨lines, e, hreads, he, hholds⟩ := hrun.reads c line hc hend
    ⟨rfl, rfl, rfl, rfl, rfl, rfl, hnew⟩
  exact ⟨line :: lines, e, Holds.cons hcut hholds, hreads, he⟩

/-- **Completeness**, along the lines of a request. -/
theorem ReadsRequest.parseRun (h : ReadsRequest c lines d) :
    ∀ (e : HttpContext) (rest : List UInt8), Receiving c → Alike c e →
      Holds e.inputBuffer.content lines rest →
      ∃ c', ParseRun e.parseLine.1 e.parseLine.2 c' ∧ Alike d.parseMessageBody c' ∧
        c'.inputBuffer.content = rest := by
  induction h with
  | @last c line hcs hok hbody =>
      intro e rest _ halike hholds
      obtain ⟨hstate, hnew, hleft⟩ := parseLine_of_lineCut hholds.lineCut
      have htake := takeLine_header hcs (halike.extracted hnew)
      have hrun : ParseRun .OK e.parseLine.2 e.parseLine.2.parseMessageHeader.parseMessageBody := by
        refine .lastHeader ?_ ?_ ?_
        · rw [parseLine_checkState, halike.checkState, hcs]
        · rw [htake.requestState]
          exact hok
        · rw [htake.checkState]
          exact hbody
      refine ⟨_, by rw [hstate]; exact hrun, htake.parseMessageBody, ?_⟩
      rw [show e.parseLine.2.parseMessageHeader.parseMessageBody.inputBuffer
        = e.parseLine.2.inputBuffer from parseMessageHeader_inputBuffer _, hleft]
      rfl
  | @more c d line lines hok hhead _ ih =>
      intro e rest hc halike hholds
      obtain ⟨hstate, hnew, hleft⟩ := parseLine_of_lineCut hholds.lineCut
      rcases hc with hcs | hcs
      · have htake := takeLine_requestLine hcs (halike.extracted hnew)
        obtain ⟨c', hrun, hd, hrest⟩ := ih e.parseLine.2.parseRequestLine rest (Or.inr hhead) htake
          (by rw [parseRequestLine_inputBuffer, hleft]; exact hholds.tail)
        refine ⟨c', ?_, hd, hrest⟩
        rw [hstate]
        refine .requestLine ?_ ?_ hrun
        · rw [parseLine_checkState, halike.checkState, hcs]
        · rw [htake.requestState]
          exact hok
      · have htake := takeLine_header hcs (halike.extracted hnew)
        obtain ⟨c', hrun, hd, hrest⟩ := ih e.parseLine.2.parseMessageHeader rest (Or.inr hhead) htake
          (by rw [parseMessageHeader_inputBuffer, hleft]; exact hholds.tail)
        refine ⟨c', ?_, hd, hrest⟩
        rw [hstate]
        refine .header ?_ ?_ ?_ hrun
        · rw [parseLine_checkState, halike.checkState, hcs]
        · rw [htake.requestState]
          exact hok
        · rw [htake.checkState, hhead]
          decide

/-- **The accepted requests.**  Outside BODY and END, a call completes a request exactly when the input
starts with the lines of one. -/
theorem complete_iff (hc : Receiving c) :
    (∃ c', c.handleHttpRequest = some c' ∧ c'.checkState = .END) ↔
      ∃ lines rest d, Holds c.inputBuffer.content lines rest ∧ ReadsRequest c lines d := by
  constructor
  · rintro ⟨c', h, hend⟩
    obtain ⟨lines, d, hholds, hreads, -⟩ := complete_sound hc h hend
    exact ⟨lines, _, d, hholds, hreads⟩
  · rintro ⟨lines, rest, d, hholds, hreads⟩
    obtain ⟨c', hrun, hd, -⟩ := hreads.parseRun c rest hc
      ⟨rfl, rfl, rfl, rfl, rfl, rfl, rfl⟩ hholds
    exact ⟨c', handleHttpRequest_of_parseRun hc.ne_END hrun, hd.checkState⟩

/-- The lines found at the start of a well-formed request are its own. -/
theorem ReadsRequest.of_request {r : Request} (hcons : r.Consistent) (hcs : c.checkState = .REQUEST_LINE)
    (hin : c.inputBuffer.content = r.bytes) (hholds : Holds c.inputBuffer.content lines rest)
    (hreads : ReadsRequest c lines d) :
    d.version = r.version ∧ d.uri = r.uri ∧
      d.connection = Request.connectionFrom c.connection r.headers := by
  have hc : Receiving c := Or.inl hcs
  obtain ⟨e, hrun, halike, -⟩ := hreads.parseRun c rest hc ⟨rfl, rfl, rfl, rfl, rfl, rfl, rfl⟩ hholds
  obtain ⟨e', he', hread⟩ := parse_request r [] hcons hcs (by rw [hin, List.append_nil])
  rw [handleHttpRequest_of_parseRun hc.ne_END hrun] at he'
  cases he'
  exact ⟨halike.version.symm.trans hread.version, halike.uri.symm.trans hread.uri,
    halike.connection.symm.trans hread.connection⟩

/-- A call outside BODY and END that does not complete a request stays outside them. -/
theorem ParseRun.receiving {state : LINE_STATE} (h : ParseRun state c c') (hc : Receiving c) :
    Receiving c' ∨ c'.checkState = .END := by
  induction h with
  | @exit state c _ =>
      left
      rw [Receiving, show (c.afterLoop state).checkState = c.checkState by cases state <;> rfl]
      exact hc
  | @badRequestLine c hcs hbad =>
      left
      rcases parseRequestLine_cases c with ⟨_, hh⟩ | ⟨_, hh⟩
      · exact Or.inl (by rw [hh, hcs])
      · exact Or.inr hh
  | @requestLine c c' hcs hok _ ih =>
      apply ih
      rcases parseRequestLine_cases c with ⟨hb, _⟩ | ⟨_, hh⟩
      · exact absurd hb hok
      · exact Or.inr hh
  | @badHeader c hcs hbad =>
      left
      rcases parseMessageHeader_cases c with ⟨_, hh⟩ | ⟨hno, _⟩
      · exact Or.inr (by rw [hh, hcs])
      · rw [hno] at hbad
        cases hbad
  | @header c c' hcs hok hbody _ ih =>
      apply ih
      rcases parseMessageHeader_cases c with ⟨hb, _⟩ | ⟨_, hh | hh⟩
      · exact absurd hb hok
      · exact Or.inr (by rw [parseLine_checkState, hh, hcs])
      · exact absurd hh hbody
  | lastHeader _ _ _ => exact Or.inr rfl
  | body _ => exact Or.inr rfl

theorem handleHttpRequest_receiving (hc : Receiving c) (h : c.handleHttpRequest = some c') :
    Receiving c' ∨ c'.checkState = .END :=
  (handleHttpRequest_sound h).receiving hc

end HttpContext

end WServer
