import WServer.HttpContext

/-!
# Runs of the request parser

What one call of `handleHttpRequest` does, seen line by line.

* `lineCut`, `parseLine_ok_iff` — a line is complete exactly when the content starts with a body free
  of CR followed by CR LF; extracting it consumes exactly that;
* `ParseRun` — the big-step relation of the parsing loop: one rule for each way around the loop and
  each way out of it;
* `parseLoop_sound`, `parseRun_unique` — the loop, run with fuel, follows the relation, and the
  relation has one outcome;
* `handleHttpRequest_total` — outside check state END one unit of fuel a byte, and two more, suffice;
  `terminates_iff` — in END the loop never comes to an end once a line is complete;
* `ParseRun.outcome` — a call ends with a complete request, or reports that there is none yet or that
  it is bad;
* `ParseRun.extend` — a completed request does not depend on the bytes behind it.
-/

namespace WServer

open Library.Segments

namespace HttpContext

/-! ### One line -/

/-- The content starts with the line `body`, ended by CR LF and free of any other CR; `rest` follows. -/
def LineCut (content body rest : List UInt8) : Prop :=
  content = body ++ CR :: LF :: rest ∧ CR ∉ body

theorem LineCut.length {content body rest : List UInt8} (h : LineCut content body rest) :
    rest.length + 2 ≤ content.length := by
  rw [h.1, List.length_append, List.length_cons, List.length_cons]
  omega

theorem LineCut.append {content body rest : List UInt8} (h : LineCut content body rest)
    (t : List UInt8) : LineCut (content ++ t) body (rest ++ t) := by
  refine ⟨?_, h.2⟩
  rw [h.1, List.append_assoc]
  rfl

theorem scanLine_cons {c d : UInt8} (rest : List UInt8) (h : c ≠ CR) :
    scanLine (c :: d :: rest) = ((scanLine (d :: rest)).1, c :: (scanLine (d :: rest)).2) := by
  rw [scanLine, if_neg h]

/-- Bytes that are no CR are passed over. -/
theorem scanLine_append {body l : List UInt8} (h : CR ∉ body) (hl : l ≠ []) :
    scanLine (body ++ l) = ((scanLine l).1, body ++ (scanLine l).2) := by
  induction body with
  | nil => rfl
  | cons b body ih =>
      rw [List.mem_cons, not_or] at h
      obtain ⟨d, tail, htail⟩ := List.exists_cons_of_ne_nil (List.append_ne_nil_of_right_ne_nil body hl)
      rw [List.cons_append, htail, scanLine_cons tail fun hb => h.1 hb.symm, ← htail, ih h.2]
      rfl

/-- A line without CR is open. -/
theorem scanLine_without_cr {body : List UInt8} (h : CR ∉ body) : (scanLine body).1 = .OPEN := by
  induction body with
  | nil => rfl
  | cons b body ih =>
      rw [List.mem_cons, not_or] at h
      cases body with
      | nil => rfl
      | cons d tail =>
          rw [scanLine_cons tail fun hb => h.1 hb.symm]
          exact ih h.2

/-- A line whose only CR starts its CR LF is complete, and both bytes become NUL. -/
theorem scanLine_body {body : List UInt8} (h : CR ∉ body) :
    scanLine (body ++ [CR, LF]) = (.OK, body ++ [NUL, NUL]) := by
  rw [scanLine_append h (List.cons_ne_nil CR [LF])]
  rfl

/-- A complete line starts with a body free of CR, followed by CR LF. -/
theorem scanLine_ok {line : List UInt8} (h : (scanLine line).1 = .OK) :
    ∃ body rest, line = body ++ CR :: LF :: rest ∧ CR ∉ body := by
  induction line with
  | nil => cases h
  | cons c line ih =>
      cases line with
      | nil => cases h
      | cons d rest =>
          by_cases hc : c = CR
          · subst hc
            by_cases hd : d = LF
            · subst hd
              exact ⟨[], rest, rfl, by simp⟩
            · rw [scanLine, if_pos rfl, if_neg hd] at h
              cases h
          · rw [scanLine_cons rest hc] at h
            obtain ⟨body, rest', heq, hb⟩ := ih h
            refine ⟨c :: body, rest', by rw [heq]; rfl, ?_⟩
            rw [List.mem_cons, not_or]
            exact ⟨fun hcc => hc hcc.symm, hb⟩

variable {c c' d : HttpContext}

@[simp] theorem parseLine_state (c : HttpContext) :
    c.parseLine.1 = (scanLine (firstLine c.inputBuffer.content).1).1 := by
  simp only [parseLine, Buffer.getAnHTTPLine_line]

@[simp] theorem parseLine_newLine (c : HttpContext) :
    c.parseLine.2.newLine = (scanLine (firstLine c.inputBuffer.content).1).2 := by
  simp only [parseLine, Buffer.getAnHTTPLine_line]

@[simp] theorem parseLine_content (c : HttpContext) :
    c.parseLine.2.inputBuffer.content = (firstLine c.inputBuffer.content).2 :=
  Buffer.content_getAnHTTPLine c.inputBuffer

@[simp] theorem parseLine_checkState (c : HttpContext) :
    c.parseLine.2.checkState = c.checkState := rfl

@[simp] theorem parseLine_requestState (c : HttpContext) :
    c.parseLine.2.requestState = c.requestState := rfl

@[simp] theorem parseLine_connection (c : HttpContext) :
    c.parseLine.2.connection = c.connection := rfl

@[simp] theorem parseLine_outputBuffer (c : HttpContext) :
    c.parseLine.2.outputBuffer = c.outputBuffer := rfl

theorem firstLine_of_lineCut {content body rest : List UInt8} (h : LineCut content body rest) :
    firstLine content = (body ++ [CR, LF], rest) := by
  rw [firstLine, h.1, splitAtPair_body rest h.2]

/-- **A complete line** is extracted exactly when the content starts with one. -/
theorem parseLine_ok_iff (c : HttpContext) :
    c.parseLine.1 = .OK ↔ ∃ body rest, LineCut c.inputBuffer.content body rest := by
  rw [parseLine_state]
  refine ⟨fun h => ?_, fun ⟨body, rest, hcut⟩ => ?_⟩
  · obtain ⟨body, tail, hline, hbody⟩ := scanLine_ok h
    rw [firstLine] at hline
    cases hcut : splitAtPair CR LF c.inputBuffer.content with
    | some p =>
        obtain ⟨p, r⟩ := p
        rw [hcut] at hline
        obtain ⟨happ, -⟩ := splitAtPair_some hcut
        refine ⟨body, tail ++ r, ?_, hbody⟩
        rw [← happ]
        show p ++ r = _
        rw [show p = body ++ CR :: LF :: tail from hline, List.append_assoc]
        rfl
    | none =>
        -- without a line end the extractor hands out a prefix of the content
        rw [hcut] at hline
        have hpre : body ++ [CR, LF] <+: c.inputBuffer.content := by
          refine List.IsPrefix.trans ?_ (List.dropLast_prefix _)
          rw [show c.inputBuffer.content.dropLast = body ++ CR :: LF :: tail from hline]
          exact ⟨tail, by rw [List.append_assoc]; rfl⟩
        exact absurd (List.suffix_append body [CR, LF]) (splitAtPair_none hcut hpre)
  · rw [firstLine_of_lineCut hcut]
    exact congrArg Prod.fst (scanLine_body hcut.2)

theorem parseLine_of_lineCut {body rest : List UInt8}
    (h : LineCut c.inputBuffer.content body rest) :
    c.parseLine.1 = .OK ∧ c.parseLine.2.newLine = body ++ [NUL, NUL] ∧
      c.parseLine.2.inputBuffer.content = rest := by
  rw [parseLine_state, parseLine_newLine, parseLine_content, firstLine_of_lineCut h,
    scanLine_body h.2]
  exact ⟨rfl, rfl, rfl⟩

/-! ### The fields a parsing step leaves alone -/

@[simp] theorem parseRequestLine_inputBuffer (c : HttpContext) :
    c.parseRequestLine.inputBuffer = c.inputBuffer := by
  rw [parseRequestLine]
  split
  · rfl
  · simp only
    split <;> rfl

@[simp] theorem parseRequestLine_outputBuffer (c : HttpContext) :
    c.parseRequestLine.outputBuffer = c.outputBuffer := by
  rw [parseRequestLine]
  split
  · rfl
  · simp only
    split <;> rfl

/-- The request line is bad, or the headers are next. -/
theorem parseRequestLine_cases (c : HttpContext) :
    (c.parseRequestLine.requestState = .BAD_REQUEST ∧
        c.parseRequestLine.checkState = c.checkState) ∨
      (c.parseRequestLine.requestState = .NO_REQUEST ∧
        c.parseRequestLine.checkState = .HEADER) := by
  rw [parseRequestLine]
  split
  · exact Or.inl ⟨rfl, rfl⟩
  · simp only
    split
    · exact Or.inl ⟨rfl, rfl⟩
    · exact Or.inr ⟨rfl, rfl⟩

@[simp] theorem parseMessageHeader_inputBuffer (c : HttpContext) :
    c.parseMessageHeader.inputBuffer = c.inputBuffer := by
  rw [parseMessageHeader]
  split
  · rfl
  · simp only
    split
    · split <;> rfl
    · rfl

@[simp] theorem parseMessageHeader_outputBuffer (c : HttpContext) :
    c.parseMessageHeader.outputBuffer = c.outputBuffer := by
  rw [parseMessageHeader]
  split
  · rfl
  · simp only
    split
    · split <;> rfl
    · rfl

/-- A header line is bad, is an ordinary one, or ends the headers. -/
theorem parseMessageHeader_cases (c : HttpContext) :
    (c.parseMessageHeader.requestState = .BAD_REQUEST ∧
        c.parseMessageHeader.checkState = c.checkState) ∨
      (c.parseMessageHeader.requestState = .NO_REQUEST ∧
        (c.parseMessageHeader.checkState = c.checkState ∨
          c.parseMessageHeader.checkState = .BODY)) := by
  rw [parseMessageHeader]
  split
  · exact Or.inr ⟨rfl, Or.inr rfl⟩
  · simp only
    split
    · split
      · exact Or.inr ⟨rfl, Or.inl rfl⟩
      · exact Or.inl ⟨rfl, rfl⟩
    · exact Or.inr ⟨rfl, Or.inl rfl⟩

/-! ### The loop as a relation -/

/-- `ParseRun line c c'`: with the line just extracted in state `line`, the loop started in `c` ends
in `c'`. -/
inductive ParseRun : LINE_STATE → HttpContext → HttpContext → Prop where
  /-- No complete line. -/
  | exit {line : LINE_STATE} {c : HttpContext} : line ≠ .OK → ParseRun line c (c.afterLoop line)
  | badRequestLine {c : HttpContext} : c.checkState = .REQUEST_LINE →
      c.parseRequestLine.requestState = .BAD_REQUEST → ParseRun .OK c c.parseRequestLine
  | requestLine {c c' : HttpContext} : c.checkState = .REQUEST_LINE →
      c.parseRequestLine.requestState ≠ .BAD_REQUEST →
      ParseRun c.parseRequestLine.parseLine.1 c.parseRequestLine.parseLine.2 c' → ParseRun .OK c c'
  | badHeader {c : HttpContext} : c.checkState = .HEADER →
      c.parseMessageHeader.requestState = .BAD_REQUEST → ParseRun .OK c c.parseMessageHeader
  | header {c c' : HttpContext} : c.checkState = .HEADER →
      c.parseMessageHeader.requestState ≠ .BAD_REQUEST →
      c.parseMessageHeader.checkState ≠ .BODY →
      ParseRun c.parseMessageHeader.parseLine.1 c.parseMessageHeader.parseLine.2 c' →
      ParseRun .OK c c'
  /-- The headers end, and with them the request. -/
  | lastHeader {c : HttpContext} : c.checkState = .HEADER →
      c.parseMessageHeader.requestState ≠ .BAD_REQUEST →
      c.parseMessageHeader.checkState = .BODY →
      ParseRun .OK c c.parseMessageHeader.parseMessageBody
  | body {c : HttpContext} : c.checkState = .BODY → ParseRun .OK c c.parseMessageBody

/-- The round of the loop in check state BODY is its last one. -/
theorem parseLoop_body {fuel : ℕ} (h : c.checkState = .BODY) :
    parseLoop (fuel + 1) .OK c = some c.parseMessageBody := by
  simp [parseLoop, h, parseMessageBody, afterLoop]

/-- **The loop follows the relation.** -/
theorem parseLoop_sound :
    ∀ (fuel : ℕ) (line : LINE_STATE) (c c' : HttpContext), parseLoop fuel line c = some c' →
      ParseRun line c c' := by
  intro fuel
  induction fuel with
  | zero => intro line c c' h; cases h
  | succ fuel ih =>
      intro line c c' h
      by_cases hline : line = .OK
      · subst hline
        cases hcs : c.checkState with
        | REQUEST_LINE =>
            rw [parseLoop, if_pos rfl, hcs] at h
            simp only at h
            split at h
            · cases h
              exact .badRequestLine hcs ‹_›
            · exact .requestLine hcs ‹_› (ih _ _ _ h)
        | HEADER =>
            rw [parseLoop, if_pos rfl, hcs] at h
            simp only at h
            split at h
            · cases h
              exact .badHeader hcs ‹_›
            · split at h
              · exact .header hcs ‹_› ‹_› (ih _ _ _ h)
              · rename_i hbad hbody
                rw [ne_eq, not_not] at hbody
                cases fuel with
                | zero => cases h
                | succ fuel =>
                    rw [parseLoop_body hbody] at h
                    cases h
                    exact .lastHeader hcs hbad hbody
        | BODY =>
            rw [parseLoop_body hcs] at h
            cases h
            exact .body hcs
        | END =>
            rw [parseLoop, if_pos rfl, hcs] at h
            have := ih _ _ _ h
            exact this
      · rw [parseLoop, if_neg hline] at h
        cases h
        exact .exit hline

/-- **One outcome.**  Two runs of the loop from one state end in the same state. -/
theorem parseRun_unique {line : LINE_STATE} {c₁ c₂ : HttpContext} (h₁ : ParseRun line c c₁) :
    ParseRun line c c₂ → c₁ = c₂ := by
  induction h₁ with
  | exit hline =>
      intro h₂
      cases h₂ <;> first | rfl | exact absurd rfl hline
  | badRequestLine hcs hbad =>
      intro h₂
      cases h₂ <;> simp_all
  | requestLine hcs hok _ ih =>
      intro h₂
      cases h₂ with
      | requestLine _ _ hrest => exact ih hrest
      | _ => simp_all
  | badHeader hcs hbad =>
      intro h₂
      cases h₂ <;> simp_all
  | header hcs hok hbody _ ih =>
      intro h₂
      cases h₂ with
      | header _ _ _ hrest => exact ih hrest
      | _ => simp_all
  | lastHeader hcs hok hbody =>
      intro h₂
      cases h₂ <;> simp_all
  | body hcs =>
      intro h₂
      cases h₂ <;> simp_all

/-! ### The loop comes to an end -/

theorem parseLine_shortens (h : c.parseLine.1 = .OK) :
    c.parseLine.2.inputBuffer.content.length + 2 ≤ c.inputBuffer.content.length := by
  obtain ⟨body, rest, hcut⟩ := (parseLine_ok_iff c).mp h
  rw [(parseLine_of_lineCut hcut).2.2]
  exact hcut.length

/-- Outside END every round but the last consumes a line, so the bytes left bound the rounds. -/
theorem parseLoop_total :
    ∀ (fuel : ℕ) (line : LINE_STATE) (c : HttpContext), c.checkState ≠ .END → 1 ≤ fuel →
      (line = .OK → c.inputBuffer.content.length + 2 ≤ fuel) →
      ∃ c', parseLoop fuel line c = some c' := by
  intro fuel
  induction fuel with
  | zero =>
      intro line c _ hpos _
      omega
  | succ fuel ih =>
      intro line c hend _ hfuel
      by_cases hline : line = .OK
      · subst hline
        have hlen := hfuel rfl
        -- the round after a line that was read with `c₁`'s buffer left
        have hnext : ∀ c₁ : HttpContext, c₁.inputBuffer = c.inputBuffer → c₁.checkState ≠ .END →
            ∃ c', parseLoop fuel c₁.parseLine.1 c₁.parseLine.2 = some c' := by
          intro c₁ hinput hcs
          refine ih _ _ hcs (by omega) fun hok => ?_
          have hshort := parseLine_shortens hok
          rw [hinput] at hshort
          omega
        cases hcs : c.checkState with
        | REQUEST_LINE =>
            rw [parseLoop, if_pos rfl, hcs]
            simp only
            split
            · exact ⟨_, rfl⟩
            · rename_i hbad
              refine hnext _ (parseRequestLine_inputBuffer c) ?_
              rcases parseRequestLine_cases c with ⟨hb, _⟩ | ⟨_, hh⟩
              · exact absurd hb hbad
              · rw [hh]
                decide
        | HEADER =>
            rw [parseLoop, if_pos rfl, hcs]
            simp only
            split
            · exact ⟨_, rfl⟩
            · rename_i hbad
              split
              · rename_i hbody
                refine hnext _ (parseMessageHeader_inputBuffer c) ?_
                rcases parseMessageHeader_cases c with ⟨hb, _⟩ | ⟨_, hh | hh⟩
                · exact absurd hb hbad
                · rw [hh, hcs]
                  decide
                · exact absurd hh hbody
              · rename_i hbody
                rw [ne_eq, not_not] at hbody
                obtain ⟨f, hf⟩ : ∃ f, fuel = f + 1 := ⟨fuel - 1, by omega⟩
                rw [hf, parseLoop_body hbody]
                exact ⟨_, rfl⟩
        | BODY => exact ⟨_, parseLoop_body hcs⟩
        | END => exact absurd hcs hend
      · rw [parseLoop, if_neg hline]
        exact ⟨_, rfl⟩

/-- **Totality.**  Outside END `handleHttpRequest` returns. -/
theorem handleHttpRequest_total (h : c.checkState ≠ .END) :
    ∃ c', c.handleHttpRequest = some c' := by
  refine parseLoop_total _ _ _ h (by omega) fun hok => ?_
  have hshort := parseLine_shortens hok
  omega

theorem handleHttpRequest_sound (h : c.handleHttpRequest = some c') :
    ParseRun c.parseLine.1 c.parseLine.2 c' := parseLoop_sound _ _ _ _ h

/-- Outside END the relation computes `handleHttpRequest`. -/
theorem handleHttpRequest_of_parseRun (hend : c.checkState ≠ .END)
    (h : ParseRun c.parseLine.1 c.parseLine.2 c') : c.handleHttpRequest = some c' := by
  obtain ⟨d, hd⟩ := handleHttpRequest_total hend
  rw [hd, parseRun_unique (handleHttpRequest_sound hd) h]

/-- In END the loop goes around without end on a complete line. -/
theorem parseLoop_end (h : c.checkState = .END) : ∀ fuel, parseLoop fuel .OK c = none := by
  intro fuel
  induction fuel with
  | zero => rfl
  | succ fuel ih =>
      rw [parseLoop, if_pos rfl, h]
      exact ih

/-- **Termination.**  The loop comes to an end unless it is entered in END with a complete line. -/
theorem terminates_iff (c : HttpContext) :
    c.Terminates ↔ c.checkState ≠ .END ∨ c.parseLine.1 ≠ .OK := by
  constructor
  · rintro ⟨fuel, hfuel⟩
    by_contra hn
    rw [not_or, not_not, not_not] at hn
    rw [handleHttpRequestWithin, hn.2, parseLoop_end (by rw [parseLine_checkState, hn.1])] at hfuel
    cases hfuel
  · rintro (hend | hline)
    · obtain ⟨d, hd⟩ := handleHttpRequest_total hend
      exact ⟨_, by rw [show c.handleHttpRequestWithin _ = some d from hd]; rfl⟩
    · refine ⟨1, ?_⟩
      rw [handleHttpRequestWithin, parseLoop, if_neg hline]
      rfl

/-- `handleHttpRequest` does not return when it is entered in END with a complete line. -/
theorem handleHttpRequest_eq_none_iff (c : HttpContext) :
    c.handleHttpRequest = none ↔
      c.checkState = .END ∧ ∃ line rest, LineCut c.inputBuffer.content line rest := by
  rw [← parseLine_ok_iff]
  constructor
  · intro h
    by_contra hn
    rw [not_and_or] at hn
    rcases hn with hend | hline
    · obtain ⟨d, hd⟩ := handleHttpRequest_total hend
      rw [hd] at h
      cases h
    · rw [handleHttpRequest, handleHttpRequestWithin, parseLoop, if_neg hline] at h
      cases h
  · rintro ⟨hend, hline⟩
    rw [handleHttpRequest, handleHttpRequestWithin, hline]
    exact parseLoop_end (by rw [parseLine_checkState, hend]) _

/-- Whatever the input holds, the loop comes to an end exactly outside END. -/
theorem terminates_forall_iff (c : HttpContext) :
    (∀ input : Buffer, Terminates { c with inputBuffer := input }) ↔ c.checkState ≠ .END := by
  constructor
  · intro h hend
    have hcut : LineCut (Buffer.init.append [CR, LF]).content [] [] := by
      rw [Buffer.content_append, Buffer.content_init]
      exact ⟨rfl, by simp⟩
    rcases (terminates_iff _).mp (h (Buffer.init.append [CR, LF])) with hne | hne
    · exact hne hend
    · exact hne ((parseLine_ok_iff _).mpr ⟨[], [], hcut⟩)
  · intro h input
    exact (terminates_iff _).mpr (Or.inl h)

/-! ### What a call leaves behind -/

theorem ParseRun.outputBuffer {line : LINE_STATE} (h : ParseRun line c c') :
    c'.outputBuffer = c.outputBuffer := by
  induction h with
  | @exit line c _ => cases line <;> rfl
  | badRequestLine _ _ => exact parseRequestLine_outputBuffer _
  | requestLine _ _ _ ih => rw [ih, parseLine_outputBuffer, parseRequestLine_outputBuffer]
  | badHeader _ _ => exact parseMessageHeader_outputBuffer _
  | header _ _ _ _ ih => rw [ih, parseLine_outputBuffer, parseMessageHeader_outputBuffer]
  | lastHeader _ _ _ => exact parseMessageHeader_outputBuffer _
  | body _ => rfl

/-- After a call there is a complete request in END, or no or a bad request outside END. -/
structure Outcome (c : HttpContext) : Prop where
  complete_iff : c.requestState = .GET_REQUEST ↔ c.checkState = .END
  verdict : c.requestState = .GET_REQUEST ∨ c.requestState = .NO_REQUEST ∨
    c.requestState = .BAD_REQUEST

/-- **Outcome.**  A call made outside END ends in one of the three verdicts, and in END exactly when
the request is complete. -/
theorem ParseRun.outcome {line : LINE_STATE} (h : ParseRun line c c') (hend : c.checkState ≠ .END) :
    Outcome c' := by
  induction h with
  | @exit line c hline =>
      cases line with
      | OK => exact absurd rfl hline
      | BAD => exact ⟨⟨(fun hs => nomatch hs), fun hs => absurd hs hend⟩, Or.inr (Or.inr rfl)⟩
      | OPEN => exact ⟨⟨(fun hs => nomatch hs), fun hs => absurd hs hend⟩, Or.inr (Or.inl rfl)⟩
  | badRequestLine hcs hbad =>
      refine ⟨?_, Or.inr (Or.inr hbad)⟩
      rcases parseRequestLine_cases _ with ⟨_, hh⟩ | ⟨hno, _⟩
      · rw [hbad, hh, hcs]
        decide
      · rw [hno] at hbad
        cases hbad
  | requestLine hcs hok _ ih =>
      apply ih
      rcases parseRequestLine_cases _ with ⟨hb, _⟩ | ⟨_, hh⟩
      · exact absurd hb hok
      · rw [parseLine_checkState, hh]
        decide
  | badHeader hcs hbad =>
      refine ⟨?_, Or.inr (Or.inr hbad)⟩
      rcases parseMessageHeader_cases _ with ⟨_, hh⟩ | ⟨hno, _⟩
      · rw [hbad, hh, hcs]
        decide
      · rw [hno] at hbad
        cases hbad
  | header hcs hok hbody _ ih =>
      apply ih
      rcases parseMessageHeader_cases _ with ⟨hb, _⟩ | ⟨_, hh | hh⟩
      · exact absurd hb hok
      · rw [parseLine_checkState, hh, hcs]
        decide
      · exact absurd hh hbody
  | lastHeader _ _ _ => exact ⟨⟨fun _ => rfl, fun _ => rfl⟩, Or.inl rfl⟩
  | body _ => exact ⟨⟨fun _ => rfl, fun _ => rfl⟩, Or.inl rfl⟩

/-! ### The bytes behind a request -/

/-- Two contexts that differ in their buffers only. -/
structure Alike (c d : HttpContext) : Prop where
  method : d.method = c.method
  version : d.version = c.version
  connection : d.connection = c.connection
  requestState : d.requestState = c.requestState
  checkState : d.checkState = c.checkState
  uri : d.uri = c.uri
  newLine : d.newLine = c.newLine

theorem Alike.parseRequestLine (h : Alike c d) : Alike c.parseRequestLine d.parseRequestLine := by
  obtain ⟨hm, hv, hk, hr, hs, hu, hn⟩ := h
  rw [HttpContext.parseRequestLine, HttpContext.parseRequestLine, hn]
  cases methodOf (substr c.newLine 0 (scanWhile isToken c.newLine 0 - 0)) with
  | none => exact ⟨hm, hv, hk, rfl, hs, hu, rfl⟩
  | some method =>
      simp only
      split
      · exact ⟨rfl, hv, hk, rfl, hs, rfl, rfl⟩
      · exact ⟨rfl, rfl, hk, rfl, rfl, rfl, rfl⟩

theorem Alike.parseMessageHeader (h : Alike c d) :
    Alike c.parseMessageHeader d.parseMessageHeader := by
  obtain ⟨hm, hv, hk, hr, hs, hu, hn⟩ := h
  rw [HttpContext.parseMessageHeader, HttpContext.parseMessageHeader, hn]
  split
  · exact ⟨hm, hv, hk, rfl, rfl, hu, rfl⟩
  · simp only
    split
    · split
      · exact ⟨hm, hv, rfl, rfl, hs, hu, rfl⟩
      · exact ⟨hm, hv, hk, rfl, hs, hu, rfl⟩
    · exact ⟨hm, hv, hk, rfl, hs, hu, rfl⟩

theorem Alike.parseMessageBody (h : Alike c d) : Alike c.parseMessageBody d.parseMessageBody :=
  ⟨h.method, h.version, h.connection, rfl, rfl, h.uri, h.newLine⟩

theorem Alike.afterLoop (h : Alike c d) (line : LINE_STATE) :
    Alike (c.afterLoop line) (d.afterLoop line) := by
  obtain ⟨hm, hv, hk, hr, hs, hu, hn⟩ := h
  cases line
  · exact ⟨hm, hv, hk, hr, hs, hu, hn⟩
  · exact ⟨hm, hv, hk, rfl, hs, hu, hn⟩
  · exact ⟨hm, hv, hk, rfl, hs, hu, hn⟩

/-- `d` is `c` with the bytes `t` behind its input. -/
structure Behind (t : List UInt8) (c d : HttpContext) : Prop extends Alike c d where
  input : d.inputBuffer.content = c.inputBuffer.content ++ t
  output : d.outputBuffer.content = c.outputBuffer.content

variable {t : List UInt8}

theorem Behind.parseRequestLine (h : Behind t c d) :
    Behind t c.parseRequestLine d.parseRequestLine := by
  refine ⟨h.toAlike.parseRequestLine, ?_, ?_⟩
  · rw [parseRequestLine_inputBuffer, parseRequestLine_inputBuffer, h.input]
  · rw [parseRequestLine_outputBuffer, parseRequestLine_outputBuffer, h.output]

theorem Behind.parseMessageHeader (h : Behind t c d) :
    Behind t c.parseMessageHeader d.parseMessageHeader := by
  refine ⟨h.toAlike.parseMessageHeader, ?_, ?_⟩
  · rw [parseMessageHeader_inputBuffer, parseMessageHeader_inputBuffer, h.input]
  · rw [parseMessageHeader_outputBuffer, parseMessageHeader_outputBuffer, h.output]

theorem Behind.parseMessageBody (h : Behind t c d) :
    Behind t c.parseMessageBody d.parseMessageBody :=
  ⟨h.toAlike.parseMessageBody, h.input, h.output⟩

theorem Behind.afterLoop (h : Behind t c d) (line : LINE_STATE) :
    Behind t (c.afterLoop line) (d.afterLoop line) := by
  refine ⟨h.toAlike.afterLoop line, ?_, ?_⟩
  · cases line <;> exact h.input
  · cases line <;> exact h.output

/-- A complete line, or any line if nothing is behind, is extracted alike. -/
theorem Behind.parseLine (h : Behind t c d) (hline : t = [] ∨ c.parseLine.1 = .OK) :
    d.parseLine.1 = c.parseLine.1 ∧ Behind t c.parseLine.2 d.parseLine.2 := by
  obtain ⟨⟨hm, hv, hk, hr, hs, hu, hn⟩, hi, ho⟩ := h
  rcases hline with rfl | hok
  · rw [List.append_nil] at hi
    refine ⟨by rw [parseLine_state, parseLine_state, hi], ⟨hm, hv, hk, hr, hs, hu, ?_⟩, ?_, ho⟩
    · rw [parseLine_newLine, parseLine_newLine, hi]
    · rw [parseLine_content, parseLine_content, hi, List.append_nil]
  · obtain ⟨body, rest, hcut⟩ := (parseLine_ok_iff c).mp hok
    have hcut' : LineCut d.inputBuffer.content body (rest ++ t) := by
      rw [hi]
      exact hcut.append t
    obtain ⟨hc₁, hc₂, hc₃⟩ := parseLine_of_lineCut hcut
    obtain ⟨hd₁, hd₂, hd₃⟩ := parseLine_of_lineCut hcut'
    exact ⟨by rw [hd₁, hc₁], ⟨hm, hv, hk, hr, hs, hu, by rw [hd₂, hc₂]⟩, by rw [hd₃, hc₃], ho⟩

/-- The checks a run makes after a line: if the run completes the request, the line was complete. -/
theorem ParseRun.line_ok {line : LINE_STATE} (h : ParseRun line c c') (hc : c.checkState ≠ .END)
    (hc' : c'.checkState = .END) : line = .OK := by
  cases h with
  | exit hline =>
      exfalso
      apply hc
      rw [← hc']
      cases line <;> rfl
  | _ => rfl

/-- `R` relates contexts that every step of the parser takes to related ones.  A complete line is
extracted alike from both; if `whole` holds, so is any other. -/
structure Simulation (whole : Prop) (R : HttpContext → HttpContext → Prop) : Prop where
  checkState : ∀ {c d}, R c d → d.checkState = c.checkState
  requestState : ∀ {c d}, R c d → d.requestState = c.requestState
  parseRequestLine : ∀ {c d}, R c d → R c.parseRequestLine d.parseRequestLine
  parseMessageHeader : ∀ {c d}, R c d → R c.parseMessageHeader d.parseMessageHeader
  parseMessageBody : ∀ {c d}, R c d → R c.parseMessageBody d.parseMessageBody
  afterLoop : ∀ {c d}, R c d → ∀ line, R (c.afterLoop line) (d.afterLoop line)
  parseLine : ∀ {c d}, R c d → whole ∨ c.parseLine.1 = .OK →
    d.parseLine.1 = c.parseLine.1 ∧ R c.parseLine.2 d.parseLine.2

/-- **Two runs.**  From related contexts the loop goes the same way, as far as the lines it reads are
extracted alike. -/
theorem ParseRun.simulate {whole : Prop} {R : HttpContext → HttpContext → Prop}
    (sim : Simulation whole R) {line : LINE_STATE} (h : ParseRun line c c') :
    ∀ d, R c d → (whole ∨ (c.checkState ≠ .END ∧ c'.checkState = .END)) →
      ∃ d', ParseRun line d d' ∧ R c' d' := by
  induction h with
  | exit hline => exact fun d hd _ => ⟨_, .exit hline, sim.afterLoop hd _⟩
  | badRequestLine hcs hbad =>
      intro d hd _
      exact ⟨_, .badRequestLine (by rw [sim.checkState hd, hcs])
        (by rw [sim.requestState (sim.parseRequestLine hd), hbad]), sim.parseRequestLine hd⟩
  | @requestLine c c' hcs hok hrest ih =>
      intro d hd ht
      have hhead : c.parseRequestLine.checkState ≠ .END := by
        rcases parseRequestLine_cases c with ⟨hb, _⟩ | ⟨_, hh⟩
        · exact absurd hb hok
        · rw [hh]
          decide
      obtain ⟨hstate, hnext⟩ := sim.parseLine (sim.parseRequestLine hd)
        (ht.imp_right fun ht => hrest.line_ok hhead ht.2)
      obtain ⟨d', hrun, hd'⟩ := ih _ hnext (ht.imp_right fun ht => ⟨hhead, ht.2⟩)
      refine ⟨d', .requestLine (by rw [sim.checkState hd, hcs]) ?_ (by rw [hstate]; exact hrun), hd'⟩
      rw [sim.requestState (sim.parseRequestLine hd)]
      exact hok
  | badHeader hcs hbad =>
      intro d hd _
      exact ⟨_, .badHeader (by rw [sim.checkState hd, hcs])
        (by rw [sim.requestState (sim.parseMessageHeader hd), hbad]), sim.parseMessageHeader hd⟩
  | @header c c' hcs hok hbody hrest ih =>
      intro d hd ht
      have hhead : c.parseMessageHeader.checkState ≠ .END := by
        rcases parseMessageHeader_cases c with ⟨hb, _⟩ | ⟨_, hh | hh⟩
        · exact absurd hb hok
        · rw [hh, hcs]
          decide
        · exact absurd hh hbody
      obtain ⟨hstate, hnext⟩ := sim.parseLine (sim.parseMessageHeader hd)
        (ht.imp_right fun ht => hrest.line_ok hhead ht.2)
      obtain ⟨d', hrun, hd'⟩ := ih _ hnext (ht.imp_right fun ht => ⟨hhead, ht.2⟩)
      refine ⟨d', .header (by rw [sim.checkState hd, hcs]) ?_ ?_ (by rw [hstate]; exact hrun), hd'⟩
      · rw [sim.requestState (sim.parseMessageHeader hd)]
        exact hok
      · rw [sim.checkState (sim.parseMessageHeader hd)]
        exact hbody
  | lastHeader hcs hok hbody =>
      intro d hd _
      refine ⟨_, .lastHeader (by rw [sim.checkState hd, hcs]) ?_ ?_,
        sim.parseMessageBody (sim.parseMessageHeader hd)⟩
      · rw [sim.requestState (sim.parseMessageHeader hd)]
        exact hok
      · rw [sim.checkState (sim.parseMessageHeader hd)]
        exact hbody
  | body hcs =>
      exact fun d hd _ => ⟨_, .body (by rw [sim.checkState hd, hcs]), sim.parseMessageBody hd⟩

theorem behind_simulation (t : List UInt8) : Simulation (t = []) (Behind t) where
  checkState h := h.checkState
  requestState h := h.requestState
  parseRequestLine h := h.parseRequestLine
  parseMessageHeader h := h.parseMessageHeader
  parseMessageBody h := h.parseMessageBody
  afterLoop h := h.afterLoop
  parseLine h := h.parseLine

/-- **Locality.**  A run that completes the request goes the same way when more bytes are behind the
input; a run with nothing more behind goes the same way in any case. -/
theorem ParseRun.extend {line : LINE_STATE} (h : ParseRun line c c') :
    ∀ d, Behind t c d → (t = [] ∨ (c.checkState ≠ .END ∧ c'.checkState = .END)) →
      ∃ d', ParseRun line d d' ∧ Behind t c' d' := h.simulate (behind_simulation t)

/-- **A completed request is completed alike with more bytes behind it**, and leaves them unread. -/
theorem handleHttpRequest_extend (hend : c.checkState ≠ .END) (h : c.handleHttpRequest = some c')
    (hc' : c'.checkState = .END) (hd : Behind t c d) :
    ∃ d', d.handleHttpRequest = some d' ∧ Behind t c' d' := by
  have hrun := handleHttpRequest_sound h
  obtain ⟨hstate, hbehind⟩ := hd.parseLine (Or.inr (hrun.line_ok hend hc'))
  obtain ⟨d', hrun', hd'⟩ := hrun.extend _ hbehind (Or.inr ⟨hend, hc'⟩)
  refine ⟨d', handleHttpRequest_of_parseRun (by rw [hd.checkState]; exact hend) ?_, hd'⟩
  rw [hstate]
  exact hrun'

/-! ### The response -/

theorem work_some {now : List UInt8} (h : c.work now = some d) :
    ∃ e, c.handleHttpRequest = some e ∧ d = e.getHttpResponse now := by
  rw [work, Option.map_eq_some_iff] at h
  obtain ⟨e, he, hd⟩ := h
  exact ⟨e, he, hd.symm⟩

/-- The response is appended to the output the context had before the parser ran. -/
theorem content_getHttpResponse (now : List UInt8) (he : c.handleHttpRequest = some d) :
    (d.getHttpResponse now).outputBuffer.content
      = c.outputBuffer.content ++ response d.version d.requestState d.uri now := by
  rw [getHttpResponse, Buffer.content_append, (handleHttpRequest_sound he).outputBuffer,
    parseLine_outputBuffer]

theorem response_pos (v : HTTP_VERSION) (s : REQUEST_STATE) (uri now : List UInt8) :
    0 < (response v s uri now).length := by
  unfold response
  rw [List.length_append]
  have hv : 0 < (versionText v).length := by cases v <;> decide
  omega

/-- After `work` there is something to write. -/
theorem work_output_pos {now : List UInt8} (h : c.work now = some d) :
    0 < d.outputBuffer.content.length := by
  obtain ⟨e, he, rfl⟩ := work_some h
  have hpos := response_pos e.version e.requestState e.uri now
  rw [content_getHttpResponse now he, List.length_append]
  omega

end HttpContext

end WServer
