import WServer.RequestGrammar

/-!
# The connection mode a call leaves

`isKeepAlive` behind a call of `handleHttpRequest`, said of the bytes the call finds in the input.  Only a
header line sets the mode, and only one that the loop reaches: after a request line it takes, if it still
waits for one, and before an empty line or any other `Connection` header.

* `parseMessageHeader_terminated` — what a header line does;
* `KeepAliveLine` — a text in which the loop reaches such a header line, `AsksKeepAlive` — a context;
* `handleHttpRequest_keepAlive` — the mode behind a call.
-/

namespace WServer

namespace HttpContext

variable {c d : HttpContext} {line content rest : List UInt8}

/-! ### A header line -/

instance (line : List UInt8) : Decidable (LooksEmpty line) := inferInstanceAs (Decidable (_ = _))

/-- A line that looks empty is no `Connection` header. -/
theorem LooksEmpty.not_connection (h : LooksEmpty line) : ¬ IsConnectionHeader line := by
  intro hconn
  rw [← isConnectionHeader_iff] at hconn
  have hfirst : charAt (line ++ [NUL, NUL]) 0 = NUL := (charAt_terminated line).trans h
  rw [show ascii "Connection:" = 67 :: (ascii "Connection:").tail from rfl, strncasecmpEq, hfirst,
    if_neg (by decide)] at hconn
  cases hconn

theorem LooksEmpty.not_keepAlive (h : LooksEmpty line) : ¬ IsKeepAliveHeader line :=
  fun hkeep => h.not_connection hkeep.1

/-- **A header line** ends the headers, asks for `Keep-Alive`, is bad, or says nothing of the mode. -/
theorem parseMessageHeader_terminated (hline : c.newLine = line ++ [NUL, NUL]) :
    c.parseMessageHeader =
      if LooksEmpty line then { c with checkState := .BODY, requestState := .NO_REQUEST }
      else if IsKeepAliveHeader line then
        { c with connection := .KEEP_ALIVE, requestState := .NO_REQUEST }
      else if IsConnectionHeader line then { c with requestState := .BAD_REQUEST }
      else { c with requestState := .NO_REQUEST } := by
  rw [parseMessageHeader, hline]
  by_cases hempty : LooksEmpty line
  · rw [if_pos ⟨by simp, (charAt_terminated line).trans hempty⟩, if_pos hempty]
  · rw [if_neg fun h => hempty ((charAt_terminated line).symm.trans h.2), if_neg hempty]
    by_cases hconn : IsConnectionHeader line
    · rw [if_pos ((isConnectionHeader_iff line).mpr hconn), if_pos hconn]
      by_cases hkeep : IsKeepAliveHeader line
      · rw [if_pos hkeep]
        exact if_pos ((isKeepAliveHeader_iff hconn).mpr hkeep)
      · rw [if_neg hkeep]
        exact if_neg fun h => hkeep ((isKeepAliveHeader_iff hconn).mp h)
    · rw [if_neg fun h => hconn ((isConnectionHeader_iff line).mp h), if_neg fun h => hconn h.1,
        if_neg hconn]

/-! ### The lines the loop reaches -/

/-- The text starts with lines up to a header that asks for `Keep-Alive`; none before it looks empty or is
a `Connection` header. -/
def KeepAliveLine (content : List UInt8) : Prop :=
  ∃ before line rest, Holds content (before ++ [line]) rest ∧
    (∀ h ∈ before, ¬ LooksEmpty h ∧ ¬ IsConnectionHeader h) ∧ IsKeepAliveHeader line

/-- The loop reaches such a header in the input: at once in check state HEADER, behind a request line it
takes in REQUEST_LINE. -/
def AsksKeepAlive (c : HttpContext) : Prop :=
  (c.checkState = .HEADER ∧ KeepAliveLine c.inputBuffer.content) ∨
    (c.checkState = .REQUEST_LINE ∧ ∃ line rest, LineCut c.inputBuffer.content line rest ∧
      (c.takeLine line).requestState ≠ .BAD_REQUEST ∧ KeepAliveLine rest)

theorem KeepAliveLine.lineCut (h : KeepAliveLine content) : ∃ line rest, LineCut content line rest := by
  obtain ⟨before, line, rest, hholds, -, -⟩ := h
  cases before with
  | nil => exact ⟨_, _, hholds.lineCut⟩
  | cons first before => exact ⟨_, _, Holds.lineCut hholds⟩

/-- The first line is the header, or one the loop goes on behind. -/
theorem keepAliveLine_iff (hcut : LineCut content line rest) :
    KeepAliveLine content ↔ IsKeepAliveHeader line ∨
      (¬ LooksEmpty line ∧ ¬ IsConnectionHeader line ∧ KeepAliveLine rest) := by
  constructor
  · rintro ⟨before, header, left, hholds, hbefore, hheader⟩
    cases before with
    | nil =>
        obtain ⟨rfl, -⟩ := lineCut_unique hcut hholds.lineCut
        exact Or.inl hheader
    | cons first before =>
        obtain ⟨rfl, hrest⟩ := lineCut_unique hcut (Holds.lineCut hholds)
        obtain ⟨hempty, hconn⟩ := hbefore line List.mem_cons_self
        refine Or.inr ⟨hempty, hconn, before, header, left, ?_, ?_, hheader⟩
        · rw [hrest]
          exact Holds.tail hholds
        · exact fun h hh => hbefore h (List.mem_cons_of_mem line hh)
  · rintro (hheader | ⟨hempty, hconn, before, header, left, hholds, hbefore, hheader⟩)
    · exact ⟨[], line, rest, Holds.cons hcut (Holds.nil rest), by simp, hheader⟩
    · refine ⟨line :: before, header, left, Holds.cons hcut hholds, ?_, hheader⟩
      exact List.forall_mem_cons.mpr ⟨⟨hempty, hconn⟩, hbefore⟩

/-! ### The mode -/

theorem isKeepAlive_iff (c : HttpContext) : c.isKeepAlive = true ↔ c.connection = .KEEP_ALIVE := by
  rw [isKeepAlive, decide_eq_true_iff]

@[simp] theorem parseRequestLine_connection (c : HttpContext) :
    c.parseRequestLine.connection = c.connection := by
  rw [parseRequestLine]
  split
  · rfl
  · simp only
    split <;> rfl

@[simp] theorem afterLoop_connection (state : LINE_STATE) (c : HttpContext) :
    (c.afterLoop state).connection = c.connection := by
  cases state <;> rfl

/-- **In the headers**, the mode behind the loop is the one before it, unless the loop reaches a header
line that asks for `Keep-Alive`. -/
theorem ParseRun.keepAlive_headers {state : LINE_STATE} {c' d' : HttpContext} (h : ParseRun state c' d') :
    ∀ c : HttpContext, state = c.parseLine.1 → c' = c.parseLine.2 → c.checkState = .HEADER →
      (d'.connection = .KEEP_ALIVE ↔
        c.connection = .KEEP_ALIVE ∨ KeepAliveLine c.inputBuffer.content) := by
  -- the line just extracted, if it is complete
  have hnext : ∀ c : HttpContext, .OK = c.parseLine.1 → ∃ line,
      LineCut c.inputBuffer.content line c.parseLine.2.inputBuffer.content ∧
        c.parseLine.2.newLine = line ++ [NUL, NUL] := fun c hok => next_line hok.symm
  induction h with
  | exit hline =>
      rintro c rfl rfl _
      rw [afterLoop_connection, parseLine_connection]
      refine ⟨Or.inl, fun h => h.resolve_right fun hkeep => hline ?_⟩
      exact (parseLine_ok_iff c).mpr hkeep.lineCut
  | badRequestLine hcs _ =>
      rintro c _ rfl hhead
      rw [parseLine_checkState, hhead] at hcs
      cases hcs
  | requestLine hcs _ _ _ =>
      rintro c _ rfl hhead
      rw [parseLine_checkState, hhead] at hcs
      cases hcs
  | badHeader _ hbad =>
      rintro c hok rfl _
      obtain ⟨line, hcut, hnew⟩ := hnext c hok
      rw [keepAliveLine_iff hcut]
      rw [parseMessageHeader_terminated hnew] at hbad ⊢
      split_ifs at hbad with hempty hkeep hconn
      rw [if_neg hempty, if_neg hkeep, if_pos hconn]
      simp [hkeep, hconn]
  | header _ hok' hbody _ ih =>
      rintro c hok rfl hhead
      obtain ⟨line, hcut, hnew⟩ := hnext c hok
      have hspec := parseMessageHeader_terminated hnew
      have hcs : c.parseLine.2.parseMessageHeader.checkState = .HEADER := by
        rcases parseMessageHeader_cases c.parseLine.2 with ⟨hb, _⟩ | ⟨_, hh | hh⟩
        · exact absurd hb hok'
        · rw [hh, parseLine_checkState, hhead]
        · exact absurd hh hbody
      rw [ih _ rfl rfl hcs, parseMessageHeader_inputBuffer, keepAliveLine_iff hcut]
      rw [hspec] at hok' hbody ⊢
      split_ifs at hok' hbody ⊢ with hempty hkeep hconn
      · exact absurd rfl hbody
      · simp [hkeep]
      · exact absurd rfl hok'
      · simp [hempty, hkeep, hconn]
  | lastHeader _ _ hbody =>
      rintro c hok rfl hhead
      obtain ⟨line, hcut, hnew⟩ := hnext c hok
      rw [keepAliveLine_iff hcut]
      have hempty : LooksEmpty line := by
        rw [parseMessageHeader_terminated hnew] at hbody
        by_contra hempty
        rw [if_neg hempty] at hbody
        split_ifs at hbody
        all_goals
          rw [show c.parseLine.2.checkState = .HEADER from hhead] at hbody
          cases hbody
      rw [parseMessageHeader_terminated hnew, if_pos hempty]
      show c.connection = .KEEP_ALIVE ↔ _
      simp [hempty, hempty.not_keepAlive]
  | body hcs =>
      rintro c _ rfl hhead
      rw [parseLine_checkState, hhead] at hcs
      cases hcs

/-- **Before the headers**, the loop takes a request line first. -/
theorem ParseRun.keepAlive_requestLine {c d' : HttpContext}
    (h : ParseRun c.parseLine.1 c.parseLine.2 d') (hcs : c.checkState = .REQUEST_LINE) :
    d'.connection = .KEEP_ALIVE ↔ c.connection = .KEEP_ALIVE ∨
      ∃ line rest, LineCut c.inputBuffer.content line rest ∧
        (c.takeLine line).requestState ≠ .BAD_REQUEST ∧ KeepAliveLine rest := by
  by_cases hok : c.parseLine.1 = .OK
  · obtain ⟨line, hcut, hnew⟩ := next_line hok
    -- the line is the only one at the start of the input
    have hfirst : (∃ line rest, LineCut c.inputBuffer.content line rest ∧
        (c.takeLine line).requestState ≠ .BAD_REQUEST ∧ KeepAliveLine rest) ↔
          (c.takeLine line).requestState ≠ .BAD_REQUEST ∧
            KeepAliveLine c.parseLine.2.inputBuffer.content := by
      constructor
      · rintro ⟨line', rest', hcut', hrest⟩
        obtain ⟨rfl, rfl⟩ := lineCut_unique hcut hcut'
        exact hrest
      · exact fun hrest => ⟨_, _, hcut, hrest⟩
    have hextracted : Alike { c with newLine := line ++ [NUL, NUL] } c.parseLine.2 :=
      ⟨rfl, rfl, rfl, rfl, rfl, rfl, hnew⟩
    have htake : c.parseLine.2.parseRequestLine.requestState = (c.takeLine line).requestState :=
      (takeLine_requestLine hcs hextracted).requestState
    rw [hfirst, ← htake]
    rw [hok] at h
    cases h with
    | exit hline => exact absurd rfl hline
    | badRequestLine _ hbad => simp [hbad]
    | requestLine _ hgood hrest =>
        have hhead : c.parseLine.2.parseRequestLine.checkState = .HEADER := by
          rcases parseRequestLine_cases c.parseLine.2 with ⟨hb, _⟩ | ⟨_, hh⟩
          · exact absurd hb hgood
          · exact hh
        rw [hrest.keepAlive_headers _ rfl rfl hhead, parseRequestLine_connection,
          parseRequestLine_inputBuffer]
        simp [hgood]
    | badHeader hhead _ => rw [parseLine_checkState, hcs] at hhead; cases hhead
    | header hhead _ _ _ => rw [parseLine_checkState, hcs] at hhead; cases hhead
    | lastHeader hhead _ _ => rw [parseLine_checkState, hcs] at hhead; cases hhead
    | body hbody => rw [parseLine_checkState, hcs] at hbody; cases hbody
  · have hnone : ¬ ∃ line rest, LineCut c.inputBuffer.content line rest ∧
        (c.takeLine line).requestState ≠ .BAD_REQUEST ∧ KeepAliveLine rest :=
      fun ⟨line, rest, hcut, _⟩ => hok ((parseLine_ok_iff c).mpr ⟨line, rest, hcut⟩)
    generalize c.parseLine.1 = state at h hok
    cases h with
    | exit _ => simp [hnone]
    | _ => exact absurd rfl hok

/-- **Behind the headers**, no line is taken. -/
theorem ParseRun.connection_behind {state : LINE_STATE} {c' d' : HttpContext} (h : ParseRun state c' d')
    (hline : c'.checkState ≠ .REQUEST_LINE) (hhead : c'.checkState ≠ .HEADER) :
    d'.connection = c'.connection := by
  cases h with
  | exit _ => exact afterLoop_connection state c'
  | body _ => rfl
  | badRequestLine hcs _ => exact absurd hcs hline
  | requestLine hcs _ _ => exact absurd hcs hline
  | badHeader hcs _ => exact absurd hcs hhead
  | header hcs _ _ _ => exact absurd hcs hhead
  | lastHeader hcs _ _ => exact absurd hcs hhead

/-- **The mode behind a call.** -/
theorem handleHttpRequest_keepAlive (h : c.handleHttpRequest = some d) :
    d.isKeepAlive = true ↔ c.isKeepAlive = true ∨ AsksKeepAlive c := by
  have hrun := handleHttpRequest_sound h
  rw [isKeepAlive_iff, isKeepAlive_iff, AsksKeepAlive]
  by_cases hline : c.checkState = .REQUEST_LINE
  · rw [hrun.keepAlive_requestLine hline]
    simp [hline]
  · by_cases hhead : c.checkState = .HEADER
    · rw [hrun.keepAlive_headers c rfl rfl hhead]
      simp [hhead]
    · rw [hrun.connection_behind hline hhead, parseLine_connection]
      simp [hline, hhead]

end HttpContext

end WServer
