import WServer.LogInsertions
import WServer.LogPipeline

/-!
# From the statements to the lines of the log

`LOG_INFO << "x"` makes a `Logger`, whose constructor inserts the time, the thread, the level and the
function into its stream, and whose destructor inserts the place in the source, hands the line to the
`AsyncLog` and, for `LOG_FATAL`, flushes it.  `LOG_DEBUG` and `LOG_INFO` make one only if the level of the
program is not above theirs.

* `insertAll_exact` — insertions that fit, numbers included, one behind the other;
* `programStep` — a statement of any thread, or a step of the log thread or of `stop`;
* `printed` — the statements that the level lets through;
* `log_lines` — the lines of the files are these statements, in their order.

The `abort` behind the flush of `LOG_FATAL` is the end of the run.
-/

namespace WServer

open Library.Segments Library.Runs Library.Decimal

/-! ### Insertions that fit -/

namespace Insertion

/-- The bytes that an insertion puts into the stream. -/
def bytes (outside : ℤ → UInt8) : Insertion → List UInt8
  | .integer n => (convert outside n false).1.take (convert outside n false).2
  | .pointer msg => (convert outside msg true).1.take (convert outside msg true).2
  | e => strncpy e.text

theorem bytes_of_text (outside : ℤ → UInt8) {e : Insertion} (he : e.isNumber = false) :
    e.bytes outside = strncpy e.text := by
  cases e with
  | integer n => cases he
  | pointer msg => cases he
  | bool | char | cString | string | buffer => rfl

/-- The numeral of a number that is not negative has neither a NUL nor an end of line in it. -/
theorem bytes_natural (outside : ℤ → UInt8) {T : IntegerType} {n : T.Value} (h : 0 ≤ n.1) {b : UInt8}
    (hb : b ∈ (Insertion.integer n).bytes outside) : b ≠ 0 ∧ b ≠ LF := by
  obtain ⟨text, hconvert, hnumeral, -⟩ := writesNumeral_natural outside h
  rw [bytes, hconvert, List.take_left] at hb
  rcases hnumeral.bytes hb with rfl | hdigit
  · decide
  · constructor <;> rintro rfl <;> exact absurd hdigit.1 (by decide)

end Insertion

namespace LogStream

variable {outside : ℤ → UInt8} {s : LogStream} {e : Insertion}

/-- An insertion that leaves more than `kMaxNumericSize` bytes of space. -/
theorem insert_exact (h : s.curIndex + e.length outside + kMaxNumericSize < kSmallBufferSize) :
    ∃ s', insert outside s e = .ok s' ∧ s'.curIndex = s.curIndex + e.length outside ∧
      s'.toFixed.content = s.toFixed.content ++ e.bytes outside := by
  have hs : s.curIndex ≤ kSmallBufferSize := by omega
  have hspace : kMaxNumericSize < RawFixedBuffer.available s := by
    rw [RawFixedBuffer.available_eq hs (by decide)]
    omega
  cases hnumber : e.isNumber with
  | false =>
      have hfits : e.Fits outside s := by
        rw [Insertion.Fits]
        omega
      obtain ⟨s', hok, hindex, hcontent⟩ := insert_text hnumber hfits
      refine ⟨s', hok, hindex, ?_⟩
      rw [hcontent, e.bytes_of_text outside hnumber, FixedBuffer.append_content]
  | true =>
      cases e with
      | integer n =>
          obtain ⟨s', hok, hindex, -, hcontent⟩ := (formatInteger_spec outside hs n false).2 hspace
          exact ⟨s', hok, hindex, hcontent⟩
      | pointer msg =>
          obtain ⟨s', hok, hindex, -, hcontent⟩ := (formatInteger_spec outside hs msg true).2 hspace
          exact ⟨s', hok, hindex, hcontent⟩
      | bool | char | cString | string | buffer => cases hnumber

/-- **Insertions that fit** stand one behind the other. -/
theorem insertAll_exact (es : List Insertion)
    (h : s.curIndex + totalLength outside es + kMaxNumericSize < kSmallBufferSize) :
    ∃ s', runFrom (insert outside) s es = .ok s' ∧
      s'.toFixed.content = s.toFixed.content ++ es.flatMap fun e => e.bytes outside := by
  induction es generalizing s with
  | nil => exact ⟨s, rfl, (List.append_nil _).symm⟩
  | cons e es ih =>
      rw [totalLength, List.map_cons, List.sum_cons, ← totalLength] at h
      obtain ⟨next, hnext, hindex, hcontent⟩ := @insert_exact outside s e (by omega)
      obtain ⟨s', hrun, hcontent'⟩ := @ih next (by omega)
      refine ⟨s', by rw [runFrom_cons_ok es hnext, hrun], ?_⟩
      rw [hcontent', hcontent, List.flatMap_cons, List.append_assoc]

/-- A stream never holds more than its array. -/
theorem content_length_le (s : LogStream) : s.toFixed.content.length ≤ kSmallBufferSize :=
  (List.length_take_le' _ _).trans_eq s.size

end LogStream

/-! ### Statements -/

namespace Logger

/-- The order of the enumeration. -/
def LogLevel.rank : LogLevel → ℕ
  | .DEBUG => 0
  | .INFO => 1
  | .ERROR => 2
  | .FATAL => 3

/-- The tests of the macros: `LOG_ERROR` and `LOG_FATAL` have none. -/
def enabled (logLevel : LogLevel) : LogLevel → Bool
  | .DEBUG => logLevel.rank ≤ LogLevel.DEBUG.rank
  | .INFO => logLevel.rank ≤ LogLevel.INFO.rank
  | .ERROR | .FATAL => true

/-- A statement, with the time and the thread at which it is reached. -/
structure Statement where
  timeStamp : List UInt8
  tidString : List UInt8
  level : LogLevel
  func : List UInt8
  basename : List UInt8
  line : IntegerType.Value .int
  arguments : List Insertion

namespace Statement

/-- What is inserted into the stream of its `Logger`. -/
def insertions (st : Statement) : List Insertion :=
  opening st.timeStamp st.tidString st.level st.func ++ st.arguments ++ finish st.basename st.line

/-- Everything but the end of the line. -/
def body (outside : ℤ → UInt8) (st : Statement) : List UInt8 :=
  (opening st.timeStamp st.tidString st.level st.func ++ st.arguments ++
    (finish st.basename st.line).dropLast).flatMap fun e => e.bytes outside

/-- The line. -/
def text (outside : ℤ → UInt8) (st : Statement) : List UInt8 := st.body outside ++ [LF]

/-- The line leaves more than `kMaxNumericSize` bytes of the stream free, and there is neither a NUL nor an
end of line in it. -/
structure Plain (outside : ℤ → UInt8) (st : Statement) : Prop where
  short : LogStream.totalLength outside st.insertions + LogStream.kMaxNumericSize < kSmallBufferSize
  noNul : ∀ b ∈ st.body outside, b ≠ 0
  noLF : ∀ b ∈ st.body outside, b ≠ LF

/-- What the destructor of its `Logger` hands to `g_output`. -/
def output (outside : ℤ → UInt8) (st : Statement) : Except StreamFault PipeEvent :=
  match runFrom (LogStream.insert outside) RawFixedBuffer.make st.insertions with
  | .error fault => .error fault
  | .ok stream => .ok ⟨.append stream.toFixed.content stream.content_length_le, []⟩

end Statement

/-! ### The program and its log -/

/-- The log of a program, the level of its statements and the number of the `LOG_FATAL`s that are between
their `g_output` and their `g_flush`. -/
structure Program where
  pipe : LogPipeline
  logLevel : LogLevel
  flushing : ℕ

/-- A statement of a thread up to its `g_output`, the `g_flush` of a `LOG_FATAL`, a call of `setLogLevel`,
and any other step of the log. -/
inductive ProgramEvent where
  | statement (st : Statement)
  | flush
  | setLogLevel (logLevel : LogLevel)
  | pipe (e : PipeEvent)

inductive ProgramFault where
  | stream (fault : StreamFault)
  | pipe (fault : PipeFault)
  | notThere
  deriving DecidableEq

/-- The steps of the log that only a statement takes. -/
def ofStatement (e : PipeEvent) : Bool :=
  match e.event with
  | .append _ _ | .flush => true
  | .stop | .flushWait | .threadFunc _ => false

def onPipe (e : PipeEvent) (s : Program) : Except ProgramFault Program :=
  match pipeStep s.pipe e with
  | .error fault => .error (.pipe fault)
  | .ok pipe => .ok { s with pipe := pipe }

def programStep (outside : ℤ → UInt8) (s : Program) : ProgramEvent → Except ProgramFault Program
  | .statement st =>
      if enabled s.logLevel st.level then
        match st.output outside with
        | .error fault => .error (.stream fault)
        | .ok e => onPipe e
            { s with flushing := if st.level = .FATAL then s.flushing + 1 else s.flushing }
      else .ok s
  | .flush =>
      if 0 < s.flushing then onPipe ⟨.flush, []⟩ { s with flushing := s.flushing - 1 }
      else .error .notThere
  | .setLogLevel logLevel => .ok { s with logLevel := logLevel }
  | .pipe e => if ofStatement e then .error .notThere else onPipe e s

/-- The log after its start. -/
def Program.start (rollSize now : ℤ) (logLevel : LogLevel) : Program :=
  ⟨LogPipeline.start rollSize now, logLevel, 0⟩

/-- The statements that are let through: the level is the one that was set last. -/
def printed : LogLevel → List ProgramEvent → List Statement
  | _, [] => []
  | logLevel, .statement st :: es =>
      if enabled logLevel st.level then st :: printed logLevel es else printed logLevel es
  | _, .setLogLevel logLevel :: es => printed logLevel es
  | logLevel, .flush :: es | logLevel, .pipe _ :: es => printed logLevel es

variable {outside : ℤ → UInt8} {s s' : Program} {e : ProgramEvent} {st : Statement}

/-- The steps of the log in a step of the program. -/
def told (outside : ℤ → UInt8) (s : Program) : ProgramEvent → List PipeEvent
  | .statement st =>
      if enabled s.logLevel st.level then
        match st.output outside with
        | .error _ => []
        | .ok e => [e]
      else []
  | .flush => [⟨.flush, []⟩]
  | .setLogLevel _ => []
  | .pipe e => [e]

theorem onPipe_ok {e : PipeEvent} (n : ℕ) (h : onPipe e { s with flushing := n } = .ok s') :
    pipeStep s.pipe e = .ok s'.pipe ∧ s'.logLevel = s.logLevel := by
  rw [onPipe] at h
  split at h
  · cases h
  · next pipe hstep =>
      cases h
      exact ⟨hstep, rfl⟩

/-- What a step of the program does. -/
theorem programStep_cases (h : programStep outside s e = .ok s') :
    (∃ st, e = .statement st ∧ enabled s.logLevel st.level = true ∧ ∃ d, st.output outside = .ok d ∧
        pipeStep s.pipe d = .ok s'.pipe ∧ s'.logLevel = s.logLevel) ∨
      (∃ st, e = .statement st ∧ enabled s.logLevel st.level = false ∧ s' = s) ∨
      (e = .flush ∧ pipeStep s.pipe ⟨.flush, []⟩ = .ok s'.pipe ∧ s'.logLevel = s.logLevel) ∨
      (∃ logLevel, e = .setLogLevel logLevel ∧ s' = { s with logLevel := logLevel }) ∨
      ∃ d, e = .pipe d ∧ ofStatement d = false ∧ pipeStep s.pipe d = .ok s'.pipe ∧
        s'.logLevel = s.logLevel := by
  cases e with
  | statement st =>
      rw [programStep] at h
      split at h
      · next henabled =>
          split at h
          · cases h
          · next d houtput =>
              exact Or.inl ⟨st, rfl, henabled, d, houtput, onPipe_ok _ h⟩
      · next hdisabled =>
          cases h
          exact Or.inr (Or.inl ⟨st, rfl, Bool.eq_false_iff.mpr hdisabled, rfl⟩)
  | flush =>
      rw [programStep] at h
      split at h
      · exact Or.inr (Or.inr (Or.inl ⟨rfl, onPipe_ok _ h⟩))
      · cases h
  | setLogLevel logLevel =>
      cases h
      exact Or.inr (Or.inr (Or.inr (Or.inl ⟨logLevel, rfl, rfl⟩)))
  | pipe d =>
      rw [programStep] at h
      split at h
      · cases h
      · next hother =>
          exact Or.inr (Or.inr (Or.inr (Or.inr ⟨d, rfl, Bool.eq_false_iff.mpr hother,
            onPipe_ok s.flushing h⟩)))

/-- **A step of the program** is a run of its log. -/
theorem programStep_told (h : programStep outside s e = .ok s') :
    runFrom pipeStep s.pipe (told outside s e) = .ok s'.pipe := by
  rcases programStep_cases h with ⟨st, rfl, henabled, d, houtput, hstep, -⟩ | ⟨st, rfl, hdisabled, rfl⟩ |
    ⟨rfl, hstep, -⟩ | ⟨logLevel, rfl, rfl⟩ | ⟨d, rfl, -, hstep, -⟩
  · simp only [told, if_pos henabled, houtput]
    exact runFrom_single hstep
  · rw [told, hdisabled]
    rfl
  · exact runFrom_single hstep
  · rfl
  · exact runFrom_single hstep

theorem contains_pipe : Contains (programStep outside) (fun _ => True) pipeStep Program.pipe (told outside) :=
  ⟨fun _ _ _ _ _ => trivial, fun _ _ _ _ h => programStep_told h⟩

/-! ### The lines -/

theorem Statement.insertions_flatMap (st : Statement) :
    (st.insertions.flatMap fun e => e.bytes outside) = st.text outside := by
  rw [insertions, show finish st.basename st.line = (finish st.basename st.line).dropLast ++ [.char LF] from
    rfl, ← List.append_assoc, List.flatMap_append, text, body]
  rfl

/-- **A plain statement** hands over its text. -/
theorem Statement.Plain.output (h : st.Plain outside) : ∃ hlen : (st.text outside).length ≤ kSmallBufferSize,
    st.output outside = .ok ⟨.append (st.text outside) hlen, []⟩ := by
  have hshort : (RawFixedBuffer.make : LogStream).curIndex + LogStream.totalLength outside st.insertions +
      LogStream.kMaxNumericSize < kSmallBufferSize := by
    rw [show (RawFixedBuffer.make : LogStream).curIndex = 0 from rfl, Nat.zero_add]
    exact h.short
  obtain ⟨stream, hrun, hcontent⟩ := LogStream.insertAll_exact st.insertions hshort
  rw [RawFixedBuffer.toFixed_make, show (FixedBuffer.make : FixedBuffer kSmallBufferSize).content = [] from rfl,
    List.nil_append, st.insertions_flatMap] at hcontent
  have hlen := stream.content_length_le
  rw [hcontent] at hlen
  refine ⟨hlen, ?_⟩
  rw [Statement.output, hrun]
  simp only [hcontent]

/-- The condition on a step: a line that is printed is plain, and the files take what they are handed. -/
def Ordinary (outside : ℤ → UInt8) (s : Program) : ProgramEvent → Prop
  | .statement st => enabled s.logLevel st.level = true → st.Plain outside
  | .flush | .setLogLevel _ => True
  | .pipe e => LogPipeline.Accepts s.pipe e

theorem Statement.Plain.text_noNul (h : st.Plain outside) : ∀ b ∈ st.text outside, b ≠ 0 := by
  intro b hb
  rcases List.mem_append.mp hb with hbody | hend
  · exact h.noNul b hbody
  · rw [List.mem_singleton.mp hend]
    decide

theorem stored_of_other {d : PipeEvent} (h : ofStatement d = false) : LogPipeline.stored d = [] := by
  obtain ⟨event, found⟩ := d
  cases event with
  | append | flush => cases h
  | stop | flushWait | threadFunc => rfl

/-- **The files take** what the steps of the log in a step of the program hand to them. -/
theorem told_accepts (hgood : Ordinary outside s e) (hstep : programStep outside s e = .ok s') :
    Along pipeStep LogPipeline.Accepts s.pipe (told outside s e) := by
  rcases programStep_cases hstep with ⟨st, rfl, henabled, d, houtput, -, -⟩ | ⟨st, rfl, hdisabled, rfl⟩ |
    ⟨rfl, -, -⟩ | ⟨logLevel, rfl, rfl⟩ | ⟨d, rfl, -, -, -⟩
  · obtain ⟨hlen, houtput'⟩ := (hgood henabled).output
    simp only [told, if_pos henabled, houtput']
    refine ⟨fun call hcall => ?_, fun _ _ => trivial⟩
    cases hcall
  · rw [told, hdisabled]
    exact trivial
  · refine ⟨fun call hcall => ?_, fun _ _ => trivial⟩
    cases hcall
  · exact trivial
  · exact ⟨hgood, fun _ _ => trivial⟩

/-- **What the log stores in a run** are the texts of the statements that are printed. -/
theorem trace_stored {es : List ProgramEvent} (hgood : Along (programStep outside) (Ordinary outside) s es)
    (hrun : runFrom (programStep outside) s es = .ok s') :
    (traceOf (programStep outside) (told outside) s es).flatMap LogPipeline.stored =
        (printed s.logLevel es).map (Statement.text outside) ∧
      ∀ st ∈ printed s.logLevel es, st.Plain outside := by
  induction es generalizing s with
  | nil => exact ⟨rfl, List.forall_mem_nil _⟩
  | cons e es ih =>
      obtain ⟨s₁, hstep, hrest⟩ := runFrom_cons_eq_ok hrun
      obtain ⟨hstored, hplain⟩ := ih (hgood.2 s₁ hstep) hrest
      rw [traceOf_cons es hstep, List.flatMap_append, hstored]
      rcases programStep_cases hstep with ⟨st, rfl, henabled, d, -, -, hlevel⟩ | ⟨st, rfl, hdisabled, rfl⟩ |
        ⟨rfl, -, hlevel⟩ | ⟨logLevel, rfl, rfl⟩ | ⟨d, rfl, hother, -, hlevel⟩
      · have hst := hgood.1 henabled
        obtain ⟨hlen, houtput⟩ := hst.output
        rw [hlevel] at hplain ⊢
        simp only [told, printed, if_pos henabled, houtput, List.flatMap_singleton]
        refine ⟨?_, List.forall_mem_cons.mpr ⟨hst, hplain⟩⟩
        simp only [LogPipeline.stored, strncpy_eq_self hst.text_noNul]
        rfl
      · simp only [told, printed, hdisabled]
        exact ⟨rfl, hplain⟩
      · rw [hlevel] at hplain ⊢
        exact ⟨rfl, hplain⟩
      · exact ⟨rfl, hplain⟩
      · rw [hlevel] at hplain ⊢
        simp only [told, List.flatMap_singleton, stored_of_other hother]
        exact ⟨rfl, hplain⟩

/-- Lines without an end of line in them are found again. -/
theorem splitOn_lines {l : List Statement} (hplain : ∀ st ∈ l, st.Plain outside) :
    (l.map (Statement.text outside)).flatten.splitOn LF = l.map (Statement.body outside) ++ [[]] := by
  induction l with
  | nil => rfl
  | cons st l ih =>
      have hbody : ∀ b ∈ st.body outside, (b == LF) = false := fun b hb =>
        beq_eq_false_iff_ne.mpr ((hplain st List.mem_cons_self).noLF b hb)
      rw [List.map_cons, List.flatten_cons, Statement.text, List.append_assoc, List.singleton_append,
        List.splitOn_eq_splitOnP, List.splitOnP_append_cons_of_forall_mem hbody LF (beq_self_eq_true LF),
        ← List.splitOn_eq_splitOnP, ih fun st' hst' => hplain st' (List.mem_cons_of_mem st hst'),
        List.map_cons, List.cons_append]

/-- **The lines of the log**: whatever the threads do and however the level is set, the lines of the files,
one after the other, are the first of the statements that the level lets through, in the order of their
`append`s, each line whole in one file; the others wait in the buffers. -/
theorem log_lines {rollSize now : ℤ} {logLevel : LogLevel} {es : List ProgramEvent} (hnow : 0 < now)
    (hordinary : Along (programStep outside) (Ordinary outside) (Program.start rollSize now logLevel) es)
    (hrun : runFrom (programStep outside) (Program.start rollSize now logLevel) es = .ok s) :
    ∃ (groups : List (List Statement)) (waiting : List Statement),
      groups.flatten ++ waiting = printed logLevel es ∧
        s.pipe.file.contents = groups.map (fun g => (g.map (Statement.text outside)).flatten) ∧
        s.pipe.file.contents.flatten.splitOn LF = groups.flatten.map (Statement.body outside) ++ [[]] ∧
        (waiting.map (Statement.text outside)).flatten = s.pipe.log.inFlight ++ s.pipe.log.pending := by
  have hpipe := runFrom_traceOf contains_pipe trivial hrun
  have halong := along_traceOf contains_pipe (fun _ _ _ _ hgood hstep => told_accepts hgood hstep) trivial
    hordinary hrun
  obtain ⟨texts, rest, htexts, hcontents, -, hrest⟩ := (LogPipeline.accounts_run hnow halong hpipe).filed
  obtain ⟨hstored, hplain⟩ := trace_stored hordinary hrun
  have hparts : (texts ++ [rest]).flatten = (printed logLevel es).map (Statement.text outside) := by
    rw [List.flatten_append, List.flatten_singleton, htexts]
    exact hstored
  obtain ⟨parts, hprinted, hmap⟩ := LogPipeline.exists_parts hparts
  obtain ⟨groups, last, rfl, rfl, hlast⟩ := List.map_eq_append_iff.mp hmap.symm
  obtain ⟨waiting, rfl, rfl⟩ := List.map_eq_singleton_iff.mp hlast
  rw [List.flatten_append, List.flatten_singleton] at hprinted
  have hgroups : s.pipe.file.contents = groups.map fun g => (g.map (Statement.text outside)).flatten := by
    rw [hcontents, List.map_map]
    rfl
  refine ⟨groups, waiting, hprinted, hgroups, ?_, hrest⟩
  have hwritten : ∀ st ∈ groups.flatten, st.Plain outside := fun st hst =>
    hplain st (by
      show st ∈ printed logLevel es
      rw [← hprinted]
      exact List.mem_append_left _ hst)
  rw [← splitOn_lines hwritten, hgroups, List.map_flatten, List.flatten_flatten, List.map_map]
  rfl

/-- `LOG_INFO << "x"`, at line 7 of `a` in `f`. -/
def oneLine : Statement where
  timeStamp := ascii "0:0"
  tidString := ascii "7"
  level := .INFO
  func := ascii "f"
  basename := ascii "a"
  line := ⟨7, by decide⟩
  arguments := [.cString (ascii "x")]

theorem plain_oneLine (outside : ℤ → UInt8) : oneLine.Plain outside := by
  have hbody : oneLine.body outside =
      ascii "0:0 7 INFO f x - a:" ++ ((Insertion.integer oneLine.line).bytes outside ++ []) := rfl
  have hascii : ∀ b ∈ ascii "0:0 7 INFO f x - a:", b ≠ 0 ∧ b ≠ LF := by decide +kernel
  have hplain : ∀ b ∈ oneLine.body outside, b ≠ 0 ∧ b ≠ LF := by
    intro b hb
    rw [hbody, List.append_nil] at hb
    rcases List.mem_append.mp hb with htext | hnumber
    · exact hascii b htext
    · exact Insertion.bytes_natural outside (by decide) hnumber
  refine ⟨?_, fun b hb => (hplain b hb).1, fun b hb => (hplain b hb).2⟩
  have hnumber := (LogStream.convert_length outside oneLine.line false).2
  have hlengths : oneLine.insertions.map (·.length outside) =
      [3, 1, 1, 1, 4, 1, 1, 1, 1, 3, 1, 1, (convert outside oneLine.line false).2, 1] := rfl
  rw [LogStream.totalLength, hlengths, LogStream.kMaxNumericSize, kSmallBufferSize]
  simp only [List.sum_cons, List.sum_nil]
  omega

/-- It is printed, and not printed when the level is above its own. -/
theorem log_lines_oneLine : ∃ s, runFrom (programStep fun _ => 0) (Program.start 3 10 .INFO)
      [.statement oneLine, .setLogLevel .ERROR, .statement oneLine] = .ok s ∧
    ∃ (groups : List (List Statement)) (waiting : List Statement),
      groups.flatten ++ waiting = [oneLine] ∧
        s.pipe.file.contents = groups.map (fun g => (g.map (Statement.text fun _ => 0)).flatten) ∧
        s.pipe.file.contents.flatten.splitOn LF =
          groups.flatten.map (Statement.body fun _ => 0) ++ [[]] ∧
        (waiting.map (Statement.text fun _ => 0)).flatten = s.pipe.log.inFlight ++ s.pipe.log.pending := by
  have hplain := plain_oneLine fun _ => 0
  obtain ⟨hlen, houtput⟩ := hplain.output
  obtain ⟨log, hlog⟩ : ∃ log, AsyncLog.start.append (oneLine.text fun _ => 0) = .ok log :=
    AsyncLog.append_ok hlen nofun (Or.inr nofun)
  have hpipe : pipeStep (LogPipeline.start 3 10) ⟨.append (oneLine.text fun _ => 0) hlen, []⟩ =
      .ok ⟨log, LogFile.make 3 3 1024 10⟩ := by
    rw [pipeStep, show (LogPipeline.start 3 10).log = AsyncLog.start from rfl, logStep, hlog]
    rfl
  have hfirst : programStep (fun _ => 0) (Program.start 3 10 .INFO) (.statement oneLine) =
      .ok ⟨⟨log, LogFile.make 3 3 1024 10⟩, .INFO, 0⟩ := by
    have henabled : enabled (Program.start 3 10 .INFO).logLevel oneLine.level = true := rfl
    rw [programStep, if_pos henabled, houtput]
    simp only [onPipe, show (Program.start 3 10 .INFO).pipe = LogPipeline.start 3 10 from rfl, hpipe]
    rfl
  have hrun : runFrom (programStep fun _ => 0) (Program.start 3 10 .INFO)
      [.statement oneLine, .setLogLevel .ERROR, .statement oneLine] =
        .ok ⟨⟨log, LogFile.make 3 3 1024 10⟩, .ERROR, 0⟩ := by
    rw [runFrom_cons_ok _ hfirst]
    rfl
  refine ⟨_, hrun, log_lines (show (0 : ℤ) < 10 by decide) ?_ hrun⟩
  exact ⟨fun _ => hplain, fun _ _ => ⟨trivial, fun _ _ => ⟨fun _ => hplain, fun _ _ => trivial⟩⟩⟩

end Logger

end WServer
