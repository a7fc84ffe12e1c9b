import WServer.AppendFile
import WServer.Library.Runs

/-!
# The rolling log file

`LogFile` writes its messages to a file and rolls to a new one when the file has grown beyond
`m_roll_size` or, looked at every `m_check_every_N` messages, when a new day has begun.  Files are named
by the second of their creation, so it does not roll twice in a second, nor when the clock has been set
back.

A step is one call of `append`, with the answers of `fwrite` and the two clock readings it may make: that
of `append_unlocked`, and that of `rollFile`.  A new file is empty.  `time_t` is an integer.

* `Appended`, `append_cases` — what a call does to the file it has written to;
* `Partition` — the files hold the messages so far, each in one of them, and were opened one after the
  other;
* `log_rolling` — whole runs.
-/

namespace WServer

open Library.Runs

/-- The files so far are `closed`, each with the value of `m_last_roll` while it was written to, and then
`file`. -/
structure LogFile where
  rollSize : ℤ
  flushInterval : ℤ
  checkEveryN : ℤ
  cnt : ℤ
  startOfPeriod : ℤ
  lastRoll : ℤ
  lastFlush : ℤ
  file : Option AppendFile
  closed : List (ℤ × AppendFile)

/-- A call of a member of a file that is not there, or a loop of `append` that goes on. -/
inductive LogFileFault where
  | noFile
  | writing
  deriving DecidableEq

/-- A call of `append`: `now` is the reading of `append_unlocked`, and `rollNow` that of `rollFile`. -/
structure LogFileCall where
  msg : List UInt8
  answers : List FwriteResult
  now : ℤ
  rollNow : ℤ

namespace LogFile

def kRollPerSeconds : ℤ := 60 * 60 * 24

/-- All files, in the order in which they were opened. -/
def files (s : LogFile) : List (ℤ × AppendFile) :=
  s.closed ++ s.file.toList.map fun f => (s.lastRoll, f)

def rollFile (now : ℤ) (s : LogFile) : Bool × LogFile :=
  let start := now.tdiv kRollPerSeconds * kRollPerSeconds
  if s.lastRoll < now then
    (true, { s with
      lastRoll := now
      lastFlush := now
      startOfPeriod := start
      file := some AppendFile.make
      closed := s.files })
  else (false, s)

/-- The constructor, with the reading of its `rollFile`. -/
def make (rollSize flushInterval checkEveryN now : ℤ) : LogFile :=
  let s : LogFile :=
    { rollSize := rollSize
      flushInterval := flushInterval
      checkEveryN := checkEveryN
      cnt := 0
      startOfPeriod := 0
      lastRoll := 0
      lastFlush := 0
      file := none
      closed := [] }
  (s.rollFile now).2

/-- What follows the write in `append_unlocked`; flushing only moves bytes on to the file. -/
def afterWrite (f : AppendFile) (now rollNow : ℤ) (s : LogFile) : LogFile :=
  if s.rollSize < f.writedBytes then (s.rollFile rollNow).2
  else
    let s := { s with cnt := s.cnt + 1 }
    if s.checkEveryN ≤ s.cnt then
      let s := { s with cnt := 0 }
      let currentPeriod := now.tdiv kRollPerSeconds * kRollPerSeconds
      if s.startOfPeriod < currentPeriod then (s.rollFile rollNow).2
      else if s.flushInterval < now - s.lastFlush then { s with lastFlush := now }
      else s
    else s

def appendUnlocked (call : LogFileCall) (s : LogFile) : Except LogFileFault LogFile :=
  match s.file with
  | none => .error .noFile
  | some f =>
      match f.append call.answers call.msg with
      | none => .error .writing
      | some f => .ok ({ s with file := some f }.afterWrite f call.now call.rollNow)

/-- `append`, which holds `m_mutex`. -/
def append (call : LogFileCall) (s : LogFile) : Except LogFileFault LogFile := s.appendUnlocked call

end LogFile

/-- One call. -/
def logFileStep (s : LogFile) (call : LogFileCall) : Except LogFileFault LogFile := s.append call

namespace LogFile

variable {s s' : LogFile} {f : AppendFile} {now rollNow : ℤ}

/-! ### One call -/

/-- What becomes of a log file that has written to `f`. -/
inductive Appended (s : LogFile) (f : AppendFile) (rollNow : ℤ) : LogFile → Prop where
  | kept (cnt lastFlush : ℤ) (hsize : f.writedBytes ≤ s.rollSize) :
      Appended s f rollNow { s with file := some f, cnt := cnt, lastFlush := lastFlush }
  | refused (cnt : ℤ) (hback : rollNow ≤ s.lastRoll) :
      Appended s f rollNow { s with file := some f, cnt := cnt }
  | rolled (cnt startOfPeriod : ℤ) (hnow : s.lastRoll < rollNow) :
      Appended s f rollNow { s with
        cnt := cnt
        startOfPeriod := startOfPeriod
        lastRoll := rollNow
        lastFlush := rollNow
        file := some AppendFile.make
        closed := s.closed ++ [(s.lastRoll, f)] }

/-- `rollFile` rolls exactly if the clock is past the last roll. -/
theorem rollFile_appended (s : LogFile) (f : AppendFile) (cnt rollNow : ℤ) :
    Appended s f rollNow (rollFile rollNow { s with file := some f, cnt := cnt }).2 := by
  rw [rollFile]
  by_cases hnow : s.lastRoll < rollNow
  · rw [if_pos hnow]
    exact .rolled cnt _ hnow
  · rw [if_neg hnow]
    exact .refused cnt (not_lt.mp hnow)

theorem afterWrite_appended (s : LogFile) (f : AppendFile) (now rollNow : ℤ) :
    Appended s f rollNow ({ s with file := some f }.afterWrite f now rollNow) := by
  rw [afterWrite]
  by_cases hsize : s.rollSize < f.writedBytes
  · rw [if_pos hsize]
    exact rollFile_appended s f s.cnt rollNow
  · rw [if_neg hsize]
    have hkept := not_lt.mp hsize
    simp only
    split
    · split
      · exact rollFile_appended s f 0 rollNow
      · split
        · exact .kept 0 now hkept
        · exact .kept 0 s.lastFlush hkept
    · exact .kept (s.cnt + 1) s.lastFlush hkept

/-- **A call** whose message is taken at once. -/
theorem append_cases {call : LogFileCall} (hfile : s.file = some f)
    (htakes : AppendFile.TakesAll call.msg.length call.answers) :
    ∃ error s', s.append call = .ok s' ∧
      Appended s { f with
        content := f.content ++ call.msg
        error := error
        writedBytes := f.writedBytes + call.msg.length } call.rollNow s' := by
  obtain ⟨error, happend⟩ := AppendFile.append_takesAll f htakes
  refine ⟨error, _, ?_, afterWrite_appended s _ call.now call.rollNow⟩
  rw [append, appendUnlocked, hfile]
  simp only [happend]

/-! ### The files -/

/-- The contents of the files, in the order of their opening. -/
def contents (s : LogFile) : List (List UInt8) := s.files.map fun file => file.2.content

/-- The values of `m_last_roll` under which the files were opened. -/
def rolls (s : LogFile) : List ℤ := s.files.map Prod.fst

/-- The files hold the messages in their order, each message in one file: `groups` are the messages of
each file. -/
def Grouped (messages : List (List UInt8)) (s : LogFile) : Prop :=
  ∃ groups : List (List (List UInt8)), groups.flatten = messages ∧ s.contents = groups.map List.flatten

/-- Messages in files are the bytes of the files. -/
theorem Grouped.flatten {messages : List (List UInt8)} (h : s.Grouped messages) :
    s.contents.flatten = messages.flatten := by
  obtain ⟨groups, hgroups, hcontents⟩ := h
  rw [hcontents, ← hgroups, List.flatten_flatten]

/-- The file that is open holds the messages `last`, and those before it the messages `groups`; they were
opened one after the other. -/
structure Filed (s : LogFile) (f : AppendFile) (groups : List (List (List UInt8)))
    (last : List (List UInt8)) : Prop where
  file : s.file = some f
  counted : f.Counted
  closed : (s.closed.map fun file => file.2.content) = groups.map List.flatten
  content : f.content = last.flatten
  increasing : (s.closed.map Prod.fst ++ [s.lastRoll]).Pairwise (· < ·)

theorem Filed.files {groups : List (List (List UInt8))} {last : List (List UInt8)}
    (h : Filed s f groups last) : s.files = s.closed ++ [(s.lastRoll, f)] := by
  rw [LogFile.files, h.file]
  rfl

theorem Filed.grouped {groups : List (List (List UInt8))} {last : List (List UInt8)}
    (h : Filed s f groups last) : s.Grouped (groups.flatten ++ last) := by
  refine ⟨groups ++ [last], ?_, ?_⟩
  · rw [List.flatten_append, List.flatten_singleton]
  · rw [contents, h.files, List.map_append, h.closed, List.map_append]
    exact congrArg (fun bytes => groups.map List.flatten ++ [bytes]) h.content

theorem Filed.rolls {groups : List (List (List UInt8))} {last : List (List UInt8)}
    (h : Filed s f groups last) : s.rolls.Pairwise (· < ·) := by
  rw [LogFile.rolls, h.files, List.map_append]
  exact h.increasing

/-- A file that has grown by a message. -/
theorem Filed.grown {groups : List (List (List UInt8))} {last : List (List UInt8)}
    (h : Filed s f groups last) (msg : List UInt8) (error : Bool) :
    ∃ f', f' = { f with
        content := f.content ++ msg
        error := error
        writedBytes := f.writedBytes + msg.length } ∧
      f'.Counted ∧ f'.content = (last ++ [msg]).flatten := by
  refine ⟨_, rfl, ?_, ?_⟩
  · show f.writedBytes + msg.length = (f.content ++ msg).length
    rw [h.counted, List.length_append]
  · show f.content ++ msg = _
    rw [h.content, List.flatten_append, List.flatten_singleton]

/-- **What a call keeps**: the message is one of the last file's, or of the file that the call has
closed. -/
theorem Filed.appended {groups : List (List (List UInt8))} {last : List (List UInt8)}
    (h : Filed s f groups last) {f' : AppendFile} {msg : List UInt8} (hcounted : f'.Counted)
    (hcontent : f'.content = (last ++ [msg]).flatten) (hcase : Appended s f' rollNow s') :
    ∃ f groups' last', groups'.flatten ++ last' = groups.flatten ++ last ++ [msg] ∧
      Filed s' f groups' last' := by
  cases hcase with
  | kept cnt lastFlush hsize =>
      refine ⟨f', groups, last ++ [msg], by rw [List.append_assoc], ?_⟩
      exact ⟨rfl, hcounted, h.closed, hcontent, h.increasing⟩
  | refused cnt hback =>
      refine ⟨f', groups, last ++ [msg], by rw [List.append_assoc], ?_⟩
      exact ⟨rfl, hcounted, h.closed, hcontent, h.increasing⟩
  | rolled cnt startOfPeriod hnow =>
      refine ⟨AppendFile.make, groups ++ [last ++ [msg]], [], ?_, rfl, AppendFile.counted_make, ?_, rfl, ?_⟩
      · rw [List.flatten_append, List.flatten_singleton, List.append_nil, List.append_assoc]
      · show (s.closed ++ [(s.lastRoll, f')]).map (fun file => file.2.content) = _
        rw [List.map_append, h.closed, List.map_append]
        exact congrArg (fun bytes => groups.map List.flatten ++ [bytes]) hcontent
      · show ((s.closed ++ [(s.lastRoll, f')]).map Prod.fst ++ [rollNow]).Pairwise (· < ·)
        rw [List.map_append]
        refine List.pairwise_append.mpr ⟨h.increasing, List.pairwise_singleton _ _, ?_⟩
        intro roll hroll now' hnow'
        rw [List.mem_singleton.mp hnow']
        rcases List.mem_append.mp hroll with hclosed | hcur
        · have hbefore := (List.pairwise_append.mp h.increasing).2.2 roll hclosed s.lastRoll
            (List.mem_singleton_self _)
          exact hbefore.trans hnow
        · rw [List.mem_singleton.mp hcur]
          exact hnow

/-- A call that would roll leaves a file that is not too large. -/
theorem Appended.bounded (hcase : Appended s f rollNow s') (hcounted : f.Counted)
    (hsize : 0 ≤ s.rollSize) (hnow : s.lastRoll < rollNow) :
    ∃ f', s'.file = some f' ∧ (f'.content.length : ℤ) ≤ s.rollSize := by
  cases hcase with
  | kept cnt lastFlush hkept =>
      refine ⟨f, rfl, ?_⟩
      rw [← hcounted]
      exact hkept
  | refused cnt hback => exact absurd hnow (not_lt.mpr hback)
  | rolled cnt startOfPeriod _ => exact ⟨AppendFile.make, rfl, hsize⟩

theorem Appended.rollSize (hcase : Appended s f rollNow s') : s'.rollSize = s.rollSize := by
  cases hcase <;> rfl

/-! ### Whole runs -/

/-- The state after calls with these messages. -/
def Logged (rollSize : ℤ) (calls : List LogFileCall) (s : LogFile) : Prop :=
  s.rollSize = rollSize ∧ ∃ f groups last,
    groups.flatten ++ last = calls.map LogFileCall.msg ∧ Filed s f groups last

theorem logged_make {rollSize flushInterval checkEveryN now : ℤ} (hnow : 0 < now) :
    Logged rollSize [] (make rollSize flushInterval checkEveryN now) := by
  rw [make, rollFile, if_pos (show (0 : ℤ) < now from hnow)]
  exact ⟨rfl, AppendFile.make, [], [], rfl, rfl, AppendFile.counted_make, rfl, rfl,
    List.pairwise_singleton _ _⟩

/-- `fwrite` takes the message of a call at once. -/
def Accepted (call : LogFileCall) : Prop := AppendFile.TakesAll call.msg.length call.answers

instance (call : LogFileCall) : Decidable (Accepted call) :=
  inferInstanceAs (Decidable (AppendFile.TakesAll _ _))

/-- **One call.** -/
theorem Logged.step {rollSize : ℤ} {calls : List LogFileCall} (h : Logged rollSize calls s)
    {call : LogFileCall} (htakes : Accepted call) :
    ∃ s', logFileStep s call = .ok s' ∧ Logged rollSize (calls ++ [call]) s' ∧
      (0 ≤ rollSize → s.lastRoll < call.rollNow →
        ∃ f, s'.file = some f ∧ (f.content.length : ℤ) ≤ rollSize) := by
  obtain ⟨rfl, f, groups, last, hmessages, hfiled⟩ := h
  obtain ⟨error, s', hok, hcase⟩ := append_cases hfiled.file htakes
  obtain ⟨f', hf', hcounted, hcontent⟩ := hfiled.grown call.msg error
  rw [← hf'] at hcase
  obtain ⟨f'', groups', last', hgroups, hfiled'⟩ := hfiled.appended hcounted hcontent hcase
  refine ⟨s', hok, ⟨hcase.rollSize, f'', groups', last', ?_, hfiled'⟩, ?_⟩
  · rw [hgroups, hmessages, List.map_append, List.map_singleton]
  · exact fun hsize hnow => hcase.bounded hcounted hsize hnow

/-- **Log rolling.**  Whatever messages are appended and whatever the clock shows: the files hold the
messages in their order, none in two files, each file was opened later than the one before, and after a
call that finds the clock past the last roll the file is not larger than `m_roll_size`. -/
theorem log_rolling {rollSize flushInterval checkEveryN now : ℤ} (calls : List LogFileCall)
    (hsize : 0 ≤ rollSize) (hnow : 0 < now) (htakes : ∀ call ∈ calls, Accepted call) :
    ∃ s, runFrom logFileStep (make rollSize flushInterval checkEveryN now) calls = .ok s ∧
      s.contents.flatten = (calls.map LogFileCall.msg).flatten ∧
      s.Grouped (calls.map LogFileCall.msg) ∧
      s.rolls.Pairwise (· < ·) ∧
      ∀ before call after, calls = before ++ call :: after →
        ∃ u u', runFrom logFileStep (make rollSize flushInterval checkEveryN now) before = .ok u ∧
          logFileStep u call = .ok u' ∧
          (u.lastRoll < call.rollNow →
            ∃ f, u'.file = some f ∧ (f.content.length : ℤ) ≤ rollSize) := by
  have hrun : ∀ calls' : List LogFileCall, (∀ call ∈ calls', Accepted call) →
      ∃ s, runFrom logFileStep (make rollSize flushInterval checkEveryN now) calls' = .ok s ∧
        Logged rollSize ([] ++ calls') s := fun calls' hcalls' =>
    run_history (Logged rollSize) (fun pre u call hu hcall => by
      obtain ⟨u', hok, hu', -⟩ := hu.step hcall
      exact ⟨u', hok, hu'⟩) calls' (logged_make hnow) (along_of_forall hcalls')
  obtain ⟨s, hs, -, f, groups, last, hmessages, hfiled⟩ := hrun calls htakes
  have hgrouped := hfiled.grouped
  rw [hmessages, List.nil_append] at hgrouped
  refine ⟨s, hs, hgrouped.flatten, hgrouped, hfiled.rolls, ?_⟩
  rintro before call after rfl
  obtain ⟨u, hu, hlogged⟩ := hrun before fun c hc => htakes c (List.mem_append_left _ hc)
  obtain ⟨u', hok, -, hbound⟩ := hlogged.step (htakes call (List.mem_append_right _ List.mem_cons_self))
  exact ⟨u, u', hu, hok, hbound hsize⟩

/-- Two messages, the first of which fills the file. -/
def twoMessages : List LogFileCall :=
  [⟨[1, 2, 3, 4], [⟨9, false⟩], 11, 11⟩, ⟨[5], [⟨9, false⟩], 12, 12⟩]

theorem log_rolling_twoMessages :
    ∃ s, runFrom logFileStep (make 3 3 1024 10) twoMessages = .ok s ∧
      s.contents.flatten = [1, 2, 3, 4, 5] := by
  obtain ⟨s, hs, hcontents, -⟩ := @log_rolling 3 3 1024 10 twoMessages (by decide) (by decide)
    (by decide)
  exact ⟨s, hs, hcontents⟩

end LogFile

end WServer
