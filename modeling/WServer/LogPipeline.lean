import WServer.Library.Projections
import WServer.LogBacklog
import WServer.LogFile

/-!
# From the messages to the files

The log thread owns a `LogFile` and hands each buffer to it in one call of `append`, which may roll to a new
file.  Buffers hold whole messages, as `strncpy` stores them, and a call never splits its text over two
files.  So every message is whole in one file, in the order of the calls of `AsyncLog::append`.

* `handedTo` — the texts that a step of the logger hands over;
* `pipeStep` — the logger together with its files;
* `Batched` — the messages behind the buffers;
* `log_pipeline` — whole runs.
-/

namespace WServer

open Library.Runs

/-- What a call of `LogFile::append` finds: the answers of `fwrite`, and the clock. -/
structure FileAnswer where
  answers : List FwriteResult
  now : ℤ
  rollNow : ℤ

/-- A step of the logger, with what the `LogFile` finds in each of its calls. -/
structure PipeEvent where
  event : LogEvent
  found : List FileAnswer

/-- The logger and the `LogFile` of its thread. -/
structure LogPipeline where
  log : AsyncLog
  file : LogFile

inductive PipeFault where
  | log (fault : LogFault)
  | file (fault : LogFileFault)
  | notThere
  deriving DecidableEq

namespace AsyncLog

/-- The texts that a step hands to the `LogFile`, one call for each: the notice of dropped buffers, and the
buffers. -/
def handedTo (s : AsyncLog) : LogEvent → List (List UInt8)
  | .threadFunc timeStamp =>
      if s.pc = .writeOut then
        if 20 < s.writeToFile.length then
          dropNotice timeStamp (s.writeToFile.length - 2) :: (s.writeToFile.take 2).map contentOf
        else s.writeToFile.map contentOf
      else []
  | .append _ _ | .stop | .flush | .flushWait => []

end AsyncLog

/-- The calls of `LogFile::append`. -/
def fileCalls (texts : List (List UInt8)) (found : List FileAnswer) : List LogFileCall :=
  List.zipWith (fun text f => ⟨text, f.answers, f.now, f.rollNow⟩) texts found

def pipeStep (s : LogPipeline) (e : PipeEvent) : Except PipeFault LogPipeline :=
  if e.found.length = (s.log.handedTo e.event).length then
    match logStep s.log e.event with
    | .error fault => .error (.log fault)
    | .ok log =>
        match runFrom logFileStep s.file (fileCalls (s.log.handedTo e.event) e.found) with
        | .error fault => .error (.file fault)
        | .ok file => .ok ⟨log, file⟩
  else .error .notThere

namespace LogPipeline

variable {s s' : LogPipeline} {e : PipeEvent}

/-- The logger after `start()`, with the `LogFile` that its thread makes at the time `now`.  The interval
and the number of calls between two looks at the clock are the default arguments of its constructor. -/
def start (rollSize now : ℤ) : LogPipeline := ⟨AsyncLog.start, LogFile.make rollSize 3 1024 now⟩

/-- The files take what they are handed at once. -/
def Accepts (s : LogPipeline) (e : PipeEvent) : Prop :=
  ∀ call ∈ fileCalls (s.log.handedTo e.event) e.found, LogFile.Accepted call

instance (s : LogPipeline) (e : PipeEvent) : Decidable (Accepts s e) :=
  inferInstanceAs (Decidable (∀ call ∈ fileCalls (s.log.handedTo e.event) e.found, LogFile.Accepted call))

/-- What a call of `append` stores of its message. -/
def stored (e : PipeEvent) : List (List UInt8) :=
  match e.event with
  | .append msg _ => [strncpy msg]
  | .stop | .flush | .flushWait | .threadFunc _ => []

/-! ### One step -/

theorem pipeStep_ok (h : pipeStep s e = .ok s') : e.found.length = (s.log.handedTo e.event).length ∧
    logStep s.log e.event = .ok s'.log ∧
      runFrom logFileStep s.file (fileCalls (s.log.handedTo e.event) e.found) = .ok s'.file := by
  rw [pipeStep] at h
  split at h
  · rename_i hlength
    split at h
    · cases h
    · rename_i log hlog
      split at h
      · cases h
      · rename_i file hfile
        cases h
        exact ⟨hlength, hlog, hfile⟩
  · cases h

theorem fileCalls_msg {texts : List (List UInt8)} {found : List FileAnswer}
    (h : found.length = texts.length) : (fileCalls texts found).map LogFileCall.msg = texts := by
  induction texts generalizing found with
  | nil => rfl
  | cons text texts ih =>
      cases found with
      | nil => cases h
      | cons f found =>
          rw [fileCalls, List.zipWith_cons_cons, List.map_cons]
          exact congrArg (text :: ·) (ih (Nat.succ.inj h))

/-- The messages that make up the bytes of the buffers, buffer by buffer: those in flight, and those that
wait. -/
structure Batched (log : AsyncLog) (flight waiting : List (List (List UInt8)))
    (cur : List (List UInt8)) : Prop where
  taken : log.pc = .writeOut → log.writeToFile.map AsyncLog.contentOf = flight.map List.flatten
  untaken : log.pc ≠ .writeOut → flight = []
  full : log.buffers.map AsyncLog.contentOf = waiting.map List.flatten
  last : AsyncLog.contentOf log.curBuffer = cur.flatten

/-- **The account.**  The files hold the messages handed over so far, and the others are in the buffers. -/
structure Accounts (rollSize : ℤ) (msgs : List (List UInt8)) (s : LogPipeline) : Prop where
  paired : AsyncLog.Paired s.log
  account : ∃ (calls : List LogFileCall) (handed flight waiting : List (List (List UInt8)))
    (cur : List (List UInt8)),
    LogFile.Logged rollSize calls s.file ∧ calls.map LogFileCall.msg = handed.map List.flatten ∧
      Batched s.log flight waiting cur ∧
      msgs = handed.flatten ++ (flight.flatten ++ (waiting.flatten ++ cur))

section

variable {log log' : AsyncLog} {flight waiting : List (List (List UInt8))} {cur : List (List UInt8)}

theorem Batched.inFlight (h : Batched log flight waiting cur) :
    log.inFlight = flight.flatten.flatten := by
  rw [AsyncLog.inFlight]
  by_cases hpc : log.pc = .writeOut
  · rw [if_pos hpc, List.flatMap_def, h.taken hpc, List.flatten_flatten]
  · rw [if_neg hpc, h.untaken hpc]
    rfl

theorem Batched.pending (h : Batched log flight waiting cur) :
    log.pending = waiting.flatten.flatten ++ cur.flatten := by
  rw [AsyncLog.pending, List.flatMap_def, h.full, h.last, List.flatten_flatten]

/-- A message goes into a buffer as a whole. -/
theorem Batched.append {msg : List UInt8} (h : Batched log flight waiting cur)
    (hclean : AsyncLog.Clean log) (hstep : log.append msg = .ok log') :
    ∃ waiting' cur', Batched log' flight waiting' cur' ∧
      waiting'.flatten ++ cur' = waiting.flatten ++ cur ++ [strncpy msg] := by
  rcases AsyncLog.append_cases hstep with ⟨b, hb, rfl⟩ | ⟨b, next, hb, hnext, rfl⟩
  · refine ⟨waiting, cur ++ [strncpy msg], ⟨h.taken, h.untaken, h.full, ?_⟩, by rw [List.append_assoc]⟩
    have hlast := h.last
    rw [hb] at hlast
    show (b.append msg).content = (cur ++ [strncpy msg]).flatten
    rw [FixedBuffer.append_content, List.flatten_append, List.flatten_singleton, ← hlast]
    rfl
  · have hempty : next.content = [] := by
      have hnone := hclean.nextEmpty
      rw [hnext] at hnone
      exact hnone
    have hlast := h.last
    rw [hb] at hlast
    refine ⟨waiting ++ [cur], [strncpy msg], ⟨h.taken, h.untaken, ?_, ?_⟩, ?_⟩
    · show (log.buffers ++ [some b]).map AsyncLog.contentOf = _
      rw [List.map_append, h.full, List.map_append, List.map_singleton, List.map_singleton, hlast]
    · show (next.append msg).content = [strncpy msg].flatten
      rw [FixedBuffer.append_content, hempty, List.flatten_singleton]
      rfl
    · rw [List.flatten_append, List.flatten_singleton]

/-- The log thread hands over what is in flight. -/
theorem Batched.handedTo (h : Batched log flight waiting cur) (hpaired : AsyncLog.Paired log)
    (timeStamp : List UInt8) : log.handedTo (.threadFunc timeStamp) = flight.map List.flatten := by
  have hfew : ¬ 20 < log.writeToFile.length := Nat.not_lt.mpr (hpaired.taken.trans (by decide))
  rw [AsyncLog.handedTo, if_neg hfew]
  by_cases hpc : log.pc = .writeOut
  · rw [if_pos hpc, h.taken hpc]
  · rw [if_neg hpc, h.untaken hpc]
    rfl

/-- **The log thread** moves the batches on. -/
theorem Batched.threadStep (h : Batched log flight waiting cur) (hclean : AsyncLog.Clean log)
    (hstep : AsyncLog.ThreadStep log log') : ∃ flight' waiting' cur', Batched log' flight' waiting' cur' ∧
      flight'.flatten ++ (waiting'.flatten ++ cur') = waiting.flatten ++ cur := by
  -- all steps but one leave the batches of the front end where they are
  have hstay : ∀ t : AsyncLog, t.pc ≠ .writeOut → t.buffers = log.buffers →
      t.curBuffer = log.curBuffer → ∃ flight' waiting' cur', Batched t flight' waiting' cur' ∧
        flight'.flatten ++ (waiting'.flatten ++ cur') = waiting.flatten ++ cur := by
    intro t hpc hbuffers hcur
    refine ⟨[], waiting, cur, ⟨fun hat => absurd hat hpc, fun _ => rfl, ?_, ?_⟩, rfl⟩
    · rw [hbuffers]
      exact h.full
    · rw [hcur]
      exact h.last
  cases hstep with
  | testRunning hpc =>
      refine hstay _ ?_ rfl rfl
      show (if log.running = true then ThreadPc.lock else .epilogue) ≠ .writeOut
      split <;> decide
  | wait | write | recycle | testFlush | finish => exact hstay _ nofun rfl rfl
  | take hpc =>
      have hrest := hclean.resting (AsyncLog.ThreadStep.not_busy hpc)
      refine ⟨waiting ++ [cur], [], [], ?_, ?_⟩
      · rw [AsyncLog.takeBuffers_eq]
        refine ⟨fun _ => ?_, fun hnot => absurd rfl hnot, ?_, ?_⟩
        · show (log.buffers ++ [log.curBuffer]).map AsyncLog.contentOf = _
          rw [List.map_append, h.full, List.map_append, List.map_singleton, List.map_singleton, h.last]
        · show log.writeToFile.map AsyncLog.contentOf = _
          rw [hrest.writeToFile]
          rfl
        · exact hclean.newBuffer1Empty
      · rw [List.flatten_append, List.flatten_singleton]
        exact List.append_nil _

/-- A step that hands nothing over and appends nothing. -/
theorem Batched.still (h : Batched log flight waiting cur) (hpc : log'.pc = log.pc)
    (hwrite : log'.writeToFile = log.writeToFile) (hbuffers : log'.buffers = log.buffers)
    (hcur : log'.curBuffer = log.curBuffer) : Batched log' flight waiting cur := by
  refine ⟨?_, ?_, ?_, ?_⟩
  · rw [hpc, hwrite]
    exact h.taken
  · rw [hpc]
    exact h.untaken
  · rw [hbuffers]
    exact h.full
  · rw [hcur]
    exact h.last

end

/-- The files of a run of calls. -/
theorem logged_run {rollSize : ℤ} {calls more : List LogFileCall} {file file' : LogFile}
    (h : LogFile.Logged rollSize calls file) (haccepts : ∀ call ∈ more, LogFile.Accepted call)
    (hrun : runFrom logFileStep file more = .ok file') : LogFile.Logged rollSize (calls ++ more) file' := by
  have hlogged := related_events (fun call => [call]) (R := fun ds => LogFile.Logged rollSize (calls ++ ds))
    (fun ds f call f' hf haccepted hstep => by
      obtain ⟨u, hu, hlogged, -⟩ := hf.step haccepted
      rw [hstep] at hu
      cases hu
      rwa [← List.append_assoc]) (by rwa [List.append_nil]) (along_of_forall haccepts) hrun
  rwa [List.flatMap_singleton'] at hlogged

/-- **One step** of the logger moves the batches on, and hands over those in flight. -/
theorem Batched.step {log log' : AsyncLog} {flight waiting : List (List (List UInt8))}
    {cur : List (List UInt8)} {event : LogEvent} (found : List FileAnswer)
    (h : Batched log flight waiting cur) (hpaired : AsyncLog.Paired log)
    (hstep : logStep log event = .ok log') :
    ∃ (handed flight' waiting' : List (List (List UInt8))) (cur' : List (List UInt8)),
      log.handedTo event = handed.map List.flatten ∧
      Batched log' flight' waiting' cur' ∧
      handed.flatten ++ (flight'.flatten ++ (waiting'.flatten ++ cur')) =
        flight.flatten ++ (waiting.flatten ++ cur) ++ stored ⟨event, found⟩ := by
  cases event with
  | append msg hlen =>
      obtain ⟨waiting', cur', hbatched', heq⟩ := h.append hpaired.toClean hstep
      refine ⟨[], flight, waiting', cur', rfl, hbatched', ?_⟩
      rw [heq]
      simp only [stored, List.flatten_nil, List.nil_append, List.append_assoc]
  | stop | flush =>
      cases hstep
      exact ⟨[], flight, waiting, cur, rfl, h.still rfl rfl rfl rfl, (List.append_nil _).symm⟩
  | flushWait =>
      cases AsyncLog.logStep_flushWait hstep
      exact ⟨[], flight, waiting, cur, rfl, h.still rfl rfl rfl rfl, (List.append_nil _).symm⟩
  | threadFunc timeStamp =>
      rcases hpaired.toClean.threadFunc hstep with ⟨hthread, -⟩ | ⟨-, hmany, -⟩
      · obtain ⟨flight', waiting', cur', hbatched', heq⟩ := h.threadStep hpaired.toClean hthread
        refine ⟨flight, flight', waiting', cur', h.handedTo hpaired timeStamp, hbatched', ?_⟩
        rw [heq]
        exact (List.append_nil _).symm
      · exact absurd hmany (Nat.not_lt.mpr (hpaired.taken.trans (by decide)))

/-- **One step** keeps the account. -/
theorem accounts_step {rollSize : ℤ} {msgs : List (List UInt8)} (h : Accounts rollSize msgs s)
    (haccepts : Accepts s e) (hstep : pipeStep s e = .ok s') : Accounts rollSize (msgs ++ stored e) s' := by
  obtain ⟨hlength, hlog, hfile⟩ := pipeStep_ok hstep
  obtain ⟨calls, handed, flight, waiting, cur, hlogged, hcalls, hbatched, hmsgs⟩ := h.account
  obtain ⟨more, flight', waiting', cur', hmore, hbatched', heq⟩ := hbatched.step e.found h.paired hlog
  refine ⟨AsyncLog.paired_step _ _ _ h.paired hlog, _, handed ++ more, flight', waiting', cur',
    logged_run hlogged haccepts hfile, ?_, hbatched', ?_⟩
  · rw [List.map_append, fileCalls_msg hlength, hcalls, hmore, List.map_append]
  · rw [hmsgs, List.flatten_append, List.append_assoc, List.append_assoc handed.flatten, heq]

/-! ### Whole runs -/

/-- What makes up the images of a list, part by part, makes up the list. -/
theorem exists_parts {α β : Type*} {f : α → β} {g : List (List β)} {l : List α}
    (h : g.flatten = l.map f) : ∃ parts : List (List α), parts.flatten = l ∧ g = parts.map (List.map f) := by
  induction g generalizing l with
  | nil =>
      rw [List.flatten_nil, eq_comm, List.map_eq_nil_iff] at h
      exact ⟨[], h.symm, rfl⟩
  | cons x g ih =>
      rw [List.flatten_cons, eq_comm, List.map_eq_append_iff] at h
      obtain ⟨l₁, l₂, rfl, rfl, hrest⟩ := h
      obtain ⟨parts, rfl, rfl⟩ := ih hrest.symm
      exact ⟨l₁ :: parts, rfl, rfl⟩

theorem accounts_start (rollSize : ℤ) {now : ℤ} (hnow : 0 < now) :
    Accounts rollSize [] (start rollSize now) :=
  ⟨AsyncLog.paired_start, [], [], [], [], [], LogFile.logged_make hnow, rfl,
    ⟨nofun, fun _ => rfl, rfl, rfl⟩, rfl⟩

/-- What the account tells of the files. -/
theorem Accounts.filed {rollSize : ℤ} {msgs : List (List UInt8)} (h : Accounts rollSize msgs s) :
    ∃ (groups : List (List (List UInt8))) (rest : List (List UInt8)),
      groups.flatten ++ rest = msgs ∧ s.file.contents = groups.map List.flatten ∧
        s.file.rolls.Pairwise (· < ·) ∧ rest.flatten = s.log.inFlight ++ s.log.pending := by
  obtain ⟨hpaired, calls, handed, flight, waiting, cur, ⟨-, f, groups, last, hgroups, hfiled⟩, hcalls,
    hbatched, hmsgs⟩ := h
  obtain ⟨g, hg, hcontents⟩ := hfiled.grouped
  rw [hgroups, hcalls] at hg
  obtain ⟨parts, hparts, rfl⟩ := exists_parts hg
  refine ⟨parts.map List.flatten, flight.flatten ++ (waiting.flatten ++ cur), ?_, ?_, hfiled.rolls, ?_⟩
  · rw [hmsgs, ← hparts, List.flatten_flatten]
  · rw [hcontents, List.map_map, List.map_map]
    exact List.map_congr_left fun part _ => List.flatten_flatten.symm
  · rw [List.flatten_append, List.flatten_append, hbatched.inFlight, hbatched.pending]

/-- **A run** keeps the account. -/
theorem accounts_run {rollSize now : ℤ} {es : List PipeEvent} (hnow : 0 < now)
    (haccepts : Along pipeStep Accepts (start rollSize now) es)
    (hrun : runFrom pipeStep (start rollSize now) es = .ok s) : Accounts rollSize (es.flatMap stored) s :=
  related_events stored (R := Accounts rollSize) (fun _ _ _ _ h hgood hstep => accounts_step h hgood hstep)
    (accounts_start rollSize hnow) haccepts hrun

/-- **From the messages to the files.**  Whatever the threads do and whenever the files roll: the first
messages, in the order of their `append`s and as they are stored, are in the files, each message whole in
one file, the files in the order of their opening; the others are in the buffers. -/
theorem log_pipeline {rollSize now : ℤ} {es : List PipeEvent} (hnow : 0 < now)
    (haccepts : Along pipeStep Accepts (start rollSize now) es)
    (hrun : runFrom pipeStep (start rollSize now) es = .ok s) :
    ∃ (groups : List (List (List UInt8))) (rest : List (List UInt8)),
      groups.flatten ++ rest = es.flatMap stored ∧ s.file.contents = groups.map List.flatten ∧
        s.file.rolls.Pairwise (· < ·) ∧ rest.flatten = s.log.inFlight ++ s.log.pending :=
  (accounts_run hnow haccepts hrun).filed

theorem nextByte_fits : [(121 : UInt8)].length ≤ kSmallBufferSize := by decide

/-- A message that goes to a file, and one that waits. -/
def twoMessages : List PipeEvent :=
  [⟨.append [120] oneByte_fits, []⟩, ⟨.threadFunc [], []⟩, ⟨.threadFunc [], []⟩, ⟨.threadFunc [], []⟩,
    ⟨.threadFunc [], [⟨[⟨9, false⟩], 11, 11⟩]⟩, ⟨.append [121] nextByte_fits, []⟩]

theorem log_pipeline_twoMessages : ∃ s, runFrom pipeStep (start 3 10) twoMessages = .ok s ∧
    s.file.contents = [[120]] ∧ ∃ (groups : List (List (List UInt8))) (rest : List (List UInt8)),
      groups.flatten ++ rest = twoMessages.flatMap stored ∧
        s.file.contents = groups.map List.flatten ∧ s.file.rolls.Pairwise (· < ·) ∧
        rest.flatten = s.log.inFlight ++ s.log.pending := by
  have hnow : (0 : ℤ) < 10 := by decide
  have haccepts : Along pipeStep Accepts (start 3 10) twoMessages := by decide +kernel
  exact ⟨_, rfl, rfl, log_pipeline hnow haccepts rfl⟩

end LogPipeline

end WServer
