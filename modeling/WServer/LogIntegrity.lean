import WServer.LogBytes

/-!
# The log as a whole

What the `LogFile` has been handed, followed by what is still in the buffers, is the concatenation of the
messages in the order of their `append`s, except where a backlog of more than twenty buffers was cut:
there, a notice precedes the first two buffers of the backlog and the others are missing.

* `Stretch` — a part of the log: bytes that are kept, or a backlog that was cut down;
* `discards` — the cuts that a run makes, in their order;
* `Accounted` — the stretches that account for what has been handed over;
* `accounted_step` — each step adds to the account what it does;
* `stream_intact` — whole runs.
-/

namespace WServer

/-- The message of an `append`. -/
def LogEvent.message : LogEvent → List UInt8
  | .append msg _ => msg
  | _ => []

theorem LogEvent.stored_eq_message {e : LogEvent} (h : ∀ b ∈ e.message, b ≠ 0) :
    e.stored = e.message := by
  cases e with
  | append msg hlen => exact strncpy_eq_self h
  | stop | flush | flushWait | threadFunc => rfl

namespace AsyncLog

open Library.Runs

variable {s s' : AsyncLog}

/-! ### Stretches of the log -/

/-- A backlog that was cut down: the time stamp of the notice, the two buffers that were kept, and the
whole buffers that were not. -/
structure Discard where
  timeStamp : List UInt8
  first : LargeBuffer
  second : LargeBuffer
  dropped : List LargeBuffer

/-- A part of the log. -/
inductive Stretch where
  | kept (bytes : List UInt8)
  | cut (d : Discard)

namespace Stretch

/-- What the messages of the stretch contributed. -/
def appended : Stretch → List UInt8
  | kept bytes => bytes
  | cut d => d.first.content ++ (d.second.content ++ d.dropped.flatMap FixedBuffer.content)

/-- What the log holds for it. -/
def written : Stretch → List UInt8
  | kept bytes => bytes
  | cut d => dropNotice d.timeStamp d.dropped.length ++ (d.first.content ++ d.second.content)

def discard? : Stretch → Option Discard
  | kept _ => none
  | cut d => some d

end Stretch

/-- The backlog that a step cuts down, if it does. -/
def discardOf (s : AsyncLog) : LogEvent → Option Discard
  | .threadFunc timeStamp =>
      if s.pc = .writeOut ∧ 20 < s.writeToFile.length then
        match s.writeToFile with
        | some first :: some second :: rest => some ⟨timeStamp, first, second, rest.filterMap id⟩
        | _ => none
      else none
  | _ => none

/-- The backlogs that a run cuts down. -/
def discards : AsyncLog → List LogEvent → List Discard
  | _, [] => []
  | s, e :: es =>
      (discardOf s e).toList ++
        match logStep s e with
        | .ok s' => discards s' es
        | .error _ => []

/-! ### One step -/

/-- The stretches account for the messages `log`, up to what is in flight or pending. -/
structure Accounted (s : AsyncLog) (log : List UInt8) (stretches : List Stretch) : Prop where
  written : stretches.flatMap Stretch.written = s.output
  appended : stretches.flatMap Stretch.appended ++ (s.inFlight ++ s.pending) = log

variable {log : List UInt8} {stretches : List Stretch}

theorem accounted_start : Accounted start [] [] := ⟨rfl, rfl⟩

/-- Bytes handed over as they were. -/
theorem Accounted.keep (h : Accounted s log stretches) {bytes : List UInt8}
    (houtput : s'.output = s.output ++ bytes)
    (hleft : bytes ++ (s'.inFlight ++ s'.pending) = s.inFlight ++ s.pending) :
    Accounted s' log (stretches ++ [.kept bytes]) := by
  refine ⟨?_, ?_⟩
  · rw [List.flatMap_append, h.written, List.flatMap_singleton, houtput]
    rfl
  · rw [List.flatMap_append, List.flatMap_singleton, List.append_assoc, ← h.appended, ← hleft]
    rfl

/-- **Kept.**  A step of the log thread that drops no buffers hands over what was in flight, or nothing. -/
theorem Accounted.threadStep (h : Accounted s log stretches) (hclean : Clean s)
    (hstep : ThreadStep s s') : ∃ bytes, Accounted s' log (stretches ++ [.kept bytes]) := by
  -- all steps but two leave the bytes where they are
  have hsame : ∀ t : AsyncLog, t.output = s.output → t.pending = s.pending → s.pc ≠ .writeOut →
      t.pc ≠ .writeOut → Accounted t log (stretches ++ [.kept []]) := by
    intro t houtput hpending hpc hpc'
    refine h.keep (by rw [houtput, List.append_nil]) ?_
    rw [hpending, inFlight_of_ne hpc, inFlight_of_ne hpc', List.nil_append]
  cases hstep with
  | testRunning hpc =>
      refine ⟨[], hsame _ rfl rfl (by rw [hpc]; decide) ?_⟩
      show (if s.running = true then ThreadPc.lock else .epilogue) ≠ .writeOut
      split <;> decide
  | wait hpc => exact ⟨[], hsame _ rfl rfl (by rw [hpc]; decide) (by exact nofun)⟩
  | take hpc =>
      obtain ⟨hflight, hpending⟩ := hclean.takeBuffers hpc
      have hnone : s.inFlight = [] :=
        inFlight_of_ne (by rcases hpc with hpc | hpc <;> rw [hpc] <;> decide)
      refine ⟨[], h.keep (by rw [takeBuffers_output, List.append_nil]) ?_⟩
      rw [hflight, hpending, hnone, List.append_nil, List.nil_append]
  | write hpc =>
      have hnone : ({ s with output := s.output ++ s.inFlight, pc := .recycle } : AsyncLog).inFlight
          = [] := inFlight_of_ne nofun
      refine ⟨s.inFlight, h.keep rfl ?_⟩
      rw [hnone, List.nil_append]
      rfl
  | recycle hpc => exact ⟨[], hsame _ rfl rfl (by rw [hpc]; decide) (by exact nofun)⟩
  | testFlush hpc => exact ⟨[], hsame _ rfl rfl (by rw [hpc]; decide) (by exact nofun)⟩
  | finish hpc => exact ⟨[], hsame _ rfl rfl (by rw [hpc]; decide) (by exact nofun)⟩

/-- **Cut.**  A step that cuts a backlog hands over a notice and two buffers for all of them. -/
theorem Accounted.cut (h : Accounted s log stretches) (hclean : Clean s) (hpc : s.pc = .writeOut)
    (hmany : 20 < s.writeToFile.length) (timeStamp : List UInt8) :
    ∃ d, discardOf s (.threadFunc timeStamp) = some d ∧
      Accounted (s.cut timeStamp) log (stretches ++ [.cut d]) := by
  obtain ⟨bs, hbs⟩ := hclean.writeToFile_there (Or.inl hpc)
  obtain ⟨first, second, rest, rfl⟩ : ∃ first second rest, bs = first :: second :: rest := by
    rw [hbs, List.length_map] at hmany
    obtain ⟨first, bs, rfl⟩ :=
      List.exists_cons_of_ne_nil (List.length_pos_iff.mp (by omega : 0 < bs.length))
    rw [List.length_cons] at hmany
    obtain ⟨second, bs, rfl⟩ :=
      List.exists_cons_of_ne_nil (List.length_pos_iff.mp (by omega : 0 < bs.length))
    exact ⟨first, second, bs, rfl⟩
  have hrest : (rest.map some).filterMap id = rest := by
    rw [List.filterMap_map]
    exact List.filterMap_some
  have hflight : s.inFlight
      = first.content ++ (second.content ++ rest.flatMap FixedBuffer.content) := by
    rw [inFlight, if_pos hpc, hbs]
    simp only [List.map_cons, List.flatMap_cons, List.flatMap_map, contentOf]
  refine ⟨⟨timeStamp, first, second, rest⟩, ?_, ?_, ?_⟩
  · rw [discardOf, if_pos ⟨hpc, hmany⟩, hbs]
    simp only [List.map_cons, hrest]
  · have hcount : rest.length + 1 + 1 - 2 = rest.length := by omega
    rw [List.flatMap_append, h.written, List.flatMap_singleton]
    simp only [AsyncLog.cut, hbs, Stretch.written, List.map_cons, List.take_succ_cons, List.take_zero,
      List.flatMap_cons, List.flatMap_nil, contentOf, List.append_nil, List.length_cons, List.length_map,
      List.append_assoc, hcount]
  · rw [List.flatMap_append, List.flatMap_singleton, ← h.appended, hflight, List.append_assoc]
    rfl

/-- **One step** adds its message to the log, and to the account what it hands over. -/
theorem accounted_step (s : AsyncLog) (e : LogEvent) (s' : AsyncLog) (hclean : Clean s)
    (h : Accounted s log stretches) (hstep : logStep s e = .ok s') :
    ∃ st : Stretch, st.discard? = discardOf s e ∧ Accounted s' (log ++ e.stored) (stretches ++ [st]) := by
  -- a step that moves no byte
  have hidle : ∀ t : AsyncLog, t.output = s.output → t.inFlight = s.inFlight → t.pending = s.pending →
      Accounted t (log ++ []) (stretches ++ [.kept []]) := by
    intro t houtput hflight hpending
    rw [List.append_nil]
    exact h.keep (by rw [houtput, List.append_nil]) (by rw [hflight, hpending, List.nil_append])
  cases e with
  | append msg hlen =>
      obtain ⟨hpending, hflight, houtput⟩ := hclean.pending_append hstep
      refine ⟨.kept [], rfl, ?_, ?_⟩
      · rw [List.flatMap_append, h.written, houtput]
        exact List.append_nil _
      · rw [List.flatMap_append, hflight, hpending, ← h.appended, List.flatMap_singleton]
        simp only [Stretch.appended, List.append_nil, List.append_assoc]
        rfl
  | stop =>
      cases hstep
      exact ⟨.kept [], rfl, hidle _ rfl rfl rfl⟩
  | flush =>
      cases hstep
      exact ⟨.kept [], rfl, hidle _ rfl rfl rfl⟩
  | flushWait =>
      cases logStep_flushWait hstep
      exact ⟨.kept [], rfl, hidle _ rfl rfl rfl⟩
  | threadFunc timeStamp =>
      rw [show (LogEvent.threadFunc timeStamp).stored = [] from rfl, List.append_nil]
      rcases hclean.threadFunc hstep with ⟨hthread, hfew⟩ | ⟨hpc, hmany, rfl⟩
      · obtain ⟨bytes, hbytes⟩ := h.threadStep hclean hthread
        refine ⟨.kept bytes, ?_, hbytes⟩
        rw [discardOf, if_neg fun hmany => Nat.not_lt.mpr (hfew hmany.1) hmany.2]
        rfl
      · obtain ⟨d, hd, hcut⟩ := h.cut hclean hpc hmany timeStamp
        exact ⟨.cut d, hd.symm, hcut⟩

/-! ### Whole runs -/

/-- **Runs** are accounted for, one stretch for each step. -/
theorem accounted_run (es : List LogEvent) :
    ∀ (s : AsyncLog) (log : List UInt8) (stretches : List Stretch) (t : AsyncLog), Clean s →
      Accounted s log stretches → runFrom logStep s es = .ok t →
      ∃ more : List Stretch, more.filterMap Stretch.discard? = discards s es ∧
        Accounted t (log ++ es.flatMap LogEvent.stored) (stretches ++ more) := by
  induction es with
  | nil =>
      intro s log stretches t _ h hrun
      rw [runFrom_nil] at hrun
      cases hrun
      exact ⟨[], rfl, by simpa using h⟩
  | cons e es ih =>
      intro s log stretches t hclean h hrun
      obtain ⟨s', hs, hrest⟩ := runFrom_cons_eq_ok hrun
      obtain ⟨st, hst, h'⟩ := accounted_step s e s' hclean h hs
      obtain ⟨more, hmore, ht⟩ := ih s' _ _ t (clean_step s e s' hclean hs) h' hrest
      refine ⟨st :: more, ?_, by simpa using ht⟩
      rw [← List.singleton_append, List.filterMap_append, hmore, discards, hs, ← hst]
      cases st <;> rfl

/-- **Integrity.**  In every state of the logger that is reached without a fault, the bytes handed to
the `LogFile`, those in flight and those that wait make up the messages of the `append`s in their order,
except that each backlog the run has cut down is missing its dropped buffers and is preceded by its
notice. -/
theorem stream_intact (es : List LogEvent) (s : AsyncLog) (hrun : runFrom logStep start es = .ok s)
    (hplain : ∀ e ∈ es, ∀ b ∈ e.message, b ≠ 0) :
    ∃ stretches : List Stretch, stretches.filterMap Stretch.discard? = discards start es ∧
      es.flatMap LogEvent.message = stretches.flatMap Stretch.appended ∧
      s.output ++ (s.inFlight ++ s.pending) = stretches.flatMap Stretch.written := by
  obtain ⟨stretches, hdiscards, hwritten, happended⟩ :=
    accounted_run es start [] [] s clean_start accounted_start hrun
  rw [List.nil_append] at hwritten happended
  have hstored : es.flatMap LogEvent.stored = es.flatMap LogEvent.message :=
    List.flatMap_congr fun e he => LogEvent.stored_eq_message (hplain e he)
  refine ⟨stretches ++ [.kept (s.inFlight ++ s.pending)], ?_, ?_, ?_⟩
  · rw [List.filterMap_append, hdiscards]
    exact List.append_nil _
  · rw [← hstored, List.flatMap_append, List.flatMap_singleton, ← List.nil_append (es.flatMap _),
      ← happended]
    rfl
  · rw [List.flatMap_append, List.flatMap_singleton, hwritten]
    rfl

/-- A message that is written out, and one behind it. -/
def twoMessages : List LogEvent :=
  .append [120] oneByte_fits :: List.replicate 4 (.threadFunc []) ++ [.append [121] (by decide)]

theorem stream_intact_twoMessages :
    ∃ s, runFrom logStep start twoMessages = .ok s ∧
      ∃ stretches : List Stretch, stretches.filterMap Stretch.discard? = discards start twoMessages ∧
        twoMessages.flatMap LogEvent.message = stretches.flatMap Stretch.appended ∧
        s.output ++ (s.inFlight ++ s.pending) = stretches.flatMap Stretch.written :=
  ⟨_, rfl, stream_intact twoMessages _ rfl (by simp [twoMessages, LogEvent.message])⟩

end AsyncLog

end WServer
