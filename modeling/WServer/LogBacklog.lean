import WServer.LogIntegrity

/-!
# There is no backlog

The log thread drops buffers when it finds more than twenty of them.  It never does: a second buffer that
fills up before the next critical section makes `append` fail, so there is at most one full buffer beside
the current one.  A logger that does not fail keeps every message.

* `Paired` — a full buffer that waits, or a next one at hand, but not both;
* `paired_step` — each step keeps that;
* `log_exact` — whole runs.
-/

namespace WServer

namespace AsyncLog

open Library.Runs

variable {s s' : AsyncLog}

/-- The front end has two buffers, the current one included, and has given at most two to the log
thread. -/
structure Paired (s : AsyncLog) : Prop extends Clean s where
  front : s.buffers.length + s.nextBuffer.toList.length = 1
  taken : s.writeToFile.length ≤ 2

theorem paired_start : Paired start := ⟨clean_start, rfl, Nat.zero_le _⟩

theorem Paired.append {msg : List UInt8} (h : Paired s) (hstep : s.append msg = .ok s') : Paired s' := by
  have hclean := h.toClean.append hstep
  have hfront := h.front
  rcases append_cases hstep with ⟨cur, hcur, rfl⟩ | ⟨cur, next, hcur, hnext, rfl⟩
  · exact ⟨hclean, hfront, h.taken⟩
  · refine ⟨hclean, ?_, h.taken⟩
    rw [hnext, Option.toList_some, List.length_singleton] at hfront
    show (s.buffers ++ [some cur]).length + 0 = 1
    rw [List.length_append, List.length_singleton]
    exact hfront

/-- **The critical section** takes at most two buffers, and leaves the front end two others. -/
theorem Paired.takeBuffers (h : Paired s) (hpc : s.pc = .lock ∨ s.pc = .waiting)
    (hclean : Clean s.takeBuffers) : Paired s.takeBuffers := by
  have hrest := h.resting (ThreadStep.not_busy hpc)
  have hfront := h.front
  refine ⟨hclean, ?_, ?_⟩
  · obtain ⟨spare, hspare⟩ := Option.ne_none_iff_exists'.mp hrest.newBuffer2
    have hnext : ∃ next, s.nextBuffer.or s.newBuffer2 = some next := by
      rw [hspare]
      cases s.nextBuffer with
      | none => exact ⟨spare, rfl⟩
      | some next => exact ⟨next, rfl⟩
    obtain ⟨next, hnext⟩ := hnext
    rw [takeBuffers_eq]
    simp only [hrest.writeToFile, hnext, List.length_nil, Option.toList_some, List.length_singleton]
  · rw [takeBuffers_eq]
    show (s.buffers ++ [s.curBuffer]).length ≤ 2
    rw [List.length_append, List.length_singleton]
    omega

theorem Paired.threadStep (h : Paired s) (hclean : Clean s') (hstep : ThreadStep s s') : Paired s' := by
  cases hstep with
  | take hpc => exact h.takeBuffers hpc hclean
  | recycle => exact ⟨hclean, h.front, Nat.zero_le _⟩
  | testRunning | wait | write | testFlush | finish => exact ⟨hclean, h.front, h.taken⟩

/-- **One step** leaves no more buffers behind. -/
theorem paired_step (s : AsyncLog) (e : LogEvent) (s' : AsyncLog) (h : Paired s)
    (hstep : logStep s e = .ok s') : Paired s' := by
  have hclean := clean_step s e s' h.toClean hstep
  cases e with
  | append msg hlen => exact h.append hstep
  | stop | flush =>
      cases hstep
      exact ⟨hclean, h.front, h.taken⟩
  | flushWait =>
      cases logStep_flushWait hstep
      exact ⟨hclean, h.front, h.taken⟩
  | threadFunc timeStamp =>
      rcases h.toClean.threadFunc hstep with ⟨hthread, -⟩ | ⟨-, hmany, -⟩
      · exact h.threadStep hclean hthread
      · exact absurd hmany (Nat.not_lt.mpr (h.taken.trans (by decide)))

/-- No step cuts a backlog. -/
theorem Paired.discardOf (h : Paired s) (e : LogEvent) : discardOf s e = none := by
  have hfew : ¬ 20 < s.writeToFile.length := Nat.not_lt.mpr (h.taken.trans (by decide))
  cases e with
  | threadFunc timeStamp => exact if_neg fun hmany => hfew hmany.2
  | append | stop | flush | flushWait => rfl

theorem Paired.discards (es : List LogEvent) : ∀ s : AsyncLog, Paired s → discards s es = [] := by
  induction es with
  | nil => exact fun _ _ => rfl
  | cons e es ih =>
      intro s h
      rw [AsyncLog.discards, h.discardOf e]
      cases hstep : logStep s e with
      | ok s' => exact ih s' (paired_step s e s' h hstep)
      | error fault => rfl

/-- **Nothing is dropped.**  In every state of the logger that is reached without a fault, the bytes
handed to the `LogFile`, those in flight and those that wait are the messages of the `append`s in their
order, as `strncpy` stores them; the log thread never finds more than two buffers, and the front end has a
second buffer at hand or one full buffer. -/
theorem log_exact (es : List LogEvent) (s : AsyncLog) (hrun : runFrom logStep start es = .ok s) :
    s.output ++ (s.inFlight ++ s.pending) = es.flatMap LogEvent.stored ∧ s.writeToFile.length ≤ 2 ∧
      (s.nextBuffer = none ↔ s.buffers.length = 1) := by
  have hpaired : Paired s := run_invariant (fun s e s' h _ => paired_step s e s' h) es paired_start
    (along_true start es) s (reachedBy_end hrun)
  refine ⟨?_, hpaired.taken, ?_⟩
  · obtain ⟨stretches, hnone, hwritten, happended⟩ :=
      accounted_run es start [] [] s clean_start accounted_start hrun
    rw [Paired.discards es start paired_start] at hnone
    rw [List.nil_append] at hwritten happended
    have hkept : stretches.flatMap Stretch.written = stretches.flatMap Stretch.appended := by
      refine List.flatMap_congr fun stretch hstretch => ?_
      cases stretch with
      | kept bytes => rfl
      | cut d =>
          have hcut : Stretch.discard? (.cut d) = none := List.filterMap_eq_nil_iff.mp hnone _ hstretch
          cases hcut
    rw [← hwritten, hkept, happended, List.nil_append]
  · have hfront := hpaired.front
    cases hnext : s.nextBuffer with
    | none =>
        rw [hnext, Option.toList_none, List.length_nil] at hfront
        exact ⟨fun _ => hfront, fun _ => rfl⟩
    | some next =>
        rw [hnext, Option.toList_some, List.length_singleton] at hfront
        refine ⟨nofun, fun hone => ?_⟩
        omega

/-- A message with a NUL inside is stored with zeros from there on. -/
theorem log_exact_cutMessage : ∃ s,
    runFrom logStep start [.append [120, 0, 121] (by decide), .append [122] (by decide)] = .ok s ∧
      s.output ++ (s.inFlight ++ s.pending) = [120, 0, 0, 122] ∧ s.writeToFile.length ≤ 2 ∧
      (s.nextBuffer = none ↔ s.buffers.length = 1) :=
  ⟨_, rfl, log_exact [.append [120, 0, 121] (by decide), .append [122] (by decide)] _ rfl⟩

end AsyncLog

end WServer
