import WServer.CountDownLatch

/-!
# Starting the log thread

`AsyncLog::start` starts its `Thread` and waits for `threadFunc`; `Thread::start` creates a thread of the
system and waits until that thread has stored its id, with a latch each.  The starter and the new thread
make one step for each access to what they share.

* `startStep` — one step of either;
* `Ordered` — what each latch tells of the new thread;
* `start_ordered` — when `start` returns, the id is set and `threadFunc` runs; the `LOG_FATAL` behind the
  first latch is never reached;
* `start_completes` — from every state of a run `start` can still return.
-/

namespace WServer

open Library.Runs Library.Monitors

/-- Where the starter stands: before `start`, before `pthread_create`, in the wait of `Thread::start`, in
that of `AsyncLog::start`, behind it. -/
inductive StarterPc where
  | fresh
  | creating
  | joining
  | awaiting
  | returned
  deriving DecidableEq, Repr

/-- Where the new thread stands: not created, before it stores its id, before it counts the latch of the
`Thread` down, before that of the `AsyncLog`, in the loop of `threadFunc`. -/
inductive NewThreadPc where
  | none
  | created
  | named
  | counted
  | working
  deriving DecidableEq, Repr

/-- The `Thread` of an `AsyncLog`, the latches of both, and `m_running`. -/
structure LogStart where
  running : Bool
  started : Bool
  tid : ℤ
  latch : Monitor Unit ℤ
  logLatch : Monitor Unit ℤ
  starter : StarterPc
  newThread : NewThreadPc

/-- The calls of `LOG_FATAL`, for `pthread_create` and behind the latch, or a step that is not taken where
its thread stands. -/
inductive StartFault where
  | pthreadCreate
  | threadStart
  | notThere
  deriving DecidableEq, Repr

/-- A step in a call of `wait`. -/
inductive WaitEvent where
  | wait
  | spurious
  | retest
  deriving DecidableEq, Repr

/-- `start`, `create`, `inWait`, `check`, `inLogWait` and `returns` are steps of the starter, the others
those of the new thread, which `gettid` tells a positive id. -/
inductive StartEvent where
  | start
  | create (ret : ℤ)
  | inWait (e : WaitEvent)
  | check
  | inLogWait (e : WaitEvent)
  | returns
  | runInThread (tid : {tid : ℤ // 0 < tid})
  | countDown
  | threadFunc

def WaitEvent.event : WaitEvent → Event Unit Unit
  | .wait => .wait ()
  | .spurious => .spurious ()
  | .retest => .retest ()

namespace LogStart

/-- Before `start`. -/
def init : LogStart where
  running := false
  started := false
  tid := 0
  latch := CountDownLatch.make 1
  logLatch := CountDownLatch.make 1
  starter := .fresh
  newThread := .none

end LogStart

open CountDownLatch in
/-- One step of the starter or of the new thread. -/
def startStep (s : LogStart) : StartEvent → Except StartFault LogStart
  | .start =>
      if s.starter = .fresh then .ok { s with running := true, started := true, starter := .creating }
      else .error .notThere
  | .create ret =>
      if s.starter ≠ .creating then .error .notThere
      else if ret ≠ 0 then .error .pthreadCreate
      else .ok { s with starter := .joining, newThread := .created }
  | .inWait e =>
      if s.starter = .joining ∧ s.latch.phase () ≠ .passed then
        match Monitor.step code s.latch e.event with
        | .ok latch => .ok { s with latch := latch }
        | .error _ => .error .notThere
      else .error .notThere
  | .check =>
      if s.starter = .joining ∧ s.latch.phase () = .passed then
        if s.tid ≤ 0 then .error .threadStart else .ok { s with starter := .awaiting }
      else .error .notThere
  | .inLogWait e =>
      if s.starter = .awaiting ∧ s.logLatch.phase () ≠ .passed then
        match Monitor.step code s.logLatch e.event with
        | .ok latch => .ok { s with logLatch := latch }
        | .error _ => .error .notThere
      else .error .notThere
  | .returns =>
      if s.starter = .awaiting ∧ s.logLatch.phase () = .passed then .ok { s with starter := .returned }
      else .error .notThere
  | .runInThread tid =>
      if s.newThread = .created then .ok { s with tid := tid, newThread := .named } else .error .notThere
  | .countDown =>
      if s.newThread = .named then .ok { s with latch := s.latch.change code (), newThread := .counted }
      else .error .notThere
  | .threadFunc =>
      if s.newThread = .counted then
        .ok { s with logLatch := s.logLatch.change code (), newThread := .working }
      else .error .notThere

namespace LogStart

open CountDownLatch

variable {s s' : LogStart} {latch latch' : Monitor Unit ℤ}

/-! ### A latch -/

/-- A latch that the new thread counts down once, `down` telling whether it has. -/
structure Counted (latch : Monitor Unit ℤ) (down : Prop) : Prop where
  before : ¬ down → getCount latch = 1
  after : down → getCount latch = 0
  awake : Monitor.Awake code latch
  passed : Monitor.Passed code latch

theorem counted_make {down : Prop} (h : ¬ down) : Counted (make 1) down :=
  ⟨fun _ => rfl, fun hdown => absurd hdown h, Monitor.awake_init _ _, Monitor.passed_init _ _⟩

/-- The wait has returned only if the latch is down. -/
theorem Counted.down {down : Prop} (h : Counted latch down) (hpassed : latch.phase () = .passed) : down := by
  by_contra hdown
  have hfree := h.passed () hpassed
  rw [show latch.data = 1 from h.before hdown] at hfree
  cases hfree

theorem Counted.congr {down down' : Prop} (h : Counted latch down) (hiff : down' ↔ down) :
    Counted latch down' := by
  rwa [← propext hiff] at h

/-- A step in the wait. -/
theorem Counted.inWait {down : Prop} {e : WaitEvent} (h : Counted latch down)
    (hstep : Monitor.step code latch e.event = .ok latch') : Counted latch' down := by
  have hcount : getCount latch' = getCount latch := by
    have hsub := getCount_step hstep
    cases e with
    | wait | spurious | retest => exact hsub.trans (Int.sub_zero _)
  refine ⟨fun hdown => ?_, fun hdown => ?_, Monitor.awake_step notifying h.awake hstep,
    Monitor.passed_step lasting h.passed hstep⟩
  · rw [hcount]
    exact h.before hdown
  · rw [hcount]
    exact h.after hdown

/-- The call of `countDown`. -/
theorem Counted.countDown {down down' : Prop} (h : Counted latch down) (hnot : ¬ down) (hdown : down') :
    Counted (latch.change code ()) down' := by
  have hstep : Monitor.step code latch (.change ()) = .ok (latch.change code ()) := rfl
  refine ⟨fun hdown' => absurd hdown hdown', fun _ => ?_, Monitor.awake_step notifying h.awake hstep,
    Monitor.passed_step lasting h.passed hstep⟩
  rw [getCount_step hstep, h.before hnot]
  rfl

/-! ### The invariant -/

/-- The new thread has stored its id. -/
def Named (s : LogStart) : Prop := s.newThread = .named ∨ s.newThread = .counted ∨ s.newThread = .working

/-- What the latches and the places of the threads tell. -/
structure Ordered (s : LogStart) : Prop where
  latch : Counted s.latch (s.newThread = .counted ∨ s.newThread = .working)
  logLatch : Counted s.logLatch (s.newThread = .working)
  tid : s.Named → 0 < s.tid
  fresh : s.starter = .fresh ∨ s.starter = .creating → s.newThread = .none
  made : s.starter ≠ .fresh ∧ s.starter ≠ .creating → s.newThread ≠ .none
  running : s.starter ≠ .fresh → s.running = true ∧ s.started = true
  awaiting : s.starter = .awaiting ∨ s.starter = .returned → s.newThread = .counted ∨ s.newThread = .working
  returned : s.starter = .returned → s.newThread = .working

theorem ordered_init : Ordered init where
  latch := counted_make (by decide)
  logLatch := counted_make (by decide)
  tid := by rintro (h | h | h) <;> cases h
  fresh _ := rfl
  made h := absurd rfl h.1
  running h := absurd rfl h
  awaiting := by rintro (h | h) <;> cases h
  returned := nofun

/-- **The check behind the latch** finds the id. -/
theorem Ordered.checked (h : Ordered s) (hpassed : s.latch.phase () = .passed) : 0 < s.tid :=
  h.tid (Or.inr (h.latch.down hpassed))

/-- A thread that is there was created. -/
theorem Ordered.not_fresh (h : Ordered s) (hpc : s.newThread ≠ .none) :
    ¬ (s.starter = .fresh ∨ s.starter = .creating) := fun hfresh => hpc (h.fresh hfresh)

/-- What a step does, with what it is taken at. -/
inductive Step (s : LogStart) : StartEvent → LogStart → Prop where
  | start (hpc : s.starter = .fresh) :
      Step s .start { s with running := true, started := true, starter := .creating }
  | create (hpc : s.starter = .creating) :
      Step s (.create 0) { s with starter := .joining, newThread := .created }
  | inWait {latch' : Monitor Unit ℤ} {e : WaitEvent} (hpc : s.starter = .joining)
      (hphase : s.latch.phase () ≠ .passed) (hlatch : Monitor.step code s.latch e.event = .ok latch') :
      Step s (.inWait e) { s with latch := latch' }
  | check (hpc : s.starter = .joining) (hphase : s.latch.phase () = .passed) (htid : 0 < s.tid) :
      Step s .check { s with starter := .awaiting }
  | inLogWait {latch' : Monitor Unit ℤ} {e : WaitEvent} (hpc : s.starter = .awaiting)
      (hphase : s.logLatch.phase () ≠ .passed) (hlatch : Monitor.step code s.logLatch e.event = .ok latch') :
      Step s (.inLogWait e) { s with logLatch := latch' }
  | returns (hpc : s.starter = .awaiting) (hphase : s.logLatch.phase () = .passed) :
      Step s .returns { s with starter := .returned }
  | runInThread {tid : {tid : ℤ // 0 < tid}} (hpc : s.newThread = .created) :
      Step s (.runInThread tid) { s with tid := tid, newThread := .named }
  | countDown (hpc : s.newThread = .named) :
      Step s .countDown { s with latch := s.latch.change code (), newThread := .counted }
  | threadFunc (hpc : s.newThread = .counted) :
      Step s .threadFunc { s with logLatch := s.logLatch.change code (), newThread := .working }

theorem startStep_cases {e : StartEvent} (h : startStep s e = .ok s') : Step s e s' := by
  cases e with
  | start =>
      rw [startStep] at h
      split at h
      · cases h
        exact .start ‹_›
      · cases h
  | create ret =>
      rw [startStep] at h
      split at h
      · cases h
      · next hpc =>
          split at h
          · cases h
          · next hret =>
              cases h
              obtain rfl : ret = 0 := not_not.mp hret
              exact .create (not_not.mp hpc)
  | inWait e =>
      rw [startStep] at h
      split at h
      · next hpc =>
          split at h
          · next hlatch =>
              cases h
              exact .inWait hpc.1 hpc.2 hlatch
          · cases h
      · cases h
  | check =>
      rw [startStep] at h
      split at h
      · next hpc =>
          split at h
          · cases h
          · next htid =>
              cases h
              exact .check hpc.1 hpc.2 (Int.not_le.mp htid)
      · cases h
  | inLogWait e =>
      rw [startStep] at h
      split at h
      · next hpc =>
          split at h
          · next hlatch =>
              cases h
              exact .inLogWait hpc.1 hpc.2 hlatch
          · cases h
      · cases h
  | returns =>
      rw [startStep] at h
      split at h
      · next hpc =>
          cases h
          exact .returns hpc.1 hpc.2
      · cases h
  | runInThread tid =>
      rw [startStep] at h
      split at h
      · cases h
        exact .runInThread ‹_›
      · cases h
  | countDown =>
      rw [startStep] at h
      split at h
      · cases h
        exact .countDown ‹_›
      · cases h
  | threadFunc =>
      rw [startStep] at h
      split at h
      · cases h
        exact .threadFunc ‹_›
      · cases h

/-- The `LOG_FATAL` behind the latch is that of the check. -/
theorem startStep_fatal {e : StartEvent} (h : startStep s e = .error .threadStart) :
    s.latch.phase () = .passed ∧ s.tid ≤ 0 := by
  cases e with
  | check =>
      rw [startStep] at h
      split at h
      · next hpc =>
          split at h
          · exact ⟨hpc.2, ‹_›⟩
          · cases h
      · cases h
  | inWait e | inLogWait e =>
      rw [startStep] at h
      split at h
      · split at h <;> cases h
      · cases h
  | create ret =>
      rw [startStep] at h
      split at h
      · cases h
      · split at h <;> cases h
  | start | returns | runInThread tid | countDown | threadFunc =>
      rw [startStep] at h
      split at h <;> cases h

/-- **One step** of either thread. -/
theorem ordered_step {e : StartEvent} (h : Ordered s) (hstep : startStep s e = .ok s') : Ordered s' := by
  cases startStep_cases hstep with
  | start hpc =>
      exact
        { latch := h.latch
          logLatch := h.logLatch
          tid := h.tid
          fresh := fun _ => h.fresh (Or.inl hpc)
          made := fun hmade => absurd rfl hmade.2
          running := fun _ => ⟨rfl, rfl⟩
          awaiting := by rintro (h | h) <;> cases h
          returned := nofun }
  | create hpc =>
      have hnone := h.fresh (Or.inr hpc)
      exact
        { latch := h.latch.congr (by simp [hnone])
          logLatch := h.logLatch.congr (by simp [hnone])
          tid := by rintro (h | h | h) <;> cases h
          fresh := by rintro (h | h) <;> cases h
          made := fun _ => nofun
          running := fun _ => h.running (by simp [hpc])
          awaiting := by rintro (h | h) <;> cases h
          returned := nofun }
  | inWait hpc _ hlatch => exact { h with latch := h.latch.inWait hlatch }
  | check hpc hphase htid =>
      have hdown := h.latch.down hphase
      exact
        { h with
          fresh := by rintro (h | h) <;> cases h
          made := fun _ => h.made (by simp [hpc])
          running := fun _ => h.running (by simp [hpc])
          awaiting := fun _ => hdown
          returned := nofun }
  | inLogWait hpc _ hlatch => exact { h with logLatch := h.logLatch.inWait hlatch }
  | returns hpc hphase =>
      have hworking := h.logLatch.down hphase
      exact
        { h with
          fresh := by rintro (h | h) <;> cases h
          made := fun _ => h.made (by simp [hpc])
          running := fun _ => h.running (by simp [hpc])
          awaiting := fun _ => Or.inr hworking
          returned := fun _ => hworking }
  | @runInThread tid hpc =>
      have hjoining : ¬ (s.starter = .awaiting ∨ s.starter = .returned) := by
        intro hpast
        have hcounted := h.awaiting hpast
        rw [hpc] at hcounted
        rcases hcounted with hcounted | hcounted <;> cases hcounted
      exact
        { latch := h.latch.congr (by simp [hpc])
          logLatch := h.logLatch.congr (by simp [hpc])
          tid := fun _ => tid.2
          fresh := fun hfresh => absurd hfresh (h.not_fresh (by simp [hpc]))
          made := fun _ => nofun
          running := h.running
          awaiting := fun hpast => absurd hpast hjoining
          returned := fun hpast => absurd (Or.inr hpast) hjoining }
  | countDown hpc =>
      exact
        { latch := h.latch.countDown (by simp [hpc]) (Or.inl rfl)
          logLatch := h.logLatch.congr (by simp [hpc])
          tid := fun _ => h.tid (Or.inl hpc)
          fresh := fun hfresh => absurd hfresh (h.not_fresh (by simp [hpc]))
          made := fun _ => nofun
          running := h.running
          awaiting := fun _ => Or.inl rfl
          returned := fun hpast => by
            have hworking := h.returned hpast
            rw [hpc] at hworking
            cases hworking }
  | threadFunc hpc =>
      exact
        { latch := h.latch.congr (by simp [hpc])
          logLatch := h.logLatch.countDown (by simp [hpc]) rfl
          tid := fun _ => h.tid (Or.inr (Or.inl hpc))
          fresh := fun hfresh => absurd hfresh (h.not_fresh (by simp [hpc]))
          made := fun _ => nofun
          running := h.running
          awaiting := fun _ => Or.inr rfl
          returned := fun _ => rfl }

theorem ordered_run {es : List StartEvent} {t : LogStart} (h : Ordered s)
    (hreached : ReachedBy startStep s es t) : Ordered t :=
  run_invariant (fun _ _ _ h _ hstep => ordered_step h hstep) es h
    (along_true _ es) t hreached

/-- **The order of a start**: whatever the order of the steps, the check behind the first latch does not
call `LOG_FATAL`; behind it the id is set, and when `start` has returned `threadFunc` runs, with `m_running`
set before it began. -/
theorem start_ordered (es : List StartEvent) :
    runFrom startStep init es ≠ .error .threadStart ∧ ∀ t, ReachedBy startStep init es t →
      (t.starter = .awaiting ∨ t.starter = .returned → 0 < t.tid) ∧
        (t.starter = .returned → t.newThread = .working ∧ t.running = true ∧ t.started = true) := by
  constructor
  · refine run_no_failure
      (fun _ _ _ h _ hstep => ordered_step h hstep) (fun _ _ h _ hfatal => ?_) es ordered_init
      (along_true _ es)
    obtain ⟨hphase, htid⟩ := startStep_fatal hfatal
    exact Int.not_le.mpr (h.checked hphase) htid
  · intro t hreached
    have h := ordered_run ordered_init hreached
    refine ⟨fun hpast => h.tid (Or.inr (h.awaiting hpast)), fun hreturned => ?_⟩
    exact ⟨h.returned hreturned, h.running (by simp [hreturned])⟩

/-! ### Return -/

/-- `start` can still return. -/
def CanReturn (s : LogStart) : Prop :=
  ∃ es t, runFrom startStep s es = .ok t ∧ t.starter = .returned

theorem CanReturn.step {e : StartEvent} (hstep : startStep s e = .ok s') (h : CanReturn s') :
    CanReturn s := by
  obtain ⟨es, t, hrun, ht⟩ := h
  exact ⟨e :: es, t, (runFrom_cons_ok es hstep).trans hrun, ht⟩

/-- In the wait of a latch that is down, one step passes. -/
theorem Counted.passes {down : Prop} (h : Counted latch down) (hdown : down)
    (hphase : latch.phase () ≠ .passed) :
    ∃ e : WaitEvent, Monitor.step code latch e.event = .ok (latch.test code ()) ∧
      (latch.test code ()).phase () = .passed := by
  have hcount : latch.data = 0 := h.after hdown
  have hfree : code.blocks latch.data = false := by
    rw [hcount]
    rfl
  cases hpc : latch.phase () with
  | outside =>
      refine ⟨.wait, if_pos (Or.inl hpc), ?_⟩
      rw [Monitor.test_phase, hfree, if_neg Bool.false_ne_true]
  | asleep => exact ⟨.retest, Monitor.retest_passes h.awake hfree (Or.inl hpc)⟩
  | woken => exact ⟨.retest, Monitor.retest_passes h.awake hfree (Or.inr hpc)⟩
  | passed => exact absurd hpc hphase

theorem canReturn_passed (hpc : s.starter = .awaiting) (hphase : s.logLatch.phase () = .passed) :
    CanReturn s :=
  ⟨[.returns], { s with starter := .returned }, runFrom_cons_ok [] (if_pos ⟨hpc, hphase⟩), rfl⟩

theorem canReturn_awaiting (h : Ordered s) (hworking : s.newThread = .working)
    (hpc : s.starter = .awaiting) : CanReturn s := by
  by_cases hphase : s.logLatch.phase () = .passed
  · exact canReturn_passed hpc hphase
  · obtain ⟨e, hlatch, hpassed⟩ := h.logLatch.passes hworking hphase
    have hstep : startStep s (.inLogWait e) = .ok { s with logLatch := s.logLatch.test code () } := by
      rw [startStep, if_pos ⟨hpc, hphase⟩, hlatch]
    exact .step hstep (canReturn_passed hpc hpassed)

theorem canReturn_checked (h : Ordered s) (hworking : s.newThread = .working)
    (hpc : s.starter = .joining) (hphase : s.latch.phase () = .passed) : CanReturn s := by
  have hstep : startStep s .check = .ok { s with starter := .awaiting } := by
    rw [startStep, if_pos ⟨hpc, hphase⟩, if_neg (Int.not_le.mpr (h.checked hphase))]
  exact .step hstep (canReturn_awaiting (ordered_step h hstep) hworking rfl)

theorem canReturn_joining (h : Ordered s) (hworking : s.newThread = .working)
    (hpc : s.starter = .joining) : CanReturn s := by
  by_cases hphase : s.latch.phase () = .passed
  · exact canReturn_checked h hworking hpc hphase
  · obtain ⟨e, hlatch, hpassed⟩ := h.latch.passes (Or.inr hworking) hphase
    have hstep : startStep s (.inWait e) = .ok { s with latch := s.latch.test code () } := by
      rw [startStep, if_pos ⟨hpc, hphase⟩, hlatch]
    exact .step hstep (canReturn_checked (ordered_step h hstep) hworking hpc hpassed)

/-- Once `threadFunc` runs, the starter has only open latches before it. -/
theorem canReturn_working (h : Ordered s) (hworking : s.newThread = .working) : CanReturn s := by
  have hthere : s.newThread ≠ .none := by
    rw [hworking]
    exact nofun
  cases hpc : s.starter with
  | fresh => exact absurd (Or.inl hpc) (h.not_fresh hthere)
  | creating => exact absurd (Or.inr hpc) (h.not_fresh hthere)
  | joining => exact canReturn_joining h hworking hpc
  | awaiting => exact canReturn_awaiting h hworking hpc
  | returned => exact ⟨[], s, rfl, hpc⟩

theorem canReturn_counted (h : Ordered s) (hpc : s.newThread = .counted) : CanReturn s := by
  have hstep : startStep s .threadFunc =
      .ok { s with logLatch := s.logLatch.change code (), newThread := .working } := if_pos hpc
  exact .step hstep (canReturn_working (ordered_step h hstep) rfl)

theorem canReturn_named (h : Ordered s) (hpc : s.newThread = .named) : CanReturn s := by
  have hstep : startStep s .countDown =
      .ok { s with latch := s.latch.change code (), newThread := .counted } := if_pos hpc
  exact .step hstep (canReturn_counted (ordered_step h hstep) rfl)

theorem canReturn_created (h : Ordered s) (hpc : s.newThread = .created) : CanReturn s := by
  have hstep : startStep s (.runInThread ⟨1, Int.one_pos⟩) =
      .ok { s with tid := 1, newThread := .named } := if_pos hpc
  exact .step hstep (canReturn_named (ordered_step h hstep) rfl)

theorem canReturn_creating (h : Ordered s) (hpc : s.starter = .creating) : CanReturn s := by
  have hstep : startStep s (.create 0) =
      .ok { s with starter := .joining, newThread := .created } := by
    rw [startStep, if_neg (not_not.mpr hpc), if_neg (not_not.mpr rfl)]
  exact .step hstep (canReturn_created (ordered_step h hstep) rfl)

theorem canReturn_fresh (h : Ordered s) (hpc : s.starter = .fresh) : CanReturn s := by
  have hstep : startStep s .start =
      .ok { s with running := true, started := true, starter := .creating } := if_pos hpc
  exact .step hstep (canReturn_creating (ordered_step h hstep) rfl)

theorem canReturn (h : Ordered s) : CanReturn s := by
  cases hpc : s.newThread with
  | none =>
      have hfresh : s.starter = .fresh ∨ s.starter = .creating := by
        by_contra hpast
        exact h.made (not_or.mp hpast) hpc
      rcases hfresh with hfresh | hcreating
      · exact canReturn_fresh h hfresh
      · exact canReturn_creating h hcreating
  | created => exact canReturn_created h hpc
  | named => exact canReturn_named h hpc
  | counted => exact canReturn_counted h hpc
  | working => exact canReturn_working h hpc

/-- **No step of a start is lost**: wherever a run has brought the two threads, with any number of
wake-ups for no reason, `start` can still return. -/
theorem start_completes {es : List StartEvent} {t : LogStart}
    (hreached : ReachedBy startStep init es t) :
    ∃ es' u, runFrom startStep t es' = .ok u ∧ u.starter = .returned ∧ u.newThread = .working := by
  have ht := ordered_run ordered_init hreached
  obtain ⟨es', u, hrun, hreturned⟩ := canReturn ht
  exact ⟨es', u, hrun, hreturned, (ordered_run ht (reachedBy_end hrun)).returned hreturned⟩

/-- The starter waits, and wakes up too early once. -/
def earlyWakeup : List StartEvent :=
  [.start, .create 0, .inWait .wait, .inWait .spurious, .inWait .retest, .runInThread ⟨7, by decide⟩]

theorem start_completes_earlyWakeup : ∃ t, ReachedBy startStep init earlyWakeup t ∧
    t.latch.phase () = .asleep ∧
    ∃ es' u, runFrom startStep t es' = .ok u ∧ u.starter = .returned ∧ u.newThread = .working := by
  have hrun : runFrom startStep init earlyWakeup = .ok
      { running := true, started := true, tid := 7, starter := .joining, newThread := .named
        latch := (((make 1).test code ()).wake ()).test code ()
        logLatch := make 1 } := rfl
  exact ⟨_, reachedBy_end hrun, rfl, start_completes (reachedBy_end hrun)⟩

end LogStart

end WServer
