import WServer.LogFile

/-!
# The count of written bytes

`AppendFile::append` writes until everything is written or the stream has failed, and adds what it has
written to `m_writed_bytes`.  It leaves the loop before it counts the write that failed, so the bytes that
`fwrite` has still accepted are in the file and not in the count.

A step is one call of `append`, with any answers of `fwrite`; the error indicator stays set from one call
to the next.

* `FailsEmpty` — the condition on the answers to one call;
* `append_spec` — one call: what it adds to the file, what it adds to the count, and when they differ;
* `written_bytes_iff` — whole runs of `append`;
* `LogFile.sizes_iff`, `LogFile.size_bounded` — whole runs of the log file.
-/

namespace WServer

open Library.Runs

/-! ### One call -/

/-- A call of `append`, with the answers of `fwrite`. -/
structure AppendCall where
  msg : List UInt8
  answers : List FwriteResult

/-- The loop of `append` goes on behind the answers. -/
inductive AppendFault where
  | writing
  deriving DecidableEq

/-- One call. -/
def appendStep (f : AppendFile) (call : AppendCall) : Except AppendFault AppendFile :=
  match f.append call.answers call.msg with
  | none => .error .writing
  | some f => .ok f

namespace AppendFile

variable {f f' : AppendFile} {msg : List UInt8} {answers : List FwriteResult} {written written' : ℕ}

/-- Of the answers to writes of `rest` bytes and less, each that is short while the error indicator is set
has accepted no byte; `error` is the indicator before them. -/
def FailsEmpty : List FwriteResult → ℕ → Bool → Prop
  | [], _, _ => True
  | answer :: answers, rest, error =>
      answer.count < rest →
        if error || answer.fails then answer.count = 0
        else FailsEmpty answers (rest - answer.count) false

theorem failsEmpty_zero (answers : List FwriteResult) (error : Bool) : FailsEmpty answers 0 error := by
  cases answers with
  | nil => trivial
  | cons answer answers => exact fun h => absurd h (Nat.not_lt_zero _)

/-- Of a write after which the loop goes on nothing is asked. -/
theorem failsEmpty_goes {answer : FwriteResult} {rest : ℕ} {error : Bool}
    (h : ¬ (answer.count < rest ∧ (error || answer.fails) = true)) :
    FailsEmpty (answer :: answers) rest error ↔
      FailsEmpty answers (rest - min answer.count rest) (error || answer.fails) := by
  by_cases hshort : answer.count < rest
  · have herror : (error || answer.fails) = false := by
      rw [← Bool.not_eq_true]
      exact fun herror => h ⟨hshort, herror⟩
    rw [FailsEmpty, forall_prop_of_true hshort, herror, if_neg Bool.false_ne_true,
      Nat.min_eq_left hshort.le]
  · rw [Nat.min_eq_right (not_lt.mp hshort), Nat.sub_self]
    exact iff_of_true (fun hlt => absurd hlt hshort) (failsEmpty_zero _ _)

/-- One round of the loop. -/
theorem appendLoop_cons {answer : FwriteResult} (hlt : written < msg.length) :
    appendLoop msg (answer :: answers) written f =
      let ret := min answer.count (msg.length - written)
      let f₁ : AppendFile := { f with
        content := f.content ++ (msg.drop written).take ret
        error := f.error || answer.fails }
      if answer.count < msg.length - written ∧ f₁.error = true then some (written, f₁)
      else appendLoop msg answers (written + ret) f₁ := by
  have hshort : min answer.count (msg.length - written) ≠ msg.length - written ↔
      answer.count < msg.length - written := by omega
  rw [appendLoop, if_pos hlt]
  simp only [write, List.length_drop, hshort]

/-- **The loop** puts the bytes it has written into the file, and those of a write that failed: these are
none exactly if the condition holds. -/
theorem appendLoop_spec (hw : written ≤ msg.length)
    (h : appendLoop msg answers written f = some (written', f')) :
    ∃ ret, f'.content = f.content ++ (msg.drop written).take (written' - written + ret) ∧
      f'.writedBytes = f.writedBytes ∧ written ≤ written' ∧ written' + ret ≤ msg.length ∧
      (ret = 0 ↔ FailsEmpty answers (msg.length - written) f.error) := by
  induction answers generalizing written f with
  | nil =>
      rw [appendLoop] at h
      split at h
      · cases h
      · cases h
        refine ⟨0, ?_, rfl, Nat.le_refl _, hw, iff_of_true rfl trivial⟩
        rw [Nat.sub_self, List.take_zero, List.append_nil]
  | cons answer answers ih =>
      rcases Nat.lt_or_eq_of_le hw with hlt | rfl
      · rw [appendLoop_cons hlt] at h
        simp only at h
        split at h
        · -- the write that fails: its bytes are not counted
          rename_i hfail
          rw [Option.some.injEq, Prod.mk.injEq] at h
          obtain ⟨rfl, rfl⟩ := h
          refine ⟨min answer.count (msg.length - written), ?_, rfl, Nat.le_refl _, by omega, ?_⟩
          · rw [Nat.sub_self, Nat.zero_add]
          · rw [FailsEmpty, forall_prop_of_true hfail.1, if_pos hfail.2]
            omega
        · rename_i hgoes
          obtain ⟨ret, hcontent, hcount, hle, hlen, hiff⟩ := ih (by omega) h
          refine ⟨ret, ?_, hcount, by omega, hlen, ?_⟩
          · rw [hcontent, List.append_assoc, ← List.drop_drop, ← List.take_add]
            congr 2
            omega
          · rw [hiff, failsEmpty_goes hgoes, Nat.sub_add_eq]
      · rw [appendLoop_done] at h
        cases h
        refine ⟨0, ?_, rfl, Nat.le_refl _, Nat.le_refl _, iff_of_true rfl ?_⟩
        · rw [Nat.sub_self, List.take_zero, List.append_nil]
        · rw [Nat.sub_self]
          exact failsEmpty_zero _ _

/-- A loop that meets a write against the condition ends with it. -/
theorem appendLoop_ends (hw : written ≤ msg.length)
    (h : ¬ FailsEmpty answers (msg.length - written) f.error) :
    ∃ r, appendLoop msg answers written f = some r := by
  induction answers generalizing written f with
  | nil => exact absurd trivial h
  | cons answer answers ih =>
      rcases Nat.lt_or_eq_of_le hw with hlt | rfl
      · rw [appendLoop_cons hlt]
        simp only
        split
        · exact ⟨_, rfl⟩
        · rename_i hgoes
          rw [failsEmpty_goes hgoes, ← Nat.sub_add_eq] at h
          exact ih (by omega) h
      · exact ⟨_, appendLoop_done msg _ f⟩

/-- **One call** adds to the count what it adds to the file, but for the bytes of a write that failed: these
are none exactly if the condition holds. -/
theorem append_spec (h : f.append answers msg = some f') :
    ∃ written ret, f'.content = f.content ++ msg.take (written + ret) ∧ written + ret ≤ msg.length ∧
      f'.writedBytes = f.writedBytes + written ∧
      (ret = 0 ↔ FailsEmpty answers msg.length f.error) := by
  rw [append] at h
  split at h
  · cases h
  · rename_i written f₁ hloop
    cases h
    obtain ⟨ret, hcontent, hcount, -, hlen, hiff⟩ := appendLoop_spec (Nat.zero_le _) hloop
    refine ⟨written, ret, hcontent, hlen, ?_, hiff⟩
    rw [← hcount]

/-! ### Runs of calls -/

/-- The condition on one call: each short write of it that finds or sets the error indicator accepts no
byte. -/
def LosesNothing (f : AppendFile) (call : AppendCall) : Prop :=
  FailsEmpty call.answers call.msg.length f.error

/-- What is asked of the count: it is the number of bytes that `fwrite` has accepted, and the roll decision,
which compares it, does not take the file for smaller than it is. -/
structure Accounted (f : AppendFile) : Prop where
  counted : f.Counted
  rolls : ∀ rollSize : ℤ, rollSize < f.content.length → rollSize < f.writedBytes

theorem Counted.accounted (h : f.Counted) : f.Accounted := by
  refine ⟨h, fun rollSize hsize => ?_⟩
  rw [h]
  exact hsize

variable {call : AppendCall}

theorem append_of_step (h : appendStep f call = .ok f') : f.append call.answers call.msg = some f' := by
  rw [appendStep] at h
  split at h
  · cases h
  · rename_i happend
    cases h
    exact happend

/-- **One call** keeps the count exact exactly if it meets the condition. -/
theorem counted_step_iff (hf : f.Counted) (h : appendStep f call = .ok f') :
    f'.Counted ↔ f.LosesNothing call := by
  obtain ⟨written, ret, hcontent, hlen, hcount, hiff⟩ := append_spec (append_of_step h)
  rw [Counted] at hf
  rw [Counted, LosesNothing, ← hiff, hcontent, List.length_append, List.length_take,
    Nat.min_eq_left hlen, hcount, hf]
  omega

/-- A call against the condition comes to an end. -/
theorem appendStep_ends (h : ¬ f.LosesNothing call) : ∃ f', appendStep f call = .ok f' := by
  obtain ⟨r, hr⟩ := appendLoop_ends (Nat.zero_le _) h
  rw [appendStep, append, hr]
  exact ⟨_, rfl⟩

/-- **Written-byte accounting.**  For every sequence of calls and all answers of `fwrite`: in every state
reached the count is the number of bytes accepted exactly if each short write that finds or sets the error
indicator accepts no byte. -/
theorem written_bytes_iff (calls : List AppendCall) :
    (∀ f, ReachedBy appendStep make calls f → f.Accounted) ↔
      Along appendStep LosesNothing make calls := by
  have hgood : ∀ (f : AppendFile) (call : AppendCall) (f' : AppendFile), f.Counted →
      f.LosesNothing call → appendStep f call = .ok f' → f'.Counted := by
    intro f call f' hf hcall hok
    exact (counted_step_iff hf hok).mpr hcall
  have hbad : ∀ (f : AppendFile) (call : AppendCall), f.Counted → ¬ f.LosesNothing call →
      ∃ f', appendStep f call = .ok f' ∧ ¬ f'.Accounted := by
    intro f call hf hcall
    obtain ⟨f', hok⟩ := appendStep_ends hcall
    exact ⟨f', hok, fun hacc => hcall ((counted_step_iff hf hok).mp hacc.counted)⟩
  exact reached_forall_iff (fun _ hf => hf.accounted) hgood hbad calls counted_make

/-- One message of three bytes: `fwrite` accepts the first of them and sets the error indicator. -/
theorem short_write_uncounted :
    ¬ ∀ f, ReachedBy appendStep make [⟨[97, 98, 99], [⟨1, true⟩]⟩] f → f.Accounted := by
  intro h
  have hreached : ReachedBy appendStep make [⟨[97, 98, 99], [⟨1, true⟩]⟩]
      { content := [97], error := true, writedBytes := 0 } := reachedBy_end rfl
  have hcount : 0 = 1 := (h _ hreached).counted
  cases hcount

/-- **The count is never too large**, whatever `fwrite` answers. -/
theorem writedBytes_le (calls : List AppendCall) {f : AppendFile} (h : ReachedBy appendStep make calls f) :
    f.writedBytes ≤ f.content.length := by
  have hstep : ∀ (f : AppendFile) (call : AppendCall) (f' : AppendFile),
      f.writedBytes ≤ f.content.length → True → appendStep f call = .ok f' →
      f'.writedBytes ≤ f'.content.length := by
    intro f call f' hf _ hok
    obtain ⟨written, ret, hcontent, hlen, hcount, -⟩ := append_spec (append_of_step hok)
    rw [hcontent, List.length_append, List.length_take, Nat.min_eq_left hlen, hcount]
    omega
  exact run_invariant hstep calls (Nat.le_refl _) (along_true _ _) f h

end AppendFile

/-! ### Runs of the log file -/

namespace LogFile

variable {s s' : LogFile} {f : AppendFile} {call : LogFileCall}

/-- The condition on one call of the log file. -/
def LosesNothing (s : LogFile) (call : LogFileCall) : Prop :=
  ∀ f, s.file = some f → AppendFile.FailsEmpty call.answers call.msg.length f.error

/-- There is a file, and the count of each file is its size. -/
structure Sized (s : LogFile) : Prop where
  file : ∃ f, s.file = some f
  counted : ∀ file ∈ s.files, file.2.Counted

/-- The files after a call that has written to `f`. -/
theorem Appended.files {rollNow : ℤ} (hcase : Appended s f rollNow s') :
    (∃ f', s'.file = some f') ∧ (s.lastRoll, f) ∈ s'.files ∧
      ∀ file ∈ s'.files, file ∈ s.closed ∨ file.2 = f ∨ file.2 = AppendFile.make := by
  have hlast : ∀ file ∈ s.closed ++ [(s.lastRoll, f)], file ∈ s.closed ∨ file.2 = f := by
    intro file hfile
    rcases List.mem_append.mp hfile with hclosed | hopen
    · exact Or.inl hclosed
    · rw [List.mem_singleton.mp hopen]
      exact Or.inr rfl
  have hmem : (s.lastRoll, f) ∈ s.closed ++ [(s.lastRoll, f)] :=
    List.mem_append_right _ (List.mem_singleton_self _)
  cases hcase with
  | kept cnt lastFlush _ => exact ⟨⟨f, rfl⟩, hmem, fun file hfile => (hlast file hfile).imp_right Or.inl⟩
  | refused cnt _ => exact ⟨⟨f, rfl⟩, hmem, fun file hfile => (hlast file hfile).imp_right Or.inl⟩
  | rolled cnt startOfPeriod _ =>
      refine ⟨⟨AppendFile.make, rfl⟩, List.mem_append_left _ hmem, fun file hfile => ?_⟩
      rcases List.mem_append.mp hfile with hold | hnew
      · exact (hlast file hold).imp_right Or.inl
      · rw [List.mem_singleton.mp hnew]
        exact Or.inr (Or.inr rfl)

/-- A call of the log file is a call of its file, and what follows. -/
theorem step_of_append (hfile : s.file = some f) {f' : AppendFile}
    (happend : f.append call.answers call.msg = some f') :
    ∃ s', logFileStep s call = .ok s' ∧ Appended s f' call.rollNow s' := by
  refine ⟨_, ?_, afterWrite_appended s f' call.now call.rollNow⟩
  rw [logFileStep, LogFile.append, appendUnlocked, hfile]
  simp only [happend]

theorem append_of_logFileStep (hfile : s.file = some f) (hok : logFileStep s call = .ok s') :
    ∃ f', f.append call.answers call.msg = some f' ∧ Appended s f' call.rollNow s' := by
  cases happend : f.append call.answers call.msg with
  | none =>
      rw [logFileStep, LogFile.append, appendUnlocked, hfile] at hok
      simp only [happend] at hok
      cases hok
  | some f' =>
      obtain ⟨t, ht, hcase⟩ := step_of_append hfile happend
      rw [hok] at ht
      cases ht
      exact ⟨f', rfl, hcase⟩

theorem sized_make {rollSize flushInterval checkEveryN now : ℤ} (hnow : 0 < now) :
    Sized (make rollSize flushInterval checkEveryN now) := by
  rw [make, rollFile, if_pos (show (0 : ℤ) < now from hnow)]
  refine ⟨⟨AppendFile.make, rfl⟩, fun file hfile => ?_⟩
  rw [List.mem_singleton.mp (show file ∈ [(now, AppendFile.make)] from hfile)]
  exact AppendFile.counted_make

/-- **One call** keeps all counts exact exactly if it meets the condition. -/
theorem sized_step_iff (hs : Sized s) (hok : logFileStep s call = .ok s') :
    (∀ file ∈ s'.files, file.2.Counted) ↔ LosesNothing s call := by
  obtain ⟨f, hfile⟩ := hs.file
  obtain ⟨f', happend, hcase⟩ := append_of_logFileStep hfile hok
  have hf : f.Counted := hs.counted (s.lastRoll, f) (by
    rw [LogFile.files, hfile]
    exact List.mem_append_right _ (List.mem_singleton_self _))
  have hstep : appendStep f ⟨call.msg, call.answers⟩ = .ok f' := by
    rw [appendStep, happend]
  have hiff := AppendFile.counted_step_iff hf hstep
  obtain ⟨-, hmem, hfiles⟩ := hcase.files
  constructor
  · intro hall g hg
    rw [hfile, Option.some.injEq] at hg
    rw [← hg]
    exact hiff.mp (hall _ hmem)
  · intro hcall file hin
    rcases hfiles file hin with hclosed | hwritten | hnew
    · refine hs.counted file ?_
      rw [LogFile.files]
      exact List.mem_append_left _ hclosed
    · rw [hwritten]
      exact hiff.mpr (hcall f hfile)
    · rw [hnew]
      exact AppendFile.counted_make

/-- **The files of a run.**  Whatever is appended, whatever `fwrite` answers and whatever the clock shows:
the counts of all files are their sizes in every state reached exactly if no call loses bytes. -/
theorem sizes_iff {rollSize flushInterval checkEveryN now : ℤ} (calls : List LogFileCall) (hnow : 0 < now) :
    (∀ s, ReachedBy logFileStep (make rollSize flushInterval checkEveryN now) calls s →
        ∀ file ∈ s.files, file.2.Counted) ↔
      Along logFileStep LosesNothing (make rollSize flushInterval checkEveryN now) calls := by
  have hgood : ∀ (s : LogFile) (call : LogFileCall) (s' : LogFile), Sized s → LosesNothing s call →
      logFileStep s call = .ok s' → Sized s' := by
    intro s call s' hs hcall hok
    obtain ⟨f, hfile⟩ := hs.file
    obtain ⟨f', -, hcase⟩ := append_of_logFileStep hfile hok
    exact ⟨hcase.files.1, (sized_step_iff hs hok).mpr hcall⟩
  have hbad : ∀ (s : LogFile) (call : LogFileCall), Sized s → ¬ LosesNothing s call →
      ∃ s', logFileStep s call = .ok s' ∧ ¬ ∀ file ∈ s'.files, file.2.Counted := by
    intro s call hs hcall
    obtain ⟨f, hfile⟩ := hs.file
    have hloses : ¬ f.LosesNothing ⟨call.msg, call.answers⟩ := by
      intro hall
      refine hcall fun g hg => ?_
      rw [hfile, Option.some.injEq] at hg
      rw [← hg]
      exact hall
    obtain ⟨f', hstep⟩ := AppendFile.appendStep_ends hloses
    obtain ⟨s', hok, -⟩ := step_of_append hfile (AppendFile.append_of_step hstep)
    exact ⟨s', hok, fun hall => hcall ((sized_step_iff hs hok).mp hall)⟩
  exact reached_forall_iff (fun _ hs => hs.counted) hgood hbad calls (sized_make hnow)

/-- **The roll decision.**  After a call that loses no bytes and finds the clock past the last roll, the
file that is open is not larger than `m_roll_size`. -/
theorem size_bounded (hs : Sized s) (hcall : LosesNothing s call) (hok : logFileStep s call = .ok s')
    (hsize : 0 ≤ s.rollSize) (hnow : s.lastRoll < call.rollNow) :
    ∃ f, s'.file = some f ∧ (f.content.length : ℤ) ≤ s.rollSize := by
  obtain ⟨f, hfile⟩ := hs.file
  obtain ⟨f', -, hcase⟩ := append_of_logFileStep hfile hok
  exact hcase.bounded ((sized_step_iff hs hok).mpr hcall _ hcase.files.2.1) hsize hnow

end LogFile

end WServer
