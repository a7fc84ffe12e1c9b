import Mathlib.Data.List.Basic
import WServer.Library.Calendar
import WServer.Library.Projections
import WServer.LogPipeline

/-!
# The names of the log files

`LogFile` names a file by the local time at which it opens it, by the host and by the process, and opens it
for appending: what stands under that name already stays.  The rules for the local time are not the
program's: `Zone` tells what the clock on the wall shows.

* `getLogFileName`, `timeStamp` — the texts;
* `getLogFileName_eq_iff` — the name tells what the clock showed;
* `diskStep` — a call of `append` and what it puts on the disk;
* `log_on_disk` — if the clock never shows a second twice, the files of a process are different files of the
  disk;
* `timeStamp_eq_iff` — a time stamp tells the microsecond.
-/

namespace WServer

open Library.Runs Library.Calendar

/-- The local time at an instant, as a number of seconds from the beginning of 1970. -/
abbrev Zone := ℤ → ℕ

/-- From an instant on the clock does not show a second twice. -/
def Zone.Steady (zone : Zone) (since : ℤ) : Prop := ∀ t t', since ≤ t → t < t' → zone t ≠ zone t'

/-- What the names of the log files of a process are made of. -/
structure LogEnv where
  basename : List Char
  hostname : List Char
  pid : ℕ
  zone : Zone

/-! ### Texts -/

/-- Two digits. -/
def twoDigits (n : ℕ) : List Char := [Nat.digitChar (n / 10), Nat.digitChar (n % 10)]

/-- `strftime` with the format `.%Y%m%d-%H%M%S.` -/
def dateText (c : Civil) : List Char :=
  '.' :: (Nat.toDigits 10 c.year ++ (twoDigits c.month ++ twoDigits c.day ++
    '-' :: (twoDigits c.hour ++ (twoDigits c.minute ++ (twoDigits c.second ++ ['.'])))))

/-- `std::put_time` with the format `%F %T` -/
def stampText (c : Civil) : List Char :=
  Nat.toDigits 10 c.year ++ '-' :: (twoDigits c.month ++ '-' :: (twoDigits c.day ++
    ' ' :: (twoDigits c.hour ++ ':' :: (twoDigits c.minute ++ ':' :: twoDigits c.second))))

/-- The name of a file opened at an instant. -/
def LogFile.getLogFileName (env : LogEnv) (now : ℤ) : List Char :=
  env.basename ++ dateText (civil (env.zone now)) ++ env.hostname ++ '.' :: Nat.toDigits 10 env.pid ++
    ['.', 'l', 'o', 'g']

/-- The time stamp at a number of microseconds from the beginning of 1970.  The remainder that the source
takes is by the number of seconds. -/
def timeStamp (zone : Zone) (microseconds : ℕ) : List Char :=
  let seconds := microseconds / 1000000
  stampText (civil (zone seconds)) ++ ':' :: Nat.toDigits 10 (microseconds % seconds)

theorem digitChar_injective : ∀ m < 10, ∀ n < 10, Nat.digitChar m = Nat.digitChar n → m = n := by decide

theorem twoDigits_injective {m n : ℕ} (hm : m < 100) (hn : n < 100) (h : twoDigits m = twoDigits n) :
    m = n := by
  rw [twoDigits, twoDigits, List.cons.injEq, List.cons.injEq] at h
  have htens := digitChar_injective (m / 10) (by omega) (n / 10) (by omega) h.1
  have hunits := digitChar_injective (m % 10) (by omega) (n % 10) (by omega) h.2.1
  omega

theorem toDigits_injective {m n : ℕ} (h : Nat.toDigits 10 m = Nat.toDigits 10 n) : m = n := by
  rw [← Nat.ofDigitChars_ten_toDigits (n := m), h, Nat.ofDigitChars_ten_toDigits]

/-- A character that is no digit ends a number. -/
theorem toDigits_append_cons {m n : ℕ} {c : Char} {rest rest' : List Char} (hc : c.isDigit = false)
    (h : Nat.toDigits 10 m ++ c :: rest = Nat.toDigits 10 n ++ c :: rest') : m = n ∧ rest = rest' := by
  have hdigits : ∀ (k : ℕ) (r : List Char),
      (Nat.toDigits 10 k ++ c :: r).takeWhile Char.isDigit = Nat.toDigits 10 k := by
    intro k r
    rw [List.takeWhile_append_of_pos fun d hd => Nat.isDigit_of_mem_toDigits (by decide) (by decide) hd,
      List.takeWhile_cons_of_neg (by rw [hc]; exact Bool.false_ne_true), List.append_nil]
  have hnumber : m = n := toDigits_injective (by rw [← hdigits m rest, h, hdigits])
  subst hnumber
  exact ⟨rfl, (List.cons.inj (List.append_cancel_left h)).2⟩

/-- Two digits in front of a text. -/
theorem twoDigits_append {m n : ℕ} {rest rest' : List Char} (hm : m < 100) (hn : n < 100)
    (h : twoDigits m ++ rest = twoDigits n ++ rest') : m = n ∧ rest = rest' := by
  obtain ⟨hdigits, hrest⟩ := List.append_inj h rfl
  exact ⟨twoDigits_injective hm hn hdigits, hrest⟩

theorem dateText_seconds {c d : Civil} (h : dateText c = dateText d) : c.seconds = d.seconds := by
  -- the year has any number of digits, and what follows it a fixed number of characters
  obtain ⟨hyear, hrest⟩ := List.append_inj' (List.cons.inj h).2 rfl
  obtain ⟨hmonth, hrest⟩ := twoDigits_append c.month_lt_hundred d.month_lt_hundred hrest
  obtain ⟨hday, hrest⟩ := twoDigits_append c.day_lt_hundred d.day_lt_hundred hrest
  obtain ⟨hhour, hrest⟩ := twoDigits_append c.hour_lt_hundred d.hour_lt_hundred (List.cons.inj hrest).2
  obtain ⟨hminute, hrest⟩ := twoDigits_append c.minute_lt_hundred d.minute_lt_hundred hrest
  obtain ⟨hsecond, -⟩ := twoDigits_append c.second_lt_hundred d.second_lt_hundred hrest
  exact Civil.seconds_congr (toDigits_injective hyear) hmonth hday hhour hminute hsecond

theorem stampText_seconds {c d : Civil} {rest rest' : List Char}
    (h : stampText c ++ rest = stampText d ++ rest') : c.seconds = d.seconds ∧ rest = rest' := by
  simp only [stampText, List.append_assoc, List.cons_append] at h
  obtain ⟨hyear, h⟩ := toDigits_append_cons (by decide) h
  obtain ⟨hmonth, h⟩ := twoDigits_append c.month_lt_hundred d.month_lt_hundred h
  obtain ⟨hday, h⟩ := twoDigits_append c.day_lt_hundred d.day_lt_hundred (List.cons.inj h).2
  obtain ⟨hhour, h⟩ := twoDigits_append c.hour_lt_hundred d.hour_lt_hundred (List.cons.inj h).2
  obtain ⟨hminute, h⟩ := twoDigits_append c.minute_lt_hundred d.minute_lt_hundred (List.cons.inj h).2
  obtain ⟨hsecond, h⟩ := twoDigits_append c.second_lt_hundred d.second_lt_hundred (List.cons.inj h).2
  exact ⟨Civil.seconds_congr hyear hmonth hday hhour hminute hsecond, h⟩

/-- **The name of a file** tells what the clock showed when it was opened. -/
theorem getLogFileName_eq_iff {env : LogEnv} {now now' : ℤ} :
    LogFile.getLogFileName env now = LogFile.getLogFileName env now' ↔ env.zone now = env.zone now' := by
  constructor
  · intro h
    have hname := List.append_cancel_right (List.append_cancel_right (List.append_cancel_right h))
    have hdate := dateText_seconds (List.append_cancel_left hname)
    rwa [seconds_civil, seconds_civil] at hdate
  · intro h
    rw [LogFile.getLogFileName, LogFile.getLogFileName, h]

/-! ### Time stamps -/

/-- Behind the first million seconds the remainder is the microsecond. -/
theorem remainder_eq {m : ℕ} (hm : 1000000 ≤ m / 1000000) : m % (m / 1000000) = m % 1000000 := by
  have hsplit : m = 1000000 * (m / 1000000) + m % 1000000 := (Nat.div_add_mod m 1000000).symm
  have hlt : m % 1000000 < m / 1000000 := Nat.lt_of_lt_of_le (Nat.mod_lt m (by decide)) hm
  calc m % (m / 1000000) = (1000000 * (m / 1000000) + m % 1000000) % (m / 1000000) := by rw [← hsplit]
    _ = m % 1000000 % (m / 1000000) := Nat.mul_add_mod_self_right _ _ _
    _ = m % 1000000 := Nat.mod_eq_of_lt hlt

/-- **A time stamp** tells the microsecond: as long as the clock does not show a second twice, and from the
first million seconds of 1970 on, stamps are equal only at the same one.  Their last field has no leading
zeros, and is told apart by the colon in front of it. -/
theorem timeStamp_eq_iff {zone : Zone} {m m' : ℕ} (hzone : zone.Steady 1000000)
    (hm : 1000000 ≤ m / 1000000) (hm' : 1000000 ≤ m' / 1000000) :
    timeStamp zone m = timeStamp zone m' ↔ m = m' := by
  constructor
  · intro h
    obtain ⟨hseconds, hmicro⟩ := stampText_seconds h
    rw [seconds_civil, seconds_civil] at hseconds
    have hremainder := toDigits_injective (List.cons.inj hmicro).2
    rw [remainder_eq hm, remainder_eq hm'] at hremainder
    have hsame : m / 1000000 = m' / 1000000 := by
      by_contra hne
      rcases Nat.lt_or_gt_of_ne hne with hlt | hlt
      · exact hzone _ _ (by exact_mod_cast hm) (by exact_mod_cast hlt) hseconds
      · exact hzone _ _ (by exact_mod_cast hm') (by exact_mod_cast hlt) hseconds.symm
    rw [← Nat.div_add_mod m 1000000, hsame, hremainder, Nat.div_add_mod]
  · rintro rfl
    rfl

/-- The time of a place where the clock is never set. -/
def utc : Zone := fun t => t.toNat

theorem utc_steady {since : ℤ} (h : 0 ≤ since) : utc.Steady since := by
  intro t t' ht hlt heq
  have hnat : t.toNat = t'.toNat := heq
  omega

theorem timeStamp_eq_iff_fiveMicroseconds :
    timeStamp utc 1000000000005 = timeStamp utc 1000000000050 ↔
      (1000000000005 : ℕ) = 1000000000050 :=
  timeStamp_eq_iff (utc_steady (by decide)) (by decide) (by decide)

/-! ### The disk -/

/-- What a call writes to the file that is open. -/
def LogFile.writtenBy (call : LogFileCall) (s : LogFile) : List UInt8 :=
  match s.file with
  | none => []
  | some f =>
      match f.append call.answers call.msg with
      | none => []
      | some f' => f'.content.drop f.content.length

/-- A `LogFile` with the files of the disk: what is written goes behind what stands under the name of the
file. -/
structure LogDisk where
  file : LogFile
  disk : List Char → List UInt8

/-- One call of `append`.  The file that is open was named at the time of the last roll. -/
def diskStep (env : LogEnv) (s : LogDisk) (call : LogFileCall) : Except LogFileFault LogDisk :=
  match logFileStep s.file call with
  | .error fault => .error fault
  | .ok file =>
      let path := LogFile.getLogFileName env s.file.lastRoll
      .ok ⟨file, Function.update s.disk path (s.disk path ++ s.file.writtenBy call)⟩

namespace LogFile

variable {s s' : LogFile} {f f' : AppendFile} {rollNow : ℤ}

theorem appendLoop_grows (msg : List UInt8) (answers : List FwriteResult) :
    ∀ (written : ℕ) (f : AppendFile) (n : ℕ) (f' : AppendFile),
      AppendFile.appendLoop msg answers written f = some (n, f') → f.content <+: f'.content := by
  induction answers with
  | nil =>
      intro written f n f' h
      rw [AppendFile.appendLoop] at h
      split at h
      · cases h
      · cases h
        exact List.prefix_rfl
  | cons answer answers ih =>
      intro written f n f' h
      rw [AppendFile.appendLoop] at h
      split at h
      · have hgrown : f.content <+: (f.write answer (msg.drop written)).2.content :=
          List.prefix_append _ _
        simp only at h
        split at h
        · cases h
          exact hgrown
        · exact hgrown.trans (ih _ _ _ _ h)
      · cases h
        exact List.prefix_rfl

/-- A file only grows. -/
theorem append_grows {answers : List FwriteResult} {msg : List UInt8}
    (h : f.append answers msg = some f') : f.content <+: f'.content := by
  rw [AppendFile.append] at h
  split at h
  · cases h
  · next written g hloop =>
      cases h
      exact appendLoop_grows msg answers 0 f written g hloop

/-- The files after a call: those before it, the last of which has grown, and perhaps a new one. -/
theorem Appended.files_cases (h : Appended s f rollNow s') : (∃ g, s'.file = some g) ∧
    (s'.files = s.closed ++ [(s.lastRoll, f)] ∨
      (s.lastRoll < rollNow ∧
        s'.files = s.closed ++ [(s.lastRoll, f)] ++ [(rollNow, AppendFile.make)])) := by
  cases h with
  | kept | refused => exact ⟨⟨f, rfl⟩, Or.inl rfl⟩
  | rolled _ _ hnow => exact ⟨⟨AppendFile.make, rfl⟩, Or.inr ⟨hnow, rfl⟩⟩

/-- A call that goes on has written to the file that was open. -/
theorem logFileStep_ok {call : LogFileCall} (h : logFileStep s call = .ok s') :
    ∃ f f', s.file = some f ∧ f'.content = f.content ++ s.writtenBy call ∧
      Appended s f' call.rollNow s' := by
  rw [logFileStep, append, appendUnlocked] at h
  split at h
  · cases h
  · next f hfile =>
      split at h
      · cases h
      · next f' happend =>
          cases h
          refine ⟨f, f', hfile, ?_, afterWrite_appended s f' call.now call.rollNow⟩
          rw [writtenBy, hfile]
          simp only [happend]
          exact List.prefix_append_drop (append_grows happend)

end LogFile

namespace LogDisk

variable {env : LogEnv} {since : ℤ} {disk : List Char → List UInt8} {s s' : LogDisk} {call : LogFileCall}

/-- What the disk holds: behind what was there before, under the name of each file its content, and under
every other name what was there. -/
structure OnDisk (env : LogEnv) (since : ℤ) (disk : List Char → List UInt8) (s : LogDisk) : Prop where
  opened : ∃ f, s.file.file = some f
  increasing : s.file.rolls.Pairwise (· < ·)
  since_le : ∀ t ∈ s.file.rolls, since ≤ t
  files : ∀ p ∈ s.file.files,
    s.disk (LogFile.getLogFileName env p.1) = disk (LogFile.getLogFileName env p.1) ++ p.2.content
  others : ∀ path, (∀ t ∈ s.file.rolls, LogFile.getLogFileName env t ≠ path) → s.disk path = disk path

/-- Files opened at different times have different names. -/
theorem name_ne (hzone : env.zone.Steady since) {t t' : ℤ} (ht : since ≤ t) (ht' : since ≤ t')
    (hne : t ≠ t') : LogFile.getLogFileName env t ≠ LogFile.getLogFileName env t' := by
  rw [ne_eq, getLogFileName_eq_iff]
  rcases lt_or_gt_of_ne hne with hlt | hlt
  · exact hzone t t' ht hlt
  · exact fun heq => hzone t' t ht' hlt heq.symm

theorem onDisk_make {rollSize flushInterval checkEveryN now : ℤ} (hnow : 0 < now)
    (disk : List Char → List UInt8) :
    OnDisk env now disk ⟨LogFile.make rollSize flushInterval checkEveryN now, disk⟩ := by
  rw [LogFile.make, LogFile.rollFile, if_pos (show (0 : ℤ) < now from hnow)]
  refine ⟨⟨_, rfl⟩, List.pairwise_singleton _ _, fun t ht => ?_, fun p hp => ?_, fun _ _ => rfl⟩
  · rw [List.mem_singleton.mp ht]
  · rw [List.mem_singleton.mp hp]
    exact (List.append_nil _).symm

/-- The rolls and the files while a file is open. -/
theorem files_eq {file : LogFile} {f : AppendFile} (hfile : file.file = some f) :
    file.files = file.closed ++ [(file.lastRoll, f)] := by
  rw [LogFile.files, hfile]
  rfl

/-- **One write** goes to the file that is open. -/
theorem OnDisk.written (hzone : env.zone.Steady since) (h : OnDisk env since disk s) {f f' : AppendFile}
    (hfile : s.file.file = some f) {bytes : List UInt8} (hcontent : f'.content = f.content ++ bytes) :
    OnDisk env since disk ⟨{ s.file with file := some f' },
      Function.update s.disk (LogFile.getLogFileName env s.file.lastRoll)
        (s.disk (LogFile.getLogFileName env s.file.lastRoll) ++ bytes)⟩ := by
  have hfiles := files_eq hfile
  have hrolls : s.file.rolls = s.file.closed.map Prod.fst ++ [s.file.lastRoll] := by
    rw [LogFile.rolls, hfiles, List.map_append]
    rfl
  have hsame : ({ s.file with file := some f' } : LogFile).rolls = s.file.rolls := by
    rw [hrolls, LogFile.rolls, files_eq rfl, List.map_append]
    rfl
  have hincreasing := h.increasing
  rw [hrolls] at hincreasing
  have hlast : since ≤ s.file.lastRoll :=
    h.since_le _ (by rw [hrolls]; exact List.mem_append_right _ (List.mem_singleton_self _))
  refine ⟨⟨f', rfl⟩, by rw [hsame]; exact h.increasing, by rw [hsame]; exact h.since_le, ?_, ?_⟩
  · intro p hp
    rw [files_eq rfl] at hp
    rcases List.mem_append.mp hp with hclosed | hcur
    · have hmem : p.1 ∈ s.file.closed.map Prod.fst := List.mem_map_of_mem hclosed
      have hlt := (List.pairwise_append.mp hincreasing).2.2 p.1 hmem s.file.lastRoll
        (List.mem_singleton_self _)
      have hle : since ≤ p.1 := h.since_le _ (by rw [hrolls]; exact List.mem_append_left _ hmem)
      show Function.update _ _ _ _ = _
      rw [Function.update_of_ne (name_ne hzone hle hlast (ne_of_lt hlt))]
      exact h.files p (by rw [hfiles]; exact List.mem_append_left _ hclosed)
    · rw [List.mem_singleton.mp hcur]
      show Function.update _ _ _ _ = _
      rw [Function.update_self, hcontent, ← List.append_assoc]
      exact congrArg (· ++ bytes) (h.files (s.file.lastRoll, f)
        (by rw [hfiles]; exact List.mem_append_right _ (List.mem_singleton_self _)))
  · intro path hpath
    rw [hsame] at hpath
    have hne := hpath s.file.lastRoll
      (by rw [hrolls]; exact List.mem_append_right _ (List.mem_singleton_self _))
    show Function.update _ _ _ _ = _
    rw [Function.update_of_ne hne.symm]
    exact h.others path hpath

/-- **A roll** opens a file that is not on the disk yet, or is as it was before. -/
theorem OnDisk.appended (hzone : env.zone.Steady since) {file : LogFile} {f : AppendFile} {rollNow : ℤ}
    {bytes : List Char → List UInt8} (h : OnDisk env since disk ⟨{ file with file := some f }, bytes⟩)
    (hcase : file.Appended f rollNow s'.file) (hdisk : s'.disk = bytes) : OnDisk env since disk s' := by
  obtain ⟨hopened, hfiles | ⟨hnow, hfiles⟩⟩ := hcase.files_cases
  · have hrolls : s'.file.rolls = ({ file with file := some f } : LogFile).rolls := by
      rw [LogFile.rolls, hfiles]
      rfl
    refine ⟨hopened, ?_, ?_, ?_, ?_⟩
    · rw [hrolls]
      exact h.increasing
    · rw [hrolls]
      exact h.since_le
    · rw [hfiles, hdisk]
      exact h.files
    · rw [hrolls, hdisk]
      exact h.others
  · have hrolls : s'.file.rolls = ({ file with file := some f } : LogFile).rolls ++ [rollNow] := by
      rw [LogFile.rolls, hfiles, List.map_append]
      rfl
    have hlast : file.lastRoll ∈ ({ file with file := some f } : LogFile).rolls := by
      rw [LogFile.rolls, files_eq rfl, List.map_append]
      exact List.mem_append_right _ (List.mem_singleton_self _)
    have hlater : ∀ t ∈ ({ file with file := some f } : LogFile).rolls, t < rollNow := by
      intro t ht
      have hincreasing := h.increasing
      rw [LogFile.rolls, files_eq rfl, List.map_append] at ht hincreasing
      rcases List.mem_append.mp ht with hclosed | hcur
      · exact lt_trans ((List.pairwise_append.mp hincreasing).2.2 t hclosed _ (List.mem_singleton_self _)) hnow
      · rw [List.mem_singleton.mp hcur]
        exact hnow
    have hsince : since ≤ rollNow := le_trans (h.since_le _ hlast) (le_of_lt hnow)
    refine ⟨hopened, ?_, ?_, ?_, ?_⟩
    · rw [hrolls]
      refine List.pairwise_append.mpr ⟨h.increasing, List.pairwise_singleton _ _, fun t ht t' ht' => ?_⟩
      rw [List.mem_singleton.mp ht']
      exact hlater t ht
    · intro t ht
      rw [hrolls] at ht
      rcases List.mem_append.mp ht with hold | hnew
      · exact h.since_le t hold
      · rw [List.mem_singleton.mp hnew]
        exact hsince
    · intro p hp
      rw [hfiles] at hp
      rw [hdisk]
      rcases List.mem_append.mp hp with hold | hnew
      · exact h.files p hold
      · rw [List.mem_singleton.mp hnew]
        refine (h.others _ fun t ht => ?_).trans (List.append_nil _).symm
        exact name_ne hzone (h.since_le t ht) hsince (ne_of_lt (hlater t ht))
    · intro path hpath
      rw [hdisk]
      exact h.others path fun t ht => hpath t (by rw [hrolls]; exact List.mem_append_left _ ht)

/-- **One call.** -/
theorem onDisk_step (hzone : env.zone.Steady since) (h : OnDisk env since disk s) {file : LogFile}
    (hstep : logFileStep s.file call = .ok file) :
    ∃ s', diskStep env s call = .ok s' ∧ s'.file = file ∧ OnDisk env since disk s' := by
  obtain ⟨f, f', hfile, hcontent, hcase⟩ := LogFile.logFileStep_ok hstep
  refine ⟨_, by rw [diskStep, hstep], rfl, (h.written hzone hfile hcontent).appended hzone hcase rfl⟩

/-- **The log files on the disk**: if the clock of the place does not show a second twice, the files that a
process opens have different names.  Whatever is appended and however often it rolls, behind what stood
under the name of a file before there is its content and nothing else, all other files of the disk are as
they were, and the files hold the messages in their order, each message in one file. -/
theorem log_on_disk {rollSize flushInterval checkEveryN now : ℤ} (hnow : 0 < now)
    (hzone : env.zone.Steady now) (disk : List Char → List UInt8) {calls : List LogFileCall}
    (haccepts : ∀ call ∈ calls, LogFile.Accepted call) :
    ∃ s, runFrom (diskStep env) ⟨LogFile.make rollSize flushInterval checkEveryN now, disk⟩ calls = .ok s ∧
      (s.file.rolls.map (LogFile.getLogFileName env)).Nodup ∧
      (∀ p ∈ s.file.files, s.disk (LogFile.getLogFileName env p.1) =
        disk (LogFile.getLogFileName env p.1) ++ p.2.content) ∧
      (∀ path, path ∉ s.file.rolls.map (LogFile.getLogFileName env) → s.disk path = disk path) ∧
      s.file.Grouped (calls.map LogFileCall.msg) := by
  obtain ⟨s, hrun, hlogged, hdisk⟩ := run_history
    (fun calls s => LogFile.Logged rollSize calls s.file ∧ OnDisk env now disk s)
    (fun pre u call hu hcall => by
      obtain ⟨file, hok, hlogged, -⟩ := hu.1.step hcall
      obtain ⟨u', hu', rfl, hdisk⟩ := onDisk_step hzone hu.2 hok
      exact ⟨u', hu', hlogged, hdisk⟩) calls
    ⟨LogFile.logged_make hnow, onDisk_make hnow disk⟩ (along_of_forall haccepts)
  obtain ⟨-, f, groups, last, hmessages, hfiled⟩ := hlogged
  have hgrouped := hfiled.grouped
  rw [hmessages, List.nil_append] at hgrouped
  refine ⟨s, hrun, ?_, hdisk.files, fun path hpath => hdisk.others path fun t ht heq => ?_, hgrouped⟩
  · rw [List.Nodup, List.pairwise_map]
    refine hdisk.increasing.imp_of_mem fun ht ht' hlt => ?_
    exact name_ne hzone (hdisk.since_le _ ht) (hdisk.since_le _ ht') (ne_of_lt hlt)
  · exact hpath (heq ▸ List.mem_map_of_mem ht)

/-- A process on a host whose clock shows the time of Greenwich. -/
def oneProcess : LogEnv where
  basename := ['l', 'o', 'g']
  hostname := ['h', 'o', 's', 't']
  pid := 7
  zone := utc

theorem log_on_disk_twoMessages :
    ∃ s, runFrom (diskStep oneProcess) ⟨LogFile.make 3 3 1024 10, fun _ => []⟩ LogFile.twoMessages = .ok s ∧
      (s.file.rolls.map (LogFile.getLogFileName oneProcess)).Nodup ∧
      s.file.Grouped (LogFile.twoMessages.map LogFileCall.msg) := by
  obtain ⟨s, hrun, hnames, -, -, hgrouped⟩ := log_on_disk (show (0 : ℤ) < 10 by decide)
    (show oneProcess.zone.Steady 10 from utc_steady (by decide)) (fun _ => [])
    (show ∀ call ∈ LogFile.twoMessages, LogFile.Accepted call by decide)
  exact ⟨s, hrun, hnames, hgrouped⟩

end LogDisk

end WServer
