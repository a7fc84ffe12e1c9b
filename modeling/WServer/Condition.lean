import Mathlib.Data.Int.Basic
import Mathlib.Tactic.Linarith

/-!
# Waiting for seconds

`Condition::waitForSeconds` reads a clock, adds the seconds and hands the instant to
`pthread_cond_timedwait`, which compares it with the clock of the condition variable: `CLOCK_REALTIME`,
as the constructor gives no attributes.  The clock that is read is `CLOCK_MONOTONIC`.

* `waitForSeconds` — the instant, as the code computes it;
* `waitForSeconds_instant` — it is right for the clock that is read;
* `waitForSeconds_exact_iff` — and for the clock that counts only where the two agree.

`time_t` is an integer without bound; the `int64_t` in between wraps.
-/

namespace WServer

/-- Struct `timespec`. -/
structure Timespec where
  tvSec : ℤ
  tvNsec : ℤ
  deriving DecidableEq

def kNanoSecondsPerSecond : ℤ := 1000000000

/-- A conversion to `int64_t`. -/
def int64 (z : ℤ) : ℤ := z.bmod (2 ^ 64)

theorem int64_eq {z : ℤ} (h0 : 0 ≤ z) (h : z < 2 ^ 63) : int64 z = z := by
  rw [int64]
  exact Int.bmod_eq_of_le (by omega) (by omega)

namespace Timespec

def Normal (t : Timespec) : Prop := 0 ≤ t.tvNsec ∧ t.tvNsec < kNanoSecondsPerSecond

/-- The nanoseconds since the start of the clock. -/
def instant (t : Timespec) : ℤ := t.tvSec * kNanoSecondsPerSecond + t.tvNsec

/-- `pthread_cond_timedwait` reports a timeout when its clock shows `now`. -/
def Expired (abstime now : Timespec) : Prop := abstime.instant ≤ now.instant

instance (abstime now : Timespec) : Decidable (abstime.Expired now) := inferInstanceAs (Decidable (_ ≤ _))

end Timespec

/-- The clocks of `clock_gettime`. -/
inductive ClockId where
  | realtime
  | monotonic
  deriving DecidableEq, Repr

/-- What `clock_gettime` returns. -/
abbrev ClockReading := {t : Timespec // t.Normal}

/-- Class `Condition`: a condition variable has a clock. -/
structure Condition where
  clock : ClockId

/-- `pthread_cond_init`, with the clock of the attributes if there are any. -/
def pthreadCondInit (attr : Option ClockId) : Condition := ⟨attr.getD .realtime⟩

namespace Condition

def init : Condition := pthreadCondInit none

/-- The `abstime` that `waitForSeconds` hands over, from what the clocks show at the call. -/
def waitForSeconds (clockGettime : ClockId → ClockReading) (seconds : ℤ) : Timespec :=
  let abstime := (clockGettime .monotonic).1
  let nanoSeconds := int64 (seconds * kNanoSecondsPerSecond)
  let abstime := { abstime with
    tvSec := abstime.tvSec + (int64 (abstime.tvNsec + nanoSeconds)).tdiv kNanoSecondsPerSecond }
  { abstime with tvNsec := (int64 (abstime.tvNsec + nanoSeconds)).tmod kNanoSecondsPerSecond }

/-- The wait is for the requested time: its end is normalised, lies `seconds` seconds behind what the clock
of the condition variable shows at the call, and no timeout is reported before it shows that. -/
structure WaitsExactly (cond : Condition) (clockGettime : ClockId → ClockReading) (seconds : ℤ) : Prop where
  normal : (waitForSeconds clockGettime seconds).Normal
  instant : (waitForSeconds clockGettime seconds).instant
    = (clockGettime cond.clock).1.instant + seconds * kNanoSecondsPerSecond
  not_early : ∀ now : ClockReading, (waitForSeconds clockGettime seconds).Expired now →
    (clockGettime cond.clock).1.instant + seconds * kNanoSecondsPerSecond ≤ now.1.instant

variable {clockGettime : ClockId → ClockReading} {seconds : ℤ}

/-- No `int64_t` in between overflows. -/
theorem waitForSeconds_eq (h0 : 0 ≤ seconds) (hmax : seconds < 2 ^ 31) :
    waitForSeconds clockGettime seconds =
      { tvSec := (clockGettime .monotonic).1.tvSec + seconds
        tvNsec := (clockGettime .monotonic).1.tvNsec } := by
  obtain ⟨hnsec, hlt⟩ := (clockGettime .monotonic).2
  rw [waitForSeconds]
  generalize (clockGettime .monotonic).1 = now at hnsec hlt ⊢
  rw [kNanoSecondsPerSecond] at hlt
  have hproduct : int64 (seconds * kNanoSecondsPerSecond) = seconds * kNanoSecondsPerSecond := by
    rw [kNanoSecondsPerSecond]
    exact int64_eq (by omega) (by omega)
  have hsum : int64 (now.tvNsec + seconds * kNanoSecondsPerSecond)
      = now.tvNsec + seconds * kNanoSecondsPerSecond := by
    rw [kNanoSecondsPerSecond]
    exact int64_eq (by omega) (by omega)
  simp only [hproduct, hsum]
  rw [kNanoSecondsPerSecond, Int.tdiv_eq_ediv_of_nonneg (by omega), Int.tmod_eq_emod_of_nonneg (by omega),
    Timespec.mk.injEq]
  exact ⟨by omega, by omega⟩

/-- **The carry is right**: the end is normalised, `seconds` seconds behind what the monotonic clock
shows. -/
theorem waitForSeconds_instant (h0 : 0 ≤ seconds) (hmax : seconds < 2 ^ 31) :
    (waitForSeconds clockGettime seconds).Normal ∧
      (waitForSeconds clockGettime seconds).instant
        = (clockGettime .monotonic).1.instant + seconds * kNanoSecondsPerSecond := by
  rw [waitForSeconds_eq h0 hmax]
  refine ⟨(clockGettime .monotonic).2, ?_⟩
  rw [Timespec.instant, Timespec.instant, Int.add_mul]
  exact Int.add_right_comm _ _ _

/-- Normalised readings of one instant are equal. -/
theorem instant_inj {t t' : ClockReading} (h : t.1.instant = t'.1.instant) : t = t' := by
  obtain ⟨⟨sec, nsec⟩, hnsec, hlt⟩ := t
  obtain ⟨⟨sec', nsec'⟩, hnsec', hlt'⟩ := t'
  simp only [Timespec.instant, kNanoSecondsPerSecond] at h hnsec hlt hnsec' hlt'
  have hsec : sec = sec' := by omega
  have hns : nsec = nsec' := by omega
  subst hsec hns
  rfl

/-- **The wait is for the requested time** exactly if the two clocks show the same. -/
theorem waitForSeconds_exact_iff (clockGettime : ClockId → ClockReading) (seconds : ℤ) (h0 : 0 ≤ seconds)
    (hmax : seconds < 2 ^ 31) :
    init.WaitsExactly clockGettime seconds ↔ clockGettime .monotonic = clockGettime .realtime := by
  obtain ⟨hnormal, hinstant⟩ := @waitForSeconds_instant clockGettime seconds h0 hmax
  constructor
  · intro h
    have hsame : _ = (clockGettime .realtime).1.instant + _ := hinstant.symm.trans h.instant
    exact instant_inj (by omega)
  · intro hsame
    rw [hsame] at hinstant
    exact ⟨hnormal, hinstant, fun now hnow => hinstant ▸ hnow⟩

/-- **A busy loop**: where the realtime clock is ahead by the requested time, as it is by decades on a
machine whose monotonic clock counts from its start, the timeout is reported at once. -/
theorem waitForSeconds_at_once (h0 : 0 ≤ seconds) (hmax : seconds < 2 ^ 31)
    (hahead : (clockGettime .monotonic).1.instant + seconds * kNanoSecondsPerSecond
      ≤ (clockGettime .realtime).1.instant) :
    (waitForSeconds clockGettime seconds).Expired (clockGettime .realtime) := by
  rw [Timespec.Expired, (waitForSeconds_instant h0 hmax).2]
  exact hahead

/-- Two clocks that were started together. -/
def startedTogether : ClockId → ClockReading := fun _ => ⟨⟨5, 999999999⟩, by decide, by decide⟩

theorem waitForSeconds_exact_iff_startedTogether : init.WaitsExactly startedTogether 3 :=
  (waitForSeconds_exact_iff startedTogether 3 (by decide) (by decide)).mpr rfl

/-- An hour after the start of a machine, in 2023. -/
def hourUp : ClockId → ClockReading
  | .realtime => ⟨⟨1700000000, 0⟩, by decide, by decide⟩
  | .monotonic => ⟨⟨3600, 500000000⟩, by decide, by decide⟩

/-- There the end of a wait of three seconds has passed for decades. -/
theorem waitForSeconds_returns : ¬ init.WaitsExactly hourUp 3 := fun h =>
  absurd (h.not_early (hourUp .realtime) (by decide)) (by decide)

end Condition

end WServer
