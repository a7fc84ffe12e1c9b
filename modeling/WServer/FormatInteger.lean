import WServer.Buffer
import WServer.Library.Decimal

/-!
# Formatting an integer

`convert` writes a number into the buffer of a log line, digit by digit from the least one on, and turns
the digits round at the end.  A digit is looked up by the remainder of the number itself, which is
negative when the number is; what the program then reads lies outside the array `digits` and is not
defined by it, so the model takes it as a parameter `outside`.

* `IntegerType` — the types that `convert` is instantiated at, with their ranges (LP64);
* `digitAt`, `convert` — the function;
* `convertDigits_digits`, `convertDigits_outside` — its loop on numbers that are not negative, and on
  those that are;
* `convert_decimal_iff` — where the text is the decimal numeral of the number.
-/

namespace WServer

open Library.Decimal

/-! ### The types -/

inductive IntegerType where
  | short
  | unsignedShort
  | int
  | unsignedInt
  | long
  | unsignedLong
  | longLong
  | unsignedLongLong
  deriving DecidableEq, Repr

namespace IntegerType

def bits : IntegerType → ℕ
  | .short | .unsignedShort => 16
  | .int | .unsignedInt => 32
  | .long | .unsignedLong | .longLong | .unsignedLongLong => 64

def isSigned : IntegerType → Bool
  | .short | .int | .long | .longLong => true
  | .unsignedShort | .unsignedInt | .unsignedLong | .unsignedLongLong => false

/-- The least value of the type. -/
def min (T : IntegerType) : ℤ := if T.isSigned then -2 ^ (T.bits - 1) else 0

/-- The greatest value of the type. -/
def max (T : IntegerType) : ℤ := if T.isSigned then 2 ^ (T.bits - 1) - 1 else 2 ^ T.bits - 1

/-- The values of the type. -/
def Value (T : IntegerType) : Type := {t : ℤ // T.min ≤ t ∧ t ≤ T.max}

theorem min_nonpos (T : IntegerType) : T.min ≤ 0 := by
  cases T <;> decide

theorem max_nonneg (T : IntegerType) : 0 ≤ T.max := by
  cases T <;> decide

theorem Value.natAbs_lt {T : IntegerType} (t : T.Value) : t.1.natAbs < 2 ^ 64 := by
  have hmin : -2 ^ 63 ≤ T.min := by cases T <;> decide
  have hmax : T.max < 2 ^ 64 := by cases T <;> decide
  have ht := t.2
  omega

/-- The remainder of `t % mod`: it has the sign of `t`. -/
def Value.rem {T : IntegerType} (t : T.Value) (mod : ℕ) : ℤ := t.1.tmod mod

/-- `t / mod`, rounded towards zero: no quotient leaves the range of the type. -/
def Value.div {T : IntegerType} (t : T.Value) (mod : ℕ) : T.Value :=
  ⟨t.1.tdiv mod, by
    have hmin := T.min_nonpos
    have hmax := T.max_nonneg
    have ht := t.2
    rcases Int.le_total 0 t.1 with hpos | hneg
    · have hle := Int.tdiv_le_self (mod : ℤ) hpos
      have hnn := Int.tdiv_nonneg hpos (Int.natCast_nonneg mod)
      omega
    · have hle := Int.tdiv_le_self (mod : ℤ) (show 0 ≤ -t.1 by omega)
      have hnn := Int.tdiv_nonneg (show 0 ≤ -t.1 by omega) (Int.natCast_nonneg mod)
      rw [Int.neg_tdiv] at hle hnn
      omega⟩

end IntegerType

/-! ### The function -/

/-- The array `digits`, with the NUL that ends its string literal. -/
def digits : List UInt8 := ascii "0123456789ABCDEF" ++ [0]

/-- `digits[index]`, where `outside` tells what lies outside the array. -/
def digitAt (outside : ℤ → UInt8) (index : ℤ) : UInt8 :=
  if 0 ≤ index ∧ index < digits.length then digits.getD index.toNat 0 else outside index

def radix (isHex : Bool) : ℕ := if isHex then 16 else 10

theorem radix_ge_two (isHex : Bool) : 2 ≤ radix isHex := by
  cases isHex <;> decide

theorem IntegerType.Value.div_natAbs_lt {T : IntegerType} {t : T.Value} {mod : ℕ} (hmod : 2 ≤ mod)
    (h : (t.div mod).1 ≠ 0) : (t.div mod).1.natAbs < t.1.natAbs := by
  have habs : (t.div mod).1.natAbs = t.1.natAbs / mod := Int.natAbs_tdiv t.1 mod
  have hne : t.1.natAbs ≠ 0 := by
    intro hzero
    rw [hzero, Nat.zero_div] at habs
    exact h (Int.natAbs_eq_zero.mp habs)
  rw [habs]
  exact Nat.div_lt_self (by omega) hmod

/-- The loop of `convert`: the digits it writes, the least one first. -/
def convertDigits (outside : ℤ → UInt8) {T : IntegerType} (tmp : T.Value) (isHex : Bool) : List UInt8 :=
  digitAt outside (tmp.rem (radix isHex)) ::
    if (tmp.div (radix isHex)).1 ≠ 0 then convertDigits outside (tmp.div (radix isHex)) isHex else []
termination_by tmp.1.natAbs
decreasing_by exact IntegerType.Value.div_natAbs_lt (radix_ge_two isHex) ‹_›

/-- `convert`: the bytes it leaves from `buf` on, and the length it returns. -/
def convert (outside : ℤ → UInt8) {T : IntegerType} (t : T.Value) (isHex : Bool) : List UInt8 × ℕ :=
  let written := convertDigits outside t isHex
  if isHex then (ascii "0x" ++ written.reverse ++ [0], 2 + written.length)
  else
    -- if t is a decimal and negative value
    let written := if t.1 < 0 then written ++ [minus] else written
    (written.reverse ++ [0], written.length)

/-! ### The loop -/

theorem digitAt_digit (outside : ℤ → UInt8) {d : ℕ} (h : d < 10) : digitAt outside d = digitByte d := by
  have hlen : digits.length = 17 := by decide
  rw [digitAt, if_pos (by omega), Int.toNat_natCast]
  have hall : ∀ d < 10, digits.getD d 0 = digitByte d := by decide
  exact hall d h

theorem digitAt_outside (outside : ℤ → UInt8) {index : ℤ} (h : index < 0) :
    digitAt outside index = outside index := by
  rw [digitAt, if_neg (by omega)]

theorem IntegerType.Value.rem_natural {T : IntegerType} {t : T.Value} {n : ℕ} (h : t.1 = n) (mod : ℕ) :
    t.rem mod = (n % mod : ℕ) := by
  rw [IntegerType.Value.rem, h]
  rfl

theorem IntegerType.Value.div_natural {T : IntegerType} {t : T.Value} {n : ℕ} (h : t.1 = n) (mod : ℕ) :
    (t.div mod).1 = (n / mod : ℕ) := by
  show t.1.tdiv mod = _
  rw [h]
  rfl

/-- **A number that is not negative** gives its digits, and zero the digit zero. -/
theorem convertDigits_digits (outside : ℤ → UInt8) (isHex : Bool) {T : IntegerType} {t : T.Value} {n : ℕ}
    (h : t.1 = n) : convertDigits outside t isHex =
      if n = 0 then [digitAt outside 0]
      else (Nat.digits (radix isHex) n).map fun d : ℕ => digitAt outside d := by
  have hradix := radix_ge_two isHex
  induction n using Nat.strongRecOn generalizing t with
  | ind n ih =>
      have hdiv := IntegerType.Value.div_natural h (radix isHex)
      rw [convertDigits, IntegerType.Value.rem_natural h, hdiv]
      by_cases hzero : n = 0
      · subst hzero
        rw [Nat.zero_mod, Nat.zero_div, if_pos rfl]
        rfl
      · rw [if_neg hzero, Nat.digits_def' hradix (Nat.pos_of_ne_zero hzero), List.map_cons]
        by_cases hlast : n / radix isHex = 0
        · rw [hlast, Nat.digits_zero]
          rfl
        · rw [if_pos (by exact_mod_cast hlast),
            ih (n / radix isHex) (Nat.div_lt_self (Nat.pos_of_ne_zero hzero) hradix) hdiv, if_neg hlast]

/-- In decimal they are the bytes of decimal digits. -/
theorem convertDigits_natural (outside : ℤ → UInt8) {T : IntegerType} {t : T.Value} {n : ℕ}
    (h : t.1 = n) : convertDigits outside t false = if n = 0 then [zero] else digitText n := by
  rw [convertDigits_digits outside false h]
  split
  · exact congrArg (fun b => [b]) (digitAt_digit outside (show 0 < 10 by decide))
  · exact List.map_congr_left fun d hd => digitAt_digit outside (Nat.digits_lt_base (by decide) hd)

/-- **A negative number** is written with bytes from outside the array: here they are NULs. -/
theorem convertDigits_outside {T : IntegerType} {t : T.Value} (h : t.1 < 0) :
    0 ∈ convertDigits (fun _ => 0) t false := by
  induction hn : t.1.natAbs using Nat.strongRecOn generalizing t with
  | ind n ih =>
      rw [convertDigits, show radix false = 10 from rfl]
      have hsplit : 10 * (t.div 10).1 + t.rem 10 = t.1 := Int.mul_tdiv_add_tmod t.1 10
      have hrem : 0 ≤ -t.rem 10 := by
        rw [IntegerType.Value.rem, ← Int.neg_tmod]
        exact Int.tmod_nonneg 10 (by omega)
      by_cases hzero : t.rem 10 = 0
      · -- the remainder is zero, so the quotient is negative too
        have hneg : (t.div 10).1 < 0 := by omega
        rw [if_pos hneg.ne]
        exact List.mem_cons_of_mem _
          (ih _ (hn ▸ IntegerType.Value.div_natAbs_lt (by decide) hneg.ne) hneg rfl)
      · rw [digitAt_outside _ (by omega)]
        exact List.mem_cons_self

/-- The loop writes no more digits than the radix needs for the size of the number. -/
theorem convertDigits_length (outside : ℤ → UInt8) {T : IntegerType} (t : T.Value) (isHex : Bool) {k : ℕ}
    (hk : 0 < k) (h : t.1.natAbs < radix isHex ^ k) : (convertDigits outside t isHex).length ≤ k := by
  induction k generalizing t with
  | zero => omega
  | succ k ih =>
      rw [convertDigits, List.length_cons]
      split
      · rename_i hne
        have hlt := IntegerType.Value.div_natAbs_lt (radix_ge_two isHex) hne
        have habs : (t.div (radix isHex)).1.natAbs = t.1.natAbs / radix isHex :=
          Int.natAbs_tdiv t.1 (radix isHex)
        have hquot : (t.div (radix isHex)).1.natAbs < radix isHex ^ k := by
          rw [habs]
          exact Nat.div_lt_of_lt_mul (by rw [← Nat.pow_succ']; exact h)
        have hpos : 0 < k := by
          rcases Nat.eq_zero_or_pos k with rfl | hpos
          · rw [Nat.pow_zero] at hquot
            omega
          · exact hpos
        exact Nat.succ_le_succ (ih _ hpos hquot)
      · exact Nat.succ_le_succ (Nat.zero_le k)

/-! ### The text -/

/-- `convert(buf, t, false)` leaves the decimal numeral of `t` and a NUL, and returns its length. -/
def WritesNumeral (outside : ℤ → UInt8) {T : IntegerType} (t : T.Value) : Prop :=
  ∃ text, convert outside t false = (text ++ [0], text.length) ∧ IsNumeral text ∧ value text = t.1

/-- A number that is not negative is written as its numeral. -/
theorem writesNumeral_natural (outside : ℤ → UInt8) {T : IntegerType} {t : T.Value} (h : 0 ≤ t.1) :
    WritesNumeral outside t := by
  obtain ⟨n, hn⟩ := Int.eq_ofNat_of_zero_le h
  have hconvert : convert outside t false =
      ((convertDigits outside t false).reverse ++ [0], (convertDigits outside t false).length) := by
    simp only [convert, if_neg (not_lt.mpr h)]
    rfl
  rw [WritesNumeral, hconvert, convertDigits_natural outside hn, hn]
  by_cases hzero : n = 0
  · rw [if_pos hzero, hzero]
    exact ⟨[zero], rfl, .natural isNatNumeral_zero, rfl⟩
  · rw [if_neg hzero]
    refine ⟨(digitText n).reverse, ?_, .natural (isNatNumeral_digitText hzero), ?_⟩
    · rw [List.length_reverse]
    · rw [(isNatNumeral_digitText hzero).value, natValue_digitText]

/-- A negative number is not, when the bytes outside the array are NULs. -/
theorem not_writesNumeral_negative {T : IntegerType} {t : T.Value} (h : t.1 < 0) :
    ¬ WritesNumeral (fun _ => 0) t := by
  rintro ⟨text, hconvert, hnumeral, _⟩
  simp only [convert, Bool.false_eq_true, if_false, if_pos h, Prod.mk.injEq] at hconvert
  have hmem : (0 : UInt8) ∈ text := by
    rw [← List.append_cancel_right hconvert.1, List.mem_reverse]
    exact List.mem_append_left _ (convertDigits_outside h)
  rcases hnumeral.bytes hmem with hminus | hdigit
  · cases hminus
  · exact absurd hdigit.1 (by decide)

/-- **Decimal formatting.**  For every integer type and every value of it, the text is the numeral of the
value, whatever lies outside the array of digits, exactly if the value is not negative. -/
theorem convert_decimal_iff (T : IntegerType) (t : T.Value) :
    (∀ outside, WritesNumeral outside t) ↔ 0 ≤ t.1 := by
  refine ⟨fun h => ?_, fun h outside => writesNumeral_natural outside h⟩
  by_contra hneg
  exact not_writesNumeral_negative (not_le.mp hneg) (h fun _ => 0)

/-- The `int` -1 reads `digits[-1]`. -/
theorem minus_one_not_written :
    ¬ WritesNumeral (fun _ => 0) (⟨-1, by decide⟩ : IntegerType.Value .int) :=
  not_writesNumeral_negative (by decide)

end WServer
