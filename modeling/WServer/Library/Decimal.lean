import Mathlib.Data.Nat.Digits.Lemmas
import Mathlib.Tactic.Common

/-!
# Decimal numerals

Texts of bytes that are numbers in base ten, and the numbers they are.

* `IsNumeral` — the texts: a minus sign or none, digits, and no digit 0 in front of another one;
* `value` — the number a text is;
* `digitText` — the digits of a positive number, least first, as bytes; turned round they are a numeral of
  that number (`isNatNumeral_digitText`, `natValue_digitText`).
-/

namespace WServer.Library.Decimal

/-- The byte of the digit `0`. -/
def zero : UInt8 := 48

/-- The byte of the minus sign. -/
def minus : UInt8 := 45

/-- The byte of a digit. -/
def digitByte (d : ℕ) : UInt8 := UInt8.ofNat (48 + d)

def IsDigit (b : UInt8) : Prop := 48 ≤ b.toNat ∧ b.toNat ≤ 57

/-! ### The texts -/

/-- Digits without a superfluous zero in front. -/
structure IsNatNumeral (text : List UInt8) : Prop where
  nonempty : text ≠ []
  digits : ∀ b ∈ text, IsDigit b
  leading : text.head? = some zero → text = [zero]

/-- The canonical numerals of the integers. -/
inductive IsNumeral : List UInt8 → Prop where
  | natural {text : List UInt8} (h : IsNatNumeral text) : IsNumeral text
  | negative {text : List UInt8} (h : IsNatNumeral text) (hne : text ≠ [zero]) :
      IsNumeral (minus :: text)

theorem IsNumeral.bytes {text : List UInt8} (h : IsNumeral text) {b : UInt8} (hb : b ∈ text) :
    b = minus ∨ IsDigit b := by
  cases h with
  | natural h => exact Or.inr (h.digits b hb)
  | negative h _ =>
      rcases List.mem_cons.mp hb with rfl | hb
      · exact Or.inl rfl
      · exact Or.inr (h.digits b hb)

/-! ### The numbers -/

/-- The number that digits stand for, read from the front. -/
def natValue (text : List UInt8) : ℕ := text.foldl (fun acc b => b.toNat - 48 + 10 * acc) 0

/-- The integer that a numeral stands for. -/
def value (text : List UInt8) : ℤ :=
  if text.head? = some minus then -(natValue text.tail : ℤ) else natValue text

/-! ### The digits of a number -/

/-- The digits of a number, least first, as bytes. -/
def digitText (n : ℕ) : List UInt8 := (Nat.digits 10 n).map digitByte

theorem digitByte_toNat {d : ℕ} (h : d < 10) : (digitByte d).toNat = 48 + d := by
  rw [digitByte, UInt8.toNat_ofNat']
  omega

theorem digitByte_isDigit {d : ℕ} (h : d < 10) : IsDigit (digitByte d) := by
  rw [IsDigit, digitByte_toNat h]
  omega

theorem IsDigit.ne_minus {b : UInt8} (h : IsDigit b) : b ≠ minus := by
  rintro rfl
  exact absurd h.1 (by decide)

theorem natValue_append (text : List UInt8) (b : UInt8) :
    natValue (text ++ [b]) = b.toNat - 48 + 10 * natValue text := by
  rw [natValue, List.foldl_append]
  rfl

/-- **The value of the digits of a number**, turned round, is the number. -/
theorem natValue_digitText (n : ℕ) : natValue (digitText n).reverse = n := by
  have hdigits : ∀ ds : List ℕ, (∀ d ∈ ds, d < 10) →
      natValue (ds.map digitByte).reverse = Nat.ofDigits 10 ds := by
    intro ds
    induction ds with
    | nil => exact fun _ => rfl
    | cons d ds ih =>
        intro hds
        rw [List.map_cons, List.reverse_cons, natValue_append, ih fun e he => hds e (List.mem_cons_of_mem d he),
          digitByte_toNat (hds d List.mem_cons_self), Nat.ofDigits_cons]
        simp
  rw [digitText, hdigits _ fun d hd => Nat.digits_lt_base (by decide) hd, Nat.ofDigits_digits]

/-- **The digits of a positive number**, turned round, are a numeral. -/
theorem isNatNumeral_digitText {n : ℕ} (h : n ≠ 0) : IsNatNumeral (digitText n).reverse := by
  have hne : Nat.digits 10 n ≠ [] := Nat.digits_ne_nil_iff_ne_zero.mpr h
  refine ⟨?_, fun b hb => ?_, fun hhead => ?_⟩
  · rw [digitText, ne_eq, List.reverse_eq_nil_iff, List.map_eq_nil_iff]
    exact hne
  · rw [digitText, List.mem_reverse, List.mem_map] at hb
    obtain ⟨d, hd, rfl⟩ := hb
    exact digitByte_isDigit (Nat.digits_lt_base (by decide) hd)
  · -- the first byte is the greatest digit, which is not zero
    rw [digitText, List.head?_reverse, List.getLast?_map, List.getLast?_eq_some_getLast hne,
      Option.map_some, Option.some.injEq] at hhead
    have hlast := Nat.getLast_digit_ne_zero 10 h
    have hlt : (Nat.digits 10 n).getLast hne < 10 :=
      Nat.digits_lt_base (by decide) (List.getLast_mem hne)
    have hbyte := congrArg UInt8.toNat hhead
    rw [digitByte_toNat hlt, show zero.toNat = 48 from rfl] at hbyte
    omega

theorem isNatNumeral_zero : IsNatNumeral [zero] := by
  refine ⟨List.cons_ne_nil _ _, fun b hb => ?_, fun _ => rfl⟩
  rw [List.mem_singleton.mp hb]
  exact digitByte_isDigit (show 0 < 10 by decide)

/-- A numeral without sign stands for the number its digits stand for. -/
theorem IsNatNumeral.value {text : List UInt8} (h : IsNatNumeral text) :
    value text = natValue text := by
  rw [Decimal.value, if_neg]
  intro hhead
  obtain ⟨b, tail, rfl⟩ := List.exists_cons_of_ne_nil h.nonempty
  rw [List.head?_cons, Option.some.injEq] at hhead
  exact (h.digits b List.mem_cons_self).ne_minus hhead

end WServer.Library.Decimal
