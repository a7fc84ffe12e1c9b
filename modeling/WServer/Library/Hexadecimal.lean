import Mathlib.Data.Nat.Digits.Lemmas
import Mathlib.Tactic.Common
import Mathlib.Tactic.Ring

/-!
# Hexadecimal numerals

Texts of bytes that are numbers in base sixteen, with capital letters, and the numbers they are.

* `read` — the number a text is, if it is one;
* `IsHexNumeral text n` — `text` is the canonical numeral of `n`: it reads as `n`, and has no digit 0 in
  front of another one;
* `digitText` — the digits of a positive number, least first, as bytes; turned round they are its numeral
  (`isHexNumeral_digitText`);
* `IsHexNumeral.eq` — a number has no other numeral.
-/

namespace WServer.Library.Hexadecimal

/-- The byte of the digit `0`. -/
def zero : UInt8 := 48

/-- The byte of a digit. -/
def hexByte (d : ℕ) : UInt8 := UInt8.ofNat (if d < 10 then 48 + d else 55 + d)

/-- The digit that a byte stands for. -/
def digitValue (b : UInt8) : Option ℕ :=
  if 48 ≤ b.toNat ∧ b.toNat ≤ 57 then some (b.toNat - 48)
  else if 65 ≤ b.toNat ∧ b.toNat ≤ 70 then some (b.toNat - 55)
  else none

theorem digitValue_hexByte {d : ℕ} (h : d < 16) : digitValue (hexByte d) = some d := by
  have hall : ∀ d < 16, digitValue (hexByte d) = some d := by decide
  exact hall d h

/-- Only the sixteen digits are read as digits. -/
theorem hexByte_of_digitValue {b : UInt8} {d : ℕ} (h : digitValue b = some d) : d < 16 ∧ b = hexByte d := by
  rw [digitValue] at h
  split at h
  · rename_i hrange
    rw [Option.some.injEq] at h
    refine ⟨by omega, ?_⟩
    rw [hexByte, if_pos (by omega), UInt8.ext_iff, UInt8.toNat_ofNat']
    omega
  · split at h
    · rename_i hrange
      rw [Option.some.injEq] at h
      refine ⟨by omega, ?_⟩
      rw [hexByte, if_neg (by omega), UInt8.ext_iff, UInt8.toNat_ofNat']
      omega
    · cases h

/-! ### Reading a text -/

/-- The number that digits stand for behind digits of value `acc`. -/
def readFrom : ℕ → List UInt8 → Option ℕ
  | acc, [] => some acc
  | acc, b :: text => (digitValue b).bind fun d => readFrom (d + 16 * acc) text

/-- The number that a text of one digit or more stands for. -/
def read (text : List UInt8) : Option ℕ := if text = [] then none else readFrom 0 text

/-- **What is read** are the digits of a number, the greatest one first. -/
theorem readFrom_eq_some {acc n : ℕ} {text : List UInt8} (h : readFrom acc text = some n) :
    ∃ ds : List ℕ, (∀ d ∈ ds, d < 16) ∧ text = (ds.map hexByte).reverse ∧
      n = Nat.ofDigits 16 ds + 16 ^ ds.length * acc := by
  induction text generalizing acc with
  | nil =>
      cases h
      exact ⟨[], by simp, rfl, by simp⟩
  | cons b text ih =>
      rw [readFrom, Option.bind_eq_some_iff] at h
      obtain ⟨d, hd, hrest⟩ := h
      obtain ⟨hlt, rfl⟩ := hexByte_of_digitValue hd
      obtain ⟨ds, hds, rfl, rfl⟩ := ih hrest
      refine ⟨ds ++ [d], fun e he => ?_, ?_, ?_⟩
      · rcases List.mem_append.mp he with he | he
        · exact hds e he
        · rw [List.mem_singleton.mp he]
          exact hlt
      · rw [List.map_append, List.reverse_append]
        rfl
      · rw [Nat.ofDigits_append, Nat.ofDigits_singleton, List.length_append, List.length_singleton]
        ring

/-- The digits of a number, the greatest one first, read as the number. -/
theorem readFrom_digits (ds : List ℕ) (h : ∀ d ∈ ds, d < 16) (acc : ℕ) :
    readFrom acc (ds.map hexByte).reverse = some (Nat.ofDigits 16 ds + 16 ^ ds.length * acc) := by
  induction ds using List.reverseRecOn generalizing acc with
  | nil => simp [readFrom]
  | append_singleton ds d ih =>
      have hd : d < 16 := h d (List.mem_append_right ds List.mem_cons_self)
      rw [List.map_append, List.reverse_append, List.map_singleton, List.reverse_singleton,
        List.singleton_append, readFrom, digitValue_hexByte hd, Option.bind_some,
        ih fun e he => h e (List.mem_append_left _ he), Nat.ofDigits_append, Nat.ofDigits_singleton,
        List.length_append, List.length_singleton]
      congr 1
      ring

/-! ### Numerals -/

/-- The digits of a number, least first, as bytes. -/
def digitText (n : ℕ) : List UInt8 := (Nat.digits 16 n).map hexByte

/-- The canonical numeral of a number. -/
structure IsHexNumeral (text : List UInt8) (n : ℕ) : Prop where
  reads : read text = some n
  leading : text.head? = some zero → text = [zero]

theorem isHexNumeral_zero : IsHexNumeral [zero] 0 := ⟨rfl, fun _ => rfl⟩

theorem hexByte_eq_zero {d : ℕ} (h : d < 16) (hz : hexByte d = zero) : d = 0 := by
  have hall : ∀ d < 16, hexByte d = zero → d = 0 := by decide
  exact hall d h hz

/-- The greatest digit is in front. -/
theorem head?_digits {ds : List ℕ} (hne : ds ≠ []) :
    (ds.map hexByte).reverse.head? = some (hexByte (ds.getLast hne)) := by
  rw [List.head?_reverse, List.getLast?_map, List.getLast?_eq_some_getLast hne, Option.map_some]

/-- **The digits of a positive number**, turned round, are its numeral. -/
theorem isHexNumeral_digitText {n : ℕ} (h : n ≠ 0) : IsHexNumeral (digitText n).reverse n := by
  have hne : Nat.digits 16 n ≠ [] := Nat.digits_ne_nil_iff_ne_zero.mpr h
  have hlt : ∀ d ∈ Nat.digits 16 n, d < 16 := fun d hd => Nat.digits_lt_base (by decide) hd
  refine ⟨?_, fun hhead => ?_⟩
  · rw [read, if_neg, digitText, readFrom_digits _ hlt, Nat.ofDigits_digits, Nat.mul_zero, Nat.add_zero]
    rw [digitText, List.reverse_eq_nil_iff, List.map_eq_nil_iff]
    exact hne
  · rw [digitText, head?_digits hne, Option.some.injEq] at hhead
    exact absurd (hexByte_eq_zero (hlt _ (List.getLast_mem hne)) hhead) (Nat.getLast_digit_ne_zero 16 h)

/-- **Canonical.**  A number has one numeral. -/
theorem IsHexNumeral.eq {text : List UInt8} {n : ℕ} (h : IsHexNumeral text n) :
    text = if n = 0 then [zero] else (digitText n).reverse := by
  have hread := h.reads
  rw [read] at hread
  split at hread
  · cases hread
  · rename_i hne
    obtain ⟨ds, hds, htext, hn⟩ := readFrom_eq_some hread
    rw [Nat.mul_zero, Nat.add_zero] at hn
    have hnil : ds ≠ [] := by
      rintro rfl
      exact hne htext
    by_cases hlast : ds.getLast hnil = 0
    · -- a zero in front is the only digit
      have hsingle := h.leading (by rw [htext, head?_digits hnil, hlast]; rfl)
      rw [hsingle] at hread
      cases hread
      exact hsingle
    · have hdigits : Nat.digits 16 n = ds := by
        rw [hn]
        exact Nat.digits_ofDigits 16 (by decide) ds hds fun _ => hlast
      have hpos : n ≠ 0 := by
        rintro rfl
        exact hnil hdigits.symm
      rw [if_neg hpos, digitText, hdigits, htext]

/-- A numeral is made of digits. -/
theorem IsHexNumeral.digits {text : List UInt8} {n : ℕ} (h : IsHexNumeral text n) :
    ∀ b ∈ text, ∃ d < 16, b = hexByte d := by
  intro b hb
  have hread := h.reads
  rw [read, if_neg (List.ne_nil_of_mem hb)] at hread
  obtain ⟨ds, hds, rfl, -⟩ := readFrom_eq_some hread
  rw [List.mem_reverse, List.mem_map] at hb
  obtain ⟨d, hd, rfl⟩ := hb
  exact ⟨d, hds d hd, rfl⟩

end WServer.Library.Hexadecimal
