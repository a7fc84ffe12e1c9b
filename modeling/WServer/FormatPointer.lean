import WServer.Library.Hexadecimal
import WServer.StreamBounds

/-!
# Formatting a pointer

`operator<<(const void*)` formats the address in base sixteen.  `convert` puts `0x` in front, writes the
digits of the address behind it, the least one first, and turns them round.  No digit is looked up outside
the array here, since an address is not negative.

* `WritesPointer` — `0x`, the capital-letter numeral of the address and a NUL;
* `pointerText`, `readPointer` — the text in the buffer, and the address that is read back from it;
* `convert_fits` — the size that `formatInteger` tests for, over all types and both radices;
* `pointer_formatting` — these together.
-/

namespace WServer

open Library.Hexadecimal Library.Runs

/-! ### The digits -/

theorem digitAt_hexByte (outside : ℤ → UInt8) {d : ℕ} (h : d < 16) : digitAt outside d = hexByte d := by
  have hlen : digits.length = 17 := by decide
  rw [digitAt, if_pos (by omega), Int.toNat_natCast]
  have hall : ∀ d < 16, digits.getD d 0 = hexByte d := by decide
  exact hall d h

/-- In base sixteen a number that is not negative gives the digits of its numeral. -/
theorem convertDigits_hex (outside : ℤ → UInt8) {T : IntegerType} {t : T.Value} {n : ℕ} (h : t.1 = n) :
    convertDigits outside t true = if n = 0 then [zero] else digitText n := by
  rw [convertDigits_digits outside true h]
  split
  · exact congrArg (fun b => [b]) (digitAt_hexByte outside (show 0 < 16 by decide))
  · exact List.map_congr_left fun d hd => digitAt_hexByte outside (Nat.digits_lt_base (by decide) hd)

/-! ### The text -/

/-- `convert(buf, p, true)` leaves `0x`, the numeral of `p` and a NUL, and returns the length of the text
before the NUL. -/
def WritesPointer (outside : ℤ → UInt8) (p : IntegerType.Value .unsignedLong) : Prop :=
  ∃ text, IsHexNumeral text p.1.toNat ∧
    convert outside p true = (ascii "0x" ++ text ++ [0], (ascii "0x" ++ text).length)

theorem writesPointer (outside : ℤ → UInt8) (p : IntegerType.Value .unsignedLong) :
    WritesPointer outside p := by
  obtain ⟨n, hn⟩ := Int.eq_ofNat_of_zero_le (show 0 ≤ p.1 from p.2.1)
  have hconvert : convert outside p true =
      (ascii "0x" ++ (convertDigits outside p true).reverse ++ [0],
        (ascii "0x" ++ (convertDigits outside p true).reverse).length) := by
    simp only [convert, if_true, List.length_append, List.length_reverse]
    rfl
  refine ⟨(convertDigits outside p true).reverse, ?_, hconvert⟩
  rw [convertDigits_hex outside hn, hn]
  by_cases hzero : n = 0
  · rw [if_pos hzero, hzero]
    exact isHexNumeral_zero
  · rw [if_neg hzero]
    exact isHexNumeral_digitText hzero

/-- The C string that `convert` leaves in the buffer. -/
def pointerText (outside : ℤ → UInt8) (p : IntegerType.Value .unsignedLong) : List UInt8 :=
  untilNul (convert outside p true).1

/-- The address that a text of `0x` and digits stands for. -/
def readPointer (text : List UInt8) : Option ℕ :=
  if text.take 2 = ascii "0x" then read (text.drop 2) else none

theorem ne_nul_of_isHexNumeral {text : List UInt8} {n : ℕ} (h : IsHexNumeral text n) :
    ∀ b ∈ text, b ≠ 0 := by
  intro b hb
  obtain ⟨d, hd, rfl⟩ := h.digits b hb
  have hall : ∀ d < 16, hexByte d ≠ 0 := by decide
  exact hall d hd

/-- The text is `0x` and the numeral. -/
theorem pointerText_eq (outside : ℤ → UInt8) (p : IntegerType.Value .unsignedLong) :
    ∃ text, IsHexNumeral text p.1.toNat ∧ pointerText outside p = ascii "0x" ++ text := by
  obtain ⟨text, hnumeral, hconvert⟩ := writesPointer outside p
  refine ⟨text, hnumeral, ?_⟩
  rw [pointerText, hconvert, untilNul, List.takeWhile_append_of_pos, List.takeWhile_cons_of_neg (by decide),
    List.append_nil]
  intro b hb
  rcases List.mem_append.mp hb with hb | hb
  · have hmark : (ascii "0x").all (· != 0) = true := rfl
    exact List.all_eq_true.mp hmark b hb
  · exact bne_iff_ne.mpr (ne_nul_of_isHexNumeral hnumeral b hb)

/-- **Reading back** gives the address. -/
theorem readPointer_pointerText (outside : ℤ → UInt8) (p : IntegerType.Value .unsignedLong) :
    readPointer (pointerText outside p) = some p.1.toNat := by
  obtain ⟨text, hnumeral, htext⟩ := pointerText_eq outside p
  have hlen : (ascii "0x").length = 2 := by decide
  rw [htext, readPointer, List.take_left' hlen, if_pos rfl, List.drop_left' hlen]
  exact hnumeral.reads

/-- Different addresses have different texts. -/
theorem pointerText_injective (outside : ℤ → UInt8) {p q : IntegerType.Value .unsignedLong}
    (h : pointerText outside p = pointerText outside q) : p = q := by
  have hp := readPointer_pointerText outside p
  rw [h, readPointer_pointerText, Option.some.injEq] at hp
  have hp₀ : 0 ≤ p.1 := p.2.1
  have hq₀ : 0 ≤ q.1 := q.2.1
  exact Subtype.ext (by omega)

/-! ### The space it takes -/

/-- **The size test is enough** for every type, every value and both radices, the NUL included. -/
theorem convert_fits (outside : ℤ → UInt8) {T : IntegerType} (t : T.Value) (isHex : Bool) :
    (convert outside t isHex).1.length ≤ LogStream.kMaxNumericSize := by
  obtain ⟨hlen, hle⟩ := LogStream.convert_length outside t isHex
  rw [hlen, LogStream.kMaxNumericSize]
  omega

namespace LogStream

variable {outside : ℤ → UInt8} {s : LogStream}

/-- From a line that ends inside the array `formatInteger` writes no byte behind the array, and ends
inside it. -/
theorem formatInteger_inside (outside : ℤ → UInt8) (hs : Inside s) {T : IntegerType} (t : T.Value)
    (isHex : Bool) : ∃ s', formatInteger outside s t isHex = .ok s' ∧ Inside s' := by
  obtain ⟨s', hok, hinside, -⟩ := formatInteger_guarded outside hs t isHex
  exact ⟨s', hok, hinside⟩

/-- **A pointer** is put behind what the line holds, or left out when the space is scarce. -/
theorem insert_pointer (hs : Inside s) (p : IntegerType.Value .unsignedLong) :
    ∃ s', insert outside s (.pointer p) = .ok s' ∧ Inside s' ∧
      s'.toFixed.content = s.toFixed.content ++
        if kMaxNumericSize < RawFixedBuffer.available s then pointerText outside p else [] := by
  obtain ⟨hfull, hspace⟩ := formatInteger_spec outside hs p true
  obtain ⟨text, hnumeral, htext⟩ := pointerText_eq outside p
  split
  · rename_i hlt
    obtain ⟨s', hok, -, hinside, hcontent⟩ := hspace hlt
    refine ⟨s', hok, hinside, ?_⟩
    obtain ⟨other, hother, hconvert⟩ := writesPointer outside p
    rw [hcontent, htext, hconvert, List.take_left, hother.eq, hnumeral.eq]
  · rename_i hge
    exact ⟨s, hfull (not_lt.mp hge), hs, (List.append_nil _).symm⟩

/-- **Numbers and pointers**, however many, stay inside the array. -/
theorem numbers_inside (outside : ℤ → UInt8) (es : List Insertion) (hes : ∀ e ∈ es, e.isNumber = true) :
    ∃ s, runFrom (insert outside) RawFixedBuffer.make es = .ok s ∧ Inside s := by
  have hgood : Along (insert outside) (fun _ e => e.isNumber = true) RawFixedBuffer.make es :=
    along_of_forall hes
  have hfits : ∀ (s : LogStream) (e : Insertion), e.isNumber = true → TextFits outside s e := by
    intro s e he htext
    rw [he] at htext
    cases htext
  have hstep : ∀ (s : LogStream) (e : Insertion) (s' : LogStream), Inside s → e.isNumber = true →
      insert outside s e = .ok s' → Inside s' :=
    fun s e s' hs he hok => inside_step s e s' hs (hfits s e he) hok
  have hnew : Inside RawFixedBuffer.make := Nat.zero_le _
  cases hrun : runFrom (insert outside) RawFixedBuffer.make es with
  | ok s => exact ⟨s, rfl, run_invariant hstep es hnew hgood s (reachedBy_end hrun)⟩
  | error fault =>
      cases fault
      refine absurd hrun (run_no_failure hstep (fun s e hs he hfault => ?_) es hnew hgood)
      obtain ⟨s', hok, -⟩ := insert_number outside he hs
      rw [hfault] at hok
      cases hok

end LogStream

/-- **Formatting a pointer.**  For every address `convert` writes `0x`, the numeral of the address in
capital letters and a NUL, and returns the length of the text; different addresses have different texts,
and reading a text gives back its address.  For every type, every value and both radices `convert` writes
at most `kMaxNumericSize` bytes, so `formatInteger` stays inside the array. -/
theorem pointer_formatting (outside : ℤ → UInt8) :
    (∀ p : IntegerType.Value .unsignedLong, WritesPointer outside p) ∧
      (∀ p q : IntegerType.Value .unsignedLong, p ≠ q → pointerText outside p ≠ pointerText outside q) ∧
      (∀ p : IntegerType.Value .unsignedLong, readPointer (pointerText outside p) = some p.1.toNat) ∧
      (∀ (T : IntegerType) (t : T.Value) (isHex : Bool),
        (convert outside t isHex).1.length ≤ LogStream.kMaxNumericSize) ∧
      ∀ (s : LogStream) (T : IntegerType) (t : T.Value) (isHex : Bool), LogStream.Inside s →
        ∃ s', LogStream.formatInteger outside s t isHex = .ok s' ∧ LogStream.Inside s' := by
  refine ⟨writesPointer outside, fun p q hne heq => hne (pointerText_injective outside heq),
    readPointer_pointerText outside, fun T t isHex => convert_fits outside t isHex, ?_⟩
  intro s T t isHex hs
  exact LogStream.formatInteger_inside outside hs t isHex

end WServer
