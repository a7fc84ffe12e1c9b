import WServer.LogStream
import WServer.FormatInteger
import WServer.Library.Runs

/-!
# Insertions into a log line

A `LogStream` is a `FixedBuffer` of 4000 bytes in memory.  Every `operator<<` copies or formats its
argument to the place of `m_cur_index` and moves the index on; a byte written behind the array is a fault.
An integer or a pointer is formatted only where `available()` exceeds `kMaxNumericSize`, anything else is
copied without a test.

* `RawFixedBuffer` — the array and its index; `toFixed`, the buffer of bytes it stands for;
* `Insertion`, `LogStream.insert` — the insertions and what they do;
* `Logger.line` — the insertions that make up one line of the `Logger`;
* `append_toFixed` — within the array an append is that of `FixedBuffer`;
* `insert_text`, `insert_number` — one insertion without and one with a test;
* `insertAll_texts` — insertions without a test that fit, one after the other.
-/

namespace WServer

open Library.Segments Library.Runs

/-! ### The array -/

/-- `FixedBuffer<SIZE>` in memory. -/
structure RawFixedBuffer (SIZE : ℕ) where
  buf : List UInt8
  curIndex : ℕ
  size : buf.length = SIZE

/-- A byte is written behind the array. -/
inductive StreamFault where
  | pastEnd
  deriving DecidableEq, Repr

namespace RawFixedBuffer

variable {SIZE : ℕ}

/-- The constructor: `bzero` over the array. -/
def make : RawFixedBuffer SIZE where
  buf := List.replicate SIZE 0
  curIndex := 0
  size := List.length_replicate

/-- Bytes written from `current()` on. -/
def write (b : RawFixedBuffer SIZE) (msg : List UInt8) : Except StreamFault (RawFixedBuffer SIZE) :=
  if h : b.curIndex + msg.length ≤ SIZE then
    .ok { b with
      buf := overwrite b.buf b.curIndex msg
      size := (overwrite_length (h.trans_eq b.size.symm)).trans b.size }
  else .error .pastEnd

def addLen (b : RawFixedBuffer SIZE) (len : ℕ) : RawFixedBuffer SIZE :=
  { b with curIndex := b.curIndex + len }

/-- `append`: a copy by `strncpy`, which writes as many bytes as it is given. -/
def append (b : RawFixedBuffer SIZE) (msg : List UInt8) : Except StreamFault (RawFixedBuffer SIZE) :=
  match b.write (strncpy msg) with
  | .ok b => .ok (b.addLen msg.length)
  | .error f => .error f

/-- The space left, converted to `size_t`. -/
def available (b : RawFixedBuffer SIZE) : ℕ := IntConv.wrapped.toSize ((SIZE : ℤ) - b.curIndex)

/-- The bytes before the index. -/
def toFixed (b : RawFixedBuffer SIZE) : FixedBuffer SIZE where
  content := b.buf.take b.curIndex

theorem toFixed_make : (make : RawFixedBuffer SIZE).toFixed = FixedBuffer.make := rfl

theorem toFixed_length {b : RawFixedBuffer SIZE} (h : b.curIndex ≤ SIZE) :
    b.toFixed.length = b.curIndex := by
  rw [FixedBuffer.length, toFixed, List.length_take, b.size, Nat.min_eq_left h]

theorem available_eq {b : RawFixedBuffer SIZE} (h : b.curIndex ≤ SIZE) (hsize : SIZE < 2 ^ 64) :
    b.available = SIZE - b.curIndex := by
  simp only [available, IntConv.wrapped]
  omega

/-- An append past the end of the array is a fault. -/
theorem append_fault {b : RawFixedBuffer SIZE} {msg : List UInt8} (h : ¬ b.curIndex + msg.length ≤ SIZE) :
    b.append msg = .error .pastEnd := by
  rw [append, write, dif_neg (by rw [strncpy_length]; exact h)]

/-- **An append inside the array** is that of the buffer of bytes. -/
theorem append_toFixed {b : RawFixedBuffer SIZE} {msg : List UInt8} (h : b.curIndex + msg.length ≤ SIZE) :
    ∃ b', b.append msg = .ok b' ∧ b'.curIndex = b.curIndex + msg.length ∧
      b'.toFixed = b.toFixed.append msg := by
  have hfits : b.curIndex + (strncpy msg).length ≤ SIZE := by
    rw [strncpy_length]
    exact h
  have hindex : b.curIndex ≤ b.buf.length := by
    rw [b.size]
    omega
  refine ⟨_, by rw [append, write, dif_pos hfits], rfl, ?_⟩
  have htake := overwrite_take b.buf (strncpy msg) hindex
  rw [strncpy_length] at htake
  simp only [toFixed, addLen, FixedBuffer.append]
  rw [htake]

end RawFixedBuffer

/-! ### The insertions -/

/-- The text before the first NUL, `strlen` bytes of it. -/
def untilNul (msg : List UInt8) : List UInt8 := msg.takeWhile (· != 0)

/-- An argument of `operator<<`.  A C string is the memory behind the pointer. -/
inductive Insertion where
  | bool (v : Bool)
  | integer {T : IntegerType} (n : T.Value)
  | pointer (msg : IntegerType.Value .unsignedLong)
  | char (ch : UInt8)
  | cString (msg : List UInt8)
  | string (msg : List UInt8)
  | buffer (buf : FixedBuffer kSmallBufferSize)

abbrev LogStream : Type := RawFixedBuffer kSmallBufferSize

namespace LogStream

def kMaxNumericSize : ℕ := 48

def formatInteger (outside : ℤ → UInt8) {T : IntegerType} (s : LogStream) (t : T.Value) (isHex : Bool) :
    Except StreamFault LogStream :=
  -- if m_buffer has enough space
  if kMaxNumericSize < RawFixedBuffer.available s then
    match RawFixedBuffer.write s (convert outside t isHex).1 with
    | .ok s => .ok (RawFixedBuffer.addLen s (convert outside t isHex).2)
    | .error f => .error f
  else .ok s

/-- `operator<<` -/
def insert (outside : ℤ → UInt8) (s : LogStream) : Insertion → Except StreamFault LogStream
  | .bool v => RawFixedBuffer.append s (if v then ascii "1" else ascii "0")
  | .integer n => formatInteger outside s n false
  | .pointer msg => formatInteger outside s msg true
  | .char ch => RawFixedBuffer.append s [ch]
  | .cString msg => RawFixedBuffer.append s (untilNul msg)
  | .string msg => RawFixedBuffer.append s msg
  | .buffer buf => RawFixedBuffer.append s buf.content

end LogStream

namespace Insertion

/-- The bytes of an argument that is copied as it is. -/
def text : Insertion → List UInt8
  | .bool v => if v then ascii "1" else ascii "0"
  | .char ch => [ch]
  | .cString msg => untilNul msg
  | .string msg => msg
  | .buffer buf => buf.content
  | .integer _ | .pointer _ => []

/-- An integer or a pointer, which is formatted after a test of the space left. -/
def isNumber : Insertion → Bool
  | .integer _ | .pointer _ => true
  | _ => false

/-- How far the insertion moves the index. -/
def length (outside : ℤ → UInt8) : Insertion → ℕ
  | .integer n => (convert outside n false).2
  | .pointer msg => (convert outside msg true).2
  | e => e.text.length

/-- The bytes of the insertion have a place in the array. -/
def Fits (outside : ℤ → UInt8) (s : LogStream) (e : Insertion) : Prop :=
  s.curIndex + e.length outside ≤ kSmallBufferSize

end Insertion

namespace Logger

inductive LogLevel where
  | DEBUG
  | INFO
  | ERROR
  | FATAL
  deriving DecidableEq, Repr

def logLevelName : LogLevel → List UInt8
  | .DEBUG => ascii "DEBUG"
  | .INFO => ascii "INFO"
  | .ERROR => ascii "ERROR"
  | .FATAL => ascii "FATAL"

/-- What a `Logger` inserts before the message: `formatTime`, the constructor of `Impl`, its own. -/
def opening (timeStamp tidString : List UInt8) (level : LogLevel) (func : List UInt8) : List Insertion :=
  [.string timeStamp, .cString (ascii " "), .cString tidString, .cString (ascii " "),
    .cString (logLevelName level), .cString (ascii " "), .cString func, .cString (ascii " ")]

/-- `finish` -/
def finish (basename : List UInt8) (line : IntegerType.Value .int) : List Insertion :=
  [.cString (ascii " - "), .string basename, .cString (ascii ":"), .integer line, .char 10]

end Logger

/-! ### What an insertion does -/

namespace LogStream

variable {outside : ℤ → UInt8} {s : LogStream} {e : Insertion}

theorem insert_of_text (outside : ℤ → UInt8) (s : LogStream) (he : e.isNumber = false) :
    insert outside s e = RawFixedBuffer.append s e.text := by
  cases e with
  | integer n => cases he
  | pointer msg => cases he
  | bool | char | cString | string | buffer => rfl

theorem length_of_text (outside : ℤ → UInt8) (he : e.isNumber = false) :
    e.length outside = e.text.length := by
  cases e with
  | integer n => cases he
  | pointer msg => cases he
  | bool | char | cString | string | buffer => rfl

/-- **A text that fits** is copied behind the others. -/
theorem insert_text (he : e.isNumber = false) (hfits : e.Fits outside s) :
    ∃ s', insert outside s e = .ok s' ∧ s'.curIndex = s.curIndex + e.length outside ∧
      s'.toFixed = s.toFixed.append e.text := by
  rw [Insertion.Fits, length_of_text outside he] at hfits
  rw [insert_of_text outside s he, length_of_text outside he]
  exact RawFixedBuffer.append_toFixed hfits

/-- **A text that does not fit** is written past the end. -/
theorem insert_text_fault (he : e.isNumber = false) (hfits : ¬ e.Fits outside s) :
    insert outside s e = .error .pastEnd := by
  rw [Insertion.Fits, length_of_text outside he] at hfits
  rw [insert_of_text outside s he]
  exact RawFixedBuffer.append_fault hfits

/-- `convert` writes one byte more than it returns, and no more than twenty-two. -/
theorem convert_length (outside : ℤ → UInt8) {T : IntegerType} (t : T.Value) (isHex : Bool) :
    (convert outside t isHex).1.length = (convert outside t isHex).2 + 1 ∧
      (convert outside t isHex).2 ≤ 21 := by
  have habs := t.natAbs_lt
  cases isHex with
  | false =>
      have hle := convertDigits_length outside t false (show 0 < 20 by decide)
        (habs.trans (by decide))
      simp only [convert, Bool.false_eq_true, if_false]
      refine ⟨by rw [List.length_append, List.length_reverse, List.length_singleton], ?_⟩
      split
      · rw [List.length_append, List.length_singleton]
        omega
      · omega
  | true =>
      have hle := convertDigits_length outside t true (show 0 < 16 by decide)
        (habs.trans_le (by decide))
      simp only [convert, if_true]
      refine ⟨?_, by omega⟩
      rw [List.length_append, List.length_append, List.length_reverse, List.length_singleton]
      rfl

/-- **`formatInteger`** writes the text behind the others where there is space for it and more, and does
nothing elsewhere. -/
theorem formatInteger_spec (outside : ℤ → UInt8) (hs : s.curIndex ≤ kSmallBufferSize) {T : IntegerType}
    (t : T.Value) (isHex : Bool) :
    (RawFixedBuffer.available s ≤ kMaxNumericSize → formatInteger outside s t isHex = .ok s) ∧
      (kMaxNumericSize < RawFixedBuffer.available s →
        ∃ s', formatInteger outside s t isHex = .ok s' ∧
          s'.curIndex = s.curIndex + (convert outside t isHex).2 ∧ s'.curIndex ≤ kSmallBufferSize ∧
          s'.toFixed.content =
            s.toFixed.content ++ (convert outside t isHex).1.take (convert outside t isHex).2) := by
  obtain ⟨hlen, hle⟩ := convert_length outside t isHex
  have havail := RawFixedBuffer.available_eq hs (by decide)
  refine ⟨fun hfull => by rw [formatInteger, if_neg (not_lt.mpr hfull)], fun hspace => ?_⟩
  have hwrite : s.curIndex + (convert outside t isHex).1.length ≤ kSmallBufferSize := by
    rw [kMaxNumericSize, havail] at hspace
    omega
  have hindex : s.curIndex ≤ s.buf.length := by
    rw [s.size]
    exact hs
  have htake := overwrite_take s.buf (convert outside t isHex).1 hindex
  rw [formatInteger, if_pos hspace, RawFixedBuffer.write, dif_pos hwrite]
  refine ⟨_, rfl, rfl, ?_, ?_⟩
  · show s.curIndex + (convert outside t isHex).2 ≤ kSmallBufferSize
    omega
  · -- the NUL is written, and left behind the index
    show (overwrite s.buf s.curIndex (convert outside t isHex).1).take
        (s.curIndex + (convert outside t isHex).2) = s.buf.take s.curIndex ++ _
    rw [show s.curIndex + (convert outside t isHex).2 =
        min (s.curIndex + (convert outside t isHex).2) (s.curIndex + (convert outside t isHex).1.length) by
      omega, ← List.take_take, htake, List.take_append, List.length_take, Nat.min_eq_left hindex,
      Nat.add_sub_cancel_left, List.take_of_length_le (by rw [List.length_take]; omega)]

/-- It ends inside the array, and does nothing where the text has no place. -/
theorem formatInteger_guarded (outside : ℤ → UInt8) (hs : s.curIndex ≤ kSmallBufferSize)
    {T : IntegerType} (t : T.Value) (isHex : Bool) :
    ∃ s', formatInteger outside s t isHex = .ok s' ∧ s'.curIndex ≤ kSmallBufferSize ∧
      (¬ s.curIndex + (convert outside t isHex).2 ≤ kSmallBufferSize → s' = s) := by
  obtain ⟨hfull, hspace⟩ := formatInteger_spec outside hs t isHex
  rcases Nat.lt_or_ge kMaxNumericSize (RawFixedBuffer.available s) with hlt | hge
  · obtain ⟨s', hok, hindex, hinside, -⟩ := hspace hlt
    exact ⟨s', hok, hinside, fun hnot => absurd (hindex ▸ hinside) hnot⟩
  · exact ⟨s, hfull hge, hs, fun _ => rfl⟩

/-- **A number** is written where there is space for it and more, and refused elsewhere. -/
theorem insert_number (outside : ℤ → UInt8) (he : e.isNumber = true) (hs : s.curIndex ≤ kSmallBufferSize) :
    ∃ s', insert outside s e = .ok s' ∧ s'.curIndex ≤ kSmallBufferSize ∧
      (¬ e.Fits outside s → s' = s) := by
  cases e with
  | integer n => exact formatInteger_guarded outside hs n false
  | pointer msg => exact formatInteger_guarded outside hs msg true
  | bool | char | cString | string | buffer => cases he

/-- The sum of what insertions move the index. -/
def totalLength (outside : ℤ → UInt8) (es : List Insertion) : ℕ := (es.map (·.length outside)).sum

/-- **Texts that fit**, one after the other, are copied one behind the other. -/
theorem insertAll_texts (es : List Insertion) (hes : ∀ e ∈ es, e.isNumber = false)
    (hfits : s.curIndex + totalLength outside es ≤ kSmallBufferSize) :
    ∃ s', runFrom (insert outside) s es = .ok s' ∧
      s'.curIndex = s.curIndex + totalLength outside es ∧
      s'.toFixed.content = s.toFixed.content ++ es.flatMap fun e => strncpy e.text := by
  induction es generalizing s with
  | nil => exact ⟨s, rfl, rfl, (List.append_nil _).symm⟩
  | cons e es ih =>
      rw [totalLength, List.map_cons, List.sum_cons, ← totalLength] at hfits
      obtain ⟨next, hnext, hindex, hcontent⟩ := @insert_text outside s e
        (hes e List.mem_cons_self) (show e.Fits outside s by rw [Insertion.Fits]; omega)
      obtain ⟨s', hrun, hindex', hcontent'⟩ :=
        ih (fun d hd => hes d (List.mem_cons_of_mem e hd)) (by rw [hindex]; omega)
      refine ⟨s', by rw [runFrom_cons_ok es hnext, hrun], ?_, ?_⟩
      · rw [hindex', hindex, totalLength, totalLength, List.map_cons, List.sum_cons]
        omega
      · rw [hcontent', hcontent, FixedBuffer.append_content, List.flatMap_cons, List.append_assoc]

end LogStream

end WServer
