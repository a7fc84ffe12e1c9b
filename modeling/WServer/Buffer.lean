import Mathlib.Data.Int.Basic
import Mathlib.Tactic.Linarith
import WServer.Library.Segments

/-!
# The connection buffer

A buffer is a vector of bytes with two cursors; the bytes between them are its content.  The accessors
of the source return `int`, so every capacity decision converts a `size_t` to `int` and some assignments
convert an `int` back.  The operations below take these conversions as a parameter `conv : IntConv`:

* `IntConv.wrapped` — the conversions of the machine, modulo `2 ^ 32` and `2 ^ 64`;
* `IntConv.exact` — no truncation, the reading under which the layers above use the buffer.

The two agree on every value up to `INT_MAX` (`wrapped_exactUpTo`), and each operation has one
specification lemma, stated for any conversion that is exact up to the sizes involved.  `Buffer` is the
buffer whose cursors are in order, with the same operations under exact conversions.

What the kernel answers to `read` and `write` is a finite script; a script that is used up answers
`EAGAIN`.
-/

namespace WServer

open Library.Segments

/-- The bytes of a text of single-byte characters. -/
def ascii (s : String) : List UInt8 := s.toList.map fun c => UInt8.ofNat c.toNat

/-! ### Integer conversions -/

/-- The conversions between `size_t` and `int` that the buffer makes. -/
structure IntConv where
  toInt : ℤ → ℤ
  toSize : ℤ → ℕ

def INT_MAX : ℕ := 2 ^ 31 - 1

namespace IntConv

/-- The machine's conversions: to `int` modulo `2 ^ 32`, to `size_t` modulo `2 ^ 64`. -/
def wrapped : IntConv where
  toInt z := z.bmod (2 ^ 32)
  toSize z := (z % 2 ^ 64).toNat

/-- Conversions that never truncate. -/
def exact : IntConv where
  toInt z := z
  toSize z := z.toNat

/-- The conversions are exact on the natural numbers up to `n`. -/
def ExactUpTo (conv : IntConv) (n : ℕ) : Prop :=
  ∀ k : ℕ, k ≤ n → conv.toInt k = k ∧ conv.toSize k = k

theorem exact_exactUpTo (n : ℕ) : exact.ExactUpTo n := fun _ _ => ⟨rfl, rfl⟩

/-- **Below `INT_MAX` the machine does not truncate.** -/
theorem wrapped_exactUpTo : wrapped.ExactUpTo INT_MAX := by
  intro k hk
  simp only [INT_MAX] at hk
  refine ⟨?_, ?_⟩
  · simp only [wrapped]
    exact Int.bmod_eq_of_le (by omega) (by omega)
  · simp only [wrapped]
    omega

theorem ExactUpTo.mono {conv : IntConv} {m n : ℕ} (h : conv.ExactUpTo n) (hmn : m ≤ n) :
    conv.ExactUpTo m := fun k hk => h k (hk.trans hmn)

end IntConv

/-! ### What the kernel answers -/

def CR : UInt8 := 13
def LF : UInt8 := 10

/-- One answer of `read` into the 1024 byte array of `readFromFd`. -/
inductive ReadResult where
  | data (bytes : {bs : List UInt8 // 0 < bs.length ∧ bs.length ≤ 1024})
  | eof
  | eintr
  | eagain
  | error

/-- One answer of `write`.  `count n` is a kernel with room for `n` bytes: it accepts as many as it is
offered, up to `n`. -/
inductive WriteResult where
  | count (n : ℕ)
  | eintr
  | eagain
  | error

abbrev ReadScript := List ReadResult
abbrev WriteScript := List WriteResult

/-! ### The buffer and its operations -/

/-- The fields of class `Buffer`: two cursors into a vector of bytes. -/
structure RawBuffer where
  readIndex : ℕ
  writeIndex : ℕ
  buffer : List UInt8
  deriving DecidableEq

/-- `std::vector::resize`: cut, or fill up with zeros. -/
def resize (l : List UInt8) (n : ℕ) : List UInt8 := l.take n ++ List.replicate (n - l.length) 0

theorem resize_of_le {l : List UInt8} {n : ℕ} (h : l.length ≤ n) :
    resize l n = l ++ List.replicate (n - l.length) 0 := by
  rw [resize, List.take_of_length_le h]

namespace RawBuffer

def INITTIAL_SIZE : ℕ := 1024

def init : RawBuffer := ⟨0, 0, List.replicate INITTIAL_SIZE 0⟩

/-- The readable bytes: those between the two cursors. -/
def content (b : RawBuffer) : List UInt8 := slice b.buffer b.readIndex b.writeIndex

variable (conv : IntConv)

def writableBytes (b : RawBuffer) : ℤ := conv.toInt (b.buffer.length - b.writeIndex)

def preWritableBytes (b : RawBuffer) : ℤ := conv.toInt b.readIndex

def readableBytes (b : RawBuffer) : ℤ := conv.toInt (b.writeIndex - b.readIndex)

def makeSpace (len : ℤ) (b : RawBuffer) : RawBuffer :=
  if b.preWritableBytes conv + b.writableBytes conv ≥ len then
    -- move the content to the head
    { buffer := overwrite b.buffer 0 (slice b.buffer b.readIndex b.writeIndex)
      readIndex := 0
      writeIndex := conv.toSize (b.readableBytes conv) }
  else
    { b with buffer := resize b.buffer (conv.toSize (b.writeIndex + len)) }

def ensureEnoughSpace (len : ℤ) (b : RawBuffer) : RawBuffer :=
  if b.writableBytes conv < len then b.makeSpace conv len else b

/-- `append(msg, len)`, where `len` is the length of `msg` converted to `int`. -/
def append (msg : List UInt8) (b : RawBuffer) : RawBuffer :=
  let len := conv.toInt msg.length
  let b := b.ensureEnoughSpace conv len
  { b with
    buffer := overwrite b.buffer b.writeIndex (msg.take len.toNat)
    writeIndex := b.writeIndex + conv.toSize len }

/-- The scan of `getAnHTTPLine` from index `i`, with `n` indices left up to the write cursor. -/
def getAnHTTPLineFrom (b : RawBuffer) : ℕ → ℕ → List UInt8 × RawBuffer
  | 0, _ => ([], b)
  | n + 1, i =>
      if b.buffer.getD i 0 = CR ∧ i + 1 < b.writeIndex ∧ b.buffer.getD (i + 1) 0 = LF then
        let start := conv.toInt b.readIndex
        (slice b.buffer start.toNat (i + 2), { b with readIndex := i + 2 })
      else if i = b.writeIndex - 1 then
        (slice b.buffer b.readIndex i, b)
      else
        getAnHTTPLineFrom b n (i + 1)

def getAnHTTPLine (b : RawBuffer) : List UInt8 × RawBuffer :=
  b.getAnHTTPLineFrom conv (b.writeIndex - b.readIndex) b.readIndex

/-- The loop of `readFromFd`: the answers still to come, `all_bytes` so far, the buffer so far. -/
def readLoop : ReadScript → ℤ → RawBuffer → ℤ × RawBuffer
  | [], all, b => (all, b)
  | .eintr :: rs, all, b => readLoop rs all b
  | .eagain :: _, all, b => (all, b)
  | .error :: _, _, b => (-1, b)
  | .eof :: _, _, b => (0, b)
  | .data bytes :: rs, all, b => readLoop rs (all + bytes.1.length) (b.append conv bytes.1)

def readFromFd (rs : ReadScript) (b : RawBuffer) : ℤ × RawBuffer := b.readLoop conv rs 0

/-- The loop of `writeToFd`: the answers still to come, `all_bytes` so far, the bytes the kernel has
accepted so far, the buffer so far. -/
def writeLoop : WriteScript → ℤ → List UInt8 → RawBuffer → ℤ × List UInt8 × RawBuffer
  | [], all, sent, b => (all, sent, b)
  | .eintr :: ws, all, sent, b => writeLoop ws all sent b
  | .eagain :: _, all, sent, b => (all, sent, b)
  | .error :: _, _, sent, b => (-1, sent, b)
  | .count n :: ws, all, sent, b =>
      let bytes := min n (conv.toSize (b.readableBytes conv))
      if 0 < bytes then
        let readIndex := b.readIndex + bytes
        writeLoop ws (all + bytes) (sent ++ slice b.buffer b.readIndex readIndex)
          (if readIndex = b.writeIndex then { b with readIndex := 0, writeIndex := 0 }
           else { b with readIndex := readIndex })
      else (all, sent, b)

/-- The value returned, the bytes the kernel accepted, the buffer afterwards. -/
def writeToFd (ws : WriteScript) (b : RawBuffer) : ℤ × List UInt8 × RawBuffer :=
  b.writeLoop conv ws 0 []

def retrieveAll (b : RawBuffer) : RawBuffer := { b with readIndex := 0, writeIndex := 0 }

end RawBuffer

end WServer
