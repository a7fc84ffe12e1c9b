import Mathlib.Data.List.TakeWhile
import WServer.Buffer

/-!
# Buffers of fixed size

The log library keeps its text in `FixedBuffer`s, arrays of `SIZE` bytes filled from the front by
`strncpy`.  A buffer is modelled by the bytes before `m_cur_index`; those behind it are never read, and
each append writes all the bytes that it counts.
-/

namespace WServer

def kSmallBufferSize : ℕ := 4000
def kLargerBufferSize : ℕ := 4000 * 1000

/-- What `strncpy(p, msg, len)` writes: the bytes before the first NUL, then NULs up to `len`. -/
def strncpy (msg : List UInt8) : List UInt8 :=
  msg.takeWhile (· != 0) ++ List.replicate (msg.length - (msg.takeWhile (· != 0)).length) 0

@[simp] theorem strncpy_length (msg : List UInt8) : (strncpy msg).length = msg.length := by
  have hle := (List.takeWhile_sublist (l := msg) (· != (0 : UInt8))).length_le
  rw [strncpy, List.length_append, List.length_replicate]
  omega

/-- A text without NUL is copied as it is. -/
theorem strncpy_eq_self {msg : List UInt8} (h : ∀ b ∈ msg, b ≠ 0) : strncpy msg = msg := by
  have hall : msg.takeWhile (· != 0) = msg :=
    List.takeWhile_eq_self_iff.mpr fun b hb => bne_iff_ne.mpr (h b hb)
  rw [strncpy, hall, Nat.sub_self, List.replicate_zero, List.append_nil]

/-- `FixedBuffer<SIZE>` -/
structure FixedBuffer (SIZE : ℕ) where
  content : List UInt8
  deriving DecidableEq, Repr

namespace FixedBuffer

variable {SIZE : ℕ}

/-- A new buffer. -/
def make : FixedBuffer SIZE where
  content := []

def append (b : FixedBuffer SIZE) (msg : List UInt8) : FixedBuffer SIZE where
  content := b.content ++ strncpy msg

def length (b : FixedBuffer SIZE) : ℕ := b.content.length

/-- The space left, converted to `size_t`. -/
def available (b : FixedBuffer SIZE) : ℕ := IntConv.wrapped.toSize ((SIZE : ℤ) - b.length)

def reset (_ : FixedBuffer SIZE) : FixedBuffer SIZE where
  content := []

@[simp] theorem append_content (b : FixedBuffer SIZE) (msg : List UInt8) :
    (b.append msg).content = b.content ++ strncpy msg := rfl

theorem append_length (b : FixedBuffer SIZE) (msg : List UInt8) :
    (b.append msg).length = b.length + msg.length := by
  rw [length, append_content, List.length_append, strncpy_length, length]

/-- The conversion does no harm to a buffer that is not written past its end. -/
theorem available_eq {b : FixedBuffer SIZE} (hlen : b.length ≤ SIZE) (hsize : SIZE < 2 ^ 64) :
    b.available = SIZE - b.length := by
  simp only [available, IntConv.wrapped]
  omega

end FixedBuffer

end WServer
