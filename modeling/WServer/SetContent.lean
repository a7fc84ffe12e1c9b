import WServer.BufferFifo

/-!
# Filling a buffer without making room

`setContent` writes byte by byte behind the content, where `append` first makes room.  The two agree as
long as the bytes fit behind the write cursor; a byte more is written outside the vector.
-/

namespace WServer

open Library.Segments Library.Runs

/-- A write outside the vector of the buffer. -/
inductive ContentFault where
  | outside
  deriving DecidableEq, Repr

namespace RawBuffer

/-- The loop of `setContent`, over the bytes of `request` still to be written. -/
def setContent : List UInt8 → RawBuffer → Except ContentFault RawBuffer
  | [], b => .ok b
  | c :: request, b =>
      if b.writeIndex < b.buffer.length then
        setContent request
          { b with buffer := b.buffer.set b.writeIndex c, writeIndex := b.writeIndex + 1 }
      else .error .outside

/-- `setContent` writes inside the vector, ends with the write cursor inside it, and leaves the bytes to
read that `append` leaves. -/
def FillsAlike (conv : IntConv) (s : List UInt8) (b : RawBuffer) : Prop :=
  ∃ b', b.setContent s = .ok b' ∧ b'.content = (b.append conv s).content ∧
    b'.writeIndex ≤ b'.buffer.length

variable {conv : IntConv} {b : RawBuffer}

/-- Bytes that fit are written. -/
theorem setContent_fits {s : List UInt8} (h : b.writeIndex + s.length ≤ b.buffer.length) :
    b.setContent s = .ok { b with
      buffer := overwrite b.buffer b.writeIndex s
      writeIndex := b.writeIndex + s.length } := by
  induction s generalizing b with
  | nil =>
      rw [setContent, overwrite, List.append_nil, List.length_nil, Nat.add_zero, List.take_append_drop]
  | cons c s ih =>
      rw [List.length_cons] at h
      have hroom : b.writeIndex < b.buffer.length := by omega
      rw [setContent, if_pos hroom, ih, overwrite_cons hroom, List.length_cons, Nat.succ_add_eq_add_succ]
      show b.writeIndex + 1 + s.length ≤ (b.buffer.set b.writeIndex c).length
      rw [List.length_set]
      omega

/-- Others are written up to the end of the vector and beyond. -/
theorem setContent_outside {s : List UInt8} (h : b.writeIndex ≤ b.buffer.length)
    (hlong : b.buffer.length < b.writeIndex + s.length) : b.setContent s = .error .outside := by
  induction s generalizing b with
  | nil =>
      rw [List.length_nil] at hlong
      omega
  | cons c s ih =>
      rw [List.length_cons] at hlong
      rw [setContent]
      split
      · refine ih ?_ ?_
        · rw [List.length_set]
          exact ‹_›
        · show (b.buffer.set b.writeIndex c).length < b.writeIndex + 1 + s.length
          rw [List.length_set]
          omega
      · rfl

/-- **The two agree** exactly on the strings that fit behind the write cursor. -/
theorem fillsAlike_iff (h : b.Ordered) {s : List UInt8}
    (hx : conv.ExactUpTo (b.buffer.length + s.length)) :
    b.FillsAlike conv s ↔ s.length ≤ b.buffer.length - b.writeIndex := by
  have hw := h.write_le_size
  constructor
  · rintro ⟨b', hb', -⟩
    by_contra hlong
    rw [setContent_outside hw (by omega)] at hb'
    cases hb'
  · intro hfit
    have hroom : b.writeIndex + s.length ≤ b.buffer.length := by omega
    refine ⟨_, setContent_fits hroom, ?_, ?_⟩
    · rw [(append_spec h hx).2.1]
      exact slice_overwrite_extend h.read_le_write hw
    · show _ ≤ (overwrite _ _ _).length
      rw [overwrite_length hroom]
      exact hroom

end RawBuffer

namespace Buffer

/-- One call, under exact conversions. -/
def call (b : Buffer) : BufferOp → Buffer
  | .append msg => b.append msg
  | .readFromFd rs => (b.readFromFd rs).2
  | .getAnHTTPLine => b.getAnHTTPLine.2
  | .writeToFd ws => (b.writeToFd ws).2.2
  | .retrieveAll => b.retrieveAll

/-- The buffer that these calls make of a new one. -/
def after (ops : List BufferOp) : Buffer := ops.foldl call init

end Buffer

/-- **The two ways of filling a buffer** agree, on every buffer that calls make of a new one, exactly for
the strings that fit behind its write cursor: under exact conversions for all strings, and under those of
the machine as long as all sizes are at most `INT_MAX`. -/
theorem setContent_agrees_iff (ops : List BufferOp) (s : List UInt8) :
    ((Buffer.after ops).FillsAlike .exact s ↔
      s.length ≤ (Buffer.after ops).buffer.length - (Buffer.after ops).writeIndex) ∧
    ∀ b, Along bufferStep CallFits RawBuffer.init ops → runFrom bufferStep RawBuffer.init ops = .ok b →
      CallFits b (.append s) →
      (b.FillsAlike .wrapped s ↔ s.length ≤ b.buffer.length - b.writeIndex) := by
  refine ⟨RawBuffer.fillsAlike_iff (Buffer.after ops).ordered (IntConv.exact_exactUpTo _), ?_⟩
  intro b hops hrun hfit
  have hb : Measured b :=
    run_invariant (fun _ _ _ hs he hstep => by cases hstep; exact (bufferCall_refines hs he).1) ops
      init_measured hops b (reachedBy_end hrun)
  exact RawBuffer.fillsAlike_iff hb.1 (IntConv.wrapped_exactUpTo.mono hfit)

/-- A request line fits into a new buffer. -/
theorem setContent_agrees_iff_requestLine :
    (Buffer.after []).FillsAlike .exact (ascii "HEAD / http/1.0") ∧
      RawBuffer.init.FillsAlike .wrapped (ascii "HEAD / http/1.0") := by
  have hlen : (ascii "HEAD / http/1.0").length = 15 := rfl
  have hsize : RawBuffer.init.buffer.length = 1024 := List.length_replicate
  have hwrite : RawBuffer.init.writeIndex = 0 := rfl
  have hfit : (ascii "HEAD / http/1.0").length
      ≤ RawBuffer.init.buffer.length - RawBuffer.init.writeIndex := by
    rw [hlen, hsize, hwrite]
    omega
  have hcall : CallFits RawBuffer.init (.append (ascii "HEAD / http/1.0")) := by
    rw [CallFits, hlen, hsize, INT_MAX]
    norm_num
  obtain ⟨hexact, hwrapped⟩ := setContent_agrees_iff [] (ascii "HEAD / http/1.0")
  rw [show (Buffer.after []).toRawBuffer = RawBuffer.init from rfl] at hexact ⊢
  exact ⟨hexact.mpr hfit, (hwrapped RawBuffer.init trivial (runFrom_nil _) hcall).mpr hfit⟩

/-- A new buffer has no room for 1025 bytes. -/
theorem setContent_overruns : ¬ (Buffer.after []).FillsAlike .exact (List.replicate 1025 97) := by
  have hsize : (Buffer.after []).buffer.length = 1024 := List.length_replicate
  rw [RawBuffer.fillsAlike_iff (Buffer.after []).ordered (IntConv.exact_exactUpTo _), List.length_replicate,
    hsize]
  omega

end WServer
