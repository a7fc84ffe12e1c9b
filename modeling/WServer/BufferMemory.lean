import WServer.BufferFifo

/-!
# The memory of a buffer

The vector of a buffer only grows, in `makeSpace`, and never shrinks.  It grows only when the message does
not fit even behind the content at its head, so what it grows to is bounded by what the buffer has to hold
at that time, and not by how much has passed through it.

* `append_size` — one `append` makes the vector at most twice as long as the content behind it;
* `buffer_bounded` — in a run that never holds more than `most` bytes, the vector keeps its first size or
  has at most `2 * most` bytes, and so every size is one that `int` can tell.
-/

namespace WServer

open Library.Segments Library.Runs

namespace RawBuffer

variable {conv : IntConv} {b : RawBuffer}

/-- The vector does not grow when the message fits behind the content at its head. -/
theorem ensureEnoughSpace_room (h : b.Ordered) (ha : b.Accurate conv) {len : ℕ}
    (hsize : ∀ k : ℕ, k ≤ b.writeIndex + len → conv.toSize k = k)
    (hroom : b.writeIndex - b.readIndex + len ≤ b.buffer.length) :
    (b.ensureEnoughSpace conv len).buffer.length = b.buffer.length := by
  have hr := h.read_le_write
  have hw := h.write_le_size
  rw [ensureEnoughSpace, ha.writable]
  split
  · have hmoved : conv.toSize (b.readableBytes conv) = b.writeIndex - b.readIndex := by
      rw [ha.readable, ← Int.natCast_sub hr]
      exact hsize _ (by omega)
    rw [makeSpace, ha.writable, ha.preWritable, if_pos (by omega), hmoved]
    exact compacted_size h
  · rfl

/-- **Making room** for a message grows the vector, if at all, to less than twice the content and the
message. -/
theorem ensureEnoughSpace_size (h : b.Ordered) (ha : b.Accurate conv) {len : ℕ}
    (hsize : ∀ k : ℕ, k ≤ b.writeIndex + len → conv.toSize k = k) :
    (b.ensureEnoughSpace conv len).buffer.length ≤ max b.buffer.length (2 * (b.content.length + len)) := by
  have hr := h.read_le_write
  have hw := h.write_le_size
  rw [content_length h]
  by_cases hroom : b.writeIndex - b.readIndex + len ≤ b.buffer.length
  · rw [ensureEnoughSpace_room h ha hsize hroom]
    exact Nat.le_max_left _ _
  · refine Nat.le_trans ?_ (Nat.le_max_right _ _)
    rcases ensureEnoughSpace_cases h ha hsize with ⟨hfit, -⟩ | ⟨-, hmoved, -⟩ | ⟨hfull, heq⟩
    · omega
    · exact absurd hmoved hroom
    · rw [heq, grown_size hfull]
      omega

/-- **One append.** -/
theorem append_size (h : b.Ordered) {msg : List UInt8}
    (hx : conv.ExactUpTo (b.buffer.length + msg.length)) :
    (b.append conv msg).buffer.length ≤
      max b.buffer.length (2 * (b.content.length + msg.length)) := by
  have ha : b.Accurate conv := accurate_of_exactUpTo h (hx.mono (Nat.le_add_right _ _))
  have hsize : ∀ k : ℕ, k ≤ b.writeIndex + msg.length → conv.toSize k = k := fun k hk =>
    (hx k (hk.trans (Nat.add_le_add_right h.write_le_size _))).2
  obtain ⟨-, -, hlen, -⟩ := append_accurate h ha (hx msg.length (Nat.le_add_left _ _)).1 hsize
  rw [hlen]
  exact ensureEnoughSpace_size h ha hsize

end RawBuffer

/-! ### Runs -/

variable {most : ℕ}

/-- A buffer with its cursors in order, and a vector of its first size or of at most twice `most` bytes. -/
def Slim (most : ℕ) (b : RawBuffer) : Prop :=
  b.Ordered ∧ b.buffer.length ≤ max RawBuffer.INITTIAL_SIZE (2 * most)

/-- `int` has room for the vector and a message behind it. -/
theorem slim_room (hmost : 3 * most ≤ INT_MAX) : max RawBuffer.INITTIAL_SIZE (2 * most) + most ≤ INT_MAX := by
  have hint : INT_MAX = 2147483647 := by
    rw [INT_MAX]
    norm_num
  rw [RawBuffer.INITTIAL_SIZE]
  omega

/-- The bytes that a call puts into the buffer. -/
def incoming : BufferOp → List UInt8
  | .append msg => msg
  | .readFromFd rs => rs.received
  | .getAnHTTPLine | .writeToFd _ | .retrieveAll => []

/-- The content and what a call puts behind it are no more than `most` bytes. -/
def HoldsAtMost (most : ℕ) (b : RawBuffer) (op : BufferOp) : Prop :=
  b.content.length + (incoming op).length ≤ most

/-- An append that leaves no more than `most` bytes. -/
theorem slim_append {b : RawBuffer} {msg : List UInt8} (hmost : 3 * most ≤ INT_MAX) (h : Slim most b)
    (hholds : b.content.length + msg.length ≤ most) :
    b.buffer.length + msg.length ≤ INT_MAX ∧ (b.append .wrapped msg).content = b.content ++ msg ∧
      Slim most (b.append .wrapped msg) := by
  have hsize := h.2
  have hroom := slim_room hmost
  have hfit : b.buffer.length + msg.length ≤ INT_MAX := by omega
  have hx := IntConv.wrapped_exactUpTo.mono hfit
  obtain ⟨hordered, hcontent, -⟩ := RawBuffer.append_spec h.1 hx
  refine ⟨hfit, hcontent, hordered, (RawBuffer.append_size h.1 hx).trans ?_⟩
  exact Nat.max_le.mpr ⟨hsize, (Nat.mul_le_mul_left 2 hholds).trans (Nat.le_max_right _ _)⟩

/-- A reading appends chunk by chunk, and no chunk grows the vector further than all of them need. -/
theorem slim_readLoop (hmost : 3 * most ≤ INT_MAX) (rs : ReadScript) :
    ∀ (all : ℤ) (b : RawBuffer), Slim most b → b.content.length + rs.received.length ≤ most →
      b.ReadFits .wrapped INT_MAX rs ∧ Slim most (b.readLoop .wrapped rs all).2 := by
  induction rs with
  | nil => exact fun _ _ h _ => ⟨trivial, h⟩
  | cons r rs ih =>
      intro all b h hholds
      cases r with
      | data bytes =>
          rw [ReadScript.received, List.length_append] at hholds
          have hchunk : b.content.length + bytes.1.length ≤ most := by omega
          obtain ⟨hfit, hcontent, hslim⟩ := slim_append hmost h hchunk
          have hrest : (b.append .wrapped bytes.1).content.length + (ReadScript.received rs).length ≤ most := by
            rw [hcontent, List.length_append]
            omega
          obtain ⟨hfits, hslim'⟩ := ih (all + bytes.1.length) _ hslim hrest
          rw [RawBuffer.ReadFits, RawBuffer.readLoop]
          exact ⟨⟨hfit, hfits⟩, hslim'⟩
      | eintr =>
          rw [RawBuffer.ReadFits, RawBuffer.readLoop]
          exact ih all b h hholds
      | eof | eagain | error => exact ⟨trivial, h⟩

/-- **One call.** -/
theorem slim_call (hmost : 3 * most ≤ INT_MAX) {b : RawBuffer} {op : BufferOp} (h : Slim most b)
    (hholds : HoldsAtMost most b op) : CallFits b op ∧ Slim most (bufferCall b op).2 := by
  have hsize := h.2
  have hroom := slim_room hmost
  have hmeasured : Measured b := ⟨h.1, by omega⟩
  have hreadings : ∀ {op : BufferOp}, CallFits b op → (bufferCall b op).2.buffer = b.buffer →
      CallFits b op ∧ Slim most (bufferCall b op).2 := by
    intro op hfit hsame
    refine ⟨hfit, (bufferCall_refines hmeasured hfit).1.1, ?_⟩
    rw [hsame]
    exact hsize
  cases op with
  | append msg =>
      obtain ⟨hfit, -, hslim⟩ := slim_append hmost h hholds
      exact ⟨hfit, hslim⟩
  | readFromFd rs => exact slim_readLoop hmost rs 0 b h hholds
  | getAnHTTPLine =>
      refine hreadings trivial (RawBuffer.getAnHTTPLine_buffer h.1 ?_)
      exact IntConv.wrapped_exactUpTo.mono
        ((h.1.read_le_write.trans h.1.write_le_size).trans hmeasured.2)
  | writeToFd ws =>
      refine hreadings trivial ?_
      rw [bufferCall, RawBuffer.writeToFd, RawBuffer.writeLoop_buffer]
  | retrieveAll => exact hreadings trivial rfl

theorem slim_init (most : ℕ) : Slim most RawBuffer.init := by
  refine ⟨RawBuffer.init_ordered, ?_⟩
  rw [RawBuffer.init, List.length_replicate]
  exact Nat.le_max_left _ _

/-- **The memory of a buffer** is bounded by what it holds: in a run of calls none of which makes it hold
more than `most` bytes, however many pass through it, the vector has its first size or at most `2 * most`
bytes, if `int` has room for `3 * most`.  This is also all that the accessors need to be right in every
call. -/
theorem buffer_bounded (hmost : 3 * most ≤ INT_MAX) {ops : List BufferOp}
    (hholds : Along bufferStep (HoldsAtMost most) RawBuffer.init ops) :
    Along bufferStep CallFits RawBuffer.init ops ∧
      ∀ b, ReachedBy bufferStep RawBuffer.init ops b →
        b.Ordered ∧ b.buffer.length ≤ max RawBuffer.INITTIAL_SIZE (2 * most) := by
  have hstep : ∀ b op b', Slim most b → HoldsAtMost most b op → bufferStep b op = .ok b' → Slim most b' := by
    intro b op b' h hop heq
    cases heq
    exact (slim_call hmost h hop).2
  have hslim := run_invariant hstep ops (slim_init most) hholds
  refine ⟨?_, hslim⟩
  refine along_iff.mpr fun before op after hops b hb => ?_
  have hreached : ReachedBy bufferStep RawBuffer.init ops b :=
    ⟨before, hops ▸ List.prefix_append before (op :: after), hb⟩
  exact (slim_call hmost (hslim b hreached) (along_iff.mp hholds before op after hops b hb)).1

theorem buffer_bounded_line :
    Along bufferStep CallFits RawBuffer.init [.append [97, CR, LF], .retrieveAll] ∧
      ∀ b, ReachedBy bufferStep RawBuffer.init [.append [97, CR, LF], .retrieveAll] b →
        b.Ordered ∧ b.buffer.length ≤ max RawBuffer.INITTIAL_SIZE (2 * 3) := by
  have hmost : 3 * 3 ≤ INT_MAX := by
    rw [INT_MAX]
    norm_num
  have hfirst : RawBuffer.init.content.length + [97, CR, LF].length ≤ 3 := by
    rw [RawBuffer.init_content]
    decide
  obtain ⟨-, hcontent, -⟩ := slim_append hmost (slim_init 3) hfirst
  refine buffer_bounded hmost ⟨hfirst, fun b hb => ⟨?_, fun _ _ => trivial⟩⟩
  rw [bufferStep, Except.ok.injEq] at hb
  rw [← hb, HoldsAtMost, bufferCall, hcontent, RawBuffer.init_content]
  decide

end WServer
