import WServer.BufferFifo

/-!
# The accessors of the buffer

`readableBytes`, `writableBytes` and `preWritableBytes` return `int`, and nothing limits what a peer can
make the buffer hold.  As long as all three differences are at most `INT_MAX` the accessors are right and
so is every decision that rests on them; beyond, they are not.

* `AccessorOp` — the bytes of one `read` appended, `getAnHTTPLine`, `retrieveAll`;
* `StaysMeasurable` — the condition on one call;
* `accessors_right_iff` — whole runs.
-/

namespace WServer

open Library.Segments Library.Runs

/-- A call whose argument has the size that `readFromFd` gives it. -/
inductive AccessorOp where
  | append (chunk : {bs : List UInt8 // 0 < bs.length ∧ bs.length ≤ 1024})
  | getAnHTTPLine
  | retrieveAll

def AccessorOp.toOp : AccessorOp → BufferOp
  | .append chunk => .append chunk.1
  | .getAnHTTPLine => .getAnHTTPLine
  | .retrieveAll => .retrieveAll

def accessorStep (b : RawBuffer) (op : AccessorOp) : Except Empty RawBuffer := bufferStep b op.toOp

/-- The condition on one call: what is appended leaves at most `INT_MAX` bytes to read, the first line of
the content ends at most at `INT_MAX`, and the vector that is emptied is no longer than that. -/
def StaysMeasurable (b : RawBuffer) : AccessorOp → Prop
  | .append chunk => b.content.length + chunk.1.length ≤ INT_MAX
  | .getAnHTTPLine =>
      ∀ line rest, splitAtPair CR LF b.content = some (line, rest) →
        b.readIndex + line.length ≤ INT_MAX
  | .retrieveAll => b.buffer.length ≤ INT_MAX

theorem wrapped_toInt_eq_iff (n : ℕ) : IntConv.wrapped.toInt n = n ↔ n ≤ INT_MAX := by
  refine ⟨fun h => ?_, fun h => (IntConv.wrapped_exactUpTo n h).1⟩
  simp only [IntConv.wrapped] at h
  have hlt := @Int.bmod_lt n (2 ^ 32) (Nat.two_pow_pos 32)
  rw [h] at hlt
  rw [INT_MAX]
  omega

namespace RawBuffer

variable {b : RawBuffer}

/-- The cursors are in order, and the accessors return the true differences. -/
def Truthful (b : RawBuffer) : Prop := b.Ordered ∧ b.Accurate .wrapped

/-- Making room for the bytes of one `read` leaves the cursors in order. -/
def KeepsOrder (b : RawBuffer) : Prop :=
  ∀ len : ℕ, 0 < len → len ≤ 1024 → (b.ensureEnoughSpace .wrapped len).Ordered

/-! ### What the machine can measure -/

/-- The three differences are at most `INT_MAX`. -/
theorem accurate_iff (h : b.Ordered) : b.Accurate .wrapped ↔
    b.content.length ≤ INT_MAX ∧ b.buffer.length - b.writeIndex ≤ INT_MAX ∧ b.readIndex ≤ INT_MAX := by
  have hr := h.read_le_write
  have hw := h.write_le_size
  have hreadable := wrapped_toInt_eq_iff (b.writeIndex - b.readIndex)
  have hwritable := wrapped_toInt_eq_iff (b.buffer.length - b.writeIndex)
  rw [Int.natCast_sub hr, ← readableBytes] at hreadable
  rw [Int.natCast_sub hw, ← writableBytes] at hwritable
  rw [content_length h, ← hreadable, ← hwritable, ← wrapped_toInt_eq_iff, ← preWritableBytes]
  exact ⟨fun ha => ⟨ha.readable, ha.writable, ha.preWritable⟩, fun ha => ⟨ha.1, ha.2.1, ha.2.2⟩⟩

/-- The conversions to `size_t` are right for all sizes that come up. -/
theorem Truthful.toSize (h : b.Truthful) {len : ℕ} (hlen : len ≤ 1024) :
    ∀ k : ℕ, k ≤ b.writeIndex + len → IntConv.wrapped.toSize k = k := by
  intro k hk
  obtain ⟨hc, -, hr⟩ := (accurate_iff h.1).mp h.2
  rw [content_length h.1, INT_MAX] at hc
  rw [INT_MAX] at hr
  show ((k : ℤ) % 2 ^ 64).toNat = k
  omega

theorem Truthful.keepsOrder (h : b.Truthful) : b.KeepsOrder := fun _ _ hlen =>
  (ensureEnoughSpace_spec h.1 h.2 (h.toSize hlen)).1

/-- **After an append** the accessors are right exactly if what is to be read is at most `INT_MAX`. -/
theorem append_truthful_iff (h : b.Truthful) {msg : List UInt8} (hlen : msg.length ≤ 1024) :
    (b.append .wrapped msg).Truthful ↔ b.content.length + msg.length ≤ INT_MAX := by
  have hmsg : IntConv.wrapped.toInt msg.length = msg.length :=
    (wrapped_toInt_eq_iff _).mpr (hlen.trans (by decide))
  obtain ⟨ho, hc, hsize, hri, hwi⟩ := append_accurate h.1 h.2 hmsg (h.toSize hlen)
  have hlength : (b.append .wrapped msg).content.length = b.content.length + msg.length := by
    rw [hc, List.length_append]
  rw [Truthful, and_iff_right ho, accurate_iff ho, hlength]
  refine and_iff_left_of_imp fun hfit => ?_
  obtain ⟨-, hspare, hread⟩ := (accurate_iff h.1).mp h.2
  have hr := h.1.read_le_write
  have hw := h.1.write_le_size
  rw [hsize, hri, hwi]
  rcases ensureEnoughSpace_cases h.1 h.2 (h.toSize hlen) with ⟨-, heq⟩ | ⟨hfull, -, heq⟩ | ⟨hfull, heq⟩
  · rw [heq]
    exact ⟨by omega, hread⟩
  · rw [heq, compacted_size h.1]
    exact ⟨by simp only [compacted]; omega, Nat.zero_le _⟩
  · rw [heq, grown_size hfull]
    exact ⟨by simp only [grown]; omega, hread⟩

/-- **After the extraction of a line** they are right exactly if the line ends at most at `INT_MAX`. -/
theorem getAnHTTPLine_truthful_iff (h : b.Truthful) :
    (b.getAnHTTPLine .wrapped).2.Truthful ↔
      ∀ line rest, splitAtPair CR LF b.content = some (line, rest) →
        b.readIndex + line.length ≤ INT_MAX := by
  obtain ⟨hcontent, hspare, hread⟩ := (accurate_iff h.1).mp h.2
  have hx : IntConv.wrapped.ExactUpTo b.readIndex := IntConv.wrapped_exactUpTo.mono hread
  have hr := h.1.read_le_write
  obtain ⟨ho, -, hc⟩ := getAnHTTPLine_spec h.1 hx
  rw [Truthful, and_iff_right ho, accurate_iff ho, hc]
  rw [getAnHTTPLine, getAnHTTPLineFrom_spec h.1 hx _ _ (by omega) (Nat.le_refl _), firstLine]
  show _ ↔ ∀ line rest, splitAtPair CR LF b.content = _ → _
  rw [← show b.content = slice b.buffer b.readIndex b.writeIndex from rfl]
  cases hcut : splitAtPair CR LF b.content with
  | none => exact iff_of_true ⟨hcontent, hspare, hread⟩ fun _ _ heq => by cases heq
  | some p =>
      obtain ⟨line, rest⟩ := p
      have happ := congrArg List.length (splitAtPair_some hcut).1
      rw [List.length_append] at happ
      refine ⟨fun hall _ _ heq => ?_, fun hall => ⟨?_, hspare, hall line rest rfl⟩⟩
      · cases heq
        exact hall.2.2
      · show rest.length ≤ INT_MAX
        omega

/-- **After `retrieveAll`** they are right exactly if the vector is not longer than `INT_MAX`. -/
theorem retrieveAll_truthful_iff : b.retrieveAll.Truthful ↔ b.buffer.length ≤ INT_MAX := by
  have ho : b.retrieveAll.Ordered := ⟨Nat.le_refl _, Nat.zero_le _⟩
  rw [Truthful, and_iff_right ho, accurate_iff ho, content_length ho]
  exact ⟨fun hall => hall.2.1, fun hsize => ⟨Nat.zero_le _, hsize, Nat.zero_le _⟩⟩

end RawBuffer

open RawBuffer

/-! ### Whole runs -/

theorem init_truthful : RawBuffer.init.Truthful :=
  ⟨init_ordered, accurate_of_exactUpTo init_ordered (IntConv.wrapped_exactUpTo.mono init_measured.2)⟩

/-- **One call** leaves the accessors right exactly if it meets the condition. -/
theorem accessorStep_truthful_iff {b b' : RawBuffer} {op : AccessorOp} (h : b.Truthful)
    (hstep : accessorStep b op = .ok b') : b'.Truthful ↔ StaysMeasurable b op := by
  cases hstep
  cases op with
  | append chunk => exact append_truthful_iff h chunk.2.2
  | getAnHTTPLine => exact getAnHTTPLine_truthful_iff h
  | retrieveAll => exact retrieveAll_truthful_iff

/-- **The accessors are right** in all states of a run, and the cursors in order before, in and after every
call, exactly if every call meets the condition. -/
theorem accessors_right_iff (ops : List AccessorOp) :
    (∀ b, ReachedBy accessorStep RawBuffer.init ops b → b.Truthful ∧ b.KeepsOrder) ↔
      Along accessorStep StaysMeasurable RawBuffer.init ops :=
  reached_forall_iff (fun _ h => ⟨h, h.keepsOrder⟩)
    (fun _ _ _ h hgood hstep => (accessorStep_truthful_iff h hstep).mpr hgood)
    (fun _ _ h hbad => ⟨_, rfl, fun hsafe => hbad ((accessorStep_truthful_iff h rfl).mp hsafe.1)⟩)
    ops init_truthful

/-- Each of `n` equal readings without a line end leaves its bytes to be read. -/
theorem readings_length {b : RawBuffer} (h : b.Truthful)
    (chunk : {bs : List UInt8 // 0 < bs.length ∧ bs.length ≤ 1024}) (n : ℕ)
    (hgood : Along accessorStep StaysMeasurable b (List.replicate n (.append chunk))) :
    b.content.length + n * chunk.1.length ≤ INT_MAX := by
  induction n generalizing b with
  | zero =>
      rw [Nat.zero_mul, Nat.add_zero]
      exact ((accurate_iff h.1).mp h.2).1
  | succ n ih =>
      have hread : (b.append .wrapped chunk.1).Truthful :=
        (append_truthful_iff h chunk.2.2).mpr hgood.1
      have hmsg : IntConv.wrapped.toInt chunk.1.length = chunk.1.length :=
        (wrapped_toInt_eq_iff _).mpr (chunk.2.2.trans (by decide))
      have hrest := ih hread (hgood.2 _ rfl)
      rw [(append_accurate h.1 h.2 hmsg (h.toSize chunk.2.2)).2.1, List.length_append] at hrest
      rw [Nat.succ_mul]
      omega

/-- **A peer that goes on sending** makes the accessors wrong. -/
theorem readings_wrong {chunk : {bs : List UInt8 // 0 < bs.length ∧ bs.length ≤ 1024}} {n : ℕ}
    (hn : INT_MAX < n * chunk.1.length) :
    ∃ b, ReachedBy accessorStep RawBuffer.init (List.replicate n (.append chunk)) b ∧ ¬ b.Truthful := by
  by_contra hnone
  have hall : ∀ b, ReachedBy accessorStep RawBuffer.init (List.replicate n (.append chunk)) b →
      b.Truthful ∧ b.KeepsOrder := fun b hb => by
    have hb : b.Truthful := by
      by_contra hn
      exact hnone ⟨b, hb, hn⟩
    exact ⟨hb, hb.keepsOrder⟩
  have hlong := readings_length init_truthful chunk n ((accessors_right_iff _).mp hall)
  omega

/-- What one `read` of a long request can deliver. -/
def fullRead : {bs : List UInt8 // 0 < bs.length ∧ bs.length ≤ 1024} :=
  ⟨List.replicate 1024 97, by rw [List.length_replicate]; exact ⟨Nat.zero_lt_succ _, Nat.le_refl _⟩⟩

/-- `2 ^ 21` full readings without a line end between them are 2 GiB. -/
theorem accessors_wrong : ∃ b,
    ReachedBy accessorStep RawBuffer.init (List.replicate (2 ^ 21) (.append fullRead)) b ∧
      ¬ b.Truthful := by
  have hlen : fullRead.1.length = 1024 := List.length_replicate
  refine readings_wrong ?_
  rw [hlen, INT_MAX]
  norm_num

end WServer
