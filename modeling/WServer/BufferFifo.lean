import WServer.Buffer
import WServer.Library.Runs

/-!
# The buffer is a byte queue

What the buffer is for: a queue of bytes, filled at the end and emptied from the front.  Each operation
gets one specification lemma that speaks of the content only, stated for conversions that are exact up
to the sizes involved:

* `append_spec`, `readLoop_spec` — the content is extended by exactly the given, or received, bytes;
* `getAnHTTPLine_spec` — the line is the shortest prefix ending in CR LF, or nothing is consumed;
* `writeLoop_spec` — what the kernel accepted is a prefix of the content, and the rest stays.

`Buffer` then carries the order of the cursors as a field, so the layers above never see a buffer whose
cursors have crossed; and `buffer_refines_fifo` runs the machine's own conversions over any sequence of
operations that stays below `INT_MAX`.
-/

namespace WServer

open Library.Segments Library.Runs

/-! ### What a script amounts to -/

/-- How a reading of the socket ends. -/
inductive ReadStop where
  | eagain
  | eof
  | error
  deriving DecidableEq

namespace ReadScript

/-- The bytes `read` delivers before it ends. -/
def received : ReadScript → List UInt8
  | .data bytes :: rs => bytes.1 ++ received rs
  | .eintr :: rs => received rs
  | _ => []

/-- What the reading ends with. -/
def stop : ReadScript → ReadStop
  | .data _ :: rs => stop rs
  | .eintr :: rs => stop rs
  | .eof :: _ => .eof
  | .error :: _ => .error
  | _ => .eagain

/-- The value of `readFromFd`: the count of the bytes read, overwritten by `0` at the end of the stream
and by `-1` at an error. -/
def returned (rs : ReadScript) : ℤ :=
  match rs.stop with
  | .eagain => rs.received.length
  | .eof => 0
  | .error => -1

end ReadScript

namespace WriteScript

/-- The number of bytes the kernel accepts when `n` are waiting. -/
def taken : WriteScript → ℕ → ℕ
  | .count k :: ws, n => if 0 < min k n then min k n + taken ws (n - min k n) else 0
  | .eintr :: ws, n => taken ws n
  | _, _ => 0

/-- The writing ends in an error other than `EINTR` and `EAGAIN`. -/
def fails : WriteScript → ℕ → Bool
  | .count k :: ws, n => if 0 < min k n then fails ws (n - min k n) else false
  | .eintr :: ws, n => fails ws n
  | .error :: _, _ => true
  | _, _ => false

/-- The value of `writeToFd` when `n` bytes are waiting. -/
def returned (ws : WriteScript) (n : ℕ) : ℤ := if ws.fails n then -1 else ws.taken n

theorem taken_le (ws : WriteScript) (n : ℕ) : ws.taken n ≤ n := by
  induction ws generalizing n with
  | nil => exact Nat.zero_le _
  | cons w ws ih =>
      cases w with
      | count k =>
          rw [taken]
          split
          · have := ih (n - min k n)
            omega
          · exact Nat.zero_le _
      | eintr => exact ih n
      | eagain => exact Nat.zero_le _
      | error => exact Nat.zero_le _

end WriteScript

/-- The kernel takes all of `n` waiting bytes. -/
def WriteScript.TakesAll (ws : WriteScript) (n : ℕ) : Prop := ws.fails n = false ∧ ws.taken n = n

instance (ws : WriteScript) (n : ℕ) : Decidable (ws.TakesAll n) :=
  inferInstanceAs (Decidable (_ ∧ _))

theorem WriteScript.takesAll_count {k n : ℕ} (h : n ≤ k) : WriteScript.TakesAll [.count k] n := by
  rw [TakesAll, fails, taken, Nat.min_eq_right h]
  by_cases h0 : 0 < n
  · rw [if_pos h0, if_pos h0]
    exact ⟨rfl, rfl⟩
  · rw [if_neg h0, if_neg h0]
    exact ⟨rfl, by omega⟩

/-- The kernel takes a byte, if there is one. -/
def WriteScript.Accepts (ws : WriteScript) : Prop := 0 < ws.taken 1

/-- Whether the kernel takes a byte does not depend on how many are waiting. -/
theorem WriteScript.accepts_iff (ws : WriteScript) {n : ℕ} (hn : 0 < n) :
    ws.Accepts ↔ 0 < ws.taken n := by
  rw [Accepts]
  induction ws with
  | nil => exact Iff.rfl
  | cons w ws ih =>
      cases w with
      | count k =>
          rw [taken, taken]
          by_cases hk : 0 < k
          · rw [if_pos (by omega), if_pos (by omega)]
            exact iff_of_true (by omega) (by omega)
          · rw [if_neg (by omega), if_neg (by omega)]
      | eintr => exact ih
      | eagain => exact Iff.rfl
      | error => exact Iff.rfl

/-- Without an error among the answers, writing does not fail. -/
theorem WriteScript.not_fails {ws : WriteScript} (h : .error ∉ ws) (n : ℕ) : ws.fails n = false := by
  induction ws generalizing n with
  | nil => rfl
  | cons w ws ih =>
      rw [List.mem_cons, not_or] at h
      cases w with
      | count k =>
          rw [fails]
          split
          · exact ih h.2 _
          · rfl
      | eintr => exact ih h.2 n
      | eagain => rfl
      | error => exact absurd rfl h.1

/-- The first line of a content and what follows it; without a line end, the source hands out all bytes
but the last and consumes nothing. -/
def firstLine (c : List UInt8) : List UInt8 × List UInt8 :=
  match splitAtPair CR LF c with
  | some (line, rest) => (line, rest)
  | none => (c.dropLast, c)

/-! ### Specification of the operations -/

namespace RawBuffer

/-- The cursors are in order and inside the vector. -/
structure Ordered (b : RawBuffer) : Prop where
  read_le_write : b.readIndex ≤ b.writeIndex
  write_le_size : b.writeIndex ≤ b.buffer.length

theorem init_ordered : init.Ordered := ⟨Nat.le_refl _, Nat.zero_le _⟩

theorem init_content : init.content = [] := slice_self _ _

variable {conv : IntConv} {b : RawBuffer}

theorem content_length (h : b.Ordered) : b.content.length = b.writeIndex - b.readIndex :=
  slice_length h.write_le_size

theorem writableBytes_eq (h : b.Ordered) (hx : conv.ExactUpTo b.buffer.length) :
    b.writableBytes conv = (b.buffer.length - b.writeIndex : ℕ) := by
  have hw := h.write_le_size
  rw [writableBytes, show ((b.buffer.length : ℤ) - b.writeIndex)
      = ((b.buffer.length - b.writeIndex : ℕ) : ℤ) from by omega]
  exact (hx _ (Nat.sub_le _ _)).1

theorem preWritableBytes_eq (h : b.Ordered) (hx : conv.ExactUpTo b.buffer.length) :
    b.preWritableBytes conv = b.readIndex :=
  (hx _ (h.read_le_write.trans h.write_le_size)).1

theorem readableBytes_eq (h : b.Ordered) (hx : conv.ExactUpTo b.buffer.length) :
    b.readableBytes conv = b.content.length := by
  have hr := h.read_le_write
  have hw := h.write_le_size
  rw [content_length h, readableBytes, show ((b.writeIndex : ℤ) - b.readIndex)
      = ((b.writeIndex - b.readIndex : ℕ) : ℤ) from by omega]
  exact (hx _ (by omega)).1

/-- The accessors return the true differences of the cursors and of the size. -/
structure Accurate (conv : IntConv) (b : RawBuffer) : Prop where
  readable : b.readableBytes conv = b.writeIndex - b.readIndex
  writable : b.writableBytes conv = b.buffer.length - b.writeIndex
  preWritable : b.preWritableBytes conv = b.readIndex

theorem accurate_of_exactUpTo (h : b.Ordered) (hx : conv.ExactUpTo b.buffer.length) : b.Accurate conv := by
  have hr := h.read_le_write
  have hw := h.write_le_size
  refine ⟨?_, ?_, preWritableBytes_eq h hx⟩
  · rw [readableBytes_eq h hx, content_length h]
    omega
  · rw [writableBytes_eq h hx]
    omega

/-! ### Making room -/

/-- The buffer with its content moved to the head of the vector. -/
def compacted (b : RawBuffer) : RawBuffer :=
  { buffer := overwrite b.buffer 0 (slice b.buffer b.readIndex b.writeIndex)
    readIndex := 0
    writeIndex := b.writeIndex - b.readIndex }

/-- The buffer with its vector grown to take `len` bytes behind the content. -/
def grown (len : ℕ) (b : RawBuffer) : RawBuffer := { b with buffer := resize b.buffer (b.writeIndex + len) }

theorem compacted_size (h : b.Ordered) : b.compacted.buffer.length = b.buffer.length := by
  have hw := h.write_le_size
  refine overwrite_length ?_
  rw [slice_length hw]
  omega

theorem compacted_content (h : b.Ordered) : b.compacted.content = b.content :=
  slice_overwrite_front h.write_le_size

theorem grown_buffer {len : ℕ} (hfull : b.buffer.length < b.writeIndex + len) :
    (b.grown len).buffer
      = b.buffer ++ List.replicate (b.writeIndex + len - b.buffer.length) 0 :=
  resize_of_le (Nat.le_of_lt hfull)

theorem grown_size {len : ℕ} (hfull : b.buffer.length < b.writeIndex + len) :
    (b.grown len).buffer.length = b.writeIndex + len := by
  rw [grown_buffer hfull, List.length_append, List.length_replicate]
  omega

theorem grown_content (h : b.Ordered) {len : ℕ} (hfull : b.buffer.length < b.writeIndex + len) :
    (b.grown len).content = b.content := by
  rw [content, grown_buffer hfull]
  exact slice_append_right _ h.write_le_size

/-- **What making room can do**, as long as the accessors are right: nothing, where `len` bytes fit behind
the content; else a move of the content to the head, where they fit behind it then; else growth. -/
theorem ensureEnoughSpace_cases (h : b.Ordered) (ha : b.Accurate conv) {len : ℕ}
    (hsize : ∀ k : ℕ, k ≤ b.writeIndex + len → conv.toSize k = k) :
    (b.writeIndex + len ≤ b.buffer.length ∧ b.ensureEnoughSpace conv len = b) ∨
      (b.buffer.length < b.writeIndex + len ∧ b.writeIndex - b.readIndex + len ≤ b.buffer.length ∧
        b.ensureEnoughSpace conv len = b.compacted) ∨
      (b.buffer.length < b.writeIndex + len ∧ b.ensureEnoughSpace conv len = b.grown len) := by
  have hr := h.read_le_write
  have hw := h.write_le_size
  rw [ensureEnoughSpace, ha.writable]
  split
  · rename_i hfull
    rw [makeSpace, ha.writable, ha.preWritable]
    split
    · rename_i hroom
      have hmoved : conv.toSize (b.readableBytes conv) = b.writeIndex - b.readIndex := by
        rw [ha.readable, ← Int.natCast_sub hr]
        exact hsize _ (by omega)
      rw [hmoved]
      exact Or.inr (Or.inl ⟨by omega, by omega, rfl⟩)
    · have hgrown : conv.toSize (b.writeIndex + len) = b.writeIndex + len := by
        simpa using hsize (b.writeIndex + len) (Nat.le_refl _)
      rw [hgrown]
      exact Or.inr (Or.inr ⟨by omega, rfl⟩)
  · exact Or.inl ⟨by omega, rfl⟩

/-- **Making room** keeps the content, and afterwards `len` bytes fit behind it. -/
theorem ensureEnoughSpace_spec (h : b.Ordered) (ha : b.Accurate conv) {len : ℕ}
    (hsize : ∀ k : ℕ, k ≤ b.writeIndex + len → conv.toSize k = k) :
    (b.ensureEnoughSpace conv len).Ordered ∧
      (b.ensureEnoughSpace conv len).content = b.content ∧
      (b.ensureEnoughSpace conv len).writeIndex + len
        ≤ (b.ensureEnoughSpace conv len).buffer.length ∧
      (b.ensureEnoughSpace conv len).buffer.length ≤ b.buffer.length + len := by
  have hr := h.read_le_write
  have hw := h.write_le_size
  rcases ensureEnoughSpace_cases h ha hsize with ⟨hfit, heq⟩ | ⟨-, hroom, heq⟩ | ⟨hfull, heq⟩
  · rw [heq]
    exact ⟨h, rfl, hfit, Nat.le_add_right _ _⟩
  · rw [heq, compacted_size h]
    refine ⟨⟨Nat.zero_le _, ?_⟩, compacted_content h, hroom, Nat.le_add_right _ _⟩
    rw [compacted_size h]
    show b.writeIndex - b.readIndex ≤ _
    omega
  · rw [heq, grown_size hfull]
    refine ⟨⟨hr, ?_⟩, grown_content h hfull, Nat.le_refl _, by omega⟩
    rw [grown_size hfull]
    exact Nat.le_add_right _ _

/-- **Append** extends the content at its end by exactly the message, as long as the accessors and the
conversions of the sizes involved are right. -/
theorem append_accurate (h : b.Ordered) (ha : b.Accurate conv) {msg : List UInt8}
    (hlen : conv.toInt msg.length = msg.length)
    (hsize : ∀ k : ℕ, k ≤ b.writeIndex + msg.length → conv.toSize k = k) :
    (b.append conv msg).Ordered ∧ (b.append conv msg).content = b.content ++ msg ∧
      (b.append conv msg).buffer.length = (b.ensureEnoughSpace conv msg.length).buffer.length ∧
      (b.append conv msg).readIndex = (b.ensureEnoughSpace conv msg.length).readIndex ∧
      (b.append conv msg).writeIndex = (b.ensureEnoughSpace conv msg.length).writeIndex + msg.length := by
  obtain ⟨ho, hc, hfit, -⟩ := ensureEnoughSpace_spec h ha hsize
  have hmsg : conv.toSize msg.length = msg.length := hsize _ (Nat.le_add_left _ _)
  simp only [append, hlen, hmsg, Int.toNat_natCast, List.take_length]
  have holen := overwrite_length hfit
  refine ⟨⟨ho.read_le_write.trans (Nat.le_add_right _ _), ?_⟩, ?_, holen, trivial, trivial⟩
  · show _ ≤ (overwrite _ _ _).length
    rw [holen]
    exact hfit
  · rw [← hc]
    exact slice_overwrite_extend ho.read_le_write ho.write_le_size

/-- **Append** extends the content at its end by exactly the message. -/
theorem append_spec (h : b.Ordered) {msg : List UInt8}
    (hx : conv.ExactUpTo (b.buffer.length + msg.length)) :
    (b.append conv msg).Ordered ∧ (b.append conv msg).content = b.content ++ msg ∧
      (b.append conv msg).buffer.length ≤ b.buffer.length + msg.length := by
  have ha : b.Accurate conv := accurate_of_exactUpTo h (hx.mono (Nat.le_add_right _ _))
  have hsize : ∀ k : ℕ, k ≤ b.writeIndex + msg.length → conv.toSize k = k := fun k hk =>
    (hx k (hk.trans (Nat.add_le_add_right h.write_le_size _))).2
  obtain ⟨ho, hc, hlen, -⟩ := append_accurate h ha (hx msg.length (Nat.le_add_left _ _)).1 hsize
  refine ⟨ho, hc, ?_⟩
  rw [hlen]
  exact (ensureEnoughSpace_spec h ha hsize).2.2.2

/-- The scan from index `i` cuts the readable bytes from `i` on at their first CR LF. -/
theorem getAnHTTPLineFrom_spec (h : b.Ordered) (hx : conv.ExactUpTo b.readIndex) :
    ∀ n i, i + n = b.writeIndex → b.readIndex ≤ i →
      b.getAnHTTPLineFrom conv n i
        = match splitAtPair CR LF (slice b.buffer i b.writeIndex) with
          | some (p, _) => (slice b.buffer b.readIndex (i + p.length),
              { b with readIndex := i + p.length })
          | none => (if n = 0 then [] else slice b.buffer b.readIndex (b.writeIndex - 1), b) := by
  have hw := h.write_le_size
  intro n
  induction n with
  | zero =>
      intro i hi _
      rw [show b.writeIndex = i from by omega, slice_self]
      rfl
  | succ n ih =>
      intro i hi hri
      have hcons := slice_eq_cons (show i < b.writeIndex by omega) hw (0 : UInt8)
      rw [getAnHTTPLineFrom]
      split
      · -- CR LF at `i`
        rename_i hhit
        obtain ⟨hcr, hlt, hlf⟩ := hhit
        have hstart : (conv.toInt b.readIndex).toNat = b.readIndex := by
          rw [(hx b.readIndex (Nat.le_refl _)).1]
          exact Int.toNat_natCast _
        rw [hcons, slice_eq_cons hlt hw (0 : UInt8), hcr, hlf, splitAtPair_hit]
        simp only [hstart]
        rfl
      · rename_i hmiss
        split
        · -- the last readable byte
          rename_i hlast
          have hn : n = 0 := by omega
          rw [hcons, show i + 1 = b.writeIndex from by omega, slice_self, hlast]
          rfl
        · have hne : ∀ t, slice b.buffer i b.writeIndex ≠ CR :: LF :: t := by
            intro t ht
            rw [hcons, slice_eq_cons (show i + 1 < b.writeIndex by omega) hw (0 : UInt8)] at ht
            injection ht with h₁ ht
            injection ht with h₂ _
            exact hmiss ⟨h₁, by omega, h₂⟩
          rw [hcons] at hne
          rw [ih (i + 1) (by omega) (by omega), hcons, splitAtPair_cons hne]
          cases splitAtPair CR LF (slice b.buffer (i + 1) b.writeIndex) with
          | none =>
              have hn : n ≠ 0 := by omega
              simp [hn]
          | some p =>
              simp only [Option.map_some, List.length_cons]
              rw [show i + 1 + p.1.length = i + (p.1.length + 1) from by omega]

/-- **The line extractor** removes the shortest prefix ending in CR LF, or nothing. -/
theorem getAnHTTPLine_spec (h : b.Ordered) (hx : conv.ExactUpTo b.readIndex) :
    (b.getAnHTTPLine conv).2.Ordered ∧
      (b.getAnHTTPLine conv).1 = (firstLine b.content).1 ∧
      (b.getAnHTTPLine conv).2.content = (firstLine b.content).2 := by
  have hr := h.read_le_write
  have hw := h.write_le_size
  have hscan := getAnHTTPLineFrom_spec h hx (b.writeIndex - b.readIndex) b.readIndex
    (by omega) (Nat.le_refl _)
  rw [getAnHTTPLine, hscan, firstLine]
  show _ ∧ _
  rw [← show b.content = slice b.buffer b.readIndex b.writeIndex from rfl]
  cases hcut : splitAtPair CR LF b.content with
  | none =>
      refine ⟨h, ?_, rfl⟩
      simp only
      split
      · rename_i hn
        rw [List.eq_nil_of_length_eq_zero ((content_length h).trans hn)]
        rfl
      · rw [List.dropLast_eq_take, content_length h, content, slice_take _ (by omega)]
        congr 1
        omega
  | some p =>
      obtain ⟨p, r⟩ := p
      obtain ⟨happ, _⟩ := splitAtPair_some hcut
      have hplen : p.length ≤ b.content.length := by rw [← happ, List.length_append]; omega
      rw [content_length h] at hplen
      refine ⟨⟨?_, hw⟩, ?_, ?_⟩
      · show b.readIndex + p.length ≤ b.writeIndex
        omega
      · show slice b.buffer b.readIndex (b.readIndex + p.length) = p
        rw [← slice_take b.buffer (show b.readIndex + p.length ≤ b.writeIndex by omega)]
        show b.content.take p.length = p
        rw [← happ, List.take_left]
      · show slice b.buffer (b.readIndex + p.length) b.writeIndex = r
        rw [← slice_drop]
        show b.content.drop p.length = r
        rw [← happ, List.drop_left]

/-- Every append of a reading finds the vector small enough: its size plus the bytes of that one `read`
is at most `n`. -/
def ReadFits (conv : IntConv) (n : ℕ) : ReadScript → RawBuffer → Prop
  | .data bytes :: rs, b =>
      b.buffer.length + bytes.1.length ≤ n ∧ ReadFits conv n rs (b.append conv bytes.1)
  | .eintr :: rs, b => ReadFits conv n rs b
  | _, _ => True

/-- **Reading** extends the content by exactly the received bytes, whatever ends it. -/
theorem readLoop_spec {n : ℕ} (hx : conv.ExactUpTo n) (rs : ReadScript) :
    ∀ (all : ℤ) (b : RawBuffer), b.Ordered → ReadFits conv n rs b →
      (b.readLoop conv rs all).2.Ordered ∧
      (b.readLoop conv rs all).2.content = b.content ++ rs.received ∧
      (b.readLoop conv rs all).1 = match rs.stop with
        | .eagain => all + rs.received.length
        | .eof => 0
        | .error => -1 := by
  induction rs with
  | nil =>
      intro all b h _
      exact ⟨h, (List.append_nil _).symm, (add_zero all).symm⟩
  | cons r rs ih =>
      intro all b h hfit
      cases r with
      | data bytes =>
          obtain ⟨ho, hc, _⟩ := append_spec h (hx.mono hfit.1)
          obtain ⟨ho', hc', hret⟩ := ih (all + bytes.1.length) _ ho hfit.2
          refine ⟨ho', ?_, ?_⟩
          · rw [readLoop, hc', hc, List.append_assoc]
            rfl
          · rw [readLoop, hret, ReadScript.stop, ReadScript.received]
            cases ReadScript.stop rs with
            | eagain => simp [add_assoc]
            | eof => rfl
            | error => rfl
      | eintr => exact ih all b h hfit
      | eof => exact ⟨h, (List.append_nil _).symm, rfl⟩
      | eagain => exact ⟨h, (List.append_nil _).symm, (add_zero all).symm⟩
      | error => exact ⟨h, (List.append_nil _).symm, rfl⟩

/-- A buffer of which the kernel has taken `m` bytes: the cursors are reset when it is empty. -/
theorem taken_spec (h : b.Ordered) {m : ℕ} (hm : b.readIndex + m ≤ b.writeIndex) :
    let b' := if b.readIndex + m = b.writeIndex then { b with readIndex := 0, writeIndex := 0 }
      else { b with readIndex := b.readIndex + m }
    b'.Ordered ∧ b'.buffer = b.buffer ∧ b'.content = b.content.drop m := by
  have hdrop : b.content.drop m = slice b.buffer (b.readIndex + m) b.writeIndex := slice_drop b.buffer _ _ m
  intro b'
  by_cases hempty : b.readIndex + m = b.writeIndex
  · rw [show b' = { b with readIndex := 0, writeIndex := 0 } from if_pos hempty]
    refine ⟨⟨Nat.le_refl _, Nat.zero_le _⟩, rfl, ?_⟩
    rw [hdrop, hempty, slice_self]
    exact slice_self _ _
  · rw [show b' = { b with readIndex := b.readIndex + m } from if_neg hempty]
    exact ⟨⟨hm, h.write_le_size⟩, rfl, hdrop.symm⟩

/-- **Writing** removes exactly the prefix of the content that the kernel accepted. -/
theorem writeLoop_spec (ws : WriteScript) :
    ∀ (all : ℤ) (sent : List UInt8) (b : RawBuffer), b.Ordered → conv.ExactUpTo b.buffer.length →
      (b.writeLoop conv ws all sent).2.2.Ordered ∧
      (b.writeLoop conv ws all sent).2.1
        = sent ++ b.content.take (ws.taken b.content.length) ∧
      (b.writeLoop conv ws all sent).2.2.content = b.content.drop (ws.taken b.content.length) ∧
      (b.writeLoop conv ws all sent).1
        = if ws.fails b.content.length then -1 else all + ws.taken b.content.length := by
  induction ws with
  | nil => intro all sent b h _; simp [writeLoop, WriteScript.taken, WriteScript.fails, h]
  | cons w ws ih =>
      intro all sent b h hx
      cases w with
      | eintr => exact ih all sent b h hx
      | eagain => simp [writeLoop, WriteScript.taken, WriteScript.fails, h]
      | error => simp [writeLoop, WriteScript.taken, WriteScript.fails, h]
      | count k =>
          have hclen : b.content.length ≤ b.buffer.length := by
            rw [content_length h]
            exact (Nat.sub_le _ _).trans h.write_le_size
          have hsize : conv.toSize (b.readableBytes conv) = b.content.length := by
            rw [readableBytes_eq h hx]
            exact (hx _ hclen).2
          rw [writeLoop, hsize, WriteScript.taken, WriteScript.fails]
          split
          · rename_i hpos
            set m := min k b.content.length with hm
            have hmle : b.readIndex + m ≤ b.writeIndex := by
              have := content_length h
              have := h.read_le_write
              omega
            have hmtake : slice b.buffer b.readIndex (b.readIndex + m) = b.content.take m :=
              (slice_take b.buffer hmle).symm
            obtain ⟨ho, hbuf, hc⟩ := taken_spec h hmle
            obtain ⟨ho', hs', hc', hret⟩ := ih (all + m) (sent ++ slice b.buffer b.readIndex
              (b.readIndex + m)) _ ho (by rw [hbuf]; exact hx)
            rw [hc, List.length_drop] at hs' hc' hret
            refine ⟨ho', ?_, ?_, ?_⟩
            · rw [hs', hmtake, List.append_assoc, ← List.take_add]
            · rw [hc', List.drop_drop]
            · rw [hret]
              split
              · rfl
              · push_cast
                omega
          · simp [h]

/-- Extracting a line leaves the vector alone. -/
theorem getAnHTTPLine_buffer (h : b.Ordered) (hx : conv.ExactUpTo b.readIndex) :
    (b.getAnHTTPLine conv).2.buffer = b.buffer := by
  rw [getAnHTTPLine, getAnHTTPLineFrom_spec h hx _ _
    (by have := h.read_le_write; omega) (Nat.le_refl _)]
  cases splitAtPair CR LF (slice b.buffer b.readIndex b.writeIndex) <;> rfl

/-- Writing to the socket leaves the vector alone. -/
theorem writeLoop_buffer (ws : WriteScript) :
    ∀ (all : ℤ) (sent : List UInt8) (b : RawBuffer),
      (b.writeLoop conv ws all sent).2.2.buffer = b.buffer := by
  induction ws with
  | nil => exact fun _ _ _ => rfl
  | cons w ws ih =>
      intro all sent b
      cases w with
      | eintr => exact ih all sent b
      | eagain => rfl
      | error => rfl
      | count k =>
          rw [writeLoop]
          split
          · rw [ih]
            split <;> rfl
          · rfl

end RawBuffer

/-! ### The buffer with its invariant -/

/-- A buffer whose cursors are in order, under exact conversions. -/
structure Buffer extends RawBuffer where
  ordered : toRawBuffer.Ordered

namespace Buffer

def init : Buffer := ⟨RawBuffer.init, RawBuffer.init_ordered⟩

def append (msg : List UInt8) (b : Buffer) : Buffer :=
  ⟨b.toRawBuffer.append .exact msg,
    (RawBuffer.append_spec b.ordered (IntConv.exact_exactUpTo _)).1⟩

def getAnHTTPLine (b : Buffer) : List UInt8 × Buffer :=
  ((b.toRawBuffer.getAnHTTPLine .exact).1, ⟨(b.toRawBuffer.getAnHTTPLine .exact).2,
    (RawBuffer.getAnHTTPLine_spec b.ordered (IntConv.exact_exactUpTo _)).1⟩)

/-- Under exact conversions every reading fits. -/
theorem exists_readFits (rs : ReadScript) :
    ∀ b : RawBuffer, ∃ n, b.ReadFits .exact n rs := by
  -- the bound may grow along the reading, so it is pushed through the recursion
  have hmono : ∀ (rs : ReadScript) (b : RawBuffer) (m n : ℕ), m ≤ n →
      b.ReadFits .exact m rs → b.ReadFits .exact n rs := by
    intro rs
    induction rs with
    | nil => intro _ _ _ _ _; trivial
    | cons r rs ih =>
        intro b m n hmn h
        cases r with
        | data bytes => exact ⟨h.1.trans hmn, ih _ m n hmn h.2⟩
        | eintr => exact ih b m n hmn h
        | eof => trivial
        | eagain => trivial
        | error => trivial
  induction rs with
  | nil => exact fun _ => ⟨0, trivial⟩
  | cons r rs ih =>
      intro b
      cases r with
      | data bytes =>
          obtain ⟨n, hn⟩ := ih (b.append .exact bytes.1)
          exact ⟨max n (b.buffer.length + bytes.1.length), Nat.le_max_right _ _,
            hmono rs _ n _ (Nat.le_max_left _ _) hn⟩
      | eintr => exact ih b
      | eof => exact ⟨0, trivial⟩
      | eagain => exact ⟨0, trivial⟩
      | error => exact ⟨0, trivial⟩

theorem readFromFd_spec (rs : ReadScript) (b : Buffer) :
    (b.toRawBuffer.readFromFd .exact rs).2.Ordered ∧
      (b.toRawBuffer.readFromFd .exact rs).2.content = b.content ++ rs.received ∧
      (b.toRawBuffer.readFromFd .exact rs).1 = rs.returned := by
  obtain ⟨n, hn⟩ := exists_readFits rs b.toRawBuffer
  obtain ⟨ho, hc, hret⟩ := RawBuffer.readLoop_spec (IntConv.exact_exactUpTo n) rs 0 _ b.ordered hn
  refine ⟨ho, hc, ?_⟩
  rw [RawBuffer.readFromFd, hret, ReadScript.returned]
  simp only [zero_add]

def readFromFd (rs : ReadScript) (b : Buffer) : ℤ × Buffer :=
  ((b.toRawBuffer.readFromFd .exact rs).1, ⟨(b.toRawBuffer.readFromFd .exact rs).2,
    (readFromFd_spec rs b).1⟩)

def writeToFd (ws : WriteScript) (b : Buffer) : ℤ × List UInt8 × Buffer :=
  ((b.toRawBuffer.writeToFd .exact ws).1, (b.toRawBuffer.writeToFd .exact ws).2.1,
    ⟨(b.toRawBuffer.writeToFd .exact ws).2.2,
      (RawBuffer.writeLoop_spec ws 0 [] _ b.ordered (IntConv.exact_exactUpTo _)).1⟩)

def retrieveAll (b : Buffer) : Buffer :=
  ⟨b.toRawBuffer.retrieveAll, Nat.le_refl _, Nat.zero_le _⟩

def readableBytes (b : Buffer) : ℤ := b.toRawBuffer.readableBytes .exact

/-! ### The operations seen through the content -/

@[simp] theorem content_init : init.content = [] := RawBuffer.init_content

@[simp] theorem content_append (msg : List UInt8) (b : Buffer) :
    (b.append msg).content = b.content ++ msg :=
  (RawBuffer.append_spec b.ordered (IntConv.exact_exactUpTo _)).2.1

@[simp] theorem getAnHTTPLine_line (b : Buffer) :
    b.getAnHTTPLine.1 = (firstLine b.content).1 :=
  (RawBuffer.getAnHTTPLine_spec b.ordered (IntConv.exact_exactUpTo _)).2.1

@[simp] theorem content_getAnHTTPLine (b : Buffer) :
    b.getAnHTTPLine.2.content = (firstLine b.content).2 :=
  (RawBuffer.getAnHTTPLine_spec b.ordered (IntConv.exact_exactUpTo _)).2.2

@[simp] theorem readFromFd_returned (rs : ReadScript) (b : Buffer) :
    (b.readFromFd rs).1 = rs.returned := (readFromFd_spec rs b).2.2

@[simp] theorem content_readFromFd (rs : ReadScript) (b : Buffer) :
    (b.readFromFd rs).2.content = b.content ++ rs.received := (readFromFd_spec rs b).2.1

@[simp] theorem writeToFd_returned (ws : WriteScript) (b : Buffer) :
    (b.writeToFd ws).1 = ws.returned b.content.length := by
  obtain ⟨-, -, -, hret⟩ :=
    RawBuffer.writeLoop_spec ws 0 [] _ b.ordered (IntConv.exact_exactUpTo _)
  show (b.toRawBuffer.writeLoop .exact ws 0 []).1 = _
  rw [hret, WriteScript.returned, zero_add]

@[simp] theorem writeToFd_sent (ws : WriteScript) (b : Buffer) :
    (b.writeToFd ws).2.1 = b.content.take (ws.taken b.content.length) :=
  (RawBuffer.writeLoop_spec ws 0 [] _ b.ordered (IntConv.exact_exactUpTo _)).2.1

@[simp] theorem content_writeToFd (ws : WriteScript) (b : Buffer) :
    (b.writeToFd ws).2.2.content = b.content.drop (ws.taken b.content.length) :=
  (RawBuffer.writeLoop_spec ws 0 [] _ b.ordered (IntConv.exact_exactUpTo _)).2.2.1

@[simp] theorem content_retrieveAll (b : Buffer) : b.retrieveAll.content = [] := slice_self _ _

@[simp] theorem readableBytes_eq_length (b : Buffer) : b.readableBytes = b.content.length :=
  RawBuffer.readableBytes_eq b.ordered (IntConv.exact_exactUpTo _)

end Buffer

/-! ### Runs of the machine's buffer -/

/-- One call of an operation of the buffer. -/
inductive BufferOp where
  | append (msg : List UInt8)
  | readFromFd (rs : ReadScript)
  | getAnHTTPLine
  | writeToFd (ws : WriteScript)
  | retrieveAll

/-- What a call hands to its caller: the line it extracted, or the bytes the kernel accepted. -/
abbrev BufferAnswer := List UInt8

/-- The machine's buffer after one call, with what the call hands out. -/
def bufferCall (b : RawBuffer) : BufferOp → BufferAnswer × RawBuffer
  | .append msg => ([], b.append .wrapped msg)
  | .readFromFd rs => ([], (b.readFromFd .wrapped rs).2)
  | .getAnHTTPLine => b.getAnHTTPLine .wrapped
  | .writeToFd ws => (b.writeToFd .wrapped ws).2
  | .retrieveAll => ([], b.retrieveAll)

/-- The buffer as a machine that never fails. -/
def bufferStep (b : RawBuffer) (op : BufferOp) : Except Empty RawBuffer := .ok (bufferCall b op).2

/-- The size of the vector plus the appended length stays at most `INT_MAX`. -/
def CallFits (b : RawBuffer) : BufferOp → Prop
  | .append msg => b.buffer.length + msg.length ≤ INT_MAX
  | .readFromFd rs => b.ReadFits .wrapped INT_MAX rs
  | _ => True

/-- The byte queue: what a call may do to the content `c`, handing out `answer` and leaving `c'`. -/
def FifoCall (c : List UInt8) : BufferOp → BufferAnswer → List UInt8 → Prop
  | .append msg, _, c' => c' = c ++ msg
  | .readFromFd rs, _, c' => c' = c ++ rs.received
  | .getAnHTTPLine, answer, c' =>
      (answer ++ c' = c ∧ [CR, LF] <:+ answer ∧
        ∀ q, q <+: c → [CR, LF] <:+ q → answer.length ≤ q.length) ∨
      ((∀ q, q <+: c → ¬ [CR, LF] <:+ q) ∧ c' = c)
  | .writeToFd ws, answer, c' => answer.length = ws.taken c.length ∧ answer ++ c' = c
  | .retrieveAll, _, c' => c' = []

/-- A vector that only appends of at most `INT_MAX` made is one the machine's `int` can measure. -/
def Measured (b : RawBuffer) : Prop := b.Ordered ∧ b.buffer.length ≤ INT_MAX

theorem append_measured {b : RawBuffer} (h : b.Ordered) {msg : List UInt8}
    (hfit : b.buffer.length + msg.length ≤ INT_MAX) : Measured (b.append .wrapped msg) := by
  obtain ⟨ho, -, hle⟩ := RawBuffer.append_spec h (IntConv.wrapped_exactUpTo.mono hfit)
  exact ⟨ho, hle.trans hfit⟩

theorem readLoop_measured (rs : ReadScript) :
    ∀ (all : ℤ) (b : RawBuffer), Measured b → b.ReadFits .wrapped INT_MAX rs →
      Measured (b.readLoop .wrapped rs all).2 := by
  induction rs with
  | nil => exact fun _ _ h _ => h
  | cons r rs ih =>
      intro all b h hfit
      cases r with
      | data bytes =>
          rw [RawBuffer.ReadFits] at hfit
          rw [RawBuffer.readLoop]
          exact ih _ _ (append_measured h.1 hfit.1) hfit.2
      | eintr =>
          rw [RawBuffer.readLoop]
          exact ih all b h hfit
      | eof => exact h
      | eagain => exact h
      | error => exact h

/-- **One call.**  A call that fits keeps the invariant and acts on the content as the byte queue. -/
theorem bufferCall_refines {b : RawBuffer} (h : Measured b) {op : BufferOp} (hfit : CallFits b op) :
    Measured (bufferCall b op).2 ∧
      FifoCall b.content op (bufferCall b op).1 (bufferCall b op).2.content := by
  obtain ⟨ho, hsize⟩ := h
  have hx : IntConv.wrapped.ExactUpTo b.buffer.length := IntConv.wrapped_exactUpTo.mono hsize
  cases op with
  | append msg =>
      exact ⟨append_measured ho hfit,
        (RawBuffer.append_spec ho (IntConv.wrapped_exactUpTo.mono hfit)).2.1⟩
  | readFromFd rs =>
      exact ⟨readLoop_measured rs 0 b ⟨ho, hsize⟩ hfit,
        (RawBuffer.readLoop_spec IntConv.wrapped_exactUpTo rs 0 b ho hfit).2.1⟩
  | getAnHTTPLine =>
      have hx := hx.mono (ho.read_le_write.trans ho.write_le_size)
      obtain ⟨ho', hline, hc'⟩ := RawBuffer.getAnHTTPLine_spec ho hx
      refine ⟨⟨ho', ?_⟩, ?_⟩
      · rw [bufferCall, RawBuffer.getAnHTTPLine_buffer ho hx]
        exact hsize
      · rw [bufferCall, hline, hc', firstLine]
        cases hcut : splitAtPair CR LF b.content with
        | none => exact Or.inr ⟨fun q hq => splitAtPair_none hcut hq, rfl⟩
        | some p =>
            obtain ⟨happ, hsuf⟩ := splitAtPair_some hcut
            exact Or.inl ⟨happ, hsuf, fun q hq hs => splitAtPair_shortest hcut hq hs⟩
  | writeToFd ws =>
      obtain ⟨ho', hsent, hc', -⟩ := RawBuffer.writeLoop_spec ws 0 [] b ho hx
      refine ⟨⟨ho', ?_⟩, ?_, ?_⟩
      · rw [bufferCall, RawBuffer.writeToFd, RawBuffer.writeLoop_buffer]
        exact hsize
      · show (b.writeLoop .wrapped ws 0 []).2.1.length = _
        rw [hsent, List.nil_append, List.length_take, Nat.min_eq_left (ws.taken_le _)]
      · show (b.writeLoop .wrapped ws 0 []).2.1 ++ (b.writeLoop .wrapped ws 0 []).2.2.content = _
        rw [hsent, hc', List.nil_append, List.take_append_drop]
  | retrieveAll =>
      exact ⟨⟨⟨Nat.le_refl _, Nat.zero_le _⟩, hsize⟩, slice_self _ _⟩

theorem init_measured : Measured RawBuffer.init := by
  refine ⟨RawBuffer.init_ordered, ?_⟩
  rw [RawBuffer.init, List.length_replicate, RawBuffer.INITTIAL_SIZE, INT_MAX]
  norm_num

/-- **The buffer refines a byte queue.**  In every sequence of calls that fit, from the buffer the
constructor makes, the cursors are in order before and after each call, and each call acts on the
content as the byte queue does. -/
theorem buffer_refines_fifo (ops : List BufferOp) (op : BufferOp) (b : RawBuffer)
    (hfit : Along bufferStep CallFits RawBuffer.init (ops ++ [op]))
    (hrun : runFrom bufferStep RawBuffer.init ops = .ok b) :
    b.Ordered ∧ (bufferCall b op).2.Ordered ∧
      FifoCall b.content op (bufferCall b op).1 (bufferCall b op).2.content := by
  obtain ⟨hops, hop⟩ := along_append hrun hfit
  have hb : Measured b := by
    refine run_invariant ?_ ops init_measured hops b ⟨ops, List.prefix_rfl, hrun⟩
    intro s e s' hs he hstep
    cases hstep
    exact (bufferCall_refines hs he).1
  obtain ⟨hb', hcall⟩ := bufferCall_refines hb hop.1
  exact ⟨hb.1, hb'.1, hcall⟩

/-- A line appended and then extracted. -/
theorem buffer_refines_fifo_line :
    let b := (bufferCall RawBuffer.init (.append [97, CR, LF])).2
    b.Ordered ∧ (bufferCall b .getAnHTTPLine).2.Ordered ∧
      FifoCall b.content .getAnHTTPLine (bufferCall b .getAnHTTPLine).1
        (bufferCall b .getAnHTTPLine).2.content := by
  refine buffer_refines_fifo [.append [97, CR, LF]] .getAnHTTPLine _ ⟨?_, ?_⟩ rfl
  · rw [CallFits, RawBuffer.init, List.length_replicate, RawBuffer.INITTIAL_SIZE, INT_MAX]
    norm_num
  · exact fun _ _ => ⟨trivial, fun _ _ => trivial⟩

end WServer
