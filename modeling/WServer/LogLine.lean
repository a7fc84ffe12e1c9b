import WServer.LogInsertions
import WServer.LogBytes

/-!
# The bytes of a log line

The arguments of a log line are copied twice, into the `LogStream` and from there into the buffer of
`AsyncLog`.  Both copies count all the bytes but read no further than the first NUL, so what arrives are
the bytes of the arguments only where no other byte follows a NUL.

* `OnlyNulsBehindNul` — the texts that such a copy keeps (`strncpy_eq_self_iff`);
* `strncpy_flatMap_iff` — two copies, the first one piece by piece;
* `log_line_bytes_iff` — a line of any insertions that fit, appended to a logger in any state of a run.
-/

namespace WServer

open Library.Runs

/-! ### What a copy keeps -/

/-- From the first NUL on there are only NULs. -/
def OnlyNulsBehindNul (msg : List UInt8) : Prop := ∀ b ∈ msg.dropWhile (· != 0), b = 0

instance (msg : List UInt8) : Decidable (OnlyNulsBehindNul msg) :=
  inferInstanceAs (Decidable (∀ b ∈ msg.dropWhile (· != 0), b = 0))

/-- **A copy** by `strncpy` keeps exactly the texts without a byte behind a NUL. -/
theorem strncpy_eq_self_iff (msg : List UInt8) : strncpy msg = msg ↔ OnlyNulsBehindNul msg := by
  have hsplit : msg.takeWhile (· != 0) ++ msg.dropWhile (· != 0) = msg := List.takeWhile_append_dropWhile
  have hlen : msg.length - (msg.takeWhile (· != 0)).length = (msg.dropWhile (· != 0)).length := by
    have hsum := congrArg List.length hsplit
    rw [List.length_append] at hsum
    omega
  rw [strncpy, hlen, OnlyNulsBehindNul]
  constructor
  · intro heq b hb
    have hdrop := List.append_cancel_left (heq.trans hsplit.symm)
    rw [← hdrop] at hb
    exact List.eq_of_mem_replicate hb
  · intro hnul
    have hdrop := List.eq_replicate_of_mem hnul
    rw [← hdrop]
    exact hsplit

/-- What a copy leaves has only NULs behind a NUL. -/
theorem onlyNulsBehindNul_strncpy (msg : List UInt8) : OnlyNulsBehindNul (strncpy msg) := by
  intro b hb
  have hall : ∀ c ∈ msg.takeWhile (· != 0), (c != 0) = true := by
    intro c hc
    exact List.mem_takeWhile_imp (p := (· != 0)) hc
  rw [strncpy, List.dropWhile_append_of_pos hall] at hb
  exact List.eq_of_mem_replicate ((List.dropWhile_suffix _).subset hb)

/-- The two parts of such a text are such texts. -/
theorem OnlyNulsBehindNul.of_append {a b : List UInt8} (h : OnlyNulsBehindNul (a ++ b)) :
    OnlyNulsBehindNul a ∧ OnlyNulsBehindNul b := by
  rw [OnlyNulsBehindNul, List.dropWhile_append] at h
  split at h
  · rename_i hnone
    refine ⟨fun c hc => ?_, h⟩
    rw [List.isEmpty_iff.mp hnone] at hc
    cases hc
  · exact ⟨fun c hc => h c (List.mem_append_left b hc),
      fun c hc => h c (List.mem_append_right _ ((List.dropWhile_suffix _).subset hc))⟩

/-- Pieces of such a text are kept one by one. -/
theorem strncpy_flatMap {pieces : List (List UInt8)} (h : OnlyNulsBehindNul pieces.flatten) :
    pieces.flatMap strncpy = pieces.flatten := by
  induction pieces with
  | nil => rfl
  | cons piece pieces ih =>
      rw [List.flatten_cons] at h ⊢
      obtain ⟨hpiece, hpieces⟩ := h.of_append
      rw [List.flatMap_cons, (strncpy_eq_self_iff piece).mpr hpiece, ih hpieces]

/-- **Two copies**, the first one of the pieces and the second one of the whole, keep exactly the texts
without a byte behind a NUL. -/
theorem strncpy_flatMap_iff (pieces : List (List UInt8)) :
    strncpy (pieces.flatMap strncpy) = pieces.flatten ↔ OnlyNulsBehindNul pieces.flatten := by
  constructor
  · intro heq
    rw [← heq]
    exact onlyNulsBehindNul_strncpy _
  · intro h
    rw [strncpy_flatMap h]
    exact (strncpy_eq_self_iff _).mpr h

/-! ### The line -/

namespace LogStream

/-- The line of insertions of texts that fit: its bytes, and how many they are. -/
theorem line_of_texts (outside : ℤ → UInt8) {es : List Insertion} (hes : ∀ e ∈ es, e.isNumber = false)
    (hfits : totalLength outside es ≤ kSmallBufferSize) :
    ∃ line, runFrom (insert outside) RawFixedBuffer.make es = .ok line ∧
      line.toFixed.content = (es.map Insertion.text).flatMap strncpy ∧
      line.toFixed.content.length ≤ kSmallBufferSize := by
  have hstart : (RawFixedBuffer.make : LogStream).curIndex + totalLength outside es ≤ kSmallBufferSize :=
    (Nat.zero_add _).trans_le hfits
  obtain ⟨line, hrun, hindex, hcontent⟩ := insertAll_texts es hes hstart
  refine ⟨line, hrun, ?_, ?_⟩
  · rw [hcontent, RawFixedBuffer.toFixed_make, List.flatMap_map]
    rfl
  · have hle : line.curIndex ≤ kSmallBufferSize := hindex.trans_le hstart
    exact (RawFixedBuffer.toFixed_length hle).trans_le hle

/-- **The bytes of a log line.**  Whatever chars, C strings, `std::string`s and buffers are inserted, if
they fit in the line: `AsyncLog::append` of the line, in any state of a run of the logger, adds exactly
their bytes to what the logger holds, exactly if no byte but NUL follows a NUL among them and `append`
has a buffer to write into. -/
theorem log_line_bytes_iff (outside : ℤ → UInt8) (es : List Insertion)
    (hes : ∀ e ∈ es, e.isNumber = false) (hfits : totalLength outside es ≤ kSmallBufferSize) :
    ∃ line, runFrom (insert outside) RawFixedBuffer.make es = .ok line ∧
      ∃ hlen : line.toFixed.content.length ≤ kSmallBufferSize,
        ∀ events log, runFrom logStep AsyncLog.start events = .ok log →
          ((∃ log', logStep log (.append line.toFixed.content hlen) = .ok log' ∧
              log'.pending = log.pending ++ (es.map Insertion.text).flatten) ↔
            OnlyNulsBehindNul (es.map Insertion.text).flatten ∧
              AsyncLog.HasSpare log (.append line.toFixed.content hlen)) := by
  obtain ⟨line, hrun, hcontent, hlen⟩ := line_of_texts outside hes hfits
  refine ⟨line, hrun, hlen, fun events log hlog => ?_⟩
  have hclean : AsyncLog.Clean log :=
    run_invariant (fun s e s' h _ => AsyncLog.clean_step s e s' h) events AsyncLog.clean_start
      (along_true _ events) log (reachedBy_end hlog)
  have hnull := AsyncLog.appendNull_iff log (.append line.toFixed.content hlen) hclean.toIntact
  rw [← strncpy_flatMap_iff, ← hcontent]
  constructor
  · rintro ⟨log', hok, hpending⟩
    rw [(hclean.pending_append hok).1] at hpending
    refine ⟨List.append_cancel_left hpending, ?_⟩
    by_contra hspare
    rw [hnull.mpr hspare] at hok
    cases hok
  · rintro ⟨hbytes, hspare⟩
    obtain ⟨log', hok⟩ := AsyncLog.append_ok hlen hclean.cur hspare
    refine ⟨log', hok, ?_⟩
    rw [(hclean.pending_append hok).1, hbytes]

/-- A string that starts with a NUL. -/
theorem log_line_bytes_iff_nulFirst : ∃ line : LogStream,
    runFrom (insert fun _ => 0) RawFixedBuffer.make [.string [0, 97]] = .ok line := by
  obtain ⟨line, hrun, _⟩ := log_line_bytes_iff (fun _ => 0) [.string [0, 97]] (by simp [Insertion.isNumber])
    (by decide)
  exact ⟨line, hrun⟩

/-- A NUL and an `a`: the logger gets two NULs. -/
theorem byte_behind_nul_lost : ∃ line log, runFrom (insert fun _ => 0) RawFixedBuffer.make
      [.char 0, .char 97] = .ok line ∧
    AsyncLog.start.append line.toFixed.content = .ok log ∧
      log.pending ≠ AsyncLog.start.pending ++ [0, 97] := by
  obtain ⟨line, hrun, hcontent, hlen⟩ := @line_of_texts (fun _ => 0) [.char 0, .char 97]
    (by simp [Insertion.isNumber]) (by decide)
  have hspare : AsyncLog.HasSpare AsyncLog.start (.append line.toFixed.content hlen) :=
    Or.inr (Option.some_ne_none _)
  obtain ⟨log, hok⟩ := AsyncLog.append_ok hlen (Option.some_ne_none _) hspare
  refine ⟨line, log, hrun, hok, ?_⟩
  rw [(AsyncLog.clean_start.pending_append hok).1, hcontent]
  decide

end LogStream

end WServer
