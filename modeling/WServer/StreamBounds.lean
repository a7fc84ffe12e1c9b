import WServer.LogInsertions

/-!
# Where a log line ends

An insertion should end inside the array of its `LogStream`, and be refused when it does not fit.
Integers and pointers are; every other argument goes to `FixedBuffer::append`, which makes no test.

* `Guarded` — what is asked of one insertion;
* `guarded_iff` — one insertion, from an index inside the array;
* `insertions_guarded_iff` — whole sequences of insertions;
* `not_guarded_of_length` — texts that are too long together.
-/

namespace WServer

open Library.Runs

namespace LogStream

variable {outside : ℤ → UInt8} {s s' : LogStream} {e : Insertion}

/-- The insertion writes no byte behind the array and ends with the index inside it, and if it does not
fit it leaves the line as it is. -/
def Guarded (outside : ℤ → UInt8) (s : LogStream) (e : Insertion) : Prop :=
  ∃ s', insert outside s e = .ok s' ∧ s'.curIndex ≤ kSmallBufferSize ∧ (¬ e.Fits outside s → s' = s)

/-- An insertion that is made without a test fits. -/
def TextFits (outside : ℤ → UInt8) (s : LogStream) (e : Insertion) : Prop :=
  e.isNumber = false → e.Fits outside s

/-- The invariant: the line ends inside the array. -/
def Inside (s : LogStream) : Prop := s.curIndex ≤ kSmallBufferSize

/-- One insertion into a line that ends inside the array. -/
theorem guarded_iff (hs : Inside s) :
    Guarded outside s e ↔ TextFits outside s e := by
  constructor
  · rintro ⟨s', hok, _⟩ he
    by_contra hnot
    rw [insert_text_fault he hnot] at hok
    cases hok
  · intro hfits
    cases he : e.isNumber with
    | true => exact insert_number outside he hs
    | false =>
        obtain ⟨s', hok, hindex, _⟩ := insert_text he (hfits he)
        refine ⟨s', hok, ?_, fun hnot => absurd (hfits he) hnot⟩
        rw [hindex]
        exact hfits he

/-- **One insertion** of the kind leaves the line inside the array. -/
theorem inside_step (s : LogStream) (e : Insertion) (s' : LogStream) (hs : Inside s)
    (hfits : TextFits outside s e) (hok : insert outside s e = .ok s') : Inside s' := by
  obtain ⟨t, ht, hinside, _⟩ := (guarded_iff hs).mpr hfits
  rw [hok] at ht
  cases ht
  exact hinside

/-- **No write past the end.**  For every sequence of insertions into a new line (those that the `Logger`
makes before and after the message among them): each is guarded exactly if each that is no integer and no
pointer fits behind the insertions before it. -/
theorem insertions_guarded_iff (outside : ℤ → UInt8) (es : List Insertion) :
    Along (insert outside) (Guarded outside) RawFixedBuffer.make es ↔
      Along (insert outside) (TextFits outside) RawFixedBuffer.make es := by
  have hiff : ∀ s e, Inside s → (Guarded outside s e ↔ TextFits outside s e) :=
    fun s e hs => guarded_iff hs
  exact along_congr hiff inside_step es (Nat.zero_le _)

/-- Texts that are longer than the space left are not all guarded, whatever follows them. -/
theorem not_guarded_of_length (es post : List Insertion) (hes : ∀ e ∈ es, e.isNumber = false)
    (hlong : ¬ s.curIndex + totalLength outside es ≤ kSmallBufferSize) (hs : Inside s) :
    ¬ Along (insert outside) (Guarded outside) s (es ++ post) := by
  induction es generalizing s with
  | nil => exact absurd hs hlong
  | cons e es ih =>
      rintro ⟨hguarded, hrest⟩
      have hfits := (guarded_iff hs).mp hguarded (hes e List.mem_cons_self)
      obtain ⟨s', hok, hindex, _⟩ := insert_text (hes e List.mem_cons_self) hfits
      refine ih (fun d hd => hes d (List.mem_cons_of_mem e hd)) ?_ ?_ (hrest s' hok)
      · rw [totalLength, List.map_cons, List.sum_cons, ← totalLength] at hlong
        rw [hindex]
        omega
      · rw [Inside, hindex]
        exact hfits

/-- `LOG_INFO` with a `std::string` of 4000 bytes. -/
theorem longString_not_guarded :
    ¬ Along (insert fun _ => 0) (Guarded fun _ => 0) RawFixedBuffer.make
      ((Logger.opening (ascii "2024-01-01 00:00:00:1") (ascii "1 ") .INFO (ascii "main") ++
          [.string (List.replicate 4000 120)]) ++
        Logger.finish (ascii "main.cpp") ⟨7, by decide⟩) := by
  refine not_guarded_of_length _ _ ?_ ?_ (Nat.zero_le _)
  · intro e he
    simp only [Logger.opening, List.mem_append, List.mem_cons, List.not_mem_nil, or_false] at he
    rcases he with (rfl | rfl | rfl | rfl | rfl | rfl | rfl | rfl) | rfl <;> rfl
  · have hlong : 4000 < totalLength (fun _ => 0)
        (Logger.opening (ascii "2024-01-01 00:00:00:1") (ascii "1 ") .INFO (ascii "main") ++
          [.string (List.replicate 4000 120)]) := by
      rw [totalLength, List.map_append, List.sum_append]
      have hstring : ([.string (List.replicate 4000 120)].map (Insertion.length fun _ => 0)).sum = 4000 := by
        rw [List.map_singleton, List.sum_singleton]
        exact List.length_replicate
      rw [hstring]
      have hopening : 0 < ((Logger.opening (ascii "2024-01-01 00:00:00:1") (ascii "1 ") .INFO
          (ascii "main")).map (Insertion.length fun _ => 0)).sum := by decide
      exact Nat.lt_add_of_pos_left hopening
    intro hle
    exact absurd hlong (not_lt.mpr ((Nat.le_add_left _ _).trans hle))

end LogStream

end WServer
