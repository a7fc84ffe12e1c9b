import WServer.Buffer

/-!
# Files that are appended to

`AppendFile` hands its messages to `fwrite` and counts what it has handed over.  A file is modelled by
the bytes that `fwrite` has accepted, which reach it at the latest when it is closed, together with the
error indicator of its stream, which stays set once it is set.

What `fwrite` answers is a finite script; `append` is `none` if its loop asks for more answers than there
are.
-/

namespace WServer

/-- One answer of `fwrite`: it has room for `count` bytes, and accepts as many as it is offered, up to
`count`; `fails` tells that it sets the error indicator. -/
structure FwriteResult where
  count : ℕ
  fails : Bool
  deriving DecidableEq

/-- Class `AppendFile`, with its stream. -/
structure AppendFile where
  content : List UInt8
  error : Bool
  writedBytes : ℕ
  deriving DecidableEq

namespace AppendFile

/-- The constructor, for a file that is empty. -/
def make : AppendFile where
  content := []
  error := false
  writedBytes := 0

/-- `fwrite_unlocked` -/
def write (answer : FwriteResult) (msg : List UInt8) (f : AppendFile) : ℕ × AppendFile :=
  let ret := min answer.count msg.length
  (ret, { f with content := f.content ++ msg.take ret, error := f.error || answer.fails })

/-- The loop of `append`, with the answers still to come: `written`, and the file. -/
def appendLoop (msg : List UInt8) : List FwriteResult → ℕ → AppendFile → Option (ℕ × AppendFile)
  | [], written, f => if written < msg.length then none else some (written, f)
  | answer :: answers, written, f =>
      if written < msg.length then
        let rest := msg.length - written
        let (ret, f) := f.write answer (msg.drop written)
        if ret ≠ rest ∧ f.error = true then some (written, f)
        else appendLoop msg answers (written + ret) f
      else some (written, f)

def append (answers : List FwriteResult) (msg : List UInt8) (f : AppendFile) : Option AppendFile :=
  match appendLoop msg answers 0 f with
  | none => none
  | some (written, f) => some { f with writedBytes := f.writedBytes + written }

/-- The stream takes a message of `len` bytes at once. -/
def TakesAll (len : ℕ) : List FwriteResult → Prop
  | [] => len = 0
  | answer :: _ => len ≤ answer.count

instance (len : ℕ) : (answers : List FwriteResult) → Decidable (TakesAll len answers)
  | [] => inferInstanceAs (Decidable (_ = _))
  | _ :: _ => inferInstanceAs (Decidable (_ ≤ _))

/-- The count is the size of the file. -/
def Counted (f : AppendFile) : Prop := f.writedBytes = f.content.length

theorem counted_make : Counted make := rfl

/-- The loop is over when everything is written. -/
theorem appendLoop_done (msg : List UInt8) (answers : List FwriteResult) (f : AppendFile) :
    appendLoop msg answers msg.length f = some (msg.length, f) := by
  cases answers with
  | nil => rw [appendLoop, if_neg (lt_irrefl _)]
  | cons answer answers => rw [appendLoop, if_neg (lt_irrefl _)]

/-- **A message taken at once** is in the file, and counted. -/
theorem append_takesAll {answers : List FwriteResult} {msg : List UInt8} (f : AppendFile)
    (h : TakesAll msg.length answers) :
    ∃ error, f.append answers msg = some { f with
      content := f.content ++ msg
      error := error
      writedBytes := f.writedBytes + msg.length } := by
  by_cases hpos : 0 < msg.length
  · cases answers with
    | nil => exact absurd h hpos.ne'
    | cons answer answers =>
        have hret : min answer.count msg.length = msg.length := Nat.min_eq_right h
        have hwrite : f.write answer (msg.drop 0) = (msg.length,
            { f with content := f.content ++ msg, error := f.error || answer.fails }) := by
          rw [List.drop_zero, write]
          simp only [hret, List.take_length]
        refine ⟨f.error || answer.fails, ?_⟩
        rw [append, appendLoop, if_pos hpos, hwrite]
        simp only [Nat.sub_zero, ne_eq, not_true_eq_false, false_and, if_false, Nat.zero_add,
          appendLoop_done]
  · obtain rfl : msg = [] := List.length_eq_zero_iff.mp (Nat.eq_zero_of_not_pos hpos)
    refine ⟨f.error, ?_⟩
    rw [append, show (0 : ℕ) = ([] : List UInt8).length from rfl, appendLoop_done, List.append_nil]

end AppendFile

end WServer
