import WServer.Library.Segments

/-!
# Messages with header fields

A message is a start line, header lines `name: value`, an empty line and a body, over any alphabet with
four delimiters.  `print` writes it and `parse` reads it; they are inverse to each other, so a message has
one text and a text at most one message.

* `cutAt` — the text before a delimiter pair;
* `readFields_print` — the header lines;
* `parse_eq_some_iff` — the round trip, in both directions.
-/

namespace WServer.Library.MessageFormat

open Segments

/-- `cr lf` ends a line, and `colon blank` the name of a field. -/
structure Delimiters (α : Type*) where
  cr : α
  lf : α
  colon : α
  blank : α
  colon_ne : colon ≠ cr
  blank_ne : blank ≠ cr

variable {α : Type*} {d : Delimiters α}

/-- A header field. -/
@[ext]
structure Field (d : Delimiters α) where
  name : List α
  value : List α
  name_free : d.cr ∉ name ∧ d.colon ∉ name
  value_free : d.cr ∉ value

@[ext]
structure Message (d : Delimiters α) where
  start : List α
  fields : List (Field d)
  body : List α
  start_free : d.cr ∉ start

/-! ### Printing -/

def line (d : Delimiters α) (text : List α) : List α := text ++ [d.cr, d.lf]

def Field.text (f : Field d) : List α := f.name ++ d.colon :: d.blank :: f.value

/-- The header lines with the empty line. -/
def printFields (fields : List (Field d)) : List α :=
  (fields.flatMap fun f => line d f.text) ++ line d []

def Message.print (m : Message d) : List α := line d m.start ++ (printFields m.fields ++ m.body)

theorem Field.text_free (f : Field d) : d.cr ∉ f.text := by
  rw [Field.text, List.mem_append, List.mem_cons, List.mem_cons]
  rintro (h | h | h | h)
  · exact f.name_free.1 h
  · exact d.colon_ne h.symm
  · exact d.blank_ne h.symm
  · exact f.value_free h

theorem Field.text_ne_nil (f : Field d) : f.text ≠ [] :=
  List.append_ne_nil_of_right_ne_nil _ (List.cons_ne_nil _ _)

theorem printFields_cons (f : Field d) (fields : List (Field d)) :
    printFields (f :: fields) = line d f.text ++ printFields fields := by
  rw [printFields, List.flatMap_cons, List.append_assoc]
  rfl

theorem length_lt_printFields (fields : List (Field d)) :
    fields.length < (printFields fields).length := by
  induction fields with
  | nil => exact Nat.zero_lt_two
  | cons f fields ih =>
      rw [printFields_cons, List.length_append, List.length_cons, line, List.length_append]
      simp only [List.length_cons, List.length_nil]
      omega

/-! ### Parsing -/

variable [DecidableEq α]

/-- The text before the first `a, b`, and what follows the pair. -/
def cutAt (a b : α) (l : List α) : Option (List α × List α) :=
  (splitAtPair a b l).map fun p => (p.1.dropLast.dropLast, p.2)

theorem cutAt_body {a b : α} {text : List α} (rest : List α) (h : a ∉ text) :
    cutAt a b (text ++ a :: b :: rest) = some (text, rest) := by
  rw [cutAt, splitAtPair_body rest h, Option.map_some, List.append_cons, List.dropLast_concat,
    List.dropLast_concat]

theorem cutAt_some {a b : α} {l text rest : List α} (h : cutAt a b l = some (text, rest)) :
    text ++ a :: b :: rest = l := by
  rw [cutAt, Option.map_eq_some_iff] at h
  obtain ⟨⟨p, r⟩, hsplit, heq⟩ := h
  obtain ⟨happ, q, rfl⟩ := splitAtPair_some hsplit
  have hdrop : (q ++ [a, b]).dropLast.dropLast = q := by
    rw [List.append_cons, List.dropLast_concat, List.dropLast_concat]
  rw [Prod.mk.injEq, hdrop] at heq
  obtain ⟨rfl, rfl⟩ := heq
  rw [← happ, List.append_assoc]
  rfl

/-- A line cut off is a line printed. -/
theorem cutLine_print {text : List α} (rest : List α) (h : d.cr ∉ text) :
    cutAt d.cr d.lf (line d text ++ rest) = some (text, rest) := by
  rw [line, List.append_assoc]
  exact cutAt_body rest h

theorem line_of_cutLine {l text rest : List α} (h : cutAt d.cr d.lf l = some (text, rest)) :
    line d text ++ rest = l := by
  rw [line, List.append_assoc]
  exact cutAt_some h

def readField (d : Delimiters α) (text : List α) : Option (Field d) :=
  match cutAt d.colon d.blank text with
  | none => none
  | some (name, value) =>
      if h : (d.cr ∉ name ∧ d.colon ∉ name) ∧ d.cr ∉ value then some ⟨name, value, h.1, h.2⟩ else none

/-- The fields of at most `fuel` lines, the empty one included, and what follows them. -/
def readFields (d : Delimiters α) : ℕ → List α → Option (List (Field d) × List α)
  | 0, _ => none
  | fuel + 1, l =>
      match cutAt d.cr d.lf l with
      | none => none
      | some (text, rest) =>
          if text = [] then some ([], rest)
          else
            match readField d text with
            | none => none
            | some f => (readFields d fuel rest).map fun p => (f :: p.1, p.2)

def parse (d : Delimiters α) (l : List α) : Option (Message d) :=
  match cutAt d.cr d.lf l with
  | none => none
  | some (start, rest) =>
      if h : d.cr ∉ start then
        (readFields d rest.length rest).map fun p => ⟨start, p.1, p.2, h⟩
      else none

/-! ### The round trip -/

theorem readField_text (f : Field d) : readField d f.text = some f := by
  rw [readField, Field.text, cutAt_body f.value f.name_free.2]
  exact dif_pos ⟨f.name_free, f.value_free⟩

theorem text_of_readField {text : List α} {f : Field d} (h : readField d text = some f) :
    f.text = text := by
  rw [readField] at h
  split at h
  · cases h
  · rename_i name value hcut
    split at h
    · cases h
      exact cutAt_some hcut
    · cases h

/-- **The header lines** are read back. -/
theorem readFields_print (fields : List (Field d)) (rest : List α) :
    ∀ fuel, fields.length < fuel →
      readFields d fuel (printFields fields ++ rest) = some (fields, rest) := by
  induction fields with
  | nil =>
      intro fuel hfuel
      obtain ⟨fuel, rfl⟩ := Nat.exists_eq_succ_of_ne_zero (Nat.ne_of_gt hfuel)
      have hcut : cutAt d.cr d.lf (printFields ([] : List (Field d)) ++ rest) = some ([], rest) :=
        cutLine_print rest List.not_mem_nil
      simp only [readFields, hcut, if_pos]
  | cons f fields ih =>
      intro fuel hfuel
      rw [List.length_cons] at hfuel
      obtain ⟨fuel, rfl⟩ := Nat.exists_eq_succ_of_ne_zero (Nat.ne_of_gt (Nat.zero_lt_of_lt hfuel))
      have hcut : cutAt d.cr d.lf (printFields (f :: fields) ++ rest)
          = some (f.text, printFields fields ++ rest) := by
        rw [printFields_cons, List.append_assoc]
        exact cutLine_print _ f.text_free
      simp only [readFields, hcut, if_neg f.text_ne_nil, readField_text]
      rw [ih fuel (by omega)]
      rfl

/-- What is read is what would be printed. -/
theorem print_of_readFields {fuel : ℕ} {l rest : List α} {fields : List (Field d)}
    (h : readFields d fuel l = some (fields, rest)) : printFields fields ++ rest = l := by
  induction fuel generalizing l fields with
  | zero => cases h
  | succ fuel ih =>
      rw [readFields] at h
      split at h
      · cases h
      · rename_i text tail hcut
        rw [← line_of_cutLine hcut]
        split at h
        · rename_i hnil
          cases h
          rw [hnil]
          rfl
        · split at h
          · cases h
          · rename_i f hfield
            rw [Option.map_eq_some_iff] at h
            obtain ⟨⟨fields', rest'⟩, hrest, heq⟩ := h
            cases heq
            rw [printFields_cons, List.append_assoc, ih hrest, text_of_readField hfield]

/-- **Round trip.**  A text is parsed as a message exactly if it is the text of the message. -/
theorem parse_eq_some_iff {l : List α} {m : Message d} : parse d l = some m ↔ m.print = l := by
  constructor
  · intro h
    rw [parse] at h
    split at h
    · cases h
    · rename_i start rest hcut
      split at h
      · rw [Option.map_eq_some_iff] at h
        obtain ⟨⟨fields, body⟩, hfields, rfl⟩ := h
        rw [Message.print, print_of_readFields hfields]
        exact line_of_cutLine hcut
      · cases h
  · rintro rfl
    have hfuel : m.fields.length < (printFields m.fields ++ m.body).length := by
      have := length_lt_printFields m.fields
      rw [List.length_append]
      omega
    rw [parse, Message.print, cutLine_print _ m.start_free]
    simp only [dif_pos m.start_free, readFields_print _ _ _ hfuel, Option.map_some]

end WServer.Library.MessageFormat
