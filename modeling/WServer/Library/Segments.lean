import Mathlib.Data.List.Basic
import Mathlib.Data.List.GetD
import Mathlib.Data.List.Infix
import Mathlib.Tactic.Common

/-!
# Segments of a list: slices, overwriting, and cutting at a delimiter pair

Three operations on lists of any type, as a store of cells with two cursors needs them:

* `slice l i j` — the cells from `i` up to `j`;
* `overwrite l i xs` — the cells from `i` on replaced by `xs`;
* `splitAtPair a b l` — the shortest prefix of `l` that ends in `a, b`, with what follows it.

The laws say how a slice sees an overwrite (`slice_overwrite_extend`, `slice_overwrite_front`), how a
slice is cut, and that `splitAtPair` finds exactly the shortest prefix (`splitAtPair_shortest`,
`splitAtPair_none`).
-/

namespace WServer.Library.Segments

variable {α : Type*}

/-! ### Slices -/

/-- The cells `i, …, j - 1`. -/
def slice (l : List α) (i j : ℕ) : List α := (l.take j).drop i

theorem slice_length {l : List α} {i j : ℕ} (h : j ≤ l.length) : (slice l i j).length = j - i := by
  rw [slice, List.length_drop, List.length_take, Nat.min_eq_left h]

theorem slice_self (l : List α) (i : ℕ) : slice l i i = [] := by
  rw [slice, List.drop_eq_nil_iff, List.length_take]
  exact Nat.min_le_left _ _

/-- Dropping from a slice moves its start. -/
theorem slice_drop (l : List α) (i j n : ℕ) : (slice l i j).drop n = slice l (i + n) j := by
  rw [slice, slice, List.drop_drop]

/-- Taking from a slice moves its end. -/
theorem slice_take (l : List α) {i j n : ℕ} (h : i + n ≤ j) :
    (slice l i j).take n = slice l i (i + n) := by
  rw [slice, slice, List.take_drop, List.take_take, Nat.min_eq_left h]

/-- The first cell of a nonempty slice. -/
theorem slice_eq_cons {l : List α} {i j : ℕ} (hij : i < j) (hj : j ≤ l.length) (d : α) :
    slice l i j = l.getD i d :: slice l (i + 1) j := by
  have hi : i < (l.take j).length := by rw [List.length_take]; omega
  rw [slice, List.drop_eq_getElem_cons hi, List.getElem_take, slice,
    List.getD_eq_getElem _ _ (by omega)]

/-- Cells appended at the end of the store are not seen by a slice that ends before them. -/
theorem slice_append_right {l : List α} (z : List α) {i j : ℕ} (h : j ≤ l.length) :
    slice (l ++ z) i j = slice l i j := by
  rw [slice, slice, List.take_append_of_le_length h]

/-! ### Overwriting -/

/-- The cells from `i` on, as many as `xs` has, replaced by `xs`. -/
def overwrite (l : List α) (i : ℕ) (xs : List α) : List α :=
  l.take i ++ xs ++ l.drop (i + xs.length)

theorem overwrite_length {l xs : List α} {i : ℕ} (h : i + xs.length ≤ l.length) :
    (overwrite l i xs).length = l.length := by
  rw [overwrite, List.length_append, List.length_append, List.length_take, List.length_drop]
  omega

theorem overwrite_take (l xs : List α) {i : ℕ} (h : i ≤ l.length) :
    (overwrite l i xs).take (i + xs.length) = l.take i ++ xs := by
  have hlen : (l.take i ++ xs).length = i + xs.length := by
    rw [List.length_append, List.length_take, Nat.min_eq_left h]
  rw [overwrite, List.take_append_of_le_length (le_of_eq hlen.symm),
    List.take_of_length_le (le_of_eq hlen)]

/-- Writing the first cell, and then the others. -/
theorem overwrite_cons {l : List α} {i : ℕ} (h : i < l.length) (x : α) (xs : List α) :
    overwrite (l.set i x) (i + 1) xs = overwrite l i (x :: xs) := by
  have hset : l.set i x = (l.take i ++ [x]) ++ l.drop (i + 1) := by
    rw [List.set_eq_take_append_cons_drop, if_pos h, List.append_assoc]
    rfl
  have hlen : (l.take i ++ [x]).length = i + 1 := by
    rw [List.length_append, List.length_take, Nat.min_eq_left (Nat.le_of_lt h)]
    rfl
  rw [overwrite, overwrite, List.drop_set_of_lt (by omega), hset, List.take_left' hlen, List.append_assoc,
    List.append_assoc, List.append_assoc, List.length_cons, Nat.add_right_comm, Nat.add_assoc]
  rfl

/-- **Writing at the end of a slice extends it** by exactly what is written. -/
theorem slice_overwrite_extend {l xs : List α} {i j : ℕ} (hij : i ≤ j) (hj : j ≤ l.length) :
    slice (overwrite l j xs) i (j + xs.length) = slice l i j ++ xs := by
  rw [slice, overwrite_take l xs hj, List.drop_append_of_le_length (by rw [List.length_take]; omega),
    slice]

/-- **Moving a slice to the front** keeps its cells. -/
theorem slice_overwrite_front {l : List α} {i j : ℕ} (hj : j ≤ l.length) :
    slice (overwrite l 0 (slice l i j)) 0 (j - i) = slice l i j := by
  have h := overwrite_take l (slice l i j) (Nat.zero_le _)
  rw [Nat.zero_add, slice_length hj, List.take_zero, List.nil_append] at h
  rw [slice, h, List.drop_zero]

/-! ### Cutting at a delimiter pair -/

variable [DecidableEq α]

/-- The shortest prefix ending in `a, b`, and what follows it. -/
def splitAtPair (a b : α) : List α → Option (List α × List α)
  | x :: y :: l =>
      if x = a ∧ y = b then some ([x, y], l)
      else (splitAtPair a b (y :: l)).map fun p => (x :: p.1, p.2)
  | _ => none

theorem splitAtPair_cons {a b x : α} {l : List α} (h : ∀ t, x :: l ≠ a :: b :: t) :
    splitAtPair a b (x :: l) = (splitAtPair a b l).map fun p => (x :: p.1, p.2) := by
  cases l with
  | nil => rfl
  | cons y l =>
      have hxy : ¬ (x = a ∧ y = b) := by
        rintro ⟨rfl, rfl⟩
        exact h l rfl
      rw [splitAtPair, if_neg hxy]

theorem splitAtPair_hit (a b : α) (l : List α) :
    splitAtPair a b (a :: b :: l) = some ([a, b], l) := by
  rw [splitAtPair, if_pos ⟨rfl, rfl⟩]

/-- What `splitAtPair` finds is a prefix that ends in the pair. -/
theorem splitAtPair_some {a b : α} {l p r : List α} (h : splitAtPair a b l = some (p, r)) :
    p ++ r = l ∧ [a, b] <:+ p := by
  induction l generalizing p r with
  | nil => cases h
  | cons x l ih =>
      by_cases hhit : ∃ t, x :: l = a :: b :: t
      · obtain ⟨t, ht⟩ := hhit
        rw [ht, splitAtPair_hit] at h
        cases h
        exact ⟨by rw [ht]; rfl, List.suffix_rfl⟩
      · rw [splitAtPair_cons fun t ht => hhit ⟨t, ht⟩, Option.map_eq_some_iff] at h
        obtain ⟨⟨p', r'⟩, hl, hp⟩ := h
        cases hp
        obtain ⟨happ, hsuf⟩ := ih hl
        exact ⟨by rw [List.cons_append, happ], hsuf.trans (List.suffix_cons x p')⟩

omit [DecidableEq α] in
/-- A prefix of `x :: l` ending in the pair is the pair itself or goes one cell past a prefix of `l`. -/
theorem pair_suffix_cons {a b x : α} {l q : List α} (hq : q <+: x :: l) (hs : [a, b] <:+ q) :
    (∃ t, x :: l = a :: b :: t) ∨ ∃ q', q = x :: q' ∧ q' <+: l ∧ [a, b] <:+ q' := by
  cases q with
  | nil => exact absurd (List.suffix_nil.mp hs) (by simp)
  | cons y q =>
      obtain ⟨rfl, hq'⟩ := List.cons_prefix_cons.mp hq
      rcases List.suffix_cons_iff.mp hs with heq | hs'
      · left
        cases heq
        obtain ⟨t, ht⟩ := hq'
        exact ⟨t, by rw [← ht]; rfl⟩
      · exact Or.inr ⟨q, rfl, hq', hs'⟩

/-- **Shortest.**  No prefix ending in the pair is shorter than the one found. -/
theorem splitAtPair_shortest {a b : α} {l p r q : List α} (h : splitAtPair a b l = some (p, r))
    (hq : q <+: l) (hs : [a, b] <:+ q) : p.length ≤ q.length := by
  induction l generalizing p r q with
  | nil => cases h
  | cons x l ih =>
      by_cases hhit : ∃ t, x :: l = a :: b :: t
      · obtain ⟨t, ht⟩ := hhit
        rw [ht, splitAtPair_hit] at h
        cases h
        exact hs.length_le
      · rw [splitAtPair_cons fun t ht => hhit ⟨t, ht⟩, Option.map_eq_some_iff] at h
        obtain ⟨⟨p', r'⟩, hl, hp⟩ := h
        cases hp
        rcases pair_suffix_cons hq hs with hh | ⟨q', rfl, hq', hs'⟩
        · exact absurd hh hhit
        · simpa using ih hl hq' hs'

/-- **None.**  If nothing is found, no prefix ends in the pair. -/
theorem splitAtPair_none {a b : α} {l q : List α} (h : splitAtPair a b l = none)
    (hq : q <+: l) : ¬ [a, b] <:+ q := by
  induction l generalizing q with
  | nil =>
      rw [List.prefix_nil.mp hq]
      intro hs
      exact absurd (List.suffix_nil.mp hs) (by simp)
  | cons x l ih =>
      intro hs
      by_cases hhit : ∃ t, x :: l = a :: b :: t
      · obtain ⟨t, ht⟩ := hhit
        rw [ht, splitAtPair_hit] at h
        cases h
      · rw [splitAtPair_cons fun t ht => hhit ⟨t, ht⟩, Option.map_eq_none_iff] at h
        rcases pair_suffix_cons hq hs with hh | ⟨q', rfl, hq', hs'⟩
        · exact hhit hh
        · exact ih h hq' hs'

/-- Cells free of the first delimiter are passed over. -/
theorem splitAtPair_append {a b : α} {body : List α} (l : List α) (h : a ∉ body) :
    splitAtPair a b (body ++ l) = (splitAtPair a b l).map fun p => (body ++ p.1, p.2) := by
  induction body with
  | nil => simp only [List.nil_append, Option.map_id']
  | cons x body ih =>
      rw [List.mem_cons, not_or] at h
      have hmiss : ∀ t, x :: (body ++ l) ≠ a :: b :: t := by
        intro t ht
        exact h.1 (List.head_eq_of_cons_eq ht).symm
      rw [List.cons_append, splitAtPair_cons hmiss, ih h.2, Option.map_map]
      rfl

/-- A body free of the first delimiter is cut right after it. -/
theorem splitAtPair_body {a b : α} {body : List α} (rest : List α) (h : a ∉ body) :
    splitAtPair a b (body ++ a :: b :: rest) = some (body ++ [a, b], rest) := by
  rw [splitAtPair_append _ h, splitAtPair_hit]
  rfl

end WServer.Library.Segments
