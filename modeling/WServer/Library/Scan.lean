import Mathlib.Data.List.Basic
import Mathlib.Data.List.TakeWhile
import Mathlib.Tactic.Common

/-!
# Scanning a list with checked reads

A loop `while (p(l[i])) i = next(i);` makes no test for the end of what it walks along: it relies on an
element at which `p` fails.  Here every read is checked and every loop has a bound on its rounds, so that
"stays inside and comes to an end" is "does not fail".  The index may be of any type `ι` that stands for
integers, such as a machine word whose successor wraps round.

* `readAt`, `partAt`, `scan` — a read, a part of the list, the loop;
* `StopsAt p l i z` — from `i` on the first element that fails `p` is at `z`;
* `stopsAt_takeWhile` — an element that fails `p` makes every scan from before it stop;
* `scan_ok` — a scan that stops, and whose index is counted right up to there, ends at that place;
* `scan_escapes` — a scan whose index leaves the list before, does not end well.
-/

namespace WServer.Library.Scan

variable {α ι : Type*} {p : α → Bool} {l : List α} {i z : ℕ}

/-- What a checked walk along a list runs into. -/
inductive ScanFault where
  /-- A read outside the list. -/
  | outside (index : ℤ)
  /-- A part that starts behind the end. -/
  | behind (start : ℕ)
  /-- A loop that is not at its end when its rounds are used up. -/
  | unfinished
  deriving DecidableEq, Repr

/-- `l[index]` -/
def readAt (l : List α) (index : ℤ) : Except ScanFault α :=
  match l[index.toNat]? with
  | some x => if 0 ≤ index then .ok x else .error (.outside index)
  | none => .error (.outside index)

/-- The `n` elements from `start` on, or as many as there are. -/
def partAt (l : List α) (start n : ℕ) : Except ScanFault (List α) :=
  if start ≤ l.length then .ok ((l.drop start).take n) else .error (.behind start)

/-- `while (p(l[i])) i = next(i);`, at most `fuel` rounds, the last test included. -/
def scan (index : ι → ℤ) (next : ι → ι) (p : α → Bool) (l : List α) : ℕ → ι → Except ScanFault ι
  | 0, _ => .error .unfinished
  | fuel + 1, i =>
      match readAt l (index i) with
      | .error fault => .error fault
      | .ok x => if p x then scan index next p l fuel (next i) else .ok i

/-! ### Reads -/

theorem readAt_ok {x : α} (h : l[i]? = some x) : readAt l i = .ok x := by
  rw [readAt, Int.toNat_natCast, h]
  exact if_pos (Int.natCast_nonneg i)

theorem readAt_negative (l : List α) {index : ℤ} (h : index < 0) :
    readAt l index = .error (.outside index) := by
  rw [readAt]
  split
  · exact if_neg (by omega)
  · rfl

theorem partAt_ok {start : ℕ} (h : start ≤ l.length) (n : ℕ) :
    partAt l start n = .ok ((l.drop start).take n) := if_pos h

/-! ### Where a scan stops -/

/-- The first element from `i` on that fails `p` is at `z`. -/
inductive StopsAt (p : α → Bool) (l : List α) : ℕ → ℕ → Prop where
  | here {z : ℕ} {x : α} : l[z]? = some x → p x = false → StopsAt p l z z
  | next {i z : ℕ} {x : α} : l[i]? = some x → p x = true → StopsAt p l (i + 1) z → StopsAt p l i z

theorem StopsAt.lt_length (h : StopsAt p l i z) : z < l.length := by
  induction h with
  | here hread _ => exact (List.getElem?_eq_some_iff.mp hread).1
  | next _ _ _ ih => exact ih

theorem StopsAt.le (h : StopsAt p l i z) : i ≤ z := by
  induction h with
  | here _ _ => exact Nat.le_refl _
  | next _ _ _ ih => exact Nat.le_of_succ_le ih

/-- The scan does not pass an element that fails `p`. -/
theorem StopsAt.le_of_fails {n : ℕ} {x : α} (h : StopsAt p l i z) (hn : l[n]? = some x)
    (hx : p x = false) (hi : i ≤ n) : z ≤ n := by
  induction h with
  | here _ _ => exact hi
  | @next i z y hy hpass _ ih =>
      apply ih
      rcases Nat.lt_or_eq_of_le hi with hlt | rfl
      · exact hlt
      · -- the element at `i` passes
        rw [hn, Option.some.injEq] at hy
        rw [hy, hpass] at hx
        cases hx

/-- **An element that fails `p`** makes a scan from before it stop, behind those that pass. -/
theorem stopsAt_takeWhile {n : ℕ} {x : α} (hn : l[n]? = some x) (hx : p x = false) (hi : i ≤ n) :
    StopsAt p l i (i + ((l.drop i).takeWhile p).length) := by
  obtain ⟨hlt, -⟩ := List.getElem?_eq_some_iff.mp hn
  induction hd : n - i generalizing i with
  | zero =>
      obtain rfl : i = n := by omega
      rw [← List.getElem_cons_drop hlt, List.takeWhile_cons_of_neg]
      · exact .here hn hx
      · rw [List.getElem?_eq_getElem hlt, Option.some.injEq] at hn
        rw [hn, hx]
        exact Bool.false_ne_true
  | succ d ih =>
      have hread : l[i]? = some l[i] := List.getElem?_eq_getElem (by omega)
      rw [← List.getElem_cons_drop (show i < l.length by omega)]
      cases hp : p l[i] with
      | true =>
          rw [List.takeWhile_cons_of_pos hp, List.length_cons, Nat.add_comm _ 1, ← Nat.add_assoc]
          exact .next hread hp (ih (by omega) (by omega))
      | false =>
          rw [List.takeWhile_cons_of_neg (by rw [hp]; exact Bool.false_ne_true)]
          exact .here hread hp

/-! ### The loop -/

variable {index : ι → ℤ} {next : ι → ι} {v : ℕ → ι}

theorem scan_step {x : α} (hv : ∀ k, index (v k) = k) (h : l[i]? = some x) (hx : p x = true) (fuel : ℕ) :
    scan index next p l (fuel + 1) (v i) = scan index next p l fuel (next (v i)) := by
  rw [scan, hv, readAt_ok h]
  exact if_pos hx

/-- **A scan that stops** ends there, provided the index is counted right up to there. -/
theorem scan_ok (hv : ∀ k, index (v k) = k) (h : StopsAt p l i z)
    (hnext : ∀ k, i ≤ k → k < z → next (v k) = v (k + 1)) {fuel : ℕ} (hfuel : z < i + fuel) :
    scan index next p l fuel (v i) = .ok (v z) := by
  induction h generalizing fuel with
  | @here z x hread hfail =>
      obtain ⟨fuel, rfl⟩ : ∃ f, fuel = f + 1 := ⟨fuel - 1, by omega⟩
      rw [scan, hv, readAt_ok hread]
      simp only [hfail, Bool.false_eq_true, if_false]
  | @next i z x hread hpass hrest ih =>
      have hle := hrest.le
      obtain ⟨fuel, rfl⟩ : ∃ f, fuel = f + 1 := ⟨fuel - 1, by omega⟩
      rw [scan_step hv hread hpass, hnext i (Nat.le_refl i) (by omega)]
      exact ih (fun k hk => hnext k (by omega)) (by omega)

/-- **A scan whose index leaves the list** does not end well, whatever its bound: up to `m` every element
passes, and the successor of the index that stands for `m` is negative. -/
theorem scan_escapes {m : ℕ} (hv : ∀ k, index (v k) = k)
    (hpass : ∀ k, i ≤ k → k ≤ m → ∃ x, l[k]? = some x ∧ p x = true)
    (hnext : ∀ k, i ≤ k → k < m → next (v k) = v (k + 1)) (hout : index (next (v m)) < 0) (hi : i ≤ m)
    (fuel : ℕ) : ∃ fault, scan index next p l fuel (v i) = .error fault := by
  induction fuel generalizing i with
  | zero => exact ⟨.unfinished, rfl⟩
  | succ fuel ih =>
      obtain ⟨x, hread, hx⟩ := hpass i (Nat.le_refl i) hi
      rw [scan_step hv hread hx]
      rcases Nat.lt_or_eq_of_le hi with hlt | rfl
      · rw [hnext i (Nat.le_refl i) hlt]
        exact ih (fun k hk => hpass k (by omega)) (fun k hk => hnext k (by omega)) hlt
      · cases fuel with
        | zero => exact ⟨.unfinished, rfl⟩
        | succ fuel =>
            rw [scan, readAt_negative l hout]
            exact ⟨_, rfl⟩

end WServer.Library.Scan
