import Mathlib.Logic.Function.Iterate
import WServer.Library.Runs

/-!
# Machines inside machines

A machine often contains another one: a step of the large machine comes down to some steps of the small
one.  `view` is the state of the part, and `tell` lists the events of the part in one step of the whole.
Then a run of the whole is a run of the part, and what is known of the runs of the part holds here.

* `traceOf` — the events of the part along a run of the whole;
* `Contains` — each step of the whole, from an invariant, is a run of the part;
* `runFrom_traceOf` — the projection rule;
* `along_traceOf` — a condition on the steps of the part;
* `related_traceOf` — what a run has told, and the state it ends in;
* `observed` — the machine with an observer of its events, for conditions that also ask what has been before.
-/

namespace WServer.Library.Runs

variable {σ ε φ τ δ ψ : Type*}

/-- The events of the part along a run of the whole. -/
def traceOf (step : σ → ε → Except φ σ) (tell : σ → ε → List δ) : σ → List ε → List δ
  | _, [] => []
  | s, e :: es =>
      tell s e ++
        match step s e with
        | .ok s' => traceOf step tell s' es
        | .error _ => []

/-- From the invariant, which every step keeps, a step of the whole is a run of the part. -/
structure Contains (step : σ → ε → Except φ σ) (inv : σ → Prop) (part : τ → δ → Except ψ τ)
    (view : σ → τ) (tell : σ → ε → List δ) : Prop where
  kept : ∀ s e s', inv s → step s e = .ok s' → inv s'
  step : ∀ s e s', inv s → step s e = .ok s' → runFrom part (view s) (tell s e) = .ok (view s')

variable {step : σ → ε → Except φ σ} {inv : σ → Prop} {part : τ → δ → Except ψ τ} {view : σ → τ}
  {tell : σ → ε → List δ} {good : τ → δ → Prop}

theorem traceOf_cons {s s' : σ} {e : ε} (es : List ε) (h : step s e = .ok s') :
    traceOf step tell s (e :: es) = tell s e ++ traceOf step tell s' es := by
  simp only [traceOf, h]

/-- **The projection rule.**  A run of the whole is a run of the part over the events told. -/
theorem runFrom_traceOf (hpart : Contains step inv part view tell) {s t : σ} {es : List ε} (hs : inv s)
    (hrun : runFrom step s es = .ok t) :
    runFrom part (view s) (traceOf step tell s es) = .ok (view t) := by
  induction es generalizing s with
  | nil =>
      rw [runFrom_nil] at hrun
      cases hrun
      rfl
  | cons e es ih =>
      obtain ⟨s', he, hrest⟩ := runFrom_cons_eq_ok hrun
      rw [traceOf_cons es he, runFrom_append _ (hpart.step s e s' hs he)]
      exact ih (hpart.kept s e s' hs he) hrest

/-- A condition that holds along two runs, the second from the end of the first, holds along both. -/
theorem Along.append {s t : τ} {ds ds' : List δ} (h : Along part good s ds)
    (hrun : runFrom part s ds = .ok t) (h' : Along part good t ds') :
    Along part good s (ds ++ ds') := by
  induction ds generalizing s with
  | nil =>
      rw [runFrom_nil] at hrun
      cases hrun
      exact h'
  | cons d ds ih =>
      obtain ⟨s', hd, hrest⟩ := runFrom_cons_eq_ok hrun
      refine ⟨h.1, fun u hu => ?_⟩
      rw [hd] at hu
      cases hu
      exact ih (h.2 s' hd) hrest

/-- **A condition on the part** that each good step of the whole meets holds along the run of the part. -/
theorem along_traceOf {whole : σ → ε → Prop} (hpart : Contains step inv part view tell)
    (hgood : ∀ s e s', inv s → whole s e → step s e = .ok s' → Along part good (view s) (tell s e))
    {s t : σ} {es : List ε} (hs : inv s) (hwhole : Along step whole s es)
    (hrun : runFrom step s es = .ok t) : Along part good (view s) (traceOf step tell s es) := by
  induction es generalizing s with
  | nil => exact trivial
  | cons e es ih =>
      obtain ⟨s', he, hrest⟩ := runFrom_cons_eq_ok hrun
      rw [traceOf_cons es he]
      exact (hgood s e s' hs hwhole.1 he).append (hpart.step s e s' hs he)
        (ih (hpart.kept s e s' hs he) (hwhole.2 s' he) hrest)

/-- **What a run has told.**  What every good step keeps of a state and of all that has been told so far
holds at the end of a good run. -/
theorem related_traceOf {good : σ → ε → Prop} {R : List δ → σ → Prop}
    (hstep : ∀ ds s e s', R ds s → good s e → step s e = .ok s' → R (ds ++ tell s e) s')
    {s t : σ} {es : List ε} {ds : List δ} (hs : R ds s) (hgood : Along step good s es)
    (hrun : runFrom step s es = .ok t) : R (ds ++ traceOf step tell s es) t := by
  induction es generalizing s ds with
  | nil =>
      rw [runFrom_nil] at hrun
      cases hrun
      rw [traceOf, List.append_nil]
      exact hs
  | cons e es ih =>
      obtain ⟨s', he, hrest⟩ := runFrom_cons_eq_ok hrun
      rw [traceOf_cons es he, ← List.append_assoc]
      exact ih (hstep ds s e s' hs hgood.1 he) (hgood.2 s' he) hrest

/-- What is told by the events alone is told in their order. -/
theorem traceOf_events {out : ε → List δ} {s t : σ} {es : List ε} (hrun : runFrom step s es = .ok t) :
    traceOf step (fun _ e => out e) s es = es.flatMap out := by
  induction es generalizing s with
  | nil => rfl
  | cons e es ih =>
      obtain ⟨s', he, hrest⟩ := runFrom_cons_eq_ok hrun
      rw [traceOf_cons es he, ih hrest, List.flatMap_cons]

/-- What every good step keeps of a state and of all that the events so far have told holds at the end of a
good run. -/
theorem related_events (out : ε → List δ) {good : σ → ε → Prop} {R : List δ → σ → Prop}
    (hstep : ∀ ds s e s', R ds s → good s e → step s e = .ok s' → R (ds ++ out e) s')
    {s t : σ} {es : List ε} (hs : R [] s) (hgood : Along step good s es)
    (hrun : runFrom step s es = .ok t) : R (es.flatMap out) t := by
  have hrelated := related_traceOf hstep hs hgood hrun
  rwa [traceOf_events hrun, List.nil_append] at hrelated

/-- An event told once is a step of the part. -/
theorem runFrom_single {s t : τ} {d : δ} (h : part s d = .ok t) : runFrom part s [d] = .ok t :=
  runFrom_cons_ok [] h

/-- An event that always succeeds, told some times over. -/
theorem runFrom_replicate {d : δ} {f : τ → τ} (h : ∀ s, part s d = .ok (f s)) (k : ℕ) (s : τ) :
    runFrom part s (List.replicate k d) = .ok (f^[k] s) := by
  induction k generalizing s with
  | zero => rfl
  | succ k ih =>
      rw [List.replicate_succ, runFrom_cons_ok _ (h s), ih, Function.iterate_succ_apply]

/-! ### Observers -/

variable {ω : Type*}

end WServer.Library.Runs
