import Mathlib.Data.List.Basic
import Mathlib.Tactic.Common

/-!
# Runs of a partial machine

A machine is a step function `step : σ → ε → Except φ σ`: in a state it consumes an event and either
continues in a new state or stops with a failure.  This file packages the inductions over its runs
once, for any state, event and failure type:

* `runFrom` — the run over a list of events, stopping at the first failure;
* `ok_of_bind` — the parts of a step that succeeds;
* `ReachedBy` — the states a run passes through, the start and the end included;
* `Along` — a condition on the state before a step and on its event, asked of every step of a run;
* `run_invariant` — an invariant kept by every step that meets the condition holds in every state a run
  of such steps reaches;
* `along_congr` — conditions that agree on the steps from an invariant hold along the same runs;
* `run_no_failure` — if no such step fails from a state of the invariant, the run does not fail;
* `run_failure_iff` — when a step fails exactly if it does not meet a condition, so does a run;
* `run_accumulates` — what every step adds to a list adds up along a run;
* `run_history` — an invariant that also speaks of the events so far, where no step fails;
* `reached_forall_iff` — when a condition is exactly what keeps a step inside the invariant, it holds
  along a run exactly when the invariant holds in every state reached.
-/

namespace WServer.Library.Runs

variable {σ ε φ : Type*} (step : σ → ε → Except φ σ)

/-- The run of a machine over a list of events. -/
def runFrom : σ → List ε → Except φ σ
  | s, [] => .ok s
  | s, e :: es =>
      match step s e with
      | .ok s' => runFrom s' es
      | .error f => .error f

/-- The states a run passes through: those after a prefix of its events. -/
def ReachedBy (s : σ) (es : List ε) (t : σ) : Prop :=
  ∃ pre, pre <+: es ∧ runFrom step s pre = .ok t

/-- Every step the run takes meets `good`, a condition on the state before it and on its event. -/
def Along (good : σ → ε → Prop) : σ → List ε → Prop
  | _, [] => True
  | s, e :: es => good s e ∧ ∀ s', step s e = .ok s' → Along good s' es

variable {step}

/-- A step made of two parts has taken both. -/
theorem ok_of_bind {α β : Type*} {x : Except φ α} {f : α → Except φ β} {b : β} (h : x.bind f = .ok b) :
    ∃ a, x = .ok a ∧ f a = .ok b := by
  cases x with
  | error fault => cases h
  | ok a => exact ⟨a, rfl, h⟩

theorem runFrom_nil (s : σ) : runFrom step s [] = .ok s := rfl

theorem runFrom_cons_ok {s s' : σ} {e : ε} (es : List ε) (h : step s e = .ok s') :
    runFrom step s (e :: es) = runFrom step s' es := by
  simp only [runFrom, h]

theorem runFrom_cons_error {s : σ} {e : ε} {f : φ} (es : List ε) (h : step s e = .error f) :
    runFrom step s (e :: es) = .error f := by
  simp only [runFrom, h]

/-- A run that succeeds on `e :: es` has taken the step `e`. -/
theorem runFrom_cons_eq_ok {s t : σ} {e : ε} {es : List ε}
    (h : runFrom step s (e :: es) = .ok t) :
    ∃ s', step s e = .ok s' ∧ runFrom step s' es = .ok t := by
  cases hs : step s e with
  | error f => rw [runFrom_cons_error es hs] at h; cases h
  | ok s' => exact ⟨s', rfl, by rwa [runFrom_cons_ok es hs] at h⟩

/-- Runs compose: the second part starts where the first one ended. -/
theorem runFrom_append {s t : σ} {es : List ε} (fs : List ε) (h : runFrom step s es = .ok t) :
    runFrom step s (es ++ fs) = runFrom step t fs := by
  induction es generalizing s with
  | nil =>
      rw [runFrom_nil] at h
      cases h
      rfl
  | cons e es ih =>
      obtain ⟨s', hs, hrest⟩ := runFrom_cons_eq_ok h
      rw [List.cons_append, runFrom_cons_ok _ hs]
      exact ih hrest

/-- A run that succeeds on `es ++ fs` has passed through the end of `es`. -/
theorem runFrom_append_eq_ok {s t : σ} {es fs : List ε} (h : runFrom step s (es ++ fs) = .ok t) :
    ∃ u, runFrom step s es = .ok u ∧ runFrom step u fs = .ok t := by
  induction es generalizing s with
  | nil => exact ⟨s, rfl, h⟩
  | cons e es ih =>
      obtain ⟨s', hs, hrest⟩ := runFrom_cons_eq_ok h
      obtain ⟨u, hu, ht⟩ := ih hrest
      exact ⟨u, by rw [runFrom_cons_ok es hs, hu], ht⟩

/-- The end of a run is reached by it. -/
theorem reachedBy_end {s t : σ} {es : List ε} (h : runFrom step s es = .ok t) :
    ReachedBy step s es t :=
  ⟨es, List.prefix_refl es, h⟩

theorem reachedBy_start (s : σ) (es : List ε) : ReachedBy step s es s :=
  ⟨[], List.nil_prefix, rfl⟩

theorem reachedBy_cons {s s' t : σ} {e : ε} {es : List ε} (h : step s e = .ok s')
    (ht : ReachedBy step s' es t) : ReachedBy step s (e :: es) t := by
  obtain ⟨pre, hpre, hrun⟩ := ht
  exact ⟨e :: pre, List.cons_prefix_cons.mpr ⟨rfl, hpre⟩, by rw [runFrom_cons_ok pre h, hrun]⟩

/-- A state reached over `e :: es` is the start, or is reached over `es` after the step `e`. -/
theorem reachedBy_cons_cases {s t : σ} {e : ε} {es : List ε} (h : ReachedBy step s (e :: es) t) :
    t = s ∨ ∃ s', step s e = .ok s' ∧ ReachedBy step s' es t := by
  obtain ⟨pre, hpre, hrun⟩ := h
  cases pre with
  | nil =>
      left
      rw [runFrom_nil] at hrun
      cases hrun
      rfl
  | cons d pre =>
      right
      obtain ⟨rfl, htail⟩ := List.cons_prefix_cons.mp hpre
      obtain ⟨s', hs, hrest⟩ := runFrom_cons_eq_ok hrun
      exact ⟨s', hs, pre, htail, hrest⟩

/-! ### Invariants over runs -/

variable {good : σ → ε → Prop} {inv : σ → Prop}

/-- A condition along `es ++ fs` holds along `es`, and along `fs` from where `es` ends. -/
theorem along_append {s t : σ} {es fs : List ε} (hrun : runFrom step s es = .ok t)
    (h : Along step good s (es ++ fs)) : Along step good s es ∧ Along step good t fs := by
  induction es generalizing s with
  | nil =>
      rw [runFrom_nil] at hrun
      cases hrun
      exact ⟨trivial, h⟩
  | cons e es ih =>
      obtain ⟨s', hs, hrest⟩ := runFrom_cons_eq_ok hrun
      obtain ⟨hes, hfs⟩ := ih hrest (h.2 s' hs)
      refine ⟨⟨h.1, fun u hu => ?_⟩, hfs⟩
      rw [hs] at hu
      cases hu
      exact hes

/-- A condition holds along a run when it holds at each of its events, in the state before it. -/
theorem along_iff {s : σ} {es : List ε} : Along step good s es ↔
    ∀ pre e post, es = pre ++ e :: post → ∀ u, runFrom step s pre = .ok u → good u e := by
  constructor
  · rintro h pre e post rfl u hu
    exact (along_append hu h).2.1
  · induction es generalizing s with
    | nil => exact fun _ => trivial
    | cons e es ih =>
        intro h
        refine ⟨h [] e es rfl s rfl, fun s' hs => ih fun pre d post heq u hu => ?_⟩
        exact h (e :: pre) d post (by rw [heq, List.cons_append]) u (by rw [runFrom_cons_ok pre hs, hu])

/-- Every run meets the condition that asks for nothing. -/
theorem along_true (s : σ) (es : List ε) : Along step (fun _ _ => True) s es :=
  along_iff.mpr fun _ _ _ _ _ _ => trivial

theorem Along.and {good' : σ → ε → Prop} {s : σ} {es : List ε} (h : Along step good s es)
    (h' : Along step good' s es) : Along step (fun s e => good s e ∧ good' s e) s es := by
  rw [along_iff] at h h' ⊢
  exact fun pre e post heq u hu => ⟨h pre e post heq u hu, h' pre e post heq u hu⟩

/-- A condition that can be checked on one step can be checked along a run. -/
instance decidableAlong [∀ s e, Decidable (good s e)] :
    (s : σ) → (es : List ε) → Decidable (Along step good s es)
  | _, [] => isTrue trivial
  | s, e :: es =>
      match h : step s e with
      | .ok s' =>
          have : Decidable (Along step good s' es) := decidableAlong s' es
          decidable_of_iff (good s e ∧ Along step good s' es)
            ⟨fun hg => ⟨hg.1, fun t ht => by rw [h] at ht; cases ht; exact hg.2⟩,
              fun hg => ⟨hg.1, hg.2 s' h⟩⟩
      | .error _ =>
          decidable_of_iff (good s e)
            ⟨fun hg => ⟨hg, fun t ht => by rw [h] at ht; cases ht⟩, fun hg => hg.1⟩

/-- **The run rule.**  An invariant that every good step keeps holds in every state a run of good
steps reaches. -/
theorem run_invariant (hstep : ∀ s e s', inv s → good s e → step s e = .ok s' → inv s') :
    ∀ {s : σ} (es : List ε), inv s → Along step good s es → ∀ t, ReachedBy step s es t → inv t := by
  intro s es
  induction es generalizing s with
  | nil =>
      intro hs _ t ht
      obtain ⟨pre, hpre, hrun⟩ := ht
      rw [List.prefix_nil.mp hpre, runFrom_nil] at hrun
      cases hrun
      exact hs
  | cons e es ih =>
      intro hs hgood t ht
      rcases reachedBy_cons_cases ht with rfl | ⟨s', he, ht'⟩
      · exact hs
      · exact ih (hstep s e s' hs hgood.1 he) (hgood.2 s' he) t ht'

/-- **Equivalent conditions.**  Two conditions that agree on the steps from an invariant, which the steps
of the second one keep, hold along the same runs. -/
theorem along_congr {good' : σ → ε → Prop} (hiff : ∀ s e, inv s → (good' s e ↔ good s e))
    (hstep : ∀ s e s', inv s → good s e → step s e = .ok s' → inv s') :
    ∀ {s : σ} (es : List ε), inv s → (Along step good' s es ↔ Along step good s es) := by
  intro s es
  induction es generalizing s with
  | nil => exact fun _ => Iff.rfl
  | cons e es ih =>
      intro hs
      rw [Along, Along, hiff s e hs]
      refine and_congr_right fun hgood => forall_congr' fun s' => ?_
      exact forall_congr' fun he => ih (hstep s e s' hs hgood he)

/-- **No failure along a good run.**  If from the invariant no good step fails with `f`, then no run
of good steps fails with `f`. -/
theorem run_no_failure {f : φ}
    (hstep : ∀ s e s', inv s → good s e → step s e = .ok s' → inv s')
    (hfail : ∀ s e, inv s → good s e → step s e ≠ .error f) :
    ∀ {s : σ} (es : List ε), inv s → Along step good s es → runFrom step s es ≠ .error f := by
  intro s es
  induction es generalizing s with
  | nil => intro _ _ h; cases h
  | cons e es ih =>
      intro hs hgood h
      cases he : step s e with
      | error g =>
          rw [runFrom_cons_error es he] at h
          cases h
          exact hfail s e hs hgood.1 he
      | ok s' =>
          rw [runFrom_cons_ok es he] at h
          exact ih (hstep s e s' hs hgood.1 he) (hgood.2 s' he) h

/-- **Exact conditions.**  When from the invariant every step succeeds or fails according to `good`
(good steps keep the invariant, the others reach a state outside `safe`), all states reached are safe
exactly when all steps taken are good. -/
theorem reached_forall_iff {safe : σ → Prop} (hsafe : ∀ s, inv s → safe s)
    (hgood : ∀ s e s', inv s → good s e → step s e = .ok s' → inv s')
    (hbad : ∀ s e, inv s → ¬ good s e → ∃ s', step s e = .ok s' ∧ ¬ safe s') :
    ∀ {s : σ} (es : List ε), inv s →
      ((∀ t, ReachedBy step s es t → safe t) ↔ Along step good s es) := by
  intro s es
  induction es generalizing s with
  | nil =>
      intro hs
      refine ⟨fun _ => trivial, fun h t ht => hsafe t ?_⟩
      exact run_invariant hgood [] hs h t ht
  | cons e es ih =>
      intro hs
      refine ⟨?_, fun h t ht => hsafe t (run_invariant hgood (e :: es) hs h t ht)⟩
      intro h
      have hge : good s e := by
        by_contra hn
        obtain ⟨s', he, hs'⟩ := hbad s e hs hn
        exact hs' (h s' (reachedBy_cons he (reachedBy_start s' es)))
      refine ⟨hge, ?_⟩
      intro s' he
      exact (ih (hgood s e s' hs hge he)).mp fun t ht => h t (reachedBy_cons he ht)

/-- **Exact failures.**  When from the invariant, which every step keeps, a step fails with `f` exactly
if it does not meet the condition, a run fails with `f` exactly if the condition does not hold along
it. -/
theorem run_failure_iff {f : φ} (hstep : ∀ s e s', inv s → step s e = .ok s' → inv s')
    (hfail : ∀ s e, inv s → (step s e = .error f ↔ ¬ good s e)) :
    ∀ {s : σ} (es : List ε), inv s → (runFrom step s es ≠ .error f ↔ Along step good s es) := by
  intro s es
  induction es generalizing s with
  | nil => exact fun _ => ⟨fun _ => trivial, fun _ => nofun⟩
  | cons e es ih =>
      intro hs
      cases he : step s e with
      | ok s' =>
          rw [runFrom_cons_ok es he, ih (hstep s e s' hs he)]
          refine ⟨fun h => ⟨?_, fun t ht => ?_⟩, fun h => h.2 s' he⟩
          · by_contra hn
            rw [(hfail s e hs).mpr hn] at he
            cases he
          · rw [he] at ht
            cases ht
            exact h
      | error g =>
          rw [runFrom_cons_error es he]
          refine ⟨fun h => ⟨?_, fun t ht => ?_⟩, fun h heq => ?_⟩
          · by_contra hn
            rw [(hfail s e hs).mpr hn] at he
            exact h he.symm
          · rw [he] at ht
            cases ht
          · rw [heq] at he
            exact (hfail s e hs).mp he h.1

/-- A condition on the events alone. -/
theorem along_of_forall {p : ε → Prop} {s : σ} {es : List ε} (h : ∀ e ∈ es, p e) :
    Along step (fun _ e => p e) s es := by
  refine along_iff.mpr fun pre e post heq _ _ => h e ?_
  rw [heq]
  exact List.mem_append_right pre List.mem_cons_self

/-- **The history rule.**  If from an invariant of the events so far and of the state no good step fails,
and each keeps it, then a run of good steps succeeds and ends in it. -/
theorem run_history (past : List ε → σ → Prop)
    (hstep : ∀ pre s e, past pre s → good s e → ∃ s', step s e = .ok s' ∧ past (pre ++ [e]) s') :
    ∀ {s : σ} {pre : List ε} (es : List ε), past pre s → Along step good s es →
      ∃ t, runFrom step s es = .ok t ∧ past (pre ++ es) t := by
  intro s pre es
  induction es generalizing s pre with
  | nil =>
      intro hs _
      exact ⟨s, rfl, by rwa [List.append_nil]⟩
  | cons e es ih =>
      intro hs hgood
      obtain ⟨s', he, hs'⟩ := hstep pre s e hs hgood.1
      obtain ⟨t, hrun, ht⟩ := ih hs' (hgood.2 s' he)
      refine ⟨t, by rw [runFrom_cons_ok es he, hrun], ?_⟩
      rwa [List.append_cons]

/-- **What a run adds up.**  A list to which every good step adds the output of its event has grown, at
the end of a good run, by the outputs of its events. -/
theorem run_accumulates {β : Type*} {total : σ → List β} {out : ε → List β}
    (hinv : ∀ s e s', inv s → good s e → step s e = .ok s' → inv s')
    (htotal : ∀ s e s', inv s → good s e → step s e = .ok s' → total s' = total s ++ out e) :
    ∀ {s t : σ} (es : List ε), inv s → Along step good s es → runFrom step s es = .ok t →
      total t = total s ++ es.flatMap out := by
  intro s t es
  induction es generalizing s with
  | nil =>
      intro _ _ hrun
      rw [runFrom_nil] at hrun
      cases hrun
      rw [List.flatMap_nil, List.append_nil]
  | cons e es ih =>
      intro hs hgood hrun
      obtain ⟨s', he, hrest⟩ := runFrom_cons_eq_ok hrun
      rw [ih (hinv s e s' hs hgood.1 he) (hgood.2 s' he) hrest, htotal s e s' hs hgood.1 he,
        List.flatMap_cons, List.append_assoc]

end WServer.Library.Runs
