import Mathlib.Data.List.Basic

set_option autoImplicit false

/-!
# Runs of a system

A system takes a list of events one at a time. Two kinds are used: a total one (`run`), with
rules that carry an invariant through the runs whose steps meet a side condition, and one
whose steps may be undefined and produce outputs (`outputs`), with a simulation rule.
-/
namespace SystemRuns

section Total
variable {σ ε : Type} (step : σ → ε → σ)

def run (s : σ) (es : List ε) : σ := es.foldl step s

/-- The condition holds at every step of the run, of the state before it and its event. -/
def Along (C : σ → ε → Prop) : σ → List ε → Prop
  | _, [] => True
  | s, e :: es => C s e ∧ Along C (step s e) es

@[simp] theorem run_nil (s : σ) : run step s [] = s := rfl

@[simp] theorem run_cons (s : σ) (e : ε) (es : List ε) :
    run step s (e :: es) = run step (step s e) es := rfl

theorem run_append (s : σ) (es es' : List ε) :
    run step s (es ++ es') = run step (run step s es) es' := List.foldl_append

theorem run_invariant (I : σ → Prop) (C : σ → ε → Prop)
    (hstep : ∀ s e, I s → C s e → I (step s e)) (s : σ) (es : List ε) (hs : I s)
    (hC : Along step C s es) : I (run step s es) := by
  induction es generalizing s with
  | nil => exact hs
  | cons e es ih => exact ih (step s e) (hstep s e hs hC.1) hC.2

theorem along_of_invariant (I : σ → Prop) (C P : σ → ε → Prop)
    (hstep : ∀ s e, I s → C s e → I (step s e)) (hP : ∀ s e, I s → C s e → P s e)
    (s : σ) (es : List ε) (hs : I s) (hC : Along step C s es) : Along step P s es := by
  induction es generalizing s with
  | nil => trivial
  | cons e es ih => exact ⟨hP s e hs hC.1, ih (step s e) (hstep s e hs hC.1) hC.2⟩

theorem along_iff_forall (P : ε → Prop) (s : σ) (es : List ε) :
    Along step (fun _ e => P e) s es ↔ ∀ e ∈ es, P e := by
  induction es generalizing s with
  | nil => exact iff_of_true trivial (by simp)
  | cons e es ih =>
    rw [Along, ih, List.forall_mem_cons]

theorem along_of_forall (P : ε → Prop) (s : σ) (es : List ε) (h : ∀ e ∈ es, P e) :
    Along step (fun _ e => P e) s es := (along_iff_forall step P s es).mpr h

theorem along_true (s : σ) (es : List ε) : Along step (fun _ _ => True) s es := by
  induction es generalizing s with
  | nil => trivial
  | cons e es ih => exact ⟨trivial, ih (step s e)⟩

theorem run_invariant_always (I : σ → Prop) (hstep : ∀ s e, I s → I (step s e)) (s : σ)
    (es : List ε) (hs : I s) : I (run step s es) :=
  run_invariant step I (fun _ _ => True) (fun s e h _ => hstep s e h) s es hs (along_true step s es)

theorem along_map {τ : Type} (step' : τ → ε → τ) (f : σ → τ)
    (hf : ∀ s e, f (step s e) = step' (f s) e) (C : τ → ε → Prop) (s : σ) (es : List ε) :
    Along step (fun s e => C (f s) e) s es ↔ Along step' C (f s) es := by
  induction es generalizing s with
  | nil => exact Iff.rfl
  | cons e es ih =>
    rw [Along, Along, ih, hf]

/-- If a property that holds before a step holds after it exactly when the step meets the
    condition, then it holds in all states of a run exactly when all its steps do. The
    invariant may rest on both. -/
theorem always_iff_along (I P : σ → Prop) (C : σ → ε → Prop)
    (hI : ∀ s e, I s → P s → C s e → I (step s e))
    (hP : ∀ s e, I s → P s → (P (step s e) ↔ C s e)) (s : σ) (es : List ε) (hs : I s)
    (hPs : P s) : (∀ es', es' <+: es → P (run step s es')) ↔ Along step C s es := by
  induction es generalizing s with
  | nil =>
    refine iff_of_true (fun es' hp => ?_) trivial
    rw [List.prefix_nil.mp hp]
    exact hPs
  | cons e es ih =>
    constructor
    · intro hall
      have hnext : P (step s e) := hall [e] (by simp)
      have hC := (hP s e hs hPs).mp hnext
      refine ⟨hC, (ih (step s e) (hI s e hs hPs hC) hnext).mp fun es' hp => ?_⟩
      exact hall (e :: es') (List.cons_prefix_cons.mpr ⟨rfl, hp⟩)
    · rintro ⟨hC, hrest⟩ es' hp
      have hnext := (hP s e hs hPs).mpr hC
      cases es' with
      | nil => exact hPs
      | cons e' es' =>
        obtain ⟨rfl, hp'⟩ := List.cons_prefix_cons.mp hp
        exact (ih (step s e') (hI s e' hs hPs hC) hnext).mpr hrest es' hp'

theorem along_congr (I : σ → Prop) (P C : σ → ε → Prop)
    (hI : ∀ s e, I s → C s e → I (step s e)) (hP : ∀ s e, I s → (P s e ↔ C s e)) (s : σ)
    (es : List ε) (hs : I s) : Along step P s es ↔ Along step C s es := by
  induction es generalizing s with
  | nil => exact Iff.rfl
  | cons e es ih =>
    rw [Along, Along, hP s e hs]
    exact and_congr_right fun hC => ih (step s e) (hI s e hs hC)

/-- If a step that misses the condition leaves the invariant for good, the invariant holds at
    the end of a run exactly when all its steps meet the condition. -/
theorem run_iff_along (I B P : σ → Prop) (C : σ → ε → Prop)
    (hI : ∀ s e, I s → C s e → I (step s e)) (hB : ∀ s e, I s → ¬ C s e → B (step s e))
    (hBB : ∀ s e, B s → B (step s e)) (hIP : ∀ s, I s → P s) (hBP : ∀ s, B s → ¬ P s)
    (s : σ) (es : List ε) (hs : I s) : P (run step s es) ↔ Along step C s es := by
  induction es generalizing s with
  | nil => exact iff_of_true (hIP s hs) trivial
  | cons e es ih =>
    by_cases hC : C s e
    · rw [run_cons, ih (step s e) (hI s e hs hC)]
      exact (and_iff_right hC).symm
    · have hbad : B (run step (step s e) es) :=
        run_invariant_always step B hBB (step s e) es (hB s e hs hC)
      exact iff_of_false (hBP _ hbad) (fun h => hC h.1)

end Total

section Outputs
variable {σ τ ε ω ω' : Type}

/-- The final state and the outputs in order; undefined as soon as one step is. -/
def outputs (step : σ → ε → Option (σ × ω)) : σ → List ε → Option (σ × List ω)
  | s, [] => some (s, [])
  | s, e :: es =>
    match step s e with
    | none => none
    | some (s', o) => (outputs step s' es).map (fun r => (r.1, o :: r.2))

/-- Every step of the system is defined and follows the step of the specification, with an
    output that meets the specified one. -/
def Simulates (step : σ → ε → Option (σ × ω)) (spec : τ → ε → τ × ω') (R : σ → τ → Prop)
    (Meets : ω → ω' → Prop) : Prop :=
  ∀ s t e, R s t → ∃ s' o, step s e = some (s', o) ∧ R s' (spec t e).1 ∧ Meets o (spec t e).2

def specRun (spec : τ → ε → τ × ω') (t : τ) (es : List ε) : τ := run (fun t e => (spec t e).1) t es

/-- A simulated system is defined on every run, and each output meets the one specified in
    the state that the events before it lead to. -/
theorem Simulates.outputs {step : σ → ε → Option (σ × ω)} {spec : τ → ε → τ × ω'}
    {R : σ → τ → Prop} {Meets : ω → ω' → Prop} (h : Simulates step spec R Meets)
    (s : σ) (t : τ) (es : List ε) (hR : R s t) :
    ∃ s' os, outputs step s es = some (s', os) ∧ R s' (specRun spec t es) ∧
      os.length = es.length ∧
      ∀ (i : ℕ) (e : ε), es[i]? = some e →
        ∃ o, os[i]? = some o ∧ Meets o (spec (specRun spec t (es.take i)) e).2 := by
  induction es generalizing s t with
  | nil => exact ⟨s, [], rfl, hR, rfl, fun i e he => absurd he (by simp)⟩
  | cons e es ih =>
    obtain ⟨s', o, hstep, hR', hm⟩ := h s t e hR
    obtain ⟨s'', os, hrun, hR'', hlen, hms⟩ := ih s' (spec t e).1 hR'
    refine ⟨s'', o :: os, by simp [SystemRuns.outputs, hstep, hrun], hR'', by simp [hlen], ?_⟩
    intro i e' he
    cases i with
    | zero =>
      have hee : e = e' := by simpa using he
      subst hee
      exact ⟨o, rfl, hm⟩
    | succ i => exact hms i e' (by simpa using he)

end Outputs

end SystemRuns
