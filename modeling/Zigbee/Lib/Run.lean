import Mathlib.Data.List.Basic

/-!
# Runs of a step function

A run feeds a list of events to a step function.

* `run` — the state after a list of events.
* `Along P` — every event of the run meets the condition `P`, which may look at the state before it.
* `outputs` — what the events return.
* `answers_of_silent` — runs that differ in silent events give the same answers.
* `run_induct` — an invariant that a step preserves when the condition holds is an invariant of runs.
-/

namespace Run

variable {σ ε : Type} (step : σ → ε → σ)

def run (s : σ) (es : List ε) : σ := es.foldl step s

/-- Every event of the run from `s` meets `P`. -/
def Along (P : σ → ε → Prop) : σ → List ε → Prop
  | _, [] => True
  | s, e :: es => P s e ∧ Along P (step s e) es

instance Along.decidable (P : σ → ε → Prop) [∀ s e, Decidable (P s e)] :
    (s : σ) → (es : List ε) → Decidable (Along step P s es)
  | _, [] => inferInstanceAs (Decidable True)
  | s, e :: es =>
    have := Along.decidable P (step s e) es
    inferInstanceAs (Decidable (P s e ∧ Along step P (step s e) es))

variable {step}

@[simp] theorem run_nil (s : σ) : run step s [] = s := rfl

@[simp] theorem run_cons (s : σ) (e : ε) (es : List ε) : run step s (e :: es) = run step (step s e) es := rfl

theorem run_append (s : σ) (es es' : List ε) : run step s (es ++ es') = run step (run step s es) es' :=
  List.foldl_append

variable {P : σ → ε → Prop} {s : σ} {es : List ε}

theorem along_append {es' : List ε} :
    Along step P s (es ++ es') ↔ Along step P s es ∧ Along step P (run step s es) es' := by
  induction es generalizing s with
  | nil => simp [Along]
  | cons e es ih => simp [Along, ih, and_assoc]

variable {Q : σ → ε → Prop}

theorem Along.mono (h : ∀ s e, P s e → Q s e) (ha : Along step P s es) : Along step Q s es := by
  induction es generalizing s with
  | nil => trivial
  | cons e es ih => exact ⟨h _ _ ha.1, ih ha.2⟩

/-- A condition on the events alone. -/
theorem along_of_forall {P : ε → Prop} (h : ∀ e ∈ es, P e) : Along step (fun _ => P) s es := by
  induction es generalizing s with
  | nil => trivial
  | cons e es ih => exact ⟨h e List.mem_cons_self, ih fun e' he' => h e' (List.mem_cons_of_mem e he')⟩

theorem along_and : Along step (fun s e => P s e ∧ Q s e) s es ↔ Along step P s es ∧ Along step Q s es := by
  induction es generalizing s with
  | nil => simp [Along]
  | cons e es ih =>
    simp only [Along, ih]
    exact and_and_and_comm

/-- **The invariant rule for runs under a condition on their steps.** -/
theorem run_induct {I : σ → Prop} {P : σ → ε → Prop} (hstep : ∀ s e, I s → P s e → I (step s e))
    {s : σ} {es : List ε} (hs : I s) (ha : Along step P s es) : I (run step s es) := by
  induction es generalizing s with
  | nil => exact hs
  | cons e es ih => exact ih (hstep s e hs ha.1) ha.2

variable {I : σ → Prop}

/-- What every step from a state of the invariant does, every step of a run does. -/
theorem along_of_invariant (hstep : ∀ s e, I s → I (step s e)) (hP : ∀ s e, I s → P s e) (hs : I s) (es : List ε) :
    Along step P s es := by
  induction es generalizing s with
  | nil => trivial
  | cons e es ih => exact ⟨hP s e hs, ih (hstep s e hs)⟩

/-- The invariant rule for runs. -/
theorem run_invariant {I : σ → Prop} (hstep : ∀ s e, I s → I (step s e)) {s : σ} (hs : I s)
    (es : List ε) : I (run step s es) := by
  induction es generalizing s with
  | nil => exact hs
  | cons e es ih => exact ih (hstep s e hs)

/-- Where a step keeps the invariant exactly when the condition holds, so does a run. -/
theorem prefix_iff_along (hstep : ∀ s e, I s → (I (step s e) ↔ P s e)) (hs : I s) (es : List ε) :
    (∀ es', es' <+: es → I (run step s es')) ↔ Along step P s es := by
  induction es generalizing s with
  | nil =>
    refine iff_of_true (fun es' h => ?_) trivial
    rw [List.prefix_nil.mp h]
    exact hs
  | cons e es ih =>
    constructor
    · intro h
      have he : I (step s e) := h [e] ⟨es, rfl⟩
      exact ⟨(hstep s e hs).mp he, (ih he).mp fun es' hes' => h (e :: es') (List.prefix_cons_inj e |>.mpr hes')⟩
    · rintro ⟨he, hrest⟩ es' hes'
      cases es' with
      | nil => exact hs
      | cons e' es' =>
        obtain ⟨rfl, htail⟩ := List.cons_prefix_cons.mp hes'
        exact (ih ((hstep s e' hs).mpr he)).mpr hrest es' htail

/-- Two conditions agree along a run if they agree wherever the invariant holds, and the first one restores it. -/
theorem along_iff_of_invariant (hiff : ∀ s e, I s → (P s e ↔ Q s e)) (hstep : ∀ s e, P s e → I (step s e)) (hs : I s) :
    Along step P s es ↔ Along step Q s es := by
  induction es generalizing s with
  | nil => exact Iff.rfl
  | cons e es ih =>
    constructor
    · rintro ⟨he, hrest⟩
      exact ⟨(hiff s e hs).mp he, (ih (hstep s e he)).mp hrest⟩
    · rintro ⟨he, hrest⟩
      have he' := (hiff s e hs).mpr he
      exact ⟨he', (ih (hstep s e he')).mpr hrest⟩

/-! ## Outputs -/

section Outputs

variable {τ ω ω' : Type} (trans : σ → ε → σ × ω) {trans' : τ → ε → τ × ω'}

/-- What the events of a run return. -/
def outputs : σ → List ε → List ω
  | _, [] => []
  | s, e :: es => (trans s e).2 :: outputs (trans s e).1 es

variable {trans}

theorem outputs_map {ε' : Type} (f : ε' → ε) (s : σ) (es : List ε') :
    outputs trans s (es.map f) = outputs (fun s e => trans s (f e)) s es := by
  induction es generalizing s with
  | nil => rfl
  | cons e es ih => rw [List.map_cons, outputs, outputs, ih]

/-- **Where steps agree from related states, so do runs.** -/
theorem outputs_of_simulation {R : σ → τ → Prop} {P : τ → ε → Prop} {Agrees : ω → ω' → Prop}
    (hstep : ∀ s t e, R s t → P t e → Agrees (trans s e).2 (trans' t e).2 ∧ R (trans s e).1 (trans' t e).1) {t : τ}
    (h : R s t) (ha : Along (fun t e => (trans' t e).1) P t es) :
    List.Forall₂ Agrees (outputs trans s es) (outputs trans' t es) := by
  induction es generalizing s t with
  | nil => exact List.Forall₂.nil
  | cons e es ih =>
    obtain ⟨hagrees, hnext⟩ := hstep s t e h ha.1
    exact List.Forall₂.cons hagrees (ih hnext ha.2)

/-- **What an observer of the outputs keeps**: where one step's outputs take related states to related states,
    and the observer allows them, so it is for a run. -/
theorem along_outputs {κ o : Type} {f : σ → ε → σ × List o} {observe : κ → o → κ} {Allows : κ → o → Prop}
    {R : σ → κ → Prop} (hstep : ∀ s l e, R s l → Along observe Allows l (f s e).2 ∧ R (f s e).1 (run observe l (f s e).2))
    {l : κ} (h : R s l) (es : List ε) :
    Along observe Allows l (outputs f s es).flatten ∧
      R (run (fun s e => (f s e).1) s es) (run observe l (outputs f s es).flatten) := by
  induction es generalizing s l with
  | nil => exact ⟨trivial, h⟩
  | cons e es ih =>
    obtain ⟨hallowed, hnext⟩ := hstep s l e h
    obtain ⟨hrest, hend⟩ := ih hnext
    rw [outputs, List.flatten_cons, run_append]
    exact ⟨along_append.mpr ⟨hallowed, hrest⟩, hend⟩

/-! ### Silent events -/

/-- **Silent events do not change the answers**: where they keep two states related, and the other events
    answer alike from related states, runs that differ in silent events only give the same answers. -/
theorem answers_of_silent (trans : σ → ε → σ × Option ω) (silent : ε → Bool) (R : σ → σ → Prop)
    (hquiet : ∀ s e, silent e = true → (trans s e).2 = none)
    (hleft : ∀ s s' e, R s s' → P s e → silent e = true → R (trans s e).1 s')
    (hright : ∀ s s' e, R s s' → P s' e → silent e = true → R s (trans s' e).1)
    (hloud : ∀ s s' e, R s s' → P s e → P s' e → silent e = false →
      (trans s e).2 = (trans s' e).2 ∧ R (trans s e).1 (trans s' e).1) {s' : σ} (h : R s s') {es' : List ε}
    (ha : Along (fun s e => (trans s e).1) P s es) (ha' : Along (fun s e => (trans s e).1) P s' es')
    (hes : es.filter (!silent ·) = es'.filter (!silent ·)) :
    (outputs trans s es).filterMap id = (outputs trans s' es').filterMap id := by
  -- silent events of the second run, while the first stands still
  have hskip : ∀ (es' : List ε) {s s' : σ}, R s s' → Along (fun s e => (trans s e).1) P s' es' →
      es'.filter (!silent ·) = [] → (outputs trans s' es').filterMap id = [] := by
    intro es'
    induction es' with
    | nil => exact fun _ _ _ => rfl
    | cons e' es' ih =>
      intro s s' h ha' hnil
      cases hsilent : silent e' with
      | false => simp [hsilent] at hnil
      | true =>
        rw [outputs, hquiet s' e' hsilent, List.filterMap_cons_none rfl]
        exact ih (hright _ _ _ h ha'.1 hsilent) ha'.2 (by simpa [hsilent] using hnil)
  induction es generalizing s s' es' with
  | nil => exact (hskip es' h ha' hes.symm).symm
  | cons e es ih =>
    cases hsilent : silent e with
    | true =>
      rw [outputs, hquiet s e hsilent, List.filterMap_cons_none rfl]
      exact ih (hleft _ _ _ h ha.1 hsilent) ha.2 ha' (by simpa [hsilent] using hes)
    | false =>
      rw [List.filter_cons_of_pos (by simp [hsilent])] at hes
      induction es' generalizing s' with
      | nil => cases hes
      | cons e' es' ih' =>
        cases hsilent' : silent e' with
        | true =>
          have hrest := ih' (hright _ _ _ h ha'.1 hsilent') ha'.2 (by simpa [hsilent'] using hes)
          rw [hrest]
          conv_rhs => rw [outputs, hquiet s' e' hsilent', List.filterMap_cons_none rfl]
        | false =>
          rw [List.filter_cons_of_pos (by simp [hsilent'])] at hes
          obtain ⟨rfl, htail⟩ := List.cons.inj hes
          obtain ⟨hanswer, hnext⟩ := hloud _ _ _ h ha.1 ha'.1 hsilent
          rw [outputs, outputs, List.filterMap_cons, List.filterMap_cons, hanswer, ih hnext ha.2 ha'.2 htail]

end Outputs

end Run
