import SampleThunderPlugin.LabelledRuns

/-! Runs with a record of what their steps mark, forward simulations along that record,
and measures that bound the length of a run. Nothing here knows a program. -/
namespace LabelledRuns

variable {σ ε β α : Type*} {step : σ → ε → σ → Prop} {mark : σ → ε → List β}
  {abstract : α → β → α → Prop}

/-- A run with the marks of its steps, in order. A mark may read the state before the step. -/
inductive Recorded (step : σ → ε → σ → Prop) (mark : σ → ε → List β) :
    σ → List ε → List β → σ → Prop where
  | refl (s) : Recorded step mark s [] [] s
  | tail {s u v es ms e} : Recorded step mark s es ms u → step u e v →
      Recorded step mark s (es ++ [e]) (ms ++ mark u e) v

/-- Keeping a record restricts no run. -/
theorem Run.recorded (mark : σ → ε → List β) {s u : σ} {es : List ε} (h : Run step s es u) :
    ∃ ms, Recorded step mark s es ms u := by
  induction h with
  | refl => exact ⟨[], .refl _⟩
  | tail _ hv ih =>
    obtain ⟨ms, hms⟩ := ih
    exact ⟨_, hms.tail hv⟩

/-- The simulation rule: where each step is matched by a run over its marks, a recorded run
is matched by a run over its record. -/
theorem Recorded.simulates (Sim : σ → α → Prop)
    (hstep : ∀ s a e u, Sim s a → step s e u → ∃ b, Run abstract a (mark s e) b ∧ Sim u b)
    {s u : σ} {a : α} {es : List ε} {ms : List β} (h : Recorded step mark s es ms u)
    (hs : Sim s a) : ∃ b, Run abstract a ms b ∧ Sim u b := by
  induction h with
  | refl => exact ⟨a, .refl a, hs⟩
  | tail _ hv ih =>
    obtain ⟨b, hb, hu⟩ := ih
    obtain ⟨c, hc, hv⟩ := hstep _ _ _ _ hu hv
    exact ⟨c, hb.trans hc, hv⟩

theorem Run.project (f : σ → α) (view : ε → Option β)
    (hstep : ∀ s e u, step s e u → match view e with
      | none => f u = f s
      | some b => abstract (f s) b (f u))
    {s u : σ} {es : List ε} (h : Run step s es u) :
    Run abstract (f s) (es.filterMap view) (f u) := by
  induction h with
  | refl => exact .refl _
  | @tail u v es e _ hv ih =>
    have hview := hstep _ _ _ hv
    rw [List.filterMap_append]
    cases he : view e with
    | none =>
      simp only [he] at hview
      simpa [he, hview] using ih
    | some b =>
      simp only [he] at hview
      simpa [he] using ih.tail hview

/-- A measure that the steps of one kind lower, and no step raises, bounds how often a run
takes steps of that kind. -/
theorem Run.bounded_count (Inv : σ → Prop) (μ : σ → ℕ) (B : ε → Bool)
    (hinv : ∀ s e u, Inv s → step s e u → Inv u)
    (hstep : ∀ s e u, Inv s → step s e u → if B e then μ u < μ s else μ u ≤ μ s)
    {s u : σ} {es : List ε} (h : Run step s es u) (hs : Inv s) : es.countP B + μ u ≤ μ s := by
  induction h with
  | refl => simp
  | @tail u v es e hr hv ih =>
    have hle := hstep _ _ _ (hr.invariant hinv hs) hv
    rw [List.countP_append, List.countP_singleton]
    by_cases hB : B e
    · rw [if_pos hB] at hle ⊢
      omega
    · rw [if_neg hB] at hle ⊢
      omega

theorem Run.bounded (Inv : σ → Prop) (μ : σ → ℕ)
    (hinv : ∀ s e u, Inv s → step s e u → Inv u)
    (hstep : ∀ s e u, Inv s → step s e u → μ u < μ s)
    {s u : σ} {es : List ε} (h : Run step s es u) (hs : Inv s) : es.length + μ u ≤ μ s := by
  have hb := h.bounded_count Inv μ (fun _ => true) hinv (fun s e u hi hv => hstep s e u hi hv) hs
  rwa [List.countP_true] at hb

/-- Every run is short, none gets stuck before it is settled, and some run settles. -/
structure Settles (step : σ → ε → σ → Prop) (s : σ) (n : ℕ) (Settled : σ → Prop) : Prop where
  bounded : ∀ es u, Run step s es u → es.length ≤ n
  live : ∀ es u, Run step s es u → ¬ Settled u → ∃ e v, step u e v
  settles : ∃ es u, Run step s es u ∧ Settled u

theorem settles_of_measure (Inv : σ → Prop) (μ : σ → ℕ) {Settled : σ → Prop}
    (hinv : ∀ s e u, Inv s → step s e u → Inv u)
    (hstep : ∀ s e u, Inv s → step s e u → μ u < μ s)
    (hlive : ∀ s, Inv s → ¬ Settled s → ∃ e u, step s e u) {s : σ} (hs : Inv s) :
    Settles step s (μ s) Settled where
  bounded es u h := by
    have hb := h.bounded Inv μ hinv hstep hs
    omega
  live es u h hu := hlive u (h.invariant hinv hs) hu
  settles := by
    -- by the measure: a state that is not settled can step, and to a smaller one
    induction hn : μ s using Nat.strongRecOn generalizing s with
    | ind n ih =>
      by_cases hd : Settled s
      · exact ⟨[], s, .refl s, hd⟩
      · obtain ⟨e, u, hu⟩ := hlive s hs hd
        obtain ⟨es, v, hv, hd⟩ := ih (μ u) (hn ▸ hstep s e u hs hu) (hinv s e u hs hu) rfl
        exact ⟨e :: es, v, .head hu hv, hd⟩

end LabelledRuns
